import Xiaomaolv.Lib.Ranking
import Xiaomaolv.Lib.Table
import Xiaomaolv.Loop.Data
import Mathlib.Data.List.Dedup

/-!
# Memories in front of the recent messages

`merge_memory_candidates_into_context` joins the candidates of the two searches by the key of their text, ranks
what it joined by score and time, and puts the first of them in front of the recent messages.

* `F32`: an `f32` by its bits, with the comparison of the source; `MemoryScore`: what
  `normalize_memory_score` returns.
* `mergeMemoryCandidatesIntoContext`: the function, with the order in which the map is visited.
* `memoryOf`, `memories`: what the candidates of one key join to, with no map.
* `mergedByText_iff`: the map holds `memoryOf` under every key.
* `merge_shape`: the recent messages stay, behind at most the limit of memories with new keys.
* **`merge_contract_iff`**: the result is determined by the input exactly when memories that tie, and that can
  both be kept, are shown the same.
-/

namespace Xiaomaolv

/-! ## Scores -/

/-- An `f32`, by its bits. -/
abbrev F32 := BitVec 32

namespace F32

def magnitude (x : F32) : Nat := x.toNat % 2 ^ 31

/-- `f32::is_nan`. -/
def isNan (x : F32) : Bool := 0x7F800000 < x.magnitude

/-- `f32::is_finite`. -/
def isFinite (x : F32) : Bool := x.magnitude < 0x7F800000

/-- The place of a number among the others; both zeros have one. -/
def place (x : F32) : Int := if x.msb then -x.magnitude else x.magnitude

/-- `f32::partial_cmp`. -/
def partialCmp (x y : F32) : Option Ordering :=
  if x.isNan || y.isNan then none else some (compare x.place y.place)

/-- `x < y`. -/
def lt (x y : F32) : Bool := !x.isNan && !y.isNan && x.place < y.place

def zero : F32 := 0

def one : F32 := 0x3F800000

/-- `f32::clamp`. -/
def clamp (x low high : F32) : F32 := if x.lt low then low else if high.lt x then high else x

end F32

/-- `normalize_memory_score`. -/
def normalizeMemoryScore (score : F32) : F32 :=
  if score.isFinite then score.clamp F32.zero F32.one else F32.zero

/-- A score that `normalize_memory_score` keeps: both searches normalize the scores of their candidates. -/
structure MemoryScore where
  value : F32
  normalized : normalizeMemoryScore value = value
deriving DecidableEq

theorem normalizeMemoryScore_idem (score : F32) :
    normalizeMemoryScore (normalizeMemoryScore score) = normalizeMemoryScore score := by
  by_cases hf : score.isFinite
  · have h : normalizeMemoryScore score = score.clamp F32.zero F32.one := if_pos hf
    rw [h]
    by_cases hlow : score.lt F32.zero
    · rw [F32.clamp, if_pos hlow]
      decide
    · by_cases hhigh : F32.one.lt score
      · rw [F32.clamp, if_neg hlow, if_pos hhigh]
        decide
      · have hkeep : score.clamp F32.zero F32.one = score := by
          rw [F32.clamp, if_neg hlow, if_neg hhigh]
        rw [hkeep, h, hkeep]
  · rw [show normalizeMemoryScore score = F32.zero from if_neg hf]
    decide

/-- A score of a search. -/
def MemoryScore.of (score : F32) : MemoryScore := ⟨normalizeMemoryScore score, normalizeMemoryScore_idem score⟩

theorem MemoryScore.number (s : MemoryScore) : s.value.isNan = false := by
  by_cases hf : s.value.isFinite
  · simp only [F32.isFinite, decide_eq_true_eq] at hf
    simp only [F32.isNan, decide_eq_false_iff_not]
    omega
  · have h := s.normalized
    rw [normalizeMemoryScore, if_neg hf] at h
    rw [← h]
    decide

/-! ## Candidates -/

structure RankedMemoryCandidate where
  text : String
  score : MemoryScore
  source : String
  createdAt : Int
deriving DecidableEq

/-- What the standard library makes of texts, scores and times. -/
structure MemoryText where
  /-- `str::to_lowercase`. -/
  toLowercase : String → String
  /-- A score with three decimals. -/
  fixed3 : F32 → String
  formatMemoryTimestamp : Int → String

/-- `str::split_whitespace`. -/
def splitWhitespace (text : String) : List String :=
  ((text.toList.splitOnP isWhitespace).filter (· ≠ [])).map String.ofList

def mergeSourceTag (current next : String) : String :=
  if current = next then current
  else if contains current next then current
  else if contains next current then next
  else
    let tags := ((current.toList.splitOnP (· = '+')).map fun s => trim (String.ofList s)).filter (· ≠ "")
    let tags := if tags.contains next then tags else tags ++ [next]
    "+".intercalate tags

/-- An entry of the map that meets another candidate of its key. -/
def RankedMemoryCandidate.absorb (existing candidate : RankedMemoryCandidate) : RankedMemoryCandidate where
  text := if charCount existing.text < charCount candidate.text then candidate.text else existing.text
  score := if existing.score.value.lt candidate.score.value then candidate.score else existing.score
  source := mergeSourceTag existing.source candidate.source
  createdAt := if existing.createdAt < candidate.createdAt then candidate.createdAt else existing.createdAt

/-- The comparison of the sort: by score and then by time, the later first. -/
def RankedMemoryCandidate.cmp (a b : RankedMemoryCandidate) : Ordering :=
  ((F32.partialCmp b.score.value a.score.value).getD .eq).then (compare b.createdAt a.createdAt)

/-- `a` may stand before `b`. -/
def RankedMemoryCandidate.Before (a b : RankedMemoryCandidate) : Prop := a.cmp b ≠ .gt

instance : DecidableRel RankedMemoryCandidate.Before := fun a b => inferInstanceAs (Decidable (a.cmp b ≠ .gt))

/-- The order in which a map is visited: each of its entries once. -/
structure VisitOrder where
  visit : List (String × RankedMemoryCandidate) → List (String × RankedMemoryCandidate)
  perm : ∀ entries, (visit entries).Perm entries

/-! ## The merge -/

section Merge

variable (env : MemoryText)

def normalizeMemoryTextKey (text : String) : String :=
  env.toLowercase (trim (" ".intercalate (splitWhitespace text)))

/-- What a call of the merge is given. -/
structure MergeRequest where
  recent : List StoredMessage
  semanticCandidates : List RankedMemoryCandidate
  keywordCandidates : List RankedMemoryCandidate
  maxSemanticMemories : Nat
  memorySnippetMaxChars : Nat
  minScore : F32

def recentSeen (recent : List StoredMessage) : List String :=
  (recent.map fun msg => normalizeMemoryTextKey env msg.content).filter (· ≠ "")

/-- A candidate that the loop does not skip. -/
def eligible (req : MergeRequest) (candidate : RankedMemoryCandidate) : Bool :=
  let key := normalizeMemoryTextKey env candidate.text
  !candidate.score.value.lt req.minScore && key ≠ "" && !(recentSeen env req.recent).contains key

/-- One turn of the loop over the candidates. -/
def mergeCandidate (req : MergeRequest) (merged : List (String × RankedMemoryCandidate))
    (candidate : RankedMemoryCandidate) : List (String × RankedMemoryCandidate) :=
  if eligible env req candidate then
    let key := normalizeMemoryTextKey env candidate.text
    match merged.find? fun entry => entry.1 = key with
    | some _ => Table.updateWhere (fun entry => entry.1 = key)
        (fun entry => (entry.1, entry.2.absorb candidate)) merged
    | none => merged ++ [(key, candidate)]
  else merged

def mergedByText (req : MergeRequest) : List (String × RankedMemoryCandidate) :=
  (req.semanticCandidates ++ req.keywordCandidates).foldl (mergeCandidate env req) []

/-- The message that shows a memory. -/
def memoryMessage (req : MergeRequest) (candidate : RankedMemoryCandidate) : StoredMessage where
  role := .system
  content := "[memory score=" ++ env.fixed3 (normalizeMemoryScore candidate.score.value) ++ " src=" ++
    candidate.source ++ " at=" ++ env.formatMemoryTimestamp candidate.createdAt ++ "] " ++
    takeChars (max req.memorySnippetMaxChars 120) candidate.text

def mergeMemoryCandidatesIntoContext (order : VisitOrder) (req : MergeRequest) : List StoredMessage :=
  if req.maxSemanticMemories = 0 then req.recent
  else
    let merged := (order.visit (mergedByText env req)).map (·.2)
    let merged := (merged.insertionSort RankedMemoryCandidate.Before).take req.maxSemanticMemories
    merged.map (memoryMessage env req) ++ req.recent

end Merge

/-! ## The order of the sort -/

namespace RankedMemoryCandidate

/-- The sort does not tell `a` and `b` apart. -/
def Ties (a b : RankedMemoryCandidate) : Prop :=
  a.score.value.place = b.score.value.place ∧ a.createdAt = b.createdAt

instance : DecidableRel Ties := fun a b =>
  inferInstanceAs (Decidable (a.score.value.place = b.score.value.place ∧ a.createdAt = b.createdAt))

theorem before_iff {a b : RankedMemoryCandidate} :
    a.Before b ↔ b.score.value.place < a.score.value.place ∨
      b.score.value.place = a.score.value.place ∧ b.createdAt ≤ a.createdAt := by
  have hcmp : F32.partialCmp b.score.value a.score.value =
      some (compare b.score.value.place a.score.value.place) := by
    simp [F32.partialCmp, b.score.number, a.score.number]
  rw [Before, cmp, hcmp, Option.getD_some]
  rcases lt_trichotomy b.score.value.place a.score.value.place with h | h | h
  · simp [compare_lt_iff_lt.mpr h, Ordering.then, h]
  · simp [Ordering.then, h, compare_gt_iff_gt]
  · have hne : b.score.value.place ≠ a.score.value.place := by omega
    simp [compare_gt_iff_gt.mpr h, Ordering.then, hne]
    omega

theorem before_total (a b : RankedMemoryCandidate) : a.Before b ∨ b.Before a := by
  rw [before_iff, before_iff]
  omega

theorem before_trans (a b c : RankedMemoryCandidate) : a.Before b → b.Before c → a.Before c := by
  rw [before_iff, before_iff, before_iff]
  omega

theorem ties_iff {a b : RankedMemoryCandidate} : a.Ties b ↔ a.Before b ∧ b.Before a := by
  rw [before_iff, before_iff, Ties]
  omega

end RankedMemoryCandidate

/-! ## What the candidates of a key join to -/

section Spec

variable (env : MemoryText) (req : MergeRequest)

/-- The candidates of both searches. -/
def MergeRequest.retrieved : List RankedMemoryCandidate := req.semanticCandidates ++ req.keywordCandidates

/-- What the candidates of one key join to. -/
def memoryOf (candidates : List RankedMemoryCandidate) (key : String) : Option RankedMemoryCandidate :=
  (candidates.filter fun c => eligible env req c ∧ normalizeMemoryTextKey env c.text = key).foldl
    (fun memory c => some (memory.elim c fun existing => existing.absorb c)) none

/-- The memories that can stand in front of the recent messages: one for each key. -/
def memories : List RankedMemoryCandidate :=
  (((req.retrieved.filter (eligible env req)).map fun c => normalizeMemoryTextKey env c.text).dedup).filterMap
    (memoryOf env req req.retrieved)

variable {env req} {candidates : List RankedMemoryCandidate} {key : String}
  {memory candidate : RankedMemoryCandidate}

theorem memoryOf_concat : memoryOf env req (candidates ++ [candidate]) key =
    if eligible env req candidate ∧ normalizeMemoryTextKey env candidate.text = key then
      some ((memoryOf env req candidates key).elim candidate fun existing => existing.absorb candidate)
    else memoryOf env req candidates key := by
  unfold memoryOf
  rw [List.filter_append, List.foldl_append]
  by_cases h : eligible env req candidate ∧ normalizeMemoryTextKey env candidate.text = key
  · rw [if_pos h, List.filter_cons_of_pos (by simpa using h)]
    rfl
  · rw [if_neg h, List.filter_cons_of_neg (by simpa using h)]
    rfl

/-- A memory has the key of its candidates, and the text of one of them. -/
theorem memoryOf_some : ∀ {candidates : List RankedMemoryCandidate} {memory : RankedMemoryCandidate},
    memoryOf env req candidates key = some memory →
    normalizeMemoryTextKey env memory.text = key ∧
      ∃ c ∈ candidates, eligible env req c ∧ c.text = memory.text := by
  intro candidates
  induction candidates using List.reverseRecOn with
  | nil =>
    intro memory h
    exact absurd h (by simp [memoryOf])
  | append_singleton candidates candidate ih =>
    intro memory h
    rw [memoryOf_concat] at h
    split_ifs at h with hc
    · obtain ⟨helig, hkey⟩ := hc
      rcases hold : memoryOf env req candidates key with _ | existing
      · rw [hold] at h
        obtain rfl : candidate = memory := Option.some.inj h
        exact ⟨hkey, candidate, by simp, helig, rfl⟩
      · rw [hold] at h
        obtain rfl : existing.absorb candidate = memory := Option.some.inj h
        obtain ⟨hkey', c, hc, helig', htext⟩ := ih hold
        by_cases hlonger : charCount existing.text < charCount candidate.text
        · have hnew : (existing.absorb candidate).text = candidate.text := if_pos hlonger
          rw [hnew]
          exact ⟨hkey, candidate, by simp, helig, rfl⟩
        · have hkept : (existing.absorb candidate).text = existing.text := if_neg hlonger
          rw [hkept]
          exact ⟨hkey', c, List.mem_append_left _ hc, helig', htext⟩
    · obtain ⟨hkey, c, hc, helig, htext⟩ := ih h
      exact ⟨hkey, c, List.mem_append_left _ hc, helig, htext⟩

theorem eligible_iff : eligible env req candidate = true ↔
    candidate.score.value.lt req.minScore = false ∧ normalizeMemoryTextKey env candidate.text ≠ "" ∧
      normalizeMemoryTextKey env candidate.text ∉ recentSeen env req.recent := by
  simp [eligible, and_assoc]

theorem memoryOf_fresh (h : memoryOf env req candidates key = some memory) {msg : StoredMessage}
    (hmsg : msg ∈ req.recent) : key ≠ normalizeMemoryTextKey env msg.content := by
  obtain ⟨hkey, c, -, helig, htext⟩ := memoryOf_some h
  obtain ⟨-, hne, hseen⟩ := eligible_iff.mp helig
  rw [htext, hkey] at hne hseen
  intro hsame
  refine hseen ?_
  rw [recentSeen, List.mem_filter, List.mem_map]
  exact ⟨⟨msg, hmsg, hsame.symm⟩, by simpa using hne⟩

/-! ## The map of the loop -/

/-- The map of the loop after some candidates: one entry for each key, with what its candidates join to. -/
structure Joined (env : MemoryText) (req : MergeRequest) (candidates : List RankedMemoryCandidate)
    (merged : List (String × RankedMemoryCandidate)) : Prop where
  keys : (merged.map (·.1)).Nodup
  entries : ∀ key memory, (key, memory) ∈ merged ↔ memoryOf env req candidates key = some memory

theorem Joined.nil : Joined env req [] [] where
  keys := List.nodup_nil
  entries := by simp [memoryOf]

/-- One turn of the loop. -/
theorem Joined.step {merged : List (String × RankedMemoryCandidate)} (h : Joined env req candidates merged)
    (candidate : RankedMemoryCandidate) :
    Joined env req (candidates ++ [candidate]) (mergeCandidate env req merged candidate) := by
  unfold mergeCandidate
  by_cases helig : eligible env req candidate
  · rw [if_pos helig]
    have hconcat : ∀ key, memoryOf env req (candidates ++ [candidate]) key =
        if normalizeMemoryTextKey env candidate.text = key then
          some ((memoryOf env req candidates key).elim candidate fun existing => existing.absorb candidate)
        else memoryOf env req candidates key := by
      intro key
      simp [memoryOf_concat, helig]
    generalize normalizeMemoryTextKey env candidate.text = newKey at hconcat
    dsimp only
    split
    next entry hfind =>
      have hin := List.mem_of_find?_eq_some hfind
      have hentry : entry.1 = newKey := by simpa using List.find?_some hfind
      constructor
      · have hmap := Table.map_updateWhere (p := fun e => decide (e.1 = newKey))
          (f := fun e => (e.1, e.2.absorb candidate)) (g := fun e => e.1) (fun _ => rfl) merged
        rw [hmap]
        exact h.keys
      · intro key memory
        rw [Table.mem_updateWhere, hconcat]
        by_cases hkey : newKey = key
        · subst hkey
          have hold := (h.entries newKey entry.2).mp (hentry ▸ hin)
          rw [if_pos rfl, hold, Option.elim_some, Option.some.injEq]
          constructor
          · rintro ⟨row, hrow, hnew⟩
            by_cases hrowKey : row.1 = newKey
            · rw [if_pos (by simpa using hrowKey), Prod.mk.injEq] at hnew
              have hsame := (h.entries newKey row.2).mp (hrowKey ▸ hrow)
              rw [hold, Option.some.injEq] at hsame
              rw [hsame]
              exact hnew.2
            · rw [if_neg (by simpa using hrowKey)] at hnew
              exact absurd (congrArg Prod.fst hnew) hrowKey
          · rintro rfl
            exact ⟨entry, hin, by simp [hentry]⟩
        · rw [if_neg hkey, ← h.entries]
          constructor
          · rintro ⟨row, hrow, hnew⟩
            by_cases hrowKey : row.1 = newKey
            · rw [if_pos (by simpa using hrowKey), Prod.mk.injEq] at hnew
              exact absurd (hrowKey.symm.trans hnew.1) hkey
            · rw [if_neg (by simpa using hrowKey)] at hnew
              exact hnew ▸ hrow
          · intro hrow
            exact ⟨_, hrow, by simp [Ne.symm hkey]⟩
    next hfind =>
      have habsent : ∀ entry ∈ merged, entry.1 ≠ newKey := by simpa using hfind
      have hnone : memoryOf env req candidates newKey = none := by
        rw [Option.eq_none_iff_forall_ne_some]
        intro memory hmem
        exact habsent _ ((h.entries newKey memory).mpr hmem) rfl
      constructor
      · rw [List.map_append]
        refine h.keys.append (List.nodup_singleton _) ?_
        intro key hkey hnew
        obtain ⟨entry, hentry, rfl⟩ := List.mem_map.mp hkey
        exact habsent entry hentry (List.mem_singleton.mp hnew)
      · intro key memory
        rw [List.mem_append, h.entries, hconcat, List.mem_singleton, Prod.mk.injEq]
        by_cases hkey : newKey = key
        · subst hkey
          simp [hnone, eq_comm]
        · simp [hkey, Ne.symm hkey]
  · rw [if_neg helig]
    refine ⟨h.keys, fun key memory => ?_⟩
    rw [h.entries, memoryOf_concat, if_neg fun hc => helig hc.1]

theorem Joined.foldl : ∀ {rest done : List RankedMemoryCandidate}
    {merged : List (String × RankedMemoryCandidate)}, Joined env req done merged →
    Joined env req (done ++ rest) (rest.foldl (mergeCandidate env req) merged)
  | [], done, _, h => (List.append_nil done).symm ▸ h
  | candidate :: rest, done, _, h => by
    rw [List.foldl_cons, List.append_cons]
    exact Joined.foldl (h.step candidate)

variable (env req) in
theorem mergedByText_joined : Joined env req req.retrieved (mergedByText env req) :=
  Joined.foldl Joined.nil

/-- The values of the map are the memories, in some order. -/
theorem mergedByText_perm : ((mergedByText env req).map (·.2)).Perm (memories env req) := by
  have hmap : memories env req =
      ((((req.retrieved.filter (eligible env req)).map fun c => normalizeMemoryTextKey env c.text).dedup).filterMap
        fun key => (memoryOf env req req.retrieved key).map fun memory => (key, memory)).map (·.2) := by
    rw [List.map_filterMap, memories]
    refine List.filterMap_congr fun key _ => ?_
    simp
  rw [hmap]
  refine List.Perm.map _ ((List.perm_ext_iff_of_nodup ?_ ?_).mpr ?_)
  · exact (mergedByText_joined env req).keys.of_map _
  · refine List.Nodup.filterMap (fun key key' entry h h' => ?_) (List.nodup_dedup _)
    simp only [Option.mem_def, Option.map_eq_some_iff] at h h'
    obtain ⟨memory, -, rfl⟩ := h
    obtain ⟨memory', -, hkey⟩ := h'
    exact (congrArg Prod.fst hkey).symm
  · rintro ⟨key, memory⟩
    rw [(mergedByText_joined env req).entries, List.mem_filterMap]
    constructor
    · intro h
      obtain ⟨hkey, c, hc, helig, htext⟩ := memoryOf_some h
      refine ⟨key, ?_, by rw [h]; rfl⟩
      rw [List.mem_dedup, List.mem_map]
      exact ⟨c, List.mem_filter.mpr ⟨hc, helig⟩, by rw [htext, hkey]⟩
    · rintro ⟨key', -, h⟩
      obtain ⟨memory', hmem, heq⟩ := Option.map_eq_some_iff.mp h
      rw [Prod.mk.injEq] at heq
      rw [← heq.1, ← heq.2]
      exact hmem

end Spec

/-! ## The contract -/

section Contract

variable (env : MemoryText) (req : MergeRequest)

/-- The recent messages stay, behind at most the limit of memories: each has the text of a candidate, and a key
that no other memory and no recent message has. -/
def KeepsRecent (result : List StoredMessage) : Prop :=
  ∃ kept : List RankedMemoryCandidate,
    result = kept.map (memoryMessage env req) ++ req.recent ∧
    kept.length ≤ req.maxSemanticMemories ∧
    (kept.map fun memory => normalizeMemoryTextKey env memory.text).Nodup ∧
    ∀ memory ∈ kept, (∃ c ∈ req.retrieved, c.text = memory.text) ∧
      ∀ msg ∈ req.recent, normalizeMemoryTextKey env memory.text ≠ normalizeMemoryTextKey env msg.content

/-- What the merge promises of one input, for every order in which a map can be visited. -/
structure MergeContract : Prop where
  shape : ∀ order, KeepsRecent env req (mergeMemoryCandidatesIntoContext env order req)
  /-- The result does not depend on the order. -/
  determined : ∀ order order', mergeMemoryCandidatesIntoContext env order req =
    mergeMemoryCandidatesIntoContext env order' req

/-- Memories that tie, and that can be among the first, are shown the same. -/
def TiesShownAlike : Prop :=
  ∀ a ∈ memories env req, ∀ b ∈ memories env req, a.Ties b →
    Ranking.ahead RankedMemoryCandidate.Before (memories env req) a < req.maxSemanticMemories →
    memoryMessage env req a = memoryMessage env req b

variable {env req}

/-- The recent messages stay, behind at most the limit of memories with new keys. -/
theorem merge_shape (order : VisitOrder) :
    KeepsRecent env req (mergeMemoryCandidatesIntoContext env order req) := by
  by_cases hmax : req.maxSemanticMemories = 0
  · refine ⟨[], ?_, Nat.zero_le _, List.nodup_nil, by simp⟩
    rw [mergeMemoryCandidatesIntoContext, if_pos hmax]
    rfl
  · have hjoined := mergedByText_joined env req
    obtain ⟨ranked, hranked⟩ : ∃ ranked, ranked = ((order.visit (mergedByText env req)).map
      (·.2)).insertionSort RankedMemoryCandidate.Before := ⟨_, rfl⟩
    have hperm : ranked.Perm ((mergedByText env req).map (·.2)) :=
      hranked ▸ (List.perm_insertionSort _ _).trans ((order.perm _).map _)
    -- The key of an entry is the key of the text of its memory.
    have hkeys : (mergedByText env req).map (fun entry => normalizeMemoryTextKey env entry.2.text) =
        (mergedByText env req).map (·.1) :=
      List.map_congr_left fun entry hentry => (memoryOf_some ((hjoined.entries _ _).mp hentry)).1
    refine ⟨ranked.take req.maxSemanticMemories, ?_, List.length_take_le _ _, ?_, ?_⟩
    · rw [mergeMemoryCandidatesIntoContext, if_neg hmax, hranked]
    · rw [List.map_take]
      refine List.Nodup.sublist (List.take_sublist _ _) ((hperm.map _).nodup_iff.mpr ?_)
      rw [List.map_map]
      exact hkeys ▸ hjoined.keys
    · intro memory hmemory
      obtain ⟨entry, hentry, rfl⟩ := List.mem_map.mp (hperm.mem_iff.mp (List.mem_of_mem_take hmemory))
      have hof := (hjoined.entries _ _).mp hentry
      obtain ⟨hkey, c, hc, -, htext⟩ := memoryOf_some hof
      refine ⟨⟨c, hc, htext⟩, fun msg hmsg => ?_⟩
      rw [hkey]
      exact memoryOf_fresh hof hmsg

/-- An order that visits one map in a given way. -/
def VisitOrder.ofPerm {entries entries' : List (String × RankedMemoryCandidate)} (h : entries'.Perm entries) :
    VisitOrder where
  visit m := if m = entries then entries' else m
  perm m := by
    split_ifs with hm
    · exact hm ▸ h
    · exact List.Perm.refl m

theorem merge_eq (hmax : req.maxSemanticMemories ≠ 0) (order : VisitOrder) :
    mergeMemoryCandidatesIntoContext env order req =
      ((((order.visit (mergedByText env req)).insertionSort fun x y => x.2.Before y.2).take
        req.maxSemanticMemories).map fun entry => memoryMessage env req entry.2) ++ req.recent := by
  rw [mergeMemoryCandidatesIntoContext, if_neg hmax]
  dsimp only
  have hsort := List.map_insertionSort (r := fun x y : String × RankedMemoryCandidate => x.2.Before y.2)
    (s := RankedMemoryCandidate.Before) (fun entry => entry.2) (order.visit (mergedByText env req))
    fun _ _ _ _ => Iff.rfl
  rw [← hsort, ← List.map_take, List.map_map]
  rfl

/-- **The merge keeps its contract** exactly when memories that tie, and that can be among the first, are shown
the same. -/
theorem merge_contract_iff : MergeContract env req ↔ TiesShownAlike env req := by
  by_cases hmax : req.maxSemanticMemories = 0
  · refine iff_of_true ⟨merge_shape, fun order order' => ?_⟩ fun a _ b _ _ hahead => absurd hahead (by omega)
    rw [mergeMemoryCandidatesIntoContext, mergeMemoryCandidatesIntoContext, if_pos hmax, if_pos hmax]
  · have hdet := Ranking.take_determined_iff (r := fun x y : String × RankedMemoryCandidate => x.2.Before y.2)
      (fun x y => RankedMemoryCandidate.before_total x.2 y.2)
      (fun x y z => RankedMemoryCandidate.before_trans x.2 y.2 z.2) (mergedByText env req)
      req.maxSemanticMemories fun entry => memoryMessage env req entry.2
    have hahead : ∀ entry : String × RankedMemoryCandidate,
        Ranking.ahead (fun x y => x.2.Before y.2) (mergedByText env req) entry =
          Ranking.ahead RankedMemoryCandidate.Before (memories env req) entry.2 := by
      intro entry
      rw [← Ranking.ahead_perm mergedByText_perm, Ranking.ahead, Ranking.ahead, List.countP_map]
      rfl
    constructor
    · rintro ⟨-, hdetermined⟩ a ha b hb hties hlt
      obtain ⟨hab, hba⟩ := RankedMemoryCandidate.ties_iff.mp hties
      obtain ⟨x, hx, rfl⟩ := List.mem_map.mp (mergedByText_perm.mem_iff.mpr ha)
      obtain ⟨y, hy, rfl⟩ := List.mem_map.mp (mergedByText_perm.mem_iff.mpr hb)
      refine hdet.mp (fun l₁ l₂ h1 h2 => ?_) x hx y hy hab hba ((hahead x).trans_lt hlt)
      have h := hdetermined (VisitOrder.ofPerm h1) (VisitOrder.ofPerm h2)
      rw [merge_eq hmax, merge_eq hmax, List.append_cancel_right_eq] at h
      simpa only [VisitOrder.ofPerm, if_pos] using h
    · intro h
      refine ⟨merge_shape, fun order order' => ?_⟩
      rw [merge_eq hmax, merge_eq hmax]
      congr 1
      refine hdet.mpr (fun x hx y hy hab hba hlt => ?_) _ _ (order.perm _) (order'.perm _)
      exact h _ (mergedByText_perm.mem_iff.mp (List.mem_map_of_mem hx)) _
        (mergedByText_perm.mem_iff.mp (List.mem_map_of_mem hy))
        (RankedMemoryCandidate.ties_iff.mpr ⟨hab, hba⟩) ((hahead x).symm.trans_lt hlt)

end Contract

/-! ## An input with a tie -/

namespace Sample

def memoryText : MemoryText where
  toLowercase := toAsciiLowercase
  fixed3 _ := "0.500"
  formatMemoryTimestamp t := "unix:" ++ toString t

/-- Two memories of one second that both searches score the same. -/
def tiedRequest : MergeRequest where
  recent := [⟨.user, "what do I drink?"⟩]
  semanticCandidates := [⟨"tea", MemoryScore.of 0x3F000000, "vec", 10⟩,
    ⟨"coffee", MemoryScore.of 0x3F000000, "vec", 10⟩]
  keywordCandidates := []
  maxSemanticMemories := 1
  memorySnippetMaxChars := 420
  minScore := 0x3E3851EC

/-- Which of two tied memories is kept depends on the order of the map. -/
theorem merge_by_map_order : ¬ MergeContract memoryText tiedRequest := by
  rw [merge_contract_iff]
  intro h
  have htea := h ⟨"tea", MemoryScore.of 0x3F000000, "vec", 10⟩ (by decide +kernel)
    ⟨"coffee", MemoryScore.of 0x3F000000, "vec", 10⟩ (by decide +kernel) ⟨rfl, rfl⟩ (by decide +kernel)
  exact absurd htea (by decide +kernel)

end Sample

end Xiaomaolv
