import Xiaomaolv.Memory.Merge
import Mathlib.Data.List.Sort
import Mathlib.Logic.Function.Basic

/-!
# The budget of a context

A context that has more tokens than the window leaves for it is cut down to a selection of its messages: memory
snippets up to their share, then the messages from the newest on.

* `budgetedContext`: the selection, each message with its place in the history; `applyContextBudget`.
* `Selects`: what is selected keeps its order and, up to truncation, its text; `selects_budgetedContext`.
* `leadingFit`: how many of some messages fit into the room, counted from the first.
* **`context_budget_iff`**: the selection is within the budget and has the newest message if and only if no message
  is truncated and the newest is a memory snippet or fits into what the snippets leave.
* **`context_budget_exceeded`**: one long message is truncated to more than the budget.
-/

namespace Xiaomaolv

namespace ContextBudget

/-! ## The estimate -/

def estimateTextTokens (text : String) : Nat := max ((charCount text + 3) / 4) 1

def estimateMessageTokens (msg : StoredMessage) : Nat := estimateTextTokens msg.content + 4

def truncateMessageToTokenBudget (msg : StoredMessage) (maxTokens : Nat) : StoredMessage :=
  if maxTokens = 0 then ⟨msg.role, ""⟩
  else if estimateMessageTokens msg ≤ maxTokens then msg
  else
    let maxChars := maxTokens * 4 - 12
    let content := takeChars (max maxChars 8) msg.content
    ⟨msg.role, if content.isEmpty then content else content ++ " ...(truncated)"⟩

/-! ## Memory snippets -/

/-- The score that a memory snippet begins with; `parse` is `str::parse::<f32>`. -/
def parseMemoryScore (parse : String → Option F32) (content : String) : Option F32 :=
  match splitOnce "[memory score=".toList content.toList with
  | none => none
  | some (_, tail) =>
    if tail.any fun c => c = ' ' ∨ c = ']' then
      parse (trim (String.ofList (tail.takeWhile fun c => c ≠ ' ' ∧ c ≠ ']')))
    else none

structure MemoryCandidate where
  idx : Nat
  score : F32
  tokens : Nat
  deriving DecidableEq, Repr

/-- The comparison of the sort: by score and then by place, the later first. -/
def MemoryCandidate.cmp (a b : MemoryCandidate) : Ordering :=
  ((F32.partialCmp b.score a.score).getD .eq).then (compare b.idx a.idx)

/-- A system message with a score. -/
def memoryCandidate (parse : String → Option F32) (p : StoredMessage × Nat) : Option MemoryCandidate :=
  if p.1.role ≠ .system then none
  else (parseMemoryScore parse p.1.content).map fun score => ⟨p.2, score, estimateMessageTokens p.1⟩

def memoryCandidates (parse : String → Option F32) (messages : List StoredMessage) : List MemoryCandidate :=
  (messages.zipIdx.filterMap (memoryCandidate parse)).mergeSort fun a b => a.cmp b ≠ .gt

/-! ## The selection -/

structure Selection where
  selected : Nat → Bool
  replacements : Nat → Option StoredMessage
  used : Nat
  recentKept : Nat

/-- Nothing is selected. -/
def Selection.empty : Selection := ⟨fun _ => false, fun _ => none, 0, 0⟩

/-- `selected[idx] = true; used += tokens;` -/
def Selection.select (s : Selection) (idx tokens : Nat) : Selection :=
  { s with
    selected := Function.update s.selected idx true
    used := s.used + tokens }

section Loops

variable (inputBudget : Nat)

/-- The memory snippets that fit into their share. -/
def selectMemories (memoryBudget : Nat) : List MemoryCandidate → Selection → Selection
  | [], s => s
  | candidate :: candidates, s =>
    if memoryBudget < s.used + candidate.tokens then selectMemories memoryBudget candidates s
    else selectMemories memoryBudget candidates (s.select candidate.idx candidate.tokens)

/-- A message that does not fit is truncated to what remains. -/
def Selection.truncate (s : Selection) (msg : StoredMessage) (idx : Nat) : Selection :=
  let truncated := truncateMessageToTokenBudget msg (inputBudget - s.used)
  let truncatedTokens := estimateMessageTokens truncated
  let s :=
    if 0 < truncatedTokens then
      { s with
        selected := Function.update s.selected idx true
        used := min (s.used + truncatedTokens) inputBudget
        replacements := Function.update s.replacements idx (some truncated) }
    else s
  { s with recentKept := s.recentKept + 1 }

/-- A message that fits is taken as it is. -/
def Selection.keep (s : Selection) (idx tokens : Nat) : Selection :=
  { s.select idx tokens with recentKept := s.recentKept + 1 }

/-- The messages, from the newest on, where one that does not fit is truncated while few are kept and more than
12 tokens remain. -/
def selectRecent (minRecentMessages : Nat) : List (StoredMessage × Nat) → Selection → Selection
  | [], s => s
  | (msg, idx) :: messages, s =>
    if s.selected idx then selectRecent minRecentMessages messages s
    else if inputBudget < s.used + estimateMessageTokens msg then
      if s.recentKept < minRecentMessages ∧ 12 < inputBudget - s.used then
        selectRecent minRecentMessages messages (s.truncate inputBudget msg idx)
      else selectRecent minRecentMessages messages s
    else
      let s := s.keep idx (estimateMessageTokens msg)
      if inputBudget ≤ s.used then s else selectRecent minRecentMessages messages s

/-- The messages that still fit, from the newest on. -/
def selectFitting : List (StoredMessage × Nat) → Selection → Selection
  | [], s => s
  | (msg, idx) :: messages, s =>
    if inputBudget ≤ s.used then s
    else if s.selected idx then selectFitting messages s
    else
      let tokens := estimateMessageTokens msg
      if inputBudget < s.used + tokens then selectFitting messages s
      else selectFitting messages (s.select idx tokens)

end Loops

/-- The last message, where none is selected. -/
def selectLast (messages : List StoredMessage) (s : Selection) : Selection :=
  if messages.zipIdx.all fun (_, idx) => !s.selected idx then
    { s with selected := Function.update s.selected (messages.length - 1) true }
  else s

/-- The selected messages, each with its place. -/
def Selection.context (s : Selection) (messages : List StoredMessage) : List (StoredMessage × Nat) :=
  messages.zipIdx.filterMap fun (msg, idx) =>
    if s.selected idx then some ((s.replacements idx).getD msg, idx) else none

/-- The share of the memory snippets; the product saturates. -/
def memoryBudgetOf (inputBudget memoryBudgetRatio : Nat) : Nat :=
  min (inputBudget * min memoryBudgetRatio 80) (2 ^ 64 - 1) / 100

/-- The memory snippets that are selected. -/
def memorySelection (parse : String → Option F32) (messages : List StoredMessage)
    (inputBudget memoryBudgetRatio : Nat) : Selection :=
  selectMemories (memoryBudgetOf inputBudget memoryBudgetRatio) (memoryCandidates parse messages) .empty

/-- The context within the budget, each message with its place in the history. -/
def budgetedContext (parse : String → Option F32) (messages : List StoredMessage)
    (contextWindowTokens contextReservedTokens memoryBudgetRatio minRecentMessages : Nat) :
    List (StoredMessage × Nat) :=
  if messages.isEmpty ∨ contextWindowTokens = 0 then messages.zipIdx
  else
    let inputBudget := contextWindowTokens - contextReservedTokens
    if inputBudget = 0 then messages.zipIdx.getLast?.toList
    else
      let totalTokens := (messages.map estimateMessageTokens).sum
      if totalTokens ≤ inputBudget then messages.zipIdx
      else
        let s := memorySelection parse messages inputBudget memoryBudgetRatio
        let s := selectRecent inputBudget minRecentMessages messages.zipIdx.reverse s
        let s := selectFitting inputBudget messages.zipIdx.reverse s
        (selectLast messages s).context messages

def applyContextBudget (parse : String → Option F32) (messages : List StoredMessage)
    (contextWindowTokens contextReservedTokens memoryBudgetRatio minRecentMessages : Nat) :
    List StoredMessage :=
  (budgetedContext parse messages contextWindowTokens contextReservedTokens memoryBudgetRatio
    minRecentMessages).map Prod.fst

/-! ## Tokens of a selection -/

theorem five_le_estimateMessageTokens (msg : StoredMessage) : 5 ≤ estimateMessageTokens msg := by
  have : 1 ≤ estimateTextTokens msg.content := Nat.le_max_right _ _
  unfold estimateMessageTokens
  omega

/-- **A truncated message does not fit** into the room that it is truncated to. -/
theorem lt_estimate_truncate (msg : StoredMessage) {remain : Nat} (hroom : 12 < remain)
    (hlong : remain < estimateMessageTokens msg) :
    remain < estimateMessageTokens (truncateMessageToTokenBudget msg remain) := by
  have hchars : 4 * remain ≤ charCount msg.content + 15 := by
    unfold estimateMessageTokens estimateTextTokens at hlong
    omega
  have hmax : max (remain * 4 - 12) 8 = remain * 4 - 12 := by omega
  have hkept : (msg.content.toList.take (remain * 4 - 12)).length = min (remain * 4 - 12) (charCount msg.content) :=
    List.length_take
  have hsome : (takeChars (remain * 4 - 12) msg.content).isEmpty = false := by
    rw [Bool.eq_false_iff, ne_eq, String.isEmpty_iff]
    intro hempty
    have hlen := congrArg (fun t => t.toList.length) hempty
    simp only [takeChars, String.toList_ofList, hkept, String.toList_empty, List.length_nil] at hlen
    omega
  have hsuffix : " ...(truncated)".toList.length = 15 := by decide
  have hcut : truncateMessageToTokenBudget msg remain =
      ⟨msg.role, takeChars (remain * 4 - 12) msg.content ++ " ...(truncated)"⟩ := by
    rw [truncateMessageToTokenBudget, if_neg (by omega), if_neg (by omega)]
    simp only [hmax, hsome, if_neg Bool.false_ne_true]
  rw [hcut]
  unfold estimateMessageTokens estimateTextTokens charCount
  rw [String.toList_append, List.length_append, takeChars, String.toList_ofList, hkept, hsuffix]
  omega

/-- The tokens that a message adds to the context. -/
def Selection.cost (s : Selection) (p : StoredMessage × Nat) : Nat :=
  if s.selected p.2 then estimateMessageTokens ((s.replacements p.2).getD p.1) else 0

/-- The tokens of the selected messages. -/
def Selection.tokens (s : Selection) (messages : List StoredMessage) : Nat := (messages.zipIdx.map s.cost).sum

theorem tokens_context (s : Selection) (messages : List StoredMessage) :
    ((s.context messages).map fun p => estimateMessageTokens p.1).sum = s.tokens messages := by
  unfold Selection.context Selection.tokens
  induction messages.zipIdx with
  | nil => rfl
  | cons p l ih =>
    rw [List.map_cons, List.sum_cons, ← ih, Selection.cost]
    by_cases hsel : s.selected p.2 <;> simp [hsel]

/-- A message that is selected in addition adds its own tokens. -/
theorem sum_cost_add {s : Selection} (s' : Selection) {l : List (StoredMessage × Nat)} {msg : StoredMessage} {idx : Nat}
    (hnodup : (l.map Prod.snd).Nodup) (hmem : (msg, idx) ∈ l) (hout : s.selected idx = false)
    (hin : s'.selected idx = true)
    (hother : ∀ i ≠ idx, s'.selected i = s.selected i ∧ s'.replacements i = s.replacements i) :
    (l.map s'.cost).sum = (l.map s.cost).sum + estimateMessageTokens ((s'.replacements idx).getD msg) := by
  have hcost : ∀ p : StoredMessage × Nat, p.2 ≠ idx → s'.cost p = s.cost p := by
    intro p hp
    rw [Selection.cost, Selection.cost, (hother p.2 hp).1, (hother p.2 hp).2]
  induction l with
  | nil => cases hmem
  | cons p l ih =>
    rw [List.map_cons, List.nodup_cons] at hnodup
    rw [List.map_cons, List.map_cons, List.sum_cons, List.sum_cons]
    rcases List.mem_cons.mp hmem with rfl | hmem
    · have hrest : l.map s'.cost = l.map s.cost :=
        List.map_congr_left fun q hq => hcost q fun heq => hnodup.1 (by
          change idx ∈ l.map Prod.snd
          rw [← heq]
          exact List.mem_map_of_mem hq)
      rw [hrest]
      simp only [Selection.cost, hin, hout, if_true]
      rw [if_neg Bool.false_ne_true]
      omega
    · have hne : p.2 ≠ idx := fun heq => hnodup.1 (by
        rw [heq]
        exact List.mem_map_of_mem (f := Prod.snd) hmem)
      rw [ih hnodup.2 hmem, hcost p hne]
      omega

/-- The count of tokens is right, within the budget, and nothing was truncated. -/
structure Counted (messages : List StoredMessage) (inputBudget : Nat) (s : Selection) : Prop where
  used : s.used = s.tokens messages
  le : s.used ≤ inputBudget
  whole : ∀ i, s.replacements i = none

section Steps

variable {messages : List StoredMessage} {inputBudget : Nat} {s : Selection} {msg : StoredMessage} {idx : Nat}

theorem nodup_places (messages : List StoredMessage) : (messages.zipIdx.map Prod.snd).Nodup := by
  rw [List.zipIdx_map_snd]
  exact List.nodup_range'

theorem same_place {p q : StoredMessage × Nat} (hp : p ∈ messages.zipIdx) (hq : q ∈ messages.zipIdx)
    (h : p.2 = q.2) : p.1 = q.1 := by
  have hfirst := List.mem_zipIdx_iff_getElem?.mp hp
  rw [h, List.mem_zipIdx_iff_getElem?.mp hq] at hfirst
  exact (Option.some.inj hfirst).symm

theorem Counted.select (h : Counted messages inputBudget s) (hmem : (msg, idx) ∈ messages.zipIdx)
    (hout : s.selected idx = false) (hfits : s.used + estimateMessageTokens msg ≤ inputBudget) :
    Counted messages inputBudget (s.select idx (estimateMessageTokens msg)) := by
  refine ⟨?_, hfits, h.whole⟩
  have hsum := sum_cost_add (s.select idx (estimateMessageTokens msg)) (nodup_places messages) hmem hout
    (by simp [Selection.select]) fun i hi => ⟨by simp [Selection.select, hi], rfl⟩
  unfold Selection.tokens
  rw [hsum]
  change s.used + _ = _
  rw [h.used, show (s.select idx (estimateMessageTokens msg)).replacements idx = none from h.whole idx]
  rfl

/-! ## The memory snippets -/

theorem counted_selectMemories {memoryBudget : Nat} (hshare : memoryBudget ≤ inputBudget)
    {candidates : List MemoryCandidate} (h : Counted messages inputBudget s)
    (hnodup : (candidates.map MemoryCandidate.idx).Nodup)
    (hof : ∀ c ∈ candidates, ∃ msg, (msg, c.idx) ∈ messages.zipIdx ∧ c.tokens = estimateMessageTokens msg)
    (hout : ∀ c ∈ candidates, s.selected c.idx = false) :
    Counted messages inputBudget (selectMemories memoryBudget candidates s) := by
  induction candidates generalizing s with
  | nil => exact h
  | cons c candidates ih =>
    rw [List.map_cons, List.nodup_cons] at hnodup
    have hrest := fun d hd => hof d (List.mem_cons_of_mem c hd)
    have hunselected := fun d hd => hout d (List.mem_cons_of_mem c hd)
    rw [selectMemories]
    split_ifs with hfull
    · exact ih h hnodup.2 hrest hunselected
    · obtain ⟨msg, hmem, htokens⟩ := hof c List.mem_cons_self
      rw [htokens] at hfull ⊢
      refine ih (h.select hmem (hout c List.mem_cons_self) (by omega)) hnodup.2 hrest fun d hd => ?_
      have hne : d.idx ≠ c.idx := fun heq => hnodup.1 (heq ▸ List.mem_map_of_mem hd)
      simp [Selection.select, hne, hunselected d hd]

theorem recentKept_selectMemories {memoryBudget : Nat} {candidates : List MemoryCandidate} :
    (selectMemories memoryBudget candidates s).recentKept = s.recentKept := by
  induction candidates generalizing s with
  | nil => rfl
  | cons c candidates ih =>
    rw [selectMemories]
    split_ifs
    · exact ih
    · exact ih

theorem memoryBudgetOf_le (inputBudget memoryBudgetRatio : Nat) :
    memoryBudgetOf inputBudget memoryBudgetRatio ≤ inputBudget := by
  have hratio : min memoryBudgetRatio 80 ≤ 80 := Nat.min_le_right _ _
  have hprod : inputBudget * min memoryBudgetRatio 80 ≤ inputBudget * 80 := Nat.mul_le_mul_left _ hratio
  unfold memoryBudgetOf
  omega

theorem memoryCandidate_eq_some {parse : String → Option F32} {p : StoredMessage × Nat} {c : MemoryCandidate}
    (h : memoryCandidate parse p = some c) : c.idx = p.2 ∧ c.tokens = estimateMessageTokens p.1 := by
  unfold memoryCandidate at h
  split_ifs at h
  obtain ⟨score, -, rfl⟩ := Option.map_eq_some_iff.mp h
  exact ⟨rfl, rfl⟩

theorem places_candidates (parse : String → Option F32) (l : List (StoredMessage × Nat)) :
    ((l.filterMap (memoryCandidate parse)).map MemoryCandidate.idx).Sublist (l.map Prod.snd) := by
  induction l with
  | nil => exact List.Sublist.slnil
  | cons p l ih =>
    rw [List.map_cons]
    cases hc : memoryCandidate parse p with
    | none =>
      rw [List.filterMap_cons_none hc]
      exact ih.cons _
    | some c =>
      rw [List.filterMap_cons_some hc, List.map_cons, (memoryCandidate_eq_some hc).1]
      exact ih.cons_cons _

theorem counted_memorySelection (parse : String → Option F32) (messages : List StoredMessage)
    (inputBudget memoryBudgetRatio : Nat) :
    Counted messages inputBudget (memorySelection parse messages inputBudget memoryBudgetRatio) := by
  have hempty : Counted messages inputBudget .empty := by
    refine ⟨?_, Nat.zero_le _, fun _ => rfl⟩
    unfold Selection.tokens
    rw [show Selection.empty.cost = fun _ => 0 from rfl]
    simp [Selection.empty]
  have hperm : (memoryCandidates parse messages).Perm (messages.zipIdx.filterMap (memoryCandidate parse)) :=
    List.mergeSort_perm _ _
  refine counted_selectMemories (memoryBudgetOf_le _ _) hempty ?_ (fun c hc => ?_) fun _ _ => rfl
  · rw [(hperm.map _).nodup_iff]
    exact (nodup_places messages).sublist (places_candidates parse _)
  · obtain ⟨p, hp, hc⟩ := List.mem_filterMap.mp (hperm.mem_iff.mp hc)
    obtain ⟨hidx, htokens⟩ := memoryCandidate_eq_some hc
    exact ⟨p.1, hidx ▸ hp, htokens⟩

/-! ## The newest messages -/

/-- No message will be truncated: enough are kept, or the room is too small. -/
def Stuck (inputBudget minRecentMessages : Nat) (s : Selection) : Prop :=
  minRecentMessages ≤ s.recentKept ∨ inputBudget - s.used ≤ 12

section Recent

variable {minRecentMessages : Nat} {l : List (StoredMessage × Nat)}

theorem Counted.keep (h : Counted messages inputBudget s) (hmem : (msg, idx) ∈ messages.zipIdx)
    (hout : s.selected idx = false) (hfits : s.used + estimateMessageTokens msg ≤ inputBudget) :
    Counted messages inputBudget (s.keep idx (estimateMessageTokens msg)) :=
  ⟨(h.select hmem hout hfits).used, (h.select hmem hout hfits).le, (h.select hmem hout hfits).whole⟩

theorem Stuck.keep (h : Stuck inputBudget minRecentMessages s) (idx tokens : Nat) :
    Stuck inputBudget minRecentMessages (s.keep idx tokens) := by
  rcases h with h | h
  · exact .inl (Nat.le_succ_of_le h)
  · exact .inr ((Nat.sub_le_sub_left (Nat.le_add_right _ _) _).trans h)

theorem counted_selectRecent_of_stuck (hstuck : Stuck inputBudget minRecentMessages s)
    (h : Counted messages inputBudget s) (hl : ∀ p ∈ l, p ∈ messages.zipIdx) :
    Counted messages inputBudget (selectRecent inputBudget minRecentMessages l s) := by
  induction l generalizing s with
  | nil => exact h
  | cons p l ih =>
    obtain ⟨msg, idx⟩ := p
    have hrest := fun q hq => hl q (List.mem_cons_of_mem _ hq)
    rw [selectRecent]
    dsimp only
    split_ifs with hsel hlong hcut hfull
    · exact ih hstuck h hrest
    · rcases hstuck with hstuck | hstuck <;> omega
    · exact ih hstuck h hrest
    · exact h.keep (hl _ List.mem_cons_self) (by simpa using hsel) (by omega)
    · exact ih (hstuck.keep _ _) (h.keep (hl _ List.mem_cons_self) (by simpa using hsel) (by omega)) hrest

theorem selectRecent_of_full (hfull : inputBudget ≤ s.used) : selectRecent inputBudget minRecentMessages l s = s := by
  induction l with
  | nil => rfl
  | cons p l ih =>
    obtain ⟨msg, idx⟩ := p
    have hpos := five_le_estimateMessageTokens msg
    rw [selectRecent]
    split_ifs with hsel hlong hcut
    · exact ih
    · omega
    · exact ih
    · omega

/-- How many of some messages fit into the room, counted from the first. -/
def leadingFit : Nat → List Nat → Nat
  | _, [] => 0
  | room, tokens :: rest => if tokens ≤ room then leadingFit (room - tokens) rest + 1 else 0

/-- The room that these leave. -/
def roomAfter (room : Nat) (tokens : List Nat) : Nat := room - (tokens.take (leadingFit room tokens)).sum

/-- The tokens of the messages that are not selected. -/
def Selection.open (s : Selection) (l : List (StoredMessage × Nat)) : List Nat :=
  (l.filter fun p => !s.selected p.2).map fun p => estimateMessageTokens p.1

theorem open_keep {tokens : Nat} (hidx : idx ∉ l.map Prod.snd) : (s.keep idx tokens).open l = s.open l := by
  have hsame : ∀ p ∈ l, (!(s.keep idx tokens).selected p.2) = !s.selected p.2 := by
    intro p hp
    have hne : p.2 ≠ idx := fun heq => hidx (heq ▸ List.mem_map_of_mem hp)
    simp [Selection.keep, Selection.select, hne]
  rw [Selection.open, List.filter_congr hsame]
  rfl

theorem open_cons_selected (hsel : s.selected idx = true) : s.open ((msg, idx) :: l) = s.open l := by
  simp [Selection.open, hsel]

theorem open_cons (hsel : s.selected idx = false) :
    s.open ((msg, idx) :: l) = estimateMessageTokens msg :: s.open l := by
  simp [Selection.open, hsel]

theorem leadingFit_cons {room tokens : Nat} {rest : List Nat} (h : tokens ≤ room) :
    leadingFit room (tokens :: rest) = leadingFit (room - tokens) rest + 1 := if_pos h

theorem roomAfter_cons {room tokens : Nat} {rest : List Nat} (h : tokens ≤ room) :
    roomAfter room (tokens :: rest) = roomAfter (room - tokens) rest := by
  rw [roomAfter, leadingFit_cons h, List.take_succ_cons, List.sum_cons, roomAfter]
  omega

theorem roomAfter_le (room : Nat) (tokens : List Nat) : roomAfter room tokens ≤ room := Nat.sub_le _ _

/-- Nothing is truncated where the messages that fit are enough, or leave too little room. -/
theorem counted_selectRecent (h : Counted messages inputBudget s) (hl : ∀ p ∈ l, p ∈ messages.zipIdx)
    (hnodup : (l.map Prod.snd).Nodup)
    (henough : minRecentMessages ≤ s.recentKept + leadingFit (inputBudget - s.used) (s.open l) ∨
      roomAfter (inputBudget - s.used) (s.open l) ≤ 12) :
    Counted messages inputBudget (selectRecent inputBudget minRecentMessages l s) := by
  induction l generalizing s with
  | nil => exact h
  | cons p l ih =>
    obtain ⟨msg, idx⟩ := p
    have hrest := fun q hq => hl q (List.mem_cons_of_mem _ hq)
    rw [List.map_cons, List.nodup_cons] at hnodup
    by_cases hsel : s.selected idx = true
    · rw [open_cons_selected hsel] at henough
      rw [selectRecent, if_pos hsel]
      exact ih h hrest hnodup.2 henough
    · have hout : s.selected idx = false := by simpa using hsel
      rw [open_cons hout] at henough
      by_cases hlong : inputBudget < s.used + estimateMessageTokens msg
      · refine counted_selectRecent_of_stuck ?_ h hl
        have hnone : leadingFit (inputBudget - s.used) (estimateMessageTokens msg :: s.open l) = 0 := by
          have hle := h.le
          exact if_neg (by omega)
        rw [roomAfter, hnone] at henough
        exact henough
      · have hfits : estimateMessageTokens msg ≤ inputBudget - s.used := by
          have := h.le
          omega
        rw [leadingFit_cons hfits, roomAfter_cons hfits] at henough
        have hkeep := h.keep (hl _ List.mem_cons_self) hout (by omega)
        rw [selectRecent, if_neg hsel, if_neg hlong]
        dsimp only
        split_ifs with hfull
        · exact hkeep
        · refine ih hkeep hrest hnodup.2 ?_
          rw [open_keep hnodup.1]
          change minRecentMessages ≤ s.recentKept + 1 + leadingFit
            (inputBudget - (s.used + estimateMessageTokens msg)) (s.open l) ∨
              roomAfter (inputBudget - (s.used + estimateMessageTokens msg)) (s.open l) ≤ 12
          rw [← Nat.sub_sub]
          omega

theorem tokens_truncate (h : Counted messages inputBudget s) (hmem : (msg, idx) ∈ messages.zipIdx)
    (hout : s.selected idx = false) (hroom : 12 < inputBudget - s.used)
    (hlong : inputBudget < s.used + estimateMessageTokens msg) :
    inputBudget < (s.truncate inputBudget msg idx).tokens messages ∧
      (s.truncate inputBudget msg idx).used = inputBudget := by
  have hmore := lt_estimate_truncate msg hroom (by omega)
  have hpos : 0 < estimateMessageTokens (truncateMessageToTokenBudget msg (inputBudget - s.used)) := by omega
  have hsum := sum_cost_add (s.truncate inputBudget msg idx) (nodup_places messages) hmem hout
    (by simp [Selection.truncate, hpos])
    fun i hi => ⟨by simp [Selection.truncate, hpos, hi], by simp [Selection.truncate, hpos, hi]⟩
  have hput : (s.truncate inputBudget msg idx).replacements idx =
      some (truncateMessageToTokenBudget msg (inputBudget - s.used)) := by
    simp [Selection.truncate, hpos]
  have hused : (s.truncate inputBudget msg idx).used =
      min (s.used + estimateMessageTokens (truncateMessageToTokenBudget msg (inputBudget - s.used))) inputBudget := by
    simp [Selection.truncate, hpos]
  have htokens : (s.truncate inputBudget msg idx).tokens messages =
      s.used + estimateMessageTokens (truncateMessageToTokenBudget msg (inputBudget - s.used)) := by
    rw [Selection.tokens, hsum, hput]
    change s.tokens messages + _ = _
    rw [← h.used]
    rfl
  rw [htokens, hused]
  omega

/-- A message is truncated, to too much, where those that fit are too few and leave room. -/
theorem exceeded_selectRecent (h : Counted messages inputBudget s) (hl : ∀ p ∈ l, p ∈ messages.zipIdx)
    (hnodup : (l.map Prod.snd).Nodup)
    (hfew : s.recentKept + leadingFit (inputBudget - s.used) (s.open l) < minRecentMessages)
    (hroom : 12 < roomAfter (inputBudget - s.used) (s.open l))
    (hmore : leadingFit (inputBudget - s.used) (s.open l) < (s.open l).length) :
    inputBudget < (selectRecent inputBudget minRecentMessages l s).tokens messages ∧
      (selectRecent inputBudget minRecentMessages l s).used = inputBudget := by
  induction l generalizing s with
  | nil => exact absurd hmore (Nat.not_lt_zero _)
  | cons p l ih =>
    obtain ⟨msg, idx⟩ := p
    have hrest := fun q hq => hl q (List.mem_cons_of_mem _ hq)
    have hle := h.le
    rw [List.map_cons, List.nodup_cons] at hnodup
    by_cases hsel : s.selected idx = true
    · rw [open_cons_selected hsel] at hfew hroom hmore
      rw [selectRecent, if_pos hsel]
      exact ih h hrest hnodup.2 hfew hroom hmore
    · have hout : s.selected idx = false := by simpa using hsel
      rw [open_cons hout] at hfew hroom hmore
      by_cases hlong : inputBudget < s.used + estimateMessageTokens msg
      · have hremain := hroom.trans_le (roomAfter_le _ _)
        obtain ⟨hexceeds, hused⟩ := tokens_truncate h (hl _ List.mem_cons_self) hout hremain hlong
        rw [selectRecent, if_neg hsel, if_pos hlong, if_pos ⟨by omega, hremain⟩,
          selectRecent_of_full hused.ge]
        exact ⟨hexceeds, hused⟩
      · have hfits : estimateMessageTokens msg ≤ inputBudget - s.used := by omega
        rw [leadingFit_cons hfits] at hfew hmore
        rw [roomAfter_cons hfits] at hroom
        have hkeep := h.keep (hl _ List.mem_cons_self) hout (by omega)
        have hleft := hroom.trans_le (roomAfter_le _ _)
        have hfull : ¬ inputBudget ≤ (s.keep idx (estimateMessageTokens msg)).used := by
          change ¬ inputBudget ≤ s.used + estimateMessageTokens msg
          omega
        rw [selectRecent, if_neg hsel, if_neg hlong]
        dsimp only
        rw [if_neg hfull]
        refine ih hkeep hrest hnodup.2 ?_ ?_ ?_
        all_goals rw [open_keep hnodup.1]
        · change s.recentKept + 1 + leadingFit (inputBudget - (s.used + estimateMessageTokens msg)) (s.open l) <
            minRecentMessages
          rw [← Nat.sub_sub]
          omega
        · change 12 < roomAfter (inputBudget - (s.used + estimateMessageTokens msg)) (s.open l)
          rw [← Nat.sub_sub]
          exact hroom
        · change leadingFit (inputBudget - (s.used + estimateMessageTokens msg)) (s.open l) < _
          rw [← Nat.sub_sub]
          simpa using hmore

theorem selected_selectRecent {i : Nat} (h : s.selected i = true) :
    (selectRecent inputBudget minRecentMessages l s).selected i = true := by
  induction l generalizing s with
  | nil => exact h
  | cons p l ih =>
    obtain ⟨msg, idx⟩ := p
    have hkeep : (s.keep idx (estimateMessageTokens msg)).selected i = true := by
      simp [Selection.keep, Selection.select, Function.update_apply, h]
    have hcut : (s.truncate inputBudget msg idx).selected i = true := by
      unfold Selection.truncate
      dsimp only
      split_ifs <;> simp [Function.update_apply, h]
    rw [selectRecent]
    dsimp only
    split_ifs
    exacts [ih h, ih hcut, ih h, hkeep, ih hkeep]

theorem selected_selectRecent_of_not_mem {i : Nat} (hi : i ∉ l.map Prod.snd) :
    (selectRecent inputBudget minRecentMessages l s).selected i = s.selected i := by
  induction l generalizing s with
  | nil => rfl
  | cons p l ih =>
    obtain ⟨msg, idx⟩ := p
    rw [List.map_cons, List.mem_cons, not_or] at hi
    have hkeep : (s.keep idx (estimateMessageTokens msg)).selected i = s.selected i := by
      simp [Selection.keep, Selection.select, hi.1]
    have hcut : (s.truncate inputBudget msg idx).selected i = s.selected i := by
      unfold Selection.truncate
      dsimp only
      split_ifs <;> simp [hi.1]
    rw [selectRecent]
    dsimp only
    split_ifs
    · exact ih hi.2
    · exact (ih hi.2).trans hcut
    · exact ih hi.2
    · exact hkeep
    · exact (ih hi.2).trans hkeep

theorem used_le_selectRecent (minRecentMessages : Nat) (l : List (StoredMessage × Nat)) (hle : s.used ≤ inputBudget) :
    s.used ≤ (selectRecent inputBudget minRecentMessages l s).used := by
  induction l generalizing s with
  | nil => exact Nat.le_refl _
  | cons p l ih =>
    obtain ⟨msg, idx⟩ := p
    have hkeep : s.used ≤ (s.keep idx (estimateMessageTokens msg)).used := Nat.le_add_right _ _
    have hcut : s.used ≤ (s.truncate inputBudget msg idx).used ∧
        (s.truncate inputBudget msg idx).used ≤ inputBudget := by
      unfold Selection.truncate
      dsimp only
      split_ifs
      · dsimp only
        omega
      · exact ⟨Nat.le_refl _, hle⟩
    rw [selectRecent]
    dsimp only
    split_ifs with hsel hlong hfew hfull
    · exact ih hle
    · exact hcut.1.trans (ih hcut.2)
    · exact ih hle
    · exact hkeep
    · exact hkeep.trans (ih (Nat.le_of_not_le hfull))

end Recent

/-! ## What still fits, and the last message -/

section Fitting

variable {l : List (StoredMessage × Nat)}

theorem counted_selectFitting (h : Counted messages inputBudget s) (hl : ∀ p ∈ l, p ∈ messages.zipIdx) :
    Counted messages inputBudget (selectFitting inputBudget l s) := by
  induction l generalizing s with
  | nil => exact h
  | cons p l ih =>
    obtain ⟨msg, idx⟩ := p
    have hrest := fun q hq => hl q (List.mem_cons_of_mem _ hq)
    rw [selectFitting]
    dsimp only
    split_ifs with hfull hsel hlong
    · exact h
    · exact ih h hrest
    · exact ih h hrest
    · exact ih (h.select (hl _ List.mem_cons_self) (by simpa using hsel) (by omega)) hrest

theorem selectFitting_of_full (hfull : inputBudget ≤ s.used) : selectFitting inputBudget l s = s := by
  cases l with
  | nil => rfl
  | cons p l => rw [selectFitting, if_pos hfull]

theorem used_le_selectFitting : s.used ≤ (selectFitting inputBudget l s).used := by
  induction l generalizing s with
  | nil => exact Nat.le_refl _
  | cons p l ih =>
    obtain ⟨msg, idx⟩ := p
    rw [selectFitting]
    dsimp only
    split_ifs
    · exact Nat.le_refl _
    · exact ih
    · exact ih
    · exact (Nat.le_add_right s.used (estimateMessageTokens msg)).trans
        (ih (s := s.select idx (estimateMessageTokens msg)))

theorem selected_selectFitting {i : Nat} (h : s.selected i = true) :
    (selectFitting inputBudget l s).selected i = true := by
  induction l generalizing s with
  | nil => exact h
  | cons p l ih =>
    obtain ⟨msg, idx⟩ := p
    rw [selectFitting]
    dsimp only
    split_ifs
    exacts [h, ih h, ih h, ih (by simp [Selection.select, Function.update_apply, h])]

theorem selected_selectFitting_of_not_mem {i : Nat} (hi : i ∉ l.map Prod.snd) :
    (selectFitting inputBudget l s).selected i = s.selected i := by
  induction l generalizing s with
  | nil => rfl
  | cons p l ih =>
    obtain ⟨msg, idx⟩ := p
    rw [List.map_cons, List.mem_cons, not_or] at hi
    rw [selectFitting]
    dsimp only
    split_ifs
    · rfl
    · exact ih hi.2
    · exact ih hi.2
    · rw [ih hi.2]
      simp [Selection.select, hi.1]

theorem selected_selectFitting_of_long (hidx : idx ∉ l.map Prod.snd) (hout : s.selected idx = false)
    (hlong : inputBudget < s.used + estimateMessageTokens msg) :
    (selectFitting inputBudget ((msg, idx) :: l) s).selected idx = false := by
  rw [selectFitting, hout]
  dsimp only
  rw [if_neg Bool.false_ne_true, if_pos hlong]
  split_ifs
  · exact hout
  · rw [selected_selectFitting_of_not_mem hidx, hout]

theorem selectLast_of_selected {p : StoredMessage × Nat} (hp : p ∈ messages.zipIdx)
    (hsel : s.selected p.2 = true) : selectLast messages s = s := by
  refine if_neg fun hall => ?_
  have hnone := List.all_eq_true.mp hall p hp
  simp [hsel] at hnone

theorem selectLast_of_tokens (htokens : 0 < s.tokens messages) : selectLast messages s = s := by
  by_contra hlast
  have hnone : ∀ p ∈ messages.zipIdx, s.cost p = 0 := by
    intro p hp
    refine if_neg fun hsel => hlast (selectLast_of_selected hp hsel)
  have hzero : s.tokens messages = 0 := by
    rw [Selection.tokens, List.map_congr_left hnone]
    simp
  omega

end Fitting

/-! ## The selection as a whole -/

/-- What is left of a message in the context: the message, or its first characters with a remark. -/
def Shows (shown msg : StoredMessage) : Prop :=
  shown.role = msg.role ∧ (shown.content = msg.content ∨
    ∃ kept, kept <+: msg.content.toList ∧ shown.content = String.ofList kept ++ " ...(truncated)")

/-- Each message at most once, in the order of the history. -/
structure Selects (messages : List StoredMessage) (context : List (StoredMessage × Nat)) : Prop where
  ordered : (context.map Prod.snd).Pairwise (· < ·)
  shows : ∀ p ∈ context, ∃ msg, messages[p.2]? = some msg ∧ Shows p.1 msg

theorem shows_refl (msg : StoredMessage) : Shows msg msg := ⟨rfl, .inl rfl⟩

theorem shows_truncate (msg : StoredMessage) {remain : Nat} (hroom : 0 < remain) :
    Shows (truncateMessageToTokenBudget msg remain) msg := by
  unfold truncateMessageToTokenBudget
  rw [if_neg (by omega)]
  split_ifs with hshort
  · exact shows_refl msg
  · refine ⟨rfl, ?_⟩
    dsimp only
    split_ifs with hempty
    · refine .inl ?_
      have hnil : msg.content.toList.take (max (remain * 4 - 12) 8) = [] := by
        have hlist := congrArg String.toList (String.isEmpty_iff.mp hempty)
        rwa [takeChars, String.toList_ofList] at hlist
      have hpos : 0 < max (remain * 4 - 12) 8 := by omega
      have hcontent : msg.content.toList = [] := by
        rcases List.take_eq_nil_iff.mp hnil with hzero | hcontent
        · omega
        · exact hcontent
      rw [takeChars, hnil, String.toList_eq_nil_iff.mp hcontent]
    · exact .inr ⟨_, List.take_prefix _ _, rfl⟩

/-- What stands in the place of a message shows it. -/
def Selection.Faithful (s : Selection) (messages : List StoredMessage) : Prop :=
  ∀ p ∈ messages.zipIdx, Shows ((s.replacements p.2).getD p.1) p.1

theorem faithful_selectRecent {minRecentMessages : Nat} {l : List (StoredMessage × Nat)}
    (h : s.Faithful messages) (hl : ∀ p ∈ l, p ∈ messages.zipIdx) :
    (selectRecent inputBudget minRecentMessages l s).Faithful messages := by
  induction l generalizing s with
  | nil => exact h
  | cons p l ih =>
    obtain ⟨msg, idx⟩ := p
    have hrest := fun q hq => hl q (List.mem_cons_of_mem _ hq)
    have hkeep : (s.keep idx (estimateMessageTokens msg)).Faithful messages := h
    rw [selectRecent]
    dsimp only
    split_ifs with hsel hlong hcut
    · exact ih h hrest
    · refine ih (fun q hq => ?_) hrest
      unfold Selection.truncate
      dsimp only
      split_ifs
      · by_cases hq' : q.2 = idx
        · have hsame : q.1 = msg := same_place hq (hl _ List.mem_cons_self) hq'
          simp only [hq', Function.update_self, Option.getD_some, hsame]
          exact shows_truncate msg (by omega)
        · simp only [Function.update_of_ne hq']
          exact h q hq
      · exact h q hq
    · exact ih h hrest
    · exact hkeep
    · exact ih hkeep hrest

theorem replacements_selectFitting {l : List (StoredMessage × Nat)} :
    (selectFitting inputBudget l s).replacements = s.replacements := by
  induction l generalizing s with
  | nil => rfl
  | cons p l ih =>
    obtain ⟨msg, idx⟩ := p
    rw [selectFitting]
    dsimp only
    split_ifs
    · rfl
    · exact ih
    · exact ih
    · exact ih

theorem replacements_selectLast : (selectLast messages s).replacements = s.replacements := by
  unfold selectLast
  split_ifs <;> rfl

theorem selects_context (h : s.Faithful messages) : Selects messages (s.context messages) := by
  constructor
  · have hsub : ((s.context messages).map Prod.snd).Sublist (messages.zipIdx.map Prod.snd) := by
      unfold Selection.context
      induction messages.zipIdx with
      | nil => exact List.Sublist.slnil
      | cons p l ih =>
        by_cases hsel : s.selected p.2
        · simpa [hsel] using ih
        · simpa [hsel] using ih.cons p.2
    refine List.Pairwise.sublist hsub ?_
    rw [List.zipIdx_map_snd]
    exact List.pairwise_lt_range'
  · intro p hp
    obtain ⟨q, hq, heq⟩ := List.mem_filterMap.mp hp
    dsimp only at heq
    split_ifs at heq
    obtain rfl := Option.some.inj heq
    exact ⟨q.1, (List.mem_zipIdx_iff_getElem?.mp hq), h q hq⟩

end Steps

/-! ## The budget -/

section Budget

variable (parse : String → Option F32) (messages : List StoredMessage)
  (contextWindowTokens contextReservedTokens memoryBudgetRatio minRecentMessages : Nat)

/-- The context takes no more tokens than the window leaves, and has the newest message. -/
structure Respected (inputBudget : Nat) (context : List (StoredMessage × Nat)) : Prop where
  tokens : (context.map fun p => estimateMessageTokens p.1).sum ≤ inputBudget
  newest : messages ≠ [] → messages.length - 1 ∈ context.map Prod.snd

/-- Nothing is cut; or the newest message is a memory snippet that was selected or fits into what those leave, and
the newest messages that fit are enough or leave at most 12 tokens. -/
def Suffices (inputBudget : Nat) : Prop :=
  let s := memorySelection parse messages inputBudget memoryBudgetRatio
  let room := inputBudget - s.used
  let newest := s.open messages.zipIdx.reverse
  (messages.map estimateMessageTokens).sum ≤ inputBudget ∨
    (s.selected (messages.length - 1) = true ∨ 1 ≤ leadingFit room newest) ∧
      (minRecentMessages ≤ leadingFit room newest ∨ roomAfter room newest ≤ 12)

instance (inputBudget : Nat) :
    Decidable (Suffices parse messages memoryBudgetRatio minRecentMessages inputBudget) := by
  unfold Suffices
  infer_instance

end Budget

section Main

variable {messages : List StoredMessage} {inputBudget : Nat} {s : Selection}

theorem map_fst_zipIdx_sum (messages : List StoredMessage) :
    (messages.zipIdx.map fun p => estimateMessageTokens p.1).sum = (messages.map estimateMessageTokens).sum := by
  rw [show (fun p : StoredMessage × Nat => estimateMessageTokens p.1) = estimateMessageTokens ∘ Prod.fst from rfl,
    ← List.map_map, List.zipIdx_map_fst]

theorem tokens_add_open (h : Counted messages inputBudget s) :
    s.used + (s.open messages.zipIdx.reverse).sum = (messages.map estimateMessageTokens).sum := by
  have hsplit : ∀ l : List (StoredMessage × Nat),
      (l.map s.cost).sum + (s.open l).sum = (l.map fun p => estimateMessageTokens p.1).sum := by
    intro l
    induction l with
    | nil => rfl
    | cons p l ih =>
      obtain ⟨msg, idx⟩ := p
      rw [List.map_cons, List.map_cons, List.sum_cons, List.sum_cons]
      by_cases hsel : s.selected idx = true
      · rw [open_cons_selected hsel]
        simp only [Selection.cost, hsel, if_true, h.whole, Option.getD_none] at ih ⊢
        omega
      · rw [open_cons (by simpa using hsel), List.sum_cons]
        simp only [Selection.cost, hsel, if_neg Bool.false_ne_true] at ih ⊢
        omega
  have hreverse : (s.open messages.zipIdx.reverse).sum = (s.open messages.zipIdx).sum := by
    rw [Selection.open, List.filter_reverse, List.map_reverse, List.sum_reverse]
    rfl
  rw [hreverse, h.used, Selection.tokens, hsplit, map_fst_zipIdx_sum]

theorem leadingFit_lt {room : Nat} {tokens : List Nat} (h : room < tokens.sum) :
    leadingFit room tokens < tokens.length := by
  induction tokens generalizing room with
  | nil => exact absurd h (Nat.not_lt_zero _)
  | cons t rest ih =>
    rw [List.sum_cons] at h
    rw [leadingFit, List.length_cons]
    split_ifs
    · have hrest : room - t < rest.sum := by omega
      exact Nat.succ_lt_succ (ih hrest)
    · omega

theorem mem_places_context {i : Nat} (hi : i < messages.length) :
    i ∈ (s.context messages).map Prod.snd ↔ s.selected i = true := by
  constructor
  · intro hmem
    obtain ⟨p, hp, rfl⟩ := List.mem_map.mp hmem
    obtain ⟨q, -, heq⟩ := List.mem_filterMap.mp hp
    dsimp only at heq
    split_ifs at heq with hsel
    obtain rfl := Option.some.inj heq
    exact hsel
  · intro hsel
    refine List.mem_map.mpr ⟨_, List.mem_filterMap.mpr ⟨(messages[i], i), ?_, if_pos hsel⟩, rfl⟩
    exact List.mem_zipIdx_iff_getElem?.mpr (List.getElem?_eq_getElem hi)

theorem reverse_zipIdx (hne : messages ≠ []) : ∃ msg l, messages.zipIdx.reverse = (msg, messages.length - 1) :: l ∧
    messages.length - 1 ∉ l.map Prod.snd := by
  obtain ⟨init, last, rfl⟩ := (List.eq_nil_or_concat messages).resolve_left hne
  refine ⟨last, init.zipIdx.reverse, ?_, ?_⟩
  · simp [List.zipIdx_append]
  · intro hmem
    rw [List.map_reverse, List.mem_reverse, List.zipIdx_map_snd, List.mem_range'_1] at hmem
    simp at hmem

theorem mem_reverse_zipIdx : ∀ p ∈ messages.zipIdx.reverse, p ∈ messages.zipIdx :=
  fun _ hp => List.mem_reverse.mp hp

theorem nodup_reverse_zipIdx : (messages.zipIdx.reverse.map Prod.snd).Nodup := by
  rw [List.map_reverse, List.nodup_reverse]
  exact nodup_places messages

section Selected

variable {minRecentMessages : Nat} (hs : Counted messages inputBudget s) (hkept : s.recentKept = 0)
  (hmore : inputBudget < (messages.map estimateMessageTokens).sum)

/-- The selection after the two passes over the messages. -/
def Selection.passes (s : Selection) (messages : List StoredMessage) (inputBudget minRecentMessages : Nat) :
    Selection :=
  selectFitting inputBudget messages.zipIdx.reverse
    (selectRecent inputBudget minRecentMessages messages.zipIdx.reverse s)

include hs hkept hmore

theorem exceeded_passes
    (hfew : leadingFit (inputBudget - s.used) (s.open messages.zipIdx.reverse) < minRecentMessages)
    (hroom : 12 < roomAfter (inputBudget - s.used) (s.open messages.zipIdx.reverse)) :
    inputBudget < (s.passes messages inputBudget minRecentMessages).tokens messages := by
  have htotal := tokens_add_open hs
  have hle := hs.le
  obtain ⟨hexceeds, hused⟩ := exceeded_selectRecent hs mem_reverse_zipIdx nodup_reverse_zipIdx
    (by rw [hkept, Nat.zero_add]; exact hfew) hroom (leadingFit_lt (by omega))
  rw [Selection.passes, selectFitting_of_full hused.ge]
  exact hexceeds

omit hmore in
theorem counted_passes
    (henough : minRecentMessages ≤ leadingFit (inputBudget - s.used) (s.open messages.zipIdx.reverse) ∨
      roomAfter (inputBudget - s.used) (s.open messages.zipIdx.reverse) ≤ 12) :
    Counted messages inputBudget (s.passes messages inputBudget minRecentMessages) := by
  refine counted_selectFitting (counted_selectRecent hs mem_reverse_zipIdx nodup_reverse_zipIdx ?_)
    mem_reverse_zipIdx
  rw [hkept, Nat.zero_add]
  exact henough

omit hmore hkept hs in
theorem selected_newest (minRecentMessages : Nat) (hne : messages ≠ []) (hle : s.used ≤ inputBudget)
    (h : s.selected (messages.length - 1) = true ∨
      1 ≤ leadingFit (inputBudget - s.used) (s.open messages.zipIdx.reverse)) :
    (s.passes messages inputBudget minRecentMessages).selected (messages.length - 1) = true := by
  obtain ⟨msg, l, hl, -⟩ := reverse_zipIdx hne
  refine selected_selectFitting ?_
  by_cases hsel : s.selected (messages.length - 1) = true
  · exact selected_selectRecent hsel
  · have hfit := h.resolve_left hsel
    rw [hl, open_cons (by simpa using hsel), leadingFit] at hfit
    split_ifs at hfit with hroom
    · rw [hl, selectRecent, if_neg hsel, if_neg (by omega)]
      have hkeep : (s.keep (messages.length - 1) (estimateMessageTokens msg)).selected (messages.length - 1) =
          true := by
        simp [Selection.keep, Selection.select]
      dsimp only
      split_ifs
      · exact hkeep
      · exact selected_selectRecent hkeep
    · exact absurd hfit (by omega)

omit hmore in
theorem not_selected_newest (hne : messages ≠ []) (hsel : s.selected (messages.length - 1) = false)
    (hnone : leadingFit (inputBudget - s.used) (s.open messages.zipIdx.reverse) = 0)
    (henough : minRecentMessages = 0 ∨ inputBudget - s.used ≤ 12) :
    (s.passes messages inputBudget minRecentMessages).selected (messages.length - 1) = false ∧
      ∃ msg, messages.getLast? = some msg ∧ inputBudget < s.used + estimateMessageTokens msg := by
  obtain ⟨msg, l, hl, hnot⟩ := reverse_zipIdx hne
  have hle := hs.le
  have hlong : inputBudget < s.used + estimateMessageTokens msg := by
    rw [hl, open_cons hsel, leadingFit] at hnone
    split_ifs at hnone with hroom
    omega
  have hlast : messages.getLast? = some msg := by
    have hmem : (msg, messages.length - 1) ∈ messages.zipIdx :=
      mem_reverse_zipIdx _ (by rw [hl]; exact List.mem_cons_self)
    rw [List.getLast?_eq_getElem?]
    exact List.mem_zipIdx_iff_getElem?.mp hmem
  refine ⟨?_, msg, hlast, hlong⟩
  have hfirst : selectRecent inputBudget minRecentMessages messages.zipIdx.reverse s =
      selectRecent inputBudget minRecentMessages l s := by
    rw [hl, selectRecent, hsel, if_neg Bool.false_ne_true, if_pos hlong, if_neg]
    rintro ⟨hfew, hroom⟩
    rcases henough with h | h <;> omega
  have hused := used_le_selectRecent minRecentMessages l hle
  rw [Selection.passes, hfirst, hl]
  refine selected_selectFitting_of_long hnot ?_ (by omega)
  rw [selected_selectRecent_of_not_mem hnot, hsel]

/-- **When the budget is respected**, of a history that is cut. -/
theorem respected_iff (hne : messages ≠ []) :
    Respected messages inputBudget
        ((selectLast messages (s.passes messages inputBudget minRecentMessages)).context messages) ↔
      (s.selected (messages.length - 1) = true ∨
        1 ≤ leadingFit (inputBudget - s.used) (s.open messages.zipIdx.reverse)) ∧
      (minRecentMessages ≤ leadingFit (inputBudget - s.used) (s.open messages.zipIdx.reverse) ∨
        roomAfter (inputBudget - s.used) (s.open messages.zipIdx.reverse) ≤ 12) := by
  have hlen : messages.length - 1 < messages.length := Nat.sub_lt (List.length_pos_iff.mpr hne) Nat.one_pos
  by_cases henough : minRecentMessages ≤ leadingFit (inputBudget - s.used) (s.open messages.zipIdx.reverse) ∨
      roomAfter (inputBudget - s.used) (s.open messages.zipIdx.reverse) ≤ 12
  · have hcounted := counted_passes hs hkept henough
    by_cases hnew : s.selected (messages.length - 1) = true ∨
        1 ≤ leadingFit (inputBudget - s.used) (s.open messages.zipIdx.reverse)
    · -- the newest message is selected, and the count of tokens is right
      have hsel := selected_newest minRecentMessages hne hs.le hnew
      have hlast := selectLast_of_selected (s := s.passes messages inputBudget minRecentMessages)
        (p := (messages[messages.length - 1], messages.length - 1))
        (List.mem_zipIdx_iff_getElem?.mpr (List.getElem?_eq_getElem hlen)) hsel
      rw [hlast]
      refine ⟨fun _ => ⟨hnew, henough⟩, fun _ => ⟨?_, fun _ => (mem_places_context hlen).mpr hsel⟩⟩
      rw [tokens_context, ← hcounted.used]
      exact hcounted.le
    · refine ⟨fun hrespected => ?_, fun h => absurd h.1 hnew⟩
      rw [not_or] at hnew
      have hnone : leadingFit (inputBudget - s.used) (s.open messages.zipIdx.reverse) = 0 := by omega
      have hstuck : minRecentMessages = 0 ∨ inputBudget - s.used ≤ 12 := by
        rw [roomAfter, hnone, List.take_zero, List.sum_nil] at henough
        omega
      obtain ⟨hout, msg, hlast, hlong⟩ := not_selected_newest hs hkept hne (by simpa using hnew.1) hnone hstuck
      have hplace := (mem_places_context hlen).mp (hrespected.newest hne)
      have htokens := hrespected.tokens
      rw [tokens_context] at htokens
      by_cases hall : messages.zipIdx.all fun (_, idx) =>
          !(s.passes messages inputBudget minRecentMessages).selected idx
      · -- nothing is selected, and the newest message alone is too long
        have hmem : (msg, messages.length - 1) ∈ messages.zipIdx := by
          rw [List.mem_zipIdx_iff_getElem?, ← List.getLast?_eq_getElem?]
          exact hlast
        have hadd := sum_cost_add _ (nodup_places messages) hmem hout hplace fun i hi => by
          rw [selectLast, if_pos hall]
          simp [hi]
        have hused : s.used ≤ (s.passes messages inputBudget minRecentMessages).used :=
          (used_le_selectRecent _ _ hs.le).trans used_le_selectFitting
        rw [replacements_selectLast, hcounted.whole, Option.getD_none] at hadd
        rw [hcounted.used] at hused
        unfold Selection.tokens at htokens hused
        omega
      · rw [selectLast, if_neg hall, hout] at hplace
        cases hplace
  · -- a message was truncated
    rw [not_or] at henough
    have hexceeds := exceeded_passes hs hkept hmore (Nat.not_le.mp henough.1) (Nat.not_le.mp henough.2)
    have hlast : selectLast messages (s.passes messages inputBudget minRecentMessages) =
        s.passes messages inputBudget minRecentMessages := selectLast_of_tokens (by omega)
    rw [hlast]
    refine ⟨fun hrespected => ?_, fun h => absurd h.2 (by omega)⟩
    have htokens := hrespected.tokens
    rw [tokens_context] at htokens
    omega

end Selected

end Main

theorem selects_zipIdx (messages : List StoredMessage) : Selects messages messages.zipIdx := by
  refine ⟨?_, fun p hp => ⟨p.1, List.mem_zipIdx_iff_getElem?.mp hp, shows_refl p.1⟩⟩
  rw [List.zipIdx_map_snd]
  exact List.pairwise_lt_range'

theorem respected_zipIdx (h : (messages.map estimateMessageTokens).sum ≤ inputBudget) :
    Respected messages inputBudget messages.zipIdx := by
  refine ⟨?_, fun hne => ?_⟩
  · rw [map_fst_zipIdx_sum]
    exact h
  · have hlen : 0 < messages.length := List.length_pos_iff.mpr hne
    rw [List.zipIdx_map_snd, List.mem_range'_1]
    omega

theorem budgetedContext_eq {parse : String → Option F32} {contextWindowTokens contextReservedTokens
    memoryBudgetRatio minRecentMessages : Nat} (hwindow : contextReservedTokens < contextWindowTokens) :
    budgetedContext parse messages contextWindowTokens contextReservedTokens memoryBudgetRatio minRecentMessages =
      let inputBudget := contextWindowTokens - contextReservedTokens
      if (messages.map estimateMessageTokens).sum ≤ inputBudget then messages.zipIdx
      else (selectLast messages ((memorySelection parse messages inputBudget memoryBudgetRatio).passes messages
        inputBudget minRecentMessages)).context messages := by
  unfold budgetedContext
  by_cases hempty : messages.isEmpty = true
  · rw [if_pos (.inl hempty)]
    obtain rfl := List.isEmpty_iff.mp hempty
    exact (if_pos (Nat.zero_le _)).symm
  · rw [if_neg (by rintro (h | h); exacts [hempty h, by omega])]
    dsimp only
    rw [if_neg (by omega)]
    rfl

/-- **The budget of a context.** For a window above the reserved tokens, the context is always a selection of the
history in its order, up to truncation of contents. It is within the budget and has the newest message if and only
if nothing is cut, or the newest message is a selected memory snippet or fits into what those leave and no message
is truncated: the newest messages that fit are enough, or leave at most 12 tokens. -/
theorem context_budget_iff (parse : String → Option F32) (messages : List StoredMessage)
    (contextWindowTokens contextReservedTokens memoryBudgetRatio minRecentMessages : Nat)
    (hwindow : contextReservedTokens < contextWindowTokens) :
    Selects messages (budgetedContext parse messages contextWindowTokens contextReservedTokens memoryBudgetRatio
      minRecentMessages) ∧
      (Respected messages (contextWindowTokens - contextReservedTokens)
          (budgetedContext parse messages contextWindowTokens contextReservedTokens memoryBudgetRatio
            minRecentMessages) ↔
        Suffices parse messages memoryBudgetRatio minRecentMessages
          (contextWindowTokens - contextReservedTokens)) := by
  have hcounted := counted_memorySelection parse messages (contextWindowTokens - contextReservedTokens)
    memoryBudgetRatio
  have hkept : (memorySelection parse messages (contextWindowTokens - contextReservedTokens)
      memoryBudgetRatio).recentKept = 0 := recentKept_selectMemories
  rw [budgetedContext_eq hwindow]
  dsimp only
  by_cases hall : (messages.map estimateMessageTokens).sum ≤ contextWindowTokens - contextReservedTokens
  · rw [if_pos hall]
    exact ⟨selects_zipIdx messages, fun _ => .inl hall, fun _ => respected_zipIdx hall⟩
  · have hne : messages ≠ [] := by
      rintro rfl
      exact hall (Nat.zero_le _)
    have hfaithful : (memorySelection parse messages (contextWindowTokens - contextReservedTokens)
        memoryBudgetRatio).Faithful messages := by
      intro p _
      rw [hcounted.whole]
      exact shows_refl p.1
    rw [if_neg hall]
    refine ⟨selects_context fun p hp => ?_, ?_⟩
    · rw [replacements_selectLast, Selection.passes, replacements_selectFitting]
      exact faithful_selectRecent hfaithful mem_reverse_zipIdx p hp
    · rw [respected_iff hcounted hkept (by omega) hne]
      exact ⟨fun h => .inr h, fun h => h.resolve_left hall⟩

/-- One message, of 26 tokens. -/
def longMessage : List StoredMessage :=
  [⟨.user, "Please remember that the appointment with the dentist was moved from Tuesday to Friday."⟩]

/-- A window of 40 tokens, of which 20 are reserved. The message is within the budget only if it suffices. -/
theorem context_budget_iff_long :
    Selects longMessage (budgetedContext (fun _ => none) longMessage 40 20 40 8) ∧
      (Respected longMessage (40 - 20) (budgetedContext (fun _ => none) longMessage 40 20 40 8) ↔
        Suffices (fun _ => none) longMessage 40 8 (40 - 20)) :=
  context_budget_iff (fun _ => none) longMessage 40 20 40 8 (by decide)

/-- **A truncated message is more than the budget**: it has 25 tokens of 20. -/
theorem context_budget_exceeded :
    ((budgetedContext (fun _ => none) longMessage 40 20 40 8).map fun p => estimateMessageTokens p.1) = [25] ∧
      ¬ Respected longMessage (40 - 20) (budgetedContext (fun _ => none) longMessage 40 20 40 8) :=
  ⟨by decide +kernel, fun h => absurd h.tokens (by decide +kernel)⟩

end ContextBudget

end Xiaomaolv
