import Mathlib.Data.Finset.Card
import Mathlib.Data.Prod.Lex
import Mathlib.Data.String.Basic
import Xiaomaolv.Lib.Packing
import Xiaomaolv.Loop.Json
import Xiaomaolv.Loop.Text

/-!
# The prompt of the installed skills

The enabled skills are scored against the query, sorted, and written into a prompt within a budget of characters.

* `SkillRuntime.select`, `renderSystemPrompt`, `SkillRuntime.buildSystemPrompt`: the selection and the prompt.
* `select_perm`: the selection does not depend on the order of the skills; `mem_select`: it has active skills only.
* `renderSystemPrompt_eq`: the prompt is its header and the sections that are packed behind it.
* **`prompt_sound_iff`**: the prompt has a section, and loses none that would fit, exactly when the first section
  fits and nothing that fits comes behind one that does not.
* `header_only`: a prompt without a section, although the second one would fit.
-/

namespace Xiaomaolv

open Packing

/-! ## Skills -/

inductive SkillActivationMode where
  | semantic
  | always
  | off
  deriving DecidableEq

def SkillActivationMode.asStr : SkillActivationMode → String
  | semantic => "semantic"
  | always => "always"
  | off => "off"

structure SkillRuntimeEntry where
  id : String
  enabled : Bool
  mode : SkillActivationMode
  name : String
  description : String
  tags : List String
  content : String
  tokenSet : Finset String

/-- The skills that were read, each under its own id. -/
structure SkillRuntime where
  skills : List SkillRuntimeEntry
  distinct : (skills.map (·.id)).Nodup

/-- What is done with scores, which are `f32`. -/
structure SkillScores (Score : Type) where
  /-- `2.0` -/
  always : Score
  /-- `0.0` -/
  zero : Score
  /-- The clamped quotient of two counts. -/
  ratio : Nat → Nat → Score
  /-- `{:.3}` -/
  fixed : Score → String

structure SkillRuntimeSelectionSettings (Score : Type) where
  maxSelected : Nat
  maxPromptChars : Nat
  /-- There is none for a number that no score compares with. -/
  matchMinScore : Option Score

structure SelectedSkill (Score : Type) where
  id : String
  mode : SkillActivationMode
  score : Score
  name : String
  description : String
  tags : List String
  content : String

/-- `isAlphanumeric` is `char::is_alphanumeric`. -/
def tokenizeText (isAlphanumeric : Char → Bool) (input : String) : Finset String :=
  ((((input.toList.splitOnP fun ch => !isAlphanumeric ch && ch ≠ '_' && ch ≠ '-').map fun v =>
    toAsciiLowercase (trim (String.ofList v))).filter fun v => 2 ≤ byteLen v)).toFinset

def SkillRuntime.truncateChars (input : String) (maxChars : Nat) : String := takeChars (max maxChars 1) input

section Selection

variable {Score : Type} [LinearOrder Score] (scores : SkillScores Score)

def semanticSkillRuntimeScore (queryTokens : Finset String) (skill : SkillRuntimeEntry) : Score :=
  if queryTokens = ∅ then scores.zero
  else scores.ratio (queryTokens ∩ skill.tokenSet).card (max queryTokens.card 1)

/-- The score of a skill that is enabled and not off, if it is a candidate. -/
def skillCandidate (queryTokens : Finset String) (settings : SkillRuntimeSelectionSettings Score)
    (skill : SkillRuntimeEntry) : Option (SkillRuntimeEntry × Score) :=
  if skill.enabled && skill.mode ≠ .off then
    let score := match skill.mode with
      | .always => scores.always
      | .semantic => semanticSkillRuntimeScore scores queryTokens skill
      | .off => scores.zero
    let wanted := skill.mode = .always || settings.matchMinScore.any fun least => least ≤ score
    if wanted then some (skill, score) else none
  else none

/-- How candidates are compared. -/
def candidateOrder (a b : SkillRuntimeEntry × Score) : Ordering :=
  let aAlways := decide (a.1.mode = .always)
  let bAlways := decide (b.1.mode = .always)
  ((cmp bAlways aAlways).then (cmp b.2 a.2)).then (cmp a.1.id b.1.id)

def SkillRuntime.candidates (runtime : SkillRuntime) (queryTokens : Finset String)
    (settings : SkillRuntimeSelectionSettings Score) : List (SkillRuntimeEntry × Score) :=
  runtime.skills.filterMap (skillCandidate scores queryTokens settings)

def selectedSkill (candidate : SkillRuntimeEntry × Score) : SelectedSkill Score where
  id := candidate.1.id
  mode := candidate.1.mode
  score := candidate.2
  name := candidate.1.name
  description := candidate.1.description
  tags := candidate.1.tags
  content := candidate.1.content

def SkillRuntime.select (runtime : SkillRuntime) (isAlphanumeric : Char → Bool) (query : String)
    (settings : SkillRuntimeSelectionSettings Score) : List (SelectedSkill Score) :=
  let candidates := runtime.candidates scores (tokenizeText isAlphanumeric query) settings
  ((candidates.mergeSort fun a b => candidateOrder a b ≠ .gt).take (max settings.maxSelected 1)).map selectedSkill

end Selection

/-! ## The prompt -/

def skillsContextHeader : String :=
  "SKILLS_CONTEXT:\nFollow these installed skill instructions when they are relevant to the user request.\n"

def maxSkillSnippetChars : Nat := 2500

section Prompt

variable {Score : Type} (scores : SkillScores Score)

/-- The section of the `n`-th skill. -/
def skillSection (skill : SelectedSkill Score) (n : Nat) : String :=
  "\n[Skill " ++ toString n ++ "]\n- id: " ++ skill.id ++ "\n- mode: " ++ skill.mode.asStr ++ "\n- score: " ++
    scores.fixed skill.score ++ "\n- name: " ++ skill.name ++ "\n- description: " ++ skill.description ++
    "\n- tags: " ++ ",".intercalate skill.tags ++ "\nInstructions:\n" ++
    SkillRuntime.truncateChars skill.content maxSkillSnippetChars ++ "\n"

/-- The loop over the selected skills, numbered from `n`. -/
def pushSections (out : String) (budget n : Nat) : List (SelectedSkill Score) → String
  | [] => out
  | skill :: skills =>
    if budget < 64 then out
    else
      let text := skillSection scores skill n
      if budget < charCount text then out
      else pushSections (out ++ text) (budget - charCount text) (n + 1) skills

def renderSystemPrompt (selection : List (SelectedSkill Score)) (maxPromptChars : Nat) : Option String :=
  if selection.isEmpty then none
  else
    let budget := max maxPromptChars 256
    if budget ≤ charCount skillsContextHeader then none
    else
      let out := pushSections scores skillsContextHeader (budget - charCount skillsContextHeader) 1 selection
      if byteLen "SKILLS_CONTEXT:" < byteLen (trim out) then some out else none

def SkillRuntime.buildSystemPrompt [LinearOrder Score] (runtime : SkillRuntime) (isAlphanumeric : Char → Bool)
    (query : String) (settings : SkillRuntimeSelectionSettings Score) : Option String :=
  renderSystemPrompt scores (runtime.select scores isAlphanumeric query settings) settings.maxPromptChars

end Prompt

/-! ## The selection -/

section Selection

variable {Score : Type} [LinearOrder Score] {scores : SkillScores Score} {runtime : SkillRuntime}
  {isAlphanumeric : Char → Bool} {query : String} {queryTokens : Finset String}
  {settings : SkillRuntimeSelectionSettings Score} {skill : SkillRuntimeEntry} {a b : SkillRuntimeEntry × Score}

/-- Candidates are sorted by this: the ones that are always there first, then by falling score, then by id. -/
def candidateKey (a : SkillRuntimeEntry × Score) : Boolᵒᵈ ×ₗ Scoreᵒᵈ ×ₗ String :=
  toLex (OrderDual.toDual (decide (a.1.mode = .always)), toLex (OrderDual.toDual a.2, a.1.id))

theorem candidateOrder_ne_gt : candidateOrder a b ≠ .gt ↔ candidateKey a ≤ candidateKey b := by
  rw [← not_lt, not_iff_not, candidateKey, candidateKey, Prod.Lex.toLex_lt_toLex, Prod.Lex.toLex_lt_toLex,
    candidateOrder]
  dsimp only
  rw [Ordering.then_eq_gt, Ordering.then_eq_gt, Ordering.then_eq_eq, cmp_eq_gt_iff, cmp_eq_gt_iff, cmp_eq_gt_iff,
    cmp_eq_eq_iff, cmp_eq_eq_iff, OrderDual.toDual_lt_toDual, OrderDual.toDual_lt_toDual, OrderDual.toDual_inj,
    OrderDual.toDual_inj]
  rw [or_assoc, and_assoc, ← and_or_left]

theorem skillCandidate_eq_some (h : skillCandidate scores queryTokens settings skill = some a) :
    a.1 = skill ∧ skill.enabled = true ∧ skill.mode ≠ .off := by
  unfold skillCandidate at h
  dsimp only at h
  split_ifs at h with hactive hinclude
  · obtain rfl := Option.some.inj h
    simpa using hactive

theorem mem_candidates (h : a ∈ runtime.candidates scores queryTokens settings) :
    a.1 ∈ runtime.skills ∧ a.1.enabled = true ∧ a.1.mode ≠ .off := by
  obtain ⟨skill, hskill, hcandidate⟩ := List.mem_filterMap.mp h
  obtain ⟨rfl, hactive⟩ := skillCandidate_eq_some hcandidate
  exact ⟨hskill, hactive⟩

theorem candidate_eq (ha : a ∈ runtime.candidates scores queryTokens settings)
    (hb : b ∈ runtime.candidates scores queryTokens settings) (h : candidateKey a = candidateKey b) : a = b := by
  obtain ⟨a₁, hamem, ha⟩ := List.mem_filterMap.mp ha
  obtain ⟨b₁, hbmem, hb⟩ := List.mem_filterMap.mp hb
  have hid : a.1.id = b.1.id := congrArg (fun key => (ofLex (ofLex key).2).2) h
  rw [(skillCandidate_eq_some ha).1, (skillCandidate_eq_some hb).1] at hid
  obtain rfl := List.inj_on_of_nodup_map runtime.distinct hamem hbmem hid
  exact Option.some.inj (ha.symm.trans hb)

/-- **The order in which the skills were read** does not show in the selection. -/
theorem select_perm {other : SkillRuntime} (h : other.skills.Perm runtime.skills) :
    other.select scores isAlphanumeric query settings = runtime.select scores isAlphanumeric query settings := by
  have hsorted : ∀ l : List (SkillRuntimeEntry × Score), (l.mergeSort fun a b => candidateOrder a b ≠ .gt).Pairwise
      fun a b => candidateKey a ≤ candidateKey b := by
    intro l
    refine (List.pairwise_mergeSort (fun a b c hab hbc => ?_) (fun a b => ?_) l).imp fun {a b} hab => ?_
    · simp only [decide_eq_true_eq] at hab hbc ⊢
      exact candidateOrder_ne_gt.mpr ((candidateOrder_ne_gt.mp hab).trans (candidateOrder_ne_gt.mp hbc))
    · simp only [Bool.or_eq_true, decide_eq_true_eq, candidateOrder_ne_gt]
      exact le_total _ _
    · exact candidateOrder_ne_gt.mp (of_decide_eq_true hab)
  have hperm : (other.candidates scores (tokenizeText isAlphanumeric query) settings).Perm
      (runtime.candidates scores (tokenizeText isAlphanumeric query) settings) := h.filterMap _
  have hsame : (other.candidates scores (tokenizeText isAlphanumeric query) settings).mergeSort
        (fun a b => candidateOrder a b ≠ .gt) =
      (runtime.candidates scores (tokenizeText isAlphanumeric query) settings).mergeSort
        fun a b => candidateOrder a b ≠ .gt := by
    refine List.Perm.eq_of_pairwise (fun a b ha hb hab hba => ?_) (hsorted _) (hsorted _)
      (((List.mergeSort_perm _ _).trans hperm).trans (List.mergeSort_perm _ _).symm)
    have ha' := hperm.subset ((List.mergeSort_perm _ _).subset ha)
    exact candidate_eq ha' ((List.mergeSort_perm _ _).subset hb) (le_antisymm hab hba)
  rw [SkillRuntime.select, SkillRuntime.select, hsame]

theorem mem_select {selected : SelectedSkill Score}
    (h : selected ∈ runtime.select scores isAlphanumeric query settings) :
    ∃ skill ∈ runtime.skills, skill.enabled = true ∧ skill.mode ≠ .off ∧ selected.id = skill.id ∧
      selected.content = skill.content := by
  obtain ⟨a, ha, rfl⟩ := List.mem_map.mp h
  obtain ⟨hskill, henabled, hmode⟩ := mem_candidates ((List.mergeSort_perm _ _).subset (List.mem_of_mem_take ha))
  exact ⟨a.1, hskill, henabled, hmode, rfl, rfl⟩

end Selection

/-! ## The sections -/

section Sections

variable {Score : Type} {scores : SkillScores Score} {skill : SelectedSkill Score}
  {selection : List (SelectedSkill Score)} {budget n maxPromptChars : Nat} {prompt : String}

variable (scores) in
/-- The sections of the selected skills, numbered from `n`. -/
def sectionsFrom (n : Nat) : List (SelectedSkill Score) → List String
  | [] => []
  | skill :: skills => skillSection scores skill n :: sectionsFrom (n + 1) skills

theorem charCount_join (texts : List String) : charCount (String.join texts) = total charCount texts := by
  induction texts with
  | nil => rfl
  | cons text texts ih => rw [String.join_cons, charCount_append, ih, total_cons]

theorem le_charCount_skillSection (skill : SelectedSkill Score) (n : Nat) :
    64 ≤ charCount (skillSection scores skill n) := by
  have hlabels : charCount "\n[Skill " = 8 ∧ charCount "]\n- id: " = 8 ∧ charCount "\n- mode: " = 9 ∧
      charCount "\n- score: " = 10 ∧ charCount "\n- name: " = 9 ∧ charCount "\n- description: " = 16 ∧
      charCount "\n- tags: " = 9 := by
    decide
  obtain ⟨hskill, hid, hmode, hscore, hname, hdescription, htags⟩ := hlabels
  unfold skillSection
  generalize SkillRuntime.truncateChars skill.content maxSkillSnippetChars = body
  simp only [charCount_append, hskill, hid, hmode, hscore, hname, hdescription, htags]
  omega

theorem bracket_mem_skillSection (skill : SelectedSkill Score) (n : Nat) :
    '[' ∈ (skillSection scores skill n).toList := by
  unfold skillSection
  generalize SkillRuntime.truncateChars skill.content maxSkillSnippetChars = body
  simp

theorem mem_sectionsFrom {text : String} (h : text ∈ sectionsFrom scores n selection) :
    ∃ skill ∈ selection, ∃ i, text = skillSection scores skill i := by
  induction selection generalizing n with
  | nil => cases h
  | cons skill selection ih =>
    rcases List.mem_cons.mp h with rfl | h
    · exact ⟨skill, List.mem_cons_self, n, rfl⟩
    · obtain ⟨other, hother, i, hi⟩ := ih h
      exact ⟨other, List.mem_cons_of_mem _ hother, i, hi⟩

/-- **What the loop writes** are the sections that are packed within its budget. -/
theorem pushSections_eq (out : String) : pushSections scores out budget n selection =
    out ++ String.join (packed charCount budget (sectionsFrom scores n selection)) := by
  induction selection generalizing out budget n with
  | nil => exact (String.append_empty).symm
  | cons skill selection ih =>
    have hlong : 64 ≤ charCount (skillSection scores skill n) := le_charCount_skillSection skill n
    rw [pushSections, sectionsFrom, packed]
    dsimp only
    by_cases hroom : budget < charCount (skillSection scores skill n)
    · rw [if_pos hroom, if_pos hroom, ite_self]
      exact (String.append_empty).symm
    · rw [if_neg (by omega), if_neg hroom, if_neg hroom, ih, String.join_cons, String.append_assoc]

theorem prefix_trim {text : List Char} (hne : text ≠ []) (h : Trimmed (String.ofList text)) (rest : List Char) :
    text <+: (trim (String.ofList (text ++ rest))).toList := by
  rw [Trimmed, String.toList_ofList] at h
  have hfirst : (text ++ rest).dropWhile isWhitespace = text ++ rest := by
    rw [dropWhile_eq_self, List.head?_append_of_ne_nil _ hne]
    exact h.1
  have hlast : text.reverse.dropWhile isWhitespace = text.reverse := by
    rw [dropWhile_eq_self, List.head?_reverse]
    exact h.2
  rw [trim, String.toList_ofList, String.toList_ofList, hfirst, List.reverse_append, List.dropWhile_append]
  split_ifs
  · rw [hlast, List.reverse_reverse]
  · rw [List.reverse_append, List.reverse_reverse]
    exact List.prefix_append _ _

/-- What is left of the budget behind the header. -/
def promptRoom (maxPromptChars : Nat) : Nat := max maxPromptChars 256 - charCount skillsContextHeader

theorem charCount_skillsContextHeader : charCount skillsContextHeader = 102 := by decide

theorem byteLen_trim_header (rest : String) :
    byteLen "SKILLS_CONTEXT:" < byteLen (trim (skillsContextHeader ++ rest)) := by
  have hname : byteLen "SKILLS_CONTEXT:" = 15 := by decide
  have hheader : skillsContextHeader.toList = skillsContextHeader.toList.dropLast ++ ['\n'] := by decide
  have htrimmed : trim (String.ofList skillsContextHeader.toList.dropLast)
      = String.ofList skillsContextHeader.toList.dropLast := by
    decide +kernel
  have hlen : skillsContextHeader.toList.dropLast.length = 101 := by decide
  have hne : skillsContextHeader.toList.dropLast ≠ [] := fun hnil => by
    rw [hnil] at hlen
    cases hlen
  have hbegins := prefix_trim hne (htrimmed ▸ trimmed_trim _) (['\n'] ++ rest.toList)
  have htext : String.ofList (skillsContextHeader.toList.dropLast ++ (['\n'] ++ rest.toList))
      = skillsContextHeader ++ rest := by
    rw [← List.append_assoc, ← hheader, ← String.toList_append, String.ofList_toList]
  rw [htext] at hbegins
  have hbytes := charCount_le_byteLen (trim (skillsContextHeader ++ rest))
  have hle := hbegins.length_le
  rw [charCount] at hbytes
  omega

variable (scores) in
/-- The sections that fit behind the header, up to the first that does not. -/
def packedSections (selection : List (SelectedSkill Score)) (maxPromptChars : Nat) : List String :=
  packed charCount (promptRoom maxPromptChars) (sectionsFrom scores 1 selection)

/-- **The prompt** is its header and the sections that are packed behind it. -/
theorem renderSystemPrompt_eq (hne : selection ≠ []) : renderSystemPrompt scores selection maxPromptChars =
    some (skillsContextHeader ++ String.join (packedSections scores selection maxPromptChars)) := by
  have hroom : ¬ max maxPromptChars 256 ≤ charCount skillsContextHeader := by
    rw [charCount_skillsContextHeader]
    omega
  have hsome : selection.isEmpty = false := by
    rw [Bool.eq_false_iff, ne_eq, List.isEmpty_iff]
    exact hne
  unfold renderSystemPrompt
  dsimp only
  rw [hsome, if_neg Bool.false_ne_true, if_neg hroom, pushSections_eq, if_pos (byteLen_trim_header _)]
  rfl

theorem charCount_pos_of_mem {text : String} (h : text ∈ sectionsFrom scores n selection) : 0 < charCount text := by
  obtain ⟨skill, -, i, rfl⟩ := mem_sectionsFrom h
  have hlong : 64 ≤ charCount (skillSection scores skill i) := le_charCount_skillSection skill i
  omega

theorem charCount_prompt (kept : List String) :
    charCount (skillsContextHeader ++ String.join kept) = 102 + total charCount kept := by
  rw [charCount_append, charCount_join, charCount_skillsContextHeader]

theorem infix_prompt {text : String} {kept : List String} (h : text ∈ kept) :
    text.toList <:+: (skillsContextHeader ++ String.join kept).toList := by
  obtain ⟨before, after, rfl⟩ := List.append_of_mem h
  refine ⟨skillsContextHeader.toList ++ before.flatMap String.toList, after.flatMap String.toList, ?_⟩
  rw [String.toList_append, String.toList_join, List.flatMap_append, List.flatMap_cons]
  simp only [List.append_assoc]

theorem promptRoom_eq (maxPromptChars : Nat) : promptRoom maxPromptChars = max maxPromptChars 256 - 102 := by
  rw [promptRoom, charCount_skillsContextHeader]

theorem total_packedSections_le (selection : List (SelectedSkill Score)) (maxPromptChars : Nat) :
    102 + total charCount (packedSections scores selection maxPromptChars) ≤ max maxPromptChars 256 := by
  have hle : total charCount (packed charCount (promptRoom maxPromptChars) (sectionsFrom scores 1 selection)) ≤
      promptRoom maxPromptChars := total_packed_le _ _
  have hroom := promptRoom_eq maxPromptChars
  rw [packedSections]
  omega

end Sections

/-! ## A sound prompt -/

section Sound

variable {Score : Type} [LinearOrder Score] (scores : SkillScores Score) (isAlphanumeric : Char → Bool)
  (query : String) (settings : SkillRuntimeSelectionSettings Score)

/-- What the prompts of some skills are to be, and the prompt of a selection. -/
structure PromptSound (runtime : SkillRuntime) (selection : List (SelectedSkill Score)) : Prop where
  /-- The skills may have been read in any order. -/
  order : ∀ other : SkillRuntime, other.skills.Perm runtime.skills →
    other.buildSystemPrompt scores isAlphanumeric query settings
      = runtime.buildSystemPrompt scores isAlphanumeric query settings
  /-- What is selected is enabled and not off. -/
  active : ∀ selected ∈ runtime.select scores isAlphanumeric query settings,
    ∃ skill ∈ runtime.skills, skill.enabled = true ∧ skill.mode ≠ .off ∧ selected.id = skill.id ∧
      selected.content = skill.content
  bounded : ∀ prompt ∈ renderSystemPrompt scores selection settings.maxPromptChars,
    charCount prompt ≤ max settings.maxPromptChars 256
  /-- A prompt has a complete section. -/
  complete : ∀ prompt ∈ renderSystemPrompt scores selection settings.maxPromptChars,
    ∃ text ∈ sectionsFrom scores 1 selection, text.toList <:+: prompt.toList
  /-- A prompt has nothing but the header and sections of selected skills, and those that are left out do not fit in
  what is left of the budget. -/
  thrifty : ∀ prompt ∈ renderSystemPrompt scores selection settings.maxPromptChars,
    ∃ kept dropped, sectionsFrom scores 1 selection = kept ++ dropped ∧
      prompt = skillsContextHeader ++ String.join kept ∧
      ∀ text ∈ dropped, max settings.maxPromptChars 256 < charCount prompt + charCount text

variable {scores isAlphanumeric query settings} {runtime : SkillRuntime} {selection : List (SelectedSkill Score)}

/-- What a sound prompt says of the sections. -/
theorem PromptSound.packed (h : PromptSound scores isAlphanumeric query settings runtime selection)
    (hne : selection ≠ []) : packedSections scores selection settings.maxPromptChars ≠ [] ∧
      ∀ rest, sectionsFrom scores 1 selection = packedSections scores selection settings.maxPromptChars ++ rest →
        ∀ text ∈ rest, promptRoom settings.maxPromptChars <
          total charCount (packedSections scores selection settings.maxPromptChars) + charCount text := by
  have hroom := promptRoom_eq settings.maxPromptChars
  have hprompt : renderSystemPrompt scores selection settings.maxPromptChars =
      some (skillsContextHeader ++ String.join (packedSections scores selection settings.maxPromptChars)) :=
    renderSystemPrompt_eq hne
  refine ⟨fun hnone => ?_, fun rest hrest text htext => ?_⟩
  · -- The header has no bracket, and so no section.
    obtain ⟨text, htext, hinfix⟩ := h.complete _ hprompt
    obtain ⟨skill, -, i, rfl⟩ := mem_sectionsFrom htext
    have hbracket := hinfix.subset (bracket_mem_skillSection skill i)
    rw [hnone, String.join_nil, String.append_empty] at hbracket
    exact absurd hbracket (by decide)
  · obtain ⟨kept, dropped, hsplit, hkept, hdropped⟩ := h.thrifty _ hprompt
    have hcount := congrArg charCount hkept
    rw [charCount_prompt, charCount_prompt] at hcount
    have htotal : total charCount (packedSections scores selection settings.maxPromptChars) = total charCount kept := by
      omega
    have hsame : packedSections scores selection settings.maxPromptChars = kept :=
      eq_of_total_eq (fun text htext => charCount_pos_of_mem htext) hrest hsplit htotal
    have hin : text ∈ dropped := by
      rw [hsame] at hrest
      rw [List.append_cancel_left (hsplit.symm.trans hrest)]
      exact htext
    have hbound := hdropped text hin
    rw [charCount_prompt] at hbound
    omega

variable (scores isAlphanumeric query settings)

/-- **When a prompt is sound**: exactly when the first section fits behind the header, and no section that fits comes
behind one that does not. -/
theorem prompt_sound_iff (runtime : SkillRuntime) (selection : List (SelectedSkill Score)) :
    PromptSound scores isAlphanumeric query settings runtime selection ↔
      Thrifty charCount (promptRoom settings.maxPromptChars) (sectionsFrom scores 1 selection) := by
  have hroom := promptRoom_eq settings.maxPromptChars
  rw [thrifty_iff, ← packedSections]
  constructor
  · intro h
    by_cases hne : selection = []
    · subst hne
      refine ⟨fun _ => rfl, fun rest hrest text htext => ?_⟩
      have hrest' : [] = rest := hrest
      rw [← hrest'] at htext
      cases htext
    · obtain ⟨hsome, hrest⟩ := h.packed hne
      exact ⟨fun hnil => absurd hnil hsome, hrest⟩
  · rintro ⟨hfirst, hrest⟩
    obtain ⟨rest, hsplit⟩ : ∃ rest, sectionsFrom scores 1 selection =
        packedSections scores selection settings.maxPromptChars ++ rest := by
      obtain ⟨rest, hsplit, -⟩ :=
        packed_append (promptRoom settings.maxPromptChars) (sectionsFrom scores 1 selection)
      exact ⟨rest, hsplit⟩
    have hprompt : ∀ prompt ∈ renderSystemPrompt scores selection settings.maxPromptChars, selection ≠ [] ∧
        prompt = skillsContextHeader ++ String.join (packedSections scores selection settings.maxPromptChars) := by
      intro prompt hmem
      have hne : selection ≠ [] := by
        rintro rfl
        cases hmem
      exact ⟨hne, Option.some.inj (hmem.symm.trans (renderSystemPrompt_eq hne))⟩
    refine ⟨fun other hperm => ?_, fun selected => mem_select, fun prompt hmem => ?_, fun prompt hmem => ?_,
      fun prompt hmem => ?_⟩
    · rw [SkillRuntime.buildSystemPrompt, SkillRuntime.buildSystemPrompt, select_perm hperm]
    · obtain ⟨-, rfl⟩ := hprompt prompt hmem
      rw [charCount_prompt]
      exact total_packedSections_le selection settings.maxPromptChars
    · obtain ⟨hne, rfl⟩ := hprompt prompt hmem
      have hsome : packedSections scores selection settings.maxPromptChars ≠ [] := fun hnil => by
        obtain ⟨skill, skills, rfl⟩ := List.exists_cons_of_ne_nil hne
        exact List.cons_ne_nil _ _ (hfirst hnil)
      obtain ⟨text, htext⟩ := List.exists_mem_of_ne_nil _ hsome
      exact ⟨text, hsplit ▸ List.mem_append_left rest htext, infix_prompt htext⟩
    · obtain ⟨-, rfl⟩ := hprompt prompt hmem
      refine ⟨_, rest, hsplit, rfl, fun text htext => ?_⟩
      have hbound := hrest rest hsplit text htext
      rw [charCount_prompt]
      omega

end Sound

namespace Sample

/-- Scores in thousandths. -/
def thousandths : SkillScores Nat where
  always := 2000
  zero := 0
  ratio matched count := min (matched * 1000 / count) 1000
  fixed score :=
    toString (score / 1000) ++ "." ++ toString (score / 100 % 10) ++ toString (score / 10 % 10) ++ toString (score % 10)

/-- A skill that is always there. -/
def alwaysSkill (id content : String) : SkillRuntimeEntry where
  id := id
  enabled := true
  mode := .always
  name := id
  description := ""
  tags := []
  content := content
  tokenSet := ∅

/-- A long skill and a short one. -/
def longAndShort : SkillRuntime where
  skills := [alwaysSkill "a" (String.ofList (List.replicate 100 'x')), alwaysSkill "b" "x"]
  distinct := by decide

/-- The smallest prompt that the settings can ask for. -/
def smallPrompt : SkillRuntimeSelectionSettings Nat where
  maxSelected := 2
  maxPromptChars := 256
  matchMinScore := some 500

end Sample

/-- The section of the first skill does not fit: the prompt is the header alone, although the second skill would
fit behind it. -/
theorem header_only : Sample.longAndShort.buildSystemPrompt Sample.thousandths Char.isAlphanum "" Sample.smallPrompt =
      some skillsContextHeader ∧
    (∃ text ∈ sectionsFrom Sample.thousandths 1
        (Sample.longAndShort.select Sample.thousandths Char.isAlphanum "" Sample.smallPrompt),
      charCount skillsContextHeader + charCount text ≤ 256) ∧
    ¬ PromptSound Sample.thousandths Char.isAlphanum "" Sample.smallPrompt Sample.longAndShort
      (Sample.longAndShort.select Sample.thousandths Char.isAlphanum "" Sample.smallPrompt) := by
  have hselect : Sample.longAndShort.select Sample.thousandths Char.isAlphanum "" Sample.smallPrompt =
      Sample.longAndShort.skills.map fun skill => selectedSkill (skill, 2000) := by
    have hcandidates : Sample.longAndShort.candidates Sample.thousandths (tokenizeText Char.isAlphanum "")
        Sample.smallPrompt = Sample.longAndShort.skills.map fun skill => (skill, 2000) := rfl
    have hsorted : (Sample.longAndShort.skills.map fun skill => (skill, 2000)).Pairwise
        fun a b => decide (candidateOrder a b ≠ .gt) = true := by
      decide +kernel
    rw [SkillRuntime.select, hcandidates, List.mergeSort_of_pairwise hsorted]
    rfl
  have hnone : packedSections Sample.thousandths
      (Sample.longAndShort.skills.map fun skill => selectedSkill (skill, 2000)) 256 = [] := by
    decide +kernel
  have hne : (Sample.longAndShort.skills.map fun skill => selectedSkill (skill, 2000)) ≠ [] := by
    decide
  rw [SkillRuntime.buildSystemPrompt, hselect]
  have hfits : ∃ text ∈ sectionsFrom Sample.thousandths 1
      (Sample.longAndShort.skills.map fun skill => selectedSkill (skill, 2000)),
      charCount skillsContextHeader + charCount text ≤ 256 := by
    decide +kernel
  refine ⟨?_, hfits, fun h => (h.packed hne).1 hnone⟩
  rw [renderSystemPrompt_eq hne, Sample.smallPrompt, hnone, String.join_nil, String.append_empty]

end Xiaomaolv
