import Mathlib.Data.List.Chain
import Xiaomaolv.Lib.Scanner
import Xiaomaolv.Telegram.Markdown

/-!
# Telegram's MarkdownV2, read from the left

* `markdownV2`: the scanner of a message: the open entities, and what the next character belongs to.
* `WellFormedV2`: every escape is complete, every entity, code span, fence and link destination that is opened is
  closed, and every reserved character outside of these is escaped.
* `Stays`, `Toggles`: what a text does to the open entities.
* **`wellFormedV2_trim`**: a text that is well formed is so without the blanks around it.
-/

namespace Xiaomaolv

/-- The characters of MarkdownV2 that stand for themselves only behind a backslash. -/
def reservedV2 : List Char :=
  ['_', '*', '[', ']', '(', ')', '~', '`', '>', '#', '+', '-', '=', '|', '\x7b', '\x7d', '.', '!', '\\']

namespace MarkdownV2

/-- What the next character belongs to: `tick` and `ticks` are one and two back quotes that were just read,
`fenceTick` and `fenceTicks` those that may close a fence. -/
inductive ScanMode where
  | text
  | escape
  | tick
  | ticks
  | code
  | codeEscape
  | fence
  | fenceEscape
  | fenceTick
  | fenceTicks
  | linkEnd
  | dest
  | destEscape
  deriving DecidableEq

/-- The open entities, the last one first; `front`: a mark of a quote may come. -/
structure ScanState where
  mode : ScanMode
  opened : List Char
  front : Bool
  deriving DecidableEq

/-- A mark closes the entity that it opened, if that is the last one. -/
def toggle (mark : Char) : List Char → List Char
  | [] => [mark]
  | top :: rest => if top = mark then rest else mark :: top :: rest

def closeLink : List Char → Option ScanState
  | '[' :: rest => some ⟨.linkEnd, rest, false⟩
  | _ => none

/-- A character outside of code and of link destinations. -/
def textStep (opened : List Char) (front : Bool) (c : Char) : Option ScanState :=
  if c = '\\' then some ⟨.escape, opened, false⟩
  else if c = '`' then some ⟨.tick, opened, false⟩
  else if c ∈ ['*', '_', '~'] then some ⟨.text, toggle c opened, false⟩
  else if c = '[' then some ⟨.text, '[' :: opened, false⟩
  else if c = ']' then closeLink opened
  else if c = '>' then if front then some ⟨.text, opened, true⟩ else none
  else if c ∈ reservedV2 then none
  else some ⟨.text, opened, c = '\n' || (front && c = ' ')⟩

/-- Behind a character, in the mode `mode`. -/
def only (mode : ScanMode) (opened : List Char) (h : Bool) : Option ScanState :=
  if h then some ⟨mode, opened, false⟩ else none

def step (s : ScanState) (c : Char) : Option ScanState :=
  match s.mode with
  | .text => textStep s.opened s.front c
  | .escape => only .text s.opened (c ∈ reservedV2)
  | .tick => some ⟨if c = '`' then .ticks else if c = '\\' then .codeEscape else .code, s.opened, false⟩
  | .ticks => only .fence s.opened (c = '`')
  | .code => some ⟨if c = '`' then .text else if c = '\\' then .codeEscape else .code, s.opened, false⟩
  | .codeEscape => some ⟨.code, s.opened, false⟩
  | .fence => some ⟨if c = '`' then .fenceTick else if c = '\\' then .fenceEscape else .fence, s.opened, false⟩
  | .fenceEscape => some ⟨.fence, s.opened, false⟩
  | .fenceTick => only .fenceTicks s.opened (c = '`')
  | .fenceTicks => only .text s.opened (c = '`')
  | .linkEnd => only .dest s.opened (c = '(')
  | .dest => some ⟨if c = ')' then .text else if c = '\\' then .destEscape else .dest, s.opened, false⟩
  | .destEscape => some ⟨.dest, s.opened, false⟩

/-- `t` may only allow more marks of quotes. -/
def Eases (s t : ScanState) : Prop := s.mode = t.mode ∧ s.opened = t.opened ∧ (s.front = true → t.front = true)

theorem textStep_of_front {opened : List Char} {f g : Bool} {c : Char} {s : ScanState} (hfg : f = true → g = true)
    (h : textStep opened f c = some s) : ∃ t, textStep opened g c = some t ∧ Eases s t := by
  unfold textStep at h ⊢
  split_ifs at h ⊢ with h₁ h₂ h₃ h₄ h₅ h₆ h₇ h₈ h₉
  all_goals first
    | exact ⟨s, h, rfl, rfl, id⟩
    | exact absurd (hfg ‹_›) ‹_›
    | cases h
  refine ⟨_, rfl, rfl, rfl, fun hfront => ?_⟩
  simp only [Bool.or_eq_true, Bool.and_eq_true, decide_eq_true_eq] at hfront ⊢
  exact hfront.imp_right fun ⟨hf, hc⟩ => ⟨hfg hf, hc⟩

theorem step_of_eases {s t s' : ScanState} {c : Char} (heases : Eases s t) (h : step s c = some s') :
    ∃ t', step t c = some t' ∧ Eases s' t' := by
  obtain ⟨mode, opened, f⟩ := s
  obtain ⟨mode', opened', g⟩ := t
  obtain ⟨hmode, hopened, hfg⟩ := heases
  obtain rfl : mode = mode' := hmode
  obtain rfl : opened = opened' := hopened
  cases mode
  case text => exact textStep_of_front hfg h
  all_goals exact ⟨s', h, rfl, rfl, id⟩

end MarkdownV2

open MarkdownV2

/-- The scanner of a message. -/
def markdownV2 : Scanner ScanState Char where
  step := step
  start := ⟨.text, [], true⟩
  Eases := Eases
  refl _ := ⟨rfl, rfl, id⟩
  trans h₁ h₂ := ⟨h₁.1.trans h₂.1, h₁.2.1.trans h₂.2.1, fun h => h₂.2.2 (h₁.2.2 h)⟩
  step_of_eases := step_of_eases
  rest_of_eases h₁ h₂ := ⟨h₁.1.symm.trans h₂.1, h₁.2.1.symm.trans h₂.2.1, fun _ => rfl⟩

/-- **A message that is well formed by itself.** -/
def WellFormedV2 (message : List Char) : Prop := markdownV2.Accepts message

namespace MarkdownV2

/-! ## What a text does to the open entities -/

theorem wellFormedV2_iff {message : List Char} :
    WellFormedV2 message ↔ ∃ front, markdownV2.scan ⟨.text, [], true⟩ message = some ⟨.text, [], front⟩ := by
  constructor
  · rintro ⟨⟨mode, opened, front⟩, hscan, hmode, hopened, -⟩
    obtain rfl : mode = .text := hmode
    obtain rfl : opened = [] := hopened
    exact ⟨front, hscan⟩
  · rintro ⟨front, hscan⟩
    exact ⟨_, hscan, rfl, rfl, fun _ => rfl⟩

theorem not_mem_of_not_reserved {c : Char} (h : c ∉ reservedV2) :
    c ≠ '\\' ∧ c ≠ '`' ∧ c ∉ ['*', '_', '~'] ∧ c ≠ '[' ∧ c ≠ ']' ∧ c ≠ '>' := by
  simp only [reservedV2, List.mem_cons, List.not_mem_nil, or_false, not_or] at h ⊢
  tauto

theorem textStep_of_not_reserved {c : Char} (h : c ∉ reservedV2) (opened : List Char) (front : Bool) :
    textStep opened front c = some ⟨.text, opened, c = '\n' || (front && c = ' ')⟩ := by
  obtain ⟨h₁, h₂, h₃, h₄, h₅, h₆⟩ := not_mem_of_not_reserved h
  rw [textStep, if_neg h₁, if_neg h₂, if_neg h₃, if_neg h₄, if_neg h₅, if_neg h₆, if_neg h]

section Text

variable {opened : List Char} {front : Bool} {text : List Char} {c : Char}

theorem scan_singleton (s : ScanState) (c : Char) : markdownV2.scan s [c] = step s c := by
  show (step s c).bind some = _
  exact Option.bind_fun_some _

theorem scan_escaped (h : c ∈ reservedV2) :
    markdownV2.scan ⟨.text, opened, front⟩ ['\\', c] = some ⟨.text, opened, false⟩ := by
  have hfirst : markdownV2.step ⟨.text, opened, front⟩ '\\' = some ⟨.escape, opened, false⟩ := rfl
  rw [Scanner.scan_cons hfirst, scan_singleton]
  show only .text opened (decide (c ∈ reservedV2)) = _
  rw [decide_eq_true h]
  rfl

theorem scan_plain (h : c ∉ reservedV2) : markdownV2.scan ⟨.text, opened, front⟩ [c] =
    some ⟨.text, opened, c = '\n' || (front && c = ' ')⟩ := by
  rw [scan_singleton]
  exact textStep_of_not_reserved h opened front

theorem scan_newline : markdownV2.scan ⟨.text, opened, front⟩ ['\n'] = some ⟨.text, opened, true⟩ := by
  rw [scan_plain (by decide)]
  rfl

theorem scan_plains (opened : List Char) (front : Bool) (h : ∀ c ∈ text, c ∉ reservedV2) :
    ∃ f, markdownV2.scan ⟨.text, opened, front⟩ text = some ⟨.text, opened, f⟩ := by
  induction text generalizing front with
  | nil => exact ⟨front, rfl⟩
  | cons c text ih =>
    rw [Scanner.scan_cons (textStep_of_not_reserved (h c List.mem_cons_self) opened front)]
    exact ih _ fun c hc => h c (List.mem_cons_of_mem _ hc)

theorem scan_mark (h : c ∈ ['*', '_', '~']) :
    markdownV2.scan ⟨.text, opened, front⟩ [c] = some ⟨.text, toggle c opened, false⟩ := by
  rw [scan_singleton]
  simp only [List.mem_cons, List.not_mem_nil, or_false] at h
  rcases h with rfl | rfl | rfl <;> rfl

theorem scan_quotes (depth : Nat) : markdownV2.scan ⟨.text, opened, true⟩
    (List.replicate depth ['>', ' ']).flatten = some ⟨.text, opened, true⟩ := by
  induction depth with
  | zero => rfl
  | succ depth ih =>
    rw [List.replicate_succ, List.flatten_cons]
    exact ih

/-! ## Code, fences and link destinations -/

theorem scan_escapeds (opened : List Char) {mode escapeMode : ScanMode} {special : List Char}
    (hstep : ∀ c ∉ special, step ⟨mode, opened, false⟩ c = some ⟨mode, opened, false⟩)
    (hback : step ⟨mode, opened, false⟩ '\\' = some ⟨escapeMode, opened, false⟩)
    (hescape : ∀ c, step ⟨escapeMode, opened, false⟩ c = some ⟨mode, opened, false⟩) (text : List Char) :
    markdownV2.scan ⟨mode, opened, false⟩ (text.flatMap (escaped special)) = some ⟨mode, opened, false⟩ := by
  induction text with
  | nil => rfl
  | cons c text ih =>
    rw [List.flatMap_cons, escaped]
    split_ifs with hc
    · exact (Scanner.scan_cons hback).trans ((Scanner.scan_cons (hescape c)).trans ih)
    · exact (Scanner.scan_cons (hstep c hc)).trans ih

theorem mode_of_not_mem {close : Char} {ended escapeMode mode : ScanMode} (h : c ∉ ['\\', close]) :
    (if c = close then ended else if c = '\\' then escapeMode else mode) = mode := by
  simp only [List.mem_cons, List.not_mem_nil, or_false, not_or] at h
  rw [if_neg h.2, if_neg h.1]

theorem step_tick (h : c ∉ ['\\', '`']) : step ⟨.tick, opened, false⟩ c = some ⟨.code, opened, false⟩ :=
  congrArg (fun mode => some (ScanState.mk mode opened false)) (mode_of_not_mem h)

theorem step_code (h : c ∉ ['\\', '`']) : step ⟨.code, opened, false⟩ c = some ⟨.code, opened, false⟩ :=
  congrArg (fun mode => some (ScanState.mk mode opened false)) (mode_of_not_mem h)

theorem step_fence (h : c ∉ ['\\', '`']) : step ⟨.fence, opened, false⟩ c = some ⟨.fence, opened, false⟩ :=
  congrArg (fun mode => some (ScanState.mk mode opened false)) (mode_of_not_mem h)

theorem step_dest (h : c ∉ ['\\', ')']) : step ⟨.dest, opened, false⟩ c = some ⟨.dest, opened, false⟩ :=
  congrArg (fun mode => some (ScanState.mk mode opened false)) (mode_of_not_mem h)

theorem scan_code (h : text ≠ []) : markdownV2.scan ⟨.text, opened, front⟩
    (['`'] ++ text.flatMap (escaped ['\\', '`']) ++ ['`']) = some ⟨.text, opened, false⟩ := by
  obtain ⟨c, text, rfl⟩ := List.exists_cons_of_ne_nil h
  have hrest := scan_escapeds opened (fun _ => step_code) rfl (fun _ => rfl) text
  -- The first character tells a code span from a fence.
  have hfirst : markdownV2.scan ⟨.tick, opened, false⟩ (escaped ['\\', '`'] c) = some ⟨.code, opened, false⟩ := by
    rw [escaped]
    split_ifs with hc
    · rfl
    · rw [scan_singleton]
      exact step_tick hc
  have htick : markdownV2.scan ⟨.text, opened, front⟩ ['`'] = some ⟨.tick, opened, false⟩ := rfl
  rw [List.append_assoc, List.flatMap_cons, List.append_assoc, Scanner.scan_append_of htick,
    Scanner.scan_append_of hfirst, Scanner.scan_append_of hrest]
  rfl

theorem scan_openFence (h : ∀ c ∈ text, c ∉ ['\\', '`']) : markdownV2.scan ⟨.text, opened, front⟩
    ("```".toList ++ text ++ ['\n']) = some ⟨.fence, opened, false⟩ := by
  have hlanguage : markdownV2.scan ⟨.fence, opened, false⟩ text = some ⟨.fence, opened, false⟩ := by
    induction text with
    | nil => rfl
    | cons c text ih =>
      rw [Scanner.scan_cons (step_fence (h c List.mem_cons_self))]
      exact ih fun c hc => h c (List.mem_cons_of_mem _ hc)
  have hticks : markdownV2.scan ⟨.text, opened, front⟩ "```".toList = some ⟨.fence, opened, false⟩ := rfl
  rw [List.append_assoc, Scanner.scan_append_of hticks, Scanner.scan_append_of hlanguage]
  rfl

theorem scan_closeFence : markdownV2.scan ⟨.fence, opened, false⟩ "```".toList = some ⟨.text, opened, false⟩ := rfl

theorem scan_closeLink (dest : List Char) : markdownV2.scan ⟨.text, '[' :: opened, front⟩
    ([']', '('] ++ dest.flatMap (escaped ['\\', ')']) ++ [')']) = some ⟨.text, opened, false⟩ := by
  have hdest := scan_escapeds opened (fun _ => step_dest) rfl (fun _ => rfl) dest
  have hend : markdownV2.scan ⟨.text, '[' :: opened, front⟩ [']', '('] = some ⟨.dest, opened, false⟩ := rfl
  rw [List.append_assoc, Scanner.scan_append_of hend, Scanner.scan_append_of hdest]
  rfl

/-! ## Entities that close what they opened -/

/-- No entity is opened right inside one of its kind: a second mark would have closed the first. -/
def Reduced (opened : List Char) : Prop := opened.IsChain fun top next => top = next → top = '['

theorem reduced_toggle {mark : Char} (h : Reduced opened) : Reduced (toggle mark opened) := by
  cases opened with
  | nil => exact .singleton _
  | cons top rest =>
    rw [toggle]
    split_ifs with htop
    · exact h.tail
    · exact List.isChain_cons_cons.mpr ⟨fun heq => absurd heq.symm htop, h⟩

theorem toggle_toggle {mark : Char} (hmark : mark ≠ '[') (h : Reduced opened) :
    toggle mark (toggle mark opened) = opened := by
  cases opened with
  | nil => exact if_pos rfl
  | cons top rest =>
    by_cases htop : top = mark
    · subst htop
      rw [toggle, if_pos rfl]
      cases rest with
      | nil => rfl
      | cons next rest =>
        exact if_neg fun heq => hmark ((List.isChain_cons_cons.mp h).1 heq.symm)
    · rw [toggle, if_neg htop]
      exact if_pos rfl

end Text

/-! ## Blanks -/

theorem not_reserved_of_isWhitespace {c : Char} (h : isWhitespace c = true) : c ∉ reservedV2 := by
  have hnone : ∀ c ∈ reservedV2, isWhitespace c = false := by decide
  intro hc
  rw [hnone c hc] at h
  cases h

theorem step_blank {s : ScanState} {c : Char} {opened : List Char} {front : Bool} (hc : isWhitespace c = true)
    (h : step s c = some ⟨.text, opened, front⟩) : s.mode = .text ∧ s.opened = opened := by
  obtain ⟨mode, opened', f⟩ := s
  have hplain := not_reserved_of_isWhitespace hc
  have hfree := not_mem_of_not_reserved hplain
  have hparen : c ≠ ')' := fun heq => hplain (by rw [heq]; decide)
  cases mode
  case text =>
    change textStep opened' f c = _ at h
    rw [textStep_of_not_reserved hplain] at h
    cases h
    exact ⟨rfl, rfl⟩
  all_goals simp [step, only, hplain, hfree.1, hfree.2.1, hparen] at h

theorem wellFormedV2_of_cons {c : Char} {text : List Char} (hc : isWhitespace c = true)
    (h : WellFormedV2 (c :: text)) : WellFormedV2 text := by
  obtain ⟨s, hs, hend⟩ := h
  rw [Scanner.scan_cons (textStep_of_not_reserved (not_reserved_of_isWhitespace hc) _ _)] at hs
  have hfront : ∀ f, markdownV2.Eases ⟨.text, [], f⟩ markdownV2.start := fun _ => ⟨rfl, rfl, fun _ => rfl⟩
  obtain ⟨t, ht, heases⟩ := Scanner.scan_of_eases (hfront _) hs
  exact ⟨t, ht, markdownV2.rest_of_eases heases hend⟩

theorem wellFormedV2_of_concat {c : Char} {text : List Char} (hc : isWhitespace c = true)
    (h : WellFormedV2 (text ++ [c])) : WellFormedV2 text := by
  obtain ⟨front, hscan⟩ := wellFormedV2_iff.mp h
  obtain ⟨⟨mode, opened, f⟩, hs, hlast⟩ := Scanner.scan_append_eq_some.mp hscan
  rw [scan_singleton] at hlast
  obtain ⟨hmode, hopened⟩ := step_blank hc hlast
  obtain rfl : mode = .text := hmode
  obtain rfl : opened = [] := hopened
  exact wellFormedV2_iff.mpr ⟨f, hs⟩

theorem wellFormedV2_dropWhile {text : List Char} (h : WellFormedV2 text) :
    WellFormedV2 (text.dropWhile isWhitespace) := by
  induction text with
  | nil => exact h
  | cons c text ih =>
    rw [List.dropWhile_cons]
    split_ifs with hc
    · exact ih (wellFormedV2_of_cons hc h)
    · exact h

theorem wellFormedV2_rdropWhile {text : List Char} (h : WellFormedV2 text) :
    WellFormedV2 (text.reverse.dropWhile isWhitespace).reverse := by
  induction text using List.reverseRecOn with
  | nil => exact h
  | append_singleton text c ih =>
    rw [List.reverse_append, List.reverse_singleton, List.singleton_append, List.dropWhile_cons]
    split_ifs with hc
    · exact ih (wellFormedV2_of_concat hc h)
    · rw [List.reverse_cons, List.reverse_reverse]
      exact h

/-- **A text that is well formed is so without the blanks around it.** -/
theorem wellFormedV2_trim {text : List Char} (h : WellFormedV2 text) :
    WellFormedV2 (trim (String.ofList text)).toList := by
  rw [trim, String.toList_ofList, String.toList_ofList]
  exact wellFormedV2_rdropWhile (wellFormedV2_dropWhile h)

theorem wellFormedV2_of_isBlank {text : String} (h : isBlank text = true) : WellFormedV2 text.toList := by
  obtain ⟨f, hf⟩ := scan_plains [] true fun c (hc : c ∈ text.toList) =>
    not_reserved_of_isWhitespace (List.all_eq_true.mp h c hc)
  exact wellFormedV2_iff.mpr ⟨f, hf⟩

end MarkdownV2

end Xiaomaolv
