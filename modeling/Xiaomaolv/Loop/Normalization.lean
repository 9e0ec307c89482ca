import Xiaomaolv.Loop.Signals
import Xiaomaolv.Loop.Text

/-!
# Normalised signal texts

Signals that differ in case, white space and punctuation only share one hash, that of their normalised text.

* `Unicode`: what the normalisation takes from the standard library; `normalizeForTokens`, `normalizedSignalHash`:
  the functions of the source.
* `Neat`: a text that the loop writes back; `normalizeForTokens_of_neat`, `neat_foldl`.
* **`normalize_stable_iff`**: a text is normalised once and for all, and shares its hash with the normalised text,
  exactly when its letters have lower-case forms without other characters.
* `dotted_capital_i`: a letter that has none.
-/

namespace Xiaomaolv

open Replace

/-! ## The normalisation -/

/-- `char::is_alphanumeric` and `char::to_lowercase`, with what Unicode says of both. -/
structure Unicode where
  isAlphanumeric : Char → Bool
  toLowercase : Char → List Char
  /-- No white space is alphabetic or numeric. -/
  not_isWhitespace : ∀ c, isAlphanumeric c = true → isWhitespace c = false
  toLowercase_ne_nil : ∀ c, toLowercase c ≠ []
  /-- No letter or number has white space in its lower-case form. -/
  solid : ∀ c, isAlphanumeric c = true → ∀ d ∈ toLowercase c, isWhitespace d = false
  /-- A lower-case form is its own lower-case form. -/
  lowercase : ∀ c, ∀ d ∈ toLowercase c, toLowercase d = [d]

section

variable (u : Unicode)

/-- The loop of `normalize_for_tokens` on one character: what is written, and whether a space is pending. -/
def normalizeChar (state : List Char × Bool) (ch : Char) : List Char × Bool :=
  let (normalized, pendingSpace) := state
  if u.isAlphanumeric ch then
    let normalized := if pendingSpace && !normalized.isEmpty then normalized ++ [' '] else normalized
    (normalized ++ u.toLowercase ch, false)
  else (normalized, true)

def normalizeForTokens (content : String) : String :=
  String.ofList ((trim content).toList.foldl (normalizeChar u) ([], false)).1

def SignalKind.asStr : SignalKind → String
  | trajectory => "trajectory"
  | userFeedback => "user_feedback"
  | developerFeedback => "developer_feedback"
  | community => "community"
  | selfTest => "self_test"
  | sessionReplay => "session_replay"
  | deploymentOutcome => "deployment_outcome"
  | manual => "manual"

/-- `hash` is `hash_serializable` of the kind and the text, which does not fail on texts. -/
def normalizedSignalHash (hash : String × String → String) (kind : SignalKind) (content : String) : String :=
  let normalized := normalizeForTokens u content
  hash (kind.asStr, if normalized.isEmpty then trim content else normalized)

end

/-! ## Neat texts -/

section Neat

variable {u : Unicode} {state : List Char × Bool} {text : List Char}

theorem not_isAlphanumeric_space (u : Unicode) : u.isAlphanumeric ' ' = false := by
  by_contra h
  have hspace := u.not_isWhitespace ' ' (by simpa using h)
  exact absurd hspace (by decide)

/-- What is written, with the space that the next letter would bring. -/
def shown (state : List Char × Bool) : List Char :=
  if state.2 && !state.1.isEmpty then state.1 ++ [' '] else state.1

theorem normalizeChar_of_pos {c : Char} (h : u.isAlphanumeric c = true) :
    normalizeChar u state c = (shown state ++ u.toLowercase c, false) := by
  rw [normalizeChar, if_pos h]
  rfl

theorem normalizeChar_of_neg {c : Char} (h : u.isAlphanumeric c = false) :
    normalizeChar u state c = (state.1, true) := by
  rw [normalizeChar, if_neg (by simp [h])]

/-- Letters and numbers that are their own lower-case forms, between single spaces. -/
structure Neat (u : Unicode) (text : List Char) : Prop where
  chars : ∀ c ∈ text, c = ' ' ∨ (u.isAlphanumeric c = true ∧ u.toLowercase c = [c])
  ends : Ends (· ≠ ' ') text
  single : text.IsChain fun a b => ¬ (a = ' ' ∧ b = ' ')

theorem Neat.trim_eq (h : Neat u text) : trim (String.ofList text) = String.ofList text := by
  refine trim_of_trimmed ?_
  rw [Trimmed, String.toList_ofList]
  have hsolid : ∀ c ∈ text, c ≠ ' ' → isWhitespace c = false := fun c hc hne =>
    u.not_isWhitespace c ((h.chars c hc).resolve_left hne).1
  exact ⟨fun c hc => hsolid c (List.mem_of_mem_head? hc) (h.ends.1 c hc),
    fun c hc => hsolid c (List.mem_of_mem_getLast? hc) (h.ends.2 c hc)⟩

/-- The loop shows as much of a neat text as it has read. -/
theorem shown_foldl (hchars : ∀ c ∈ text, c = ' ' ∨ (u.isAlphanumeric c = true ∧ u.toLowercase c = [c]))
    (hhead : ∀ c ∈ text.head?, c ≠ ' ') (hsingle : text.IsChain fun a b => ¬ (a = ' ' ∧ b = ' ')) :
    shown (text.foldl (normalizeChar u) ([], false)) = text := by
  induction text using List.reverseRecOn with
  | nil => rfl
  | append_singleton text c ih =>
    have hhead' : ∀ c ∈ text.head?, c ≠ ' ' := by
      cases text with
      | nil => simp
      | cons a text => exact hhead
    have ih := ih (fun c hc => hchars c (List.mem_append_left _ hc)) hhead' (List.isChain_append.mp hsingle).1
    rw [List.foldl_append, List.foldl_cons, List.foldl_nil]
    rcases hchars c (List.mem_append_right _ (List.mem_singleton_self c)) with rfl | ⟨halpha, hlower⟩
    · -- A space comes after a letter, so none is pending.
      have hne : text ≠ [] := by
        rintro rfl
        exact hhead ' ' rfl rfl
      have hlast : ∀ a ∈ text.getLast?, a ≠ ' ' := fun a ha hspace =>
        (List.isChain_append.mp hsingle).2.2 a ha ' ' rfl ⟨hspace, rfl⟩
      rw [normalizeChar_of_neg (not_isAlphanumeric_space u)]
      generalize text.foldl (normalizeChar u) ([], false) = state at ih ⊢
      unfold shown at ih ⊢
      by_cases hpending : state.2 && !state.1.isEmpty
      · rw [if_pos hpending] at ih
        exact absurd rfl (hlast ' ' (by rw [← ih, List.getLast?_concat]; rfl))
      · rw [if_neg hpending] at ih
        rw [ih, if_pos (by simpa using hne)]
    · rw [normalizeChar_of_pos halpha, ih, hlower]
      rfl

/-- **A neat text stays as it is.** -/
theorem normalizeForTokens_of_neat (h : Neat u text) :
    normalizeForTokens u (String.ofList text) = String.ofList text := by
  have hshown := shown_foldl h.chars h.ends.1 h.single
  rw [normalizeForTokens, h.trim_eq, String.toList_ofList]
  generalize text.foldl (normalizeChar u) ([], false) = state at hshown ⊢
  unfold shown at hshown
  by_cases hpending : state.2 && !state.1.isEmpty
  · rw [if_pos hpending] at hshown
    exact absurd rfl (h.ends.2 ' ' (by rw [← hshown, List.getLast?_concat]; rfl))
  · rw [if_neg hpending] at hshown
    rw [hshown]

theorem mem_foldl {d : Char} : d ∈ (text.foldl (normalizeChar u) ([], false)).1 →
    d = ' ' ∨ ∃ c ∈ text, u.isAlphanumeric c = true ∧ d ∈ u.toLowercase c := by
  induction text using List.reverseRecOn with
  | nil =>
    intro hd
    cases hd
  | append_singleton text c ih =>
    rw [List.foldl_append, List.foldl_cons, List.foldl_nil]
    intro hd
    have hearlier : d ∈ (text.foldl (normalizeChar u) ([], false)).1 →
        d = ' ' ∨ ∃ c' ∈ text ++ [c], u.isAlphanumeric c' = true ∧ d ∈ u.toLowercase c' := fun h =>
      (ih h).imp_right fun ⟨c', hc', h⟩ => ⟨c', List.mem_append_left _ hc', h⟩
    cases halpha : u.isAlphanumeric c with
    | false =>
      rw [normalizeChar_of_neg halpha] at hd
      exact hearlier hd
    | true =>
      rw [normalizeChar_of_pos halpha] at hd
      rcases List.mem_append.mp hd with hd | hd
      · unfold shown at hd
        split_ifs at hd
        · rcases List.mem_append.mp hd with hd | hd
          · exact hearlier hd
          · exact .inl (List.mem_singleton.mp hd)
        · exact hearlier hd
      · exact .inr ⟨c, List.mem_append_right _ (List.mem_singleton_self c), halpha, hd⟩

theorem subset_foldl {c d : Char} (hc : c ∈ text) (halpha : u.isAlphanumeric c = true) (hd : d ∈ u.toLowercase c) :
    d ∈ (text.foldl (normalizeChar u) ([], false)).1 := by
  induction text using List.reverseRecOn with
  | nil => cases hc
  | append_singleton text x ih =>
    rw [List.foldl_append, List.foldl_cons, List.foldl_nil]
    rcases List.mem_append.mp hc with hc | hc
    · have hin := ih hc
      cases hx : u.isAlphanumeric x with
      | false =>
        rw [normalizeChar_of_neg hx]
        exact hin
      | true =>
        rw [normalizeChar_of_pos hx]
        refine List.mem_append_left _ ?_
        unfold shown
        split_ifs
        · exact List.mem_append_left _ hin
        · exact hin
    · obtain rfl := List.mem_singleton.mp hc
      rw [normalizeChar_of_pos halpha]
      exact List.mem_append_right _ hd

theorem spaced_append {written word : List Char} (hends : Ends (· ≠ ' ') written)
    (hsingle : written.IsChain fun a b => ¬ (a = ' ' ∧ b = ' ')) (hne : word ≠ [])
    (hword : ∀ d ∈ word, d ≠ ' ')
    {pendingSpace : Bool} : Ends (· ≠ ' ') (shown (written, pendingSpace) ++ word) ∧
      (shown (written, pendingSpace) ++ word).IsChain fun a b => ¬ (a = ' ' ∧ b = ' ') := by
  have hends' : Ends (· ≠ ' ') word := ⟨fun d hd => hword d (List.mem_of_mem_head? hd),
    fun d hd => hword d (List.mem_of_mem_getLast? hd)⟩
  have hpairs : word.Pairwise fun a b => ¬ (a = ' ' ∧ b = ' ') :=
    List.pairwise_of_forall_mem_list fun a ha b _ hboth => hword a ha hboth.1
  have hchain : word.IsChain fun a b => ¬ (a = ' ' ∧ b = ' ') := hpairs.isChain
  have hjoin : ∀ x : Char, ∀ y ∈ word.head?, ¬ (x = ' ' ∧ y = ' ') := fun x y hy h =>
    hword y (List.mem_of_mem_head? hy) h.2
  unfold shown
  split_ifs with hpending
  · have hwritten : written ≠ [] := by
      rintro rfl
      simp at hpending
    refine ⟨⟨?_, ?_⟩, ?_⟩
    · rw [List.append_assoc, List.head?_append_of_ne_nil _ hwritten]
      exact hends.1
    · rw [List.getLast?_append_of_ne_nil _ hne]
      exact hends'.2
    · rw [List.isChain_append, List.isChain_append]
      exact ⟨⟨hsingle, List.isChain_singleton _, fun x hx y _ h => hends.2 x hx h.1⟩, hchain,
        fun x _ => hjoin x⟩
  · exact ⟨hends.append hends', List.isChain_append.mpr ⟨hsingle, hchain, fun x _ => hjoin x⟩⟩

/-- **What the loop writes is neat**, where the lower-case forms are made of letters and numbers. -/
theorem neat_foldl
    (h : ∀ c ∈ text, u.isAlphanumeric c = true → ∀ d ∈ u.toLowercase c, u.isAlphanumeric d = true) :
    Neat u (text.foldl (normalizeChar u) ([], false)).1 := by
  have hspaced : Ends (· ≠ ' ') (text.foldl (normalizeChar u) ([], false)).1 ∧
      (text.foldl (normalizeChar u) ([], false)).1.IsChain fun a b => ¬ (a = ' ' ∧ b = ' ') := by
    induction text using List.reverseRecOn with
    | nil => exact ⟨⟨by simp, by simp⟩, List.isChain_nil⟩
    | append_singleton text c ih =>
      obtain ⟨hends, hsingle⟩ := ih fun x hx => h x (List.mem_append_left _ hx)
      rw [List.foldl_append, List.foldl_cons, List.foldl_nil]
      cases halpha : u.isAlphanumeric c with
      | false =>
        rw [normalizeChar_of_neg halpha]
        exact ⟨hends, hsingle⟩
      | true =>
        rw [normalizeChar_of_pos halpha]
        refine spaced_append hends hsingle (u.toLowercase_ne_nil c) fun d hd hspace => ?_
        rw [hspace] at hd
        exact absurd (u.solid c halpha ' ' hd) (by decide)
  refine ⟨fun d hd => ?_, hspaced.1, hspaced.2⟩
  rcases mem_foldl hd with hspace | ⟨c, hc, halpha, hd⟩
  · exact .inl hspace
  · exact .inr ⟨h c hc halpha d hd, u.lowercase c d hd⟩

end Neat

/-! ## Normalising once -/

/-- A normalised text is its own normal form, and a signal whose content is a normalised text shares its hash. -/
structure NormalizedForGood (u : Unicode) (s : String) : Prop where
  idempotent : normalizeForTokens u (normalizeForTokens u s) = normalizeForTokens u s
  /-- A signal cannot be blank, so the normalised form is one only where something is left. -/
  hash : ∀ (hash : String × String → String) (kind : SignalKind), isBlank (normalizeForTokens u s) = false →
    normalizedSignalHash u hash kind (normalizeForTokens u s) = normalizedSignalHash u hash kind s

/-- **Once and for all.** A text is normalised by one pass, and shares its hash with the normalised text, exactly
when the lower-case forms of its letters and numbers are made of letters and numbers. -/
theorem normalize_stable_iff (u : Unicode) (s : String) : NormalizedForGood u s ↔
    ∀ c ∈ s.toList, u.isAlphanumeric c = true → ∀ d ∈ u.toLowercase c, u.isAlphanumeric d = true := by
  -- Trimming takes no letter and no number away.
  have hkept : ∀ c, u.isAlphanumeric c = true → (c ∈ (trim s).toList ↔ c ∈ s.toList) := fun c halpha => by
    rw [← List.count_pos_iff, count_trim (u.not_isWhitespace c halpha), List.count_pos_iff]
  constructor
  · intro h c hc halpha d hd
    by_contra hno
    have hwritten : d ∈ (normalizeForTokens u s).toList := by
      rw [normalizeForTokens, String.toList_ofList]
      exact subset_foldl ((hkept c halpha).mpr hc) halpha hd
    have hagain := hwritten
    rw [← h.idempotent, normalizeForTokens, String.toList_ofList] at hagain
    rcases mem_foldl hagain with rfl | ⟨e, he, halpha', hd'⟩
    · exact absurd (u.solid c halpha ' ' hd) (by decide)
    · -- The letter that writes it again was written before, so it is its own lower-case form.
      have he' : e ∈ (normalizeForTokens u s).toList := by
        rw [← List.count_pos_iff, ← count_trim (u.not_isWhitespace e halpha'), List.count_pos_iff]
        exact he
      rw [normalizeForTokens, String.toList_ofList] at he'
      rcases mem_foldl he' with rfl | ⟨x, -, -, hx⟩
      · exact absurd halpha' (by rw [not_isAlphanumeric_space]; exact Bool.false_ne_true)
      · rw [u.lowercase x e hx] at hd'
        rw [List.mem_singleton.mp hd'] at hno
        exact hno halpha'
  · intro h
    have hneat : Neat u ((trim s).toList.foldl (normalizeChar u) ([], false)).1 :=
      neat_foldl fun c hc halpha => h c ((hkept c halpha).mp hc) halpha
    have hidem : normalizeForTokens u (normalizeForTokens u s) = normalizeForTokens u s :=
      normalizeForTokens_of_neat hneat
    refine ⟨hidem, fun hash kind hblank => ?_⟩
    have hne : (normalizeForTokens u s).isEmpty = false := by
      rw [Bool.eq_false_iff]
      intro hempty
      have hempty' : isBlank "" = true := by decide
      rw [String.isEmpty_iff.mp hempty, hempty'] at hblank
      exact Bool.noConfusion hblank
    rw [normalizedSignalHash, normalizedSignalHash, hidem, hne, if_neg Bool.false_ne_true, if_neg Bool.false_ne_true]

namespace Sample

/-- The standard library on the letters from a to z and on the dotted capital I. -/
def dotted : Unicode where
  isAlphanumeric c := c = 'İ' || (97 ≤ c.toNat && c.toNat ≤ 122)
  toLowercase c := if c = 'İ' then ['i', '\u0307'] else [c]
  not_isWhitespace c h := by
    simp only [Bool.or_eq_true, Bool.and_eq_true, decide_eq_true_eq] at h
    rcases h with rfl | ⟨hlow, hhigh⟩
    · decide
    · simp only [isWhitespace, Bool.or_eq_false_iff, Bool.and_eq_false_iff, beq_eq_false_iff_ne,
        decide_eq_false_iff_not]
      omega
  toLowercase_ne_nil c := by split_ifs <;> simp
  solid c h d hd := by
    simp only [Bool.or_eq_true, Bool.and_eq_true, decide_eq_true_eq] at h
    split_ifs at hd with hc
    · simp only [List.mem_cons, List.not_mem_nil, or_false] at hd
      rcases hd with rfl | rfl <;> decide
    · obtain rfl := List.mem_singleton.mp hd
      obtain ⟨hlow, hhigh⟩ := h.resolve_left hc
      simp only [isWhitespace, Bool.or_eq_false_iff, Bool.and_eq_false_iff, beq_eq_false_iff_ne,
        decide_eq_false_iff_not]
      omega
  lowercase c d hd := by
    split_ifs at hd with hc
    · simp only [List.mem_cons, List.not_mem_nil, or_false] at hd
      rcases hd with rfl | rfl <;> decide
    · obtain rfl := List.mem_singleton.mp hd
      exact if_neg hc

end Sample

/-- The dotted capital I is written as an i and a combining dot, which the next pass takes away. -/
theorem dotted_capital_i : normalizeForTokens Sample.dotted "İ" = "i\u0307" ∧
    normalizeForTokens Sample.dotted (normalizeForTokens Sample.dotted "İ") = "i" ∧
    ¬ NormalizedForGood Sample.dotted "İ" := by
  have honce : normalizeForTokens Sample.dotted "İ" = "i\u0307" := by decide +kernel
  have htwice : normalizeForTokens Sample.dotted "i\u0307" = "i" := by decide +kernel
  refine ⟨honce, by rw [honce]; exact htwice, fun h => ?_⟩
  have hsame := h.idempotent
  rw [honce, htwice] at hsame
  exact absurd hsame (by decide)

end Xiaomaolv
