import Mathlib.Data.List.Infix
import Mathlib.Data.List.Basic

/-!
# Replacing the occurrences of a pattern

* `replaceAll`: the leftmost occurrences of a pattern, none over another, give way to a new text.
* `replaceAll_eq_self`: a text without the pattern stays.
* **`not_infix_replaceAll`**: a new text that shares no element with the pattern leaves no occurrence.
* **`replaceAll_escape`**: escapes with one element are read back.
* `cleanse`: several patterns give way to one text, one after the other; **`not_infix_cleanse`**.
-/

namespace Replace

variable {α : Type}

/-- What begins and ends with elements of `P`. -/
def Ends (P : α → Prop) (text : List α) : Prop := (∀ a ∈ text.head?, P a) ∧ ∀ a ∈ text.getLast?, P a

theorem Ends.append {P : α → Prop} {s t : List α} (hs : Ends P s) (ht : Ends P t) : Ends P (s ++ t) := by
  refine ⟨fun a ha => ?_, fun a ha => ?_⟩
  · rw [List.head?_append, Option.mem_def, Option.or_eq_some_iff] at ha
    rcases ha with ha | ⟨-, ha⟩
    exacts [hs.1 a ha, ht.1 a ha]
  · rw [List.getLast?_append, Option.mem_def, Option.or_eq_some_iff] at ha
    rcases ha with ha | ⟨-, ha⟩
    exacts [ht.2 a ha, hs.2 a ha]

variable [DecidableEq α]

/-! ## One pattern -/

/-- The text from its first element that is not skipped, with the pattern replaced. -/
def replaceFrom (pattern new : List α) : Nat → List α → List α
  | _, [] => []
  | skip + 1, _ :: text => replaceFrom pattern new skip text
  | 0, a :: text =>
    if pattern <+: a :: text then new ++ replaceFrom pattern new (pattern.length - 1) text
    else a :: replaceFrom pattern new 0 text

/-- The text with the occurrences of a pattern, which is not empty, replaced from the left. -/
def replaceAll (pattern new text : List α) : List α := replaceFrom pattern new 0 text

section Pattern

variable {pattern new text : List α}

theorem replaceFrom_eq (skip : Nat) (text : List α) :
    replaceFrom pattern new skip text = replaceAll pattern new (text.drop skip) := by
  induction skip generalizing text with
  | zero => rfl
  | succ skip ih =>
    cases text with
    | nil => rfl
    | cons a text => rw [replaceFrom, ih, List.drop_succ_cons]

@[simp] theorem replaceAll_nil : replaceAll pattern new [] = [] := rfl

theorem replaceAll_hit {a : α} (hpattern : pattern ≠ []) (h : pattern <+: a :: text) :
    replaceAll pattern new (a :: text) = new ++ replaceAll pattern new ((a :: text).drop pattern.length) := by
  obtain ⟨n, hn⟩ := Nat.exists_eq_succ_of_ne_zero fun h => hpattern (List.length_eq_zero_iff.mp h)
  rw [replaceAll, replaceFrom, if_pos h, replaceFrom_eq, hn, List.drop_succ_cons, Nat.succ_sub_one]

theorem replaceAll_miss {a : α} (h : ¬ pattern <+: a :: text) :
    replaceAll pattern new (a :: text) = a :: replaceAll pattern new text := by
  rw [replaceAll, replaceFrom, if_neg h]
  rfl

theorem replaceAll_eq_self (h : ¬ pattern <:+: text) : replaceAll pattern new text = text := by
  induction text with
  | nil => rfl
  | cons a text ih =>
    rw [List.infix_cons_iff, not_or] at h
    rw [replaceAll_miss h.1, ih h.2]

theorem replaceAll_induction {motive : List α → List α → Prop} (hpattern : pattern ≠ []) (hnil : motive [] [])
    (hhit : ∀ a text, pattern <+: a :: text →
      motive ((a :: text).drop pattern.length) (replaceAll pattern new ((a :: text).drop pattern.length)) →
      motive (a :: text) (new ++ replaceAll pattern new ((a :: text).drop pattern.length)))
    (hmiss : ∀ a text, ¬ pattern <+: a :: text → motive text (replaceAll pattern new text) →
      motive (a :: text) (a :: replaceAll pattern new text)) (text : List α) :
    motive text (replaceAll pattern new text) := by
  induction hlen : text.length using Nat.strongRecOn generalizing text with
  | ind length ih =>
    cases text with
    | nil => exact hnil
    | cons a text =>
      have hpos : 0 < pattern.length := List.length_pos_iff.mpr hpattern
      rw [List.length_cons] at hlen
      by_cases hbegins : pattern <+: a :: text
      · rw [replaceAll_hit hpattern hbegins]
        refine hhit a text hbegins (ih _ ?_ _ rfl)
        rw [List.length_drop, List.length_cons]
        omega
      · rw [replaceAll_miss hbegins]
        exact hmiss a text hbegins (ih _ (by omega) _ rfl)

theorem replaceAll_ne_nil (hpattern : pattern ≠ []) (hne : new ≠ []) (h : text ≠ []) :
    replaceAll pattern new text ≠ [] := by
  obtain ⟨a, text, rfl⟩ := List.exists_cons_of_ne_nil h
  by_cases hbegins : pattern <+: a :: text
  · rw [replaceAll_hit hpattern hbegins]
    exact fun h => hne (List.append_eq_nil_iff.mp h).1
  · rw [replaceAll_miss hbegins]
    exact List.cons_ne_nil _ _

theorem ends_replaceAll {P : α → Prop} (hpattern : pattern ≠ []) (hnew : Ends P new) (hne : new ≠ [])
    (h : Ends P text) : Ends P (replaceAll pattern new text) := by
  have hfirst : ∀ b ∈ (replaceAll pattern new text).head?, P b := by
    cases text with
    | nil => exact h.1
    | cons a text =>
      by_cases hbegins : pattern <+: a :: text
      · rw [replaceAll_hit hpattern hbegins, List.head?_append_of_ne_nil _ hne]
        exact hnew.1
      · rw [replaceAll_miss hbegins]
        exact h.1
  refine ⟨hfirst, ?_⟩
  refine replaceAll_induction (motive := fun t r => (∀ b ∈ t.getLast?, P b) → ∀ b ∈ r.getLast?, P b) hpattern
    (fun h => h) (fun a text _ ih hlast b hb => ?_) (fun a text _ ih hlast b hb => ?_) text h.2
  · rw [List.getLast?_append, Option.mem_def, Option.or_eq_some_iff] at hb
    rcases hb with hb | ⟨-, hb⟩
    · refine ih (fun c hc => hlast c ?_) b hb
      obtain ⟨s, hs⟩ := List.drop_suffix pattern.length (a :: text)
      rw [Option.mem_def] at hc ⊢
      rw [← hs, List.getLast?_append, hc]
      rfl
    · exact hnew.2 b hb
  · rw [List.getLast?_cons, Option.mem_def] at hb
    cases hrest : (replaceAll pattern new text).getLast? with
    | none =>
      rw [hrest] at hb
      obtain rfl : a = b := by simpa using hb
      have hnil : text = [] := by
        by_contra htext
        exact replaceAll_ne_nil hpattern hne htext (List.getLast?_eq_none_iff.mp hrest)
      exact hlast a (by rw [hnil]; rfl)
    | some c =>
      rw [hrest] at hb
      obtain rfl : c = b := by simpa using hb
      refine ih (fun d hd => hlast d ?_) c hrest
      rw [List.getLast?_cons, Option.mem_def, Option.mem_def.mp hd]
      rfl

/-! ### What occurs afterwards -/

section Fresh

variable {other : List α} (hpattern : pattern ≠ []) (hne : new ≠ []) (hnew : ∀ a ∈ new, a ∉ other)

include hpattern hne hnew

theorem begins_of_begins_replaceAll (h : other <+: replaceAll pattern new text) : other <+: text := by
  induction other generalizing text with
  | nil => exact List.nil_prefix
  | cons b other ih =>
    cases text with
    | nil => exact h
    | cons a text =>
      by_cases hbegins : pattern <+: a :: text
      · rw [replaceAll_hit hpattern hbegins] at h
        obtain ⟨c, rest, rfl⟩ := List.exists_cons_of_ne_nil hne
        rw [List.cons_append, List.cons_prefix_cons] at h
        exact absurd (h.1 ▸ List.mem_cons_self) (hnew c List.mem_cons_self)
      · rw [replaceAll_miss hbegins, List.cons_prefix_cons] at h
        rw [List.cons_prefix_cons]
        exact ⟨h.1, ih (fun a ha hb => hnew a ha (List.mem_cons_of_mem _ hb)) h.2⟩

omit [DecidableEq α] hpattern hne in
theorem infix_of_infix_new_append (hother : other ≠ []) {rest : List α} (h : other <:+: new ++ rest) :
    other <:+: rest := by
  rcases List.infix_append_iff_ne_nil.mp h with h | h | ⟨s, t, hs, -, rfl, hsuffix, -⟩
  · obtain ⟨b, other, rfl⟩ := List.exists_cons_of_ne_nil hother
    exact absurd List.mem_cons_self (hnew b (h.subset List.mem_cons_self))
  · exact h
  · obtain ⟨b, s, rfl⟩ := List.exists_cons_of_ne_nil hs
    exact absurd (List.mem_append_left _ List.mem_cons_self) (hnew b (hsuffix.subset List.mem_cons_self))

theorem infix_of_infix_replaceAll (hother : other ≠ []) (h : other <:+: replaceAll pattern new text) :
    other <:+: text := by
  refine replaceAll_induction (motive := fun t r => other <:+: r → other <:+: t) hpattern (fun h => h)
    (fun a text _ ih h => ?_) (fun a text hmiss ih h => ?_) text h
  · have hrest := infix_of_infix_new_append hnew hother h
    exact (ih hrest).trans (List.drop_suffix _ _).isInfix
  · rcases List.infix_cons_iff.mp h with h | h
    · rw [← replaceAll_miss hmiss] at h
      exact (begins_of_begins_replaceAll hpattern hne hnew h).isInfix
    · exact List.infix_cons (ih h)

end Fresh

/-- **A new text that shares no element with the pattern leaves no occurrence of it.** -/
theorem not_infix_replaceAll (hpattern : pattern ≠ []) (hne : new ≠ []) (hnew : ∀ a ∈ new, a ∉ pattern)
    (text : List α) : ¬ pattern <:+: replaceAll pattern new text := by
  refine replaceAll_induction (motive := fun _ r => ¬ pattern <:+: r) hpattern
    (fun h => hpattern (List.infix_nil.mp h)) (fun a text _ ih h => ?_) (fun a text hmiss ih h => ?_) text
  · exact ih (infix_of_infix_new_append hnew hpattern h)
  · rcases List.infix_cons_iff.mp h with h | h
    · rw [← replaceAll_miss hmiss] at h
      exact hmiss (begins_of_begins_replaceAll hpattern hne hnew h)
    · exact ih h

end Pattern

/-! ## Escapes -/

section Escapes

variable {e q : α}

theorem replaceAll_append {pattern : List α} (hpattern : pattern ≠ []) (new text : List α) :
    replaceAll pattern new (pattern ++ text) = new ++ replaceAll pattern new text := by
  obtain ⟨a, pattern, rfl⟩ := List.exists_cons_of_ne_nil hpattern
  have hbegins : a :: pattern <+: a :: (pattern ++ text) := List.prefix_append (a :: pattern) text
  rw [List.cons_append, replaceAll_hit hpattern hbegins, ← List.cons_append, List.drop_left]

theorem replaceAll_singleton (a : α) (new text : List α) :
    replaceAll [a] new text = text.flatMap fun b => if b = a then new else [b] := by
  induction text with
  | nil => rfl
  | cons b text ih =>
    rw [List.flatMap_cons, ← ih]
    by_cases hb : b = a
    · rw [if_pos hb, hb]
      exact replaceAll_append (List.cons_ne_nil a []) new text
    · rw [replaceAll_miss (by simpa using fun h => hb h.symm), if_neg hb]
      rfl

/-- The escape character is escaped first, so the quotes that come after it are read back. -/
theorem replaceAll_quoted (hne : q ≠ e) (text : List α) :
    replaceAll [e, q] [q] (text.flatMap fun b => if b = e then [e, e] else if b = q then [e, q] else [b]) =
      text.flatMap fun b => if b = e then [e, e] else [b] := by
  induction text with
  | nil => rfl
  | cons b text ih =>
    rw [List.flatMap_cons, List.flatMap_cons, ← ih]
    by_cases hb : b = e
    · -- What comes behind a doubled escape character does not begin with a quote.
      have hhead : ¬ [q] <+: text.flatMap fun b => if b = e then [e, e] else if b = q then [e, q] else [b] := by
        cases text with
        | nil => simp
        | cons c text =>
          rw [List.flatMap_cons]
          split_ifs with hc hq
          · simp [hne]
          · simp [hne]
          · simpa using fun h => hq h.symm
      rw [if_pos hb, if_pos hb, List.cons_append, List.cons_append, List.nil_append, replaceAll_miss, replaceAll_miss]
      · rfl
      · rwa [List.cons_prefix_cons, and_iff_right rfl]
      · simp [hne]
    · rw [if_neg hb, if_neg hb]
      by_cases hq : b = q
      · rw [if_pos hq, replaceAll_append (List.cons_ne_nil _ _), hq]
      · rw [if_neg hq, List.singleton_append, replaceAll_miss]
        · rfl
        · simpa using fun h => absurd h.symm hb

theorem replaceAll_doubled (text : List α) :
    replaceAll [e, e] [e] (text.flatMap fun b => if b = e then [e, e] else [b]) = text := by
  induction text with
  | nil => rfl
  | cons b text ih =>
    rw [List.flatMap_cons]
    by_cases hb : b = e
    · rw [if_pos hb, replaceAll_append (List.cons_ne_nil _ _), ih, hb]
      rfl
    · rw [if_neg hb, List.singleton_append, replaceAll_miss, ih]
      simpa using fun h => absurd h.symm hb

/-- **Escapes are read back.** -/
theorem replaceAll_escape (hne : q ≠ e) (text : List α) :
    replaceAll [e, e] [e] (replaceAll [e, q] [q] (replaceAll [q] [e, q] (replaceAll [e] [e, e] text))) = text := by
  have hescape : replaceAll [q] [e, q] (replaceAll [e] [e, e] text) =
      text.flatMap fun b => if b = e then [e, e] else if b = q then [e, q] else [b] := by
    rw [replaceAll_singleton, replaceAll_singleton, List.flatMap_assoc]
    congr 1
    funext b
    by_cases hb : b = e
    · simp [hb, hne.symm]
    · simp [hb]
  rw [hescape, replaceAll_quoted hne, replaceAll_doubled]

end Escapes

/-! ## Several patterns -/

/-- The patterns give way to the new text, one after the other. -/
def cleanse (patterns : List (List α)) (new text : List α) : List α :=
  patterns.foldl (fun text pattern => replaceAll pattern new text) text

section Patterns

variable {patterns : List (List α)} {new text : List α}

theorem cleanse_eq_self (h : ∀ pattern ∈ patterns, ¬ pattern <:+: text) : cleanse patterns new text = text := by
  induction patterns with
  | nil => rfl
  | cons pattern patterns ih =>
    rw [cleanse, List.foldl_cons, replaceAll_eq_self (h pattern List.mem_cons_self)]
    exact ih fun other hother => h other (List.mem_cons_of_mem _ hother)

variable (hpatterns : ∀ pattern ∈ patterns, pattern ≠ [] ∧ ∀ a ∈ new, a ∉ pattern) (hne : new ≠ [])

include hpatterns hne

theorem ends_cleanse {P : α → Prop} (hnew : Ends P new) (h : Ends P text) : Ends P (cleanse patterns new text) := by
  induction patterns generalizing text with
  | nil => exact h
  | cons pattern patterns ih =>
    exact ih (fun other hother => hpatterns other (List.mem_cons_of_mem _ hother))
      (ends_replaceAll (hpatterns pattern List.mem_cons_self).1 hnew hne h)

theorem infix_of_infix_cleanse {other : List α} (hother : other ≠ []) (hnew : ∀ a ∈ new, a ∉ other)
    (h : other <:+: cleanse patterns new text) : other <:+: text := by
  induction patterns generalizing text with
  | nil => exact h
  | cons pattern patterns ih =>
    have hrest := ih (fun other hother => hpatterns other (List.mem_cons_of_mem _ hother)) h
    exact infix_of_infix_replaceAll (hpatterns pattern List.mem_cons_self).1 hne hnew hother hrest

/-- **No pattern is left.** -/
theorem not_infix_cleanse {pattern : List α} (hpattern : pattern ∈ patterns) :
    ¬ pattern <:+: cleanse patterns new text := by
  induction patterns generalizing text with
  | nil => cases hpattern
  | cons first patterns ih =>
    have hrest := fun other hother => hpatterns other (List.mem_cons_of_mem first hother)
    rcases List.mem_cons.mp hpattern with rfl | hmem
    · obtain ⟨hnil, hfresh⟩ := hpatterns pattern List.mem_cons_self
      intro h
      exact not_infix_replaceAll hnil hne hfresh text (infix_of_infix_cleanse hrest hne hnil hfresh h)
    · exact ih hrest hmem

theorem cleanse_ne_nil (h : text ≠ []) : cleanse patterns new text ≠ [] := by
  induction patterns generalizing text with
  | nil => exact h
  | cons pattern patterns ih =>
    exact ih (fun other hother => hpatterns other (List.mem_cons_of_mem _ hother))
      (replaceAll_ne_nil (hpatterns pattern List.mem_cons_self).1 hne h)

end Patterns

end Replace
