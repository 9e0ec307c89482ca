import Xiaomaolv.Lib.Replace
import Xiaomaolv.Loop.Data

/-!
# Trimmed texts, the first place of a pattern, and the first line

* `Trimmed`: a text with no blank at its ends; `trim_of_trimmed`, `trimmed_trim`.
* `count_trim`: trimming drops blanks only.
* **`splitOnce_append`**: a pattern whose first character does not come again is found at its first place.
* `takeLines_line`: a line that has ended is taken first.
-/

namespace Xiaomaolv

open Replace

/-! ## Trimmed texts -/

/-- The text neither begins nor ends with whitespace. -/
abbrev Trimmed (text : String) : Prop := Ends (fun c => isWhitespace c = false) text.toList

theorem dropWhile_eq_self {α : Type} {p : α → Bool} {l : List α} :
    l.dropWhile p = l ↔ ∀ a ∈ l.head?, p a = false := by
  refine ⟨fun h a ha => ?_, fun h => ?_⟩
  · have hfirst := List.head?_dropWhile_not p l
    rw [h, Option.mem_def.mp ha] at hfirst
    exact hfirst
  · cases l with
    | nil => rfl
    | cons a l => rw [List.dropWhile_cons_of_neg (by simp [h a rfl])]

theorem trim_of_trimmed {text : String} (h : Trimmed text) : trim text = text := by
  have hend : ∀ c ∈ text.toList.reverse.head?, isWhitespace c = false := by
    rw [List.head?_reverse]
    exact h.2
  rw [trim, dropWhile_eq_self.mpr h.1, dropWhile_eq_self.mpr hend, List.reverse_reverse, String.ofList_toList]

theorem trimmed_trim (text : String) : Trimmed (trim text) := by
  unfold Trimmed trim
  rw [String.toList_ofList]
  refine ⟨dropWhile_eq_self.mp (dropWhile_reverse_dropWhile _ (List.dropWhile_idempotent _ _)), ?_⟩
  rw [List.getLast?_reverse]
  exact dropWhile_eq_self.mp (List.dropWhile_idempotent _ _)

theorem trim_append_of_trimmed {text blank : List Char} (hne : text ≠ []) (h : Trimmed (String.ofList text))
    (hblank : ∀ c ∈ blank, isWhitespace c = true) :
    trim (String.ofList (text ++ blank)) = String.ofList text := by
  rw [Trimmed, String.toList_ofList] at h
  have hfirst : (text ++ blank).dropWhile isWhitespace = text ++ blank := by
    rw [dropWhile_eq_self, List.head?_append_of_ne_nil _ hne]
    exact h.1
  have hlast : text.reverse.dropWhile isWhitespace = text.reverse := by
    rw [dropWhile_eq_self, List.head?_reverse]
    exact h.2
  rw [trim, String.toList_ofList, hfirst, List.reverse_append,
    List.dropWhile_append_of_pos fun c hc => hblank c (List.mem_reverse.mp hc), hlast, List.reverse_reverse]

theorem trim_eq_empty {s : String} (h : isBlank s = true) : trim s = "" := by
  have hdrop : s.toList.dropWhile isWhitespace = [] := by
    rw [List.dropWhile_eq_nil_iff]
    exact fun c hc => List.all_eq_true.mp h c hc
  rw [trim, hdrop]
  rfl

theorem count_dropWhile {α : Type} [DecidableEq α] {p : α → Bool} {a : α} (ha : p a = false) (l : List α) :
    (l.dropWhile p).count a = l.count a := by
  induction l with
  | nil => rfl
  | cons b l ih =>
    rw [List.dropWhile_cons]
    split_ifs with hb
    · rw [ih, List.count_cons_of_ne]
      rintro rfl
      rw [ha] at hb
      cases hb
    · rfl

theorem count_trim {c : Char} (hc : isWhitespace c = false) (s : String) :
    (trim s).toList.count c = s.toList.count c := by
  rw [trim, String.toList_ofList, List.count_reverse, count_dropWhile hc, List.count_reverse, count_dropWhile hc]

theorem infix_dropWhile_iff {α : Type} {p : α → Bool} {pattern : List α} (hne : pattern ≠ [])
    (hhead : ∀ a ∈ pattern.head?, p a = false) (l : List α) : pattern <:+: l.dropWhile p ↔ pattern <:+: l := by
  induction l with
  | nil => rfl
  | cons b l ih =>
    rw [List.dropWhile_cons]
    split_ifs with hb
    · have hfirst : ¬ pattern <+: b :: l := by
        rintro ⟨rest, hrest⟩
        obtain ⟨a, pattern, rfl⟩ := List.exists_cons_of_ne_nil hne
        obtain rfl : a = b := (List.cons.inj hrest).1
        rw [hhead a rfl] at hb
        cases hb
      rw [ih, List.infix_cons_iff, or_iff_right hfirst]
    · rfl

theorem infix_trim_iff {pattern : List Char} (hne : pattern ≠ []) (h : Ends (fun c => isWhitespace c = false) pattern)
    (s : String) : pattern <:+: (trim s).toList ↔ pattern <:+: s.toList := by
  have hback : ∀ a ∈ pattern.reverse.head?, isWhitespace a = false := by
    rw [List.head?_reverse]
    exact h.2
  rw [trim, String.toList_ofList, ← List.reverse_infix, List.reverse_reverse,
    infix_dropWhile_iff (by simpa using hne) hback, List.reverse_infix, infix_dropWhile_iff hne h.1]

theorem charCount_append (s t : String) : charCount (s ++ t) = charCount s + charCount t := by
  rw [charCount, String.toList_append, List.length_append, charCount, charCount]

/-! ## The first place of a pattern -/

section SplitOnce

variable {c : Char} {pattern before after text : List Char}

theorem splitOnce_eq_none (hne : pattern ≠ []) (h : ¬ pattern <:+: text) : splitOnce pattern text = none := by
  induction text with
  | nil => exact if_neg (by simpa using hne)
  | cons b text ih =>
    have hfirst : pattern.isPrefixOf (b :: text) = false := by
      rw [Bool.eq_false_iff, ne_eq, List.isPrefixOf_iff_prefix]
      exact fun hpre => h hpre.isInfix
    rw [splitOnce, hfirst, if_neg Bool.false_ne_true, ih fun hin => h (hin.trans (List.suffix_cons b text).isInfix)]
    rfl

/-- **A pattern whose first character does not come again** is found at its first place. -/
theorem splitOnce_append (hc : c ∉ pattern) (h : ¬ (c :: pattern) <:+: before) :
    splitOnce (c :: pattern) (before ++ (c :: pattern) ++ after) = some (before, after) := by
  induction before with
  | nil =>
    have hfirst : (c :: pattern).isPrefixOf (c :: (pattern ++ after)) = true :=
      List.isPrefixOf_iff_prefix.mpr (List.prefix_append (c :: pattern) after)
    rw [List.nil_append, List.cons_append, splitOnce, if_pos hfirst, ← List.cons_append, List.drop_left]
  | cons b before ih =>
    have hfirst : (c :: pattern).isPrefixOf (b :: before ++ (c :: pattern) ++ after) = false := by
      rw [Bool.eq_false_iff, ne_eq, List.isPrefixOf_iff_prefix, List.append_assoc]
      intro hpre
      rcases List.prefix_or_prefix_of_prefix hpre (List.prefix_append _ _) with hin | ⟨rest, hrest⟩
      · exact h hin.isInfix
      · -- The pattern would begin before its first place and reach into it.
        have hrest' : b :: before ++ rest <+: b :: before ++ (c :: pattern ++ after) := by rwa [hrest]
        rw [List.prefix_append_right_inj] at hrest'
        cases rest with
        | nil => exact h (by rw [← hrest, List.append_nil])
        | cons d rest =>
          obtain rfl : d = c := (List.cons_prefix_cons.mp hrest').1
          have hpattern := (List.cons.inj hrest).2
          exact hc (by rw [← hpattern]; exact List.mem_append_right _ List.mem_cons_self)
    show splitOnce _ (b :: (before ++ (c :: pattern) ++ after)) = _
    rw [splitOnce, show (c :: pattern).isPrefixOf (b :: (before ++ (c :: pattern) ++ after)) = false from hfirst,
      if_neg Bool.false_ne_true, ih fun hin => h (hin.trans (List.suffix_cons b before).isInfix)]
    rfl

end SplitOnce

/-! ## The first line -/

theorem takeLines_line {line : List Char} (h : ∀ c ∈ line, c ≠ '\n') (rest : List Char) :
    takeLines (line ++ '\n' :: rest) = (line :: (takeLines rest).1, (takeLines rest).2) := by
  induction line with
  | nil => rfl
  | cons c line ih =>
    obtain ⟨hc, hline⟩ := List.forall_mem_cons.mp h
    rw [List.cons_append, takeLines, ih hline]
    dsimp only
    rw [if_neg hc]

end Xiaomaolv
