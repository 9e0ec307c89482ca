import Mathlib.Data.List.Sort

/-!
# Rankings with ties

A list is sorted by a total preorder, and a first part of it is kept.

* `ahead`: how many elements stand strictly before an element.
* `ahead_le_of_sorted`, `lt_ahead_of_sorted`: what a place in a sorted list says about `ahead`.
* `getElem?_ahead`: the first of its ties in the input takes the place that `ahead` gives it.
* **`take_determined_iff`**: what is shown of the first elements depends on the order of the input exactly
  when two ties that can both reach it are shown differently.
* `filter_insertionSort`: a part of a sorted list is the part, sorted.
-/

namespace Ranking

variable {α β : Type} (r : α → α → Prop) [DecidableRel r]

/-- How many elements of a list stand strictly before `a`. -/
def ahead (l : List α) (a : α) : Nat := l.countP fun x => ¬ r a x

variable {r}

omit [DecidableRel r] in
theorem ahead_perm [DecidableRel r] {l l' : List α} (h : l.Perm l') (a : α) : ahead r l a = ahead r l' a :=
  h.countP_eq _

/-! ## Places in a sorted list -/

theorem ahead_le_of_sorted (hrefl : ∀ a, r a a) {l : List α} (h : l.Pairwise r) {i : Nat} {a : α}
    (ha : l[i]? = some a) : ahead r l a ≤ i := by
  obtain ⟨hi, hget⟩ := List.getElem?_eq_some_iff.mp ha
  have hrest : (l.drop i).countP (fun x => ¬ r a x) = 0 := by
    rw [List.countP_eq_zero]
    intro x hx
    have hcons : l.drop i = a :: l.drop (i + 1) := by
      rw [← hget]
      exact List.drop_eq_getElem_cons hi
    have hsorted : (a :: l.drop (i + 1)).Pairwise r := hcons ▸ h.sublist (List.drop_sublist i l)
    rw [hcons] at hx
    rcases List.mem_cons.mp hx with rfl | hx
    · simpa using hrefl x
    · simpa using (List.pairwise_cons.mp hsorted).1 x hx
  have hsplit : ahead r l a = (l.take i).countP (fun x => ¬ r a x) + (l.drop i).countP (fun x => ¬ r a x) := by
    rw [← List.countP_append, List.take_append_drop]
    rfl
  have hfirst : (l.take i).countP (fun x => ¬ r a x) ≤ (l.take i).length := List.countP_le_length
  rw [List.length_take] at hfirst
  omega

theorem lt_ahead_of_sorted (htrans : ∀ a b c, r a b → r b c → r a c) {l : List α} (h : l.Pairwise r)
    {i : Nat} {a b : α} (ha : l[i]? = some a) (hb : ¬ r b a) : i < ahead r l b := by
  obtain ⟨hi, hget⟩ := List.getElem?_eq_some_iff.mp ha
  have hfirst : (l.take (i + 1)).countP (fun x => ¬ r b x) = (l.take (i + 1)).length := by
    rw [List.countP_eq_length]
    intro x hx
    rw [decide_eq_true_eq]
    intro hbx
    rw [List.take_succ_eq_append_getElem hi, List.mem_append, List.mem_singleton, hget] at hx
    rcases hx with hx | rfl
    · obtain ⟨j, hj, rfl⟩ := List.getElem_of_mem hx
      rw [List.length_take] at hj
      rw [List.getElem_take] at hbx
      have hja : r l[j] a := hget ▸ List.pairwise_iff_getElem.mp h j i (by omega) hi (by omega)
      exact hb (htrans _ _ _ hbx hja)
    · exact hb hbx
  have hsub : (l.take (i + 1)).countP (fun x => ¬ r b x) ≤ ahead r l b :=
    (List.take_sublist (i + 1) l).countP_le
  rw [hfirst, List.length_take] at hsub
  omega

theorem tie_of_sorted_perm (hrefl : ∀ a, r a a) (htrans : ∀ a b c, r a b → r b c → r a c) {l l' : List α}
    (hl : l.Pairwise r) (hl' : l'.Pairwise r) (hperm : l.Perm l') {i : Nat} {a b : α} (ha : l[i]? = some a)
    (hb : l'[i]? = some b) : r b a := by
  by_contra hlt
  have hlow : ahead r l' b ≤ i := ahead_le_of_sorted hrefl hl' hb
  have hhigh : i < ahead r l b := lt_ahead_of_sorted htrans hl ha hlt
  rw [ahead_perm hperm b] at hhigh
  omega

/-! ## The stable sort -/

theorem getElem?_orderedInsert (htrans : ∀ a b c, r a b → r b c → r a c) {a : α} :
    ∀ {l : List α}, l.Pairwise r → (l.orderedInsert r a)[ahead r l a]? = some a
  | [], _ => by simp [ahead]
  | b :: l, h => by
    rw [List.pairwise_cons] at h
    rw [List.orderedInsert_cons]
    by_cases hab : r a b
    · have hnone : ahead r (b :: l) a = 0 := by
        unfold ahead
        rw [List.countP_eq_zero]
        intro x hx
        rcases List.mem_cons.mp hx with rfl | hx
        · simpa using hab
        · simpa using htrans _ _ _ hab (h.1 x hx)
      rw [if_pos hab, hnone, List.getElem?_cons_zero]
    · have hmore : ahead r (b :: l) a = ahead r l a + 1 := by
        simp [ahead, hab]
      rw [if_neg hab, hmore, List.getElem?_cons_succ]
      exact getElem?_orderedInsert htrans h.2

/-- **The first of its ties** in the input takes the place right after the elements strictly before it. -/
theorem getElem?_ahead (htotal : ∀ a b, r a b ∨ r b a) (htrans : ∀ a b c, r a b → r b c → r a c) (a : α)
    (l : List α) : ((a :: l).insertionSort r)[ahead r l a]? = some a := by
  have : Std.Total r := ⟨htotal⟩
  have : IsTrans α r := ⟨htrans⟩
  rw [List.insertionSort_cons, ← ahead_perm (List.perm_insertionSort r l) a]
  exact getElem?_orderedInsert htrans (List.pairwise_insertionSort r l)

/-- **What is shown of the first elements is determined** exactly when the ties that can reach them are shown
the same. -/
theorem take_determined_iff (htotal : ∀ a b, r a b ∨ r b a) (htrans : ∀ a b c, r a b → r b c → r a c)
    (l : List α) (n : Nat) (f : α → β) :
    (∀ l₁ l₂ : List α, l₁.Perm l → l₂.Perm l →
      ((l₁.insertionSort r).take n).map f = ((l₂.insertionSort r).take n).map f) ↔
    ∀ a ∈ l, ∀ b ∈ l, r a b → r b a → ahead r l a < n → f a = f b := by
  have : Std.Total r := ⟨htotal⟩
  have : IsTrans α r := ⟨htrans⟩
  have hrefl : ∀ a, r a a := fun a => (htotal a a).elim id id
  constructor
  · intro h a ha b hb hab hba hn
    by_cases heq : a = b
    · rw [heq]
    · obtain ⟨s, hs⟩ : ∃ s, l.Perm (a :: b :: s) := by
        classical
        have hb' : b ∈ l.erase a := (List.mem_erase_of_ne (Ne.symm heq)).mpr hb
        exact ⟨(l.erase a).erase b,
          (List.perm_cons_erase ha).trans ((List.perm_cons_erase hb').cons a)⟩
      have hahead : ahead r (b :: s) a = ahead r l a := by
        rw [ahead_perm hs a]
        simp [ahead, hrefl a]
      have hahead' : ahead r (a :: s) b = ahead r l a := by
        rw [ahead_perm (hs.trans (List.Perm.swap b a s)) a]
        have hsame : ∀ x, r b x ↔ r a x := fun x => ⟨htrans _ _ _ hab, htrans _ _ _ hba⟩
        simp [ahead, hrefl a, hab, hsame]
      have hcut := congrArg (fun m => m[ahead r l a]?)
        (h (a :: b :: s) (b :: a :: s) hs.symm ((List.Perm.swap a b s).trans hs.symm))
      have h1 := getElem?_ahead htotal htrans a (b :: s)
      have h2 := getElem?_ahead htotal htrans b (a :: s)
      rw [hahead] at h1
      rw [hahead'] at h2
      simpa only [List.getElem?_map, List.getElem?_take_of_lt hn, h1, h2, Option.map_some,
        Option.some.injEq] using hcut
  · intro h l₁ l₂ h1 h2
    have hp1 := (List.perm_insertionSort r l₁).trans h1
    have hp2 := (List.perm_insertionSort r l₂).trans h2
    have hs1 := List.pairwise_insertionSort r l₁
    have hs2 := List.pairwise_insertionSort r l₂
    have hlen := hp1.length_eq.trans hp2.length_eq.symm
    refine List.ext_getElem (by simp [hlen]) fun i hi1 hi2 => ?_
    simp only [List.length_map, List.length_take] at hi1 hi2
    simp only [List.getElem_map, List.getElem_take]
    have hg1 := List.getElem?_eq_getElem (l := l₁.insertionSort r) (i := i) (by omega)
    have hg2 := List.getElem?_eq_getElem (l := l₂.insertionSort r) (i := i) (by omega)
    refine h _ (hp1.mem_iff.mp (List.getElem_mem _)) _ (hp2.mem_iff.mp (List.getElem_mem _)) ?_ ?_ ?_
    · exact tie_of_sorted_perm hrefl htrans hs2 hs1 (hp2.trans hp1.symm) hg2 hg1
    · exact tie_of_sorted_perm hrefl htrans hs1 hs2 (hp1.trans hp2.symm) hg1 hg2
    · rw [← ahead_perm hp1]
      exact (ahead_le_of_sorted hrefl hs1 hg1).trans_lt (by omega)

/-! ## A part of a ranking -/

theorem filter_orderedInsert_of_neg {p : α → Bool} {a : α} (ha : p a = false) :
    ∀ l : List α, (l.orderedInsert r a).filter p = l.filter p
  | [] => by simp [ha]
  | b :: l => by
    rw [List.orderedInsert_cons]
    by_cases hab : r a b
    · rw [if_pos hab, List.filter_cons_of_neg (by simp [ha])]
    · rw [if_neg hab, List.filter_cons, List.filter_cons, filter_orderedInsert_of_neg ha l]

theorem filter_orderedInsert_of_pos (htrans : ∀ a b c, r a b → r b c → r a c) {p : α → Bool} {a : α}
    (ha : p a = true) : ∀ {l : List α}, l.Pairwise r →
      (l.orderedInsert r a).filter p = (l.filter p).orderedInsert r a
  | [], _ => by simp [ha]
  | b :: l, h => by
    rw [List.pairwise_cons] at h
    rw [List.orderedInsert_cons]
    by_cases hab : r a b
    · rw [if_pos hab, List.filter_cons_of_pos ha]
      rcases hrest : (b :: l).filter p with _ | ⟨c, rest⟩
      · rfl
      · have hc : c ∈ b :: l := List.mem_of_mem_filter (hrest ▸ List.mem_cons_self)
        have hac : r a c := by
          rcases List.mem_cons.mp hc with rfl | hc
          · exact hab
          · exact htrans _ _ _ hab (h.1 c hc)
        rw [List.orderedInsert_cons, if_pos hac]
    · rw [if_neg hab, List.filter_cons, List.filter_cons, filter_orderedInsert_of_pos htrans ha h.2]
      by_cases hb : p b
      · rw [if_pos hb, if_pos hb, List.orderedInsert_cons, if_neg hab]
      · rw [if_neg hb, if_neg hb]

theorem filter_insertionSort (htotal : ∀ a b, r a b ∨ r b a) (htrans : ∀ a b c, r a b → r b c → r a c)
    (p : α → Bool) : ∀ l : List α, (l.insertionSort r).filter p = (l.filter p).insertionSort r
  | [] => rfl
  | a :: l => by
    have : Std.Total r := ⟨htotal⟩
    have : IsTrans α r := ⟨htrans⟩
    rw [List.insertionSort_cons]
    by_cases ha : p a
    · rw [filter_orderedInsert_of_pos htrans ha (List.pairwise_insertionSort r l),
        filter_insertionSort htotal htrans p l, List.filter_cons_of_pos ha, List.insertionSort_cons]
    · rw [filter_orderedInsert_of_neg (by simpa using ha), filter_insertionSort htotal htrans p l,
        List.filter_cons_of_neg ha]

end Ranking
