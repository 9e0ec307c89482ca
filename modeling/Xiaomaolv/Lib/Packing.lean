import Mathlib.Algebra.BigOperators.Group.List.Basic
import Mathlib.Data.List.Basic
import Mathlib.Algebra.GroupWithZero.Nat

/-!
# Packing within a budget

The elements of a list are taken in their order, until one does not fit in what is left of a budget.

* `total`: the size of a list; `packed`: what is taken.
* **`packed_eq_of_split`**: what is taken is the first part that fits while the next element does not.
* `eq_of_total_eq`: first parts of equal size are equal, if every element has a size.
* `Thrifty`: nothing that would fit is lost behind what does not; `thrifty_iff`: the same of what is taken.
-/

namespace Packing

variable {α : Type} (size : α → Nat)

/-- The size of a list. -/
def total (l : List α) : Nat := (l.map size).sum

/-- What is taken of a list within the budget, up to the first element that does not fit. -/
def packed : Nat → List α → List α
  | _, [] => []
  | budget, a :: l => if budget < size a then [] else a :: packed (budget - size a) l

variable {size} {budget : Nat} {l : List α}

@[simp] theorem total_nil : total size [] = 0 := rfl

@[simp] theorem total_cons (a : α) (l : List α) : total size (a :: l) = size a + total size l := by
  rw [total, List.map_cons, List.sum_cons]
  rfl

theorem total_packed_le (budget : Nat) (l : List α) : total size (packed size budget l) ≤ budget := by
  induction l generalizing budget with
  | nil => exact Nat.zero_le _
  | cons a l ih =>
    rw [packed]
    split_ifs with h
    · exact Nat.zero_le _
    · have hrest := ih (budget - size a)
      rw [total_cons]
      omega

theorem packed_append (budget : Nat) (l : List α) : ∃ rest, l = packed size budget l ++ rest ∧
    ∀ next ∈ rest.head?, budget < total size (packed size budget l) + size next := by
  induction l generalizing budget with
  | nil => exact ⟨[], rfl, by simp⟩
  | cons a l ih =>
    rw [packed]
    split_ifs with h
    · refine ⟨a :: l, rfl, fun next hnext => ?_⟩
      obtain rfl : a = next := Option.some.inj hnext
      simpa using h
    · obtain ⟨rest, hrest, hnext⟩ := ih (budget - size a)
      refine ⟨rest, by rw [List.cons_append, ← hrest], fun next hhead => ?_⟩
      have hbound := hnext next hhead
      rw [total_cons]
      omega

/-- **What is taken**: the first part that fits while the next element does not. -/
theorem packed_eq_of_split {kept later : List α} {next : α} (hfits : total size kept ≤ budget)
    (hnext : budget < total size kept + size next) : packed size budget (kept ++ next :: later) = kept := by
  induction kept generalizing budget with
  | nil =>
    rw [List.nil_append, packed, if_pos]
    simpa using hnext
  | cons a kept ih =>
    rw [total_cons] at hfits hnext
    rw [List.cons_append, packed, if_neg (by omega), ih (by omega) (by omega)]

theorem eq_of_total_eq (hsize : ∀ a ∈ l, 0 < size a) {s t s' t' : List α} (hs : l = s ++ t) (hs' : l = s' ++ t')
    (h : total size s = total size s') : s = s' := by
  induction l generalizing s s' with
  | nil =>
    rw [(List.append_eq_nil_iff.mp hs.symm).1, (List.append_eq_nil_iff.mp hs'.symm).1]
  | cons a l ih =>
    obtain ⟨ha, hl⟩ := List.forall_mem_cons.mp hsize
    cases s with
    | nil =>
      cases s' with
      | nil => rfl
      | cons b s' =>
        obtain ⟨rfl, -⟩ := List.cons.inj hs'
        rw [total_nil, total_cons] at h
        omega
    | cons b s =>
      obtain ⟨rfl, hrest⟩ := List.cons.inj hs
      cases s' with
      | nil =>
        rw [total_nil, total_cons] at h
        omega
      | cons b s' =>
        obtain ⟨rfl, hrest'⟩ := List.cons.inj hs'
        rw [total_cons, total_cons] at h
        rw [ih hl hrest hrest' (by omega)]

/-- Nothing that would fit is behind an element that does not, and something is taken before it. -/
def Thrifty (size : α → Nat) (budget : Nat) (l : List α) : Prop :=
  ∀ kept next later, l = kept ++ next :: later → total size kept ≤ budget →
    budget < total size kept + size next →
    kept ≠ [] ∧ ∀ a ∈ later, budget < total size kept + size a

/-- The same of what is taken. -/
theorem thrifty_iff : Thrifty size budget l ↔
    (packed size budget l = [] → l = []) ∧ ∀ rest, l = packed size budget l ++ rest →
      ∀ a ∈ rest, budget < total size (packed size budget l) + size a := by
  constructor
  · intro h
    obtain ⟨rest, hrest, hhead⟩ := @packed_append α size budget l
    cases rest with
    | nil =>
      rw [List.append_nil] at hrest
      refine ⟨fun hnil => hrest.trans hnil, fun rest' hrest' a ha => ?_⟩
      rw [← hrest] at hrest'
      rw [List.self_eq_append_right.mp hrest'] at ha
      cases ha
    | cons next later =>
      have hnext := hhead next rfl
      obtain ⟨hne, hlater⟩ := h _ next later hrest (total_packed_le budget l) hnext
      refine ⟨fun hnil => absurd hnil hne, fun rest' hrest' a ha => ?_⟩
      obtain rfl := List.append_cancel_left (hrest.symm.trans hrest')
      rcases List.mem_cons.mp ha with rfl | ha
      · exact hnext
      · exact hlater a ha
  · rintro ⟨hne, hrest⟩ kept next later hsplit hfits hnext
    have hkept : packed size budget l = kept := by
      rw [hsplit]
      exact packed_eq_of_split hfits hnext
    rw [hkept] at hne hrest
    refine ⟨fun hnil => ?_, fun a ha => hrest _ hsplit a (List.mem_cons_of_mem _ ha)⟩
    rw [hne hnil] at hsplit
    exact absurd hsplit.symm (by simp)

end Packing
