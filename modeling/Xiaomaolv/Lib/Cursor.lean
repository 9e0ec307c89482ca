import Mathlib.Data.List.Basic
import Mathlib.Order.Basic
import Mathlib.Order.Lattice

/-!
# Reading a log by a cursor

A log is a list whose keys increase. A reader asks for the entries after its cursor and moves the cursor to
the last entry that it has taken.

* `after`: the entries after a cursor; `position`: the cursor after some entries are taken.
* **`after_position`**: from the cursor after a first part of the entries, the rest of them is read.
* `pairwise_after`, `lt_of_mem_after`: what is read is in order, and after the cursor.
-/

namespace Cursor

variable {α ι : Type} [LinearOrder ι] (key : α → ι)

/-- The entries after a cursor. -/
def after (cursor : ι) (log : List α) : List α := log.filter fun a => cursor < key a

/-- The cursor of a reader that has taken some entries. -/
def position (cursor : ι) (taken : List α) : ι := (taken.getLast?).elim cursor key

variable {key} {cursor : ι} {log taken rest : List α}

theorem after_append (log' : List α) :
    after key cursor (log ++ log') = after key cursor log ++ after key cursor log' :=
  List.filter_append ..

theorem lt_of_mem_after {a : α} (h : a ∈ after key cursor log) : cursor < key a := by
  simpa using (List.mem_filter.mp h).2

theorem pairwise_after (h : log.Pairwise fun a b => key a < key b) :
    (after key cursor log).Pairwise fun a b => key a < key b :=
  h.filter _

omit [LinearOrder ι] in
@[simp] theorem position_nil : position key cursor [] = cursor := rfl

omit [LinearOrder ι] in
@[simp] theorem position_concat (a : α) : position key cursor (taken ++ [a]) = key a := by
  simp [position]

theorem after_after {cursor' : ι} (h : cursor ≤ cursor') :
    after key cursor' (after key cursor log) = after key cursor' log := by
  unfold after
  rw [List.filter_filter]
  refine List.filter_congr fun a _ => ?_
  by_cases ha : cursor' < key a
  · simp [ha, h.trans_lt ha]
  · simp [ha]

/-- **The rest is read** from the cursor after the entries taken. -/
theorem after_position (hlog : log.Pairwise fun a b => key a < key b)
    (h : after key cursor log = taken ++ rest) : after key (position key cursor taken) log = rest := by
  rcases List.eq_nil_or_concat taken with rfl | ⟨taken, a, rfl⟩
  · exact h
  · rw [List.concat_eq_append] at h ⊢
    rw [position_concat]
    have hmem : a ∈ after key cursor log := by
      rw [h]
      simp
    rw [← after_after (lt_of_mem_after hmem).le, h]
    have hsorted : (after key cursor log).Pairwise fun a b => key a < key b := pairwise_after hlog
    rw [h, List.append_assoc, List.pairwise_append] at hsorted
    obtain ⟨-, htail, htaken⟩ := hsorted
    have hbefore : ∀ b ∈ taken ++ [a], ¬ key a < key b := by
      intro b hb
      rcases List.mem_append.mp hb with hb | hb
      · exact (htaken b hb a (by simp)).le.not_gt
      · rw [List.mem_singleton.mp hb]
        exact lt_irrefl _
    have hlater : ∀ b ∈ rest, key a < key b := (List.pairwise_cons.mp htail).1
    unfold after
    rw [List.filter_append, List.filter_eq_nil_iff.mpr fun b hb => by simpa using hbefore b hb,
      List.filter_eq_self.mpr fun b hb => by simpa using hlater b hb, List.nil_append]

end Cursor
