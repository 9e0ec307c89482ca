import Mathlib.Algebra.Group.Action.Defs
import Mathlib.Algebra.Order.BigOperators.Group.List
import Mathlib.Algebra.Order.Ring.Nat
import Mathlib.Tactic.SplitIfs

/-!
# Counts of events by key

* `sum_le_mul`: the events of rows each of which has at most `n`.
* `bump keys count`: one more event for each of the keys; `bump_of_mem`, `bump_of_not_mem`, `le_bump`.
* `sum_le_sum_bump`, **`sum_lt_sum_bump`**: the events of several rows, when a key has one more.
-/

namespace Tally

variable {κ α : Type}

theorem sum_le_mul {key : α → κ} {count : κ → Nat} {rows : List α} {n : Nat}
    (h : ∀ r ∈ rows, count (key r) ≤ n) : (rows.map fun r => count (key r)).sum ≤ n * rows.length := by
  have hsum := List.sum_le_card_nsmul (rows.map fun r => count (key r)) n (by simpa using h)
  rwa [List.length_map, smul_eq_mul, Nat.mul_comm] at hsum

variable [DecidableEq κ]

/-- One more event for each of the keys. -/
def bump (keys : List κ) (count : κ → Nat) (k : κ) : Nat := if k ∈ keys then count k + 1 else count k

section

variable {keys : List κ} {count : κ → Nat} {k : κ}

theorem bump_of_mem (h : k ∈ keys) : bump keys count k = count k + 1 := if_pos h

theorem bump_of_not_mem (h : k ∉ keys) : bump keys count k = count k := if_neg h

@[simp] theorem bump_nil : bump [] count = count := by
  funext k
  exact bump_of_not_mem List.not_mem_nil

@[simp] theorem bump_self : bump [k] count k = count k + 1 := bump_of_mem List.mem_cons_self

theorem bump_singleton_of_ne {k' : κ} (h : k ≠ k') : bump [k'] count k = count k :=
  bump_of_not_mem (by simpa using h)

theorem bump_le_bump {keys' : List κ} {count' : κ → Nat} (hkeys : keys ⊆ keys') (h : count k ≤ count' k) :
    bump keys count k ≤ bump keys' count' k := by
  unfold bump
  split_ifs with hk hk'
  · omega
  · exact absurd (hkeys hk) hk'
  · omega
  · exact h

theorem bump_lt_bump {keys' : List κ} {count' : κ → Nat} (hkeys : keys ⊆ keys') (h : count k < count' k) :
    bump keys count k < bump keys' count' k := by
  unfold bump
  split_ifs with hk hk'
  · omega
  · exact absurd (hkeys hk) hk'
  · omega
  · exact h

variable (keys count k)

theorem le_bump : count k ≤ bump keys count k := by
  unfold bump
  split_ifs <;> omega

end

section

variable (key : α → κ) (count : κ → Nat) {rows : List α}

theorem sum_le_sum_bump (keys : List κ) :
    (rows.map fun r => count (key r)).sum ≤ (rows.map fun r => bump keys count (key r)).sum :=
  List.sum_le_sum fun r _ => le_bump keys count (key r)

/-- **One more event** for the key of one of the rows. -/
theorem sum_lt_sum_bump {r : α} (h : r ∈ rows) :
    (rows.map fun r => count (key r)).sum < (rows.map fun r' => bump [key r] count (key r')).sum := by
  refine List.sum_lt_sum _ _ (fun r' _ => le_bump _ count (key r')) ⟨r, h, ?_⟩
  rw [bump_self]
  exact Nat.lt_succ_self _

end

end Tally
