import Mathlib.Data.List.Basic
import Mathlib.Logic.Function.Iterate
import Mathlib.Order.Basic

/-!
# A queue that is served in batches from its head

A pass takes the first `n` elements of a queue. The ones that can be served leave it, the others stay in their
place and are taken again by the next pass.

* `serve`: the queue after a pass; `stuck`: how many of its elements can never be served.
* `serve_append`: the elements behind the batch do not take part.
* **`reached_of_stuck_lt`**: fewer than `n` stuck elements let the batch reach their end.
* **`not_reached_of_le_stuck`**: `n` stuck elements hold the batch for ever.
-/

namespace HeadOfLine

variable {α : Type} (good : α → Bool) (n : Nat)

/-- The queue after a pass. -/
def serve (queue : List α) : List α := (queue.take n).filter (fun a => !good a) ++ queue.drop n

/-- How many elements of a queue can never be served. -/
def stuck (queue : List α) : Nat := queue.countP fun a => !good a

variable {good n} {queue rest : List α}

theorem stuck_le_length : stuck good queue ≤ queue.length := List.countP_le_length

theorem stuck_serve : stuck good (serve good n queue) = stuck good queue := by
  have hsplit : stuck good queue = stuck good (queue.take n) + stuck good (queue.drop n) := by
    rw [stuck, stuck, stuck, ← List.countP_append, List.take_append_drop]
  rw [hsplit, serve, stuck, List.countP_append, List.countP_filter]
  simp only [Bool.and_self, stuck]

theorem serve_append (h : n ≤ queue.length) : serve good n (queue ++ rest) = serve good n queue ++ rest := by
  rw [serve, serve, List.take_append_of_le_length h, List.drop_append_of_le_length h, List.append_assoc]

theorem length_serve_lt (hstuck : stuck good queue < n) (h : n ≤ queue.length) :
    (serve good n queue).length < queue.length := by
  have hbatch : stuck good (queue.take n) ≤ stuck good queue := (List.take_sublist n queue).countP_le
  have hlen : (serve good n queue).length = stuck good (queue.take n) + (queue.length - n) := by
    rw [serve, List.length_append, ← List.countP_eq_length_filter, List.length_drop, stuck]
  omega

/-- **Fewer than `n` stuck elements** let the batch reach their end, after at most as many passes as there are
elements that can be served. -/
theorem reached_of_stuck_lt (hstuck : stuck good queue < n) :
    ∃ k, k + stuck good queue ≤ queue.length ∧ ((serve good n)^[k] queue).length < n := by
  induction hlen : queue.length using Nat.strongRecOn generalizing queue with
  | ind length ih =>
    by_cases hshort : queue.length < n
    · exact ⟨0, by rw [← hlen, Nat.zero_add]; exact stuck_le_length, hshort⟩
    · have hless := length_serve_lt hstuck (by omega)
      obtain ⟨k, hk, hreach⟩ := ih _ (hlen ▸ hless) (stuck_serve.trans_lt hstuck) rfl
      rw [stuck_serve] at hk
      exact ⟨k + 1, by omega, hreach⟩

theorem stuck_iterate (k : Nat) : stuck good ((serve good n)^[k] queue) = stuck good queue := by
  induction k generalizing queue with
  | zero => rfl
  | succ k ih => exact ih.trans stuck_serve

/-- **`n` stuck elements** hold the batch for ever. -/
theorem not_reached_of_le_stuck (hstuck : n ≤ stuck good queue) (k : Nat) :
    n ≤ ((serve good n)^[k] queue).length := by
  have h : stuck good ((serve good n)^[k] queue) ≤ ((serve good n)^[k] queue).length := stuck_le_length
  rw [stuck_iterate] at h
  omega

end HeadOfLine
