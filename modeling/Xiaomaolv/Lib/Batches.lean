import Mathlib.Data.List.Range
import Mathlib.Data.List.Nodup

/-!
# Tasks that run in batches

Numbered tasks are started in batches of a width, the next batch when the one before has been joined. The tasks of a
batch are joined in any order, and each result is put where its task stands.

* `Batches.spawn`, `Batches.join`: the next batch, and the end of a task.
* `Batches.Valid`: what holds at every moment, with the list of the joins so far.
* **`Batches.Valid.results`**: in the end there is one result for each task, that of its own join.
-/

/-- The results by the task, the tasks that run, and the first task that has not been started. -/
structure Batches (ρ : Type) where
  collected : List (Option ρ)
  running : List Nat := []
  next : Nat := 0

namespace Batches

variable {ρ : Type}

/-- So many tasks, none of them started. -/
def ofLength (n : Nat) : Batches ρ := { collected := List.replicate n none }

def spawn (width : Nat) (b : Batches ρ) : Batches ρ :=
  { b with
    running := List.range' b.next (min width (b.collected.length - b.next))
    next := min (b.next + width) b.collected.length }

def join (i : Nat) (r : ρ) (b : Batches ρ) : Batches ρ :=
  { b with running := b.running.erase i, collected := b.collected.set i (some r) }

/-- What holds at every moment, `joins` being the tasks that have been joined and their results. -/
structure Valid (width : Nat) (b : Batches ρ) (joins : List (Nat × ρ)) : Prop where
  next_le : b.next ≤ b.collected.length
  nodup : b.running.Nodup
  below : ∀ i ∈ b.running, i < b.next
  narrow : b.running.length ≤ width
  done : ∀ i < b.next, i ∉ b.running → ∃ r, (i, r) ∈ joins
  open_ : ∀ i r, (i, r) ∈ joins → i < b.next ∧ i ∉ b.running
  recorded : ∀ i r, b.collected[i]? = some (some r) ↔ (i, r) ∈ joins

variable {width i : Nat} {r : ρ} {b : Batches ρ} {joins : List (Nat × ρ)}

theorem valid_ofLength (n : Nat) : Valid width (ofLength n : Batches ρ) [] where
  next_le := Nat.zero_le _
  nodup := List.nodup_nil
  below _ h := absurd h List.not_mem_nil
  narrow := Nat.zero_le _
  done _ h := absurd h (Nat.not_lt_zero _)
  open_ _ _ h := absurd h List.not_mem_nil
  recorded i r := by
    rw [ofLength, List.getElem?_replicate]
    split_ifs <;> simp

theorem Valid.spawn (h : Valid width b joins) (hidle : b.running = []) : Valid width (b.spawn width) joins where
  next_le := Nat.min_le_right _ _
  nodup := List.nodup_range'
  below i hi := by
    have hle := h.next_le
    simp only [Batches.spawn, List.mem_range'_1] at hi ⊢
    omega
  narrow := by
    rw [Batches.spawn, List.length_range']
    exact Nat.min_le_left _ _
  done i hi hnot := by
    have hle := h.next_le
    simp only [Batches.spawn, List.mem_range'_1] at hi hnot
    exact h.done i (by omega) (by rw [hidle]; exact List.not_mem_nil)
  open_ i r hjoin := by
    have hi := (h.open_ i r hjoin).1
    have hle := h.next_le
    simp only [Batches.spawn, List.mem_range'_1]
    omega
  recorded := h.recorded

theorem Valid.join (h : Valid width b joins) (hi : i ∈ b.running) : Valid width (b.join i r) (joins ++ [(i, r)]) where
  next_le := by
    rw [Batches.join, List.length_set]
    exact h.next_le
  nodup := h.nodup.erase i
  below j hj := h.below j (List.mem_of_mem_erase hj)
  narrow := (List.length_erase_le).trans h.narrow
  done j hj hnot := by
    by_cases hij : j = i
    · exact ⟨r, by simp [hij]⟩
    · have hnot' : j ∉ b.running := fun hmem => hnot ((List.mem_erase_of_ne hij).mpr hmem)
      obtain ⟨s, hs⟩ := h.done j hj hnot'
      exact ⟨s, List.mem_append_left _ hs⟩
  open_ j s hjoin := by
    rw [List.mem_append, List.mem_singleton] at hjoin
    rcases hjoin with hjoin | hjoin
    · have hj := h.open_ j s hjoin
      exact ⟨hj.1, fun hmem => hj.2 (List.mem_of_mem_erase hmem)⟩
    · obtain ⟨rfl, rfl⟩ := Prod.mk.inj hjoin
      exact ⟨h.below j hi, h.nodup.not_mem_erase⟩
  recorded j s := by
    have hlt : i < b.collected.length := (h.below i hi).trans_le h.next_le
    rw [List.mem_append, List.mem_singleton, Prod.mk.injEq, Batches.join, List.getElem?_set]
    split_ifs with hij
    · subst hij
      have hnot : (i, s) ∉ joins := fun hjoin => (h.open_ i s hjoin).2 hi
      simp [hnot, eq_comm]
    · rw [h.recorded, or_iff_left]
      rintro ⟨rfl, -⟩
      exact hij rfl

/-- **In the end there is one result for each task**, that of its own join. -/
theorem Valid.results (h : Valid width b joins) (hidle : b.running = []) (hend : b.next = b.collected.length) :
    ∃ results : List ρ, b.collected = results.map some ∧ ∀ i r, results[i]? = some r ↔ (i, r) ∈ joins := by
  have hsome : ∀ o ∈ b.collected, o.isSome := by
    intro o ho
    obtain ⟨i, hi, rfl⟩ := List.mem_iff_getElem.mp ho
    obtain ⟨r, hr⟩ := h.done i (by omega) (by rw [hidle]; exact List.not_mem_nil)
    have hget := (h.recorded i r).mpr hr
    rw [List.getElem?_eq_getElem hi, Option.some.injEq] at hget
    rw [hget]
    rfl
  have hmap : ∀ l : List (Option ρ), (∀ o ∈ l, o.isSome) → ∃ results : List ρ, l = results.map some := by
    intro l hl
    induction l with
    | nil => exact ⟨[], rfl⟩
    | cons o l ih =>
      obtain ⟨r, rfl⟩ := Option.isSome_iff_exists.mp (hl o List.mem_cons_self)
      obtain ⟨results, rfl⟩ := ih fun o ho => hl o (List.mem_cons_of_mem _ ho)
      exact ⟨r :: results, rfl⟩
  obtain ⟨results, hresults⟩ := hmap _ hsome
  refine ⟨results, hresults, fun i r => ?_⟩
  rw [← h.recorded, hresults, List.getElem?_map]
  cases results[i]? <;> simp

end Batches
