import Mathlib.Data.List.Nodup

/-!
# Linked stacks

Rows are found by a key, and a row names the row below it.

* `Path lookup prev top rows`: from `top` the links lead through `rows` to the bottom.
* `Path.congr`: only the rows on the way matter.
* **`Path.push`**, **`Path.pop`**: a new row on the top, and the top row taken off.
-/

namespace Linked

variable {κ ρ : Type} (lookup : κ → Option ρ) (prev : ρ → Option κ)

/-- From the key `top` the links lead through `rows`, and the last of them has no link. -/
def Path : Option κ → List ρ → Prop
  | none, rows => rows = []
  | some _, [] => False
  | some k, r :: rows => lookup k = some r ∧ Path (prev r) rows

variable {lookup prev} {lookup' : κ → Option ρ} {top : Option κ} {k : κ} {r : ρ} {rows : List ρ}

@[simp] theorem path_none : Path lookup prev none rows ↔ rows = [] := by
  cases rows <;> simp [Path]

theorem path_some : Path lookup prev (some k) rows
    ↔ ∃ r below, rows = r :: below ∧ lookup k = some r ∧ Path lookup prev (prev r) below := by
  cases rows with
  | nil => simp [Path]
  | cons r rows => simp [Path]

theorem Path.congr (h : Path lookup prev top rows)
    (hl : ∀ k, ∀ r ∈ rows, lookup k = some r → lookup' k = some r) : Path lookup' prev top rows := by
  induction rows generalizing top with
  | nil =>
    cases top with
    | none => rfl
    | some k => exact h.elim
  | cons r rows ih =>
    cases top with
    | none => exact absurd (path_none.mp h) (List.cons_ne_nil r rows)
    | some k =>
      refine ⟨hl k r List.mem_cons_self h.1, ih h.2 fun k' r' hr' => ?_⟩
      exact hl k' r' (List.mem_cons_of_mem r hr')

theorem Path.found (h : Path lookup prev top rows) : ∀ r ∈ rows, ∃ k, lookup k = some r := by
  induction rows generalizing top with
  | nil => simp
  | cons r rows ih =>
    cases top with
    | none => exact absurd (path_none.mp h) (List.cons_ne_nil r rows)
    | some k =>
      intro x hx
      rcases List.mem_cons.mp hx with rfl | hx
      · exact ⟨k, h.1⟩
      · exact ih h.2 x hx

/-- **A new row on the top.** -/
theorem Path.push (h : Path lookup prev top rows) (hr : lookup' k = some r) (hp : prev r = top)
    (hl : ∀ k, ∀ r ∈ rows, lookup k = some r → lookup' k = some r) :
    Path lookup' prev (some k) (r :: rows) :=
  ⟨hr, hp ▸ h.congr hl⟩

/-- **The top row taken off.** -/
theorem Path.pop (h : Path lookup prev (some k) (r :: rows))
    (hl : ∀ k, ∀ r ∈ rows, lookup k = some r → lookup' k = some r) :
    Path lookup' prev (prev r) rows :=
  h.2.congr hl

end Linked
