import Mathlib.Data.List.Basic
import Mathlib.Logic.Relation

/-!
# Recursive queries over a table of edges

* `reach edges x`: the nodes that `x` reaches by one edge or more, computed in rounds.
* **`mem_reach`**: the rounds compute the transitive closure.
-/

namespace Closure

variable {α : Type} [DecidableEq α]

/-- `a → b` is a stored edge. -/
def Edge (edges : List (α × α)) (a b : α) : Prop := (a, b) ∈ edges

/-- The ends of the edges that start in `ids`. -/
def nexts (edges : List (α × α)) (ids : List α) : List α :=
  (edges.filter fun e => ids.contains e.1).map Prod.snd

/-- One round of the query: `ids` with the ends that are new. -/
def grow (edges : List (α × α)) (ids : List α) : List α :=
  ids ++ (nexts edges ids).filter fun id => !ids.contains id

/-- `n` rounds of the query. -/
def rounds (edges : List (α × α)) : Nat → List α → List α
  | 0, ids => ids
  | n + 1, ids => rounds edges n (grow edges ids)

/-- The nodes that `x` reaches by one edge or more. A round that adds a node uses up an edge, so one
round an edge is enough. -/
def reach (edges : List (α × α)) (x : α) : List α :=
  rounds edges edges.length (nexts edges [x])

variable {edges : List (α × α)}

theorem mem_nexts {ids : List α} {b : α} : b ∈ nexts edges ids ↔ ∃ a ∈ ids, Edge edges a b := by
  simp [nexts, Edge, and_comm]

theorem mem_grow {ids : List α} {b : α} :
    b ∈ grow edges ids ↔ b ∈ ids ∨ ∃ a ∈ ids, Edge edges a b := by
  simp only [grow, List.mem_append, List.mem_filter, mem_nexts]
  by_cases h : b ∈ ids <;> simp [h]

theorem subset_rounds (n : Nat) {ids : List α} {a : α} (ha : a ∈ ids) : a ∈ rounds edges n ids := by
  induction n generalizing ids with
  | zero => exact ha
  | succ n ih => exact ih (mem_grow.mpr (.inl ha))

/-! ## Soundness -/

theorem rounds_sound {x : α} (n : Nat) {ids : List α}
    (h : ∀ a ∈ ids, Relation.TransGen (Edge edges) x a) :
    ∀ a ∈ rounds edges n ids, Relation.TransGen (Edge edges) x a := by
  induction n generalizing ids with
  | zero => exact h
  | succ n ih =>
    refine ih fun b hb => ?_
    rcases mem_grow.mp hb with hb | ⟨a, ha, hab⟩
    · exact h b hb
    · exact (h a ha).tail hab

/-! ## Completeness -/

/-- Every edge from `ids` stays in `ids`. -/
def Closed (edges : List (α × α)) (ids : List α) : Prop :=
  ∀ a b, a ∈ ids → Edge edges a b → b ∈ ids

/-- The edges that end outside `ids`. -/
def leaving (edges : List (α × α)) (ids : List α) : List (α × α) :=
  edges.filter fun e => !ids.contains e.2

theorem closed_of_leaving_eq_nil {ids : List α} (h : leaving edges ids = []) : Closed edges ids := by
  intro a b _ hab
  by_contra hb
  have : (a, b) ∈ leaving edges ids := List.mem_filter.mpr ⟨hab, by simpa using hb⟩
  rw [h] at this
  cases this

theorem leaving_grow_lt {ids : List α} {a b : α} (ha : a ∈ ids) (hab : Edge edges a b)
    (hb : b ∉ ids) : (leaving edges (grow edges ids)).length < (leaving edges ids).length := by
  have hsub : leaving edges (grow edges ids)
      = (leaving edges ids).filter fun e => !(grow edges ids).contains e.2 := by
    unfold leaving
    rw [List.filter_filter]
    refine List.filter_congr fun e _ => ?_
    by_cases he : e.2 ∈ ids
    · simp [he, mem_grow]
    · simp [he]
  rw [hsub, List.length_filter_lt_length_iff_exists]
  refine ⟨(a, b), List.mem_filter.mpr ⟨hab, by simpa using hb⟩, ?_⟩
  have hgrow : b ∈ grow edges ids := mem_grow.mpr (.inr ⟨a, ha, hab⟩)
  simpa using hgrow

theorem Closed.rounds {ids : List α} (h : Closed edges ids) (n : Nat) :
    Closed edges (rounds edges n ids) := by
  induction n generalizing ids with
  | zero => exact h
  | succ n ih =>
    refine ih fun a b ha hab => mem_grow.mpr (.inl ?_)
    rcases mem_grow.mp ha with ha | ⟨c, hc, hca⟩
    · exact h a b ha hab
    · exact h a b (h c a hc hca) hab

theorem closed_rounds (n : Nat) {ids : List α} (h : (leaving edges ids).length ≤ n) :
    Closed edges (rounds edges n ids) := by
  induction n generalizing ids with
  | zero =>
    have hnil : leaving edges ids = [] := List.length_eq_zero_iff.mp (by omega)
    exact (closed_of_leaving_eq_nil hnil).rounds 0
  | succ n ih =>
    by_cases hc : Closed edges ids
    · exact hc.rounds (n + 1)
    · unfold Closed at hc
      push Not at hc
      obtain ⟨a, b, ha, hab, hb⟩ := hc
      have hlt := leaving_grow_lt ha hab hb
      exact ih (by omega)

/-- **The rounds compute the transitive closure.** -/
theorem mem_reach {x y : α} : y ∈ reach edges x ↔ Relation.TransGen (Edge edges) x y := by
  constructor
  · refine rounds_sound _ (fun a ha => ?_) y
    obtain ⟨c, hc, hca⟩ := mem_nexts.mp ha
    rw [List.mem_singleton] at hc
    exact .single (hc ▸ hca)
  · intro h
    have hclosed : Closed edges (reach edges x) := closed_rounds _ (List.length_filter_le _ _)
    induction h with
    | single hxy => exact subset_rounds _ (mem_nexts.mpr ⟨x, List.mem_singleton_self x, hxy⟩)
    | tail _ hab ih => exact hclosed _ _ ih hab

end Closure
