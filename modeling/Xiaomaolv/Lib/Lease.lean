import Mathlib.Data.List.Chain

/-!
# Leases on one resource

* `Grant`, `OpenAt`: a grant is open from the clock it is taken at to the clock it expires at.
* `Successive`: every grant is taken after the one before it ran out; `successive_concat`.
* **`Successive.length_open_le_one`**: of successive grants at most one is open at a clock.
-/

namespace Lease

/-- A lease, from the clock of its transaction to its expiry. -/
structure Grant where
  takenAt : Int
  expiresAt : Int
deriving DecidableEq, Repr

/-- The grant is in force at the clock. -/
def Grant.OpenAt (clock : Int) (g : Grant) : Prop := g.takenAt ≤ clock ∧ clock ≤ g.expiresAt

instance (clock : Int) : DecidablePred (Grant.OpenAt clock) :=
  fun g => inferInstanceAs (Decidable (g.takenAt ≤ clock ∧ clock ≤ g.expiresAt))

/-- Every grant is taken after the one before it ran out. -/
def Successive (l : List Grant) : Prop := l.IsChain fun g g' => g.expiresAt < g'.takenAt

@[simp] theorem successive_nil : Successive [] := List.IsChain.nil

theorem successive_concat {l : List Grant} {g : Grant} :
    Successive (l ++ [g]) ↔ Successive l ∧ ∀ x ∈ l.getLast?, x.expiresAt < g.takenAt := by
  unfold Successive
  rw [List.isChain_append]
  simp

variable {l : List Grant}

theorem Successive.pairwise (h : Successive l) (hpos : ∀ g ∈ l, g.takenAt ≤ g.expiresAt) :
    l.Pairwise fun g g' => g.expiresAt < g'.takenAt := by
  induction l with
  | nil => exact List.Pairwise.nil
  | cons g l ih =>
    have hpos' : ∀ x ∈ l, x.takenAt ≤ x.expiresAt := fun x hx => hpos x (List.mem_cons_of_mem _ hx)
    have htail := ih h.tail hpos'
    refine List.pairwise_cons.mpr ⟨fun x hx => ?_, htail⟩
    cases l with
    | nil => cases hx
    | cons y l =>
      have hgy : g.expiresAt < y.takenAt := (List.isChain_cons_cons.mp h).1
      rcases List.mem_cons.mp hx with rfl | hx'
      · exact hgy
      · have hyx := (List.pairwise_cons.mp htail).1 x hx'
        have hy := hpos' y List.mem_cons_self
        omega

/-- **One holder**: at most one of the grants is open at any clock. -/
theorem Successive.length_open_le_one (h : Successive l)
    (hpos : ∀ g ∈ l, g.takenAt ≤ g.expiresAt) (clock : Int) :
    (l.filter fun g => g.OpenAt clock).length ≤ 1 := by
  have hpair : (l.filter fun g => g.OpenAt clock).Pairwise fun g g' => g.expiresAt < g'.takenAt :=
    (h.pairwise hpos).filter _
  have hopen : ∀ g ∈ l.filter fun g => g.OpenAt clock, g.OpenAt clock := fun g hg => by
    simpa using (List.mem_filter.mp hg).2
  generalize l.filter (fun g => g.OpenAt clock) = held at hpair hopen ⊢
  rcases held with _ | ⟨g, _ | ⟨g', rest⟩⟩
  · exact Nat.zero_le 1
  · exact Nat.le_refl 1
  · have hlt := (List.pairwise_cons.mp hpair).1 g' List.mem_cons_self
    have hg := (hopen g List.mem_cons_self).2
    have hg' := (hopen g' (List.mem_cons_of_mem _ List.mem_cons_self)).1
    omega

end Lease
