import Mathlib.Order.Lattice
import Mathlib.Tactic.SplitIfs
import Mathlib.Algebra.Group.Int.Defs

/-!
# Signed integers of a fixed width

* `FixedWidth.InRange`: the values of the type.
* `FixedWidth.saturate`, `FixedWidth.wrap`: what a saturating and a wrapping operation make of a result.
* `FixedWidth.add`: the addition of a build with overflow checks (`none` is a panic) and of one without.
* **`FixedWidth.add_gt_iff`**: the sum with a positive number is above the first one if and only if it is in range.
-/

namespace FixedWidth

/-- The values of `w + 1` bits. -/
def InRange (w : Nat) (n : Int) : Prop := -2 ^ w ≤ n ∧ n < 2 ^ w

instance (w : Nat) (n : Int) : Decidable (InRange w n) := inferInstanceAs (Decidable (_ ∧ _))

def saturate (w : Nat) (n : Int) : Int := max (-2 ^ w) (min n (2 ^ w - 1))

def wrap (w : Nat) (n : Int) : Int := (n + 2 ^ w) % (2 * 2 ^ w) - 2 ^ w

def add (w : Nat) (checked : Bool) (a b : Int) : Option Int :=
  if InRange w (a + b) then some (a + b) else if checked then none else some (wrap w (a + b))

variable {w : Nat} {a b n m : Int}

theorem saturate_of_inRange (h : InRange w n) : saturate w n = n := by
  unfold saturate
  obtain ⟨hlow, hhigh⟩ := h
  omega

theorem min_saturate (hn : 0 ≤ n) (hm : m < 2 ^ w) : min (saturate w n) m = min n m := by
  unfold saturate
  have hpos : (0 : Int) < 2 ^ w := Int.pow_pos (by omega)
  omega

theorem add_of_inRange (h : InRange w (a + b)) (checked : Bool) : add w checked a b = some (a + b) := if_pos h

/-- **The sum with a positive number is above the first one** if and only if it is in range. -/
theorem add_gt_iff (ha : InRange w a) (hb : InRange w b) (hpos : 0 < b) (checked : Bool) :
    (∃ sum ∈ add w checked a b, a < sum) ↔ a + b < 2 ^ w := by
  obtain ⟨halow, hahigh⟩ := ha
  obtain ⟨-, hbhigh⟩ := hb
  constructor
  · rintro ⟨sum, hsum, hlt⟩
    by_contra hover
    have hout : ¬ InRange w (a + b) := fun h => hover h.2
    rw [add, if_neg hout] at hsum
    split_ifs at hsum
    · cases hsum
    · obtain rfl := Option.some.inj hsum
      -- The sum wraps around to a value below.
      have hmod : (a + b + 2 ^ w) % (2 * 2 ^ w) = a + b + 2 ^ w - 2 * 2 ^ w := by
        rw [← Int.sub_emod_right, Int.emod_eq_of_lt (by omega) (by omega)]
      rw [wrap, hmod] at hlt
      omega
  · intro hlt
    exact ⟨a + b, add_of_inRange ⟨by omega, hlt⟩ checked, by omega⟩

end FixedWidth
