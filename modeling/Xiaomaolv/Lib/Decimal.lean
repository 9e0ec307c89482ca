import Mathlib.Data.List.Basic
import Mathlib.Tactic.SplitIfs

/-!
# Numbers as their decimal digits

* `mem_repr`, `mem_toString`: the characters of a number, which has a minus sign if it is negative.
* `repr_inj`, `toString_inj`: the digits determine the number.
* `pad`, `pad_inj`: digits with zeros in front up to a width.
-/

namespace Decimal

theorem mem_repr {c : Char} {k : Nat} (h : c ∈ k.repr.toList) : c.isDigit = true := by
  rw [Nat.toList_repr] at h
  exact Nat.isDigit_of_mem_toDigits (by decide) (by decide) h

theorem not_mem_repr {c : Char} (h : c.isDigit = false) (k : Nat) : c ∉ k.repr.toList := by
  intro hc
  rw [mem_repr hc] at h
  cases h

theorem toDigits_inj {m n : Nat} (h : Nat.toDigits 10 m = Nat.toDigits 10 n) : m = n := by
  rw [← Nat.ofDigitChars_ten_toDigits (n := m), h, Nat.ofDigitChars_ten_toDigits]

theorem repr_inj {k l : Nat} (h : k.repr = l.repr) : k = l := by
  refine toDigits_inj ?_
  rw [← Nat.toList_repr, ← Nat.toList_repr, h]

theorem toList_toString (n : Int) : (toString n).toList =
    if 0 ≤ n then n.toNat.repr.toList else '-' :: (-n).toNat.repr.toList := by
  rw [Int.toString_eq_repr, Int.repr_eq_if]
  split_ifs
  · rfl
  · rw [String.toList_append]
    rfl

theorem mem_toString {c : Char} {n : Int} (h : c ∈ (toString n).toList) : c.isDigit = true ∨ c = '-' := by
  rw [toList_toString] at h
  split_ifs at h
  · exact .inl (mem_repr h)
  · rcases List.mem_cons.mp h with rfl | h
    · exact .inr rfl
    · exact .inl (mem_repr h)

theorem toString_inj {n m : Int} (h : toString n = toString m) : n = m := by
  have hlist := congrArg String.toList h
  rw [toList_toString, toList_toString] at hlist
  split_ifs at hlist with hn hm hm
  · have := repr_inj (String.toList_inj.mp hlist)
    omega
  · exact absurd (hlist ▸ List.mem_cons_self) (not_mem_repr (c := '-') (by decide) n.toNat)
  · exact absurd (hlist ▸ List.mem_cons_self) (not_mem_repr (c := '-') (by decide) m.toNat)
  · have := repr_inj (String.toList_inj.mp (List.cons.inj hlist).2)
    omega

theorem toString_ne_empty (n : Int) : toString n ≠ "" := by
  intro h
  have hlist := congrArg String.toList h
  rw [toList_toString] at hlist
  split_ifs at hlist
  · rw [Nat.toList_repr] at hlist
    exact Nat.toDigits_ne_nil hlist
  · cases hlist

/-! ## Digits of a width -/

/-- The digits of a number, with zeros in front up to a width. -/
def pad (width k : Nat) : String := String.ofList (k.repr.toList.leftpad width '0')

theorem toList_pad (width k : Nat) : (pad width k).toList = (Nat.toDigits 10 k).leftpad width '0' := by
  rw [pad, String.toList_ofList, Nat.toList_repr]

theorem ofDigitChars_pad (width k : Nat) : Nat.ofDigitChars 10 (pad width k).toList 0 = k := by
  rw [toList_pad, List.leftpad, Nat.ofDigitChars_append, Nat.ofDigitChars_replicate_zero, Nat.mul_zero,
    Nat.ofDigitChars_ten_toDigits]

theorem pad_inj {width k l : Nat} (h : pad width k = pad width l) : k = l := by
  rw [← ofDigitChars_pad width k, h, ofDigitChars_pad]

theorem not_mem_pad {c : Char} (h : c.isDigit = false) (width k : Nat) : c ∉ (pad width k).toList := by
  rw [toList_pad, List.leftpad, List.mem_append]
  rintro (hc | hc)
  · rw [List.eq_of_mem_replicate hc] at h
    cases h
  · rw [← Nat.toList_repr] at hc
    exact not_mem_repr h k hc

end Decimal
