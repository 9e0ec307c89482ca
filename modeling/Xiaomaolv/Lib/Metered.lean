import Mathlib.Algebra.Group.Action.Defs
import Mathlib.Algebra.Order.BigOperators.Group.List
import Mathlib.Algebra.Order.Ring.Nat
import Xiaomaolv.Lib.Interleave

/-!
# Metered programs

Calls of one kind are counted: by a program before it runs, and by the threads that run it.

* `Prog.AtMost`: the program makes at most `n` counted calls, whatever it is answered; `AtMost.attempt`: the
  count of a program in parts.
* `Metered`: a thread with the counted calls that were granted; `Metered.Within`: no more than `n`, with those to
  come.
* **`sum_made_lt`**: of threads within `n`, one of which is about to make a counted call, less than `n` a thread
  are granted.
-/

namespace Interleave

namespace Prog

variable {A : Type} {Resp : A → Type} {α β : Type} (counted : A → Bool)

/-- At most `n` counted calls. -/
def AtMost : Nat → Prog A Resp α → Prop
  | _, ret _ => True
  | n, call a k => (counted a = true → 0 < n) ∧ ∀ r, (k r).AtMost (if counted a then n - 1 else n)

variable {counted} {m n : Nat}

theorem AtMost.mono {p : Prog A Resp α} (h : p.AtMost counted m) (hmn : m ≤ n) : p.AtMost counted n := by
  induction p generalizing m n with
  | ret r => trivial
  | call a k ih =>
    refine ⟨fun hc => Nat.lt_of_lt_of_le (h.1 hc) hmn, fun r => ih r (h.2 r) ?_⟩
    split_ifs
    · omega
    · exact hmn

theorem AtMost.attempt {p : Prog A Resp α} {f : Except String α → Prog A Resp β} (hp : p.AtMost counted m)
    (hf : ∀ r, (f r).AtMost counted n) : (p.attempt f).AtMost counted (m + n) := by
  induction p generalizing m with
  | ret r => exact (hf r).mono (Nat.le_add_left n m)
  | call a k ih =>
    refine ⟨fun hc => Nat.lt_of_lt_of_le (hp.1 hc) (Nat.le_add_right m n), fun r => (ih r (hp.2 r)).mono ?_⟩
    split_ifs with hc
    · have hm := hp.1 hc
      omega
    · exact le_rfl

theorem atMost_pure (a : α) : (pure a : Prog A Resp α).AtMost counted n := trivial

theorem atMost_perform (a : A) : (perform a : Prog A Resp (Resp a)).AtMost counted (if counted a then 1 else 0) := by
  refine ⟨fun hc => ?_, fun r => trivial⟩
  rw [if_pos hc]
  exact Nat.one_pos

end Prog

/-! ## Threads -/

/-- A thread: what is left of its program, and the counted calls that were granted. -/
structure Metered (C A : Type) (Resp : A → Type) (α : Type) where
  caller : C
  prog : Prog A Resp α
  made : Nat

namespace Metered

variable {C A : Type} {Resp : A → Type} {α : Type} (counted : A → Bool)

/-- The thread makes its call and is answered. -/
def answered (t : Metered C A Resp α) (a : A) (k : Except String (Resp a) → Prog A Resp α)
    (answer : Except String (Resp a)) : Metered C A Resp α :=
  { t with prog := k answer, made := if counted a && answer.isOk then t.made + 1 else t.made }

/-- The calls that were granted and those to come are at most `n`. -/
def Within (n : Nat) (t : Metered C A Resp α) : Prop :=
  t.made ≤ n ∧ t.prog.AtMost counted (n - t.made)

variable {counted} {n : Nat} {t : Metered C A Resp α} {a : A} {k : Except String (Resp a) → Prog A Resp α}

theorem Within.made_lt (h : t.Within counted n) (hprog : t.prog = .call a k) (ha : counted a = true) :
    t.made < n := by
  have hcall := h.2
  rw [hprog] at hcall
  have hleft := hcall.1 ha
  omega

theorem Within.answered (h : t.Within counted n) (hprog : t.prog = .call a k) (answer : Except String (Resp a)) :
    (t.answered counted a k answer).Within counted n := by
  have hcall := h.2
  rw [hprog] at hcall
  have hnext := hcall.2 answer
  simp only [Within, Metered.answered]
  split_ifs with hgranted
  · have ha : counted a = true := (Bool.and_eq_true_iff.mp hgranted).1
    have hlt := h.made_lt hprog ha
    rw [if_pos ha] at hnext
    exact ⟨hlt, hnext.mono (by omega)⟩
  · refine ⟨h.1, hnext.mono ?_⟩
    split_ifs
    · omega
    · exact le_rfl

theorem sum_made_le {ts : List (Metered C A Resp α)} (h : ∀ t ∈ ts, t.made ≤ n) :
    (ts.map (·.made)).sum ≤ n * ts.length := by
  have hle := List.sum_le_card_nsmul (ts.map (·.made)) n fun x hx => by
    obtain ⟨t, ht, rfl⟩ := List.mem_map.mp hx
    exact h t ht
  rwa [List.length_map, smul_eq_mul, mul_comm] at hle

theorem sum_made_set {ts : List (Metered C A Resp α)} {i : Nat} {t u : Metered C A Resp α} (ht : ts[i]? = some t) :
    ((ts.set i u).map (·.made)).sum + t.made = (ts.map (·.made)).sum + u.made := by
  induction ts generalizing i with
  | nil => cases ht
  | cons t₀ ts ih =>
    cases i with
    | zero =>
      rw [List.getElem?_cons_zero] at ht
      cases Option.some.inj ht
      simp only [List.set_cons_zero, List.map_cons, List.sum_cons]
      omega
    | succ i =>
      rw [List.getElem?_cons_succ] at ht
      have hi := ih ht
      simp only [List.set_cons_succ, List.map_cons, List.sum_cons]
      omega

/-- **While a thread is about to make a counted call, less than `n` a thread are granted.** -/
theorem sum_made_lt {ts : List (Metered C A Resp α)} (h : ∀ t ∈ ts, t.Within counted n) {i : Nat}
    (ht : ts[i]? = some t) (hprog : t.prog = .call a k) (ha : counted a = true) :
    (ts.map (·.made)).sum < n * ts.length := by
  have hlt := (h t (List.mem_of_getElem? ht)).made_lt hprog ha
  -- With that call granted as well, the threads are still within `n`.
  let granted : Metered C A Resp α := { t with made := t.made + 1 }
  have hset : ((ts.set i granted).map (·.made)).sum + t.made = (ts.map (·.made)).sum + (t.made + 1) := sum_made_set ht
  have hle : ((ts.set i granted).map (·.made)).sum ≤ n * (ts.set i granted).length := sum_made_le fun u hu => by
    rcases List.mem_or_eq_of_mem_set hu with hu | rfl
    · exact (h u hu).1
    · exact hlt
  rw [List.length_set] at hle
  omega

end Metered

end Interleave
