import Xiaomaolv.Lib.Interleave

/-!
# Programs run alone

A program of atomic calls run by itself, to its end or up to a stop.

* `Prog.runs`: the result and the state that is left; `Prog.stopped`: the state after the first calls.
* `runs_attempt`, `runs_perform`, `runs_bind_eq_ok`: a run in parts.
* **`Prog.stopped_of_uses`**: what every permitted call keeps, a program keeps wherever it stops.
* `Prog.Keeps`: what a program establishes at each of its calls and at its end, with one rule for each way to
  compose programs; **`Prog.Keeps.stopped`**: what is left where it stops.
* **`Prog.stopped_of_holds`**: a program that meets its specification keeps the invariant when it runs alone.
-/

namespace Interleave.Prog

variable {A : Type} {Resp : A → Type} {α β σ : Type} (exec : (a : A) → σ → Except String (Resp a) × σ)

/-- The program to its end. -/
def runs : Prog A Resp α → σ → Except String α × σ
  | ret r, s => (r, s)
  | call a k, s => runs (k (exec a s).1) (exec a s).2

/-- The state after the first `n` calls. -/
def stopped : Nat → Prog A Resp α → σ → σ
  | 0, _, s => s
  | _ + 1, ret _, s => s
  | n + 1, call a k, s => stopped n (k (exec a s).1) (exec a s).2

@[simp] theorem runs_ret (r : Except String α) (s : σ) : (ret r : Prog A Resp α).runs exec s = (r, s) := rfl

@[simp] theorem runs_pure (a : α) (s : σ) : (pure a : Prog A Resp α).runs exec s = (.ok a, s) := rfl

@[simp] theorem runs_attempt (p : Prog A Resp α) (f : Except String α → Prog A Resp β) (s : σ) :
    (p.attempt f).runs exec s = (f (p.runs exec s).1).runs exec (p.runs exec s).2 := by
  induction p generalizing s with
  | ret r => rfl
  | call a k ih => exact ih (exec a s).1 (exec a s).2

@[simp] theorem runs_perform (a : A) (s : σ) : (perform a : Prog A Resp (Resp a)).runs exec s = exec a s := rfl

/-- A computation without calls. -/
@[simp] theorem runs_liftM (x : Except String α) (s : σ) : (liftM x : Prog A Resp α).runs exec s = (x, s) := rfl

theorem runs_bind_ok {p : Prog A Resp α} {f : α → Prog A Resp β} {s s' : σ} {a : α}
    (h : p.runs exec s = (.ok a, s')) : (p >>= f).runs exec s = (f a).runs exec s' := by
  change (p.attempt _).runs exec s = _
  rw [runs_attempt, h]

theorem runs_bind_error {p : Prog A Resp α} {f : α → Prog A Resp β} {s s' : σ} {e : String}
    (h : p.runs exec s = (.error e, s')) : (p >>= f).runs exec s = (.error e, s') := by
  change (p.attempt _).runs exec s = _
  rw [runs_attempt, h]
  rfl

theorem runs_bind_eq_ok {p : Prog A Resp α} {f : α → Prog A Resp β} {s s'' : σ} {b : β} :
    (p >>= f).runs exec s = (.ok b, s'') ↔
      ∃ a s', p.runs exec s = (.ok a, s') ∧ (f a).runs exec s' = (.ok b, s'') := by
  constructor
  · intro h
    obtain ⟨r, s', hp⟩ : ∃ r s', p.runs exec s = (r, s') := ⟨_, _, rfl⟩
    cases r with
    | ok a => exact ⟨a, s', hp, runs_bind_ok exec hp ▸ h⟩
    | error e =>
      rw [runs_bind_error exec hp] at h
      cases h
  · rintro ⟨a, s', hp, hf⟩
    rw [runs_bind_ok exec hp, hf]

theorem runs_discard (p : Prog A Resp α) (s : σ) :
    (((do let _ ← p) : Prog A Resp Unit).runs exec s).2 = (p.runs exec s).2 := by
  change ((p.attempt _).runs exec s).2 = _
  rw [runs_attempt]
  cases (p.runs exec s).1 <;> rfl

theorem stopped_of_uses {allowed : A → Prop} {I : σ → Prop} (hstep : ∀ a s, allowed a → I s → I (exec a s).2)
    {p : Prog A Resp α} (hp : p.Uses allowed) (n : Nat) {s : σ} (hs : I s) : I (p.stopped exec n s) := by
  induction p generalizing n s with
  | ret r => cases n <;> exact hs
  | call a k ih =>
    cases n with
    | zero => exact hs
    | succ n => exact ih _ (hp.2 _) n (hstep a s hp.1 hs)

/-! ## Stops -/

/-- What the program still has to do after the first `n` calls. -/
def rest : Nat → Prog A Resp α → σ → Prog A Resp α
  | 0, p, _ => p
  | _ + 1, ret r, _ => ret r
  | n + 1, call a k, s => rest n (k (exec a s).1) (exec a s).2

/-- The call that comes next. -/
def next? : Prog A Resp α → Option A
  | ret _ => none
  | call a _ => some a

/-- Each call finds `I`, and the end `Q`. -/
def Keeps (I : A → σ → Prop) (Q : Except String α → σ → Prop) : Prog A Resp α → σ → Prop
  | ret r, s => Q r s
  | call a k, s => I a s ∧ Keeps I Q (k (exec a s).1) (exec a s).2

section

variable {exec} {I : A → σ → Prop} {Q : Except String α → σ → Prop} {Q' : Except String β → σ → Prop} {s : σ}

theorem Keeps.imp {Q' : Except String α → σ → Prop} {p : Prog A Resp α} (hp : p.Keeps exec I Q s)
    (h : ∀ r s, Q r s → Q' r s) : p.Keeps exec I Q' s := by
  induction p generalizing s with
  | ret r => exact h r s hp
  | call a k ih => exact ⟨hp.1, ih _ hp.2⟩

theorem Keeps.attempt {p : Prog A Resp α} {f : Except String α → Prog A Resp β} (hp : p.Keeps exec I Q s)
    (hf : ∀ r s, Q r s → (f r).Keeps exec I Q' s) : (p.attempt f).Keeps exec I Q' s := by
  induction p generalizing s with
  | ret r => exact hf r s hp
  | call a k ih => exact ⟨hp.1, ih _ hp.2⟩

theorem Keeps.and {I' : A → σ → Prop} {Q' : Except String α → σ → Prop} {p : Prog A Resp α}
    (hp : p.Keeps exec I Q s) (hp' : p.Keeps exec I' Q' s) : p.Keeps exec I (fun r s => Q r s ∧ Q' r s) s := by
  induction p generalizing s with
  | ret r => exact ⟨hp, hp'⟩
  | call a k ih => exact ⟨hp.1, ih _ hp.2 hp'.2⟩

theorem Keeps.bind {p : Prog A Resp α} {f : α → Prog A Resp β} (hp : p.Keeps exec I Q s)
    (hok : ∀ a s, Q (.ok a) s → (f a).Keeps exec I Q' s) (herr : ∀ e s, Q (.error e) s → Q' (.error e) s) :
    (p >>= f).Keeps exec I Q' s :=
  hp.attempt fun r s hr =>
    match r with
    | .ok a => hok a s hr
    | .error e => herr e s hr

theorem Keeps.context {p : Prog A Resp α} {message : String} (hp : p.Keeps exec I Q s)
    (herr : ∀ e s, Q (.error e) s → Q (.error message) s) : (p.context message).Keeps exec I Q s :=
  hp.attempt fun r s hr =>
    match r with
    | .ok _ => hr
    | .error e => herr e s hr

theorem keeps_perform_bind {a : A} {f : Resp a → Prog A Resp β} (ha : I a s)
    (hok : ∀ r, (exec a s).1 = .ok r → (f r).Keeps exec I Q' (exec a s).2)
    (herr : ∀ e, (exec a s).1 = .error e → Q' (.error e) (exec a s).2) :
    (perform a >>= f).Keeps exec I Q' s := by
  refine ⟨ha, ?_⟩
  cases h : (exec a s).1 with
  | ok r => exact hok r h
  | error e => exact herr e h

theorem keeps_lift_bind {x : Except String α} {f : α → Prog A Resp β}
    (hok : ∀ a, x = .ok a → (f a).Keeps exec I Q' s) (herr : ∀ e, x = .error e → Q' (.error e) s) :
    ((liftM x : Prog A Resp α) >>= f).Keeps exec I Q' s := by
  cases x with
  | ok a => exact hok a rfl
  | error e => exact herr e rfl

theorem keeps_of_uses {allowed : A → Prop} {K : σ → Prop} (hI : ∀ a s, allowed a → K s → I a s)
    (hstep : ∀ a s, allowed a → K s → K (exec a s).2) {p : Prog A Resp α} (hp : p.Uses allowed) (hs : K s) :
    p.Keeps exec I (fun _ => K) s := by
  induction p generalizing s with
  | ret r => exact hs
  | call a k ih => exact ⟨hI a s hp.1 hs, ih _ (hp.2 _) (hstep a s hp.1 hs)⟩

theorem keeps_of_stopped {K : σ → Prop} (hI : ∀ a s, K s → I a s) {p : Prog A Resp α}
    (h : ∀ n, K (p.stopped exec n s)) : p.Keeps exec I (fun _ => K) s := by
  induction p generalizing s with
  | ret r => exact h 0
  | call a k ih => exact ⟨hI a s (h 0), ih _ fun n => h (n + 1)⟩

theorem Keeps.runs {p : Prog A Resp α} (hp : p.Keeps exec I Q s) : Q (p.runs exec s).1 (p.runs exec s).2 := by
  induction p generalizing s with
  | ret r => exact hp
  | call a k ih => exact ih _ hp.2

/-- **Where a run stops**, it has ended or finds what its next call needs. -/
theorem Keeps.stopped {p : Prog A Resp α} (hp : p.Keeps exec I Q s) (n : Nat) :
    (∃ r, Q r (p.stopped exec n s)) ∨ ∃ a, (p.rest exec n s).next? = some a ∧ I a (p.stopped exec n s) := by
  induction p generalizing n s with
  | ret r => cases n <;> exact .inl ⟨r, hp⟩
  | call a k ih =>
    cases n with
    | zero => exact .inr ⟨a, rfl, hp.1⟩
    | succ n => exact ih _ hp.2 n

/-- **A program that meets its specification** keeps the invariant wherever it stops. -/
theorem stopped_of_holds {ν : Type} {rel : ν → ν → Prop} {pre : ν → A → Prop} {post : ν → (a : A) → Resp a → Prop}
    {K : σ → Prop} (view : σ → ν) (hrefl : ∀ v, rel v v) (hstep : ∀ a s, K s → pre (view s) a →
      K (exec a s).2 ∧ rel (view s) (view (exec a s).2) ∧
        ∀ r, (exec a s).1 = .ok r → post (view (exec a s).2) a r)
    {p : Prog A Resp α} {Q : ν → α → Prop} (hp : p.Holds rel pre post Q (view s)) (n : Nat) (hs : K s) :
    K (p.stopped exec n s) := by
  induction p generalizing n s with
  | ret r => cases n <;> exact hs
  | call a k ih =>
    cases n with
    | zero => exact hs
    | succ n =>
      obtain ⟨hpre, herr, hok⟩ := hp (view s) (hrefl _)
      obtain ⟨hK, hrel, hpost⟩ := hstep a s hs hpre
      refine ih _ ?_ n hK
      cases h : (exec a s).1 with
      | ok r => exact hok _ r hrel (hpost r h)
      | error e => exact herr _ e hrel

end

theorem exists_stopped_eq (p : Prog A Resp α) (s : σ) : ∃ n, p.stopped exec n s = (p.runs exec s).2 := by
  induction p generalizing s with
  | ret r => exact ⟨0, rfl⟩
  | call a k ih =>
    obtain ⟨n, hn⟩ := ih (exec a s).1 (exec a s).2
    exact ⟨n + 1, hn⟩

end Interleave.Prog
