import Mathlib.Data.List.Basic
import Mathlib.Tactic.SplitIfs
import Xiaomaolv.Lib.Machine

/-!
# Interleaved programs

A program is a tree of atomic calls; several of them run over one shared state and may stop at any call.

* `Prog`: a program, with `do` notation; an error ends it, `Prog.attempt` sees the error.
* `System`, `Pool`, `step`: threads over a shared state, and the log of the calls performed.
* `Prog.Uses`: what a program may call; `Prog.Holds`: what its calls require, from facts that the other
  threads keep.
* **`Pool.holds_run`**: an invariant that every permitted call keeps holds in every interleaving.
-/

namespace Interleave

/-- A program of calls `A`; the call `a` is answered by a `Resp a` or an error. -/
inductive Prog (A : Type) (Resp : A → Type) (α : Type)
  | ret (r : Except String α)
  | call (a : A) (k : Except String (Resp a) → Prog A Resp α)

namespace Prog

variable {A : Type} {Resp : A → Type} {α β : Type}

/-- `f` goes on with the result, an error included. -/
def attempt : Prog A Resp α → (Except String α → Prog A Resp β) → Prog A Resp β
  | ret r, f => f r
  | call a k, f => call a fun r => (k r).attempt f

/-- An error ends the program. -/
def bind (p : Prog A Resp α) (f : α → Prog A Resp β) : Prog A Resp β :=
  p.attempt fun
    | .ok a => f a
    | .error e => ret (.error e)

instance : Monad (Prog A Resp) where
  pure a := ret (.ok a)
  bind := bind

instance : MonadLift (Except String) (Prog A Resp) := ⟨ret⟩

/-- One call. -/
def perform (a : A) : Prog A Resp (Resp a) := call a ret

/-- `with_context`: an error is shown as the outer one. -/
def context (message : String) (p : Prog A Resp α) : Prog A Resp α :=
  p.attempt fun
    | .ok a => ret (.ok a)
    | .error _ => ret (.error message)

/-- Every call that the program can make is allowed, whatever was answered before. -/
def Uses (allowed : A → Prop) : Prog A Resp α → Prop
  | ret _ => True
  | call a k => allowed a ∧ ∀ r, (k r).Uses allowed

theorem Uses.imp {allowed allowed' : A → Prop} (h : ∀ a, allowed a → allowed' a) {p : Prog A Resp α}
    (hp : p.Uses allowed) : p.Uses allowed' := by
  induction p with
  | ret r => trivial
  | call a k ih => exact ⟨h a hp.1, fun r => ih r (hp.2 r)⟩

theorem Uses.attempt {allowed : A → Prop} {p : Prog A Resp α} {f : Except String α → Prog A Resp β}
    (hp : p.Uses allowed) (hf : ∀ r, (f r).Uses allowed) : (p.attempt f).Uses allowed := by
  induction p with
  | ret r => exact hf r
  | call a k ih => exact ⟨hp.1, fun r => ih r (hp.2 r)⟩

theorem Uses.bind {allowed : A → Prop} {p : Prog A Resp α} {f : α → Prog A Resp β}
    (hp : p.Uses allowed) (hf : ∀ a, (f a).Uses allowed) : (p >>= f).Uses allowed :=
  hp.attempt fun
    | .ok a => hf a
    | .error _ => trivial

theorem Uses.context {allowed : A → Prop} {p : Prog A Resp α} {message : String}
    (hp : p.Uses allowed) : (p.context message).Uses allowed :=
  hp.attempt fun
    | .ok _ => trivial
    | .error _ => trivial

theorem uses_perform {allowed : A → Prop} {a : A} (h : allowed a) :
    (perform a : Prog A Resp (Resp a)).Uses allowed :=
  ⟨h, fun _ => trivial⟩

theorem uses_lift {allowed : A → Prop} (x : Except String α) :
    (liftM x : Prog A Resp α).Uses allowed :=
  True.intro

theorem uses_lift_bind {allowed : A → Prop} {x : Except String α} {f : α → Prog A Resp β}
    (h : ∀ a, x = .ok a → (f a).Uses allowed) : ((liftM x : Prog A Resp α) >>= f).Uses allowed := by
  cases x with
  | ok a => exact h a rfl
  | error e => exact True.intro

theorem uses_pure {allowed : A → Prop} (a : α) : (pure a : Prog A Resp α).Uses allowed :=
  True.intro

/-! ## Specifications -/

variable {ν : Type} (rel : ν → ν → Prop) (pre : ν → A → Prop) (post : ν → (a : A) → Resp a → Prop)

/-- From any later view every call meets `pre`, and what a call answers meets `post` from then on; a
result that is no error meets `Q`. -/
def Holds (Q : ν → α → Prop) : ν → Prog A Resp α → Prop
  | v, ret (.ok a) => ∀ v', rel v v' → Q v' a
  | _, ret (.error _) => True
  | v, call a k => ∀ v', rel v v' → pre v' a ∧
      (∀ v'' e, rel v' v'' → Holds Q v'' (k (.error e))) ∧
      ∀ v'' r, rel v' v'' → post v'' a r → Holds Q v'' (k (.ok r))

variable {rel pre post} {Q : ν → α → Prop} {Q' : ν → β → Prop} {v : ν}

theorem Holds.mono (htrans : ∀ u v w, rel u v → rel v w → rel u w) {v' : ν} {p : Prog A Resp α}
    (h : p.Holds rel pre post Q v) (hv : rel v v') : p.Holds rel pre post Q v' := by
  cases p with
  | ret r =>
    cases r with
    | ok a => exact fun w hw => h w (htrans _ _ _ hv hw)
    | error e => trivial
  | call a k => exact fun w hw => h w (htrans _ _ _ hv hw)

theorem Holds.attempt (hrefl : ∀ v, rel v v) (htrans : ∀ u v w, rel u v → rel v w → rel u w)
    {p : Prog A Resp α} {f : Except String α → Prog A Resp β} (hp : p.Holds rel pre post Q v)
    (hok : ∀ v' a, rel v v' → Q v' a → (f (.ok a)).Holds rel pre post Q' v')
    (herr : ∀ v' e, rel v v' → (f (.error e)).Holds rel pre post Q' v') :
    (p.attempt f).Holds rel pre post Q' v := by
  induction p generalizing v with
  | ret r =>
    cases r with
    | ok a => exact hok v a (hrefl v) (hp v (hrefl v))
    | error e => exact herr v e (hrefl v)
  | call a k ih =>
    intro v' hv
    obtain ⟨hpre, hkerr, hkok⟩ := hp v' hv
    have hlater : ∀ v'' w, rel v' v'' → rel v'' w → rel v w := fun v'' w hv' hw =>
      htrans _ _ _ hv (htrans _ _ _ hv' hw)
    refine ⟨hpre, fun v'' e hv' => ih _ (hkerr v'' e hv') ?_ ?_,
      fun v'' r hv' hr => ih _ (hkok v'' r hv' hr) ?_ ?_⟩
    · exact fun w a hw => hok w a (hlater v'' w hv' hw)
    · exact fun w e hw => herr w e (hlater v'' w hv' hw)
    · exact fun w a hw => hok w a (hlater v'' w hv' hw)
    · exact fun w e hw => herr w e (hlater v'' w hv' hw)

theorem Holds.bind (hrefl : ∀ v, rel v v) (htrans : ∀ u v w, rel u v → rel v w → rel u w)
    {p : Prog A Resp α} {f : α → Prog A Resp β} (hp : p.Holds rel pre post Q v)
    (hf : ∀ v' a, rel v v' → Q v' a → (f a).Holds rel pre post Q' v') :
    (p >>= f).Holds rel pre post Q' v :=
  hp.attempt hrefl htrans hf fun _ _ _ => trivial

theorem Holds.context (hrefl : ∀ v, rel v v) (htrans : ∀ u v w, rel u v → rel v w → rel u w)
    {p : Prog A Resp α} {message : String} (hp : p.Holds rel pre post Q v)
    (hQ : ∀ v v' a, rel v v' → Q v a → Q v' a) : (p.context message).Holds rel pre post Q v :=
  hp.attempt hrefl htrans (fun v' a _ ha w hw => hQ v' w a hw ha) fun _ _ _ => trivial

theorem holds_perform {a : A} {Q : ν → Resp a → Prop} (hpre : ∀ v', rel v v' → pre v' a)
    (hQ : ∀ v' r w, rel v v' → post v' a r → rel v' w → Q w r)
    (htrans : ∀ u v w, rel u v → rel v w → rel u w) : (perform a).Holds rel pre post Q v :=
  fun v' hv => ⟨hpre v' hv, fun _ _ _ => trivial, fun v'' r hv' hr w hw =>
    hQ v'' r w (htrans _ _ _ hv hv') hr hw⟩

theorem holds_perform_bind {a : A} {f : Resp a → Prog A Resp β}
    (htrans : ∀ u v w, rel u v → rel v w → rel u w) (hpre : ∀ v', rel v v' → pre v' a)
    (hf : ∀ v' r, rel v v' → post v' a r → (f r).Holds rel pre post Q' v') :
    (perform a >>= f).Holds rel pre post Q' v :=
  fun v' hv => ⟨hpre v' hv, fun _ _ _ => trivial, fun v'' r hv' hr =>
    hf v'' r (htrans _ _ _ hv hv') hr⟩

theorem holds_lift_bind {x : Except String α} {f : α → Prog A Resp β}
    (hf : ∀ a, x = .ok a → (f a).Holds rel pre post Q' v) :
    ((liftM x : Prog A Resp α) >>= f).Holds rel pre post Q' v := by
  cases x with
  | ok a => exact hf a rfl
  | error e => exact True.intro

theorem holds_lift {x : Except String α} (hQ : ∀ a, x = .ok a → ∀ v', rel v v' → Q v' a) :
    (liftM x : Prog A Resp α).Holds rel pre post Q v := by
  cases x with
  | ok a => exact hQ a rfl
  | error e => exact True.intro

theorem holds_of_uses {allowed : A → Prop} (hpre : ∀ v a, allowed a → pre v a)
    {p : Prog A Resp α} (hp : p.Uses allowed) : p.Holds rel pre post (fun _ _ => True) v := by
  induction p generalizing v with
  | ret r =>
    cases r with
    | ok a => exact fun _ _ => trivial
    | error e => trivial
  | call a k ih =>
    exact fun v' _ => ⟨hpre v' a hp.1, fun _ _ _ => ih _ (hp.2 _), fun _ _ _ _ => ih _ (hp.2 _)⟩

end Prog

/-! ## Pools -/

/-- What the threads run and what a call does to the shared state. -/
structure System (σ C A E X : Type) (Resp : A → Type) where
  program : C → Prog A Resp Unit
  /-- The call `a` of thread `i`; `none` while the thread has to wait. -/
  perform : E → (i : Nat) → (a : A) → σ → Option (Except String (Resp a) × σ)
  /-- A thread that is dropped gives back what it holds. -/
  release : Nat → σ → σ
  /-- A new process; `none` when it does not come up. -/
  restart : X → σ → Option σ

structure Thread (C A : Type) (Resp : A → Type) where
  caller : C
  prog : Prog A Resp Unit

/-- A call that was performed: by which thread, in which state, and the answer. -/
structure Entry (σ C A : Type) (Resp : A → Type) where
  thread : Nat
  caller : C
  before : σ
  action : A
  answer : Except String (Resp action)

structure Pool (σ C A : Type) (Resp : A → Type) where
  world : σ
  threads : List (Thread C A Resp)
  log : List (Entry σ C A Resp)

inductive Step (C E X : Type)
  | start (caller : C)
  | advance (i : Nat) (env : E)
  | drop (i : Nat)
  | restart (x : X)

section

variable {σ C A E X : Type} {Resp : A → Type} (sys : System σ C A E X Resp)

def Thread.stopped (t : Thread C A Resp) : Thread C A Resp := { t with prog := .ret (.error "dropped") }

/-- One step of the pool. -/
def step (pool : Pool σ C A Resp) : Step C E X → Pool σ C A Resp
  | .start caller => { pool with threads := pool.threads ++ [⟨caller, sys.program caller⟩] }
  | .advance i env =>
    match pool.threads[i]? with
    | none => pool
    | some t =>
      match t.prog with
      | .ret _ => pool
      | .call a k =>
        match sys.perform env i a pool.world with
        | none => pool
        | some (answer, world) =>
          { world
            threads := pool.threads.set i { t with prog := k answer }
            log := pool.log ++ [⟨i, t.caller, pool.world, a, answer⟩] }
  | .drop i =>
    { pool with world := sys.release i pool.world, threads := pool.threads.modify i Thread.stopped }
  | .restart x =>
    match sys.restart x pool.world with
    | none => pool
    | some world => { pool with world, threads := pool.threads.map Thread.stopped }

theorem step_advance {pool : Pool σ C A Resp} {i : Nat} {env : E} {t : Thread C A Resp} {a : A}
    {k : Except String (Resp a) → Prog A Resp Unit} {answer : Except String (Resp a)} {world : σ}
    (ht : pool.threads[i]? = some t) (hp : t.prog = .call a k)
    (h : sys.perform env i a pool.world = some (answer, world)) :
    step sys pool (.advance i env) =
      { world
        threads := pool.threads.set i { t with prog := k answer }
        log := pool.log ++ [⟨i, t.caller, pool.world, a, answer⟩] } := by
  simp only [step, ht, hp, h]

theorem step_advance_cases (pool : Pool σ C A Resp) (i : Nat) (env : E) :
    step sys pool (.advance i env) = pool ∨ ∃ t a k answer world, pool.threads[i]? = some t ∧
      t.prog = .call a k ∧ sys.perform env i a pool.world = some (answer, world) := by
  simp only [step]
  split
  · exact .inl rfl
  · rename_i t ht
    split
    · exact .inl rfl
    · rename_i a k hp
      split
      · exact .inl rfl
      · rename_i answer world h
        exact .inr ⟨t, a, k, answer, world, ht, hp, h⟩

/-- What the threads may rely on: the shared state and the log. -/
abbrev View (σ C A : Type) (Resp : A → Type) := σ × List (Entry σ C A Resp)

def Pool.view (pool : Pool σ C A Resp) : View σ C A Resp := (pool.world, pool.log)

variable {sys} {rel : View σ C A Resp → View σ C A Resp → Prop}
  {pre : C → Nat → View σ C A Resp → A → Prop} {post : C → Nat → View σ C A Resp → (a : A) → Resp a → Prop}
  {inv : View σ C A Resp → Prop}

/-- What a rely-guarantee argument has to show: `rel` orders the views, every program meets its
specification, and a call that meets `pre` keeps `inv`, moves along `rel` and establishes `post`. -/
structure Sound (sys : System σ C A E X Resp) (rel : View σ C A Resp → View σ C A Resp → Prop)
    (pre : C → Nat → View σ C A Resp → A → Prop) (post : C → Nat → View σ C A Resp → (a : A) → Resp a → Prop)
    (inv : View σ C A Resp → Prop) : Prop where
  refl : ∀ v, rel v v
  trans : ∀ u v w, rel u v → rel v w → rel u w
  program : ∀ v c i, (sys.program c).Holds rel (pre c i) (post c i) (fun _ _ => True) v
  perform : ∀ {w log env i c a answer w'}, inv (w, log) → pre c i (w, log) a →
    sys.perform env i a w = some (answer, w') →
    inv (w', log ++ [⟨i, c, w, a, answer⟩]) ∧ rel (w, log) (w', log ++ [⟨i, c, w, a, answer⟩]) ∧
      ∀ r, answer = .ok r → post c i (w', log ++ [⟨i, c, w, a, answer⟩]) a r
  release : ∀ {w log i}, inv (w, log) → inv (sys.release i w, log) ∧ rel (w, log) (sys.release i w, log)
  restart : ∀ {w log x w'}, inv (w, log) → sys.restart x w = some w' → inv (w', log)

/-- The invariant, and what every thread still has to do meets its specification. -/
structure Pool.Holds (rel : View σ C A Resp → View σ C A Resp → Prop)
    (pre : C → Nat → View σ C A Resp → A → Prop) (post : C → Nat → View σ C A Resp → (a : A) → Resp a → Prop)
    (inv : View σ C A Resp → Prop) (pool : Pool σ C A Resp) : Prop where
  inv : inv pool.view
  threads : ∀ i (t : Thread C A Resp), pool.threads[i]? = some t →
    t.prog.Holds rel (pre t.caller i) (post t.caller i) (fun _ _ => True) pool.view

theorem stopped_holds (t : Thread C A Resp) {c : C} {i : Nat} {v : View σ C A Resp} :
    t.stopped.prog.Holds rel (pre c i) (post c i) (fun _ _ => True) v := trivial

theorem Sound.mono (hs : Sound sys rel pre post inv) {v v' : View σ C A Resp} (hv : rel v v') {c : C}
    {i : Nat} {p : Prog A Resp Unit} (hp : p.Holds rel (pre c i) (post c i) (fun _ _ => True) v) :
    p.Holds rel (pre c i) (post c i) (fun _ _ => True) v' :=
  Prog.Holds.mono hs.trans hp hv

/-- The call of thread `i`: its own program goes on, the others stay. -/
theorem Sound.holds_advance (hs : Sound sys rel pre post inv) {pool : Pool σ C A Resp}
    (h : pool.Holds rel pre post inv) (i : Nat) (env : E) :
    (step sys pool (.advance i env)).Holds rel pre post inv := by
  simp only [step]
  cases ht : pool.threads[i]? with
  | none => exact h
  | some t =>
    simp only
    have hprog := h.threads i t ht
    cases hp : t.prog with
    | ret r => exact h
    | call a k =>
      simp only
      rw [hp] at hprog
      cases hanswer : sys.perform env i a pool.world with
      | none => exact h
      | some result =>
        obtain ⟨answer, world⟩ := result
        obtain ⟨hpre, herr, hok⟩ := hprog pool.view (hs.refl _)
        obtain ⟨hinv, hrel, hpost⟩ := hs.perform h.inv hpre hanswer
        refine ⟨hinv, fun j t' ht' => ?_⟩
        rw [List.getElem?_set] at ht'
        split_ifs at ht' with hij hlt
        · subst hij
          cases Option.some.inj ht'
          cases answer with
          | error e => exact herr _ e hrel
          | ok r => exact hok _ r hrel (hpost r rfl)
        · exact hs.mono hrel (h.threads j t' ht')

/-- **One step keeps the invariant and every thread's specification.** -/
theorem Sound.holds_step (hs : Sound sys rel pre post inv) {pool : Pool σ C A Resp}
    (h : pool.Holds rel pre post inv) (label : Step C E X) :
    (step sys pool label).Holds rel pre post inv := by
  cases label with
  | start c =>
    refine ⟨h.inv, fun i t ht => ?_⟩
    simp only [step] at ht
    rw [List.getElem?_append] at ht
    split_ifs at ht with hi
    · exact h.threads i t ht
    · rw [List.getElem?_singleton] at ht
      split_ifs at ht
      cases Option.some.inj ht
      exact hs.program _ _ _
  | advance i env => exact hs.holds_advance h i env
  | drop i =>
    obtain ⟨hinv, hrel⟩ := hs.release (i := i) h.inv
    refine ⟨hinv, fun j t ht => ?_⟩
    simp only [step] at ht
    rw [List.getElem?_modify] at ht
    obtain ⟨t', ht', rfl⟩ := Option.map_eq_some_iff.mp ht
    split_ifs
    · exact stopped_holds t'
    · exact hs.mono hrel (h.threads j t' ht')
  | restart x =>
    simp only [step]
    cases hw : sys.restart x pool.world with
    | none => exact h
    | some world =>
      refine ⟨hs.restart h.inv hw, fun j t ht => ?_⟩
      rw [List.getElem?_map] at ht
      obtain ⟨t', -, rfl⟩ := Option.map_eq_some_iff.mp ht
      exact stopped_holds t'

/-- The pool before the first thread. -/
def Pool.initial (world : σ) : Pool σ C A Resp := ⟨world, [], []⟩

/-- **The invariant holds in every interleaving.** -/
theorem Sound.run (hs : Sound sys rel pre post inv) {world : σ} (hinv : inv (world, []))
    (labels : List (Step C E X)) : inv (Machine.run (step sys) (Pool.initial world) labels).view := by
  have hstart : (Pool.initial world : Pool σ C A Resp).Holds rel pre post inv :=
    ⟨hinv, fun i t ht => by simp [Pool.initial] at ht⟩
  have hrun : (Machine.run (step sys) (Pool.initial world) labels).Holds rel pre post inv :=
    Machine.run_invariant' (I := Pool.Holds rel pre post inv) (fun _ label h => hs.holds_step h label)
      hstart
  exact hrun.inv

end

end Interleave
