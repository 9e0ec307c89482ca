import Mathlib.Data.List.Basic

/-!
# Programs that emit

A program hands items to a listener, one at a time, and goes on with the answer to each.

* `Emitter`: the programs; `bind`, with the laws of a monad.
* `Emits`: the items that are accepted on some way through a program, and its value;
  `emits_bind`: the ways through a sequence.
* `run`: a program against a listener with a state; **`emits_run`**: a run is a way through.
* `tally`: the program with the items that are accepted in it; `emits_tally`.
* `Op`: a program on a world that may fail; `Op.emits_bind`, `Op.Silent`, `Op.Never`; `Op.Erases`: a part
  of the world without a part in the operation.
-/

/-- A program that hands items `δ` to a listener, whose refusals are `ε`. -/
inductive Emitter (δ ε α : Type) where
  | done (a : α)
  | emit (item : δ) (next : Except ε Unit → Emitter δ ε α)

namespace Emitter

variable {δ ε α β γ σ : Type}

def bind : Emitter δ ε α → (α → Emitter δ ε β) → Emitter δ ε β
  | done a, f => f a
  | emit item next, f => emit item fun answer => (next answer).bind f

@[simp] theorem done_bind (a : α) (f : α → Emitter δ ε β) : (done a).bind f = f a := rfl

@[simp] theorem emit_bind (item : δ) (next : Except ε Unit → Emitter δ ε α) (f : α → Emitter δ ε β) :
    (emit item next).bind f = emit item fun answer => (next answer).bind f := rfl

@[simp] theorem bind_done (t : Emitter δ ε α) : t.bind done = t := by
  induction t with
  | done a => rfl
  | emit item next ih =>
    rw [emit_bind]
    congr 1
    funext answer
    exact ih answer

theorem bind_assoc (t : Emitter δ ε α) (f : α → Emitter δ ε β) (g : β → Emitter δ ε γ) :
    (t.bind f).bind g = t.bind fun a => (f a).bind g := by
  induction t with
  | done a => rfl
  | emit item next ih =>
    simp only [emit_bind]
    congr 1
    funext answer
    exact ih answer

/-- The program with its value seen through `f`. -/
def map (f : α → β) (t : Emitter δ ε α) : Emitter δ ε β := t.bind fun a => done (f a)

@[simp] theorem map_done (f : α → β) (a : α) : (done a : Emitter δ ε α).map f = done (f a) := rfl

@[simp] theorem map_emit (f : α → β) (item : δ) (next : Except ε Unit → Emitter δ ε α) :
    (emit item next).map f = emit item fun answer => (next answer).map f := rfl

theorem map_bind (t : Emitter δ ε α) (f : α → Emitter δ ε β) (g : β → γ) :
    (t.bind f).map g = t.bind fun a => (f a).map g := bind_assoc t f _

theorem bind_map (t : Emitter δ ε α) (f : α → β) (g : β → Emitter δ ε γ) :
    (t.map f).bind g = t.bind fun a => g (f a) := bind_assoc t _ g

/-! ## Ways through a program -/

/-- On some way through the program the items are accepted, in this order, and the value is `a`. -/
inductive Emits : Emitter δ ε α → List δ → α → Prop
  | done (a : α) : Emits (done a) [] a
  | accepted {item : δ} {next : Except ε Unit → Emitter δ ε α} {items : List δ} {a : α}
      (h : Emits (next (.ok ())) items a) : Emits (emit item next) (item :: items) a
  | refused {item : δ} {next : Except ε Unit → Emitter δ ε α} {items : List δ} {a : α} (e : ε)
      (h : Emits (next (.error e)) items a) : Emits (emit item next) items a

@[simp] theorem emits_done {a b : α} {items : List δ} :
    Emits (done a : Emitter δ ε α) items b ↔ items = [] ∧ b = a := by
  constructor
  · rintro ⟨⟩
    exact ⟨rfl, rfl⟩
  · rintro ⟨rfl, rfl⟩
    exact .done b

theorem emits_bind {t : Emitter δ ε α} {f : α → Emitter δ ε β} {items : List δ} {b : β} :
    Emits (t.bind f) items b ↔
      ∃ l a r, Emits t l a ∧ Emits (f a) r b ∧ items = l ++ r := by
  constructor
  · intro h
    induction t generalizing items with
    | done a => exact ⟨[], a, items, .done a, h, rfl⟩
    | emit item next ih =>
      cases h with
      | accepted h =>
        obtain ⟨l, a, r, hl, hr, rfl⟩ := ih _ h
        exact ⟨item :: l, a, r, .accepted hl, hr, rfl⟩
      | refused e h =>
        obtain ⟨l, a, r, hl, hr, rfl⟩ := ih _ h
        exact ⟨l, a, r, .refused e hl, hr, rfl⟩
  · rintro ⟨l, a, r, hl, hr, rfl⟩
    induction hl with
    | done a => exact hr
    | accepted _ ih => exact .accepted (ih hr)
    | refused e _ ih => exact .refused e (ih hr)

theorem emits_map {t : Emitter δ ε α} {f : α → β} {items : List δ} {b : β} :
    Emits (t.map f) items b ↔ ∃ a, Emits t items a ∧ b = f a := by
  rw [map, emits_bind]
  constructor
  · rintro ⟨l, a, r, hl, hr, rfl⟩
    obtain ⟨rfl, rfl⟩ := emits_done.mp hr
    rw [List.append_nil]
    exact ⟨a, hl, rfl⟩
  · rintro ⟨a, h, rfl⟩
    exact ⟨items, a, [], h, .done _, (List.append_nil _).symm⟩

/-! ## Runs -/

/-- The value, the accepted items and the listener's state after a run. -/
structure Outcome (δ α σ : Type) where
  value : α
  accepted : List δ
  state : σ

/-- Run the program against a listener. -/
def run (listen : δ → σ → Except ε Unit × σ) : Emitter δ ε α → σ → Outcome δ α σ
  | done a, s => ⟨a, [], s⟩
  | emit item next, s =>
    match listen item s with
    | (.ok (), s') =>
      let r := run listen (next (.ok ())) s'
      ⟨r.value, item :: r.accepted, r.state⟩
    | (.error e, s') => run listen (next (.error e)) s'

variable {listen : δ → σ → Except ε Unit × σ}

/-- **A run is a way through the program.** -/
theorem emits_run (t : Emitter δ ε α) (s : σ) :
    Emits t (run listen t s).accepted (run listen t s).value := by
  induction t generalizing s with
  | done a => exact .done a
  | emit item next ih =>
    rw [run]
    rcases listen item s with ⟨_ | _, s'⟩
    · exact .refused _ (ih _ s')
    · exact .accepted (ih _ s')

theorem run_bind (t : Emitter δ ε α) (f : α → Emitter δ ε β) (s : σ) : run listen (t.bind f) s =
    let r := run listen t s
    let q := run listen (f r.value) r.state
    ⟨q.value, r.accepted ++ q.accepted, q.state⟩ := by
  induction t generalizing s with
  | done a => rfl
  | emit item next ih =>
    rw [emit_bind, run, run]
    rcases listen item s with ⟨_ | _, s'⟩
    · exact ih _ s'
    · dsimp only
      rw [ih _ s']
      rfl

/-! ## The items that are accepted -/

/-- The program, with the items that are accepted in it beside its value. -/
def tally : Emitter δ ε α → Emitter δ ε (α × List δ)
  | done a => done (a, [])
  | emit item next => emit item fun
    | .ok () => (tally (next (.ok ()))).bind fun r => done (r.1, item :: r.2)
    | .error e => tally (next (.error e))

theorem emits_tally {t : Emitter δ ε α} {items : List δ} {a : α} {taken : List δ} :
    Emits (tally t) items (a, taken) ↔ taken = items ∧ Emits t items a := by
  constructor
  · intro h
    induction t generalizing items a taken with
    | done b =>
      obtain ⟨rfl, he⟩ := emits_done.mp h
      cases he
      exact ⟨rfl, .done b⟩
    | emit item next ih =>
      rw [tally] at h
      cases h with
      | accepted h =>
        obtain ⟨l, ⟨b, taken'⟩, r, hl, hr, rfl⟩ := emits_bind.mp h
        obtain ⟨rfl, he⟩ := emits_done.mp hr
        cases he
        obtain ⟨rfl, hb⟩ := ih _ hl
        rw [List.append_nil]
        exact ⟨rfl, .accepted hb⟩
      | refused e h =>
        obtain ⟨rfl, hb⟩ := ih _ h
        exact ⟨rfl, .refused e hb⟩
  · rintro ⟨rfl, h⟩
    induction h with
    | done a => exact .done _
    | @accepted item next items a _ ih =>
      rw [tally]
      refine .accepted (emits_bind.mpr ⟨items, (a, items), [], ih, .done _, ?_⟩)
      rw [List.append_nil]
    | refused e _ ih =>
      rw [tally]
      exact .refused e ih

theorem tally_map (t : Emitter δ ε α) (f : α → β) :
    tally (t.map f) = (tally t).map fun r => (f r.1, r.2) := by
  induction t with
  | done a => rfl
  | emit item next ih =>
    rw [map_emit, tally, tally, map_emit]
    congr 1
    funext answer
    cases answer with
    | ok _ =>
      dsimp only
      rw [ih, map_bind, bind_map]
      rfl
    | error e => exact ih _

theorem map_tally (t : Emitter δ ε α) : (tally t).map Prod.fst = t := by
  induction t with
  | done a => rfl
  | emit item next ih =>
    rw [tally, map_emit]
    congr 1
    funext answer
    cases answer with
    | ok _ =>
      dsimp only
      rw [map_bind]
      exact ih _
    | error e => exact ih _

theorem run_map (t : Emitter δ ε α) (f : α → β) (s : σ) : run listen (t.map f) s =
    ⟨f (run listen t s).value, (run listen t s).accepted, (run listen t s).state⟩ := by
  rw [map, run_bind]
  dsimp only
  rw [run, List.append_nil]

/-! ## Operations -/

/-- An operation on a world `ω` that may fail with `φ`. -/
def Op (ω δ ε φ α : Type) := ω → Emitter δ ε (Except φ α × ω)

namespace Op

variable {ω φ : Type}

/-- Go on after a success. -/
def andThen (op : Op ω δ ε φ α) (f : α → Op ω δ ε φ β) : Op ω δ ε φ β := fun w =>
  (op w).bind fun
    | (.ok a, w') => f a w'
    | (.error e, w') => done (.error e, w')

instance : Monad (Op ω δ ε φ) where
  pure a := fun w => done (.ok a, w)
  bind := andThen

instance : LawfulMonad (Op ω δ ε φ) := LawfulMonad.mk' _
  (by
    intro α op
    funext w
    change (op w).bind _ = op w
    conv_rhs => rw [← bind_done (op w)]
    congr 1
    funext r
    obtain ⟨_ | _, _⟩ := r <;> rfl)
  (fun _ _ => rfl)
  (by
    intro α β γ op f g
    funext w
    change ((op w).bind _).bind _ = (op w).bind _
    rw [Emitter.bind_assoc]
    congr 1
    funext r
    obtain ⟨_ | _, _⟩ := r <;> rfl)

def fail (e : φ) : Op ω δ ε φ α := fun w => done (.error e, w)

/-- On some way the operation takes the world from `w` to `w'`, accepted items and result given. -/
def Emits (op : Op ω δ ε φ α) (w : ω) (items : List δ) (r : Except φ α) (w' : ω) : Prop :=
  Emitter.Emits (op w) items (r, w')

variable {w w' : ω} {items : List δ}

@[simp] theorem emits_pure {a : α} {r : Except φ α} :
    Emits (pure a : Op ω δ ε φ α) w items r w' ↔ items = [] ∧ r = .ok a ∧ w' = w := by
  refine emits_done.trans ?_
  rw [Prod.mk.injEq]

@[simp] theorem emits_fail {e : φ} {r : Except φ α} :
    Emits (fail e : Op ω δ ε φ α) w items r w' ↔ items = [] ∧ r = .error e ∧ w' = w := by
  refine emits_done.trans ?_
  rw [Prod.mk.injEq]

theorem emits_bind {op : Op ω δ ε φ α} {f : α → Op ω δ ε φ β} {r : Except φ β} :
    Emits (op >>= f) w items r w' ↔
      (∃ l a w₁ l', Emits op w l (.ok a) w₁ ∧ Emits (f a) w₁ l' r w' ∧ items = l ++ l') ∨
        ∃ e, Emits op w items (.error e) w' ∧ r = .error e := by
  constructor
  · intro h
    obtain ⟨l, ⟨_ | a, w₁⟩, l', hl, hr, rfl⟩ := Emitter.emits_bind.mp h
    · obtain ⟨rfl, he⟩ := emits_done.mp hr
      cases he
      rw [List.append_nil]
      exact .inr ⟨_, hl, rfl⟩
    · exact .inl ⟨l, a, w₁, l', hl, hr, rfl⟩
  · rintro (⟨l, a, w₁, l', hl, hr, rfl⟩ | ⟨e, hl, rfl⟩)
    · exact Emitter.emits_bind.mpr ⟨l, (.ok a, w₁), l', hl, hr, rfl⟩
    · exact Emitter.emits_bind.mpr ⟨items, (.error e, w'), [], hl, .done _, (List.append_nil _).symm⟩

theorem emits_bind_ok {op : Op ω δ ε φ α} {f : α → Op ω δ ε φ β} {b : β}
    (h : Emits (op >>= f) w items (.ok b) w') : ∃ l a w₁ l', Emits op w l (.ok a) w₁ ∧
      Emits (f a) w₁ l' (.ok b) w' ∧ items = l ++ l' := by
  rcases emits_bind.mp h with h | ⟨e, -, he⟩
  · exact h
  · cases he

theorem bind_done_ok {op : Op ω δ ε φ α} {f : α → Op ω δ ε φ β} {a : α} (h : op w = done (.ok a, w')) :
    (op >>= f) w = f a w' := by
  show (op w).bind _ = _
  rw [h]
  rfl

theorem bind_done_error {op : Op ω δ ε φ α} {f : α → Op ω δ ε φ β} {e : φ}
    (h : op w = done (.error e, w')) : (op >>= f) w = done (.error e, w') := by
  show (op w).bind _ = _
  rw [h]
  rfl

theorem run_bind_ok {σ : Type} {listen : δ → σ → Except ε Unit × σ} {op : Op ω δ ε φ α}
    {f : α → Op ω δ ε φ β} {a : α} {s : σ} (h : (run listen (op w) s).value = (.ok a, w')) :
    run listen ((op >>= f) w) s =
      let q := run listen (f a w') (run listen (op w) s).state
      ⟨q.value, (run listen (op w) s).accepted ++ q.accepted, q.state⟩ := by
  show run listen ((op w).bind _) s = _
  rw [run_bind]
  dsimp only
  rw [h]

/-- The operation emits nothing. -/
def Silent (op : Op ω δ ε φ α) : Prop := ∀ w items r w', Emits op w items r w' → items = []

theorem silent_pure (a : α) : Silent (pure a : Op ω δ ε φ α) :=
  fun _ _ _ _ h => (emits_pure.mp h).1

theorem silent_fail (e : φ) : Silent (fail e : Op ω δ ε φ α) :=
  fun _ _ _ _ h => (emits_fail.mp h).1

theorem Silent.bind {op : Op ω δ ε φ α} {f : α → Op ω δ ε φ β} (h : Silent op)
    (hf : ∀ a, Silent (f a)) : Silent (op >>= f) := by
  intro w items r w' hr
  rcases emits_bind.mp hr with ⟨l, a, w₁, l', hl, hrest, rfl⟩ | ⟨e, hl, -⟩
  · rw [h _ _ _ _ hl, hf a _ _ _ _ hrest, List.append_nil]
  · exact h _ _ _ _ hl

/-- The operation never fails with `e`, whatever the listener answers. -/
def Never (e : φ) (op : Op ω δ ε φ α) : Prop := ∀ w items w', ¬ Emits op w items (.error e) w'

theorem never_pure (e : φ) (a : α) : Never e (pure a : Op ω δ ε φ α) := by
  intro w items w' h
  cases (emits_pure.mp h).2.1

theorem never_fail {e e' : φ} (h : e ≠ e') : Never e (fail e' : Op ω δ ε φ α) := by
  intro w items w' hr
  exact h (Except.error.inj (emits_fail.mp hr).2.1)

theorem Never.bind {e : φ} {op : Op ω δ ε φ α} {f : α → Op ω δ ε φ β} (h : Never e op)
    (hf : ∀ w items a w', Emits op w items (.ok a) w' → Never e (f a)) : Never e (op >>= f) := by
  intro w items w' hr
  rcases emits_bind.mp hr with ⟨l, a, w₁, l', hl, hrest, -⟩ | ⟨e', hl, he⟩
  · exact hf _ _ _ _ hl _ _ _ hrest
  · obtain rfl := Except.error.inj he
    exact h _ _ _ hl

theorem bind_pure (op : Op ω δ ε φ α) : (op >>= pure) = op := by
  funext w
  show (op w).bind _ = op w
  conv_rhs => rw [← bind_done (op w)]
  congr 1
  funext ⟨r, w'⟩
  cases r <;> rfl

theorem bind_assoc (op : Op ω δ ε φ α) (f : α → Op ω δ ε φ β) (g : β → Op ω δ ε φ γ) :
    (op >>= f) >>= g = op >>= fun a => f a >>= g := by
  funext w
  show ((op w).bind _).bind _ = (op w).bind _
  rw [Emitter.bind_assoc]
  congr 1
  funext ⟨r, w'⟩
  cases r <;> rfl

/-! ### Erasure -/

variable {ω' : Type} {forget : ω' → ω}

/-- What `forget` drops of the world has no part in the operation. -/
def Erases (forget : ω' → ω) (op : Op ω' δ ε φ α) (op' : Op ω δ ε φ α) : Prop :=
  ∀ w, (op w).map (fun r => (r.1, forget r.2)) = op' (forget w)

theorem Erases.pure (a : α) :
    Erases forget (pure a : Op ω' δ ε φ α) (pure a) := fun _ => rfl

theorem Erases.fail (e : φ) :
    Erases forget (fail e : Op ω' δ ε φ α) (fail e) := fun _ => rfl

theorem Erases.bind {op : Op ω' δ ε φ α} {op' : Op ω δ ε φ α} {f : α → Op ω' δ ε φ β}
    {f' : α → Op ω δ ε φ β} (h : Erases forget op op') (hf : ∀ a, Erases forget (f a) (f' a)) :
    Erases forget (op >>= f) (op' >>= f') := by
  intro w
  show ((op w).bind _).map _ = (op' (forget w)).bind _
  rw [← h w, map_bind, bind_map]
  congr 1
  funext ⟨r, w₁⟩
  cases r with
  | error e => rfl
  | ok a => exact hf a w₁

end Op

end Emitter
