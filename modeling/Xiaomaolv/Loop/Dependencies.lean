import Xiaomaolv.Loop.Ownership

/-!
# The order of the dependencies

* `WorkItemRow.isCleared`: the item has been let through; only an unlock clears one (`Step.cleared`).
* `Ordered`: the items that a cleared item depends on have succeeded; **`ordered_exec`**: every
  transaction keeps it.
* **`dependency_order`**: an attempt is created only after the dependencies of its item have
  succeeded, and they stay succeeded.
-/

namespace Xiaomaolv

open Table LoopStore

/-- The item has left `pending` for work. A `blocked` item with an error was running or ready once: the
items blocked before they were ready carry none. -/
def WorkItemRow.isCleared (w : WorkItemRow) : Bool :=
  match w.status with
  | .ready | .running | .waitingConfirmation | .succeeded => true
  | .blocked => w.lastError.isSome
  | _ => false

namespace Life

variable {l l' : Life} {e : Event}

theorem cleared_of_status {st : WorkItemStatus} (h : l.item.status = st)
    (hst : st = .ready ∨ st = .running ∨ st = .waitingConfirmation ∨ st = .succeeded) :
    l.item.isCleared = true := by
  rw [WorkItemRow.isCleared, h]
  rcases hst with rfl | rfl | rfl | rfl <;> rfl

/-- A pending item carries no error. -/
def Quiet (l : Life) : Prop := l.item.status = .pending → l.item.lastError = none

theorem quiet_new (h : l.IsNew) : l.Quiet := fun _ => h.item.lastError

theorem Step.pending (h : l.Step e l') (hp : l'.item.status = .pending) :
    l.item.status = .pending ∧ l'.item.lastError = l.item.lastError := by
  cases h with
  | unlock | block | requeue | claim => cases hp
  | renew | progress | prepare | commit => exact ⟨hp, rfl⟩
  | reconcile c =>
    simp only [Life.reconcile] at hp ⊢
    split at hp
    · cases hp
    · rename_i hrun
      rw [if_neg hrun]
      exact ⟨hp, rfl⟩
  | release a r _ hstatus =>
    rcases hstatus with hst | hst | hst <;> cases hst.symm.trans hp
  | lapse =>
    rcases lapse_status l.expired with hst | hst | hst <;> cases hst.symm.trans hp
  | verdict a c resolution reason exhausted =>
    rcases verdict_status resolution exhausted with hst | hst | hst <;> cases hst.symm.trans hp
  | close error attemptError status hstatus =>
    simp only [Life.close] at hp
    split at hp
    · rename_i hkept
      rw [hp] at hkept
      rcases hstatus with rfl | rfl <;> simp at hkept
    · rcases hstatus with rfl | rfl <;> cases hp

theorem Step.quiet (h : l.Step e l') (hl : l.Quiet) : l'.Quiet := by
  intro hp
  obtain ⟨hp₀, he⟩ := h.pending hp
  rw [he]
  exact hl hp₀

/-- **Only an unlock clears an item.** -/
theorem Step.cleared (h : l.Step e l') (hl : l.Quiet) (hc : l'.item.isCleared = true) :
    l.item.isCleared = true ∨ e = .unlock := by
  cases h with
  | unlock => exact .inr rfl
  | block h =>
    left
    rcases h with h | h
    · -- A pending item is blocked without an error, and such an item is not cleared.
      have hnone : l.item.lastError.isSome = true := hc
      rw [hl h] at hnone
      cases hnone
    · exact cleared_of_status h (by decide)
  | requeue h he =>
    left
    rw [WorkItemRow.isCleared, h]
    exact Option.isSome_iff_ne_none.mpr he
  | claim _ _ h => exact .inl (cleared_of_status h (by decide))
  | renew _ h => exact .inl (cleared_of_status h (by decide))
  | progress _ _ h | prepare _ _ h | commit _ _ _ h | release _ _ h =>
    exact .inl (cleared_of_status h.running (by decide))
  | reconcile c =>
    left
    by_cases hrun : l.item.status = .running
    · exact cleared_of_status hrun (by decide)
    · simp only [Life.reconcile, if_neg hrun] at hc
      exact hc
  | lapse _ h => exact .inl (cleared_of_status h (by decide))
  | verdict _ _ _ _ _ _ h => exact .inl (cleared_of_status h (by decide))
  | close error attemptError status h =>
    left
    simp only [Life.close] at hc
    split at hc
    · exact hc
    · rcases h with rfl | rfl <;> cases hc

theorem Step.succeeded (h : l.Step e l') (hs : l.item.status = .succeeded) :
    l'.item.status = .succeeded := by
  have hne : ∀ st : WorkItemStatus, st ≠ .succeeded → l.item.status ≠ st :=
    fun st hst heq => hst (heq.symm.trans hs)
  cases h with
  | unlock h => exact absurd h (hne _ (by decide))
  | block h => exact absurd h (not_or.mpr ⟨hne _ (by decide), hne _ (by decide)⟩)
  | requeue h => exact absurd h (hne _ (by decide))
  | claim _ _ h => exact absurd h (hne _ (by decide))
  | renew _ h => exact absurd h (hne _ (by decide))
  | progress _ _ h | prepare _ _ h | commit _ _ _ h | release _ _ h =>
    exact absurd h.running (hne _ (by decide))
  | reconcile c =>
    simp only [Life.reconcile]
    rw [if_neg (hne _ (by decide))]
    exact hs
  | lapse _ h => exact absurd h (hne _ (by decide))
  | verdict _ _ _ _ _ _ h => exact absurd h (hne _ (by decide))
  | close error attemptError status =>
    simp only [Life.close]
    rw [if_pos (by rw [hs]; exact List.mem_cons_self)]
    exact hs

/-- An item that is cleared at the end of a path, or that is claimed on it, was cleared before or is
unlocked on it. -/
theorem Path.cleared {es : List Event} (h : Path l es l') (hl : l.Quiet)
    (h' : l'.item.isCleared = true ∨ l'.attempts.map (·.id) ≠ l.attempts.map (·.id)) :
    l.item.isCleared = true ∨ .unlock ∈ es := by
  induction h with
  | nil => exact .inl (h'.resolve_right (fun hne => hne rfl))
  | @cons l l₁ l' e es hstep _ ih =>
    rcases hstep.attemptIds with hids | hready
    · rw [← hids] at h'
      rcases ih (hstep.quiet hl) h' with hc | hmem
      · rcases hstep.cleared hl hc with hc | rfl
        · exact .inl hc
        · exact .inr List.mem_cons_self
      · exact .inr (List.mem_cons_of_mem _ hmem)
    · exact .inl (cleared_of_status hready (by decide))

end Life

/-! ## The items that an item depends on -/

namespace Store

/-- The item `id` has succeeded. -/
def HasSucceeded (s : Store) (id : String) : Prop :=
  ∃ p ∈ s.workItems, p.id = id ∧ p.status = .succeeded

/-- Every item that `id` depends on has succeeded. -/
def DependenciesSucceeded (s : Store) (id : String) : Prop :=
  ∀ d ∈ s.dependencies, d.workItemId = id → s.HasSucceeded d.dependsOnWorkItemId

/-- The items that a cleared item depends on have succeeded. -/
structure Ordered (s : Store) : Prop where
  quiet : s.Lives Life.Quiet
  cleared : ∀ w ∈ s.workItems, w.isCleared = true → s.DependenciesSucceeded w.id

theorem ordered_empty : Ordered .empty := ⟨lives_empty _, by simp [empty]⟩

end Store

section

variable {enc : Encoding} {s s' : Store} {t : Txn} {id : String}

theorem dependenciesSucceeded_of_closed (hw : WellFormed s) (h : s.hasOpenPredecessor id = false) :
    s.DependenciesSucceeded id := by
  intro d hd hid
  obtain ⟨-, -, p, hp, -, hpid, -⟩ := hw.dependencyItems d hd
  refine ⟨p, hp, hpid, ?_⟩
  by_contra hst
  refine List.any_eq_false.mp h d hd ?_
  rw [hid, decide_eq_true rfl, Bool.true_and]
  exact List.any_eq_true.mpr ⟨p, hp, decide_eq_true ⟨hpid, hst⟩⟩

variable (enc) in
theorem hasSucceeded_exec (hw : WellFormed s) (h : s.HasSucceeded id) (t : Txn) :
    (exec enc s t).HasSucceeded id := by
  obtain ⟨p, hp, rfl, hst⟩ := h
  obtain ⟨l', hl', hst'⟩ := life_keeps (t := t) (I := fun l => l.item.status = .succeeded)
    (fun _ _ _ (_ : True) hI hstep => hstep.succeeded hI) hw (hw.life? hp)
    (fun _ _ _ _ => trivial) hst
  obtain ⟨hm, hid⟩ := life_item hl'
  exact ⟨l'.item, hm, hid, hst'⟩

variable (enc) in
theorem hasSucceeded_run (hw : WellFormed s) (h : s.HasSucceeded id) (ts : List Txn) :
    (Machine.run (exec enc) s ts).HasSucceeded id := by
  have hrun : WellFormed (Machine.run (exec enc) s ts) ∧
      (Machine.run (exec enc) s ts).HasSucceeded id :=
    Machine.run_invariant' (I := fun s => WellFormed s ∧ s.HasSucceeded id)
      (fun s t hI => ⟨wellFormed_exec t hI.1, hasSucceeded_exec enc hI.1 hI.2 t⟩) ⟨hw, h⟩
  exact hrun.2

theorem dependency_old (hw : WellFormed s) (ht : s.apply enc t = .ok s') {w : WorkItemRow}
    (hwm : w ∈ s.workItems) {d : DependencyRow} (hd : d ∈ s'.dependencies) (hid : d.workItemId = w.id) :
    d ∈ s.dependencies := by
  cases created_apply ht with
  | none _ hdeps => rwa [hdeps] at hd
  | batch new ds hi hdeps _ _ _ hds =>
    rw [hdeps] at hd
    rcases List.mem_append.mp hd with hd | hd
    · exact hd
    · obtain ⟨x, hx, hxid, -⟩ := hds d hd
      have hnodup := (wellFormed_apply hw ht).itemIds
      rw [hi, List.map_append, List.nodup_append] at hnodup
      exact absurd (hid.symm.trans hxid.symm)
        (hnodup.2.2 _ (List.mem_map_of_mem hwm) _ (List.mem_map_of_mem hx))

theorem dependenciesSucceeded_apply (hw : WellFormed s) (ho : s.Ordered) (ht : s.apply enc t = .ok s')
    {l l' : Life} (hl : s.life? id = some l) (hl' : s'.life? id = some l')
    (h : l'.item.isCleared = true ∨ l'.attempts.map (·.id) ≠ l.attempts.map (·.id)) :
    s'.DependenciesSucceeded id := by
  obtain ⟨es, l₁, h₁, hpath, -, hunlock⟩ := life_apply hw hl ht
  cases h₁.symm.trans hl'
  rcases hpath.cleared (ho.quiet id l hl) h with hc | hmem
  · obtain ⟨hwm, rfl⟩ := life_item hl
    intro d hd hid
    have hs := ho.cleared _ hwm hc d (dependency_old hw ht hwm hd hid) hid
    have he := hasSucceeded_exec enc hw hs t
    rwa [exec_of_ok ht] at he
  · exact dependenciesSucceeded_of_closed (wellFormed_apply hw ht) (hunlock hmem)

theorem dependenciesSucceeded_born (hw : WellFormed s) (ht : s.apply enc t = .ok s') {w : WorkItemRow}
    (hwm : w ∈ s'.workItems) (hnew : s.life? w.id = none) (hc : w.isCleared = true) :
    s'.DependenciesSucceeded w.id := by
  rw [life?_eq_none, workItem?_eq_none] at hnew
  intro d hd hid
  have hold : d ∉ s.dependencies := by
    intro hd
    obtain ⟨x, hx, -, -, hxid, -⟩ := hw.dependencyItems d hd
    exact hnew (List.mem_map.mpr ⟨x, hx, hxid.trans hid⟩)
  cases created_apply ht with
  | none _ hdeps => exact absurd (hdeps ▸ hd) hold
  | batch new ds hi hdeps _ _ _ hds =>
    rw [hdeps] at hd
    obtain ⟨x, hx, hxid, hpending⟩ := hds d ((List.mem_append.mp hd).resolve_left hold)
    have hxw : x = w := (wellFormed_apply hw ht).item_eq
      (by rw [hi]; exact List.mem_append_right _ hx) hwm (hxid.trans hid)
    rw [hxw] at hpending
    rw [WorkItemRow.isCleared, hpending] at hc
    cases hc

theorem dependenciesSucceeded_attempt (hw : WellFormed s) (ho : s.Ordered) {a : AttemptRow}
    (ha : a ∈ (exec enc s t).attempts) (hnew : ∀ b ∈ s.attempts, b.id ≠ a.id) :
    (exec enc s t).DependenciesSucceeded a.workItemId := by
  rcases exec_cases enc s t with he | ht
  · rw [he] at ha
    exact absurd rfl (hnew a ha)
  · have hw' : WellFormed (exec enc s t) := wellFormed_exec t hw
    obtain ⟨w, hwm, hwi, -⟩ := hw'.attemptItem a ha
    have hl' := hw'.life? hwm
    have ham := (mem_life_attempts hl').mpr ⟨ha, hwi.symm⟩
    rw [← hwi]
    cases hl : s.life? w.id with
    | none =>
      rw [(life_born hw ht hl hl').attempts] at ham
      cases ham
    | some l =>
      refine dependenciesSucceeded_apply hw ho ht hl hl' (.inr fun hids => ?_)
      obtain ⟨b, hb, hbid⟩ := List.mem_map.mp (hids ▸ List.mem_map_of_mem ham)
      exact hnew b ((mem_life_attempts hl).mp hb).1 hbid

/-- **Every transaction keeps the order.** -/
theorem ordered_exec (hw : WellFormed s) (t : Txn) (ho : s.Ordered) : (exec enc s t).Ordered := by
  refine exec_keeps ho fun s' ht => ⟨?_, fun w hwm hc => ?_⟩
  · rw [← exec_of_ok ht]
    exact lives_exec (fun _ hnew => Life.quiet_new hnew)
      (fun _ _ _ (_ : True) hl hstep => hstep.quiet hl) hw (fun _ _ _ _ _ => trivial) ho.quiet
  · cases hl : s.life? w.id with
    | none => exact dependenciesSucceeded_born hw ht hwm hl hc
    | some l =>
      have hl' := (wellFormed_apply hw ht).life? hwm
      exact dependenciesSucceeded_apply hw ho ht hl hl' (.inl hc)

end

/-- An item of the status has been let through to work. -/
def WorkItemStatus.isStarted : WorkItemStatus → Bool
  | ready | running | waitingConfirmation | succeeded => true
  | _ => false

/-- **Dependency order**, over every run `ts`, next transaction `t` and continuation `us`: when `t` creates
an attempt, every item that its item depends on has succeeded and stays succeeded; and all that a
started item depends on has succeeded. -/
theorem dependency_order (enc : Encoding) (ts : List Txn) (t : Txn) (us : List Txn) :
    (∀ a ∈ (exec enc (Machine.run (exec enc) .empty ts) t).attempts,
      (∀ b ∈ (Machine.run (exec enc) .empty ts).attempts, b.id ≠ a.id) →
      (exec enc (Machine.run (exec enc) .empty ts) t).DependenciesSucceeded a.workItemId ∧
      ∀ d ∈ (exec enc (Machine.run (exec enc) .empty ts) t).dependencies, d.workItemId = a.workItemId →
        (Machine.run (exec enc) .empty (ts ++ t :: us)).HasSucceeded d.dependsOnWorkItemId) ∧
    ∀ w ∈ (Machine.run (exec enc) .empty ts).workItems, w.status.isStarted = true →
      (Machine.run (exec enc) .empty ts).DependenciesSucceeded w.id := by
  obtain ⟨hw, ho⟩ : WellFormed (Machine.run (exec enc) .empty ts) ∧
      (Machine.run (exec enc) .empty ts).Ordered :=
    Machine.run_invariant' (I := fun s => WellFormed s ∧ s.Ordered)
      (fun s t h => ⟨wellFormed_exec t h.1, ordered_exec h.1 t h.2⟩)
      ⟨wellFormed_empty, Store.ordered_empty⟩
  rw [Machine.run_append, Machine.run_cons]
  generalize Machine.run (exec enc) .empty ts = s at hw ho ⊢
  refine ⟨fun a ha hnew => ?_, fun w hwm hst => ho.cleared w hwm ?_⟩
  · have hs := dependenciesSucceeded_attempt hw ho ha hnew
    exact ⟨hs, fun d hd hid => hasSucceeded_run enc (wellFormed_exec t hw) (hs d hd hid) us⟩
  · rw [WorkItemRow.isCleared]
    cases hw : w.status <;> rw [hw] at hst <;> first | rfl | cases hst

end Xiaomaolv
