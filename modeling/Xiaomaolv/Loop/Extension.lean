import Xiaomaolv.Loop.Gate

/-!
# Extensions of the current revision

A replan leaves the succeeded and failed items of the old revision under the same goal; an extension
is for the steps of the latest revision only.

* `extendOver`: the extension with the items it counts and resolves by as a parameter; `extendCurrent`:
  the one that sees the items of the latest plan only.
* `Clear`: the items of older plans do not get in the way.
* `Placed`: steps are unique in a plan, and the table keeps the order of the plans;
  **`placed_exec`**: every transaction keeps it.
* **`extension_scoped`**: an extension does what it would do for the current revision alone if and
  only if it is clear.
-/

namespace Xiaomaolv

open Table LoopStore

namespace LoopStore

/-- The items of the plan. -/
def ofPlan (plan : WorkflowRow) (items : List WorkItemRow) : List WorkItemRow :=
  items.filter fun w => w.workflowId = plan.id

/-- `extend_workflow`, counting and resolving by the items that `scope` lets through. -/
def extendOver (scope : WorkflowRow → List WorkItemRow → List WorkItemRow) (enc : Encoding)
    (goalId : String) (steps : List WorkflowStep) (externalWrite : ExternalWritePolicy)
    (actor : String) (workId : Nat → String) (s : Store) : Except String Store := do
  validateActor actor
  ensureValidId goalId "goal id"
  ensure (startsWith actor internalActorPrefix) "extend_workflow requires an internal actor"
  ensure (!steps.isEmpty && steps.length ≤ 32) "extend_workflow requires 1..=32 steps"
  let goal ← context (s.goal? goalId) "goal not found"
  ensure (isExtensible goal.status) "goal is not extensible"
  let plan ← context (latestWorkflow? goalId s) "goal has no workflow to extend"
  let root ← context (swarmRoot? plan.workflow)
    "approved workflow does not authorize dynamic extension"
  let maxNodes ← context ((root.input.get "max_nodes").bind Value.asU64)
    "swarm root step is missing a max_nodes budget"
  let kept := scope plan (keptItems goalId s)
  ensure (kept.length + steps.length ≤ min maxNodes 32)
    "workflow extension exceeds the approved expansion budget"
  checkExtension enc plan.effectManifest externalWrite (kept.map (·.stepId)) steps
  checkDependencies (kept.map (·.stepId)) steps
  let base := nextOrdinal goalId s
  ensure (base + steps.length ≤ 2 ^ 32) "invalid work item ordinal"
  let workItems ← materializeItems (extendedItem goalId plan.id workId base) 0 steps s.workItems
  let new ← batchDependencies goalId workId steps (scope plan workItems) 0 steps
  let dependencies ← insertDependencies "failed to materialize extended dependency" new
    s.dependencies
  let s : Store := { s with workItems, dependencies }.insertEvent goalId "workflow.extended" actor
  pure (s.refreshGoalStatus goalId)

/-- The extension that sees the items of the latest plan only. -/
def extendCurrent : Encoding → String → List WorkflowStep → ExternalWritePolicy → String →
    (Nat → String) → Store → Except String Store :=
  extendOver ofPlan

theorem extendWorkflow_eq : extendWorkflow = extendOver fun _ items => items := rfl

end LoopStore

/-! ## Checks under another scope -/

section Checks

variable {enc : Encoding} {manifest : List EffectClass} {externalWrite : ExternalWritePolicy}
  {seen seen' : List String} {steps : List WorkflowStep}

theorem checkExtension_mono (h : ∀ step ∈ steps, step.id ∈ seen' → step.id ∈ seen)
    (hc : checkExtension enc manifest externalWrite seen steps = .ok ()) :
    checkExtension enc manifest externalWrite seen' steps = .ok () := by
  induction steps generalizing seen seen' with
  | nil => rfl
  | cons x steps ih =>
    rw [checkExtension] at hc ⊢
    simp only [ensure_bind_eq_ok] at hc ⊢
    obtain ⟨hid, hfresh, h₁, h₂, h₃, h₄, h₅, h₆, hc⟩ := hc
    refine ⟨hid, ?_, h₁, h₂, h₃, h₄, h₅, h₆, ih (fun step hs hmem => ?_) hc⟩
    · have hx := h x List.mem_cons_self
      simp only [Bool.not_eq_true', List.contains_eq_mem, decide_eq_false_iff_not] at hfresh ⊢
      exact fun hmem => hfresh (hx hmem)
    · rcases List.mem_cons.mp hmem with he | hmem
      · exact List.mem_cons.mpr (.inl he)
      · exact List.mem_cons_of_mem _ (h step (List.mem_cons_of_mem _ hs) hmem)

theorem checkExtension_fresh (hc : checkExtension enc manifest externalWrite seen steps = .ok ()) :
    ∀ step ∈ steps, step.id ∉ seen := by
  induction steps generalizing seen with
  | nil => simp
  | cons x steps ih =>
    rw [checkExtension] at hc
    simp only [ensure_bind_eq_ok] at hc
    obtain ⟨-, hfresh, -, -, -, -, -, -, hc⟩ := hc
    intro step hs
    rcases List.mem_cons.mp hs with rfl | hs
    · simpa using hfresh
    · exact fun hmem => ih hc step hs (List.mem_cons_of_mem _ hmem)

theorem checkDependencies_cons {x : WorkflowStep} :
    checkDependencies seen (x :: steps) = .ok () ↔ (declaredDependencies x).length ≤ 16 ∧
      (∀ dep ∈ declaredDependencies x, dep ∈ seen ∧ dep ≠ x.id) ∧
      checkDependencies (x.id :: seen) steps = .ok () := by
  have hunit : ∀ (r : Except String Unit) (p : Prop), (∃ u, r = .ok u ∧ p) ↔ r = .ok () ∧ p :=
    fun r p => ⟨fun ⟨_, h⟩ => h, fun h => ⟨(), h⟩⟩
  rw [checkDependencies, ensure_bind_eq_ok, bind_eq_ok, hunit, checkAll_eq_ok]
  simp [ensure_bind_eq_ok, ensure_eq_ok]

theorem checkDependencies_mono (h : ∀ step ∈ steps, ∀ dep ∈ declaredDependencies step,
      dep ∈ seen → dep ∈ seen') (hc : checkDependencies seen steps = .ok ()) :
    checkDependencies seen' steps = .ok () := by
  induction steps generalizing seen seen' with
  | nil => rfl
  | cons x steps ih =>
    rw [checkDependencies_cons] at hc ⊢
    obtain ⟨hlen, hdeps, hc⟩ := hc
    refine ⟨hlen, fun dep hd => ?_, ih (fun step hs dep hd hmem => ?_) hc⟩
    · exact ⟨h x List.mem_cons_self dep hd (hdeps dep hd).1, (hdeps dep hd).2⟩
    · rcases List.mem_cons.mp hmem with he | hmem
      · exact List.mem_cons.mpr (.inl he)
      · exact List.mem_cons_of_mem _ (h step (List.mem_cons_of_mem _ hs) dep hd hmem)

theorem checkDependencies_known (hc : checkDependencies seen steps = .ok ()) :
    ∀ step ∈ steps, ∀ dep ∈ declaredDependencies step, dep ∈ seen ∨ ∃ x ∈ steps, x.id = dep := by
  induction steps generalizing seen with
  | nil => simp
  | cons x steps ih =>
    rw [checkDependencies_cons] at hc
    obtain ⟨-, hdeps, hc⟩ := hc
    intro step hs dep hd
    rcases List.mem_cons.mp hs with rfl | hs
    · exact .inl (hdeps dep hd).1
    · rcases ih hc step hs dep hd with hmem | ⟨y, hy, he⟩
      · rcases List.mem_cons.mp hmem with he | hmem
        · exact .inr ⟨x, List.mem_cons_self, he.symm⟩
        · exact .inl hmem
      · exact .inr ⟨y, List.mem_cons_of_mem _ hy, he⟩

end Checks

/-! ## Dependencies under another scope -/

section Resolution

variable {goalId : String} {workId : Nat → String} {batch steps : List WorkflowStep}
  {items items' : List WorkItemRow} {n : Nat}

theorem resolveDependencies_congr {id : String} {deps : List String}
    (h : ∀ dep ∈ deps, resolveDependency goalId workId batch items dep
      = resolveDependency goalId workId batch items' dep) :
    resolveDependencies goalId workId batch items id deps
      = resolveDependencies goalId workId batch items' id deps := by
  induction deps with
  | nil => rfl
  | cons dep deps ih =>
    rw [resolveDependencies, resolveDependencies, h dep List.mem_cons_self,
      ih fun d hd => h d (List.mem_cons_of_mem _ hd)]

theorem batchDependencies_congr
    (h : ∀ step ∈ steps, ∀ dep ∈ declaredDependencies step,
      resolveDependency goalId workId batch items dep
        = resolveDependency goalId workId batch items' dep) :
    batchDependencies goalId workId batch items n steps
      = batchDependencies goalId workId batch items' n steps := by
  induction steps generalizing n with
  | nil => rfl
  | cons step steps ih =>
    rw [batchDependencies, batchDependencies, resolveDependencies_congr (h step List.mem_cons_self),
      ih fun x hx => h x (List.mem_cons_of_mem _ hx)]

theorem length_resolveDependencies {id : String} {deps : List String} {ds : List DependencyRow}
    (h : resolveDependencies goalId workId batch items id deps = .ok ds) :
    ds.length = deps.length := by
  induction deps generalizing ds with
  | nil =>
    cases h
    rfl
  | cons dep deps ih =>
    rw [resolveDependencies] at h
    simp only [bind_eq_ok, pure_eq_ok] at h
    obtain ⟨source, -, rest, hrest, rfl⟩ := h
    rw [List.length_cons, List.length_cons, ih hrest]

theorem resolveDependencies_inj {id : String} {deps : List String} {ds : List DependencyRow}
    (h : resolveDependencies goalId workId batch items id deps = .ok ds)
    (h' : resolveDependencies goalId workId batch items' id deps = .ok ds) :
    ∀ dep ∈ deps, ∃ source, resolveDependency goalId workId batch items dep = .ok source ∧
      resolveDependency goalId workId batch items' dep = .ok source ∧ ⟨id, source⟩ ∈ ds := by
  induction deps generalizing ds with
  | nil => simp
  | cons dep deps ih =>
    rw [resolveDependencies] at h h'
    simp only [bind_eq_ok, pure_eq_ok] at h h'
    obtain ⟨source, hs, rest, hrest, rfl⟩ := h
    obtain ⟨source', hs', rest', hrest', he⟩ := h'
    simp only [List.cons.injEq, DependencyRow.mk.injEq, true_and] at he
    obtain ⟨rfl, rfl⟩ := he
    intro d hd
    rcases List.mem_cons.mp hd with rfl | hd
    · exact ⟨source', hs, hs', List.mem_cons_self⟩
    · obtain ⟨source, h₁, h₂, hmem⟩ := ih hrest hrest' d hd
      exact ⟨source, h₁, h₂, List.mem_cons_of_mem _ hmem⟩

/-- Each declared dependency of a batch has its row, resolved alike in two scopes that give the same
rows. -/
theorem batchDependencies_inj {ds : List DependencyRow}
    (h : batchDependencies goalId workId batch items n steps = .ok ds)
    (h' : batchDependencies goalId workId batch items' n steps = .ok ds) {i : Nat}
    {step : WorkflowStep} (hi : steps[i]? = some step) :
    ∀ dep ∈ declaredDependencies step, ∃ source,
      resolveDependency goalId workId batch items dep = .ok source ∧
      resolveDependency goalId workId batch items' dep = .ok source ∧
      ⟨workId (n + i), source⟩ ∈ ds := by
  induction steps generalizing n ds i with
  | nil => cases hi
  | cons x steps ih =>
    rw [batchDependencies] at h h'
    simp only [bind_eq_ok, pure_eq_ok] at h h'
    obtain ⟨first, hfirst, rest, hrest, rfl⟩ := h
    obtain ⟨first', hfirst', rest', hrest', he⟩ := h'
    have hlen : first'.length = first.length := by
      rw [length_resolveDependencies hfirst, length_resolveDependencies hfirst']
    obtain ⟨rfl, rfl⟩ := List.append_inj he hlen
    intro dep hd
    cases i with
    | zero =>
      cases Option.some.inj hi
      obtain ⟨source, h₁, h₂, hmem⟩ := resolveDependencies_inj hfirst hfirst' dep hd
      exact ⟨source, h₁, h₂, List.mem_append_left _ hmem⟩
    | succ i =>
      obtain ⟨source, h₁, h₂, hmem⟩ := ih hrest hrest' hi dep hd
      refine ⟨source, h₁, h₂, List.mem_append_right _ ?_⟩
      rwa [Nat.add_right_comm, Nat.add_assoc] at hmem

end Resolution

/-! ## The places of the items -/

/-- The item `a` belongs to no newer plan than the item `b` of the same goal. -/
def Store.NotAfter (s : Store) (a b : WorkItemRow) : Prop :=
  ∀ p ∈ s.workflows, ∀ q ∈ s.workflows, p.id = a.workflowId → q.id = b.workflowId →
    p.goalId = q.goalId → p.goalRevision ≤ q.goalRevision

/-- Steps are unique in a plan, and the table keeps the order of the plans. -/
structure Placed (s : Store) : Prop where
  steps : (s.workItems.map fun w => (w.workflowId, w.stepId)).Nodup
  dated : s.workItems.Pairwise s.NotAfter

theorem placed_empty : Placed .empty := by
  constructor <;> simp [Store.empty]

section Places

variable {enc : Encoding} {s s' : Store} {t : Txn}

theorem Placed.append (h : Placed s) (hg : Gated s) (hg' : Gated s')
    (hp : s.workflows ⊆ s'.workflows) {new : List WorkItemRow}
    (hi : s'.workItems.map (·.origin) = s.workItems.map (·.origin) ++ new.map (·.origin))
    (hsteps : (s'.workItems.map fun w => (w.workflowId, w.stepId)).Nodup)
    (hnew : ∀ w ∈ new, ∃ plan ∈ s'.workflows, plan.id = w.workflowId ∧ s'.IsLatest plan) :
    Placed s' := by
  refine ⟨hsteps, ?_⟩
  have hmap : ∀ l : List WorkItemRow, (l.map (·.origin)).Pairwise s'.NotAfter
      ↔ l.Pairwise s'.NotAfter := fun l => List.pairwise_map
  rw [← hmap, hi, List.pairwise_append, hmap, hmap]
  have hlast : ∀ a, ∀ b ∈ new, s'.NotAfter a b := by
    intro a b hb p hpm q hqm _ hqb hpq
    obtain ⟨plan, hplan, hid, hlatest⟩ := hnew b hb
    rw [eq_of_key_eq hg'.planIds hqm hplan (hqb.trans hid.symm)] at hpq ⊢
    exact hlatest p hpm hpq
  refine ⟨h.dated.imp_of_mem fun {a b} ha hb hab => ?_, ?_, ?_⟩
  · intro p hpm q hqm hpa hqb hpq
    obtain ⟨pa, hpam, hpaid, -⟩ := hg.items a ha
    obtain ⟨qb, hqbm, hqbid, -⟩ := hg.items b hb
    cases eq_of_key_eq hg'.planIds hpm (hp hpam) (hpa.trans hpaid.symm)
    cases eq_of_key_eq hg'.planIds hqm (hp hqbm) (hqb.trans hqbid.symm)
    exact hab p hpam q hqbm hpa hqb hpq
  · exact List.pairwise_of_forall_mem_list fun a _ b hb => hlast a b hb
  · intro a _ b hb
    obtain ⟨w, hw, rfl⟩ := List.mem_map.mp hb
    exact hlast a w hw

theorem placed_apply (hw : WellFormed s) (hg : Gated s) (h : Placed s)
    (ht : s.apply enc t = .ok s') : Placed s' := by
  have hg' := gated_apply hw hg ht
  have hp : s.workflows ⊆ s'.workflows := exec_of_ok ht ▸ plans_exec enc s t
  by_cases hm : t.isMaterializing = false
  · have ho := itemOrigins_apply ht hm
    have hi : s'.workItems.map (·.origin) = s.workItems.map (·.origin) ++ ([] : List WorkItemRow).map (·.origin) := by
      simpa using ho
    refine h.append hg hg' hp hi ?_ (by simp)
    have hsteps := congrArg (List.map fun w : WorkItemRow => (w.workflowId, w.stepId)) ho
    simp only [List.map_map] at hsteps
    exact (hsteps : s'.workItems.map (fun w => (w.workflowId, w.stepId)) = _) ▸ h.steps
  cases t with
  | approveGoal goalId request externalWrite internalPolicy actor approvalId workId =>
    obtain ⟨goal, plan, workItems, new, dependencies, hgoal, -, -, hplan, -, -, hitems, -, -, rfl⟩ :=
      approveGoal_ok ht
    obtain ⟨hi, -, hsteps⟩ := materializeItems_ok hitems
    obtain ⟨hgm, hgid⟩ := goal?_eq_some hgoal
    obtain ⟨hpm, hpg, hprev⟩ := plan?_eq_some hplan
    refine h.append hg hg' hp (by rw [← List.map_append]; exact congrArg _ hi) (hsteps h.steps)
      fun w hwm => ?_
    obtain ⟨i, step, -, rfl⟩ := mem_newItems.mp hwm
    refine ⟨plan, hpm, rfl, fun q hq hqg => ?_⟩
    obtain ⟨g, hgm', hid, hrev⟩ := hg.planGoal q hq
    rw [eq_of_key_eq hw.goalIds hgm' hgm (hid.trans (hqg.trans (hpg.trans hgid.symm)))] at hrev
    omega
  | extendWorkflow goalId steps externalWrite actor workId =>
    have hworkflows := (plans_apply ht rfl).1
    obtain ⟨goal, plan, workItems, new, dependencies, -, -, hlatest, -, -, -, hitems, -, -, rfl⟩ :=
      extendWorkflow_ok ht
    obtain ⟨hi, -, hsteps⟩ := materializeItems_ok hitems
    obtain ⟨hpm, -, hlast⟩ := latestWorkflow?_eq_some hlatest
    have hwi := (refreshGoalStatus_tables goalId (s := ({ s with
      workItems, dependencies } : Store).insertEvent goalId "workflow.extended" actor)).1
    refine h.append hg hg' hp (by rw [hwi, ← List.map_append]; exact congrArg _ hi) ?_ fun w hwm => ?_
    · rw [hwi]
      exact hsteps h.steps
    · obtain ⟨i, step, -, rfl⟩ := mem_newItems.mp hwm
      refine ⟨plan, hp hpm, rfl, fun q hq hqg => hlast q ?_ hqg⟩
      rw [hworkflows] at hq
      exact hq
  | _ => exact absurd rfl hm

/-- **Every transaction keeps the places.** -/
theorem placed_exec (hw : WellFormed s) (hg : Gated s) (t : Txn) (h : Placed s) :
    Placed (exec enc s t) :=
  exec_keeps h fun _ => placed_apply hw hg h

end Places

theorem placed_run (enc : Encoding) (ts : List Txn) : Placed (Machine.run (exec enc) .empty ts) := by
  have hrun : WellFormed (Machine.run (exec enc) .empty ts) ∧ Gated (Machine.run (exec enc) .empty ts)
      ∧ Placed (Machine.run (exec enc) .empty ts) := by
    refine Machine.run_invariant' (I := fun s => WellFormed s ∧ Gated s ∧ Placed s)
      (fun s t h => ?_) ⟨wellFormed_empty, gated_empty, placed_empty⟩
    exact ⟨wellFormed_exec t h.1, gated_exec h.1 t h.2.1, placed_exec h.1 h.2.1 t h.2.2⟩
  exact hrun.2.2

/-! ## Accepted extensions -/

section Accepted

variable {enc : Encoding} {s s' : Store} {goalId actor : String} {steps : List WorkflowStep}
  {externalWrite : ExternalWritePolicy} {workId : Nat → String}

/-- The batch passes the checks that count and compare by the items `kept`. -/
structure Fits (enc : Encoding) (plan : WorkflowRow) (maxNodes : Nat)
    (externalWrite : ExternalWritePolicy) (kept : List WorkItemRow) (steps : List WorkflowStep) :
    Prop where
  budget : kept.length + steps.length ≤ min maxNodes 32
  ids : checkExtension enc plan.effectManifest externalWrite (kept.map (·.stepId)) steps = .ok ()
  dependencies : checkDependencies (kept.map (·.stepId)) steps = .ok ()

/-- An extension under a scope: the plan and its node budget, the checks, and the store it leaves. -/
structure Extends (scope : WorkflowRow → List WorkItemRow → List WorkItemRow) (enc : Encoding)
    (goalId : String) (steps : List WorkflowStep) (externalWrite : ExternalWritePolicy)
    (actor : String) (workId : Nat → String) (s s' : Store) (plan : WorkflowRow) (maxNodes : Nat)
    (workItems : List WorkItemRow) (new : List DependencyRow) : Prop where
  latest : latestWorkflow? goalId s = some plan
  budget : ((swarmRoot? plan.workflow).bind fun root =>
    (root.input.get "max_nodes").bind Value.asU64) = some maxNodes
  fits : Fits enc plan maxNodes externalWrite (scope plan (keptItems goalId s)) steps
  items : materializeItems (extendedItem goalId plan.id workId (nextOrdinal goalId s)) 0 steps
    s.workItems = .ok workItems
  dependencies : batchDependencies goalId workId steps (scope plan workItems) 0 steps = .ok new
  inserts : insertDependencies "failed to materialize extended dependency" new s.dependencies
    = .ok (s.dependencies ++ new)
  eq : s' = (({ s with workItems, dependencies := s.dependencies ++ new } : Store).insertEvent goalId
    "workflow.extended" actor).refreshGoalStatus goalId

/-- The checks of an extension that no work item takes part in. -/
def isExtension (goalId : String) (steps : List WorkflowStep) (actor : String) (s : Store) : Prop :=
  validateActor actor = .ok () ∧ ensureValidId goalId "goal id" = .ok () ∧
    startsWith actor internalActorPrefix = true ∧ (!steps.isEmpty && decide (steps.length ≤ 32)) = true ∧
    (∃ goal, s.goal? goalId = some goal ∧ isExtensible goal.status = true) ∧
    decide (nextOrdinal goalId s + steps.length ≤ 2 ^ 32) = true

theorem extendOver_eq_ok {scope : WorkflowRow → List WorkItemRow → List WorkItemRow} :
    extendOver scope enc goalId steps externalWrite actor workId s = .ok s' ↔
      isExtension goalId steps actor s ∧ ∃ plan maxNodes workItems new,
        Extends scope enc goalId steps externalWrite actor workId s s' plan maxNodes workItems new := by
  unfold extendOver isExtension
  simp only [bind_eq_ok, context_eq_ok, ensure_eq_ok, pure_eq_ok]
  constructor
  · rintro ⟨_, hactor, _, hid, _, hinternal, _, hlen, goal, hgoal, _, hst, plan, hplan, root, hroot,
      maxNodes, hmax, _, hfit, _, hcheck, _, hdeps, _, hord, workItems, hitems, new, hnew,
      dependencies, hins, rfl⟩
    cases insertDependencies_ok hins
    refine ⟨⟨hactor, hid, hinternal, hlen, ⟨goal, hgoal, hst⟩, hord⟩, plan, maxNodes, workItems, new,
      hplan, ?_, ⟨by simpa using hfit, hcheck, hdeps⟩, hitems, hnew, hins, rfl⟩
    rw [hroot]
    exact hmax
  · rintro ⟨⟨hactor, hid, hinternal, hlen, ⟨goal, hgoal, hst⟩, hord⟩, plan, maxNodes, workItems, new, h⟩
    obtain ⟨root, hroot, hmax⟩ := Option.bind_eq_some_iff.mp h.budget
    exact ⟨(), hactor, (), hid, (), hinternal, (), hlen, goal, hgoal, (), hst, plan, h.latest, root,
      hroot, maxNodes, hmax, (), by simpa using h.fits.budget, (), h.fits.ids, (),
      h.fits.dependencies, (), hord, workItems, h.items, new, h.dependencies, _, h.inserts, h.eq.symm⟩

/-! ## Clear extensions -/

/-- The items of older plans leave the extension as it would be without them. -/
structure Clear (goalId : String) (steps : List WorkflowStep) (s : Store) (plan : WorkflowRow)
    (maxNodes : Nat) : Prop where
  /-- They leave the room that the batch needs. -/
  budget : (ofPlan plan (keptItems goalId s)).length + steps.length ≤ min maxNodes 32 →
    (keptItems goalId s).length + steps.length ≤ min maxNodes 32
  /-- The batch reuses none of their step ids. -/
  ids : ∀ w ∈ keptItems goalId s, w.workflowId ≠ plan.id → ∀ step ∈ steps, step.id ≠ w.stepId
  /-- In front of those that share the step of a dependency stands the current plan's own item. -/
  dependencies : ∀ step ∈ steps, ∀ dep ∈ declaredDependencies step, (∀ x ∈ steps, x.id ≠ dep) →
    ∀ w ∈ s.workItems, w.goalId = goalId → w.stepId = dep → w.workflowId ≠ plan.id →
      ∃ c ∈ ofPlan plan (keptItems goalId s), c.stepId = dep ∧ c.ordinal < w.ordinal

theorem mem_keptItems {w : WorkItemRow} :
    w ∈ keptItems goalId s ↔ w ∈ s.workItems ∧ w.goalId = goalId ∧ w.status ≠ .canceled := by
  simp [keptItems]

theorem mem_ofPlan {plan : WorkflowRow} {items : List WorkItemRow} {w : WorkItemRow} :
    w ∈ ofPlan plan items ↔ w ∈ items ∧ w.workflowId = plan.id := by
  simp [ofPlan]

section

variable {plan : WorkflowRow} {maxNodes : Nat}

theorem Clear.fits (h : Clear goalId steps s plan maxNodes)
    (hfit : Fits enc plan maxNodes externalWrite (ofPlan plan (keptItems goalId s)) steps) :
    Fits enc plan maxNodes externalWrite (keptItems goalId s) steps where
  budget := h.budget hfit.budget
  ids := checkExtension_mono (fun step hs hmem => by
    obtain ⟨w, hwm, hid⟩ := List.mem_map.mp hmem
    by_cases hp : w.workflowId = plan.id
    · exact List.mem_map.mpr ⟨w, mem_ofPlan.mpr ⟨hwm, hp⟩, hid⟩
    · exact absurd hid.symm (h.ids w hwm hp step hs)) hfit.ids
  dependencies := checkDependencies_mono (fun step _ dep _ hmem => by
    obtain ⟨w, hwm, hid⟩ := List.mem_map.mp hmem
    exact List.mem_map.mpr ⟨w, (mem_ofPlan.mp hwm).1, hid⟩) hfit.dependencies

theorem Clear.fits_current (h : Clear goalId steps s plan maxNodes)
    (hfit : Fits enc plan maxNodes externalWrite (keptItems goalId s) steps) :
    Fits enc plan maxNodes externalWrite (ofPlan plan (keptItems goalId s)) steps where
  budget := by
    have hle : (ofPlan plan (keptItems goalId s)).length ≤ (keptItems goalId s).length :=
      List.length_filter_le _ _
    have := hfit.budget
    omega
  ids := checkExtension_mono (fun step _ hmem => by
    obtain ⟨w, hwm, hid⟩ := List.mem_map.mp hmem
    exact List.mem_map.mpr ⟨w, (mem_ofPlan.mp hwm).1, hid⟩) hfit.ids
  dependencies := checkDependencies_mono (fun step hs dep hd hmem => by
    obtain ⟨w, hwm, hid⟩ := List.mem_map.mp hmem
    by_cases hp : w.workflowId = plan.id
    · exact List.mem_map.mpr ⟨w, mem_ofPlan.mpr ⟨hwm, hp⟩, hid⟩
    · obtain ⟨hwi, hwg, -⟩ := mem_keptItems.mp hwm
      have hbatch : ∀ x ∈ steps, x.id ≠ dep := fun x hx he =>
        checkExtension_fresh hfit.ids x hx (he ▸ hmem)
      obtain ⟨c, hc, hcid, -⟩ := h.dependencies step hs dep hd hbatch w hwi hwg hid hp
      exact List.mem_map.mpr ⟨c, hc, hcid⟩) hfit.dependencies

theorem batchId?_eq_none {stepId : String} :
    batchId? workId steps stepId = none ↔ ∀ x ∈ steps, x.id ≠ stepId := by
  simp [batchId?, List.findIdx?_eq_none_iff]

theorem ordinal_total (a b : WorkItemRow) :
    decide (a.ordinal ≤ b.ordinal) = true ∨ decide (b.ordinal ≤ a.ordinal) = true := by
  simpa using Nat.le_total a.ordinal b.ordinal

theorem ordinal_trans (a b c : WorkItemRow) (hab : decide (a.ordinal ≤ b.ordinal) = true)
    (hbc : decide (b.ordinal ≤ c.ordinal) = true) : decide (a.ordinal ≤ c.ordinal) = true := by
  simp only [decide_eq_true_eq] at hab hbc ⊢
  omega

theorem stepItem?_ofPlan {dep : String} {items : List WorkItemRow} {f : WorkItemRow}
    (h : stepItem? goalId dep items = some f) (hf : f.workflowId = plan.id) :
    stepItem? goalId dep (ofPlan plan items) = some f := by
  have hfilter := pickBy_filter ordinal_total ordinal_trans (fun w => w.workflowId = plan.id) h
    (by simpa using hf)
  rw [stepItem?, ofPlan, List.filter_filter]
  rw [List.filter_filter] at hfilter
  rw [← hfilter]
  congr 1
  exact List.filter_congr fun w _ => Bool.and_comm _ _

theorem stepItem?_materialized (goalId : String) {dep : String} (row : Nat → WorkflowStep → WorkItemRow)
    (hrow : ∀ n step, (row n step).stepId = step.id) (hbatch : ∀ x ∈ steps, x.id ≠ dep) (n : Nat)
    (items : List WorkItemRow) :
    stepItem? goalId dep (items ++ newItems row n steps) = stepItem? goalId dep items := by
  rw [stepItem?, stepItem?, List.filter_append]
  have hnil : (newItems row n steps).filter (fun w => w.goalId = goalId ∧ w.stepId = dep) = [] := by
    rw [List.filter_eq_nil_iff]
    intro w hw
    obtain ⟨i, step, hi, rfl⟩ := mem_newItems.mp hw
    have hne := hbatch step (List.mem_of_getElem? hi)
    simp [hrow, hne]
  rw [hnil, List.append_nil]

/-- A clear dependency stands for the same item in both scopes. -/
theorem Clear.resolve (h : Clear goalId steps s plan maxNodes)
    (hfit : Fits enc plan maxNodes externalWrite (ofPlan plan (keptItems goalId s)) steps)
    {workItems : List WorkItemRow}
    (hitems : materializeItems (extendedItem goalId plan.id workId (nextOrdinal goalId s)) 0 steps
      s.workItems = .ok workItems) {step : WorkflowStep} (hs : step ∈ steps) {dep : String}
    (hd : dep ∈ declaredDependencies step) :
    resolveDependency goalId workId steps workItems dep
      = resolveDependency goalId workId steps (ofPlan plan workItems) dep := by
  unfold resolveDependency
  cases hb : batchId? workId steps dep with
  | some id => rfl
  | none =>
    have hbatch := batchId?_eq_none.mp hb
    -- The current plan has an item of the step, so the first item of the step exists.
    obtain ⟨c, hc, hcid⟩ : ∃ c ∈ ofPlan plan (keptItems goalId s), c.stepId = dep := by
      rcases checkDependencies_known hfit.dependencies step hs dep hd with hmem | ⟨x, hx, he⟩
      · exact List.mem_map.mp hmem
      · exact absurd he (hbatch x hx)
    obtain ⟨hck, -⟩ := mem_ofPlan.mp hc
    obtain ⟨hcm, hcg, -⟩ := mem_keptItems.mp hck
    have hlookup := stepItem?_materialized goalId
      (extendedItem goalId plan.id workId (nextOrdinal goalId s)) (fun _ _ => rfl) hbatch 0
      s.workItems
    rw [← (materializeItems_ok hitems).1] at hlookup
    cases hf : stepItem? goalId dep workItems with
    | none =>
      rw [hlookup, stepItem?, pickBy_eq_none, List.filter_eq_nil_iff] at hf
      exact absurd (by simpa using ⟨hcg, hcid⟩) (hf c hcm)
    | some f =>
      rw [hlookup] at hf
      obtain ⟨hfm, hfg, hfs⟩ := stepItem?_eq_some hf
      have hfp : f.workflowId = plan.id := by
        by_contra hne
        obtain ⟨x, hx, hxs, hlt⟩ := h.dependencies step hs dep hd hbatch f hfm hfg hfs hne
        obtain ⟨hxm, hxg, -⟩ := mem_keptItems.mp (mem_ofPlan.mp hx).1
        have hle := pickBy_before ordinal_total ordinal_trans hf x
          (List.mem_filter.mpr ⟨hxm, by simpa using ⟨hxg, hxs⟩⟩)
        simp only [decide_eq_true_eq] at hle
        omega
      rw [stepItem?_ofPlan (hlookup.trans hf) hfp]

end

/-! ## The current revision -/

/-- The items of older plans do not get in the way of the extension. -/
def IsClear (goalId : String) (steps : List WorkflowStep) (s : Store) : Prop :=
  ∀ plan maxNodes, latestWorkflow? goalId s = some plan →
    ((swarmRoot? plan.workflow).bind fun root =>
      (root.input.get "max_nodes").bind Value.asU64) = some maxNodes →
    Clear goalId steps s plan maxNodes

/-- The extension that left `s'` made each step of the batch depend on the items of the current plan
that the step declares, and on no others. -/
def DependsOnCurrent (goalId : String) (steps : List WorkflowStep) (workId : Nat → String)
    (s s' : Store) : Prop :=
  ∀ plan, latestWorkflow? goalId s = some plan → ∀ i step, steps[i]? = some step →
    (∀ dep ∈ declaredDependencies step, ∃ c ∈ s'.workItems, c.workflowId = plan.id ∧ c.stepId = dep ∧
      (⟨workId i, c.id⟩ : DependencyRow) ∈ s'.dependencies) ∧
    ∀ d ∈ s'.dependencies, d.workItemId = workId i →
      ∃ c ∈ s'.workItems, c.id = d.dependsOnWorkItemId ∧ c.workflowId = plan.id

/-- The extension counts, compares and resolves as if the goal had no items of older plans. -/
def IsScoped (enc : Encoding) (goalId : String) (steps : List WorkflowStep)
    (externalWrite : ExternalWritePolicy) (actor : String) (workId : Nat → String) (s : Store) :
    Prop :=
  ∀ s', (extendWorkflow enc goalId steps externalWrite actor workId s = .ok s' ↔
      extendCurrent enc goalId steps externalWrite actor workId s = .ok s') ∧
    (extendWorkflow enc goalId steps externalWrite actor workId s = .ok s' →
      DependsOnCurrent goalId steps workId s s')

section

variable {plan : WorkflowRow} {maxNodes : Nat} {workItems : List WorkItemRow}
  {new : List DependencyRow}

theorem Extends.clear {scope : WorkflowRow → List WorkItemRow → List WorkItemRow}
    (hc : IsClear goalId steps s) (h : Extends scope enc goalId steps externalWrite actor workId s s'
      plan maxNodes workItems new) : Clear goalId steps s plan maxNodes :=
  hc plan maxNodes h.latest h.budget

theorem Extends.tables {scope : WorkflowRow → List WorkItemRow → List WorkItemRow}
    (h : Extends scope enc goalId steps externalWrite actor workId s s' plan maxNodes workItems new) :
    s'.workItems = workItems ∧ s'.dependencies = s.dependencies ++ new := by
  rw [h.eq]
  exact ⟨(refreshGoalStatus_tables goalId).1, (refreshGoalStatus_tables goalId).2.2.2⟩

theorem Extends.current (hc : IsClear goalId steps s)
    (h : Extends (fun _ items => items) enc goalId steps externalWrite actor workId s s' plan maxNodes
      workItems new) :
    Extends ofPlan enc goalId steps externalWrite actor workId s s' plan maxNodes workItems new :=
  have hclear := h.clear hc
  have hfit := hclear.fits_current h.fits
  { h with
    fits := hfit
    dependencies := (batchDependencies_congr fun _ hs _ hd =>
      hclear.resolve hfit h.items hs hd).symm.trans h.dependencies }

theorem Extends.goal (hc : IsClear goalId steps s)
    (h : Extends ofPlan enc goalId steps externalWrite actor workId s s' plan maxNodes workItems new) :
    Extends (fun _ items => items) enc goalId steps externalWrite actor workId s s' plan maxNodes
      workItems new :=
  have hclear := h.clear hc
  { h with
    fits := hclear.fits h.fits
    dependencies := (batchDependencies_congr fun _ hs _ hd =>
      hclear.resolve h.fits h.items hs hd).trans h.dependencies }

theorem resolve_ofPlan {row : Nat → WorkflowStep → WorkItemRow} {items : List WorkItemRow}
    (hrow : ∀ n step, (row n step).id = workId n ∧ (row n step).stepId = step.id ∧
      (row n step).workflowId = plan.id)
    (hitems : workItems = items ++ newItems row 0 steps) {dep source : String}
    (h : resolveDependency goalId workId steps (ofPlan plan workItems) dep = .ok source) :
    ∃ c ∈ workItems, c.id = source ∧ c.workflowId = plan.id ∧ c.stepId = dep := by
  rcases resolveDependency_ok h with hb | ⟨-, w, hw, hid⟩
  · obtain ⟨i, step, hi, hstep, rfl⟩ := batchId?_eq_some hb
    refine ⟨row (0 + i) step, ?_, ?_, (hrow _ _).2.2, (hrow _ _).2.1.trans hstep⟩
    · rw [hitems]
      exact List.mem_append_right _ (mem_newItems.mpr ⟨i, step, hi, rfl⟩)
    · rw [(hrow _ _).1, Nat.zero_add]
  · obtain ⟨hm, -, hs⟩ := stepItem?_eq_some hw
    obtain ⟨hm, hp⟩ := mem_ofPlan.mp hm
    exact ⟨w, hm, hid, hp, hs⟩

theorem extendedItem_columns (base n : Nat) (step : WorkflowStep) :
    (extendedItem goalId plan.id workId base n step).id = workId n ∧
      (extendedItem goalId plan.id workId base n step).stepId = step.id ∧
      (extendedItem goalId plan.id workId base n step).workflowId = plan.id :=
  ⟨rfl, rfl, rfl⟩

/-- An extension of the current plan depends on the current plan only. -/
theorem Extends.dependsOnCurrent (hw : WellFormed s)
    (h : Extends ofPlan enc goalId steps externalWrite actor workId s s' plan maxNodes workItems new) :
    DependsOnCurrent goalId steps workId s s' := by
  intro plan' hplan' i step hi
  cases h.latest.symm.trans hplan'
  obtain ⟨htable, hdeps⟩ := h.tables
  obtain ⟨hitems, hnodup, -⟩ := materializeItems_ok h.items
  have hresolve : ∀ {dep source : String},
      resolveDependency goalId workId steps (ofPlan plan workItems) dep = .ok source →
      ∃ c ∈ workItems, c.id = source ∧ c.workflowId = plan.id ∧ c.stepId = dep :=
    resolve_ofPlan (extendedItem_columns _) hitems
  rw [htable, hdeps]
  constructor
  · intro dep hd
    obtain ⟨source, hres, -, hmem⟩ := batchDependencies_inj h.dependencies h.dependencies hi dep hd
    obtain ⟨c, hc, rfl, hcp, hcs⟩ := hresolve hres
    rw [Nat.zero_add] at hmem
    exact ⟨c, hc, hcp, hcs, List.mem_append_right _ hmem⟩
  · intro d hd hid
    rcases List.mem_append.mp hd with hd | hd
    · -- A stored dependency belongs to a stored item, and the ids of the batch are new.
      obtain ⟨x, hx, -, -, hxid, -⟩ := hw.dependencyItems d hd
      have hnew : workId i ∈ (newItems (extendedItem goalId plan.id workId (nextOrdinal goalId s)) 0
          steps).map (·.id) :=
        List.mem_map.mpr ⟨_, mem_newItems.mpr ⟨i, step, hi, rfl⟩, by simp [extendedItem]⟩
      have hids := hnodup hw.itemIds
      rw [hitems, List.map_append, List.nodup_append] at hids
      exact absurd (hxid.trans hid) (hids.2.2 _ (List.mem_map_of_mem hx) _ hnew)
    · obtain ⟨j, step', -, -, dep, -, hres⟩ := mem_batchDependencies h.dependencies hd
      obtain ⟨c, hc, hcid, hcp, -⟩ := hresolve hres
      exact ⟨c, hc, hcid, hcp⟩

theorem first_in_table {dep : String} {items : List WorkItemRow} {f w : WorkItemRow}
    (h : stepItem? goalId dep items = some f) (hw : w ∈ items) (hgoal : w.goalId = goalId)
    (hstep : w.stepId = dep) (hne : w ≠ f) : f.ordinal < w.ordinal ∨ [f, w].Sublist items := by
  obtain ⟨l₁, l₂, hl, hfirst⟩ := pickBy_split h
  have hmem : w ∈ items.filter fun w => w.goalId = goalId ∧ w.stepId = dep :=
    List.mem_filter.mpr ⟨hw, by simpa using ⟨hgoal, hstep⟩⟩
  rw [hl] at hmem
  rcases List.mem_append.mp hmem with hm | hm
  · have hlt := hfirst w hm
    simp only [decide_eq_false_iff_not] at hlt
    exact .inl (by omega)
  · right
    have hmem₂ : w ∈ l₂ := (List.mem_cons.mp hm).resolve_left hne
    have hsub : [f, w].Sublist (l₁ ++ f :: l₂) :=
      ((List.singleton_sublist.mpr hmem₂).cons_cons f).trans (List.sublist_append_right l₁ _)
    rw [← hl] at hsub
    exact hsub.trans List.filter_sublist

/-- Extensions of the goal and of the current plan that leave the same store are clear. -/
theorem Extends.isClear (hw : WellFormed s) (hg : Gated s) (hp : Placed s)
    {new' : List DependencyRow} {workItems' : List WorkItemRow}
    (h : Extends (fun _ items => items) enc goalId steps externalWrite actor workId s s' plan maxNodes
      workItems new)
    (h' : Extends ofPlan enc goalId steps externalWrite actor workId s s' plan maxNodes workItems'
      new') : Clear goalId steps s plan maxNodes where
  budget _ := h.fits.budget
  ids w hwm _ step hs he := checkExtension_fresh h.fits.ids step hs (by
    rw [he]
    exact List.mem_map_of_mem hwm)
  dependencies step hs dep hd hbatch w hwm hwg hws hwp := by
    have hitems : workItems = workItems' := h.tables.1.symm.trans h'.tables.1
    have hnew : new = new' := List.append_cancel_left (h.tables.2.symm.trans h'.tables.2)
    subst hitems hnew
    -- Both scopes resolve the dependency to one item, which is then of the current plan.
    obtain ⟨i, hi⟩ := List.mem_iff_getElem?.mp hs
    obtain ⟨source, hres, hres', -⟩ := batchDependencies_inj h.dependencies h'.dependencies hi dep hd
    obtain ⟨-, f, hf, hfid⟩ := (resolveDependency_ok hres).resolve_left
      (by rw [batchId?_eq_none.mpr hbatch]; exact (Option.some_ne_none _).symm)
    obtain ⟨-, f', hf', hfid'⟩ := (resolveDependency_ok hres').resolve_left
      (by rw [batchId?_eq_none.mpr hbatch]; exact (Option.some_ne_none _).symm)
    have hlookup := stepItem?_materialized goalId
      (extendedItem goalId plan.id workId (nextOrdinal goalId s)) (fun _ _ => rfl) hbatch 0
      s.workItems
    rw [← (materializeItems_ok h.items).1, hf] at hlookup
    obtain ⟨hfm, -, hfs⟩ := stepItem?_eq_some hlookup.symm
    have hfp : f.workflowId = plan.id := by
      obtain ⟨hfm', -, -⟩ := stepItem?_eq_some hf'
      obtain ⟨hfm', hfp'⟩ := mem_ofPlan.mp hfm'
      have hids := (materializeItems_ok h.items).2.1 hw.itemIds
      rw [eq_of_key_eq hids (stepItem?_eq_some hf).1 hfm' (hfid.trans hfid'.symm)]
      exact hfp'
    -- It is the current plan's one item of the step.
    obtain ⟨c, hc, hcs⟩ : ∃ c ∈ ofPlan plan (keptItems goalId s), c.stepId = dep := by
      rcases checkDependencies_known h'.fits.dependencies step hs dep hd with hmem | ⟨x, hx, he⟩
      · exact List.mem_map.mp hmem
      · exact absurd he (hbatch x hx)
    obtain ⟨hck, hcp⟩ := mem_ofPlan.mp hc
    have hcf : c = f := eq_of_key_eq hp.steps (mem_keptItems.mp hck).1 hfm
      (Prod.ext (hcp.trans hfp.symm) (hcs.trans hfs.symm))
    refine ⟨c, hc, hcs, ?_⟩
    rw [hcf]
    have hne : w ≠ f := fun he => hwp (he ▸ hfp)
    rcases first_in_table hlookup.symm hwm hwg hws hne with hlt | hsub
    · exact hlt
    · -- An item of an older plan stands before the items of the current plan.
      obtain ⟨hpm, hpg, hlast⟩ := latestWorkflow?_eq_some h.latest
      obtain ⟨q, hq, hqid, hqg, -⟩ := hg.items w hwm
      have hle := List.pairwise_iff_forall_sublist.mp hp.dated hsub plan hpm q hq hfp.symm hqid
        (hpg.trans (hqg.trans hwg).symm)
      have hge := hlast q hq ((hqg.trans hwg).trans hpg.symm)
      have hsame := hg.plan_eq hq hpm ((hqg.trans hwg).trans hpg.symm) (by omega)
      exact absurd (hqid.symm.trans (congrArg WorkflowRow.id hsame)) hwp

end

end Accepted

/-- **Extensions are scoped to the current revision when they are clear of the older ones**, after
every run: a clear extension does what it would do for the current plan alone; and one that is
accepted, or would be for the current plan, does so only if it is clear. -/
theorem extension_scoped (enc : Encoding) (ts : List Txn) (goalId : String)
    (steps : List WorkflowStep) (externalWrite : ExternalWritePolicy) (actor : String)
    (workId : Nat → String) :
    (IsClear goalId steps (Machine.run (exec enc) .empty ts) →
      IsScoped enc goalId steps externalWrite actor workId (Machine.run (exec enc) .empty ts)) ∧
    ∀ s', (extendWorkflow enc goalId steps externalWrite actor workId
          (Machine.run (exec enc) .empty ts) = .ok s' ∨
        extendCurrent enc goalId steps externalWrite actor workId
          (Machine.run (exec enc) .empty ts) = .ok s') →
      IsScoped enc goalId steps externalWrite actor workId (Machine.run (exec enc) .empty ts) →
      IsClear goalId steps (Machine.run (exec enc) .empty ts) := by
  obtain ⟨hw, hg⟩ := gated_run enc ts
  have hp := placed_run enc ts
  generalize Machine.run (exec enc) .empty ts = s at hw hg hp ⊢
  refine ⟨fun hc s' => ⟨⟨fun h => ?_, fun h => ?_⟩, fun h => ?_⟩, fun s' h hscoped => ?_⟩
  · rw [extendWorkflow_eq, extendOver_eq_ok] at h
    obtain ⟨hext, plan, maxNodes, workItems, new, h⟩ := h
    exact extendOver_eq_ok.mpr ⟨hext, plan, maxNodes, workItems, new, h.current hc⟩
  · obtain ⟨hext, plan, maxNodes, workItems, new, h⟩ := extendOver_eq_ok.mp h
    rw [extendWorkflow_eq, extendOver_eq_ok]
    exact ⟨hext, plan, maxNodes, workItems, new, h.goal hc⟩
  · rw [extendWorkflow_eq, extendOver_eq_ok] at h
    obtain ⟨-, plan, maxNodes, workItems, new, h⟩ := h
    exact (h.current hc).dependsOnCurrent hw
  · have hgoal : extendWorkflow enc goalId steps externalWrite actor workId s = .ok s' :=
      h.elim id (hscoped s').1.mpr
    have hcurrent := (hscoped s').1.mp hgoal
    rw [extendWorkflow_eq, extendOver_eq_ok] at hgoal
    obtain ⟨-, plan, maxNodes, workItems, new, hgoal⟩ := hgoal
    obtain ⟨-, plan', maxNodes', workItems', new', hcurrent⟩ := extendOver_eq_ok.mp hcurrent
    cases hgoal.latest.symm.trans hcurrent.latest
    cases hgoal.budget.symm.trans hcurrent.budget
    intro plan' maxNodes' hplan hmax
    cases hgoal.latest.symm.trans hplan
    cases hgoal.budget.symm.trans hmax
    exact hgoal.isClear hw hg hp hcurrent

/-! ## A replanned goal -/

namespace Sample

/-- A swarm root that may grow to eight nodes, one attempt. -/
def rootInput : Value := .object (.cons "max_nodes" (.int 8) (.cons "swarm_root" (.bool true) .nil))

def delegating : PlanGoalRequest := plan [⟨"root", "swarm_node", .read, rootInput, ⟨1, 0⟩⟩] []

def childInput : Value := .object (.cons "depends_on" (.array (.cons (.string "root") .nil)) .nil)

/-- A node that waits for the root. -/
def child : WorkflowStep := ⟨"child", "swarm_node", .read, childInput, ⟨1, 0⟩⟩

def delegatingHash : String :=
  "sha256:a411a3662e113b554f3f65adfd676b2fd332816cb3e18e9cc770da09fab25c0b"

def delegatingEncoding : Encoding where
  inputLen value := if value = rootInput then 33 else if value = childInput then 23 else 2
  workflowLen _ := 240
  planHash _ := delegatingHash

/-- Plan the root at `revision`, approve it and claim it; `round` marks the ids that are drawn. -/
def delegate (revision : Nat) (round : String) (now : Int) : List Txn :=
  [.planGoal "goal" delegating externalWrite "operator" ("plan" ++ round),
    .approveGoal "goal" ⟨revision + 1, delegatingHash⟩ externalWrite {} "operator"
      ("approval" ++ round) fun _ => "root" ++ round,
    .claimWork "goal" none "w1" 300 "runtime:w1" ("lease" ++ round) ("attempt" ++ round) now]

def rootClaim : WorkClaim where
  workItem := ⟨"root", "goal", .running, "root", "swarm_node", .read, rootInput, 1, 0, [], none⟩
  attempt := ⟨"attempt", "goal", "root", 1, .running, "w1", "lease", 1, 0, none⟩
  leaseUntilUnix := 300
  budget := ⟨1, 60, 1024⟩

/-- The root fails, and the goal is planned and approved again. -/
def replanned : List Txn :=
  .createGoal { objective := "ship" } "operator" "goal" :: delegate 1 "" 0 ++
    [.failAttempt rootClaim "no quorum" false "runtime:w1" 1,
      .markGoalForReplan "goal" "try again" "operator"] ++ delegate 4 "2" 2

/-- The second root schedules its child. -/
def scheduled : Txn := .extendWorkflow "goal" [child] externalWrite "internal:swarm" fun _ => "child"

end Sample

/-- After a replan the child waits for the root that failed before. -/
theorem extension_crosses_revisions :
    ∃ s', extendWorkflow Sample.delegatingEncoding "goal" [Sample.child] Sample.externalWrite
        "internal:swarm" (fun _ => "child")
        (Machine.run (exec Sample.delegatingEncoding) .empty Sample.replanned) = .ok s' ∧
      s'.workItems.map (fun w => (w.id, w.workflowId, w.status)) =
        [("root", "plan", .failed), ("root2", "plan2", .running), ("child", "plan2", .pending)] ∧
      s'.dependencies = [⟨"child", "root"⟩] ∧
      ¬ DependsOnCurrent "goal" [Sample.child] (fun _ => "child")
        (Machine.run (exec Sample.delegatingEncoding) .empty Sample.replanned) s' := by
  refine ⟨exec Sample.delegatingEncoding
    (Machine.run (exec Sample.delegatingEncoding) .empty Sample.replanned) Sample.scheduled,
    by decide +kernel, by decide +kernel, by decide +kernel, fun h => ?_⟩
  have hlatest : ∃ plan, latestWorkflow? "goal" (Machine.run (exec Sample.delegatingEncoding) .empty
      Sample.replanned) = some plan ∧ plan.id = "plan2" :=
    Option.map_eq_some_iff.mp (by decide +kernel)
  obtain ⟨plan, hplan, hid⟩ := hlatest
  obtain ⟨c, hc, hcp, -, hd⟩ := (h plan hplan 0 Sample.child rfl).1 "root" (by decide)
  have hforeign : ∀ c ∈ (exec Sample.delegatingEncoding
      (Machine.run (exec Sample.delegatingEncoding) .empty Sample.replanned)
      Sample.scheduled).workItems, c.workflowId = "plan2" → (⟨"child", c.id⟩ : DependencyRow) ∉
      (exec Sample.delegatingEncoding (Machine.run (exec Sample.delegatingEncoding) .empty
        Sample.replanned) Sample.scheduled).dependencies := by
    decide +kernel
  exact hforeign c hc (hcp.trans hid) hd

end Xiaomaolv
