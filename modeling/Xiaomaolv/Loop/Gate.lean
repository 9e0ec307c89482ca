import Xiaomaolv.Loop.GoalLife
import Xiaomaolv.Loop.Lives

/-!
# The approval gate

Every work item stands behind an approval of the plan that it belongs to.

* `Store.IsApproved`, `Store.IsGated`: an approval row binds the plan; the item belongs to a bound plan
  and stays inside its effects.
* `Gated`: the invariant over goals, plans, approvals and items; **`gated_apply`**: every transaction
  keeps it.
* `created_policy`, `approval_new`: the policies that a new item and a new approval have passed.
* **`approval_gate`**: the gate over every run.
-/

namespace Xiaomaolv

open Table LoopStore

/-! ## Approved plans -/

namespace Store

/-- An approval row binds the plan's revision to its hash. -/
def IsApproved (s : Store) (p : WorkflowRow) : Prop :=
  ∃ a ∈ s.approvals, a.goalId = p.goalId ∧ a.goalRevision = p.goalRevision ∧ a.planHash = p.planHash

/-- The goal has no newer plan. -/
def IsLatest (s : Store) (p : WorkflowRow) : Prop :=
  ∀ q ∈ s.workflows, q.goalId = p.goalId → q.goalRevision ≤ p.goalRevision

/-- The item belongs to an approved plan of its goal, and its effect is one that was reviewed. -/
def IsGated (s : Store) (w : WorkItemRow) : Prop :=
  ∃ p ∈ s.workflows, p.id = w.workflowId ∧ p.goalId = w.goalId ∧ s.IsApproved p ∧
    w.effectClass ∈ p.effectManifest

variable {s s' : Store}

theorem IsApproved.mono {p : WorkflowRow} (ha : s.approvals ⊆ s'.approvals) (h : s.IsApproved p) :
    s'.IsApproved p :=
  let ⟨a, hm, h'⟩ := h
  ⟨a, ha hm, h'⟩

theorem IsGated.mono {w w' : WorkItemRow} (hp : s.workflows ⊆ s'.workflows)
    (ha : s.approvals ⊆ s'.approvals) (ho : w'.origin = w.origin) (h : s.IsGated w) :
    s'.IsGated w' := by
  simp only [WorkItemRow.origin, WorkItemRow.mk.injEq] at ho
  obtain ⟨p, hpm, hid, hgoal, happ, heff⟩ := h
  refine ⟨p, hp hpm, ?_, ?_, happ.mono ha, ?_⟩
  · rw [ho.2.2.1, hid]
  · rw [ho.2.1, hgoal]
  · rw [ho.2.2.2.2.2.2.1]
    exact heff

end Store

/-- The statuses in which the goal's latest plan has been approved. -/
def GoalStatus.isApproved : GoalStatus → Bool
  | approved | active | verifying | blocked | paused | failed | achieved => true
  | _ => false

theorem GoalEvent.isApproved {e : GoalEvent} {st : GoalStatus} (h : e.allowed st = true)
    (he : e ≠ .approve) (h' : e.status.isApproved = true) : st.isApproved = true := by
  cases e with
  | approve => exact absurd rfl he
  | plan | cancel | reject | replan => cases h'
  | pause | unpause | expire | achieve | claim | refresh next =>
    cases st <;> first | rfl | cases h

/-! ## The invariant -/

structure Gated (s : Store) : Prop where
  planIds : (s.workflows.map (·.id)).Nodup
  planRevisions : (s.workflows.map fun p => (p.goalId, p.goalRevision)).Nodup
  planGoal : ∀ p ∈ s.workflows, ∃ g ∈ s.goals, g.id = p.goalId ∧ p.goalRevision ≤ g.revision
  manifest : ∀ p ∈ s.workflows, ∀ step ∈ p.workflow.steps, step.effect ∈ p.effectManifest
  approvalIds : (s.approvals.map (·.id)).Nodup
  latest : ∀ g ∈ s.goals, g.status.isApproved = true →
    ∀ p ∈ s.workflows, p.goalId = g.id → s.IsLatest p → s.IsApproved p
  items : ∀ w ∈ s.workItems, s.IsGated w

theorem gated_empty : Gated .empty := by
  constructor <;> simp [Store.empty]

theorem Gated.plan_eq {s : Store} (h : Gated s) {p q : WorkflowRow} (hp : p ∈ s.workflows)
    (hq : q ∈ s.workflows) (hgoal : p.goalId = q.goalId) (hrev : p.goalRevision = q.goalRevision) :
    p = q :=
  eq_of_key_eq h.planRevisions hp hq (Prod.ext hgoal hrev)

section Plans

variable {enc : Encoding} {s s' : Store} {goalId actor : String}

theorem checkAll_eq_ok {α : Type} {check : α → Except String Unit} {l : List α} :
    checkAll check l = .ok () ↔ ∀ a ∈ l, check a = .ok () := by
  induction l with
  | nil => simp [checkAll]
  | cons a l ih =>
    rw [checkAll, bind_eq_ok, List.forall_mem_cons]
    exact ⟨fun ⟨_, ha, hl⟩ => ⟨ha, ih.mp hl⟩, fun ⟨ha, hl⟩ => ⟨(), ha, ih.mpr hl⟩⟩

theorem mem_effectManifest {request : PlanGoalRequest} {step : WorkflowStep}
    (h : step ∈ request.workflow.steps) : step.effect ∈ request.effectManifest := by
  refine List.mem_filter.mpr ⟨?_, List.any_eq_true.mpr ⟨step, h, decide_eq_true rfl⟩⟩
  cases step.effect <;> simp

theorem latestWorkflow?_eq_some {p : WorkflowRow} (h : latestWorkflow? goalId s = some p) :
    p ∈ s.workflows ∧ p.goalId = goalId ∧ s.IsLatest p := by
  obtain ⟨hm, hgoal⟩ := List.mem_filter.mp (pickBy_mem h)
  rw [decide_eq_true_eq] at hgoal
  refine ⟨hm, hgoal, fun q hq hqg => ?_⟩
  have hle := pickBy_before (fun a b => by simpa using Nat.le_total _ _)
    (fun a b c hab hbc => by
      simp only [decide_eq_true_eq] at hab hbc ⊢
      omega) h q (List.mem_filter.mpr ⟨hq, by simpa using hqg.trans hgoal⟩)
  simpa using hle

theorem approveGoal_policies {request : ApproveGoalRequest} {externalWrite : ExternalWritePolicy}
    {internalPolicy : InternalApprovalPolicy} {approvalId : String} {workId : Nat → String}
    (h : approveGoal goalId request externalWrite internalPolicy actor approvalId workId s = .ok s')
    {goal : GoalRow} {plan : WorkflowRow} (hg : s.goal? goalId = some goal)
    (hplan : s.workflows.find? (fun w => w.goalId = goalId ∧ w.goalRevision = goal.revision)
      = some plan) :
    (∀ step ∈ plan.workflow.steps, externalWrite.admits step = true) ∧
      checkAutoApproval internalPolicy actor plan = .ok () := by
  unfold approveGoal at h
  simp only [bind_eq_ok, context_eq_ok, ensure_eq_ok] at h
  obtain ⟨_, -, _, -, _, -, goal', hg', _, -, _, -, plan', hplan', _, -, _, hpol, _, hauto, -⟩ := h
  cases hg.symm.trans hg'
  cases hplan.symm.trans hplan'
  exact ⟨fun step hs => ensure_eq_ok.mp (checkAll_eq_ok.mp hpol step hs), hauto⟩

theorem checkAutoApproval_ok {internalPolicy : InternalApprovalPolicy} {plan : WorkflowRow}
    (h : checkAutoApproval internalPolicy internalAutoActor plan = .ok ()) :
    (∀ effect ∈ plan.effectManifest, effect.rank ≤ internalPolicy.maxEffect.rank) ∧
      plan.workflow.budget.maxProviderCalls ≤ internalPolicy.maxProviderCalls := by
  rw [checkAutoApproval, if_pos rfl, InternalApprovalPolicy.checkPlan] at h
  simp only [bind_eq_ok, ensure_eq_ok, decide_eq_true_eq] at h
  obtain ⟨_, heff, hcalls⟩ := h
  exact ⟨fun effect he => by simpa using ensure_eq_ok.mp (checkAll_eq_ok.mp heff effect he), hcalls⟩

theorem checkExtension_ok {manifest : List EffectClass} {externalWrite : ExternalWritePolicy}
    {seen : List String} {steps : List WorkflowStep}
    (h : checkExtension enc manifest externalWrite seen steps = .ok ()) :
    ∀ step ∈ steps, externalWrite.admits step = true ∧ step.effect ∈ manifest := by
  induction steps generalizing seen with
  | nil => simp
  | cons x steps ih =>
    rw [checkExtension] at h
    simp only [ensure_bind_eq_ok] at h
    obtain ⟨-, -, -, hpol, hman, -, -, -, h⟩ := h
    intro step hs
    rcases List.mem_cons.mp hs with rfl | hs
    · exact ⟨hpol, by simpa using hman⟩
    · exact ih h step hs

theorem extendWorkflow_bound {steps : List WorkflowStep} {externalWrite : ExternalWritePolicy}
    {workId : Nat → String}
    (h : extendWorkflow enc goalId steps externalWrite actor workId s = .ok s') :
    ∃ plan root maxNodes, latestWorkflow? goalId s = some plan ∧
      swarmRoot? plan.workflow = some root ∧
      (root.input.get "max_nodes").bind Value.asU64 = some maxNodes ∧
      (keptItems goalId s).length + steps.length ≤ min maxNodes 32 := by
  unfold extendWorkflow at h
  simp only [bind_eq_ok, context_eq_ok, ensure_eq_ok] at h
  obtain ⟨_, -, _, -, _, -, _, -, goal, -, _, -, plan, hplan, root, hroot, maxNodes, hmax, _, hlen, -⟩ := h
  exact ⟨plan, root, maxNodes, hplan, hroot, hmax, by simpa using hlen⟩

end Plans

/-! ## Every transaction keeps the gate -/

/-- The transactions that insert work items. -/
def Txn.isMaterializing : Txn → Bool
  | .approveGoal .. | .extendWorkflow .. => true
  | _ => false

section Steps

variable {enc : Encoding} {s s' : Store} {t : Txn} {goalId actor : String}

theorem itemOrigins_apply (ht : s.apply enc t = .ok s') (hm : t.isMaterializing = false) :
    s'.workItems.map (·.origin) = s.workItems.map (·.origin) := by
  by_cases hins : t.inserts = false
  · exact congrArg Origin.workItems (origin_apply ht hins)
  cases t with
  | approveGoal | extendWorkflow => cases hm
  | createGoal request actor id =>
    rcases createGoal_ok ht with rfl | ⟨g, -, -, -, rfl⟩ <;> rfl
  | claimWork goalId stepId workerId leaseSecs actor leaseToken attemptId now =>
    rcases claimWork_ok ht with rfl | ⟨goal, row, -, -, -, -, rfl⟩
    · rfl
    · simp [claimed, Store.insertEvent, map_updateWhere, WorkItemRow.origin]
  | prepareCheckpoint claim idempotencyKey replaySafe actor checkpointId now =>
    obtain ⟨checkpoint, ht⟩ := prepareCheckpoint_ok ht
    obtain ⟨-, -, -, -, -, rfl | ⟨-, -, -, -, -, rfl⟩⟩ := prepareCheckpointTx_ok ht <;> rfl
  | _ => exact absurd rfl hins

theorem approved_before (hw : WellFormed s) (ht : s.apply enc t = .ok s') {g' : GoalRow}
    (hg' : g' ∈ s'.goals) (hst : g'.status.isApproved = true) :
    ∃ g ∈ s.goals, g.id = g'.id ∧
      (g.status.isApproved = true ∨ (t.Governs s' g.id .approve ∧ g.status = .reviewReady)) := by
  rcases goal_apply hw ht hg' with ⟨g, hg, hid, rfl | ⟨e, he, hstep⟩⟩ | ⟨-, hnew, -⟩
  · exact ⟨g', hg, rfl, .inl hst⟩
  · refine ⟨g, hg, hid, ?_⟩
    by_cases happ : e = .approve
    · subst happ
      exact .inr ⟨he, by simpa [GoalEvent.allowed] using hstep.allowed⟩
    · rw [hstep.eq] at hst
      exact .inl (GoalEvent.isApproved hstep.allowed happ hst)
  · rw [hnew] at hst
    cases hst

theorem planGoal_kept (hw : WellFormed s) (ht : s.apply enc t = .ok s') {p : WorkflowRow}
    (h : ∃ g ∈ s.goals, g.id = p.goalId ∧ p.goalRevision ≤ g.revision) :
    ∃ g ∈ s'.goals, g.id = p.goalId ∧ p.goalRevision ≤ g.revision := by
  obtain ⟨g, hg, hid, hrev⟩ := h
  obtain ⟨g', hg', hid', hmove⟩ := goal_kept hw ht hg
  exact ⟨g', hg', hid'.trans hid, Nat.le_trans hrev hmove.revision_le⟩

theorem Gated.keep (hw : WellFormed s) (h : Gated s) (ht : s.apply enc t = .ok s')
    (hplan : t.isPlanning = false) (hitems : ∀ w ∈ s'.workItems, s'.IsGated w) : Gated s' := by
  obtain ⟨hp, ha⟩ := plans_apply ht hplan
  refine ⟨hp ▸ h.planIds, hp ▸ h.planRevisions, ?_, hp ▸ h.manifest, ha ▸ h.approvalIds, ?_, hitems⟩
  · rw [hp]
    exact fun p hpm => planGoal_kept hw ht (h.planGoal p hpm)
  · intro g' hg' hst p hpm hgoal hlatest
    obtain ⟨g, hg, hid, hst | ⟨hgov, -⟩⟩ := approved_before hw ht hg' hst
    · rw [hp] at hpm
      unfold Store.IsLatest at hlatest
      rw [hp] at hlatest
      have happ := h.latest g hg hst p hpm (hgoal.trans hid.symm) hlatest
      exact happ.mono (ha ▸ List.Subset.refl _)
    · cases t with
      | approveGoal => cases hplan
      | planGoal => cases hplan
      | _ => simp [Txn.Governs] at hgov

theorem gated_planGoal {request : PlanGoalRequest} {externalWrite : ExternalWritePolicy}
    {planId : String} (hw : WellFormed s) (h : Gated s)
    (ht : s.apply enc (.planGoal goalId request externalWrite actor planId) = .ok s') : Gated s' := by
  obtain ⟨goal, hgoal, hst, -, hfresh, rfl⟩ := planGoal_ok ht
  obtain ⟨hgm, hgid⟩ := goal?_eq_some hgoal
  refine ⟨nodup_concat h.planIds fun x hx => (hfresh x hx).1,
    nodup_concat h.planRevisions fun x hx he => ?_, fun p hp => ?_, fun p hp => ?_, h.approvalIds,
    fun g' hg' hst' p hp hpg hlatest => ?_, fun w hwm => ?_⟩
  · simp only [Prod.mk.injEq] at he
    exact (hfresh x hx).2 he.1 he.2
  · rcases List.mem_append.mp hp with hp | hp
    · exact planGoal_kept hw ht (h.planGoal p hp)
    · cases List.mem_singleton.mp hp
      refine ⟨_, mem_updateWhere.mpr ⟨goal, hgm, rfl⟩, ?_⟩
      simp [hgid]
  · rcases List.mem_append.mp hp with hp | hp
    · exact h.manifest p hp
    · cases List.mem_singleton.mp hp
      exact fun step hs => mem_effectManifest hs
  · obtain ⟨g, hg, hid, happ | ⟨⟨-, hne⟩, -⟩⟩ := approved_before hw ht hg' hst'
    · -- The goal that is planned was in no approved status, so the plan belongs to another.
      have hother : g.id ≠ goalId := by
        intro he
        rw [eq_of_key_eq hw.goalIds hg hgm (he.trans hgid.symm)] at happ
        rcases hst with hst | hst <;> rw [hst] at happ <;> cases happ
      rcases List.mem_append.mp hp with hp | hp
      · exact h.latest g hg happ p hp (hpg.trans hid.symm)
          fun q hq => hlatest q (List.mem_append_left _ hq)
      · cases List.mem_singleton.mp hp
        exact absurd (hid.trans hpg.symm) hother
    · cases hne
  · exact (h.items w hwm).mono (List.subset_append_left _ _) (List.Subset.refl _) rfl

theorem Gated.reviewed (hw : WellFormed s) (h : Gated s) {goal : GoalRow} (hg : goal ∈ s.goals)
    {plan p : WorkflowRow} (hplan : plan ∈ s.workflows) (hp : p ∈ s.workflows)
    (hgoal : plan.goalId = goal.id) (hrev : plan.goalRevision = goal.revision)
    (hpg : p.goalId = goal.id) (hlatest : s.IsLatest p) : p = plan := by
  have hle := hlatest plan hplan (hgoal.trans hpg.symm)
  obtain ⟨g, hgm, hid, hrev'⟩ := h.planGoal p hp
  rw [eq_of_key_eq hw.goalIds hgm hg (hid.trans hpg)] at hrev'
  refine h.plan_eq hp hplan (hpg.trans hgoal.symm) ?_
  omega

theorem plan?_eq_some {revision : Nat} {plan : WorkflowRow}
    (h : s.workflows.find? (fun w => w.goalId = goalId ∧ w.goalRevision = revision) = some plan) :
    plan ∈ s.workflows ∧ plan.goalId = goalId ∧ plan.goalRevision = revision :=
  ⟨List.mem_of_find?_eq_some h, by simpa using List.find?_some h⟩

theorem gated_approveGoal {request : ApproveGoalRequest} {externalWrite : ExternalWritePolicy}
    {internalPolicy : InternalApprovalPolicy} {approvalId : String} {workId : Nat → String}
    (hw : WellFormed s) (h : Gated s) (ht : s.apply enc
      (.approveGoal goalId request externalWrite internalPolicy actor approvalId workId) = .ok s') :
    Gated s' := by
  obtain ⟨goal, plan, workItems, new, dependencies, hgoal, hst, -, hplan, -, hfresh, hitems, -, -, rfl⟩ :=
    approveGoal_ok ht
  obtain ⟨hgm, hgid⟩ := goal?_eq_some hgoal
  obtain ⟨hpm, hpg, hprev⟩ := plan?_eq_some hplan
  have hbound := List.mem_append_right s.approvals (List.mem_singleton_self
    (⟨approvalId, goalId, goal.revision, plan.planHash, actor⟩ : ApprovalRow))
  refine ⟨h.planIds, h.planRevisions, fun p hp => planGoal_kept hw ht (h.planGoal p hp), h.manifest,
    nodup_concat h.approvalIds fun x hx => (hfresh x hx).1,
    fun g' hg' hst' p hp hgp hlatest => ?_, fun w hwm => ?_⟩
  · obtain ⟨g, hg, hid, happ | ⟨⟨he, -⟩, -⟩⟩ := approved_before hw ht hg' hst'
    · exact (h.latest g hg happ p hp (hgp.trans hid.symm) hlatest).mono (List.subset_append_left _ _)
    · have heq := h.reviewed hw hgm hpm hp (hpg.trans hgid.symm) hprev
        (by rw [hgp, ← hid, ← he, hgid]) hlatest
      rw [heq]
      exact ⟨_, hbound, hpg.symm, hprev.symm, rfl⟩
  · rw [show _ = workItems from rfl, (materializeItems_ok hitems).1] at hwm
    rcases List.mem_append.mp hwm with hwm | hwm
    · refine Store.IsGated.mono (s := s) (List.Subset.refl _) ?_ rfl (h.items w hwm)
      exact List.subset_append_left _ _
    · obtain ⟨i, step, hi, rfl⟩ := mem_newItems.mp hwm
      exact ⟨plan, hpm, rfl, hpg, ⟨_, hbound, hpg.symm, hprev.symm, rfl⟩,
        h.manifest plan hpm step (List.mem_of_getElem? hi)⟩

theorem extendWorkflow_items {steps : List WorkflowStep} {externalWrite : ExternalWritePolicy}
    {workId : Nat → String}
    (h : extendWorkflow enc goalId steps externalWrite actor workId s = .ok s') :
    ∃ goal plan, s.goal? goalId = some goal ∧ isExtensible goal.status = true ∧
      latestWorkflow? goalId s = some plan ∧
      (∀ step ∈ steps, externalWrite.admits step = true ∧ step.effect ∈ plan.effectManifest) ∧
      s'.workItems = s.workItems ++
        newItems (extendedItem goalId plan.id workId (nextOrdinal goalId s)) 0 steps := by
  obtain ⟨goal, plan, workItems, new, dependencies, hgoal, hst, hlatest, -, -, hcheck, hitems, -, -, rfl⟩ :=
    extendWorkflow_ok h
  refine ⟨goal, plan, hgoal, hst, hlatest, checkExtension_ok hcheck, ?_⟩
  rw [(refreshGoalStatus_tables goalId).1]
  exact (materializeItems_ok hitems).1

theorem gated_extendWorkflow {steps : List WorkflowStep} {externalWrite : ExternalWritePolicy}
    {workId : Nat → String} (hw : WellFormed s) (h : Gated s)
    (ht : s.apply enc (.extendWorkflow goalId steps externalWrite actor workId) = .ok s') : Gated s' := by
  obtain ⟨hp, ha⟩ := plans_apply ht rfl
  refine h.keep hw ht rfl fun w hwm => ?_
  obtain ⟨goal, plan, hgoal, hst, hlatest, hcheck, hitems⟩ := extendWorkflow_items ht
  obtain ⟨hgm, hgid⟩ := goal?_eq_some hgoal
  obtain ⟨hpm, hpg, hlast⟩ := latestWorkflow?_eq_some hlatest
  have happs : s.approvals ⊆ s'.approvals := ha ▸ List.Subset.refl _
  rw [hitems] at hwm
  rcases List.mem_append.mp hwm with hwm | hwm
  · exact (h.items w hwm).mono (hp ▸ List.Subset.refl _) happs rfl
  · obtain ⟨i, step, hi, rfl⟩ := mem_newItems.mp hwm
    have happ : goal.status.isApproved = true := by
      cases hs : goal.status <;> rw [hs] at hst <;> first | rfl | cases hst
    exact ⟨plan, hp ▸ hpm, rfl, hpg,
      (h.latest goal hgm happ plan hpm (hpg.trans hgid.symm) hlast).mono happs,
      (hcheck step (List.mem_of_getElem? hi)).2⟩

/-- **Every transaction keeps the gate.** -/
theorem gated_apply (hw : WellFormed s) (h : Gated s) (ht : s.apply enc t = .ok s') : Gated s' := by
  by_cases hm : t.isMaterializing = false
  · by_cases hplan : t.isPlanning = false
    · obtain ⟨hp, ha⟩ := plans_apply ht hplan
      refine h.keep hw ht hplan fun w' hw' => ?_
      obtain ⟨w, hwm, ho⟩ := exists_of_map_eq (itemOrigins_apply ht hm).symm hw'
      exact (h.items w hwm).mono (hp ▸ List.Subset.refl _) (ha ▸ List.Subset.refl _) ho.symm
    · cases t with
      | planGoal => exact gated_planGoal hw h ht
      | approveGoal => cases hm
      | _ => exact absurd rfl hplan
  · cases t with
    | approveGoal => exact gated_approveGoal hw h ht
    | extendWorkflow => exact gated_extendWorkflow hw h ht
    | _ => exact absurd rfl hm

theorem gated_exec (hw : WellFormed s) (t : Txn) (h : Gated s) : Gated (exec enc s t) :=
  exec_keeps h fun _ => gated_apply hw h

end Steps

theorem gated_run (enc : Encoding) (ts : List Txn) : WellFormed (Machine.run (exec enc) .empty ts) ∧
    Gated (Machine.run (exec enc) .empty ts) :=
  Machine.run_invariant' (I := fun s => WellFormed s ∧ Gated s)
    (fun _ t h => ⟨wellFormed_exec t h.1, gated_exec h.1 t h.2⟩) ⟨wellFormed_empty, gated_empty⟩

/-! ## The policies that were passed -/

/-- The policy on external writes that a transaction creates items under. -/
def Txn.externalWrite? : Txn → Option ExternalWritePolicy
  | .approveGoal _ _ externalWrite .. | .extendWorkflow _ _ externalWrite .. => some externalWrite
  | _ => none

/-- The policy on approvals without an operator that a transaction approves under. -/
def Txn.internalPolicy? : Txn → Option InternalApprovalPolicy
  | .approveGoal _ _ _ internalPolicy .. => some internalPolicy
  | _ => none

theorem ExternalWritePolicy.allows_of_admits {policy : ExternalWritePolicy} {step : WorkflowStep}
    (h : policy.admits step = true) (he : step.effect = .externalWrite) :
    policy.allows step.handler = true := by
  rw [ExternalWritePolicy.admits, he] at h
  simpa using h

section Policies

variable {enc : Encoding} {s s' : Store} {t : Txn}

/-- The policy that a new item has passed. -/
theorem created_policy (ht : s.apply enc t = .ok s') {w : WorkItemRow} (hwm : w ∈ s'.workItems)
    (hnew : s.workItem? w.id = none) : ∃ policy, t.externalWrite? = some policy ∧
      (w.effectClass = .externalWrite → policy.allows w.handler = true) := by
  rw [workItem?_eq_none] at hnew
  by_cases hm : t.isMaterializing = false
  · obtain ⟨x, hx, ho⟩ := exists_of_map_eq (itemOrigins_apply ht hm).symm hwm
    have hid := congrArg WorkItemRow.id ho
    exact absurd (List.mem_map.mpr ⟨x, hx, hid⟩) hnew
  cases t with
  | approveGoal goalId request externalWrite internalPolicy actor approvalId workId =>
    obtain ⟨goal, plan, workItems, new, dependencies, hgoal, -, -, hplan, -, -, hitems, -, -, rfl⟩ :=
      approveGoal_ok ht
    obtain ⟨hpol, -⟩ := approveGoal_policies ht hgoal hplan
    rw [show _ = workItems from rfl, (materializeItems_ok hitems).1] at hwm
    rcases List.mem_append.mp hwm with hwm | hwm
    · exact absurd (List.mem_map_of_mem hwm) hnew
    · obtain ⟨i, step, hi, rfl⟩ := mem_newItems.mp hwm
      exact ⟨externalWrite, rfl,
        ExternalWritePolicy.allows_of_admits (hpol step (List.mem_of_getElem? hi))⟩
  | extendWorkflow goalId steps externalWrite actor workId =>
    obtain ⟨goal, plan, -, -, -, hcheck, hitems⟩ := extendWorkflow_items ht
    rw [hitems] at hwm
    rcases List.mem_append.mp hwm with hwm | hwm
    · exact absurd (List.mem_map_of_mem hwm) hnew
    · obtain ⟨i, step, hi, rfl⟩ := mem_newItems.mp hwm
      exact ⟨externalWrite, rfl,
        ExternalWritePolicy.allows_of_admits (hcheck step (List.mem_of_getElem? hi)).1⟩
  | _ => exact absurd rfl hm

theorem approval_new (ht : s.apply enc t = .ok s') {a : ApprovalRow} (ha : a ∈ s'.approvals)
    (hnew : a ∉ s.approvals) : ∃ policy plan, t.internalPolicy? = some policy ∧
      plan ∈ s.workflows ∧ plan.goalId = a.goalId ∧ plan.goalRevision = a.goalRevision ∧
      checkAutoApproval policy a.approvedBy plan = .ok () := by
  by_cases hplan : t.isPlanning = false
  · exact absurd ((plans_apply ht hplan).2 ▸ ha) hnew
  cases t with
  | planGoal goalId request externalWrite actor planId =>
    obtain ⟨goal, -, -, -, -, rfl⟩ := planGoal_ok ht
    exact absurd ha hnew
  | approveGoal goalId request externalWrite internalPolicy actor approvalId workId =>
    obtain ⟨goal, plan, workItems, new, dependencies, hgoal, -, -, hplan, -, -, -, -, -, rfl⟩ :=
      approveGoal_ok ht
    obtain ⟨-, hauto⟩ := approveGoal_policies ht hgoal hplan
    obtain ⟨hpm, hpg, hprev⟩ := plan?_eq_some hplan
    rcases List.mem_append.mp ha with ha | ha
    · exact absurd ha hnew
    · cases List.mem_singleton.mp ha
      exact ⟨internalPolicy, plan, rfl, hpm, hpg, hprev, hauto⟩
  | _ => exact absurd rfl hplan

theorem keptItems_extended {goalId actor : String} {steps : List WorkflowStep}
    {externalWrite : ExternalWritePolicy} {workId : Nat → String}
    (h : extendWorkflow enc goalId steps externalWrite actor workId s = .ok s') :
    (keptItems goalId s').length ≤ (keptItems goalId s).length + steps.length := by
  obtain ⟨goal, plan, -, -, -, -, hitems⟩ := extendWorkflow_items h
  rw [keptItems, hitems, List.filter_append, List.length_append, keptItems]
  have hle := List.length_filter_le (fun w : WorkItemRow => w.goalId = goalId ∧ w.status ≠ .canceled)
    (newItems (extendedItem goalId plan.id workId (nextOrdinal goalId s)) 0 steps)
  rw [length_newItems] at hle
  omega

variable (enc) in
theorem plans_exec (s : Store) (t : Txn) : s.workflows ⊆ (exec enc s t).workflows := by
  rcases exec_cases enc s t with he | ht
  · rw [he]
    exact List.Subset.refl _
  by_cases hplan : t.isPlanning = false
  · rw [(plans_apply ht hplan).1]
    exact List.Subset.refl _
  generalize exec enc s t = s' at ht
  cases t with
  | planGoal goalId request externalWrite actor planId =>
    obtain ⟨goal, -, -, -, -, rfl⟩ := planGoal_ok ht
    exact List.subset_append_left _ _
  | approveGoal goalId request externalWrite internalPolicy actor approvalId workId =>
    obtain ⟨goal, plan, workItems, new, dependencies, -, -, -, -, -, -, -, -, -, rfl⟩ :=
      approveGoal_ok ht
    exact List.Subset.refl _
  | _ => exact absurd rfl hplan

variable (enc) in
theorem plans_run (s : Store) (ts : List Txn) : s.workflows ⊆ (Machine.run (exec enc) s ts).workflows :=
  Machine.run_invariant' (I := fun s' : Store => s.workflows ⊆ s'.workflows)
    (fun s' t h => List.Subset.trans h (plans_exec enc s' t)) (List.Subset.refl _)

variable (enc) in
theorem itemOrigin_run {w : WorkItemRow} (h : w ∈ s.workItems) (ts : List Txn) :
    ∃ w' ∈ (Machine.run (exec enc) s ts).workItems, w'.origin = w.origin :=
  Machine.run_invariant' (I := fun s' : Store => ∃ w' ∈ s'.workItems, w'.origin = w.origin)
    (fun s' t hI => by
      obtain ⟨x, hx, ho⟩ := hI
      obtain ⟨x', hx', ho'⟩ := item_exec enc t hx
      exact ⟨x', hx', ho'.trans ho⟩) ⟨w, h, rfl⟩

end Policies

/-! ## Runs -/

section Runs

variable (enc : Encoding) (ts : List Txn)

theorem exists_creation {P : Store → Prop} (h : P .empty)
    (h' : ¬ P (Machine.run (exec enc) .empty ts)) :
    ∃ l t r, ts = l ++ t :: r ∧ P (Machine.run (exec enc) .empty l) ∧
      ¬ P (exec enc (Machine.run (exec enc) .empty l) t) ∧
      (Machine.run (exec enc) .empty l).apply enc t
        = .ok (exec enc (Machine.run (exec enc) .empty l) t) ∧
      Machine.run (exec enc) .empty ts
        = Machine.run (exec enc) (exec enc (Machine.run (exec enc) .empty l) t) r := by
  obtain ⟨l, t, r, rfl, hl, ht⟩ := Machine.exists_exit h h'
  rw [Machine.run_concat] at ht
  refine ⟨l, t, r, rfl, hl, ht, ?_, by rw [Machine.run_append, Machine.run_cons]⟩
  refine (exec_cases enc _ t).resolve_left fun he => ht ?_
  rw [he]
  exact hl

theorem externalWrite_run {w : WorkItemRow} (hwm : w ∈ (Machine.run (exec enc) .empty ts).workItems) :
    ∃ l t r policy, ts = l ++ t :: r ∧
      (Machine.run (exec enc) .empty l).workItem? w.id = none ∧
      (exec enc (Machine.run (exec enc) .empty l) t).workItem? w.id ≠ none ∧
      t.externalWrite? = some policy ∧
      (w.effectClass = .externalWrite → policy.allows w.handler = true) := by
  have hstored : (Machine.run (exec enc) .empty ts).workItem? w.id ≠ none := by
    rw [(wellFormed_run enc ts).workItem? hwm]
    exact Option.some_ne_none w
  obtain ⟨l, t, r, hsplit, hl, ht, happly, hrest⟩ := exists_creation enc ts
    (P := fun s : Store => s.workItem? w.id = none) rfl hstored
  obtain ⟨x, hx⟩ := Option.ne_none_iff_exists'.mp ht
  obtain ⟨hxm, hxid⟩ := workItem?_eq_some hx
  -- The item that was created is the item at the end, up to its status columns.
  obtain ⟨x', hx', ho⟩ := itemOrigin_run enc hxm r
  rw [← hrest] at hx'
  simp only [WorkItemRow.origin, WorkItemRow.mk.injEq] at ho
  cases (wellFormed_run enc ts).item_eq hx' hwm (ho.1.trans hxid)
  obtain ⟨policy, hpolicy, hallows⟩ := created_policy happly hxm (hxid ▸ hl)
  refine ⟨l, t, r, policy, hsplit, hl, ht, hpolicy, fun he => ?_⟩
  rw [ho.2.2.2.2.2.1]
  exact hallows (ho.2.2.2.2.2.2.1 ▸ he)

/-- Each approval without an operator passed the policy of its transaction, which bounds the budget
of the plan and the effects of all its items. -/
theorem autoApproval_run {a : ApprovalRow} (ha : a ∈ (Machine.run (exec enc) .empty ts).approvals)
    (hauto : a.approvedBy = internalAutoActor) :
    ∃ l t r policy, ts = l ++ t :: r ∧ a ∉ (Machine.run (exec enc) .empty l).approvals ∧
      a ∈ (exec enc (Machine.run (exec enc) .empty l) t).approvals ∧
      t.internalPolicy? = some policy ∧
      ∀ p ∈ (Machine.run (exec enc) .empty ts).workflows,
        p.goalId = a.goalId → p.goalRevision = a.goalRevision →
        p.workflow.budget.maxProviderCalls ≤ policy.maxProviderCalls ∧
        ∀ w ∈ (Machine.run (exec enc) .empty ts).workItems, w.workflowId = p.id →
          w.effectClass.rank ≤ policy.maxEffect.rank := by
  obtain ⟨l, t, r, hsplit, hl, ht, happly, hrest⟩ := exists_creation enc ts
    (P := fun s : Store => a ∉ s.approvals) (by simp [Store.empty]) (not_not.mpr ha)
  obtain ⟨policy, plan, hpolicy, hpm, hpg, hprev, hcheck⟩ := approval_new happly (not_not.mp ht) hl
  rw [hauto] at hcheck
  obtain ⟨heff, hcalls⟩ := checkAutoApproval_ok hcheck
  refine ⟨l, t, r, policy, hsplit, hl, not_not.mp ht, hpolicy, fun p hp hgoal hrev => ?_⟩
  have hgated := (gated_run enc ts).2
  have hplan : plan ∈ (Machine.run (exec enc) .empty ts).workflows := by
    rw [hrest]
    exact plans_run enc _ r (plans_exec enc _ t hpm)
  cases hgated.plan_eq hp hplan (hgoal.trans hpg.symm) (hrev.trans hprev.symm)
  refine ⟨hcalls, fun w hwm hwp => heff _ ?_⟩
  obtain ⟨q, hq, hqid, -, -, hmem⟩ := hgated.items w hwm
  rwa [eq_of_key_eq hgated.planIds hq hp (hqid.trans hwp)] at hmem

/-- **The approval gate**, over every run: every item belongs to an approved plan of its goal and to its
effects; the transaction that created an external write was allowed to; an approval without an
operator bounds the plan and all its items; and an accepted extension keeps to the node budget. -/
theorem approval_gate :
    (∀ w ∈ (Machine.run (exec enc) .empty ts).workItems,
      (Machine.run (exec enc) .empty ts).IsGated w) ∧
    (∀ w ∈ (Machine.run (exec enc) .empty ts).workItems, w.effectClass = .externalWrite →
      ∃ l t r policy, ts = l ++ t :: r ∧
        (Machine.run (exec enc) .empty l).workItem? w.id = none ∧
        (exec enc (Machine.run (exec enc) .empty l) t).workItem? w.id ≠ none ∧
        t.externalWrite? = some policy ∧ policy.allows w.handler = true) ∧
    (∀ a ∈ (Machine.run (exec enc) .empty ts).approvals, a.approvedBy = internalAutoActor →
      ∃ l t r policy, ts = l ++ t :: r ∧ a ∉ (Machine.run (exec enc) .empty l).approvals ∧
        a ∈ (exec enc (Machine.run (exec enc) .empty l) t).approvals ∧
        t.internalPolicy? = some policy ∧
        ∀ p ∈ (Machine.run (exec enc) .empty ts).workflows,
          p.goalId = a.goalId → p.goalRevision = a.goalRevision →
          p.workflow.budget.maxProviderCalls ≤ policy.maxProviderCalls ∧
          ∀ w ∈ (Machine.run (exec enc) .empty ts).workItems, w.workflowId = p.id →
            w.effectClass.rank ≤ policy.maxEffect.rank) ∧
    ∀ goalId steps externalWrite actor workId s',
      extendWorkflow enc goalId steps externalWrite actor workId (Machine.run (exec enc) .empty ts)
        = .ok s' →
      ∃ plan root maxNodes,
        latestWorkflow? goalId (Machine.run (exec enc) .empty ts) = some plan ∧
        swarmRoot? plan.workflow = some root ∧
        (root.input.get "max_nodes").bind Value.asU64 = some maxNodes ∧
        (keptItems goalId s').length ≤ min maxNodes 32 := by
  refine ⟨(gated_run enc ts).2.items, fun w hwm he => ?_,
    fun a ha hauto => autoApproval_run enc ts ha hauto,
    fun goalId steps externalWrite actor workId s' h => ?_⟩
  · obtain ⟨l, t, r, policy, hsplit, hl, ht, hpolicy, hallows⟩ := externalWrite_run enc ts hwm
    exact ⟨l, t, r, policy, hsplit, hl, ht, hpolicy, hallows he⟩
  · obtain ⟨plan, root, maxNodes, hplan, hroot, hmax, hlen⟩ := extendWorkflow_bound h
    exact ⟨plan, root, maxNodes, hplan, hroot, hmax, Nat.le_trans (keptItems_extended h) hlen⟩

end Runs

end Xiaomaolv
