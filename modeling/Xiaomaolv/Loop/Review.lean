import Xiaomaolv.Loop.Extension
import Xiaomaolv.Loop.Graph

/-!
# The reviewed plan

Three readers look for the latest plan of a goal: `latest_plan` by creation time and id, `approve_goal` by
the goal's revision, `verify_goal` by the highest revision.

* `Clocked`: the store with the creation times of its plans; `Clocked.latestPlan`: the plan that is shown.
* `Dated`: a plan is written later than the plans of its goal that are stored.
* `newestWorkflow?_eq`: while plans are dated, the order by time is the order by revision.
* `Admissible`, **`approveGoal_reviewed`**: an approval of the reviewed plan commits exactly when its own
  arguments are admissible, and it binds that plan.
* **`reviewed_is_bound`**: in a run of dated plans the plan shown is the plan bound and verified.
-/

namespace Xiaomaolv

open Table LoopStore

/-! ## Plans with their creation times -/

/-- The store, and the `created_at` column of `harness_workflows` by plan id. -/
structure Clocked where
  store : Store
  createdAt : String → Int

/-- The goal and the id of the plan that the transaction inserts. -/
def Txn.inserted? : Txn → Option (String × String)
  | .planGoal goalId _ _ _ planId => some (goalId, planId)
  | _ => none

/-- The transaction is a planning of the goal that commits. -/
def Txn.plans (enc : Encoding) (s : Store) (t : Txn) (goalId : String) : Bool :=
  (s.apply enc t).isOk && t.inserted?.any fun new => new.1 = goalId

namespace Clocked

def empty : Clocked := ⟨.empty, fun _ => 0⟩

/-- A transaction at the time `t.2`; `created_at` defaults to `unixepoch()`. -/
def exec (enc : Encoding) (c : Clocked) (t : Txn × Int) : Clocked where
  store := Xiaomaolv.exec enc c.store t.1
  createdAt := match c.store.apply enc t.1, t.1.inserted? with
    | .ok _, some (_, planId) => Function.update c.createdAt planId t.2
    | _, _ => c.createdAt

/-- `a` comes before `b` in `ORDER BY created_at DESC, id DESC`. -/
def isNewer (c : Clocked) (a b : WorkflowRow) : Bool :=
  c.createdAt b.id < c.createdAt a.id ∨ (c.createdAt b.id = c.createdAt a.id ∧ b.id < a.id)

/-- `ORDER BY created_at DESC, id DESC LIMIT 1`. -/
def newestWorkflow? (goalId : String) (c : Clocked) : Option WorkflowRow :=
  pickBy (fun a b => !c.isNewer b a) (c.store.workflows.filter fun w => w.goalId = goalId)

end Clocked

structure PlannedGoal where
  goal : GoalRecord
  planHash : String
  workflow : WorkflowSpec
  acceptanceCriteria : List AcceptanceCriterion
  effectManifest : List EffectClass
  deriving DecidableEq

/-- The plan beside its goal, as a reader returns them. -/
def WorkflowRow.planned (p : WorkflowRow) (goal : GoalRecord) : PlannedGoal :=
  ⟨goal, p.planHash, p.workflow, p.acceptance, p.effectManifest⟩

/-- `latest_plan`. -/
def Clocked.latestPlan (goalId : String) (c : Clocked) : Except String (Option PlannedGoal) := do
  ensureValidId goalId "goal id"
  match c.store.goal? goalId with
  | none => pure none
  | some row =>
    let goal ← decodeGoal row
    match c.newestWorkflow? goalId with
    | none => pure none
    | some p => pure (some (p.planned goal))

/-- A plan is written later than the plans of its goal: by the clock, and within a second by its id. -/
def Dated (enc : Encoding) (c : Clocked) (t : Txn × Int) : Prop :=
  ∀ new ∈ t.1.inserted?, (c.store.apply enc t.1).isOk = true → ∀ p ∈ c.store.workflows, p.goalId = new.1 →
    c.createdAt p.id < t.2 ∨ (c.createdAt p.id = t.2 ∧ p.id < new.2)

instance (enc : Encoding) (c : Clocked) (t : Txn × Int) : Decidable (Dated enc c t) :=
  inferInstanceAs (Decidable (∀ new ∈ t.1.inserted?, (c.store.apply enc t.1).isOk = true →
    ∀ p ∈ c.store.workflows, p.goalId = new.1 →
      c.createdAt p.id < t.2 ∨ (c.createdAt p.id = t.2 ∧ p.id < new.2)))

/-! ## Inserts that meet no stored key -/

section Inserts

variable {steps : List WorkflowStep} {workId : Nat → String}

theorem materializeItems_isOk {row : Nat → WorkflowStep → WorkItemRow} {n : Nat} {items : List WorkItemRow}
    (hids : ((items ++ newItems row n steps).map (·.id)).Nodup)
    (hkeys : ((items ++ newItems row n steps).map fun w => (w.workflowId, w.stepId)).Nodup) :
    materializeItems row n steps items = .ok (items ++ newItems row n steps) := by
  induction steps generalizing n items with
  | nil => rw [materializeItems, newItems, List.append_nil]
  | cons step steps ih =>
    rw [newItems, List.append_cons] at hids hkeys ⊢
    have hinsert : insertRow
        (fun w => w.id = (row n step).id ∨
          (w.workflowId = (row n step).workflowId ∧ w.stepId = (row n step).stepId))
        "failed to materialize work item" (row n step) items = .ok (items ++ [row n step]) := by
      refine insertRow_eq_ok.mpr ⟨fun w hwm => ?_, rfl⟩
      simp only [List.map_append, List.map_cons, List.map_nil, List.append_assoc, List.nodup_append,
        List.mem_map, List.mem_append, List.mem_singleton] at hids hkeys
      have hid := hids.2.2 w.id ⟨w, hwm, rfl⟩ (row n step).id (.inl rfl)
      have hkey := hkeys.2.2 (w.workflowId, w.stepId) ⟨w, hwm, rfl⟩ _ (.inl rfl)
      simpa [hid] using hkey
    rw [materializeItems, hinsert]
    exact ih hids hkeys

theorem insertDependencies_isOk {message : String} {ds rows : List DependencyRow} (hnodup : ds.Nodup)
    (hfresh : ∀ d ∈ ds, d ∉ rows) : insertDependencies message ds rows = .ok (rows ++ ds) := by
  induction ds generalizing rows with
  | nil => rw [insertDependencies, List.append_nil]
  | cons d ds ih =>
    obtain ⟨hd, hnodup⟩ := List.nodup_cons.mp hnodup
    have hinsert : insertRow (fun r => r = d) message d rows = .ok (rows ++ [d]) := by
      refine insertRow_eq_ok.mpr ⟨fun r hr => ?_, rfl⟩
      have hne : r ≠ d := fun he => hfresh d List.mem_cons_self (he ▸ hr)
      simpa using hne
    rw [insertDependencies, List.append_cons rows d ds, hinsert]
    refine ih hnodup fun x hx hmem => ?_
    rcases List.mem_append.mp hmem with hmem | hmem
    · exact hfresh x (List.mem_cons_of_mem _ hx) hmem
    · exact hd (List.mem_singleton.mp hmem ▸ hx)

/-- The place of a step in its plan. -/
def placeOf (steps : List WorkflowStep) (stepId : String) : Nat :=
  steps.findIdx fun step => step.id = stepId

theorem placeOf_lt {stepId : String} (h : stepId ∈ steps.map (·.id)) :
    placeOf steps stepId < steps.length := by
  obtain ⟨step, hs, he⟩ := List.mem_map.mp h
  exact List.findIdx_lt_length_of_exists ⟨step, hs, by simpa using he⟩

theorem placeOf_inj {a b : String} (ha : a ∈ steps.map (·.id)) (hb : b ∈ steps.map (·.id))
    (h : placeOf steps a = placeOf steps b) : a = b := by
  have hfound : ∀ {x : String} (hx : x ∈ steps.map (·.id)),
      (steps.get ⟨placeOf steps x, placeOf_lt hx⟩).id = x := fun {x} hx => by
    have hget := List.findIdx_of_getElem?_eq_some (List.getElem?_eq_getElem (placeOf_lt hx))
    simpa using hget
  rw [← hfound ha, ← hfound hb]
  simp only [h]

theorem batchId?_of_mem {stepId : String} (h : stepId ∈ steps.map (·.id)) :
    batchId? workId steps stepId = some (workId (placeOf steps stepId)) := by
  rw [batchId?, List.findIdx?_eq_some_of_exists (by simpa using h)]
  rfl

/-- The dependency row of an edge between steps of the plan. -/
def dependencyOf (workId : Nat → String) (steps : List WorkflowStep) (edge : WorkflowEdge) : DependencyRow :=
  ⟨workId (placeOf steps edge.toId), workId (placeOf steps edge.fromId)⟩

theorem edgeDependencies_eq {edges : List WorkflowEdge} (hsources : ∀ edge ∈ edges, edge.fromId ∈ steps.map (·.id))
    (hends : ∀ edge ∈ edges, edge.toId ∈ steps.map (·.id)) :
    edgeDependencies workId steps edges = .ok (edges.map (dependencyOf workId steps)) := by
  induction edges with
  | nil => rfl
  | cons edge edges ih =>
    rw [List.forall_mem_cons] at hsources hends
    rw [edgeDependencies, ih hsources.2 hends.2, edgeDependency, batchId?_of_mem hends.1,
      batchId?_of_mem hsources.1]
    rfl

end Inserts

/-! ## What planning keeps -/

section Stored

variable {enc : Encoding} {s s' : Store} {t : Txn} {goalId actor : String}

theorem plan_written (ht : s.apply enc t = .ok s') {p : WorkflowRow} (hp : p ∈ s'.workflows) :
    p ∈ s.workflows ∨ ∃ goal request externalWrite, t.inserted? = some (p.goalId, p.id) ∧
      goal ∈ s.goals ∧ goal.id = p.goalId ∧ p.goalRevision = goal.revision + 1 ∧
      ensureValidId p.goalId "goal id" = .ok () ∧ request.validateWithPolicy enc externalWrite = .ok () ∧
      p.planHash = enc.planHash request ∧ p.workflow = request.workflow := by
  by_cases hplan : t.isPlanning = false
  · rw [(plans_apply ht hplan).1] at hp
    exact .inl hp
  cases t with
  | planGoal goalId request externalWrite actor planId =>
    have hid : ensureValidId goalId "goal id" = .ok () := by
      have h : planGoal enc goalId request externalWrite actor planId s = .ok s' := ht
      unfold planGoal at h
      simp only [bind_eq_ok] at h
      obtain ⟨_, -, _, -, _, hid, -⟩ := h
      exact hid
    obtain ⟨goal, hg, -, hv, -, rfl⟩ := planGoal_ok ht
    obtain ⟨hgm, hgid⟩ := goal?_eq_some hg
    rcases List.mem_append.mp hp with hp | hp
    · exact .inl hp
    · cases List.mem_singleton.mp hp
      exact .inr ⟨goal, request, externalWrite, rfl, hgm, hgid, rfl, hid, hv, rfl, rfl⟩
  | approveGoal =>
    obtain ⟨goal, plan, workItems, new, dependencies, -, -, -, -, -, -, -, -, -, rfl⟩ := approveGoal_ok ht
    exact .inl hp
  | _ => exact absurd rfl hplan

/-- Approvals bind revisions that their goals have left, and a goal in review has the plan of its revision. -/
structure Reviewable (enc : Encoding) (s : Store) : Prop where
  goalId : ∀ p ∈ s.workflows, ensureValidId p.goalId "goal id" = .ok ()
  graph : ∀ p ∈ s.workflows, p.workflow.WellGraphed
  hash : ∀ p ∈ s.workflows, ∃ request, p.planHash = enc.planHash request
  approvals : ∀ a ∈ s.approvals, ∃ g ∈ s.goals, g.id = a.goalId ∧ a.goalRevision < g.revision
  reviewed : ∀ g ∈ s.goals, g.status = .reviewReady →
    ∃ p ∈ s.workflows, p.goalId = g.id ∧ p.goalRevision = g.revision

theorem reviewable_empty (enc : Encoding) : Reviewable enc .empty := by
  constructor <;> simp [Store.empty]

theorem approval_written (ht : s.apply enc t = .ok s') {a : ApprovalRow} (ha : a ∈ s'.approvals) :
    a ∈ s.approvals ∨ ∃ g ∈ s'.goals, g.id = a.goalId ∧ a.goalRevision < g.revision := by
  by_cases hplan : t.isPlanning = false
  · rw [(plans_apply ht hplan).2] at ha
    exact .inl ha
  cases t with
  | planGoal goalId request externalWrite actor planId =>
    obtain ⟨goal, -, -, -, -, rfl⟩ := planGoal_ok ht
    exact .inl ha
  | approveGoal goalId request externalWrite internalPolicy actor approvalId workId =>
    obtain ⟨goal, plan, workItems, new, dependencies, hg, -, -, -, -, -, -, -, -, rfl⟩ := approveGoal_ok ht
    obtain ⟨hgm, hgid⟩ := goal?_eq_some hg
    rcases List.mem_append.mp ha with ha | ha
    · exact .inl ha
    · cases List.mem_singleton.mp ha
      refine .inr ⟨_, mem_updateWhere.mpr ⟨goal, hgm, rfl⟩, ?_⟩
      simp [hgid]
  | _ => exact absurd rfl hplan

theorem reviewReady_apply (hw : WellFormed s) (ht : s.apply enc t = .ok s') {g' : GoalRow}
    (hg' : g' ∈ s'.goals) (hst : g'.status = .reviewReady) :
    g' ∈ s.goals ∨ ∃ p ∈ s'.workflows, p.goalId = g'.id ∧ p.goalRevision = g'.revision := by
  rcases goal_apply hw ht hg' with ⟨g, hg, hid, rfl | ⟨e, hgov, hstep⟩⟩ | ⟨-, hnew, -⟩
  · exact .inl hg
  · have he : e.status = .reviewReady := by
      rw [← hst, hstep.eq]
    cases e with
    | plan =>
      cases t with
      | planGoal goalId request externalWrite actor planId =>
        obtain ⟨goal, hgoal, -, -, -, rfl⟩ := planGoal_ok ht
        obtain ⟨hgm, hgid⟩ := goal?_eq_some hgoal
        have hsame : goal = g := eq_of_key_eq hw.goalIds hgm hg (hgid.trans hgov.1)
        refine .inr ⟨_, List.mem_append_right _ List.mem_cons_self, hgov.1.trans hid, ?_⟩
        rw [hstep.eq, hsame]
        rfl
      | _ => simp [Txn.Governs] at hgov
    | refresh next =>
      have hallowed := hstep.allowed
      rw [show next = .reviewReady from he] at hallowed
      simp [GoalEvent.allowed] at hallowed
    | _ => cases he
  · rw [hst] at hnew
    cases hnew

theorem reviewable_apply (hw : WellFormed s) (h : Reviewable enc s) (ht : s.apply enc t = .ok s') :
    Reviewable enc s' := by
  refine ⟨fun p hp => ?_, fun p hp => ?_, fun p hp => ?_, fun a ha => ?_, fun g' hg' hst => ?_⟩
  · rcases plan_written ht hp with hp | ⟨_, _, _, -, -, -, -, hid, -⟩
    · exact h.goalId p hp
    · exact hid
  · rcases plan_written ht hp with hp | ⟨_, request, _, -, -, -, -, -, hv, -, hspec⟩
    · exact h.graph p hp
    · rw [PlanGoalRequest.validateWithPolicy, bind_eq_ok] at hv
      obtain ⟨_, hworkflow, -⟩ := hv
      rw [hspec]
      exact (validateWithPolicy_iff.mp hworkflow).2
  · rcases plan_written ht hp with hp | ⟨_, request, _, -, -, -, -, -, -, hhash, -⟩
    · exact h.hash p hp
    · exact ⟨request, hhash⟩
  · rcases approval_written ht ha with ha | hnew
    · obtain ⟨g, hg, hid, hrev⟩ := h.approvals a ha
      obtain ⟨g', hg', hid', hmove⟩ := goal_kept hw ht hg
      exact ⟨g', hg', hid'.trans hid, Nat.lt_of_lt_of_le hrev hmove.revision_le⟩
    · exact hnew
  · rcases reviewReady_apply hw ht hg' hst with hold | hnew
    · obtain ⟨p, hp, hkey⟩ := h.reviewed g' hold hst
      refine ⟨p, ?_, hkey⟩
      have hkeeps := plans_exec enc s t
      rw [exec_of_ok ht] at hkeeps
      exact hkeeps hp
    · exact hnew

end Stored

/-! ## The order of the plans -/

/-- A later revision is a newer plan. -/
def Clocked.InOrder (c : Clocked) : Prop :=
  ∀ p ∈ c.store.workflows, ∀ q ∈ c.store.workflows, p.goalId = q.goalId → p.goalRevision < q.goalRevision →
    c.isNewer q p = true

theorem Clocked.isNewer_asymm {c : Clocked} {a b : WorkflowRow} (h : c.isNewer a b = true) :
    c.isNewer b a = false := by
  rw [Clocked.isNewer, decide_eq_true_eq] at h
  rw [Clocked.isNewer, decide_eq_false_iff_not]
  rintro (hlt | ⟨heq, hid⟩)
  · omega
  · rcases h with hlt | ⟨-, hid'⟩
    · omega
    · exact String.lt_asymm hid hid'

theorem pickBy_congr {α : Type} {before before' : α → α → Bool} {l : List α}
    (h : ∀ a ∈ l, ∀ b ∈ l, before a b = before' a b) : pickBy before l = pickBy before' l := by
  induction l with
  | nil => rfl
  | cons x l ih =>
    rw [pickBy, pickBy, ih fun a ha b hb => h a (List.mem_cons_of_mem _ ha) b (List.mem_cons_of_mem _ hb)]
    split
    · rfl
    · rename_i b hb
      rw [h x List.mem_cons_self b (List.mem_cons_of_mem _ (pickBy_mem hb))]

/-- **The order by time is the order by revision.** -/
theorem newestWorkflow?_eq {c : Clocked} (hg : Gated c.store) (h : c.InOrder) (goalId : String) :
    c.newestWorkflow? goalId = latestWorkflow? goalId c.store := by
  refine pickBy_congr fun a ha b hb => ?_
  simp only [List.mem_filter, decide_eq_true_eq] at ha hb
  rcases Nat.lt_trichotomy a.goalRevision b.goalRevision with hlt | heq | hlt
  · rw [h a ha.1 b hb.1 (ha.2.trans hb.2.symm) hlt, Bool.not_true, eq_comm, decide_eq_false_iff_not]
    omega
  · rw [hg.plan_eq ha.1 hb.1 (ha.2.trans hb.2.symm) heq]
    have hself : c.isNewer b b = false := by
      rw [Clocked.isNewer, decide_eq_false_iff_not]
      rintro (hlt | ⟨-, hlt⟩)
      · omega
      · exact String.lt_irrefl _ hlt
    rw [hself, Bool.not_false, eq_comm, decide_eq_true_eq]
  · rw [Clocked.isNewer_asymm (h b hb.1 a ha.1 (hb.2.trans ha.2.symm) hlt), Bool.not_false, eq_comm,
      decide_eq_true_eq]
    omega

section Clock

variable {enc : Encoding} {c : Clocked} {t : Txn × Int}

theorem inserted_fresh {s s' : Store} {t : Txn} (ht : s.apply enc t = .ok s') {goalId planId : String}
    (hnew : t.inserted? = some (goalId, planId)) : ∀ p ∈ s.workflows, p.id ≠ planId := by
  cases t with
  | planGoal =>
    cases hnew
    obtain ⟨goal, -, -, -, hfresh, -⟩ := planGoal_ok ht
    exact fun p hp => (hfresh p hp).1
  | _ => cases hnew

theorem createdAt_exec {p : WorkflowRow} (hp : p ∈ c.store.workflows) :
    (c.exec enc t).createdAt p.id = c.createdAt p.id := by
  cases ht : c.store.apply enc t.1 with
  | error e => simp only [Clocked.exec, ht]
  | ok s' =>
    cases hnew : t.1.inserted? with
    | none => simp only [Clocked.exec, ht, hnew]
    | some new =>
      simp only [Clocked.exec, ht, hnew]
      exact Function.update_of_ne (inserted_fresh ht hnew p hp) _ _

theorem createdAt_inserted {s' : Store} (ht : c.store.apply enc t.1 = .ok s') {goalId planId : String}
    (hnew : t.1.inserted? = some (goalId, planId)) : (c.exec enc t).createdAt planId = t.2 := by
  unfold Clocked.exec
  rw [ht, hnew]
  exact Function.update_self _ _ _

/-- **Dated plans stay in order.** -/
theorem inOrder_exec (hw : WellFormed c.store) (hg : Gated c.store) (hdated : Dated enc c t)
    (h : c.InOrder) : (c.exec enc t).InOrder := by
  intro p hp q hq hgoal hrev
  rw [Clocked.isNewer, decide_eq_true_eq]
  cases ht : c.store.apply enc t.1 with
  | error e =>
    have hstore : (c.exec enc t).store = c.store := by rw [Clocked.exec, exec, ht, Store.orElse]
    rw [hstore] at hp hq
    have hold := h p hp q hq hgoal hrev
    rw [createdAt_exec hp, createdAt_exec hq]
    simpa [Clocked.isNewer] using hold
  | ok s' =>
    have hstore : (c.exec enc t).store = s' := exec_of_ok ht
    rw [hstore] at hp hq
    have hok : (c.store.apply enc t.1).isOk = true := by rw [ht]; rfl
    rcases plan_written ht hp with hpo | ⟨goal, _, _, hpn, hgm, hgid, hprev, -⟩
    · rcases plan_written ht hq with hqo | ⟨_, _, _, hqn, -⟩
      · have hold := h p hpo q hqo hgoal hrev
        rw [createdAt_exec hpo, createdAt_exec hqo]
        simpa [Clocked.isNewer] using hold
      · rw [createdAt_exec hpo, createdAt_inserted ht hqn]
        exact hdated _ hqn hok p hpo hgoal
    · -- The new plan has the highest revision of its goal.
      exfalso
      rcases plan_written ht hq with hqo | ⟨goal', _, _, -, hgm', hgid', hqrev, -⟩
      · obtain ⟨g, hg', hid, hle⟩ := hg.planGoal q hqo
        rw [eq_of_key_eq hw.goalIds hg' hgm (hid.trans (hgoal.symm.trans hgid.symm))] at hle
        omega
      · rw [eq_of_key_eq hw.goalIds hgm' hgm (hgid'.trans (hgoal.symm.trans hgid.symm))] at hqrev
        omega

end Clock

/-! ## The approval of the reviewed plan -/

/-- What an approval needs beside the reviewed revision and hash: a valid actor, the policies in effect, and ids
that are not in use. -/
structure Admissible (p : WorkflowRow) (externalWrite : ExternalWritePolicy)
    (internalPolicy : InternalApprovalPolicy) (actor approvalId : String) (workId : Nat → String) (s : Store) :
    Prop where
  validActor : validateActor actor = .ok ()
  admits : ∀ step ∈ p.workflow.steps, externalWrite.admits step = true
  auto : checkAutoApproval internalPolicy actor p = .ok ()
  approvalId : ∀ a ∈ s.approvals, a.id ≠ approvalId
  unused : ∀ i < p.workflow.steps.length, ∀ w ∈ s.workItems, w.id ≠ workId i
  distinct : ∀ i < p.workflow.steps.length, ∀ j < p.workflow.steps.length, workId i = workId j → i = j

/-- The goal after its plan is approved: approval, items, dependencies and budget are those of the plan. -/
def bound (goal : GoalRow) (p : WorkflowRow) (actor approvalId : String) (workId : Nat → String) (s : Store) :
    Store :=
  { s with
    approvals := s.approvals ++ ([⟨approvalId, goal.id, goal.revision, p.planHash, actor⟩] : List ApprovalRow)
    workItems := s.workItems ++ newItems (approvedItem goal.id p workId) 0 p.workflow.steps
    dependencies := s.dependencies ++ p.workflow.edges.map (dependencyOf workId p.workflow.steps)
    budgets := replaceBudget goal.id p.workflow.budget s.budgets
    goals := updateWhere (fun g => g.id = goal.id)
      (fun g => { g with status := .approved, revision := goal.revision + 1 }) s.goals
    }.insertEvent goal.id "goal.approved" actor

section Approval

variable {enc : Encoding} {s s' : Store} {goal : GoalRow} {p : WorkflowRow}
variable {externalWrite : ExternalWritePolicy} {internalPolicy : InternalApprovalPolicy}
variable {actor approvalId : String} {workId : Nat → String}

theorem newItems_eq (row : Nat → WorkflowStep → WorkItemRow) (n : Nat) (steps : List WorkflowStep) :
    newItems row n steps = (steps.zipIdx n).map fun e => row e.2 e.1 := by
  induction steps generalizing n with
  | nil => rfl
  | cons step steps ih => rw [newItems, ih, List.zipIdx_cons, List.map_cons]

theorem approvedItem_ids (goalId : String) (p : WorkflowRow) (workId : Nat → String) :
    (newItems (approvedItem goalId p workId) 0 p.workflow.steps).map (·.id)
      = (List.range p.workflow.steps.length).map workId := by
  have hplaces : (p.workflow.steps.zipIdx 0).map (·.2) = List.range p.workflow.steps.length := by
    rw [List.zipIdx_map_snd, List.range_eq_range']
  rw [newItems_eq, ← hplaces, List.map_map, List.map_map]
  rfl

theorem approvedItem_keys (goalId : String) (p : WorkflowRow) (workId : Nat → String) :
    (newItems (approvedItem goalId p workId) 0 p.workflow.steps).map (fun w => (w.workflowId, w.stepId))
      = (p.workflow.steps.map (·.id)).map fun id => (p.id, id) := by
  have hsteps : (p.workflow.steps.zipIdx 0).map (·.1) = p.workflow.steps := List.zipIdx_map_fst _ _
  conv_rhs => rw [← hsteps]
  rw [newItems_eq, List.map_map, List.map_map, List.map_map]
  rfl

theorem Reviewable.unbound (hw : WellFormed s) (hg : Gated s) (h : Reviewable enc s) (hgm : goal ∈ s.goals)
    (hp : p ∈ s.workflows) (hgoal : p.goalId = goal.id) (hrev : p.goalRevision = goal.revision) :
    (∀ a ∈ s.approvals, a.goalId = goal.id → a.goalRevision ≠ goal.revision) ∧
      ∀ w ∈ s.workItems, w.workflowId ≠ p.id := by
  have hleft : ∀ a ∈ s.approvals, a.goalId = goal.id → a.goalRevision ≠ goal.revision := by
    intro a ha hag
    obtain ⟨g, hg', hid, hlt⟩ := h.approvals a ha
    rw [eq_of_key_eq hw.goalIds hg' hgm (hid.trans hag)] at hlt
    omega
  refine ⟨hleft, fun w hwm hid => ?_⟩
  obtain ⟨q, hq, hqid, -, ⟨a, ha, hag, har, -⟩, -⟩ := hg.items w hwm
  rw [eq_of_key_eq hg.planIds hq hp (hqid.trans hid)] at hag har
  exact hleft a ha (hag.trans hgoal) (har.trans hrev)

theorem plan?_of_mem (hg : Gated s) (hp : p ∈ s.workflows) (hgoal : p.goalId = goal.id)
    (hrev : p.goalRevision = goal.revision) :
    s.workflows.find? (fun w => w.goalId = goal.id ∧ w.goalRevision = goal.revision) = some p := by
  cases hfind : s.workflows.find? (fun w => w.goalId = goal.id ∧ w.goalRevision = goal.revision) with
  | none =>
    rw [List.find?_eq_none] at hfind
    exact absurd (by simpa using ⟨hgoal, hrev⟩) (hfind p hp)
  | some q =>
    obtain ⟨hq, hqg, hqr⟩ := plan?_eq_some hfind
    rw [hg.plan_eq hq hp (hqg.trans hgoal.symm) (hqr.trans hrev.symm)]

/-- The items of the plan are materialised when the ids drawn for them are unused. -/
theorem materialize_approved (hw : WellFormed s) (hpl : Placed s) (hgraph : p.workflow.WellGraphed)
    (hempty : ∀ w ∈ s.workItems, w.workflowId ≠ p.id) {items : List WorkItemRow} :
    materializeItems (approvedItem goal.id p workId) 0 p.workflow.steps s.workItems = .ok items ↔
      ((∀ i < p.workflow.steps.length, ∀ w ∈ s.workItems, w.id ≠ workId i) ∧
        ∀ i < p.workflow.steps.length, ∀ j < p.workflow.steps.length, workId i = workId j → i = j) ∧
      items = s.workItems ++ newItems (approvedItem goal.id p workId) 0 p.workflow.steps := by
  constructor
  · intro h
    obtain ⟨rfl, hids, -⟩ := materializeItems_ok h
    have hnodup := hids hw.itemIds
    rw [List.map_append, approvedItem_ids, List.nodup_append] at hnodup
    refine ⟨⟨fun i hi w hwm hid => ?_, fun i hi j hj he => ?_⟩, rfl⟩
    · exact hnodup.2.2 w.id (List.mem_map_of_mem hwm) (workId i)
        (List.mem_map_of_mem (List.mem_range.mpr hi)) hid
    · exact List.inj_on_of_nodup_map hnodup.2.1 (List.mem_range.mpr hi) (List.mem_range.mpr hj) he
  · rintro ⟨⟨hunused, hdistinct⟩, rfl⟩
    refine materializeItems_isOk ?_ ?_
    · rw [List.map_append, approvedItem_ids, List.nodup_append]
      refine ⟨hw.itemIds, List.Nodup.map_on (fun i hi j hj => ?_) List.nodup_range, ?_⟩
      · exact hdistinct i (List.mem_range.mp hi) j (List.mem_range.mp hj)
      · intro id hid new hnew
        obtain ⟨w, hwm, rfl⟩ := List.mem_map.mp hid
        obtain ⟨i, hi, rfl⟩ := List.mem_map.mp hnew
        exact hunused i (List.mem_range.mp hi) w hwm
    · rw [List.map_append, approvedItem_keys, List.nodup_append]
      refine ⟨hpl.steps, hgraph.ids.map fun a b h => congrArg Prod.snd h, ?_⟩
      intro key hkey new hnew he
      obtain ⟨w, hwm, rfl⟩ := List.mem_map.mp hkey
      obtain ⟨id, -, rfl⟩ := List.mem_map.mp hnew
      exact hempty w hwm (congrArg Prod.fst he)

theorem insert_approved (hw : WellFormed s) (hgraph : p.workflow.WellGraphed) {message : String}
    (hunused : ∀ i < p.workflow.steps.length, ∀ w ∈ s.workItems, w.id ≠ workId i)
    (hdistinct : ∀ i < p.workflow.steps.length, ∀ j < p.workflow.steps.length, workId i = workId j → i = j) :
    insertDependencies message (p.workflow.edges.map (dependencyOf workId p.workflow.steps)) s.dependencies
      = .ok (s.dependencies ++ p.workflow.edges.map (dependencyOf workId p.workflow.steps)) := by
  have hplace : ∀ {a b : String}, a ∈ p.workflow.steps.map (·.id) → b ∈ p.workflow.steps.map (·.id) →
      workId (placeOf p.workflow.steps a) = workId (placeOf p.workflow.steps b) → a = b :=
    fun ha hb he => placeOf_inj ha hb (hdistinct _ (placeOf_lt ha) _ (placeOf_lt hb) he)
  refine insertDependencies_isOk (List.Nodup.map_on (fun e he f hf heq => ?_) hgraph.noDuplicate) ?_
  · rw [dependencyOf, dependencyOf, DependencyRow.mk.injEq] at heq
    have hto := hplace (hgraph.ends e he) (hgraph.ends f hf) heq.1
    have hfrom := hplace (hgraph.sources e he) (hgraph.sources f hf) heq.2
    cases e
    cases f
    rw [WorkflowEdge.mk.injEq]
    exact ⟨hfrom, hto⟩
  · intro d hd hold
    obtain ⟨edge, hedge, rfl⟩ := List.mem_map.mp hd
    obtain ⟨w, hwm, -, -, hid, -⟩ := hw.dependencyItems _ hold
    exact hunused _ (placeOf_lt (hgraph.ends edge hedge)) w hwm hid

/-- **The approval of a goal in review** commits exactly for the revision and the hash of its plan with
admissible arguments, and it binds that plan. -/
theorem approveGoal_reviewed (henc : ∀ request, startsWith (enc.planHash request) "sha256:" = true)
    (hw : WellFormed s) (hg : Gated s) (hpl : Placed s) (h : Reviewable enc s) (hgm : goal ∈ s.goals)
    (hst : goal.status = .reviewReady) (hp : p ∈ s.workflows) (hgoal : p.goalId = goal.id)
    (hrev : p.goalRevision = goal.revision) {request : ApproveGoalRequest} :
    approveGoal goal.id request externalWrite internalPolicy actor approvalId workId s = .ok s' ↔
      request = ⟨goal.revision, p.planHash⟩ ∧
      Admissible p externalWrite internalPolicy actor approvalId workId s ∧
      s' = bound goal p actor approvalId workId s := by
  obtain ⟨hleft, hempty⟩ := h.unbound hw hg hgm hp hgoal hrev
  have hgraph := h.graph p hp
  have hedges : edgeDependencies workId p.workflow.steps p.workflow.edges
      = .ok (p.workflow.edges.map (dependencyOf workId p.workflow.steps)) :=
    edgeDependencies_eq hgraph.sources hgraph.ends
  have hfound : s.goal? goal.id = some goal := find?_of_mem hw.goalIds hgm
  have hplan := plan?_of_mem hg hp hgoal hrev
  unfold approveGoal
  simp only [bind_eq_ok, context_eq_ok, ensure_eq_ok, insertRow_eq_ok, pure_eq_ok]
  constructor
  · rintro ⟨_, hactor, _, -, _, -, goal', hfound', _, -, _, hrevision, p', hplan', _, hhash, _, hadmits, _, hauto,
      _, ⟨hfresh, rfl⟩, items, hitems, ds, hds, deps, hdeps, rfl⟩
    cases hfound.symm.trans hfound'
    cases hplan.symm.trans hplan'
    cases hedges.symm.trans hds
    obtain ⟨⟨hunused, hdistinct⟩, rfl⟩ := (materialize_approved hw hpl hgraph hempty).mp hitems
    rw [insertDependencies_ok hdeps]
    simp only [decide_eq_true_eq, decide_eq_false_iff_not, not_or] at hrevision hhash hfresh
    refine ⟨?_, ⟨hactor, fun step hs => ?_, hauto, fun a ha => (hfresh a ha).1, hunused, hdistinct⟩, rfl⟩
    · rw [hrevision, hhash]
    · exact ensure_eq_ok.mp (checkAll_eq_ok.mp hadmits step hs)
  · rintro ⟨rfl, ha, rfl⟩
    obtain ⟨request', hhash⟩ := h.hash p hp
    refine ⟨(), ha.validActor, (), hgoal ▸ h.goalId p hp, (), ?_, goal, hfound, (), by simpa using hst, (),
      by simp, p, hplan, (), by simp, (), ?_, (), ha.auto, _, ⟨fun a hmem => ?_, rfl⟩, _,
      (materialize_approved hw hpl hgraph hempty).mpr ⟨⟨ha.unused, ha.distinct⟩, rfl⟩, _, hedges, _,
      insert_approved hw hgraph ha.unused ha.distinct, rfl⟩
    · rw [hhash]
      exact henc request'
    · exact checkAll_eq_ok.mpr fun step hs => ensure_eq_ok.mpr (ha.admits step hs)
    · simp only [decide_eq_false_iff_not, not_or, not_and]
      exact ⟨ha.approvalId a hmem, hleft a hmem⟩

end Approval

/-! ## The plan that is verified -/

section Verification

variable {enc : Encoding} {s s' : Store} {t : Txn} {goalId actor : String} {p : WorkflowRow}

theorem plansOf_exec (h : t.plans enc s goalId = false) :
    (exec enc s t).workflows.filter (fun w => w.goalId = goalId)
      = s.workflows.filter fun w => w.goalId = goalId := by
  cases ht : s.apply enc t with
  | error e => rw [exec, ht, Store.orElse]
  | ok s' =>
    rw [exec_of_ok ht]
    by_cases hplan : t.isPlanning = false
    · rw [(plans_apply ht hplan).1]
    cases t with
    | planGoal id request externalWrite actor planId =>
      have hother : id ≠ goalId := by
        rw [Txn.plans, ht] at h
        simpa [Txn.inserted?, Except.isOk, Except.toBool] using h
      obtain ⟨goal, -, -, -, -, rfl⟩ := planGoal_ok ht
      rw [Store.insertEvent, List.filter_append]
      simp [hother]
    | approveGoal =>
      obtain ⟨goal, plan, workItems, new, dependencies, -, -, -, -, -, -, -, -, -, rfl⟩ := approveGoal_ok ht
      rfl
    | _ => exact absurd rfl hplan

/-- A verification achieves the goal exactly when the criteria of its latest plan are met. -/
theorem verifyGoal_reads (hw : WellFormed s) (hlatest : latestWorkflow? goalId s = some p) {g : GoalRow}
    (hgm : g ∈ s.goals) (hid : g.id = goalId) (hst : g.status = .verifying)
    (h : verifyGoal goalId actor s = .ok s') :
    (∃ g' ∈ s'.goals, g'.id = goalId ∧ g'.status = .achieved) ↔
      ∀ criterion ∈ p.acceptance, criterionMet s goalId criterion = true := by
  subst hid
  have hfound : s.goal? g.id = some g := find?_of_mem hw.goalIds hgm
  have hopen : g.status ≠ .achieved := by
    rw [hst]
    decide
  unfold verifyGoal at h
  simp only [bind_eq_ok, context_eq_ok] at h
  obtain ⟨_, -, _, -, goal, hg, h⟩ := h
  cases hfound.symm.trans hg
  rw [if_neg hopen] at h
  simp only [bind_eq_ok, context_eq_ok] at h
  obtain ⟨_, -, plan, hplan, h⟩ := h
  cases hlatest.symm.trans hplan
  rw [← List.all_eq_true]
  split at h
  · rename_i hall
    cases h
    refine iff_of_true ⟨_, mem_updateWhere.mpr ⟨g, hgm, rfl⟩, ?_⟩ hall
    simp [hst]
  · rename_i hall
    cases h
    refine iff_of_false ?_ hall
    rintro ⟨g', hg', hid', hst'⟩
    rw [eq_of_key_eq hw.goalIds hg' hgm hid'] at hst'
    exact hopen hst'

end Verification

/-! ## Runs -/

section Runs

variable {enc : Encoding}

theorem store_run (enc : Encoding) (c : Clocked) (ts : List (Txn × Int)) :
    (Machine.run (Clocked.exec enc) c ts).store = Machine.run (exec enc) c.store (ts.map (·.1)) := by
  induction ts generalizing c with
  | nil => rfl
  | cons t ts ih => rw [Machine.run_cons, ih, List.map_cons, Machine.run_cons]; rfl

theorem reviewable_run (enc : Encoding) (ts : List Txn) :
    Reviewable enc (Machine.run (exec enc) .empty ts) := by
  have hrun : WellFormed (Machine.run (exec enc) .empty ts) ∧ Reviewable enc (Machine.run (exec enc) .empty ts) :=
    Machine.run_invariant' (I := fun s => WellFormed s ∧ Reviewable enc s)
      (fun s t h => ⟨wellFormed_exec t h.1, exec_keeps h.2 fun _ => reviewable_apply h.1 h.2⟩)
      ⟨wellFormed_empty, reviewable_empty enc⟩
  exact hrun.2

/-- **Runs of dated plans keep the order.** -/
theorem inOrder_run {ts : List (Txn × Int)} (h : Machine.Along (Clocked.exec enc) (Dated enc) .empty ts) :
    (Machine.run (Clocked.exec enc) .empty ts).InOrder := by
  have hrun := Machine.run_invariant
    (I := fun c : Clocked => (WellFormed c.store ∧ Gated c.store) ∧ c.InOrder)
    (fun c t hdated hI => ⟨⟨wellFormed_exec t.1 hI.1.1, gated_exec hI.1.1 t.1 hI.1.2⟩,
      inOrder_exec hI.1.1 hI.1.2 hdated hI.2⟩)
    h ⟨⟨wellFormed_empty, gated_empty⟩, by simp [Clocked.InOrder, Clocked.empty, Store.empty]⟩
  exact hrun.2

/-- What is shown of the goal is what an approval binds and a verification checks. -/
structure Clocked.Binds (enc : Encoding) (c : Clocked) (goal : GoalRow) (p : WorkflowRow) : Prop where
  shown : c.latestPlan goal.id = (decodeGoal goal).map fun record => some (p.planned record)
  bound : ∀ request externalWrite internalPolicy actor approvalId workId s',
    approveGoal goal.id request externalWrite internalPolicy actor approvalId workId c.store = .ok s' ↔
      request = ⟨goal.revision, p.planHash⟩ ∧
      Admissible p externalWrite internalPolicy actor approvalId workId c.store ∧
      s' = Xiaomaolv.bound goal p actor approvalId workId c.store
  verified : ∀ us, Machine.Along (Clocked.exec enc) (fun c t => t.1.plans enc c.store goal.id = false) c us →
    ∀ g ∈ (Machine.run (Clocked.exec enc) c us).store.goals, g.id = goal.id → g.status = .verifying →
    ∀ actor s', verifyGoal goal.id actor (Machine.run (Clocked.exec enc) c us).store = .ok s' →
      ((∃ g' ∈ s'.goals, g'.id = goal.id ∧ g'.status = .achieved) ↔
        ∀ criterion ∈ p.acceptance,
          criterionMet (Machine.run (Clocked.exec enc) c us).store goal.id criterion = true)

/-- **What is reviewed is what is bound.** In a run of dated plans a goal in review has a plan of its revision,
the one that is shown, the one that an approval binds and materialises, and the one whose criteria every
verification checks until the goal is planned again. -/
theorem reviewed_is_bound (henc : ∀ request, startsWith (enc.planHash request) "sha256:" = true)
    {ts : List (Txn × Int)} (h : Machine.Along (Clocked.exec enc) (Dated enc) .empty ts) {goal : GoalRow}
    (hgoal : goal ∈ (Machine.run (Clocked.exec enc) .empty ts).store.goals) (hst : goal.status = .reviewReady) :
    ∃ p ∈ (Machine.run (Clocked.exec enc) .empty ts).store.workflows,
      p.goalId = goal.id ∧ p.goalRevision = goal.revision ∧
      (Machine.run (Clocked.exec enc) .empty ts).Binds enc goal p := by
  have horder := inOrder_run h
  have hstore : (Machine.run (Clocked.exec enc) .empty ts).store
      = Machine.run (exec enc) .empty (ts.map (·.1)) := store_run enc .empty ts
  generalize Machine.run (Clocked.exec enc) .empty ts = c at hgoal horder hstore ⊢
  have hrun := gated_run enc (ts.map (·.1))
  have hpl := placed_run enc (ts.map (·.1))
  have hr := reviewable_run enc (ts.map (·.1))
  rw [← hstore] at hrun hpl hr
  obtain ⟨hw, hg⟩ := hrun
  obtain ⟨p, hp, hpg, hrev⟩ := hr.reviewed goal hgoal hst
  have hlatest : latestWorkflow? goal.id c.store = some p := by
    cases hfind : latestWorkflow? goal.id c.store with
    | none =>
      have hempty := pickBy_eq_none.mp hfind
      have hmem : p ∈ c.store.workflows.filter fun w => w.goalId = goal.id := by simpa using ⟨hp, hpg⟩
      rw [hempty] at hmem
      cases hmem
    | some q =>
      obtain ⟨hq, hqg, hlast⟩ := latestWorkflow?_eq_some hfind
      rw [hg.reviewed hw hgoal hp hq hpg hrev hqg hlast]
  refine ⟨p, hp, hpg, hrev, ⟨?_, ?_, ?_⟩⟩
  · have hfound : c.store.goal? goal.id = some goal := find?_of_mem hw.goalIds hgoal
    have hid : ensureValidId goal.id "goal id" = .ok () := hpg ▸ hr.goalId p hp
    rw [Clocked.latestPlan, hid, hfound, newestWorkflow?_eq hg horder, hlatest]
    show (decodeGoal goal >>= fun record => pure (some (p.planned record))) = _
    cases decodeGoal goal <;> rfl
  · intro request externalWrite internalPolicy actor approvalId workId s'
    exact approveGoal_reviewed henc hw hg hpl hr hgoal hst hp hpg hrev
  · intro us hus g hgm hid hgs actor s' hv
    have hkept := Machine.run_invariant
      (I := fun c' : Clocked => c'.store.workflows.filter (fun w => w.goalId = goal.id)
        = c.store.workflows.filter fun w => w.goalId = goal.id)
      (fun c' t hplans hI => (plansOf_exec hplans).trans hI) hus rfl
    have hw' : WellFormed (Machine.run (Clocked.exec enc) c us).store := by
      rw [store_run]
      exact Machine.run_invariant' (fun _ t => wellFormed_exec t) hw
    refine verifyGoal_reads hw' ?_ hgm hid hgs hv
    rw [latestWorkflow?, hkept]
    exact hlatest

end Runs

namespace Sample

/-- A goal is planned, rejected, reopened and planned again within one second; `first` and `second` are the ids
drawn by the two plannings. -/
def replannedAs (first second : String) : List (Txn × Int) :=
  [(.createGoal { objective := "ship" } "operator" "goal", 100),
    (.planGoal "goal" solo externalWrite "operator" first, 100),
    (.rejectGoal "goal" "too small" "operator", 100),
    (.markGoalForReplan "goal" "widen" "operator", 100),
    (.planGoal "goal" chain externalWrite "operator" second, 100)]

/-- The ids in the order in which the plans are written. -/
def sequential : List (Txn × Int) := replannedAs "plan_18d2_1" "plan_18d2_2"

/-- The second planning has drawn its id first, and then waited for the store. -/
def renamedLate : List (Txn × Int) := replannedAs "plan_18d2_2" "plan_18d2_1"

end Sample

theorem encoding_sha256 (request : PlanGoalRequest) :
    startsWith (Sample.encoding.planHash request) "sha256:" = true := by
  simp only [Sample.encoding]
  split_ifs <;> decide +kernel

/-- Two plannings one after the other. -/
theorem reviewed_is_bound_sequential :
    ∃ goal ∈ (Machine.run (Clocked.exec Sample.encoding) .empty Sample.sequential).store.goals,
      goal.status = .reviewReady ∧
      ∃ p ∈ (Machine.run (Clocked.exec Sample.encoding) .empty Sample.sequential).store.workflows,
        p.goalId = goal.id ∧ p.goalRevision = goal.revision ∧
        (Machine.run (Clocked.exec Sample.encoding) .empty Sample.sequential).Binds Sample.encoding goal p := by
  have hgoal : ∃ goal ∈ (Machine.run (Clocked.exec Sample.encoding) .empty Sample.sequential).store.goals,
      goal.status = .reviewReady := by decide +kernel
  obtain ⟨goal, hgoal, hst⟩ := hgoal
  exact ⟨goal, hgoal, hst, reviewed_is_bound encoding_sha256 (by decide +kernel) hgoal hst⟩

/-- A plan that was written later but named earlier: the older plan is shown, and its approval is refused. -/
theorem reviewed_overtaken :
    ∃ goal ∈ (Machine.run (Clocked.exec Sample.encoding) .empty Sample.renamedLate).store.goals,
      goal.status = .reviewReady ∧
      ∃ shown, (Machine.run (Clocked.exec Sample.encoding) .empty Sample.renamedLate).latestPlan goal.id
          = .ok (some shown) ∧ shown.workflow = Sample.solo.workflow ∧
        (approveGoal goal.id ⟨goal.revision, shown.planHash⟩ Sample.externalWrite {} "operator" "approval"
          (fun n => if n = 0 then "first" else "second")
          (Machine.run (Clocked.exec Sample.encoding) .empty Sample.renamedLate).store).map (fun _ => ())
          = .error "reviewed plan hash does not match approval" := by
  refine ⟨⟨"goal", "ship", .reviewReady, 3, [], none, "operator", false⟩, by decide +kernel, rfl,
    ⟨⟨"goal", "ship", .reviewReady, 3, [], "operator", false⟩, Sample.encoding.planHash Sample.solo,
      Sample.solo.workflow, Sample.solo.acceptanceCriteria, Sample.solo.effectManifest⟩, ?_, rfl, ?_⟩
  · decide +kernel
  · decide +kernel

end Xiaomaolv
