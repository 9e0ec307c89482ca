import Xiaomaolv.Loop.Progress
import Xiaomaolv.Swarm.Nodes

/-!
# Nested delegation

A durable swarm run on the store of its goal, its nodes interleaved in any order.

* `SwarmAction`, `swarmExec`: one transaction of a node, of the run's setup or of anyone else.
* `Waits`: an aggregate is claimable only when everything below its node has succeeded.
* `Merges`: an aggregate reads the answer of each child, which is its aggregate's if the child delegates.
* `Flat`: what holds of the goal's items while only the root delegates; `flat_apply`.
* `AllAnswered`: what is recorded below the root are answers; `allAnswered_apply`.
* **`swarm_subtree_merged`**: a run in which only nodes of depth zero delegate waits and merges.
* `swarm_subtree_split`: a child that delegates is merged before its own children have run.
-/

namespace Xiaomaolv

open Table LoopStore

/-! ## Items of a run -/

/-- The `parent_step_id` of an input. -/
def parentOf (input : Value) : Option String := (input.get "parent_step_id").bind Value.asStr

/-- `mode == "aggregate"`. -/
def isAggregateInput (input : Value) : Bool := (input.get "mode").bind Value.asStr = some "aggregate"

/-- The items under a node of the workflow: its children and its aggregate, and what is under them. -/
inductive Beneath (s : Store) (goalId workflowId : String) : String → WorkItemRow → Prop
  | child {p : String} {d : WorkItemRow} (hd : d ∈ s.workItems) (hgoal : d.goalId = goalId)
      (hflow : d.workflowId = workflowId) (hparent : parentOf d.input = some p) :
      Beneath s goalId workflowId p d
  | under {p : String} {c d : WorkItemRow} (hc : Beneath s goalId workflowId p c) (hd : d ∈ s.workItems)
      (hgoal : d.goalId = goalId) (hflow : d.workflowId = workflowId)
      (hparent : parentOf d.input = some c.stepId) : Beneath s goalId workflowId p d

/-- Every aggregate that is claimable, or has been, found everything below its node succeeded. -/
def Waits (goalId : String) (s : Store) : Prop :=
  ∀ a ∈ s.workItems, a.goalId = goalId → isAggregateInput a.input = true → a.isCleared = true →
    ∀ p, parentOf a.input = some p → ∀ d, Beneath s goalId a.workflowId p d → d.id ≠ a.id →
      d.status = .succeeded

/-- A checkpoint of the item holds the outcome. -/
def HasOutcome (s : Store) (id : String) (outcome : WorkOutcome) : Prop :=
  ∃ c ∈ s.checkpoints, c.workItemId = id ∧ (c.phase = .committed ∨ c.phase = .reconciled) ∧
    c.outcome = some outcome

/-- `upstream_outcomes`: of each item that `id` depends on, an outcome that it has recorded. -/
structure IsUpstream (s : Store) (id : String) (upstream : Upstream) : Prop where
  sound : ∀ stepId outcome, (stepId, outcome) ∈ upstream →
    ∃ d ∈ s.workItems, ⟨id, d.id⟩ ∈ s.dependencies ∧ d.stepId = stepId ∧ HasOutcome s d.id outcome
  complete : ∀ d ∈ s.workItems, ⟨id, d.id⟩ ∈ s.dependencies → ∀ outcome, HasOutcome s d.id outcome →
    ∃ outcome', (d.stepId, outcome') ∈ upstream

/-- The node has scheduled children. -/
def HasDelegated (s : Store) (d : WorkItemRow) : Prop :=
  ∃ c ∈ s.workItems, c.goalId = d.goalId ∧ c.workflowId = d.workflowId ∧ parentOf c.input = some d.stepId

/-- The text answers for the node: the answer of its aggregate if it has delegated, its own if not. -/
def Answers (s : Store) (d : WorkItemRow) (outcome : WorkOutcome) (text : String) : Prop :=
  (HasDelegated s d → ∃ b ∈ s.workItems, b.goalId = d.goalId ∧ b.workflowId = d.workflowId ∧
    isAggregateInput b.input = true ∧ parentOf b.input = some d.stepId ∧
    ∃ merged, HasOutcome s b.id merged ∧ (merged.evidence.get "answer").bind Value.asStr = some text) ∧
  (¬ HasDelegated s d → (outcome.evidence.get "answer").bind Value.asStr = some text)

/-- What a claimable aggregate reads of a child answers for the child. -/
def Merges (goalId : String) (s : Store) : Prop :=
  ∀ a ∈ s.workItems, a.goalId = goalId → isAggregateInput a.input = true → a.isCleared = true →
    ∀ upstream, IsUpstream s a.id upstream → ∀ outcome, ∀ d ∈ s.workItems,
      ⟨a.id, d.id⟩ ∈ s.dependencies → (d.stepId, outcome) ∈ upstream →
      Answers s d outcome (upstreamAnswer outcome)

/-! ## Runs -/

/-- What happens on the store while the goal runs. -/
inductive SwarmAction where
  /-- A transaction that the run's setup and its nodes have no part in. -/
  | store (t : Txn)
  /-- `create_swarm_goal` plans the goal. -/
  | plans (rootTask : String) (history : List StoredMessage) (incoming : SwarmIncoming)
      (externalWrite : ExternalWritePolicy) (planId : String)
  /-- A node delegates. -/
  | delegates (workItemId : String) (upstream : Upstream) (replies : Replies)
      (externalWrite : ExternalWritePolicy) (workId : Nat → String)
  /-- The worker of a node commits what the handler returned; `delegated` if its extension was accepted. -/
  | commits (claim : WorkClaim) (checkpointId : String) (upstream : Upstream) (replies : Replies)
      (delegated : Bool) (actor : String) (now : Int)

/-- Not a transaction of the goal's setup or of its nodes; nodes prepare replay-safe checkpoints. -/
def Txn.isForeign (goalId : String) : Txn → Bool
  | .planGoal id .. | .extendWorkflow id .. => id ≠ goalId
  | .prepareCheckpoint claim _ replaySafe .. => replaySafe || claim.attempt.goalId ≠ goalId
  | .commitCheckpoint claim .. => claim.attempt.goalId ≠ goalId
  | _ => true

section Runs

variable (enc : Encoding) (cfg : AgentSwarmSettings) (goalId runId : String) (s : Store)

/-- The node and its input. -/
def node? (workItemId : String) : Option (WorkItemRow × SwarmNodeInput) :=
  ((s.workItem? workItemId).filter fun w => w.goalId = goalId).bind fun w =>
    (SwarmNodeInput.ofValue w.input).map fun input => (w, input)

/-- What the handler does on the item. -/
def nodePlan? (workItemId : String) (upstream : Upstream) (replies : Replies) : Option NodePlan :=
  (node? goalId s workItemId).map fun node => executeInner node.2 replies cfg node.1.stepId upstream

/-- The goal has an item under the node. -/
def hasChildren (workItemId : String) : Bool :=
  (s.workItem? workItemId).any fun w =>
    s.workItems.any fun c => c.goalId = goalId ∧ parentOf c.input = some w.stepId

/-- The transaction of an action. -/
def SwarmAction.txn? : SwarmAction → Option Txn
  | .store t => if t.isForeign goalId then some t else none
  | .plans rootTask history incoming externalWrite planId =>
    some (.planGoal goalId (swarmPlan cfg runId rootTask history incoming) externalWrite "internal:swarm" planId)
  | .delegates workItemId upstream replies externalWrite workId =>
    match nodePlan? cfg goalId s workItemId upstream replies with
    | some (.delegate steps ..) => some (.extendWorkflow goalId steps externalWrite "internal:swarm" workId)
    | _ => none
  | .commits claim checkpointId upstream replies delegated actor now =>
    match nodePlan? cfg goalId s claim.workItem.id upstream replies with
    | some (.done outcome) => some (.commitCheckpoint claim checkpointId outcome actor now)
    | some (.delegate _ outcome otherwise) =>
      if delegated then
        if hasChildren goalId s claim.workItem.id then
          some (.commitCheckpoint claim checkpointId outcome actor now)
        else none
      else some (.commitCheckpoint claim checkpointId otherwise actor now)
    | none => none

def swarmExec (a : SwarmAction) : Store :=
  match a.txn? cfg goalId runId s with
  | some t => exec enc s t
  | none => s

/-- An extension that is accepted is the delegation of a node of depth zero. -/
def DelegatesAtRoot (a : SwarmAction) : Prop :=
  match a with
  | .delegates workItemId .. =>
    match a.txn? cfg goalId runId s with
    | some t => (s.apply enc t).toOption.isSome = true →
      ((node? goalId s workItemId).all fun node => node.2.depth = 0) = true
    | none => True
  | _ => True

instance (a : SwarmAction) : Decidable (DelegatesAtRoot enc cfg goalId runId s a) := by
  unfold DelegatesAtRoot
  split
  · split <;> infer_instance
  · infer_instance

end Runs

/-! ## The steps of a delegation -/

section Steps

variable {input i : SwarmNodeInput} {v : Value} {own roleName : String} {children : List SwarmChildPlan}
  {child : SwarmChildPlan} {index : Nat}

theorem ofValue_depth_mode (h : SwarmNodeInput.ofValue v = some i) :
    SwarmNodeInput.defaulted Value.asU64 0 (v.get "depth") = some i.depth ∧
      SwarmNodeInput.defaulted SwarmNodeInput.readText none (v.get "mode") = some i.mode := by
  unfold SwarmNodeInput.ofValue at h
  obtain ⟨task, -, h⟩ := Option.bind_eq_some_iff.mp h
  obtain ⟨roleName, -, h⟩ := Option.bind_eq_some_iff.mp h
  obtain ⟨roleDefinition, -, h⟩ := Option.bind_eq_some_iff.mp h
  obtain ⟨nickname, -, h⟩ := Option.bind_eq_some_iff.mp h
  obtain ⟨depth, hdepth, h⟩ := Option.bind_eq_some_iff.mp h
  obtain ⟨mode, hmode, h⟩ := Option.bind_eq_some_iff.mp h
  obtain ⟨parentStepId, -, h⟩ := Option.bind_eq_some_iff.mp h
  obtain ⟨swarmRunId, -, h⟩ := Option.bind_eq_some_iff.mp h
  obtain ⟨history, -, h⟩ := Option.bind_eq_some_iff.mp h
  obtain ⟨swarmRoot, -, h⟩ := Option.bind_eq_some_iff.mp h
  obtain ⟨swarmTerminal, -, h⟩ := Option.bind_eq_some_iff.mp h
  obtain ⟨channel, -, h⟩ := Option.bind_eq_some_iff.mp h
  obtain ⟨userId, -, h⟩ := Option.bind_eq_some_iff.mp h
  obtain ⟨sessionId, -, h⟩ := Option.bind_eq_some_iff.mp h
  cases Option.some.inj h
  exact ⟨hdepth, hmode⟩

theorem parentOf_childStep : parentOf (childStep own input index child).input = some own := by
  simp [parentOf, childStep, Value.asStr]

theorem parentOf_aggregateStep : parentOf (aggregateStep own input roleName index).input = some own := by
  simp [parentOf, aggregateStep, Value.asStr]

theorem isAggregate_childStep : isAggregateInput (childStep own input index child).input = false := by
  simp [isAggregateInput, childStep]

theorem depth_childStep (h : SwarmNodeInput.ofValue (childStep own input index child).input = some i) :
    i.depth = input.depth + 1 := by
  have hget : (childStep own input index child).input.get "depth" = some (.int (input.depth + 1 : Nat)) := by
    simp [childStep]
  have hdepth := (ofValue_depth_mode h).1
  rw [hget, SwarmNodeInput.defaulted, Value.asU64] at hdepth
  split_ifs at hdepth
  rw [← Option.some.inj hdepth, Int.toNat_natCast]

theorem mode_aggregateStep
    (h : SwarmNodeInput.ofValue (aggregateStep own input roleName index).input = some i) :
    i.mode = some "aggregate" := by
  have hmode : some (some "aggregate") = some i.mode := (ofValue_depth_mode h).2
  exact (Option.some.inj hmode).symm

theorem declaredDependencies_childStep : declaredDependencies (childStep own input index child) = [] := by
  simp [declaredDependencies, childStep]

theorem declaredDependencies_aggregateStep :
    declaredDependencies (aggregateStep own input roleName index) = childStepIds own index := by
  have hdeps : declaredDependencies (aggregateStep own input roleName index)
      = (Values.ofList ((childStepIds own index).map .string)).toList.filterMap Value.asStr := rfl
  rw [hdeps, Values.toList_ofList, List.filterMap_map]
  exact List.filterMap_some

theorem delegationSteps_cases {n : Nat} {step : WorkflowStep}
    (h : (delegationSteps own input roleName children)[n]? = some step) :
    (∃ child, step = childStep own input n child ∧ n < children.length) ∨
      (step = aggregateStep own input roleName children.length ∧ n = children.length) := by
  rw [delegationSteps, List.getElem?_append] at h
  split_ifs at h with hn
  · rw [List.length_mapIdx] at hn
    rw [List.getElem?_mapIdx, Option.map_eq_some_iff] at h
    obtain ⟨child, -, rfl⟩ := h
    exact .inl ⟨child, rfl, hn⟩
  · rw [List.length_mapIdx] at h hn
    obtain ⟨hlt, rfl⟩ := List.getElem?_eq_some_iff.mp h
    rw [List.length_singleton] at hlt
    exact .inr ⟨by simp, by omega⟩

theorem childStepId_ne (own : String) (index : Nat) : childStepId own index ≠ own := by
  intro h
  have hlen := congrArg String.length h
  simp only [childStepId, String.length_append] at hlen
  have hc : (".c" : String).length = 2 := rfl
  omega

theorem aggregateStepId_ne (own : String) : aggregateStepId own ≠ own := by
  intro h
  have hlen := congrArg String.length h
  simp only [aggregateStepId, String.length_append] at hlen
  have hc : (".agg" : String).length = 4 := rfl
  omega

end Steps

/-! ## Flat runs -/

/-- The root of the run: it has no parent and is no aggregate. -/
def IsRootRow (rootId stepId : String) (input : Value) : Prop :=
  stepId = rootId ∧ parentOf input = none ∧ isAggregateInput input = false

/-- An item under the root: the aggregate, or a child of some depth. -/
structure IsNodeRow (rootId stepId : String) (input : Value) : Prop where
  parent : parentOf input = some rootId
  id_ne : stepId ≠ rootId
  aggregate : isAggregateInput input = true → stepId = aggregateStepId rootId
  depth : ∀ i, SwarmNodeInput.ofValue input = some i → i.mode = some "aggregate" ∨ 0 < i.depth

theorem isNodeRow_delegationSteps {rootId roleName : String} {input : SwarmNodeInput}
    {children : List SwarmChildPlan} {n : Nat} {step : WorkflowStep}
    (h : (delegationSteps rootId input roleName children)[n]? = some step) :
    IsNodeRow rootId step.id step.input := by
  rcases delegationSteps_cases h with ⟨child, rfl, -⟩ | ⟨rfl, -⟩
  · refine ⟨parentOf_childStep, childStepId_ne rootId n, fun ha => ?_, fun i hi => .inr ?_⟩
    · rw [isAggregate_childStep] at ha
      cases ha
    · rw [depth_childStep hi]
      omega
  · exact ⟨parentOf_aggregateStep, aggregateStepId_ne rootId, fun _ => rfl,
      fun i hi => .inl (mode_aggregateStep hi)⟩

/-- The plan consists of the root and writes nothing external. -/
structure IsRootPlan (rootId : String) (workflow : WorkflowSpec) (effectManifest : List EffectClass) : Prop where
  steps : ∀ step ∈ workflow.steps, IsRootRow rootId step.id step.input
  edges : workflow.edges = []
  effects : .externalWrite ∉ effectManifest

/-- The goal's items while only the root delegates: the root and what is under it, every aggregate with the
others of its workflow that are under the root. -/
structure Flat (goalId rootId : String) (s : Store) : Prop where
  plans : ∀ p ∈ s.workflows, p.goalId = goalId → IsRootPlan rootId p.workflow p.effectManifest
  rows : ∀ w ∈ s.workItems, w.goalId = goalId →
    IsRootRow rootId w.stepId w.input ∨ IsNodeRow rootId w.stepId w.input
  joined : ∀ a ∈ s.workItems, a.goalId = goalId → isAggregateInput a.input = true →
    ∀ d ∈ s.workItems, d.goalId = goalId → d.workflowId = a.workflowId → parentOf d.input = some rootId →
    d.id ≠ a.id → ⟨a.id, d.id⟩ ∈ s.dependencies
  covered : ∀ d ∈ s.workItems, d.goalId = goalId → parentOf d.input = some rootId →
    ∃ a ∈ s.workItems, a.workflowId = d.workflowId ∧ a.stepId = aggregateStepId rootId
  sources : ∀ x ∈ s.dependencies, ∀ d ∈ s.workItems, d.id = x.dependsOnWorkItemId → d.goalId = goalId →
    IsNodeRow rootId d.stepId d.input

theorem flat_empty (goalId rootId : String) : Flat goalId rootId .empty := by
  constructor <;> simp [Store.empty]

/-- What a transaction of the run plans and appends. -/
def Txn.IsFlat (goalId rootId : String) : Txn → Prop
  | .planGoal id request .. => id = goalId → IsRootPlan rootId request.workflow request.effectManifest
  | .extendWorkflow id steps .. => id = goalId →
    ∃ input roleName children, steps = delegationSteps rootId input roleName children
  | _ => True

section Flat

variable {enc : Encoding} {s s' : Store} {t : Txn} {goalId rootId : String}

theorem Flat.parent {w : WorkItemRow} (h : Flat goalId rootId s) (hw : w ∈ s.workItems)
    (hgoal : w.goalId = goalId) (ha : isAggregateInput w.input = true) : parentOf w.input = some rootId := by
  rcases h.rows w hw hgoal with ⟨-, -, hno⟩ | hnode
  · rw [hno] at ha
    cases ha
  · exact hnode.parent

/-- A transaction that creates no item. -/
theorem Flat.keep (h : Flat goalId rootId s)
    (hplans : ∀ p ∈ s'.workflows, p.goalId = goalId → IsRootPlan rootId p.workflow p.effectManifest)
    (hitems : s'.workItems.map (·.origin) = s.workItems.map (·.origin))
    (hdeps : s'.dependencies = s.dependencies) : Flat goalId rootId s' := by
  have hold : ∀ w' ∈ s'.workItems, ∃ w ∈ s.workItems, w.id = w'.id ∧ w.goalId = w'.goalId ∧
      w.workflowId = w'.workflowId ∧ w.stepId = w'.stepId ∧ w.input = w'.input := by
    intro w' hw'
    obtain ⟨w, hwm, ho⟩ := exists_of_map_eq hitems.symm hw'
    exact ⟨w, hwm, columns_of_origin ho⟩
  refine ⟨hplans, fun w' hw' hgoal => ?_, fun a' ha' hag hagg d' hd' hdg hflow hparent hne => ?_,
    fun d' hd' hdg hparent => ?_, fun x hx d' hd' hid hdg => ?_⟩
  · obtain ⟨w, hwm, -, hg, -, hstep, hinput⟩ := hold w' hw'
    rw [← hstep, ← hinput]
    exact h.rows w hwm (hg.trans hgoal)
  · obtain ⟨a, ham, hai, hag', haf, -, hain⟩ := hold a' ha'
    obtain ⟨d, hdm, hdi, hdg', hdf, -, hdin⟩ := hold d' hd'
    rw [hdeps, ← hai, ← hdi]
    rw [← hain] at hagg
    rw [← hdin] at hparent
    exact h.joined a ham (hag'.trans hag) hagg d hdm (hdg'.trans hdg) (hdf.trans (hflow.trans haf.symm)) hparent
      (by rwa [hai, hdi])
  · obtain ⟨d, hdm, -, hdg', hdf, -, hdin⟩ := hold d' hd'
    rw [← hdin] at hparent
    obtain ⟨a, ham, haf, has⟩ := h.covered d hdm (hdg'.trans hdg) hparent
    obtain ⟨a', ha', ho⟩ := exists_of_map_eq hitems ham
    obtain ⟨-, -, haf', has', -⟩ := columns_of_origin ho
    exact ⟨a', ha', haf'.trans (haf.trans hdf), has'.trans has⟩
  · obtain ⟨d, hdm, hdi, hdg', -, hds, hdin⟩ := hold d' hd'
    rw [← hds, ← hdin]
    exact h.sources x (hdeps ▸ hx) d hdm (hdi.trans hid) (hdg'.trans hdg)

/-- New items that are not under the root. -/
theorem Flat.append (h : Flat goalId rootId s) (hw : WellFormed s) (hw' : WellFormed s')
    (hplans : s'.workflows = s.workflows)
    {new : List WorkItemRow} {ds : List DependencyRow} (hitems : s'.workItems = s.workItems ++ new)
    (hdeps : s'.dependencies = s.dependencies ++ ds)
    (hnew : ∀ w ∈ new, w.goalId = goalId → IsRootRow rootId w.stepId w.input)
    (hds : ∀ x ∈ ds, ∀ d ∈ s'.workItems, d.id = x.dependsOnWorkItemId → d.goalId ≠ goalId) :
    Flat goalId rootId s' := by
  have hstored : ∀ w ∈ s'.workItems, w.goalId = goalId → parentOf w.input = some rootId → w ∈ s.workItems := by
    intro w hw hgoal hparent
    rw [hitems] at hw
    rcases List.mem_append.mp hw with hw | hw
    · exact hw
    · rw [(hnew w hw hgoal).2.1] at hparent
      cases hparent
  refine ⟨hplans ▸ h.plans, fun w hw hgoal => ?_, fun a ha hag hagg d hd hdg hflow hparent hne => ?_,
    fun d hd hdg hparent => ?_, fun x hx d hd hid hdg => ?_⟩
  · rw [hitems] at hw
    rcases List.mem_append.mp hw with hw | hw
    · exact h.rows w hw hgoal
    · exact .inl (hnew w hw hgoal)
  · have hd' := hstored d hd hdg hparent
    have ha' : a ∈ s.workItems := by
      rw [hitems] at ha
      rcases List.mem_append.mp ha with ha | ha
      · exact ha
      · rw [(hnew a ha hag).2.2] at hagg
        cases hagg
    rw [hdeps]
    exact List.mem_append_left _ (h.joined a ha' hag hagg d hd' hdg hflow hparent hne)
  · obtain ⟨a, ha, haf, has⟩ := h.covered d (hstored d hd hdg hparent) hdg hparent
    rw [hitems]
    exact ⟨a, List.mem_append_left _ ha, haf, has⟩
  · rw [hdeps] at hx
    rcases List.mem_append.mp hx with hx | hx
    · obtain ⟨-, -, y, hy, -, hyid, -⟩ := hw.dependencyItems x hx
      have hy' : y ∈ s'.workItems := hitems ▸ List.mem_append_left _ hy
      cases hw'.item_eq hd hy' (hid.trans hyid.symm)
      exact h.sources x hx d hy hid hdg
    · exact absurd hdg (hds x hx d hd hid)

theorem resolve_child {steps : List WorkflowStep} {workId : Nat → String} {items : List WorkItemRow}
    {input : SwarmNodeInput} {roleName : String} {children : List SwarmChildPlan} {m : Nat}
    (hsteps : steps = delegationSteps rootId input roleName children) (hm : m < children.length)
    {source : String} (h : resolveDependency goalId workId steps items (childStepId rootId m) = .ok source) :
    ∃ k y, steps[k]? = some y ∧ y.id = childStepId rootId m ∧ source = workId k := by
  rcases resolveDependency_ok h with hb | ⟨hnone, -⟩
  · exact batchId?_eq_some hb
  · have hin : childStep rootId input m children[m] ∈ steps := by
      rw [hsteps, delegationSteps]
      refine List.mem_append_left _ (List.mem_mapIdx.mpr ⟨m, hm, rfl⟩)
    exact absurd rfl (batchId?_eq_none.mp hnone _ hin)

/-- **The root delegates**: the aggregate depends on every child of the batch. -/
theorem Flat.extend (h : Flat goalId rootId s) (hw : WellFormed s) (hg : Gated s) (hp : Placed s)
    {steps : List WorkflowStep} {externalWrite : ExternalWritePolicy} {actor : String} {workId : Nat → String}
    (ht : s.apply enc (.extendWorkflow goalId steps externalWrite actor workId) = .ok s')
    {input : SwarmNodeInput} {roleName : String} {children : List SwarmChildPlan}
    (hsteps : steps = delegationSteps rootId input roleName children) : Flat goalId rootId s' := by
  have hunique := (placed_apply hw hg hp ht).steps
  have hw' := wellFormed_apply hw ht
  have hplans := (plans_apply ht rfl).1
  obtain ⟨goal, plan, workItems, new, dependencies, -, -, -, -, -, -, hitems, hbatch, hdeps, rfl⟩ :=
    extendWorkflow_ok ht
  have htables := refreshGoalStatus_tables goalId (s := ({ s with
    workItems, dependencies } : Store).insertEvent goalId "workflow.extended" actor)
  let row := extendedItem goalId plan.id workId (nextOrdinal goalId s)
  have hi : Store.workItems (Store.refreshGoalStatus _ _) = s.workItems ++ newItems row 0 steps :=
    htables.1.trans (materializeItems_ok hitems).1
  have hd : Store.dependencies (Store.refreshGoalStatus _ _) = s.dependencies ++ new :=
    htables.2.2.2.trans (insertDependencies_ok hdeps)
  have hnew : ∀ {w}, w ∈ newItems row 0 steps → ∃ n step, steps[n]? = some step ∧ w = row n step := by
    intro w hw
    obtain ⟨n, step, hn, rfl⟩ := mem_newItems.mp hw
    exact ⟨n, step, hn, by rw [Nat.zero_add]⟩
  have hmem : ∀ {n step}, steps[n]? = some step → row n step ∈ newItems row 0 steps := fun {n step} hn =>
    mem_newItems.mpr ⟨n, step, hn, by rw [Nat.zero_add]⟩
  -- The aggregate of the batch.
  have hlast : steps[children.length]? = some (aggregateStep rootId input roleName children.length) := by
    rw [hsteps, delegationSteps, List.getElem?_append_right (by simp)]
    simp
  have haggregate := hmem hlast
  -- A stored item under the root comes with an aggregate, so it is of another workflow.
  have hother : ∀ x ∈ s.workItems, x.goalId = goalId → parentOf x.input = some rootId → x.workflowId ≠ plan.id := by
    intro x hx hxg hxp hxf
    obtain ⟨a, ha, haf, has⟩ := h.covered x hx hxg hxp
    rw [hi, List.map_append, List.nodup_append] at hunique
    refine hunique.2.2 _ (List.mem_map_of_mem ha) _ (List.mem_map_of_mem haggregate) ?_
    rw [haf, hxf, has]
    rfl
  refine ⟨fun p hpm => ?_, fun w hw hgoal => ?_, fun a ha hag hagg d hd' hdg hflow hparent hne => ?_,
    fun d hd' hdg hparent => ?_, fun x hx d hd' hid hdg => ?_⟩
  · rw [hplans] at hpm
    exact h.plans p hpm
  · rw [hi] at hw
    rcases List.mem_append.mp hw with hw | hw
    · exact h.rows w hw hgoal
    · obtain ⟨n, step, hn, rfl⟩ := hnew hw
      exact .inr (isNodeRow_delegationSteps (hsteps ▸ hn))
  · rw [hd]
    rw [hi] at ha hd'
    rcases List.mem_append.mp ha with ha | ha
    · rcases List.mem_append.mp hd' with hd' | hd'
      · exact List.mem_append_left _ (h.joined a ha hag hagg d hd' hdg hflow hparent hne)
      · obtain ⟨m, child, hm, rfl⟩ := hnew hd'
        exact absurd hflow.symm (hother a ha hag (h.parent ha hag hagg))
    · obtain ⟨n, step, hn, rfl⟩ := hnew ha
      rcases List.mem_append.mp hd' with hd' | hd'
      · exact absurd hflow (hother d hd' hdg hparent)
      · obtain ⟨m, child, hm, rfl⟩ := hnew hd'
        rw [hsteps] at hn hm
        rcases delegationSteps_cases hn with ⟨c, rfl, -⟩ | ⟨rfl, rfl⟩
        · exact absurd hagg (by simp [row, extendedItem, isAggregate_childStep])
        · rcases delegationSteps_cases hm with ⟨c, rfl, hlt⟩ | ⟨rfl, rfl⟩
          · -- The aggregate declares the child, and the batch has one step of that id.
            have hdeclared : childStepId rootId m ∈ declaredDependencies
                (aggregateStep rootId input roleName children.length) := by
              rw [declaredDependencies_aggregateStep]
              exact List.mem_map_of_mem (List.mem_range.mpr hlt)
            obtain ⟨source, hres, -, hrow⟩ := batchDependencies_inj hbatch hbatch hlast _ hdeclared
            rw [Nat.zero_add] at hrow
            obtain ⟨k, y, hk, hyid, rfl⟩ := resolve_child hsteps hlt hres
            have heq : row k y = row m (childStep rootId input m c) := by
              rw [hi] at hunique
              exact eq_of_key_eq hunique (List.mem_append_right _ (hmem hk)) (List.mem_append_right _ hd')
                (Prod.ext rfl hyid)
            have hid : workId k = workId m := congrArg WorkItemRow.id heq
            rw [hid] at hrow
            exact List.mem_append_right _ hrow
          · exact absurd rfl hne
  · rw [hi] at hd' ⊢
    rcases List.mem_append.mp hd' with hd' | hd'
    · obtain ⟨a, ha, haf, has⟩ := h.covered d hd' hdg hparent
      exact ⟨a, List.mem_append_left _ ha, haf, has⟩
    · obtain ⟨m, child, hm, rfl⟩ := hnew hd'
      exact ⟨_, List.mem_append_right _ haggregate, rfl, rfl⟩
  · rw [hd] at hx
    rcases List.mem_append.mp hx with hx | hx
    · obtain ⟨-, -, y, hy, -, hyid, -⟩ := hw.dependencyItems x hx
      have hy' : y ∈ Store.workItems (Store.refreshGoalStatus _ _) := hi ▸ List.mem_append_left _ hy
      cases hw'.item_eq hd' hy' (hid.trans hyid.symm)
      exact h.sources x hx d hy hid hdg
    · -- Only the aggregate declares dependencies, on the children.
      obtain ⟨n, step, hn, -, dep, hdep, hres⟩ := mem_batchDependencies hbatch hx
      rcases delegationSteps_cases (hsteps ▸ hn) with ⟨c, rfl, -⟩ | ⟨rfl, -⟩
      · rw [declaredDependencies_childStep] at hdep
        cases hdep
      · rw [declaredDependencies_aggregateStep] at hdep
        obtain ⟨m, hm, rfl⟩ := List.mem_map.mp hdep
        obtain ⟨k, y, hk, -, hsource⟩ := resolve_child hsteps (List.mem_range.mp hm) hres
        have hy' : row k y ∈ Store.workItems (Store.refreshGoalStatus _ _) :=
          hi ▸ List.mem_append_right _ (hmem hk)
        cases hw'.item_eq hd' hy' (hid.trans hsource)
        exact isNodeRow_delegationSteps (hsteps ▸ hk)

theorem flat_apply (hw : WellFormed s) (hg : Gated s) (hp : Placed s) (h : Flat goalId rootId s)
    (hflat : t.IsFlat goalId rootId) (ht : s.apply enc t = .ok s') : Flat goalId rootId s' := by
  have hw' := wellFormed_apply hw ht
  by_cases hm : t.isMaterializing = false
  · refine h.keep ?_ (itemOrigins_apply ht hm) (dependencies_apply ht hm)
    by_cases hplan : t.isPlanning = false
    · rw [(plans_apply ht hplan).1]
      exact h.plans
    cases t with
    | planGoal id request externalWrite actor planId =>
      obtain ⟨goal, -, -, -, -, rfl⟩ := planGoal_ok ht
      intro p hpm hpg
      rcases List.mem_append.mp hpm with hpm | hpm
      · exact h.plans p hpm hpg
      · cases List.mem_singleton.mp hpm
        exact hflat hpg
    | approveGoal => cases hm
    | _ => exact absurd rfl hplan
  cases t with
  | approveGoal id request externalWrite internalPolicy actor approvalId workId =>
    obtain ⟨goal, plan, workItems, new, dependencies, -, -, -, hplan, -, -, hitems, hedges, hdeps, rfl⟩ :=
      approveGoal_ok ht
    obtain ⟨hpm, hpg, -⟩ := plan?_eq_some hplan
    have hi := (materializeItems_ok hitems).1
    refine h.append hw hw' rfl hi (insertDependencies_ok hdeps) (fun w hwm hgoal => ?_) fun x hx d hd hid hdg => ?_
    · obtain ⟨n, step, hn, rfl⟩ := mem_newItems.mp hwm
      exact (h.plans plan hpm (hpg.trans hgoal)).steps step (List.mem_of_getElem? hn)
    · obtain ⟨edge, hedge, -, hsource⟩ := mem_edgeDependencies hedges hx
      obtain ⟨k, y, hk, -, hsid⟩ := batchId?_eq_some hsource
      have hy : approvedItem id plan workId (0 + k) y ∈ workItems :=
        hi ▸ List.mem_append_right _ (mem_newItems.mpr ⟨k, y, hk, rfl⟩)
      have hdid : d.id = (approvedItem id plan workId (0 + k) y).id := by
        rw [hid, hsid, Nat.zero_add]
        rfl
      cases hw'.item_eq hd hy hdid
      rw [(h.plans plan hpm (hpg.trans hdg)).edges] at hedge
      cases hedge
  | extendWorkflow id steps externalWrite actor workId =>
    by_cases hid : id = goalId
    · subst hid
      obtain ⟨input, roleName, children, hsteps⟩ := hflat rfl
      exact h.extend hw hg hp ht hsteps
    · have hplans := (plans_apply ht rfl).1
      obtain ⟨goal, plan, workItems, new, dependencies, -, -, -, -, -, -, hitems, hbatch, hdeps, rfl⟩ :=
        extendWorkflow_ok ht
      have htables := refreshGoalStatus_tables id (s := ({ s with
        workItems, dependencies } : Store).insertEvent id "workflow.extended" actor)
      have hi := htables.1.trans (materializeItems_ok hitems).1
      have hd := htables.2.2.2.trans (insertDependencies_ok hdeps)
      refine h.append hw hw' hplans hi hd (fun w hwm hgoal => ?_) fun x hx d hdm hdi hdg => ?_
      · obtain ⟨n, step, hn, rfl⟩ := mem_newItems.mp hwm
        exact absurd hgoal hid
      · -- A dependency joins items of one goal, here the one that is extended.
        obtain ⟨n, step, hn, hxid, -⟩ := mem_batchDependencies hbatch hx
        obtain ⟨a, ha, b, hb, hai, hbi, hab⟩ := hw'.dependencyItems x (hd ▸ List.mem_append_right _ hx)
        have hy : extendedItem id plan.id workId (nextOrdinal id s) (0 + n) step ∈
            Store.workItems (Store.refreshGoalStatus _ _) :=
          hi ▸ List.mem_append_right _ (mem_newItems.mpr ⟨n, step, hn, rfl⟩)
        cases hw'.item_eq ha hy (hai.trans hxid)
        cases hw'.item_eq hb hdm (hbi.trans hdi.symm)
        exact hid (hab.trans hdg)
  | _ => exact absurd rfl hm

end Flat

/-! ## The outcomes of the nodes -/

/-- The outcome carries an answer. -/
def WorkOutcome.isAnswer (outcome : WorkOutcome) : Bool :=
  ((outcome.evidence.get "answer").bind Value.asStr).isSome

namespace Life

/-- The item awaits no confirmation, its checkpoints are replay-safe, and one under the root records
answers. -/
structure Answered (l : Life) : Prop where
  effect : l.item.effectClass ≠ .externalWrite
  waiting : l.item.status ≠ .waitingConfirmation
  checkpoints : ∀ c ∈ l.checkpoints, c.replaySafe = true ∧
    ∀ outcome, c.outcome = some outcome → parentOf l.item.input ≠ none → outcome.isAnswer = true

variable {l l' : Life} {e : Event}

theorem Step.checkpoint_old (h : l.Step e l') (hprepare : ∀ id, e ≠ .prepare id)
    (hcommit : ∀ a id, e ≠ .commit a id) (hverdict : ∀ r, e ≠ .verdict r) {c' : CheckpointRow}
    (hc' : c' ∈ l'.checkpoints) :
    ∃ c ∈ l.checkpoints, c.replaySafe = c'.replaySafe ∧ c.outcome = c'.outcome := by
  cases h with
  | prepare a c => exact absurd rfl (hprepare c.id)
  | commit a c => exact absurd rfl (hcommit a.id c.id)
  | verdict a c r => exact absurd rfl (hverdict r)
  | unlock | block | requeue | claim | renew | progress | close => exact ⟨c', hc', rfl, rfl⟩
  | reconcile c =>
    obtain ⟨x, hx, rfl⟩ := mem_updateWhere.mp hc'
    exact ⟨x, hx, by split <;> rfl, by split <;> rfl⟩
  | release a r =>
    simp only [Life.release] at hc'
    split at hc'
    · obtain ⟨x, hx, rfl⟩ := mem_updateWhere.mp hc'
      exact ⟨x, hx, by split <;> rfl, by split <;> rfl⟩
    · exact ⟨c', hc', rfl, rfl⟩
  | lapse =>
    simp only [Life.lapse] at hc'
    split at hc'
    · exact ⟨c', hc', rfl, rfl⟩
    · obtain ⟨x, hx, rfl⟩ := mem_updateWhere.mp hc'
      exact ⟨x, hx, by split <;> rfl, by split <;> rfl⟩

theorem Answered.unparked (h : l.Answered) : l.expired.workStatus ≠ .waitingConfirmation := by
  have hparked : l.expired.parked = false := by
    rw [ExpiredRow.parked, Bool.or_eq_false_iff]
    refine ⟨?_, ?_⟩
    · simp [expired, h.effect]
    · simp only [expired, List.any_eq_false, Bool.and_eq_true, Bool.not_eq_true', not_and,
        Bool.not_eq_false]
      exact fun c hc _ => (h.checkpoints c hc).1
  rw [ExpiredRow.workStatus, hparked, if_neg Bool.false_ne_true]
  split_ifs <;> decide

theorem Step.answered (h : l.Step e l') (hprepare : ∀ id, e ≠ .prepare id)
    (hcommit : ∀ a id, e ≠ .commit a id) (hl : l.Answered) : l'.Answered := by
  have hverdict : ∀ r, e ≠ .verdict r := by
    rintro r rfl
    cases h with
    | verdict _ _ _ _ _ _ hst => exact hl.waiting hst
  obtain ⟨-, -, -, -, hinput⟩ := columns_of_origin h.origin
  have heffect : l'.item.effectClass = l.item.effectClass := by
    have ho := h.origin
    simp only [WorkItemRow.origin, WorkItemRow.mk.injEq] at ho
    exact ho.2.2.2.2.2.2.1
  refine ⟨heffect ▸ hl.effect, ?_, fun c' hc' => ?_⟩
  · cases h with
    | unlock | block | requeue | claim => exact fun hst => by cases hst
    | renew | progress | prepare | commit => exact hl.waiting
    | reconcile c =>
      simp only [Life.reconcile]
      split
      · exact fun hst => by cases hst
      · exact hl.waiting
    | release a r _ hstatus =>
      intro hst
      rcases hstatus with h | h | h <;> cases h.symm.trans hst
    | lapse => exact hl.unparked
    | verdict _ _ r => exact absurd rfl (hverdict r)
    | close error attemptError status hstatus =>
      simp only [Life.close]
      split
      · exact hl.waiting
      · rcases hstatus with rfl | rfl <;> exact fun hst => by cases hst
  · obtain ⟨c, hc, hsafe, houtcome⟩ := h.checkpoint_old hprepare hcommit hverdict hc'
    rw [← hsafe, ← houtcome, hinput]
    exact hl.checkpoints c hc

end Life

theorem Txn.Emits.prepare {s : Store} {t : Txn} {w : WorkItemRow} {id : String} (h : t.Emits s w (.prepare id)) :
    ∃ claim key replaySafe actor checkpointId now,
      t = .prepareCheckpoint claim key replaySafe actor checkpointId now := by
  cases t with
  | prepareCheckpoint claim key replaySafe actor checkpointId now => exact ⟨_, _, _, _, _, _, rfl⟩
  | recoverGoalState | resolveWaitingConfirmation | finishAttempt | failAttempt => simp [Txn.Emits] at h
  | cancelGoal | markGoalForReplan | requeueBlockedItems | claimWork | renewClaim | commitCheckpoint
  | blockWorkItem | deferAttempt | continueAttempt | recordPhaseProgress => cases h.2
  | _ => cases h

/-- The goal's items are answered. -/
def AllAnswered (goalId : String) (s : Store) : Prop :=
  ∀ id l, s.life? id = some l → l.item.goalId = goalId → l.Answered

/-- What a transaction of the run prepares and commits. -/
def Txn.IsAnswering (goalId : String) (s : Store) : Txn → Prop
  | .prepareCheckpoint claim _ replaySafe .. => claim.attempt.goalId = goalId → replaySafe = true
  | .commitCheckpoint claim _ outcome .. => claim.attempt.goalId = goalId →
    ∀ w ∈ s.workItems, w.id = claim.workItem.id → parentOf w.input ≠ none → outcome.isAnswer = true
  | _ => True

section Answers

variable {enc : Encoding} {s s' : Store} {t : Txn} {w : WorkItemRow} {goalId rootId : String}

theorem allAnswered_empty (goalId : String) : AllAnswered goalId .empty := by
  intro id l h
  cases h

theorem prepareCheckpointTx_new {claim : WorkClaim} {key actor checkpointId : String} {replaySafe : Bool}
    {now : Int} {checkpoint : CheckpointRow}
    (h : prepareCheckpointTx claim key replaySafe actor checkpointId now s = .ok (checkpoint, s')) :
    s' = s ∨ ∃ c, s' = ({ s with checkpoints := s.checkpoints ++ [c] } : Store).insertEvent
        claim.attempt.goalId "checkpoint.prepared" actor ∧
      c.workItemId = claim.workItem.id ∧ c.replaySafe = replaySafe ∧ c.outcome = none := by
  unfold prepareCheckpointTx at h
  simp only [bind_eq_ok] at h
  obtain ⟨_, -, _, -, _, -, h⟩ := h
  split at h
  · simp only [bind_eq_ok, pure_eq_ok] at h
    obtain ⟨_, -, h⟩ := h
    cases h
    exact .inl rfl
  · simp only [bind_eq_ok, insertRow_eq_ok, pure_eq_ok] at h
    obtain ⟨_, ⟨-, rfl⟩, h⟩ := h
    cases h
    exact .inr ⟨_, rfl, rfl, rfl, rfl⟩

theorem claimCurrent_goal {claim : WorkClaim} {now : Int} (hw : WellFormed s)
    (hcur : s.claimCurrent now claim = true) (hwm : w ∈ s.workItems) (hid : w.id = claim.workItem.id) :
    w.goalId = claim.attempt.goalId := by
  obtain ⟨a, -, -, hgoal, -⟩ := claimCurrent_holds hw (hw.life? hwm) hcur hid.symm
  exact hgoal

theorem prepare_answered {claim : WorkClaim} {key actor checkpointId : String} {replaySafe : Bool} {now : Int}
    (hw : WellFormed s) (h : AllAnswered goalId s)
    (hsafe : claim.attempt.goalId = goalId → replaySafe = true)
    (ht : s.apply enc (.prepareCheckpoint claim key replaySafe actor checkpointId now) = .ok s') :
    AllAnswered goalId s' := by
  obtain ⟨checkpoint, hok⟩ := prepareCheckpoint_ok ht
  have hcur := (prepareCheckpointTx_ok hok).1
  rcases prepareCheckpointTx_new hok with rfl | ⟨x, rfl, hxi, hxs, hxo⟩
  · exact h
  · intro id l' hl' hgoal
    obtain ⟨hitem, -, hcheckpoints⟩ := life?_eq_some.mp hl'
    obtain ⟨hwm, hid⟩ := workItem?_eq_some (s := s) hitem
    have hl := hw.life? hwm
    have hold := h _ _ hl hgoal
    refine ⟨hold.effect, hold.waiting, fun c hc => ?_⟩
    rw [hcheckpoints] at hc
    obtain ⟨hc, hci⟩ := List.mem_filter.mp hc
    rcases List.mem_append.mp hc with hc | hc
    · refine hold.checkpoints c (List.mem_filter.mpr ⟨hc, ?_⟩)
      rw [hid]
      exact hci
    · cases List.mem_singleton.mp hc
      have hwc : l'.item.id = claim.workItem.id := hid.trans ((of_decide_eq_true hci).symm.trans hxi)
      refine ⟨hxs.trans (hsafe ((claimCurrent_goal hw hcur hwm hwc).symm.trans hgoal)), fun o ho => ?_⟩
      rw [hxo] at ho
      cases ho

theorem commit_answered {claim : WorkClaim} {checkpointId actor : String} {outcome : WorkOutcome} {now : Int}
    (hw : WellFormed s) (h : AllAnswered goalId s)
    (hanswer : claim.attempt.goalId = goalId → ∀ w ∈ s.workItems, w.id = claim.workItem.id →
      parentOf w.input ≠ none → outcome.isAnswer = true)
    (ht : s.apply enc (.commitCheckpoint claim checkpointId outcome actor now) = .ok s') :
    AllAnswered goalId s' := by
  obtain ⟨hcur, current, hfind, hatt, ⟨-, -, rfl⟩ | ⟨-, rfl⟩⟩ := commitCheckpointTx_ok ht
  · exact h
  · intro id l' hl' hgoal
    obtain ⟨hitem, -, hcheckpoints⟩ := life?_eq_some.mp hl'
    obtain ⟨hwm, hid⟩ := workItem?_eq_some (s := s) hitem
    have hl := hw.life? hwm
    have hold := h _ _ hl hgoal
    refine ⟨hold.effect, hold.waiting, fun c hc => ?_⟩
    rw [hcheckpoints] at hc
    obtain ⟨hc, hci⟩ := List.mem_filter.mp hc
    obtain ⟨x, hx, rfl⟩ := mem_updateWhere.mp hc
    have hxi : x.workItemId = id := by
      have hci' := of_decide_eq_true hci
      split at hci' <;> exact hci'
    have hxl := hold.checkpoints x (List.mem_filter.mpr ⟨hx, by rw [hid]; exact decide_eq_true hxi⟩)
    split
    · rename_i hmatch
      refine ⟨hxl.1, fun o ho hparent => ?_⟩
      cases Option.some.inj ho
      obtain ⟨a, ha, haid, haw, -⟩ := hw.checkpointAttempt x hx
      have hitem' := claimCurrent_item hw hcur ha (haid.trans (of_decide_eq_true hmatch).2.2)
      have hwc : l'.item.id = claim.workItem.id := hid.trans (hxi.symm.trans (haw.symm.trans hitem'))
      exact hanswer ((claimCurrent_goal hw hcur hwm hwc).symm.trans hgoal) _ hwm hwc hparent
    · exact hxl

/-- **The nodes record answers.** -/
theorem allAnswered_apply (hw : WellFormed s) (hg : Gated s) (hf : Flat goalId rootId s)
    (h : AllAnswered goalId s) (hflat : t.IsFlat goalId rootId) (ht : s.apply enc t = .ok s')
    (hp : Placed s) (hanswer : t.IsAnswering goalId s) : AllAnswered goalId s' := by
  by_cases hprepare : ∃ claim key replaySafe actor checkpointId now,
      t = .prepareCheckpoint claim key replaySafe actor checkpointId now
  · obtain ⟨claim, key, replaySafe, actor, checkpointId, now, rfl⟩ := hprepare
    exact prepare_answered hw h hanswer ht
  by_cases hcommit : ∃ claim checkpointId outcome actor now,
      t = .commitCheckpoint claim checkpointId outcome actor now
  · obtain ⟨claim, checkpointId, outcome, actor, now, rfl⟩ := hcommit
    exact commit_answered hw h hanswer ht
  intro id l' hl' hgoal
  cases hl : s.life? id with
  | none =>
    have hnew := life_born hw ht hl hl'
    have hwm := (life_item hl').1
    -- An item is born of a plan, which writes nothing external.
    obtain ⟨p, hpm, -, hpg, -, heff⟩ := (gated_apply hw hg ht).items _ hwm
    have hmanifest := ((flat_apply hw hg hp hf hflat ht).plans p hpm (hpg.trans hgoal)).effects
    refine ⟨fun he => hmanifest (he ▸ heff), fun hst => ?_, fun c hc => ?_⟩
    · rcases hnew.item.status with h | h <;> cases h.symm.trans hst
    · rw [hnew.checkpoints] at hc
      cases hc
  | some l =>
    obtain ⟨es, l₁, h₁, hpath, hemits, -⟩ := life_apply hw hl ht
    cases h₁.symm.trans hl'
    refine hpath.keeps (I := Life.Answered)
      (p := fun e => (∀ id, e ≠ .prepare id) ∧ ∀ a id, e ≠ .commit a id)
      (fun _ _ _ hp hl hstep => hstep.answered hp.1 hp.2 hl) (fun e he => ⟨?_, ?_⟩)
      (h id l hl (hpath.goalId.symm.trans hgoal))
    · rintro checkpointId rfl
      exact hprepare (hemits _ he).prepare
    · rintro a checkpointId rfl
      obtain ⟨claim, outcome, actor, now, hcommits, -⟩ := Txn.Emits.commit (hemits _ he)
      exact hcommit ⟨claim, checkpointId, outcome, actor, now, hcommits⟩

end Answers

/-! ## What a node does -/

section Handler

variable {cfg : AgentSwarmSettings} {input : SwarmNodeInput} {replies : Replies} {own : String}
  {upstream : Upstream} {outcome otherwise : WorkOutcome} {steps : List WorkflowStep}

theorem isAnswer_swarmNodeOutcome (answer status : String) :
    (swarmNodeOutcome input answer status).isAnswer = true := by
  simp [WorkOutcome.isAnswer, swarmNodeOutcome, Value.asStr]

theorem isAnswer_publish (h : outcome.isAnswer = true) :
    (maybePublishTerminalArtifact input replies outcome).isAnswer = true := by
  simp only [maybePublishTerminalArtifact]
  split
  · exact h
  · exact h

theorem isAnswer_answerOutcome (directAnswer : Option String) :
    (answerOutcome input replies directAnswer).isAnswer = true := by
  refine isAnswer_publish ?_
  split
  · exact isAnswer_swarmNodeOutcome _ _
  · split <;> exact isAnswer_swarmNodeOutcome _ _

theorem executeInner_done (h : executeInner input replies cfg own upstream = .done outcome) :
    outcome.isAnswer = true := by
  simp only [executeInner] at h
  split_ifs at h
  · cases h
    exact isAnswer_publish (isAnswer_swarmNodeOutcome _ _)
  · cases h
    exact isAnswer_answerOutcome _
  · split at h
    · cases h
      exact isAnswer_swarmNodeOutcome _ _
    · cases h
      exact isAnswer_answerOutcome _
    · cases h
      exact isAnswer_answerOutcome _
    · cases h
      exact isAnswer_answerOutcome _
    · split_ifs at h
      cases h
      exact isAnswer_answerOutcome _

/-- A node that delegates is no aggregate, lies above the greatest depth, and answers if its extension is
rejected. -/
theorem executeInner_delegate (h : executeInner input replies cfg own upstream = .delegate steps outcome otherwise) :
    input.mode ≠ some "aggregate" ∧ input.depth < max cfg.maxDepth 1 ∧ otherwise.isAnswer = true ∧
      ∃ roleName children, steps = delegationSteps own input roleName children := by
  simp only [executeInner] at h
  split_ifs at h with hmode hdepth
  split at h
  · cases h
  · cases h
  · cases h
  · cases h
  · split_ifs at h
    cases h
    exact ⟨hmode, by omega, isAnswer_answerOutcome _, _, _, rfl⟩

theorem upstreamAnswer_of_isAnswer (h : outcome.isAnswer = true) :
    (outcome.evidence.get "answer").bind Value.asStr = some (upstreamAnswer outcome) := by
  obtain ⟨text, htext⟩ := Option.isSome_iff_exists.mp h
  rw [upstreamAnswer, htext, Option.getD_some]

end Handler

section Actions

variable {enc : Encoding} {cfg : AgentSwarmSettings} {goalId runId : String} {s s' : Store} {a : SwarmAction}
  {t : Txn}

theorem node?_eq_some {id : String} {w : WorkItemRow} {input : SwarmNodeInput}
    (h : node? goalId s id = some (w, input)) :
    w ∈ s.workItems ∧ w.id = id ∧ w.goalId = goalId ∧ SwarmNodeInput.ofValue w.input = some input := by
  obtain ⟨x, hx, h⟩ := Option.bind_eq_some_iff.mp h
  obtain ⟨i, hi, he⟩ := Option.map_eq_some_iff.mp h
  cases he
  obtain ⟨hfind, hgoal⟩ := Option.filter_eq_some_iff.mp hx
  obtain ⟨hwm, hid⟩ := workItem?_eq_some hfind
  exact ⟨hwm, hid, of_decide_eq_true hgoal, hi⟩

theorem nodePlan?_eq_some {id : String} {upstream : Upstream} {replies : Replies} {plan : NodePlan}
    (h : nodePlan? cfg goalId s id upstream replies = some plan) :
    ∃ w input, node? goalId s id = some (w, input) ∧ executeInner input replies cfg w.stepId upstream = plan := by
  obtain ⟨⟨w, input⟩, hnode, h⟩ := Option.map_eq_some_iff.mp h
  exact ⟨w, input, hnode, h⟩

theorem isRootPlan_swarmPlan (rootTask : String) (history : List StoredMessage) (incoming : SwarmIncoming) :
    IsRootPlan (rootStepId runId) (swarmPlan cfg runId rootTask history incoming).workflow
      (swarmPlan cfg runId rootTask history incoming).effectManifest := by
  refine ⟨fun step hs => ?_, rfl, ?_⟩
  · cases List.mem_singleton.mp hs
    refine ⟨rfl, ?_, ?_⟩
    · simp [parentOf, rootStep]
    · simp [isAggregateInput, rootStep]
  · simp [PlanGoalRequest.effectManifest, swarmPlan, rootStep]

theorem Flat.root (hf : Flat goalId (rootStepId runId) s) {w : WorkItemRow} (hw : w ∈ s.workItems)
    (hgoal : w.goalId = goalId) {input : SwarmNodeInput} (hinput : SwarmNodeInput.ofValue w.input = some input)
    (hmode : input.mode ≠ some "aggregate") (hdepth : input.depth = 0) : w.stepId = rootStepId runId := by
  rcases hf.rows w hw hgoal with ⟨hid, -, -⟩ | hnode
  · exact hid
  · rcases hnode.depth input hinput with h | h
    · exact absurd h hmode
    · omega

theorem isFlat_of_isForeign {rootId : String} (h : t.isForeign goalId = true) : t.IsFlat goalId rootId := by
  cases t with
  | planGoal | extendWorkflow => exact fun hid => absurd hid (of_decide_eq_true h)
  | _ => trivial

theorem isAnswering_of_isForeign (h : t.isForeign goalId = true) : t.IsAnswering goalId s := by
  cases t with
  | prepareCheckpoint claim key replaySafe =>
    intro hgoal
    simpa [Txn.isForeign, hgoal] using h
  | commitCheckpoint => exact fun hgoal => absurd hgoal (of_decide_eq_true h)
  | _ => trivial

theorem isFlat_txn (hf : Flat goalId (rootStepId runId) s) (hroot : DelegatesAtRoot enc cfg goalId runId s a)
    (ht : a.txn? cfg goalId runId s = some t) (hok : s.apply enc t = .ok s') :
    t.IsFlat goalId (rootStepId runId) := by
  cases a with
  | store =>
    simp only [SwarmAction.txn?, Option.ite_none_right_eq_some, Option.some.injEq] at ht
    obtain ⟨hforeign, rfl⟩ := ht
    exact isFlat_of_isForeign hforeign
  | plans rootTask history incoming externalWrite planId =>
    cases ht
    exact fun _ => isRootPlan_swarmPlan rootTask history incoming
  | delegates id upstream replies externalWrite workId =>
    have htxn := ht
    simp only [SwarmAction.txn?] at ht
    split at ht
    · rename_i steps outcome otherwise hplan
      cases ht
      obtain ⟨w, input, hnode, hexec⟩ := nodePlan?_eq_some hplan
      obtain ⟨hwm, -, hgoal, hinput⟩ := node?_eq_some hnode
      obtain ⟨hmode, -, -, roleName, children, hsteps⟩ := executeInner_delegate hexec
      have hdepth : input.depth = 0 := by
        simp only [DelegatesAtRoot, htxn, hok, hnode] at hroot
        simpa using hroot rfl
      rw [hf.root hwm hgoal hinput hmode hdepth] at hsteps
      exact fun _ => ⟨input, roleName, children, hsteps⟩
    · cases ht
  | commits claim checkpointId upstream replies delegated actor now =>
    simp only [SwarmAction.txn?] at ht
    split at ht
    · cases ht
      trivial
    · split_ifs at ht <;> cases ht <;> trivial
    · cases ht

theorem Flat.childless (hf : Flat goalId (rootStepId runId) s) {w c : WorkItemRow} (hw : w ∈ s.workItems)
    (hgoal : w.goalId = goalId) (hparent : parentOf w.input ≠ none) (hc : c ∈ s.workItems)
    (hcg : c.goalId = goalId) : parentOf c.input ≠ some w.stepId := by
  intro hcp
  rcases hf.rows w hw hgoal with ⟨-, hnone, -⟩ | hnode
  · exact hparent hnone
  · rcases hf.rows c hc hcg with ⟨-, hnone, -⟩ | hchild
    · rw [hnone] at hcp
      cases hcp
    · rw [hchild.parent] at hcp
      exact hnode.id_ne (Option.some.inj hcp).symm

theorem isAnswering_txn (hf : Flat goalId (rootStepId runId) s) (hw : WellFormed s)
    (ht : a.txn? cfg goalId runId s = some t) : t.IsAnswering goalId s := by
  cases a with
  | store =>
    simp only [SwarmAction.txn?, Option.ite_none_right_eq_some, Option.some.injEq] at ht
    obtain ⟨hforeign, rfl⟩ := ht
    exact isAnswering_of_isForeign hforeign
  | plans =>
    cases ht
    trivial
  | delegates =>
    simp only [SwarmAction.txn?] at ht
    split at ht <;> cases ht
    trivial
  | commits claim checkpointId upstream replies delegated actor now =>
    simp only [SwarmAction.txn?] at ht
    split at ht
    · rename_i outcome hplan
      cases ht
      obtain ⟨w, input, -, hexec⟩ := nodePlan?_eq_some hplan
      exact fun _ _ _ _ _ => executeInner_done hexec
    · rename_i steps outcome otherwise hplan
      obtain ⟨w, input, hnode, hexec⟩ := nodePlan?_eq_some hplan
      split_ifs at ht with hdelegated hchildren
      · cases ht
        intro _ x hx hxid hparent
        obtain ⟨hwm, hwid, hgoal, -⟩ := node?_eq_some hnode
        cases hw.item_eq hx hwm (hxid.trans hwid.symm)
        -- The item has children, so it is the root.
        obtain ⟨y, hy, hyc⟩ := (Option.any_eq_true _ _).mp hchildren
        obtain ⟨hym, hyid⟩ := workItem?_eq_some hy
        cases hw.item_eq hx hym (hwid.trans hyid.symm)
        obtain ⟨c, hc, hcp⟩ := List.any_eq_true.mp hyc
        obtain ⟨hcg, hcp⟩ := of_decide_eq_true hcp
        exact absurd hcp (hf.childless hx hgoal hparent hc hcg)
      · cases ht
        exact fun _ _ _ _ _ => (executeInner_delegate hexec).2.2.1
    · cases ht

end Actions

/-! ## The run -/

/-- What a run whose root alone delegates keeps. -/
structure Merging (goalId runId : String) (s : Store) : Prop where
  wellFormed : WellFormed s
  gated : Gated s
  placed : Placed s
  ordered : s.Ordered
  flat : Flat goalId (rootStepId runId) s
  answered : AllAnswered goalId s

theorem merging_empty (goalId runId : String) : Merging goalId runId .empty :=
  ⟨wellFormed_empty, gated_empty, placed_empty, Store.ordered_empty, flat_empty _ _, allAnswered_empty _⟩

section Run

variable {enc : Encoding} {cfg : AgentSwarmSettings} {goalId runId : String} {s : Store}

theorem merging_swarmExec (a : SwarmAction) (hroot : DelegatesAtRoot enc cfg goalId runId s a)
    (h : Merging goalId runId s) : Merging goalId runId (swarmExec enc cfg goalId runId s a) := by
  unfold swarmExec
  cases ht : a.txn? cfg goalId runId s with
  | none => exact h
  | some t =>
    refine ⟨wellFormed_exec t h.wellFormed, gated_exec h.wellFormed t h.gated,
      placed_exec h.wellFormed h.gated t h.placed, ordered_exec h.wellFormed t h.ordered,
      exec_keeps h.flat fun s' hok => ?_, exec_keeps h.answered fun s' hok => ?_⟩
    · exact flat_apply h.wellFormed h.gated h.placed h.flat (isFlat_txn h.flat hroot ht hok) hok
    · exact allAnswered_apply h.wellFormed h.gated h.flat h.answered (isFlat_txn h.flat hroot ht hok) hok
        h.placed (isAnswering_txn h.flat h.wellFormed ht)

theorem Flat.beneath (hf : Flat goalId (rootStepId runId) s) {flow : String} {d : WorkItemRow}
    (h : Beneath s goalId flow (rootStepId runId) d) :
    d ∈ s.workItems ∧ d.goalId = goalId ∧ d.workflowId = flow ∧ parentOf d.input = some (rootStepId runId) := by
  generalize hp : rootStepId runId = p at h
  induction h with
  | child hd hgoal hflow hparent => exact ⟨hd, hgoal, hflow, hp ▸ hparent⟩
  | under hc hd hgoal hflow hparent ih =>
    obtain ⟨hcm, hcg, -, hcp⟩ := ih
    rw [← hp] at hcp
    exact absurd hparent (hf.childless hcm hcg (by simp [hcp]) hd hgoal)

theorem Merging.waits (h : Merging goalId runId s) : Waits goalId s := by
  intro a ha hag hagg hc p hp d hd hne
  rw [h.flat.parent ha hag hagg] at hp
  cases hp
  obtain ⟨hdm, hdg, hdf, hdp⟩ := h.flat.beneath hd
  have hdep := h.flat.joined a ha hag hagg d hdm hdg hdf hdp hne
  obtain ⟨x, hx, hxid, hst⟩ := h.ordered.cleared a ha hc _ hdep rfl
  cases h.wellFormed.item_eq hx hdm hxid
  exact hst

theorem Merging.isAnswer (h : Merging goalId runId s) {d : WorkItemRow} (hd : d ∈ s.workItems)
    (hgoal : d.goalId = goalId) (hparent : parentOf d.input ≠ none) {outcome : WorkOutcome}
    (ho : HasOutcome s d.id outcome) : outcome.isAnswer = true := by
  obtain ⟨c, hc, hcd, -, hco⟩ := ho
  have hlife := h.answered d.id _ (h.wellFormed.life? hd) hgoal
  exact (hlife.checkpoints c (List.mem_filter.mpr ⟨hc, decide_eq_true hcd⟩)).2 outcome hco hparent

theorem Merging.merges (h : Merging goalId runId s) : Merges goalId s := by
  intro a ha hag _ _ upstream hup outcome d hd hdep hmem
  have hgoal : ∀ x ∈ s.workItems, ⟨a.id, x.id⟩ ∈ s.dependencies → x.goalId = goalId := by
    intro x hx hdep
    obtain ⟨y, hy, z, hz, hyid, hzid, hyz⟩ := h.wellFormed.dependencyItems _ hdep
    cases h.wellFormed.item_eq hy ha hyid
    cases h.wellFormed.item_eq hz hx hzid
    exact hyz.symm.trans hag
  have hdg := hgoal d hd hdep
  have hnode := h.flat.sources _ hdep d hd rfl hdg
  have hparent : parentOf d.input ≠ none := by simp [hnode.parent]
  -- What the aggregate depends on is under the root and has no children.
  refine ⟨fun ⟨c, hc, hcg, _, hcp⟩ => absurd hcp ?_, fun _ => ?_⟩
  · exact h.flat.childless hd hdg hparent hc (hcg.trans hdg)
  · obtain ⟨x, hx, hxdep, hxs, ho⟩ := hup.sound _ _ hmem
    have hxg := hgoal x hx hxdep
    have hxnode := h.flat.sources _ hxdep x hx rfl hxg
    exact upstreamAnswer_of_isAnswer (h.isAnswer hx hxg (by simp [hxnode.parent]) ho)

/-- **Delegation at the root**: while only nodes of depth zero delegate, every aggregate waits for all that
is below its node, and reads what answers for each child. -/
theorem swarm_subtree_merged (enc : Encoding) (cfg : AgentSwarmSettings) (goalId runId : String)
    (acts : List SwarmAction)
    (h : Machine.Along (swarmExec enc cfg goalId runId) (DelegatesAtRoot enc cfg goalId runId) .empty acts) :
    Waits goalId (Machine.run (swarmExec enc cfg goalId runId) .empty acts) ∧
      Merges goalId (Machine.run (swarmExec enc cfg goalId runId) .empty acts) := by
  have hrun : Merging goalId runId (Machine.run (swarmExec enc cfg goalId runId) .empty acts) :=
    Machine.run_invariant (fun _ a => merging_swarmExec a) h (merging_empty goalId runId)
  exact ⟨hrun.waits, hrun.merges⟩

end Run

/-! ## A run of two levels -/

namespace SwarmSample

mutual

/-- The length of the compact encoding of a value whose texts need no escapes. -/
def encodedLen : Value → Nat
  | .null => 4
  | .bool b => if b then 4 else 5
  | .int n => (toString n).length
  | .float digits => byteLen digits
  | .string text => byteLen text + 2
  | .array values => 1 + max 1 (encodedValuesLen values)
  | .object fields => 1 + max 1 (encodedFieldsLen fields)

def encodedValuesLen : Values → Nat
  | .nil => 0
  | .cons v vs => encodedLen v + 1 + encodedValuesLen vs

def encodedFieldsLen : Fields → Nat
  | .nil => 0
  | .cons k v fs => byteLen k + encodedLen v + 4 + encodedFieldsLen fs

end

def planDigest : String := "sha256:6bc21c2b97fc86fb9cafdfd00fe4992342b39b386a5c3d88e3594131ccb435fc"

def encoding : Encoding where
  inputLen := encodedLen
  workflowLen _ := 497
  planHash _ := planDigest

def settings : AgentSwarmSettings := {}

def incoming : SwarmIncoming := ⟨"telegram", "u1", "s1"⟩

def planned : SwarmAction := .plans "ship" [] incoming Sample.externalWrite "plan"

/-- The steps of a node, and of its only child. -/
def root : WorkflowStep := rootStep settings "run" "ship" [] incoming

def below (parent : WorkflowStep) : List WorkflowStep :=
  ((SwarmNodeInput.ofValue parent.input).map fun input =>
    delegationSteps parent.id input (orDefault input.roleName "general") [{ task := "part" }]).getD []

def splits : Replies := { planner := .delegate [{ task := "part" }] }

def answers : Replies := { planner := .answer "done" }

/-- The first claim of the item of a step; an item has its step's id. -/
def claimed (step : WorkflowStep) (ordinal : UInt32) (dependencyIds : List String) : WorkClaim where
  workItem := ⟨step.id, "goal", .running, step.id, step.handler, step.effect, step.input,
    .ofNat step.retry.maxAttempts, ordinal, dependencyIds, none⟩
  attempt := ⟨"attempt " ++ step.id, "goal", step.id, 1, .running, "w1", "lease " ++ step.id, 1, 0, none⟩
  leaseUntilUnix := 300
  budget := ⟨32, 150, 1048576⟩

/-- The worker claims the item and prepares it. -/
def begins (claim : WorkClaim) : List SwarmAction :=
  [.store (.claimWork "goal" (some claim.workItem.stepId) "w1" 300 "runtime:w1" claim.attempt.leaseToken
      claim.attempt.id 0),
    .store (.prepareCheckpoint claim ("key " ++ claim.workItem.id) true "runtime:w1"
      ("checkpoint " ++ claim.workItem.id) 0)]

/-- The worker commits the node's outcome and finishes. -/
def ends (claim : WorkClaim) (replies : Replies) (delegated : Bool) : List SwarmAction :=
  [.commits claim ("checkpoint " ++ claim.workItem.id) [] replies delegated "runtime:w1" 0,
    .store (.finishAttempt claim ("checkpoint " ++ claim.workItem.id) "runtime:w1" 0)]

/-- The node delegates to one child. -/
def divides (claim : WorkClaim) : List SwarmAction :=
  begins claim ++
    [.delegates claim.workItem.id [] splits Sample.externalWrite fun n =>
      if n = 0 then childStepId claim.workItem.stepId 0 else aggregateStepId claim.workItem.stepId] ++
    ends claim splits true

def setup : List SwarmAction :=
  [.store (.createGoal { objective := "ship" } "internal:swarm" "goal"), planned,
    .store (.approveGoal "goal" ⟨2, planDigest⟩ Sample.externalWrite {} "internal:swarm" "approval" fun _ => root.id)]

def rootClaim : WorkClaim := claimed root 0 []

def childClaim : WorkClaim :=
  claimed ((below root).headD root) 1 []

/-- The root delegates, and its child answers. -/
def shallow : List SwarmAction :=
  setup ++ divides rootClaim ++ begins childClaim ++ ends childClaim answers false

/-- The root delegates, and so does its child. -/
def nested : List SwarmAction := setup ++ divides rootClaim ++ divides childClaim

def after (acts : List SwarmAction) : Store :=
  Machine.run (swarmExec encoding settings "goal" "run") .empty acts

end SwarmSample

theorem swarm_subtree_merged_shallow :
    Waits "goal" (SwarmSample.after SwarmSample.shallow) ∧ Merges "goal" (SwarmSample.after SwarmSample.shallow) :=
  swarm_subtree_merged SwarmSample.encoding SwarmSample.settings "goal" "run" SwarmSample.shallow (by decide +kernel)

instance (s : Store) (id : String) (outcome : WorkOutcome) : Decidable (HasOutcome s id outcome) :=
  inferInstanceAs (Decidable (∃ c ∈ s.checkpoints, _))

/-- The child has delegated and succeeded: the aggregate over it is ready, what is below the child has not
run, and the aggregate reads that the child delegated. -/
theorem swarm_subtree_split :
    (SwarmSample.after SwarmSample.nested).workItems.map (fun w => (w.id, w.status)) =
        [("run:1", .succeeded), ("run:1.c1", .succeeded), ("run:1.agg", .ready), ("run:1.c1.c1", .ready),
          ("run:1.c1.agg", .pending)] ∧
      ¬ Waits "goal" (SwarmSample.after SwarmSample.nested) ∧
      ¬ Merges "goal" (SwarmSample.after SwarmSample.nested) := by
  refine ⟨by decide +kernel, fun h => ?_, fun h => ?_⟩
  · have hsplit : ∃ a ∈ (SwarmSample.after SwarmSample.nested).workItems, a.goalId = "goal" ∧
        isAggregateInput a.input = true ∧ a.isCleared = true ∧ parentOf a.input = some "run:1" ∧
        ∃ c ∈ (SwarmSample.after SwarmSample.nested).workItems, c.goalId = "goal" ∧ c.workflowId = a.workflowId ∧
          parentOf c.input = some "run:1" ∧
          ∃ d ∈ (SwarmSample.after SwarmSample.nested).workItems, d.goalId = "goal" ∧
            d.workflowId = a.workflowId ∧ parentOf d.input = some c.stepId ∧ d.id ≠ a.id ∧
            d.status ≠ .succeeded := by
      decide +kernel
    obtain ⟨a, ha, hag, hagg, hc, hp, c, hcm, hcg, hcf, hcp, d, hd, hdg, hdf, hdp, hne, hst⟩ := hsplit
    exact hst (h a ha hag hagg hc _ hp d (.under (.child hcm hcg hcf hcp) hd hdg hdf hdp) hne)
  · let outcome := delegatedOutcome "run:1.c1" {
      task := "part", roleName := some "general", depth := 1, swarmRunId := some "run" } 1
    have hsplit : ∃ a ∈ (SwarmSample.after SwarmSample.nested).workItems, a.id = "run:1.agg" ∧ a.goalId = "goal" ∧
        isAggregateInput a.input = true ∧ a.isCleared = true ∧
        ∃ d ∈ (SwarmSample.after SwarmSample.nested).workItems,
          ⟨a.id, d.id⟩ ∈ (SwarmSample.after SwarmSample.nested).dependencies ∧ d.stepId = "run:1.c1" ∧
          HasOutcome (SwarmSample.after SwarmSample.nested) d.id outcome ∧
          ∃ c ∈ (SwarmSample.after SwarmSample.nested).workItems, c.goalId = d.goalId ∧
            c.workflowId = d.workflowId ∧ parentOf c.input = some d.stepId := by
      decide +kernel
    have honly : ∀ d ∈ (SwarmSample.after SwarmSample.nested).workItems,
        ⟨"run:1.agg", d.id⟩ ∈ (SwarmSample.after SwarmSample.nested).dependencies → d.stepId = "run:1.c1" := by
      decide +kernel
    have hsilent : ∀ b ∈ (SwarmSample.after SwarmSample.nested).workItems, isAggregateInput b.input = true →
        ∀ c ∈ (SwarmSample.after SwarmSample.nested).checkpoints, c.workItemId ≠ b.id := by
      decide +kernel
    obtain ⟨a, ha, haid, hag, hagg, hc, d, hd, hdep, hstep, ho, hchild⟩ := hsplit
    have hup : IsUpstream (SwarmSample.after SwarmSample.nested) a.id [(d.stepId, outcome)] := by
      refine ⟨fun stepId o hmem => ?_, fun x hx hxdep o _ => ⟨outcome, ?_⟩⟩
      · cases List.mem_singleton.mp hmem
        exact ⟨d, hd, hdep, rfl, ho⟩
      · rw [haid] at hxdep
        rw [honly x hx hxdep, hstep]
        exact List.mem_cons_self
    obtain ⟨b, hb, -, -, hbagg, -, merged, ⟨c, hcm, hcb, -⟩, -⟩ :=
      (h a ha hag hagg hc _ hup outcome d hd hdep List.mem_cons_self).1 hchild
    exact hsilent b hb hbagg c hcm hcb

end Xiaomaolv
