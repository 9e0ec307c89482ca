import Xiaomaolv.Loop.Store

/-!
# Goal transactions

The transactions that move a goal: admission, planning, approval, extension, verification, the
operator's stops and holds, and the janitor's expiry. Each is the body of one
`BEGIN IMMEDIATE … COMMIT`, with the checks that `LoopEngine` makes before it.

Identifiers drawn from `new_loop_id` are parameters; an insert that meets a used key fails.
-/

namespace Xiaomaolv.LoopStore

open Table

variable (enc : Encoding)

/-! ## Admission -/

def createGoal (request : CreateGoalRequest) (actor id : String) (s : Store) :
    Except String Store := do
  request.validate
  validateActor actor
  if request.requestId.isSome && s.goals.any fun g => g.requestId = request.requestId then
    pure s
  else
    let goals ← insertRow (fun g => g.id = id) (uniqueFailed "harness_goals.id")
      { id, objective := trim request.objective, status := .proposed, revision := 1,
        sourceSignalIds := request.sourceSignalIds, requestId := request.requestId,
        createdBy := actor, internalOnly := request.internalOnly } s.goals
    pure ({ s with goals }.insertEvent id "goal.created" actor)

/-! ## Stops and holds -/

/-- The goals `expire_overdue_goals` selects. -/
def isOverdue (now : Int) (s : Store) (g : GoalRow) : Bool :=
  (g.status = .approved ∨ g.status = .active ∨ g.status = .blocked ∨ g.status = .verifying) &&
    !g.internalOnly &&
    s.budgets.any fun b =>
      b.goalId = g.id && b.startedAt.any fun startedAt => startedAt + b.deadlineSecs < now

def expireGoal (s : Store) (g : GoalRow) : Store :=
  (s.setGoalStatus g.id .failed).insertEvent g.id "goal.expired" "internal:janitor"

def overdueGoals (limit : Nat) (now : Int) (s : Store) : List GoalRow :=
  (s.goals.filter (isOverdue now s)).take (max 1 (min limit 128))

def expireOverdueGoals (limit : Nat) (now : Int) (s : Store) : Store :=
  (overdueGoals limit now s).foldl expireGoal s

/-- End the goal's open attempts as `abandoned`. -/
def abandonAttempts (goalId error : String) (attempts : List AttemptRow) : List AttemptRow :=
  updateWhere (fun a => a.goalId = goalId ∧ a.status.isOpen)
    (fun a => { a with status := .abandoned, error := some error }) attempts

/-- Close the goal's items whose status is not in `kept`. -/
def closeItems (goalId error : String) (kept : List WorkItemStatus) (status : WorkItemStatus)
    (items : List WorkItemRow) : List WorkItemRow :=
  updateWhere (fun w => w.goalId = goalId ∧ w.status ∉ kept)
    (fun w => { w with
      status, leaseToken := none, leaseUntil := none, nextAttemptAt := none,
      lastError := some error }) items

def isCancelable : GoalStatus → Bool
  | .proposed | .planning | .reviewReady | .approved | .active | .blocked | .verifying => true
  | _ => false

def cancelGoal (goalId reason actor : String) (s : Store) : Except String Store := do
  ensureValidId goalId "goal id"
  ensureReason reason "cancel"
  let goal ← context (s.goal? goalId) "goal not found"
  ensure (isCancelable goal.status) ("goal is already terminal: " ++ goal.status.asStr)
  let error := "goal canceled: " ++ trim reason
  let s : Store := { s with
    attempts := abandonAttempts goalId error s.attempts
    workItems := closeItems goalId error [.succeeded, .failed] .failed s.workItems }
  pure ((s.setGoalStatus goalId .canceled).insertEvent goalId "goal.canceled" actor)

def isPausable : GoalStatus → Bool
  | .approved | .active | .blocked | .verifying => true
  | _ => false

/-- `set_goal_paused(paused = true)`. -/
def pauseGoal (goalId reason actor : String) (s : Store) : Except String Store := do
  ensureValidId goalId "goal id"
  ensureReason reason "pause"
  let goal ← context (s.goal? goalId) "goal not found"
  ensure (isPausable goal.status)
    ("goal cannot pause from status '" ++ goal.status.asStr ++ "'")
  pure ((s.setGoalStatus goalId .paused).insertEvent goalId "goal.paused" actor)

/-- `set_goal_paused(paused = false)`. -/
def unpauseGoal (goalId actor : String) (s : Store) : Except String Store := do
  ensureValidId goalId "goal id"
  let goal ← context (s.goal? goalId) "goal not found"
  ensure (goal.status = .paused)
    ("goal cannot unpause from status '" ++ goal.status.asStr ++ "'")
  pure ((s.setGoalStatus goalId .active).insertEvent goalId "goal.unpaused" actor)

def isRejectable : GoalStatus → Bool
  | .proposed | .planning | .reviewReady => true
  | _ => false

def rejectGoal (goalId reason actor : String) (s : Store) : Except String Store := do
  ensureValidId goalId "goal id"
  ensureReason reason "rejection"
  let goal ← context (s.goal? goalId) "goal not found"
  ensure (isRejectable goal.status)
    ("goal cannot be rejected from status '" ++ goal.status.asStr ++ "'")
  pure ((s.setGoalStatus goalId .rejected).insertEvent goalId "goal.rejected" actor)

def isReplannable : GoalStatus → Bool
  | .failed | .canceled | .rejected | .blocked => true
  | _ => false

def markGoalForReplan (goalId reason actor : String) (s : Store) : Except String Store := do
  ensureValidId goalId "goal id"
  ensureReason reason "replan"
  let goal ← context (s.goal? goalId) "goal not found"
  ensure (isReplannable goal.status)
    ("goal cannot be replanned from status '" ++ goal.status.asStr ++ "'")
  -- The previous revision's open items are superseded: auditable, but out of every dispatch path.
  let s : Store := { s with
    attempts := abandonAttempts goalId "superseded by replan" s.attempts
    workItems := closeItems goalId ("superseded by replan: " ++ trim reason)
      [.succeeded, .failed, .canceled] .canceled s.workItems }
  pure ((s.setGoalStatus goalId .replan).insertEvent goalId "goal.replan" actor)

/-! ## Planning and approval -/

def planGoal (goalId : String) (request : PlanGoalRequest) (externalWrite : ExternalWritePolicy)
    (actor planId : String) (s : Store) : Except String Store := do
  request.validateWithPolicy enc externalWrite
  validateActor actor
  ensureValidId goalId "goal id"
  let goal ← context (s.goal? goalId) "goal not found"
  ensure (goal.status = .proposed ∨ goal.status = .replan)
    ("goal cannot be planned from status " ++ goal.status.asStr)
  let workflows ← insertRow
    (fun w => w.id = planId ∨ (w.goalId = goalId ∧ w.goalRevision = goal.revision + 1))
    "failed to persist workflow"
    { id := planId, goalId, goalRevision := goal.revision + 1, planHash := enc.planHash request,
      workflow := request.workflow, acceptance := request.acceptanceCriteria,
      effectManifest := request.effectManifest, createdBy := actor } s.workflows
  let s : Store := { s with
    workflows
    goals := updateWhere (fun g => g.id = goalId)
      (fun g => { g with status := .reviewReady, revision := goal.revision + 1 }) s.goals }
  pure (s.insertEvent goalId "goal.planned" actor)

/-- Insert one work item a step, the ids and ordinals counted from `n`. -/
def materializeItems (row : Nat → WorkflowStep → WorkItemRow) (n : Nat) :
    List WorkflowStep → List WorkItemRow → Except String (List WorkItemRow)
  | [], items => .ok items
  | step :: steps, items => do
    let new := row n step
    let items ← insertRow
      (fun w => w.id = new.id ∨ (w.workflowId = new.workflowId ∧ w.stepId = new.stepId))
      "failed to materialize work item" new items
    materializeItems row (n + 1) steps items

/-- Insert dependency rows, refusing a repeated one. -/
def insertDependencies (message : String) :
    List DependencyRow → List DependencyRow → Except String (List DependencyRow)
  | [], rows => .ok rows
  | d :: ds, rows => do
    let rows ← insertRow (fun r => r = d) message d rows
    insertDependencies message ds rows

/-- The id that `workId` gives to the step `stepId` of a batch. -/
def batchId? (workId : Nat → String) (steps : List WorkflowStep) (stepId : String) :
    Option String :=
  (steps.findIdx? fun step => step.id = stepId).map workId

/-- The dependency row of an edge; the source panics where an end is not a step. -/
def edgeDependency (workId : Nat → String) (steps : List WorkflowStep) (edge : WorkflowEdge) :
    Except String DependencyRow := do
  let target ← context (batchId? workId steps edge.toId) "validated target"
  let source ← context (batchId? workId steps edge.fromId) "validated source"
  pure ⟨target, source⟩

def edgeDependencies (workId : Nat → String) (steps : List WorkflowStep) :
    List WorkflowEdge → Except String (List DependencyRow)
  | [] => .ok []
  | edge :: edges => do
    let d ← edgeDependency workId steps edge
    let ds ← edgeDependencies workId steps edges
    pure (d :: ds)

/-- The work item of a step when its plan is approved. -/
def approvedItem (goalId : String) (plan : WorkflowRow) (workId : Nat → String) (ordinal : Nat)
    (step : WorkflowStep) : WorkItemRow :=
  { id := workId ordinal, goalId, workflowId := plan.id, stepId := step.id
    status := if plan.workflow.edges.any fun edge => edge.toId = step.id then .pending else .ready
    handler := step.handler, effectClass := step.effect, input := step.input
    maxAttempts := step.retry.maxAttempts, backoffSecs := step.retry.backoffSecs, ordinal }

/-- `INSERT OR REPLACE INTO harness_goal_budget_usage`: a fresh revision resets the clock. -/
def replaceBudget (goalId : String) (budget : ExecutionBudget) (budgets : List BudgetUsageRow) :
    List BudgetUsageRow :=
  (budgets.filter fun b => b.goalId ≠ goalId) ++
    [{ goalId, maxProviderCalls := budget.maxProviderCalls, deadlineSecs := budget.deadlineSecs,
       maxResponseBytes := budget.maxResponseBytes }]

/-- The bounds on a plan that no operator approves. -/
def checkAutoApproval (internalPolicy : InternalApprovalPolicy) (actor : String)
    (plan : WorkflowRow) : Except String Unit :=
  if actor = internalAutoActor then internalPolicy.checkPlan plan.workflow plan.effectManifest
  else .ok ()

/-- The transaction of `approve_goal`; the source then resumes the goal. -/
def approveGoal (goalId : String) (request : ApproveGoalRequest)
    (externalWrite : ExternalWritePolicy) (internalPolicy : InternalApprovalPolicy)
    (actor approvalId : String) (workId : Nat → String) (s : Store) : Except String Store := do
  validateActor actor
  ensureValidId goalId "goal id"
  ensure (startsWith request.expectedPlanHash "sha256:") "expected plan hash must be sha256"
  let goal ← context (s.goal? goalId) "goal not found"
  ensure (goal.status = .reviewReady) "goal is not review_ready"
  ensure (goal.revision = request.expectedGoalRevision) "goal revision changed after review"
  let plan ← context
    (s.workflows.find? fun w => w.goalId = goalId ∧ w.goalRevision = goal.revision)
    "reviewed workflow not found"
  ensure (plan.planHash = request.expectedPlanHash) "reviewed plan hash does not match approval"
  -- Re-checked against the policy in effect now, not when the plan was drafted.
  checkAll (fun step => ensure (externalWrite.admits step) (externalWriteMessage step))
    plan.workflow.steps
  checkAutoApproval internalPolicy actor plan
  let approvals ← insertRow
    (fun a => a.id = approvalId ∨ (a.goalId = goalId ∧ a.goalRevision = goal.revision))
    "failed to bind goal approval"
    { id := approvalId, goalId, goalRevision := goal.revision, planHash := plan.planHash,
      approvedBy := actor } s.approvals
  let workItems ← materializeItems (approvedItem goalId plan workId) 0 plan.workflow.steps
    s.workItems
  let new ← edgeDependencies workId plan.workflow.steps plan.workflow.edges
  let dependencies ← insertDependencies "failed to materialize work dependency" new s.dependencies
  let s : Store := { s with
    approvals, workItems, dependencies
    budgets := replaceBudget goalId plan.workflow.budget s.budgets
    goals := updateWhere (fun g => g.id = goalId)
      (fun g => { g with status := .approved, revision := goal.revision + 1 }) s.goals }
  pure (s.insertEvent goalId "goal.approved" actor)

/-! ## Extension -/

/-- The first row that comes before all others. -/
def pickBy {α : Type} (before : α → α → Bool) : List α → Option α
  | [] => none
  | a :: as =>
    match pickBy before as with
    | none => some a
    | some b => if before a b then some a else some b

/-- `ORDER BY goal_revision DESC LIMIT 1`. -/
def latestWorkflow? (goalId : String) (s : Store) : Option WorkflowRow :=
  pickBy (fun a b => b.goalRevision ≤ a.goalRevision)
    (s.workflows.filter fun w => w.goalId = goalId)

/-- The step that authorizes extensions: its input carries `"swarm_root": true`. -/
def swarmRoot? (spec : WorkflowSpec) : Option WorkflowStep :=
  spec.steps.find? fun step => (step.input.get "swarm_root").any fun v => v.asBool = some true

/-- The checks on the steps of an extension; `seen` are the step ids taken before. -/
def checkExtension (manifest : List EffectClass) (externalWrite : ExternalWritePolicy) :
    List String → List WorkflowStep → Except String Unit
  | _, [] => .ok ()
  | seen, step :: steps => do
    ensure (!isBlank step.id && byteLen step.id ≤ 96) "workflow step id must be 1..=96 bytes"
    ensure (!seen.contains step.id) "duplicate workflow step id"
    ensure (allowedWorkflowHandlers.contains step.handler) "unregistered workflow handler"
    ensure (externalWrite.admits step) (externalWriteMessage step)
    ensure (manifest.contains step.effect) "step effect is outside the approved effect manifest"
    ensure (1 ≤ step.retry.maxAttempts && step.retry.maxAttempts ≤ 10)
      "max_attempts must be 1..=10"
    ensure (step.retry.backoffSecs ≤ 3600) "backoff cannot exceed 3600 seconds"
    ensure (enc.inputLen step.input ≤ 8192) "step input cannot exceed 8192 bytes"
    checkExtension manifest externalWrite (step.id :: seen) steps

/-- The `depends_on` list of a step's input. -/
def declaredDependencies (step : WorkflowStep) : List String :=
  (((step.input.get "depends_on").bind Value.asArray).getD []).filterMap Value.asStr

/-- Dependencies name steps of the goal or earlier steps of the batch. -/
def checkDependencies : List String → List WorkflowStep → Except String Unit
  | _, [] => .ok ()
  | known, step :: steps => do
    ensure ((declaredDependencies step).length ≤ 16) "a step may declare at most 16 dependencies"
    checkAll (fun dep => do
      ensure (known.contains dep) ("depends_on references unknown step '" ++ dep ++ "'")
      ensure (dep != step.id) "a step cannot depend on itself") (declaredDependencies step)
    checkDependencies (step.id :: known) steps

/-- The work item of an extension step; ordinals continue from `base`. -/
def extendedItem (goalId workflowId : String) (workId : Nat → String) (base offset : Nat)
    (step : WorkflowStep) : WorkItemRow :=
  { id := workId offset, goalId, workflowId, stepId := step.id
    status := if (declaredDependencies step).isEmpty then .ready else .pending
    handler := step.handler, effectClass := step.effect, input := step.input
    maxAttempts := step.retry.maxAttempts, backoffSecs := step.retry.backoffSecs
    ordinal := base + offset }

/-- `SELECT id … WHERE goal_id = ? AND step_id = ?`: the goal's index yields rows by ordinal. -/
def stepItem? (goalId stepId : String) (items : List WorkItemRow) : Option WorkItemRow :=
  pickBy (fun a b => a.ordinal ≤ b.ordinal)
    (items.filter fun w => w.goalId = goalId ∧ w.stepId = stepId)

/-- The item a declared dependency stands for: a step of the batch, else a stored one. -/
def resolveDependency (goalId : String) (workId : Nat → String) (steps : List WorkflowStep)
    (items : List WorkItemRow) (dep : String) : Except String String :=
  match batchId? workId steps dep with
  | some id => .ok id
  | none => context ((stepItem? goalId dep items).map (·.id)) "failed to resolve depends_on step"

def resolveDependencies (goalId : String) (workId : Nat → String) (steps : List WorkflowStep)
    (items : List WorkItemRow) (id : String) : List String → Except String (List DependencyRow)
  | [] => .ok []
  | dep :: deps => do
    let source ← resolveDependency goalId workId steps items dep
    let rest ← resolveDependencies goalId workId steps items id deps
    pure (⟨id, source⟩ :: rest)

/-- The dependency rows of a batch, its steps counted from `n`. -/
def batchDependencies (goalId : String) (workId : Nat → String) (batch : List WorkflowStep)
    (items : List WorkItemRow) (n : Nat) :
    List WorkflowStep → Except String (List DependencyRow)
  | [] => .ok []
  | step :: steps => do
    let ds ← resolveDependencies goalId workId batch items (workId n) (declaredDependencies step)
    let rest ← batchDependencies goalId workId batch items (n + 1) steps
    pure (ds ++ rest)

def isExtensible : GoalStatus → Bool
  | .approved | .active | .verifying => true
  | _ => false

/-- The goal's items that still count: `status != 'canceled'`. -/
def keptItems (goalId : String) (s : Store) : List WorkItemRow :=
  s.workItems.filter fun w => w.goalId = goalId ∧ w.status ≠ .canceled

/-- One past the highest ordinal of the kept items. -/
def nextOrdinal (goalId : String) (s : Store) : Nat :=
  match ((keptItems goalId s).map (·.ordinal)).max? with
  | none => 0
  | some ordinal => ordinal + 1

def extendWorkflow (goalId : String) (steps : List WorkflowStep)
    (externalWrite : ExternalWritePolicy) (actor : String) (workId : Nat → String) (s : Store) :
    Except String Store := do
  validateActor actor
  ensureValidId goalId "goal id"
  ensure (startsWith actor internalActorPrefix) "extend_workflow requires an internal actor"
  ensure (!steps.isEmpty && steps.length ≤ 32) "extend_workflow requires 1..=32 steps"
  let goal ← context (s.goal? goalId) "goal not found"
  ensure (isExtensible goal.status) "goal is not extensible"
  let plan ← context (latestWorkflow? goalId s) "goal has no workflow to extend"
  let root ← context (swarmRoot? plan.workflow)
    "approved workflow does not authorize dynamic extension"
  let maxNodes ← context ((root.input.get "max_nodes").bind Value.asU64)
    "swarm root step is missing a max_nodes budget"
  let kept := keptItems goalId s
  ensure (kept.length + steps.length ≤ min maxNodes 32)
    "workflow extension exceeds the approved expansion budget"
  checkExtension enc plan.effectManifest externalWrite (kept.map (·.stepId)) steps
  checkDependencies (kept.map (·.stepId)) steps
  let base := nextOrdinal goalId s
  ensure (base + steps.length ≤ 2 ^ 32) "invalid work item ordinal"
  let workItems ← materializeItems (extendedItem goalId plan.id workId base) 0 steps s.workItems
  let new ← batchDependencies goalId workId steps workItems 0 steps
  let dependencies ← insertDependencies "failed to materialize extended dependency" new
    s.dependencies
  let s : Store := { s with workItems, dependencies }.insertEvent goalId "workflow.extended" actor
  pure (s.refreshGoalStatus goalId)

/-! ## Verification -/

/-- The outcomes verification reads: the goal's reconciled checkpoints, in order. -/
def reconciledOutcomes (goalId : String) (s : Store) : List WorkOutcome :=
  (s.checkpoints.filter fun c => c.goalId = goalId ∧ c.phase = .reconciled).filterMap (·.outcome)

/-- The outcome names an artifact of the type. -/
def namesArtifact (s : Store) (artifactType : String) (outcome : WorkOutcome) : Bool :=
  outcome.artifactIds.any fun id =>
    (s.artifacts.find? fun a => a.id = id).any fun a => a.kind = artifactType

/-- The outcome names a passed run of the suite. -/
def namesPassedRun (s : Store) (suite : String) (outcome : WorkOutcome) : Bool :=
  (outcome.evidence.get "suite").bind Value.asStr = some suite &&
    ((outcome.evidence.get "self_test_run_id").bind Value.asStr).any fun runId =>
      (s.selfTestRuns.filter fun r => r.id = runId ∧ r.suite = suite ∧ r.passed).length = 1

def hasManualVerification (s : Store) (goalId label : String) : Bool :=
  s.manualVerifications.any fun m => m.goalId = goalId ∧ m.label = label

def criterionMet (s : Store) (goalId : String) : AcceptanceCriterion → Bool
  | .artifactExists artifactType =>
    (reconciledOutcomes goalId s).any (namesArtifact s artifactType)
  | .selfTestSuite suite => (reconciledOutcomes goalId s).any (namesPassedRun s suite)
  | .manualApproval label => hasManualVerification s goalId label

/-- The transaction of `verify_goal`. -/
def verifyGoal (goalId actor : String) (s : Store) : Except String Store := do
  validateActor actor
  ensureValidId goalId "goal id"
  let goal ← context (s.goal? goalId) "goal not found"
  if goal.status = .achieved then
    pure s
  else
    ensure (goal.status = .verifying) "goal is not ready for verification"
    let plan ← context (latestWorkflow? goalId s) rowNotFound
    if plan.acceptance.all (criterionMet s goalId) then
      let s : Store := { s with
        goals := updateWhere (fun g => g.id = goalId ∧ g.status = .verifying)
          (fun g => { g with status := .achieved, revision := g.revision + 1 }) s.goals }
      pure (s.insertEvent goalId "goal.achieved" actor)
    else
      pure (s.insertEvent goalId "goal.verification_pending" actor)

def recordManualVerification (goalId label actor : String) (s : Store) : Except String Store := do
  validateActor actor
  ensureValidId goalId "goal id"
  let label := trim label
  ensure (!label.isEmpty && byteLen label ≤ 160) "manual verification label must be 1..=160 bytes"
  let goal ← context (s.goal? goalId) "goal not found"
  ensure (goal.status = .verifying ∨ goal.status = .achieved)
    "goal is not ready for manual verification"
  let plan ← context (latestWorkflow? goalId s) rowNotFound
  ensure (plan.acceptance.contains (.manualApproval label))
    "manual verification label is not part of the approved acceptance criteria"
  if hasManualVerification s goalId label then
    pure s
  else
    let s : Store := { s with manualVerifications := s.manualVerifications ++ [⟨goalId, label, actor⟩] }
    pure (s.insertEvent goalId "goal.manual_verified" actor)

/-- What verification reads of `publish_artifact`: a new artifact under a fresh id. -/
def publishArtifact (id kind : String) (s : Store) : Except String Store := do
  let artifacts ← insertRow (fun a => a.id = id) (uniqueFailed "harness_artifacts.id") ⟨id, kind⟩
    s.artifacts
  pure { s with artifacts }

/-- What verification reads of `run_self_tests`: a new run under a fresh id. -/
def recordSelfTestRun (id suite : String) (passed : Bool) (s : Store) : Except String Store := do
  let selfTestRuns ← insertRow (fun r => r.id = id) (uniqueFailed "harness_self_test_runs.id")
    ⟨id, suite, passed⟩ s.selfTestRuns
  pure { s with selfTestRuns }

/-! ## Budgets -/

def reserveProviderCall (goalId : String) (now : Int) (s : Store) : Except String Store := do
  ensureValidId goalId "goal id"
  let budget ← context (s.budgets.find? fun b => b.goalId = goalId)
    "goal execution budget not found"
  ensure (now ≤ budget.startedAt.getD now + budget.deadlineSecs)
    "goal execution deadline is exhausted"
  ensure (budget.providerCalls < budget.maxProviderCalls) "goal provider call budget is exhausted"
  pure { s with
    budgets := updateWhere
      (fun b => b.goalId = goalId ∧ b.providerCalls < b.maxProviderCalls)
      (fun b => { b with
        providerCalls := b.providerCalls + 1, startedAt := some (b.startedAt.getD now) })
      s.budgets }

def recordProviderResponseBytes (goalId : String) (responseBytes : Nat) (s : Store) :
    Except String Store := do
  ensureValidId goalId "goal id"
  let fits := fun b : BudgetUsageRow =>
    decide (b.goalId = goalId ∧ b.responseBytes + responseBytes ≤ b.maxResponseBytes)
  ensure (s.budgets.any fits) "goal provider response byte budget is exhausted"
  pure { s with
    budgets := updateWhere fits
      (fun b => { b with responseBytes := b.responseBytes + responseBytes }) s.budgets }

end Xiaomaolv.LoopStore
