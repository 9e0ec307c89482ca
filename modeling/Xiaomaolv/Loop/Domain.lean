import Xiaomaolv.Loop.Data

/-!
# The domain of the loop engine

Statuses, workflows, policies, requests and records, with the checks a request passes before it
reaches the store.

* `WorkflowSpec.validateWithPolicy`: the admission check of a plan, Kahn's walk included (`kahn`).
* `InternalApprovalPolicy.checkPlan`, `ExternalWritePolicy.allows`.
* `Encoding`: what the engine takes from `serde_json` and `sha2`: the length of an encoding and the
  digest of a request.
-/

namespace Xiaomaolv

/-! ## Statuses -/

inductive GoalStatus where
  | proposed | planning | reviewReady | approved | active | verifying | achieved
  | rejected | canceled | paused | blocked | failed | replan
  deriving DecidableEq, Repr

def GoalStatus.asStr : GoalStatus → String
  | proposed => "proposed"
  | planning => "planning"
  | reviewReady => "review_ready"
  | approved => "approved"
  | active => "active"
  | verifying => "verifying"
  | achieved => "achieved"
  | rejected => "rejected"
  | canceled => "canceled"
  | paused => "paused"
  | blocked => "blocked"
  | failed => "failed"
  | replan => "replan"

inductive WorkItemStatus where
  | pending | ready | running | waitingConfirmation | succeeded | failed | canceled | blocked
  deriving DecidableEq, Repr

inductive AttemptStatus where
  | running | committing | succeeded | failed | abandoned | waitingConfirmation
  /-- Claimed but rescheduled before completing; does not consume attempt budget. -/
  | void
  deriving DecidableEq, Repr

/-- `status IN ('running', 'committing')`. -/
def AttemptStatus.isLive : AttemptStatus → Bool
  | running | committing => true
  | _ => false

/-- `status IN ('running', 'committing', 'waiting_confirmation')`. -/
def AttemptStatus.isOpen : AttemptStatus → Bool
  | running | committing | waitingConfirmation => true
  | _ => false

inductive CheckpointPhase where
  | prepared | committed | reconciled
  /-- A prepared checkpoint whose effect is known not to have happened. -/
  | voided
  deriving DecidableEq, Repr

inductive EffectClass where
  | pure | read | localWrite | externalWrite
  deriving DecidableEq, Repr

def EffectClass.asStr : EffectClass → String
  | pure => "pure"
  | read => "read"
  | localWrite => "local_write"
  | externalWrite => "external_write"

/-- The derived order of the effect classes. -/
def EffectClass.rank : EffectClass → Nat
  | pure => 0
  | read => 1
  | localWrite => 2
  | externalWrite => 3

/-! ## Workflows -/

structure RetryPolicy where
  maxAttempts : Nat
  backoffSecs : Nat
  deriving DecidableEq, Repr

structure ExecutionBudget where
  maxProviderCalls : Nat
  deadlineSecs : Nat
  maxResponseBytes : Nat
  deriving DecidableEq, Repr

structure WorkflowStep where
  id : String
  handler : String
  effect : EffectClass
  input : Value
  retry : RetryPolicy
  deriving DecidableEq

/-- An edge `from → to`: the step `toId` depends on `fromId`. -/
structure WorkflowEdge where
  fromId : String
  toId : String
  deriving DecidableEq, Repr

structure WorkflowSpec where
  steps : List WorkflowStep
  edges : List WorkflowEdge
  budget : ExecutionBudget
  deriving DecidableEq

def allowedWorkflowHandlers : List String :=
  ["goal_planner", "provider_analysis", "session_replay", "self_test_suite", "evolution_evaluate",
    "manual_gate", "channel_send", "wait", "swarm_node"]

/-- Actor prefix reserved for subsystem-driven operations. -/
def internalActorPrefix : String := "internal:"

/-- Actor name for the generic internal auto-approval path. -/
def internalAutoActor : String := "internal:auto"

inductive AcceptanceCriterion where
  | selfTestSuite (suite : String)
  | artifactExists (artifactType : String)
  | manualApproval (label : String)
  deriving DecidableEq, Repr

structure PlanGoalRequest where
  workflow : WorkflowSpec
  acceptanceCriteria : List AcceptanceCriterion
  deriving DecidableEq

/-- The effects of the steps, without repetition and in the order of the classes. -/
def PlanGoalRequest.effectManifest (request : PlanGoalRequest) : List EffectClass :=
  [.pure, .read, .localWrite, .externalWrite].filter fun effect =>
    request.workflow.steps.any fun step => step.effect = effect

/-- What the engine takes from `serde_json` and `sha2`: byte lengths of encodings and the digest of
a plan request. -/
structure Encoding where
  inputLen : Value → Nat
  workflowLen : WorkflowSpec → Nat
  planHash : PlanGoalRequest → String

/-! ## Policies -/

/-- Checks run in order, the first failure reported. -/
def checkAll {α : Type} (check : α → Except String Unit) : List α → Except String Unit
  | [] => .ok ()
  | a :: as => do
    check a
    checkAll check as

/-- Bounds applied when the `internal:auto` actor approves a plan without an operator. -/
structure InternalApprovalPolicy where
  maxEffect : EffectClass := .read
  maxProviderCalls : Nat := 16
  deriving DecidableEq, Repr

def InternalApprovalPolicy.checkPlan (policy : InternalApprovalPolicy) (workflow : WorkflowSpec)
    (manifest : List EffectClass) : Except String Unit := do
  checkAll (fun effect => ensure (effect.rank ≤ policy.maxEffect.rank)
    ("internal auto-approval rejected: plan effect '" ++ effect.asStr ++ "' exceeds ceiling '" ++
      policy.maxEffect.asStr ++ "'")) manifest
  ensure (workflow.budget.maxProviderCalls ≤ policy.maxProviderCalls)
    ("internal auto-approval rejected: provider call budget " ++
      toString workflow.budget.maxProviderCalls ++ " exceeds ceiling " ++
      toString policy.maxProviderCalls)

/-- Feature gate plus handler allowlist for `external_write` workflow steps. -/
structure ExternalWritePolicy where
  enabled : Bool := false
  allowedHandlers : List String := []
  deriving DecidableEq, Repr

def ExternalWritePolicy.allows (policy : ExternalWritePolicy) (handler : String) : Bool :=
  policy.enabled && policy.allowedHandlers.contains handler

/-- `step.effect != ExternalWrite || external_write.allows(&step.handler)`. -/
def ExternalWritePolicy.admits (policy : ExternalWritePolicy) (step : WorkflowStep) : Bool :=
  step.effect != .externalWrite || policy.allows step.handler

def externalWriteMessage (step : WorkflowStep) : String :=
  "external_write step '" ++ step.handler ++
    "' requires external_write_enabled and an allowlisted handler"

/-- Operator resolution for a work item parked in `waiting_confirmation`. -/
inductive ConfirmationResolution where
  /-- The external effect did happen. -/
  | confirmed
  /-- The external effect did not happen and may be retried. -/
  | retry
  /-- Do not retry and do not confirm. -/
  | abandoned
  deriving DecidableEq, Repr

/-! ## Validation -/

/-- One round of the walk: lower the degree of every target of `id`, and collect the targets whose
degree reaches zero. -/
def lowerTargets : List String → List (String × Nat) → List (String × Nat) × List String
  | [], degrees => (degrees, [])
  | target :: targets, degrees =>
    let degrees := degrees.map fun d => if d.1 = target then (d.1, d.2 - 1) else d
    let (rest, freed) := lowerTargets targets degrees
    if degrees.contains (target, 0) then (rest, target :: freed) else (rest, freed)

/-- The breadth-first walk of `validate_with_policy`: how many steps it visits. A step enters the
queue at most once, so as much fuel as there are steps is enough. -/
def kahn (edges : List WorkflowEdge) : Nat → List String → List (String × Nat) → Nat → Nat
  | 0, _, _, visited => visited
  | _, [], _, visited => visited
  | fuel + 1, id :: queue, degrees, visited =>
    let targets := (edges.filter fun edge => edge.fromId = id).map (·.toId)
    let (degrees, freed) := lowerTargets targets degrees
    kahn edges fuel (queue ++ freed) degrees (visited + 1)

def WorkflowSpec.indegree (spec : WorkflowSpec) : List (String × Nat) :=
  spec.steps.map fun step => (step.id, (spec.edges.filter fun edge => edge.toId = step.id).length)

def WorkflowSpec.visited (spec : WorkflowSpec) : Nat :=
  kahn spec.edges spec.steps.length
    ((spec.indegree.filter fun d => d.2 = 0).map (·.1)) spec.indegree 0

/-- The checks on one step; `seen` are the ids of the steps before it. -/
def WorkflowStep.validate (enc : Encoding) (externalWrite : ExternalWritePolicy)
    (seen : List String) (step : WorkflowStep) : Except String Unit := do
  ensure (!isBlank step.id && byteLen step.id ≤ 96) "workflow step id must be 1..=96 bytes"
  ensure (!seen.contains step.id) "duplicate workflow step id"
  ensure (allowedWorkflowHandlers.contains step.handler)
    ("unregistered workflow handler: " ++ step.handler)
  ensure (externalWrite.admits step) (externalWriteMessage step)
  ensure (1 ≤ step.retry.maxAttempts && step.retry.maxAttempts ≤ 10)
    "retry max_attempts must be 1..=10"
  ensure (step.retry.backoffSecs ≤ 3600) "retry backoff cannot exceed 3600 seconds"
  ensure (enc.inputLen step.input ≤ 8192) "workflow step input cannot exceed 8192 bytes"

def validateSteps (enc : Encoding) (externalWrite : ExternalWritePolicy) :
    List String → List WorkflowStep → Except String Unit
  | _, [] => .ok ()
  | seen, step :: steps => do
    step.validate enc externalWrite seen
    validateSteps enc externalWrite (step.id :: seen) steps

/-- The checks on the edges; `seen` are the edges before. -/
def validateEdges (stepIds : List String) :
    List WorkflowEdge → List WorkflowEdge → Except String Unit
  | _, [] => .ok ()
  | seen, edge :: edges => do
    ensure (stepIds.contains edge.fromId) "edge source does not exist"
    ensure (stepIds.contains edge.toId) "edge target does not exist"
    ensure (edge.fromId != edge.toId) "workflow step cannot depend on itself"
    ensure (!seen.contains edge) "duplicate workflow edge"
    validateEdges stepIds (edge :: seen) edges

def WorkflowSpec.validateWithPolicy (enc : Encoding) (spec : WorkflowSpec)
    (externalWrite : ExternalWritePolicy) : Except String Unit := do
  ensure (!spec.steps.isEmpty && spec.steps.length ≤ 32) "workflow must contain 1..=32 steps"
  ensure (spec.edges.length ≤ 64) "workflow cannot exceed 64 edges"
  ensure (spec.budget.maxProviderCalls ≤ 64) "provider call budget cannot exceed 64"
  ensure (1 ≤ spec.budget.deadlineSecs && spec.budget.deadlineSecs ≤ 86400)
    "workflow deadline must be 1..=86400 seconds"
  ensure (1 ≤ spec.budget.maxResponseBytes && spec.budget.maxResponseBytes ≤ 10485760)
    "response byte budget must be 1..=10485760"
  validateSteps enc externalWrite [] spec.steps
  validateEdges (spec.steps.map (·.id)) [] spec.edges
  ensure (spec.visited == spec.steps.length) "workflow graph must be acyclic"
  ensure (enc.workflowLen spec ≤ 32768) "workflow cannot exceed 32768 serialized bytes"

def AcceptanceCriterion.value : AcceptanceCriterion → String
  | selfTestSuite suite => suite
  | artifactExists artifactType => artifactType
  | manualApproval label => label

def AcceptanceCriterion.validate (criterion : AcceptanceCriterion) : Except String Unit :=
  ensure (!isBlank criterion.value && byteLen criterion.value ≤ 160)
    "acceptance criterion value must be 1..=160 bytes"

def PlanGoalRequest.validateWithPolicy (enc : Encoding) (request : PlanGoalRequest)
    (externalWrite : ExternalWritePolicy) : Except String Unit := do
  request.workflow.validateWithPolicy enc externalWrite
  ensure (!request.acceptanceCriteria.isEmpty && request.acceptanceCriteria.length ≤ 16)
    "plan must contain 1..=16 acceptance criteria"
  checkAll AcceptanceCriterion.validate request.acceptanceCriteria

structure ApproveGoalRequest where
  expectedGoalRevision : Nat
  expectedPlanHash : String
  deriving DecidableEq, Repr

structure CreateGoalRequest where
  objective : String
  sourceSignalIds : List String := []
  /-- Optional idempotency key for admission. -/
  requestId : Option String := none
  /-- Projection goals stay out of the dispatch sweep. -/
  internalOnly : Bool := false
  deriving DecidableEq, Repr

def CreateGoalRequest.validate (request : CreateGoalRequest) : Except String Unit := do
  ensure (!isBlank request.objective) "goal objective must not be empty"
  ensure ((trim request.objective).length ≤ 4096) "goal objective must not exceed 4096 characters"
  ensure (request.sourceSignalIds.length ≤ 64) "goal cannot reference more than 64 source signals"
  checkAll (fun id => ensure (!isBlank id && byteLen id ≤ 160)
    "source signal id must be 1..=160 bytes") request.sourceSignalIds
  match request.requestId with
  | some id => ensure (!isBlank id && byteLen id ≤ 160) "request_id must be 1..=160 bytes"
  | none => .ok ()

/-! ## Outcomes and claims -/

/-- A phase boundary inside a work item: the handler reports "not done yet". -/
structure WorkContinuation where
  phase : String
  state : Value
  delaySecs : Option Nat
  deriving DecidableEq

/-- Persisted on the work item between phases. -/
structure WorkPhaseProgress where
  phase : String
  state : Value
  continues : Nat
  deriving DecidableEq

/-- Upper bound on committed phase boundaries per work item. -/
def maxPhaseContinues : Nat := 64

def WorkContinuation.validate (enc : Encoding) (c : WorkContinuation) : Except String Unit := do
  ensure (!isBlank c.phase && c.phase.length ≤ 64)
    "continuation phase must contain between 1 and 64 characters"
  ensure (enc.inputLen c.state ≤ 16384) "continuation state cannot exceed 16384 bytes"
  ensure (c.delaySecs.all fun delay => 1 ≤ delay && delay ≤ 86400)
    "continuation delay must be between 1 and 86400 seconds"

structure WorkOutcome where
  summary : String
  artifactIds : List String
  evidence : Value
  /-- When set, the attempt is deferred until this time instead of committed. -/
  sleepUntilUnix : Option Int := none
  /-- When set, the attempt is not done. -/
  continuation : Option WorkContinuation := none
  deriving DecidableEq

def WorkOutcome.validate (enc : Encoding) (o : WorkOutcome) : Except String Unit := do
  ensure (!(o.sleepUntilUnix.isSome && o.continuation.isSome))
    "work outcome cannot hold both sleep_until and a continuation"
  match o.continuation with
  | some continuation => continuation.validate enc
  | none => .ok ()
  ensure (o.summary.length ≤ 8192) "work outcome summary cannot exceed 8192 characters"
  ensure (o.artifactIds.length ≤ 64) "work outcome cannot reference more than 64 artifacts"
  checkAll (fun id => ensure (!isBlank id && byteLen id ≤ 160) "artifact id must be 1..=160 bytes")
    o.artifactIds
  ensure (enc.inputLen o.evidence ≤ 16384) "work outcome evidence cannot exceed 16384 bytes"

structure WorkItemRecord where
  id : String
  goalId : String
  status : WorkItemStatus
  stepId : String
  handler : String
  effect : EffectClass
  input : Value
  maxAttempts : UInt8
  ordinal : UInt32
  dependencyIds : List String
  progress : Option WorkPhaseProgress
  deriving DecidableEq

structure AttemptRecord where
  id : String
  goalId : String
  workItemId : String
  attemptNumber : UInt8
  status : AttemptStatus
  workerId : String
  leaseToken : String
  fencingToken : Nat
  startedAtUnix : Int
  error : Option String
  deriving DecidableEq

/-- What a successful claim hands to its worker. -/
structure WorkClaim where
  workItem : WorkItemRecord
  attempt : AttemptRecord
  leaseUntilUnix : Int
  budget : ExecutionBudget
  deriving DecidableEq

structure GoalRecord where
  id : String
  objective : String
  status : GoalStatus
  revision : UInt32
  sourceSignalIds : List String
  createdBy : String
  internalOnly : Bool
  deriving DecidableEq

structure CheckpointRecord where
  id : String
  goalId : String
  workItemId : String
  attemptId : String
  phase : CheckpointPhase
  idempotencyKey : String
  /-- Whether a rerun after a crash was declared safe when the checkpoint was prepared. -/
  replaySafe : Bool
  outcome : Option WorkOutcome
  deriving DecidableEq

structure ResumeReport where
  goal : GoalRecord
  workItems : List WorkItemRecord
  attempts : List AttemptRecord
  latestCheckpoint : Option CheckpointRecord
  deriving DecidableEq

def validateActor (actor : String) : Except String Unit :=
  ensure (!isBlank actor && byteLen actor ≤ 160) "actor must be 1..=160 bytes"

end Xiaomaolv
