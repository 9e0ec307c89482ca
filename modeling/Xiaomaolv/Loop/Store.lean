import Xiaomaolv.Lib.Table
import Xiaomaolv.Loop.Domain

/-!
# The tables of the loop store

The rows of the `harness_*` tables that the modelled transactions read, the store that holds them,
and the helpers that every transaction shares.

* `ensureClaimCurrent`, `claimCurrent`: the claim owns its running item and its lease has not run out.
* `Store.reconcile`, `Store.unlockReady`, `Store.refreshGoalStatus`: `reconcile_checkpoint_tx`,
  `unlock_ready_work_tx`, `refresh_goal_status_tx`.
* `decodeGoal`, `decodeWorkItem`, `decodeAttempt`: rows to records, with the narrowing of integers.

A transaction is a function `Store → Except String Store`: on an error nothing is written. Audit
timestamps (`created_at`, `updated_at`, `finished_at`) are left out; no modelled query reads them.
-/

namespace Xiaomaolv

open Table

/-! ## Rows -/

structure GoalRow where
  id : String
  objective : String
  status : GoalStatus
  revision : Nat
  sourceSignalIds : List String
  requestId : Option String
  createdBy : String
  internalOnly : Bool
  deriving DecidableEq

structure WorkflowRow where
  id : String
  goalId : String
  goalRevision : Nat
  planHash : String
  workflow : WorkflowSpec
  acceptance : List AcceptanceCriterion
  effectManifest : List EffectClass
  createdBy : String
  deriving DecidableEq

structure ApprovalRow where
  id : String
  goalId : String
  goalRevision : Nat
  planHash : String
  approvedBy : String
  deriving DecidableEq

structure BudgetUsageRow where
  goalId : String
  maxProviderCalls : Nat
  deadlineSecs : Nat
  maxResponseBytes : Nat
  providerCalls : Nat := 0
  responseBytes : Nat := 0
  startedAt : Option Int := none
  deriving DecidableEq

structure WorkItemRow where
  id : String
  goalId : String
  workflowId : String
  stepId : String
  status : WorkItemStatus
  handler : String
  effectClass : EffectClass
  input : Value
  maxAttempts : Nat
  backoffSecs : Nat
  ordinal : Nat
  leaseToken : Option String := none
  leaseUntil : Option Int := none
  fencingToken : Nat := 0
  nextAttemptAt : Option Int := none
  lastError : Option String := none
  progress : Option WorkPhaseProgress := none
  deriving DecidableEq

structure DependencyRow where
  workItemId : String
  dependsOnWorkItemId : String
  deriving DecidableEq

structure AttemptRow where
  id : String
  goalId : String
  workItemId : String
  attemptNumber : Nat
  status : AttemptStatus
  workerId : String
  leaseToken : String
  fencingToken : Nat
  startedAt : Int
  error : Option String := none
  deriving DecidableEq

/-- The table order of the checkpoints is their `sequence`. -/
structure CheckpointRow where
  id : String
  goalId : String
  workItemId : String
  attemptId : String
  phase : CheckpointPhase
  idempotencyKey : String
  replaySafe : Bool
  outcome : Option WorkOutcome := none
  deriving DecidableEq

structure EventRow where
  goalId : String
  eventType : String
  actor : String
  deriving DecidableEq

structure ManualVerificationRow where
  goalId : String
  label : String
  actor : String
  deriving DecidableEq

structure ArtifactRow where
  id : String
  kind : String
  deriving DecidableEq

structure SelfTestRunRow where
  id : String
  suite : String
  passed : Bool
  deriving DecidableEq

structure Store where
  goals : List GoalRow := []
  workflows : List WorkflowRow := []
  approvals : List ApprovalRow := []
  budgets : List BudgetUsageRow := []
  workItems : List WorkItemRow := []
  dependencies : List DependencyRow := []
  attempts : List AttemptRow := []
  checkpoints : List CheckpointRow := []
  events : List EventRow := []
  manualVerifications : List ManualVerificationRow := []
  artifacts : List ArtifactRow := []
  selfTestRuns : List SelfTestRunRow := []
  deriving DecidableEq

/-- The freshly initialised schema. -/
def Store.empty : Store := {}

/-! ## Checks and lookups -/

def ensureValidId (value label : String) : Except String Unit :=
  ensure (!isBlank value && byteLen value ≤ 160) (label ++ " must be 1..=160 bytes")

/-- The check on an operator's reason, trimmed before it is measured. -/
def ensureReason (reason label : String) : Except String Unit :=
  ensure (!isBlank reason && byteLen (trim reason) ≤ 512)
    (label ++ " reason must be 1..=512 characters")

def rowNotFound : String :=
  "no rows returned by a query that expected to return at least one row"

def uniqueFailed (column : String) : String := "UNIQUE constraint failed: " ++ column

/-- The lease test of a claim: `lease_until >= now`, which a `NULL` fails. -/
def leaseCurrent (now : Int) (w : WorkItemRow) : Bool :=
  w.leaseUntil.any fun leaseUntil => now ≤ leaseUntil

namespace Store

variable (s : Store)

def goal? (goalId : String) : Option GoalRow := s.goals.find? fun g => g.id = goalId

def workItem? (id : String) : Option WorkItemRow := s.workItems.find? fun w => w.id = id

def checkpoint? (id : String) : Option CheckpointRow := s.checkpoints.find? fun c => c.id = id

/-- `SELECT COUNT(*) FROM harness_attempts WHERE work_item_id = ? AND status != 'void'`. -/
def attemptCount (workItemId : String) : Nat :=
  (s.attempts.filter fun a => a.workItemId = workItemId ∧ a.status ≠ .void).length

def insertEvent (goalId eventType actor : String) : Store :=
  { s with events := s.events ++ [⟨goalId, eventType, actor⟩] }

/-- `UPDATE harness_goals SET status = ? WHERE id = ?`. -/
def setGoalStatus (goalId : String) (status : GoalStatus) : Store :=
  { s with goals := updateWhere (fun g => g.id = goalId) (fun g => { g with status }) s.goals }

/-! ## Claims -/

/-- The claim owns its item, which is running under its tokens, and the lease has not run out. -/
def claimCurrent (now : Int) (claim : WorkClaim) : Bool :=
  s.workItems.any fun w =>
    (w.id = claim.workItem.id ∧ w.goalId = claim.attempt.goalId ∧ w.status = .running ∧
      w.leaseToken = some claim.attempt.leaseToken ∧
      w.fencingToken = claim.attempt.fencingToken) &&
    leaseCurrent now w &&
    s.attempts.any fun a =>
      a.workItemId = w.id ∧ a.id = claim.attempt.id ∧
        a.leaseToken = claim.attempt.leaseToken ∧
        a.fencingToken = claim.attempt.fencingToken ∧ a.status.isLive

/-- `i64::try_from(fencing_token)`. -/
def fencingInRange (claim : WorkClaim) : Bool := claim.attempt.fencingToken < 2 ^ 63

def ensureClaimCurrent (now : Int) (claim : WorkClaim) : Except String Unit := do
  ensure (fencingInRange claim) "fencing token exceeds sqlite range"
  ensure (s.claimCurrent now claim) "work claim is stale or its lease expired"

/-! ## Shared updates -/

/-- `reconcile_checkpoint_tx` on a committed checkpoint. -/
def reconcile (checkpoint : CheckpointRow) : Store :=
  { s with
    checkpoints := updateWhere (fun c => c.id = checkpoint.id ∧ c.phase = .committed)
      (fun c => { c with phase := .reconciled }) s.checkpoints
    attempts := updateWhere (fun a => a.id = checkpoint.attemptId ∧ a.status.isLive)
      (fun a => { a with status := .succeeded, error := none }) s.attempts
    workItems := updateWhere (fun w => w.id = checkpoint.workItemId ∧ w.status = .running)
      (fun w => { w with
        status := .succeeded, leaseToken := none, leaseUntil := none, nextAttemptAt := none,
        progress := none, lastError := none }) s.workItems }

/-- Some item that `id` depends on has not succeeded. -/
def hasOpenPredecessor (id : String) : Bool :=
  s.dependencies.any fun d =>
    d.workItemId = id &&
      s.workItems.any fun p => p.id = d.dependsOnWorkItemId ∧ p.status ≠ .succeeded

/-- The rows `unlock_ready_work_tx` selects. -/
def isUnlockable (goalId : String) (w : WorkItemRow) : Bool :=
  (w.goalId = goalId ∧ w.status = .pending) && !s.hasOpenPredecessor w.id

/-- `unlock_ready_work_tx`. -/
def unlockReady (goalId : String) : Store :=
  { s with
    workItems := updateWhere (s.isUnlockable goalId) (fun w => { w with status := .ready })
      s.workItems }

/-- `SELECT MAX(goal_revision) FROM harness_goal_approvals WHERE goal_id = ?`. -/
def approvedRevision? (goalId : String) : Option Nat :=
  ((s.approvals.filter fun a => a.goalId = goalId).map (·.goalRevision)).max?

/-- The workflow of the goal's latest approved revision. -/
def approvedWorkflow? (goalId : String) : Option WorkflowRow :=
  s.workflows.find? fun w =>
    w.goalId = goalId ∧ some w.goalRevision = s.approvedRevision? goalId

/-- The items of the goal's latest approved workflow. -/
def currentItems (goalId : String) : List WorkItemRow :=
  s.workItems.filter fun w =>
    w.goalId = goalId ∧ some w.workflowId = (s.approvedWorkflow? goalId).map (·.id)

def isProgressed : WorkItemStatus → Bool
  | .running | .succeeded | .waitingConfirmation => true
  | _ => false

/-- The status that the current items call for. -/
def nextGoalStatus (goalId : String) : Option GoalStatus :=
  let items := s.currentItems goalId
  let total := items.length
  let succeeded := (items.filter fun w => w.status = .succeeded).length
  let failed := (items.filter fun w => w.status = .failed).length
  let progressed := (items.filter fun w => isProgressed w.status).length
  if 0 < total ∧ succeeded = total then some .verifying
  else if 0 < failed then some .failed
  else if 0 < progressed then some .active
  else none

/-- `status IN ('approved', 'active', 'verifying', 'failed')`. -/
def isRefreshable : GoalStatus → Bool
  | .approved | .active | .verifying | .failed => true
  | _ => false

/-- `refresh_goal_status_tx`. -/
def refreshGoalStatus (goalId : String) : Store :=
  match s.nextGoalStatus goalId with
  | none => s
  | some status =>
    { s with
      goals := updateWhere (fun g => g.id = goalId ∧ isRefreshable g.status)
        (fun g => { g with
          status, revision := if g.status ≠ status then g.revision + 1 else g.revision })
        s.goals }

end Store

/-! ## Decoding -/

/-- `u8::try_from`. -/
def u8TryFrom (n : Nat) (message : String) : Except String UInt8 :=
  if n < 2 ^ 8 then .ok n.toUInt8 else .error message

/-- `u32::try_from`. -/
def u32TryFrom (n : Nat) (message : String) : Except String UInt32 :=
  if n < 2 ^ 32 then .ok n.toUInt32 else .error message

def decodeGoal (g : GoalRow) : Except String GoalRecord := do
  let revision ← u32TryFrom g.revision "invalid goal revision"
  pure ⟨g.id, g.objective, g.status, revision, g.sourceSignalIds, g.createdBy, g.internalOnly⟩

def decodeWorkItem (w : WorkItemRow) : Except String WorkItemRecord := do
  let maxAttempts ← u8TryFrom w.maxAttempts "invalid max attempts"
  let ordinal ← u32TryFrom w.ordinal "invalid work item ordinal"
  pure ⟨w.id, w.goalId, w.status, w.stepId, w.handler, w.effectClass, w.input, maxAttempts,
    ordinal, [], w.progress⟩

def decodeAttempt (a : AttemptRow) : Except String AttemptRecord := do
  let attemptNumber ← u8TryFrom a.attemptNumber "invalid attempt number"
  pure ⟨a.id, a.goalId, a.workItemId, attemptNumber, a.status, a.workerId, a.leaseToken,
    a.fencingToken, a.startedAt, a.error⟩

def decodeCheckpoint (c : CheckpointRow) : CheckpointRecord :=
  ⟨c.id, c.goalId, c.workItemId, c.attemptId, c.phase, c.idempotencyKey, c.replaySafe, c.outcome⟩

end Xiaomaolv
