import Mathlib.Data.List.Sort
import Xiaomaolv.Lib.Closure
import Xiaomaolv.Loop.Goals

/-!
# Attempt transactions

The transactions of claim holders and of recovery: claim, prepare, renew, commit, finish, fail,
defer, continue, block, requeue, confirm, recover.

* `…Tx`: the body of one `BEGIN IMMEDIATE … COMMIT`; the operations of the same name without the
  suffix are `Op`s, which may run several transactions and keep what is committed when a later one
  fails.
* `recoverGoalState`: reconcile the committed checkpoints, lapse the expired leases, unlock, refresh.

The clock is read once a transaction; a clock read before the transaction starts is a parameter of
its own.
-/

namespace Xiaomaolv

open Table

/-- An operation of the store: a failure keeps the transactions committed before it. -/
abbrev Op (α : Type) := ExceptT String (StateM Store) α

/-- Run one transaction: on an error nothing is written. -/
def transact {α : Type} (tx : Store → Except String (α × Store)) : Op α :=
  ExceptT.mk fun s =>
    match tx s with
    | .error e => (.error e, s)
    | .ok (a, s') => (.ok a, s')

/-- A transaction without a result. -/
def transact_ (tx : Store → Except String Store) : Op Unit :=
  transact fun s => (tx s).map fun s' => ((), s')

/-- A read that may fail to decode. -/
def query {α : Type} (read : Store → Except String α) : Op α :=
  ExceptT.mk fun s => (read s, s)

def decodeAll {α β : Type} (decode : α → Except String β) : List α → Except String (List β)
  | [] => .ok []
  | a :: as => do
    let b ← decode a
    let bs ← decodeAll decode as
    pure (b :: bs)

namespace LoopStore

variable (enc : Encoding)

/-! ## Recovery -/

/-- What recovery reads of an item whose lease ran out. -/
structure ExpiredRow where
  id : String
  effect : EffectClass
  maxAttempts : Nat
  attemptCount : Nat
  backoffSecs : Nat
  hasPrepared : Bool
  hasUnsafePrepared : Bool
  deriving DecidableEq

/-- A prepared checkpoint of the item whose attempt is live. -/
def isLivePrepared (s : Store) (workItemId : String) (c : CheckpointRow) : Bool :=
  (c.workItemId = workItemId ∧ c.phase = .prepared) &&
    s.attempts.any fun a => a.id = c.attemptId ∧ a.status.isLive

def expiredRow (s : Store) (w : WorkItemRow) : ExpiredRow where
  id := w.id
  effect := w.effectClass
  maxAttempts := w.maxAttempts
  attemptCount := s.attemptCount w.id
  backoffSecs := w.backoffSecs
  hasPrepared := s.checkpoints.any (isLivePrepared s w.id)
  hasUnsafePrepared := s.checkpoints.any fun c => isLivePrepared s w.id c && !c.replaySafe

/-- Recovery may expire the running item: `lease_until IS NOT NULL AND lease_until < now`. -/
def leaseExpired (now : Int) (w : WorkItemRow) : Bool :=
  w.leaseUntil.any fun leaseUntil => leaseUntil < now

def expiredRows (goalId : String) (now : Int) (s : Store) : List ExpiredRow :=
  (s.workItems.filter fun w =>
    (w.goalId = goalId ∧ w.status = .running) && leaseExpired now w).map (expiredRow s)

/-- A prepared but uncommitted checkpoint leaves an effect that may or may not have landed. External
writes always park; other handlers park only when they declared the rerun unsafe. -/
def ExpiredRow.parked (row : ExpiredRow) : Bool :=
  (row.effect = .externalWrite && row.hasPrepared) || row.hasUnsafePrepared

def ExpiredRow.workStatus (row : ExpiredRow) : WorkItemStatus :=
  if row.parked then .waitingConfirmation
  else if row.maxAttempts ≤ row.attemptCount then .failed
  else .ready

def ExpiredRow.attemptStatus (row : ExpiredRow) : AttemptStatus :=
  if row.parked then .waitingConfirmation
  else if row.maxAttempts ≤ row.attemptCount then .failed
  else .abandoned

def ExpiredRow.error (row : ExpiredRow) : String :=
  if row.parked then "ambiguous effect outcome requires confirmation"
  else if row.maxAttempts ≤ row.attemptCount then "attempt budget exhausted after lease expiry"
  else "worker lease expired before commit"

def ExpiredRow.nextAttemptAt (row : ExpiredRow) (now : Int) : Option Int :=
  if row.parked then none
  else if row.maxAttempts ≤ row.attemptCount then none
  else some (now + row.backoffSecs)

/-- One iteration of recovery's loop over the expired items. -/
def lapse (now : Int) (s : Store) (row : ExpiredRow) : Store :=
  { s with
    -- Unless the item parks, the prepared checkpoints of its dying attempts are superseded.
    checkpoints :=
      if row.parked then s.checkpoints
      else updateWhere
        (fun c => c.phase = .prepared && s.attempts.any fun a =>
          a.id = c.attemptId ∧ a.workItemId = row.id ∧ a.status.isLive)
        (fun c => { c with phase := .voided }) s.checkpoints
    attempts := updateWhere (fun a => a.workItemId = row.id ∧ a.status.isLive)
      (fun a => { a with status := row.attemptStatus, error := some row.error }) s.attempts
    workItems := updateWhere (fun w => w.id = row.id ∧ w.status = .running)
      (fun w => { w with
        status := row.workStatus, leaseToken := none, leaseUntil := none,
        nextAttemptAt := row.nextAttemptAt now, lastError := some row.error }) s.workItems }

def committedCheckpoints (goalId : String) (s : Store) : List CheckpointRow :=
  s.checkpoints.filter fun c => c.goalId = goalId ∧ c.phase = .committed

/-- The committed checkpoints reconciled. -/
def reconcileAll (goalId : String) (s : Store) : Store :=
  (committedCheckpoints goalId s).foldl Store.reconcile s

/-- The expired leases lapsed. -/
def lapseAll (goalId : String) (now : Int) (s : Store) : Store :=
  (expiredRows goalId now s).foldl (lapse now) s

/-- `recover_goal_state` on a stored goal. -/
def recovered (goalId actor : String) (now : Int) (s : Store) : Store :=
  let reconciled := reconcileAll goalId s
  let lapsed := lapseAll goalId now reconciled
  let unlocked := lapsed.workItems.any (lapsed.isUnlockable goalId)
  let refreshed := (lapsed.unlockReady goalId).refreshGoalStatus goalId
  if !(committedCheckpoints goalId s).isEmpty || !(expiredRows goalId now reconciled).isEmpty ||
      unlocked then
    refreshed.insertEvent goalId "goal.recovered" actor
  else refreshed

/-- The transaction of `recover_goal_state`. -/
def recoverGoalState (goalId actor : String) (now : Int) (s : Store) : Except String Store := do
  ensureValidId goalId "goal id"
  if s.goals.any fun g => g.id = goalId then pure (recovered goalId actor now s) else pure s

/-- `resume_goal` collapses consecutive resume events of a goal. -/
def recordResumed (goalId actor : String) (s : Store) : Store :=
  if ((s.events.filter fun e => e.goalId = goalId).getLast?).any
      fun e => e.eventType = "goal.resumed" then s
  else s.insertEvent goalId "goal.resumed" actor

def loadGoalWorkItems (goalId : String) (s : Store) : Except String (List WorkItemRecord) :=
  let rows := (s.workItems.filter fun w => w.goalId = goalId).insertionSort
    fun a b => a.ordinal < b.ordinal ∨ (a.ordinal = b.ordinal ∧ a.id ≤ b.id)
  decodeAll (fun w => do
    let item ← decodeWorkItem w
    let dependencyIds := ((s.dependencies.filter fun d => d.workItemId = w.id).map
      (·.dependsOnWorkItemId)).insertionSort (· ≤ ·)
    pure { item with dependencyIds }) rows

def loadAttempts (goalId : String) (s : Store) : Except String (List AttemptRecord) :=
  decodeAll decodeAttempt ((s.attempts.filter fun a => a.goalId = goalId).insertionSort
    fun a b => a.startedAt < b.startedAt ∨ (a.startedAt = b.startedAt ∧ a.id ≤ b.id))

def latestCheckpoint? (goalId : String) (s : Store) : Option CheckpointRow :=
  (s.checkpoints.filter fun c => c.goalId = goalId).getLast?

/-- What `resume_goal` reads after recovery. -/
def resumeReport (goalId : String) (s : Store) : Except String (Option ResumeReport) :=
  match s.goal? goalId with
  | none => .ok none
  | some row => do
    let goal ← decodeGoal row
    let workItems ← loadGoalWorkItems goalId s
    let attempts ← loadAttempts goalId s
    pure (some ⟨goal, workItems, attempts, (latestCheckpoint? goalId s).map decodeCheckpoint⟩)

def resumeGoal (goalId actor : String) (now : Int) : Op (Option ResumeReport) := do
  transact_ (recoverGoalState goalId actor now)
  let report ← query (resumeReport goalId)
  match report with
  | none => pure none
  | some report =>
    transact_ fun s => .ok (recordResumed goalId actor s)
    pure (some report)

/-- The resume at the end of an operation on an attempt. -/
def resumeAfter (goalId actor message : String) (now : Int) : Op ResumeReport := do
  let report ← resumeGoal goalId actor now
  query fun _ => context report message

/-! ## Claim -/

/-- What the claim transaction hands over: the attempt number is narrowed only after its commit. -/
structure ClaimedWork where
  workItem : WorkItemRecord
  attempt : AttemptRow
  leaseUntil : Int
  budget : ExecutionBudget

def ClaimedWork.toClaim (work : ClaimedWork) : Except String WorkClaim := do
  let attempt ← decodeAttempt work.attempt
  pure ⟨work.workItem, attempt, work.leaseUntil, work.budget⟩

def isClaimable (goalId : String) (stepId : Option String) (now : Int) (s : Store)
    (w : WorkItemRow) : Bool :=
  (w.goalId = goalId ∧ w.status = .ready) && stepId.all (fun id => w.stepId = id) &&
    w.nextAttemptAt.all (fun at_ => at_ ≤ now) && s.attemptCount w.id < w.maxAttempts

/-- `ORDER BY ordinal, id`. -/
def claimsBefore (a b : WorkItemRow) : Bool :=
  a.ordinal < b.ordinal || (a.ordinal == b.ordinal && decide (a.id ≤ b.id))

def claimCandidate? (goalId : String) (stepId : Option String) (now : Int) (s : Store) :
    Option WorkItemRow :=
  let rows := s.workItems.filter (isClaimable goalId stepId now s)
  match stepId with
  | some _ => rows.head?
  | none => pickBy claimsBefore rows

/-- The attempt that a claim of `w` creates. -/
def newAttempt (s : Store) (w : WorkItemRow) (workerId leaseToken attemptId : String)
    (now : Int) : AttemptRow :=
  { id := attemptId, goalId := w.goalId, workItemId := w.id
    attemptNumber := (s.attempts.filter fun a => a.workItemId = w.id).length + 1
    status := .running, workerId, leaseToken, fencingToken := w.fencingToken + 1, startedAt := now }

def ensureStepId : Option String → Except String Unit
  | some id => ensureValidId id "step id"
  | none => .ok ()

/-- The claim transaction of `claim_ready_work_item`. Writers are serialized, so the guarded update
takes the row just read and the retry of the source is never needed. -/
def claimTx (goalId : String) (stepId : Option String) (workerId : String) (leaseSecs : Nat)
    (actor leaseToken attemptId : String) (now : Int) (s : Store) :
    Except String (Option ClaimedWork × Store) := do
  validateActor workerId
  validateActor actor
  ensure (1 ≤ leaseSecs && leaseSecs ≤ 3600) "lease must be 1..=3600 seconds"
  ensureStepId stepId
  ensureValidId goalId "goal id"
  let goal ← context (s.goal? goalId) "goal not found"
  ensure (goal.status = .approved ∨ goal.status = .active) "goal is not dispatchable"
  ensure (stepId.isSome || !goal.internalOnly)
    "internal_only goal is not claimable by a generic worker"
  match claimCandidate? goalId stepId now s with
  | none => pure (none, s)
  | some row =>
    let workItem ← decodeWorkItem row
    let plan ← context (s.workflows.find? fun w => w.id = row.workflowId) rowNotFound
    let leaseUntil := now + leaseSecs
    let attempt := newAttempt s row workerId leaseToken attemptId now
    let attempts ← insertRow
      (fun a => a.id = attemptId ∨
        (a.workItemId = row.id ∧ a.attemptNumber = attempt.attemptNumber))
      (uniqueFailed "harness_attempts") attempt s.attempts
    let s : Store := { s with
      attempts
      workItems := updateWhere (fun w => w.id = row.id ∧ w.status = .ready)
        (fun w => { w with
          status := .running, leaseToken := some leaseToken, leaseUntil := some leaseUntil,
          fencingToken := w.fencingToken + 1 }) s.workItems
      goals := updateWhere (fun g => g.id = goalId ∧ g.status = .approved)
        (fun g => { g with status := .active }) s.goals }
    pure (some ⟨{ workItem with status := .running }, attempt, leaseUntil, plan.workflow.budget⟩,
      s.insertEvent goalId "work.claimed" actor)

/-- `claim_ready_work_item`, its recovery read at `now` and its claim at `later`. -/
def claimReadyWorkItem (goalId : String) (stepId : Option String) (workerId : String)
    (leaseSecs : Nat) (actor leaseToken attemptId : String) (now later : Int) :
    Op (Option WorkClaim) := do
  transact_ (recoverGoalState goalId actor now)
  let work ← transact (claimTx goalId stepId workerId leaseSecs actor leaseToken attemptId later)
  match work with
  | none => pure none
  | some work => do
    let claim ← query fun _ => work.toClaim
    pure (some claim)

/-! ## Checkpoints -/

def prepareCheckpointTx (claim : WorkClaim) (idempotencyKey : String) (replaySafe : Bool)
    (actor checkpointId : String) (now : Int) (s : Store) :
    Except String (CheckpointRow × Store) := do
  validateActor actor
  ensure (!isBlank idempotencyKey && byteLen idempotencyKey ≤ 200)
    "idempotency key must be 1..=200 bytes"
  s.ensureClaimCurrent now claim
  match s.checkpoints.find? fun c =>
      c.workItemId = claim.workItem.id ∧ c.idempotencyKey = idempotencyKey with
  | some checkpoint =>
    ensure (checkpoint.attemptId = claim.attempt.id) "idempotency key belongs to another attempt"
    pure (checkpoint, s)
  | none =>
    let checkpoint : CheckpointRow :=
      { id := checkpointId, goalId := claim.attempt.goalId, workItemId := claim.workItem.id
        attemptId := claim.attempt.id, phase := .prepared, idempotencyKey, replaySafe }
    let checkpoints ← insertRow
      (fun c => c.id = checkpointId ∨
        (c.workItemId = claim.workItem.id ∧ c.idempotencyKey = idempotencyKey))
      (uniqueFailed "harness_checkpoints") checkpoint s.checkpoints
    let s : Store := { s with checkpoints }
    pure (checkpoint, s.insertEvent claim.attempt.goalId "checkpoint.prepared" actor)

def prepareCheckpoint (claim : WorkClaim) (idempotencyKey : String) (replaySafe : Bool)
    (actor checkpointId : String) (now : Int) : Op CheckpointRow :=
  transact (prepareCheckpointTx claim idempotencyKey replaySafe actor checkpointId now)

/-- The row `renew_claim` updates. -/
def isRenewable (claim : WorkClaim) (now : Int) (w : WorkItemRow) : Bool :=
  (w.id = claim.workItem.id ∧ w.status = .running ∧
      w.leaseToken = some claim.attempt.leaseToken ∧
      w.fencingToken = claim.attempt.fencingToken) && leaseCurrent now w

def renewClaimTx (claim : WorkClaim) (leaseSecs : Nat) (now : Int) (s : Store) :
    Except String Store := do
  ensure (1 ≤ leaseSecs && leaseSecs ≤ 3600) "invalid lease duration"
  ensure (Store.fencingInRange claim) "fencing token exceeds sqlite range"
  ensure (s.workItems.any (isRenewable claim now)) "cannot renew stale work claim"
  pure { s with
    workItems := updateWhere (isRenewable claim now)
      (fun w => { w with leaseUntil := some (now + leaseSecs) }) s.workItems }

def renewClaim (claim : WorkClaim) (leaseSecs : Nat) (now : Int) : Op Int := do
  transact_ (renewClaimTx claim leaseSecs now)
  pure (now + leaseSecs)

def commitCheckpointTx (claim : WorkClaim) (checkpointId : String) (outcome : WorkOutcome)
    (actor : String) (now : Int) (s : Store) : Except String Store := do
  validateActor actor
  outcome.validate enc
  ensureValidId checkpointId "checkpoint id"
  s.ensureClaimCurrent now claim
  let current ← context (s.checkpoint? checkpointId) "checkpoint not found"
  ensure (current.attemptId = claim.attempt.id) "checkpoint belongs to another attempt"
  if current.phase = .committed then
    ensure (current.outcome = some outcome) "checkpoint was committed with a different outcome"
    pure s
  else
    ensure (current.phase = .prepared) "checkpoint is not prepared"
    let s : Store := { s with
      checkpoints := updateWhere
        (fun c => c.id = checkpointId ∧ c.phase = .prepared ∧ c.attemptId = claim.attempt.id)
        (fun c => { c with phase := .committed, outcome := some outcome }) s.checkpoints
      attempts := updateWhere (fun a => a.id = claim.attempt.id ∧ a.status = .running)
        (fun a => { a with status := .committing }) s.attempts }
    pure (s.insertEvent claim.attempt.goalId "checkpoint.committed" actor)

def commitCheckpoint (claim : WorkClaim) (checkpointId : String) (outcome : WorkOutcome)
    (actor : String) (now : Int) : Op Unit :=
  transact_ (commitCheckpointTx enc claim checkpointId outcome actor now)

/-! ## The ends of an attempt -/

def finishAttemptTx (claim : WorkClaim) (checkpointId actor : String) (now : Int) (s : Store) :
    Except String Store := do
  validateActor actor
  s.ensureClaimCurrent now claim
  let checkpoint ← context (s.checkpoint? checkpointId) "checkpoint not found"
  ensure (checkpoint.attemptId = claim.attempt.id ∧ checkpoint.phase = .committed)
    "attempt has no committed checkpoint"
  let s := ((s.reconcile checkpoint).unlockReady claim.attempt.goalId).refreshGoalStatus
    claim.attempt.goalId
  pure (s.insertEvent claim.attempt.goalId "attempt.finished" actor)

def finishAttempt (claim : WorkClaim) (checkpointId actor : String) (now later : Int) :
    Op ResumeReport := do
  transact_ (finishAttemptTx claim checkpointId actor now)
  resumeAfter claim.attempt.goalId actor "goal disappeared after attempt completion" later

/-- End the live attempt of a claim with the given status. -/
def endAttempt (attemptId : String) (status : AttemptStatus) (error : String)
    (attempts : List AttemptRow) : List AttemptRow :=
  updateWhere (fun a => a.id = attemptId ∧ a.status.isLive)
    (fun a => { a with status, error := some error }) attempts

/-- Void the prepared checkpoints of an attempt. -/
def voidPrepared (attemptId : String) (checkpoints : List CheckpointRow) : List CheckpointRow :=
  updateWhere (fun c => c.phase = .prepared ∧ c.attemptId = attemptId)
    (fun c => { c with phase := .voided }) checkpoints

/-- How a holder's transaction hands its item back. -/
structure Release where
  status : WorkItemStatus
  nextAttemptAt : Option Int := none
  lastError : Option String := none
  /-- Written when given. -/
  progress : Option WorkPhaseProgress := none
  attemptStatus : AttemptStatus
  attemptError : String
  /-- Whether the prepared checkpoints of the attempt are voided. -/
  voids : Bool := true

/-- Take a running item back from its attempt. -/
def releaseItem (workItemId : String) (r : Release) (items : List WorkItemRow) :
    List WorkItemRow :=
  updateWhere (fun w => w.id = workItemId ∧ w.status = .running)
    (fun w => { w with
      status := r.status, leaseToken := none, leaseUntil := none,
      nextAttemptAt := r.nextAttemptAt, lastError := r.lastError,
      progress := r.progress <|> w.progress }) items

/-- End the attempt of a current claim and hand its item back. The claim has just been checked, so
the updates meet the rows that the source counts afterwards. -/
def releaseClaim (claim : WorkClaim) (r : Release) (s : Store) : Store :=
  { s with
    checkpoints := if r.voids then voidPrepared claim.attempt.id s.checkpoints else s.checkpoints
    attempts := endAttempt claim.attempt.id r.attemptStatus r.attemptError s.attempts
    workItems := releaseItem claim.workItem.id r s.workItems }

/-- The items that depend on `workItemId`, directly or through others. -/
def downstream (dependencies : List DependencyRow) (workItemId : String) : List String :=
  Closure.reach (dependencies.map fun d => (d.dependsOnWorkItemId, d.workItemId)) workItemId

/-- Block the waiting items downstream of a failed one. -/
def blockDownstream (workItemId : String) (s : Store) : Store :=
  { s with
    workItems := updateWhere
      (fun w => (downstream s.dependencies workItemId).contains w.id &&
        (w.status = .pending || w.status = .ready))
      (fun w => { w with status := .blocked }) s.workItems }

/-- `retryable && attempt_count < max_attempts`. -/
def willRetry (s : Store) (w : WorkItemRow) (retryable : Bool) : Bool :=
  retryable && s.attemptCount w.id < w.maxAttempts

/-- What a failure writes; prepared checkpoints stay. -/
def failRelease (row : WorkItemRow) (retry : Bool) (error : String) (now : Int) : Release where
  status := if retry then .ready else .failed
  nextAttemptAt := if retry then some (now + row.backoffSecs) else none
  lastError := some error
  attemptStatus := .failed
  attemptError := error
  voids := false

def failAttemptTx (claim : WorkClaim) (error : String) (retryable : Bool) (actor : String)
    (now : Int) (s : Store) : Except String Store := do
  validateActor actor
  let error := takeChars 2000 error
  s.ensureClaimCurrent now claim
  let row ← context (s.workItem? claim.workItem.id) rowNotFound
  let retry := willRetry s row retryable
  let s := releaseClaim claim (failRelease row retry error now) s
  let s := if retry then s else blockDownstream claim.workItem.id s
  pure ((s.refreshGoalStatus claim.attempt.goalId).insertEvent claim.attempt.goalId
    "attempt.failed" actor)

def failAttempt (claim : WorkClaim) (error : String) (retryable : Bool) (actor : String)
    (now later : Int) : Op ResumeReport := do
  transact_ (failAttemptTx claim error retryable actor now)
  resumeAfter claim.attempt.goalId actor "goal disappeared after attempt failure" later

def blockRelease (reason : String) : Release where
  status := .blocked
  lastError := some reason
  attemptStatus := .void
  attemptError := reason

def blockWorkItemTx (claim : WorkClaim) (reason actor : String) (now : Int) (s : Store) :
    Except String Store := do
  validateActor actor
  s.ensureClaimCurrent now claim
  let s := releaseClaim claim (blockRelease (takeChars 2000 reason)) s
  pure (s.insertEvent claim.attempt.goalId "work.blocked" actor)

def blockWorkItem (claim : WorkClaim) (reason actor : String) (now : Int) :
    Op WorkItemRecord := do
  transact_ (blockWorkItemTx claim reason actor now)
  query fun s => do decodeWorkItem (← context (s.workItem? claim.workItem.id) rowNotFound)

def deferRelease (untilUnix : Int) : Release where
  status := .ready
  nextAttemptAt := some untilUnix
  attemptStatus := .void
  attemptError := "deferred until " ++ toString untilUnix

def deferAttemptTx (claim : WorkClaim) (untilUnix : Int) (actor : String) (now : Int)
    (s : Store) : Except String Store := do
  validateActor actor
  ensure (0 < untilUnix) "deferred wake time must be positive"
  s.ensureClaimCurrent now claim
  let s := releaseClaim claim (deferRelease untilUnix) s
  pure (s.insertEvent claim.attempt.goalId "attempt.deferred" actor)

def deferAttempt (claim : WorkClaim) (untilUnix : Int) (actor : String) (now later : Int) :
    Op ResumeReport := do
  transact_ (deferAttemptTx claim untilUnix actor now)
  resumeAfter claim.attempt.goalId actor "goal disappeared after attempt deferral" later

/-- The progress after one more committed boundary. -/
def nextPhaseProgress (s : Store) (workItemId : String) (continuation : WorkContinuation) :
    Except String WorkPhaseProgress := do
  let row ← context (s.workItem? workItemId) rowNotFound
  let continues := (row.progress.map (·.continues)).getD 0 + 1
  ensure (continues ≤ maxPhaseContinues)
    "phase continuation budget exhausted (64 committed boundaries)"
  pure ⟨continuation.phase, continuation.state, continues⟩

def setProgress (workItemId : String) (progress : WorkPhaseProgress)
    (items : List WorkItemRow) : List WorkItemRow :=
  updateWhere (fun w => w.id = workItemId) (fun w => { w with progress := some progress }) items

def recordPhaseProgressTx (claim : WorkClaim) (continuation : WorkContinuation) (actor : String)
    (now : Int) (s : Store) : Except String (WorkPhaseProgress × Store) := do
  validateActor actor
  continuation.validate enc
  s.ensureClaimCurrent now claim
  let progress ← nextPhaseProgress s claim.workItem.id continuation
  let s : Store := { s with workItems := setProgress claim.workItem.id progress s.workItems }
  pure (progress, s.insertEvent claim.attempt.goalId "attempt.phase_progressed" actor)

def recordPhaseProgress (claim : WorkClaim) (continuation : WorkContinuation) (actor : String)
    (now : Int) : Op WorkPhaseProgress :=
  transact (recordPhaseProgressTx enc claim continuation actor now)

/-- `started` is the clock before the transaction: the wake time counts from it. -/
def continueRelease (continuation : WorkContinuation) (progress : WorkPhaseProgress)
    (started : Int) : Release where
  status := .ready
  nextAttemptAt := continuation.delaySecs.map fun delay => started + delay
  progress := some progress
  attemptStatus := .void
  attemptError := "continued: " ++ continuation.phase

def continueAttemptTx (claim : WorkClaim) (continuation : WorkContinuation) (actor : String)
    (started now : Int) (s : Store) : Except String Store := do
  validateActor actor
  continuation.validate enc
  s.ensureClaimCurrent now claim
  let progress ← nextPhaseProgress s claim.workItem.id continuation
  let s := releaseClaim claim (continueRelease continuation progress started) s
  pure (s.insertEvent claim.attempt.goalId "attempt.continued" actor)

def continueAttempt (claim : WorkClaim) (continuation : WorkContinuation) (actor : String)
    (started now later : Int) : Op ResumeReport := do
  transact_ (continueAttemptTx enc claim continuation actor started now)
  resumeAfter claim.attempt.goalId actor "goal disappeared after attempt continuation" later

/-! ## Operators -/

/-- The rows `requeue_blocked_items` selects; a `NULL` error matches no pattern. -/
def isRequeueable (goalId reasonPrefix : String) (handlers : List String) (w : WorkItemRow) :
    Bool :=
  (w.goalId = goalId ∧ w.status = .blocked) &&
    w.lastError.any (fun e => like (escapeLike reasonPrefix ++ ['%']) e.toList) &&
    handlers.contains w.handler

def requeueBlockedItems (goalId reasonPrefix : String) (handlers : List String) (actor : String)
    (s : Store) : Except String Store := do
  validateActor actor
  ensureValidId goalId "goal id"
  ensure (byteLen reasonPrefix ≤ 120) "block reason prefix cannot exceed 120 bytes"
  if handlers.isEmpty then
    pure s
  else
    ensure (handlers.length ≤ 64) "handler list cannot exceed 64 entries"
    let requeued := s.workItems.any (isRequeueable goalId reasonPrefix handlers)
    let s : Store := { s with
      workItems := updateWhere (isRequeueable goalId reasonPrefix handlers)
        (fun w => { w with status := .ready, nextAttemptAt := none, lastError := none })
        s.workItems }
    pure (if requeued then s.insertEvent goalId "work.requeued" actor else s)

def confirmedOutcome (reason : String) : WorkOutcome where
  summary := "operator confirmed external delivery: " ++ reason
  artifactIds := []
  evidence := .object (.cons "confirmation" (.string "operator")
    (.cons "resolution" (.string "confirmed") (.cons "reason" (.string reason) .nil)))

/-- End the parked attempt. -/
def endParked (attemptId : String) (status : AttemptStatus) (error : Option String)
    (attempts : List AttemptRow) : List AttemptRow :=
  updateWhere (fun a => a.id = attemptId ∧ a.status = .waitingConfirmation)
    (fun a => { a with status, error }) attempts

/-- Take the parked item out of `waiting_confirmation`. -/
def unpark (workItemId : String) (status : WorkItemStatus) (nextAttemptAt : Option Int)
    (lastError : Option String) (items : List WorkItemRow) : List WorkItemRow :=
  updateWhere (fun w => w.id = workItemId ∧ w.status = .waitingConfirmation)
    (fun w => { w with
      status, leaseToken := none, leaseUntil := none, nextAttemptAt, lastError }) items

/-- Settle one prepared checkpoint. -/
def settlePrepared (checkpointId : String) (f : CheckpointRow → CheckpointRow)
    (checkpoints : List CheckpointRow) : List CheckpointRow :=
  updateWhere (fun c => c.id = checkpointId ∧ c.phase = .prepared) f checkpoints

end LoopStore

namespace ConfirmationResolution

/-- What becomes of the prepared checkpoint; a confirmed one is committed and at once reconciled. -/
def settle (reason : String) : ConfirmationResolution → CheckpointRow → CheckpointRow
  | confirmed, c => { c with phase := .reconciled, outcome := some (LoopStore.confirmedOutcome reason) }
  | retry, c | abandoned, c => { c with phase := .voided }

def attemptStatus : ConfirmationResolution → AttemptStatus
  | confirmed => .succeeded
  | retry => .abandoned
  | abandoned => .failed

def attemptError (reason : String) : ConfirmationResolution → Option String
  | confirmed => none
  | retry => some ("operator: effect not delivered, retry authorized (" ++ reason ++ ")")
  | abandoned => some ("operator abandoned: " ++ reason)

/-- An authorized retry fails the item when its attempts are exhausted. -/
def itemStatus (exhausted : Bool) : ConfirmationResolution → WorkItemStatus
  | confirmed => .succeeded
  | retry => if exhausted then .failed else .ready
  | abandoned => .failed

def nextAttemptAt (exhausted : Bool) (now : Int) : ConfirmationResolution → Option Int
  | retry => if exhausted then none else some now
  | confirmed | abandoned => none

def lastError (exhausted : Bool) (reason : String) : ConfirmationResolution → Option String
  | confirmed => none
  | retry =>
    some (if exhausted then "attempt budget exhausted after operator retry"
      else "retry authorized: " ++ reason)
  | abandoned => some ("operator abandoned: " ++ reason)

end ConfirmationResolution

namespace LoopStore

/-- The writes of a verdict on the parked attempt and its checkpoint. -/
def applyVerdict (item : WorkItemRow) (attempt : AttemptRow) (checkpoint : CheckpointRow)
    (resolution : ConfirmationResolution) (reason : String) (now : Int) (s : Store) : Store :=
  let s : Store := { s with
    checkpoints := settlePrepared checkpoint.id (resolution.settle reason) s.checkpoints
    attempts := endParked attempt.id resolution.attemptStatus (resolution.attemptError reason)
      s.attempts }
  let exhausted := decide (item.maxAttempts ≤ s.attemptCount item.id)
  { s with
    workItems := unpark item.id (resolution.itemStatus exhausted)
      (resolution.nextAttemptAt exhausted now) (resolution.lastError exhausted reason) s.workItems }

/-- The transaction of `resolve_waiting_confirmation`. -/
def resolveWaitingConfirmation (goalId workItemId : String) (resolution : ConfirmationResolution)
    (reason actor : String) (now : Int) (s : Store) : Except String Store := do
  validateActor actor
  ensureValidId goalId "goal id"
  ensureValidId workItemId "work item id"
  ensureReason reason "confirmation"
  let item ← context
    (s.workItems.find? fun w => w.id = workItemId ∧ w.goalId = goalId) "work item not found"
  let _ ← decodeWorkItem item
  ensure (item.status = .waitingConfirmation) "work item is not awaiting confirmation"
  let attempt ← context
    (pickBy (fun a b => b.attemptNumber ≤ a.attemptNumber)
      (s.attempts.filter fun a => a.workItemId = workItemId ∧ a.status = .waitingConfirmation))
    "no attempt is parked in waiting_confirmation"
  let _ ← decodeAttempt attempt
  let checkpoint ← context
    (s.checkpoints.filter fun c => c.attemptId = attempt.id ∧ c.phase = .prepared).getLast?
    "parked attempt has no prepared checkpoint"
  ensure (item.effectClass = .externalWrite || !checkpoint.replaySafe)
    "waiting_confirmation requires an ambiguous effect"
  let s := applyVerdict item attempt checkpoint resolution (trim reason) now s
  pure (((s.unlockReady goalId).refreshGoalStatus goalId).insertEvent goalId
    "confirmation.resolved" actor)

end LoopStore

end Xiaomaolv
