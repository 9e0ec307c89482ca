import Xiaomaolv.Lib.Machine
import Xiaomaolv.Loop.Attempts

/-!
# Runs of the store

SQLite serializes the writers, so what the engine's callers do to the store, in whatever order, is a
list of transactions.

* `Txn`, `Store.apply`: the transactions with their arguments. Clocks, drawn ids and policies are
  arguments of each: a run may use any.
* `exec`: a transaction that fails writes nothing.
* `Txn.holder?`: the claim that a holder's transaction presents.
* `Sample`: small plans, and the transactions that bring one to approval.
-/

namespace Xiaomaolv

open LoopStore

/-- One transaction of the loop store. -/
inductive Txn where
  | createGoal (request : CreateGoalRequest) (actor id : String)
  | planGoal (goalId : String) (request : PlanGoalRequest) (externalWrite : ExternalWritePolicy)
      (actor planId : String)
  | approveGoal (goalId : String) (request : ApproveGoalRequest)
      (externalWrite : ExternalWritePolicy) (internalPolicy : InternalApprovalPolicy)
      (actor approvalId : String) (workId : Nat → String)
  | extendWorkflow (goalId : String) (steps : List WorkflowStep)
      (externalWrite : ExternalWritePolicy) (actor : String) (workId : Nat → String)
  | cancelGoal (goalId reason actor : String)
  | pauseGoal (goalId reason actor : String)
  | unpauseGoal (goalId actor : String)
  | rejectGoal (goalId reason actor : String)
  | markGoalForReplan (goalId reason actor : String)
  | expireOverdueGoals (limit : Nat) (now : Int)
  | verifyGoal (goalId actor : String)
  | recordManualVerification (goalId label actor : String)
  | publishArtifact (id kind : String)
  | recordSelfTestRun (id suite : String) (passed : Bool)
  | reserveProviderCall (goalId : String) (now : Int)
  | recordProviderResponseBytes (goalId : String) (responseBytes : Nat)
  | recoverGoalState (goalId actor : String) (now : Int)
  | recordResumed (goalId actor : String)
  | requeueBlockedItems (goalId reasonPrefix : String) (handlers : List String) (actor : String)
  | resolveWaitingConfirmation (goalId workItemId : String) (resolution : ConfirmationResolution)
      (reason actor : String) (now : Int)
  | claimWork (goalId : String) (stepId : Option String) (workerId : String) (leaseSecs : Nat)
      (actor leaseToken attemptId : String) (now : Int)
  | prepareCheckpoint (claim : WorkClaim) (idempotencyKey : String) (replaySafe : Bool)
      (actor checkpointId : String) (now : Int)
  | renewClaim (claim : WorkClaim) (leaseSecs : Nat) (now : Int)
  | commitCheckpoint (claim : WorkClaim) (checkpointId : String) (outcome : WorkOutcome)
      (actor : String) (now : Int)
  | finishAttempt (claim : WorkClaim) (checkpointId actor : String) (now : Int)
  | failAttempt (claim : WorkClaim) (error : String) (retryable : Bool) (actor : String)
      (now : Int)
  | blockWorkItem (claim : WorkClaim) (reason actor : String) (now : Int)
  | deferAttempt (claim : WorkClaim) (untilUnix : Int) (actor : String) (now : Int)
  | recordPhaseProgress (claim : WorkClaim) (continuation : WorkContinuation) (actor : String)
      (now : Int)
  | continueAttempt (claim : WorkClaim) (continuation : WorkContinuation) (actor : String)
      (started now : Int)

/-- The claim that a holder's transaction presents. -/
def Txn.holder? : Txn → Option WorkClaim
  | .prepareCheckpoint claim .. | .renewClaim claim .. | .commitCheckpoint claim ..
  | .finishAttempt claim .. | .failAttempt claim .. | .blockWorkItem claim ..
  | .deferAttempt claim .. | .recordPhaseProgress claim .. | .continueAttempt claim .. => some claim
  | _ => none

variable (enc : Encoding)

/-- The store that a transaction commits, or its error. -/
def Store.apply (s : Store) : Txn → Except String Store
  | .createGoal request actor id => createGoal request actor id s
  | .planGoal goalId request externalWrite actor planId =>
    planGoal enc goalId request externalWrite actor planId s
  | .approveGoal goalId request externalWrite internalPolicy actor approvalId workId =>
    approveGoal goalId request externalWrite internalPolicy actor approvalId workId s
  | .extendWorkflow goalId steps externalWrite actor workId =>
    extendWorkflow enc goalId steps externalWrite actor workId s
  | .cancelGoal goalId reason actor => cancelGoal goalId reason actor s
  | .pauseGoal goalId reason actor => pauseGoal goalId reason actor s
  | .unpauseGoal goalId actor => unpauseGoal goalId actor s
  | .rejectGoal goalId reason actor => rejectGoal goalId reason actor s
  | .markGoalForReplan goalId reason actor => markGoalForReplan goalId reason actor s
  | .expireOverdueGoals limit now => .ok (expireOverdueGoals limit now s)
  | .verifyGoal goalId actor => verifyGoal goalId actor s
  | .recordManualVerification goalId label actor => recordManualVerification goalId label actor s
  | .publishArtifact id kind => publishArtifact id kind s
  | .recordSelfTestRun id suite passed => recordSelfTestRun id suite passed s
  | .reserveProviderCall goalId now => reserveProviderCall goalId now s
  | .recordProviderResponseBytes goalId responseBytes =>
    recordProviderResponseBytes goalId responseBytes s
  | .recoverGoalState goalId actor now => recoverGoalState goalId actor now s
  | .recordResumed goalId actor => .ok (recordResumed goalId actor s)
  | .requeueBlockedItems goalId reasonPrefix handlers actor =>
    requeueBlockedItems goalId reasonPrefix handlers actor s
  | .resolveWaitingConfirmation goalId workItemId resolution reason actor now =>
    resolveWaitingConfirmation goalId workItemId resolution reason actor now s
  | .claimWork goalId stepId workerId leaseSecs actor leaseToken attemptId now =>
    (claimTx goalId stepId workerId leaseSecs actor leaseToken attemptId now s).map Prod.snd
  | .prepareCheckpoint claim idempotencyKey replaySafe actor checkpointId now =>
    (prepareCheckpointTx claim idempotencyKey replaySafe actor checkpointId now s).map Prod.snd
  | .renewClaim claim leaseSecs now => renewClaimTx claim leaseSecs now s
  | .commitCheckpoint claim checkpointId outcome actor now =>
    commitCheckpointTx enc claim checkpointId outcome actor now s
  | .finishAttempt claim checkpointId actor now => finishAttemptTx claim checkpointId actor now s
  | .failAttempt claim error retryable actor now => failAttemptTx claim error retryable actor now s
  | .blockWorkItem claim reason actor now => blockWorkItemTx claim reason actor now s
  | .deferAttempt claim untilUnix actor now => deferAttemptTx claim untilUnix actor now s
  | .recordPhaseProgress claim continuation actor now =>
    (recordPhaseProgressTx enc claim continuation actor now s).map Prod.snd
  | .continueAttempt claim continuation actor started now =>
    continueAttemptTx enc claim continuation actor started now s

/-- What an error leaves: the store as it was. -/
def Store.orElse (s : Store) : Except String Store → Store
  | .ok s' => s'
  | .error _ => s

/-- The store after a transaction: one that fails writes nothing. -/
def exec (s : Store) (t : Txn) : Store := s.orElse (s.apply enc t)

variable {enc}

theorem exec_cases (enc : Encoding) (s : Store) (t : Txn) :
    exec enc s t = s ∨ s.apply enc t = .ok (exec enc s t) := by
  unfold exec
  cases s.apply enc t with
  | error e => exact .inl rfl
  | ok s' => exact .inr rfl

theorem exec_of_ok {s s' : Store} {t : Txn} (h : s.apply enc t = .ok s') : exec enc s t = s' := by
  rw [exec, h]; rfl

theorem exec_keeps {I : Store → Prop} {s : Store} {t : Txn} (h : I s)
    (hok : ∀ s', s.apply enc t = .ok s' → I s') : I (exec enc s t) := by
  rcases exec_cases enc s t with he | he
  · rw [he]; exact h
  · exact hok _ he

/-! ## Sample plans -/

namespace Sample

def step (id handler : String) (effect : EffectClass) (maxAttempts : Nat) : WorkflowStep :=
  ⟨id, handler, effect, .object .nil, ⟨maxAttempts, 0⟩⟩

def plan (steps : List WorkflowStep) (edges : List WorkflowEdge) : PlanGoalRequest :=
  ⟨⟨steps, edges, ⟨1, 60, 1024⟩⟩, [.manualApproval "ok"]⟩

/-- One step, two attempts. -/
def solo : PlanGoalRequest := plan [step "build" "provider_analysis" .read 2] []

/-- One external write, two attempts. -/
def outbound : PlanGoalRequest := plan [step "send" "channel_send" .externalWrite 2] []

/-- Two steps, one attempt each, the second after the first. -/
def chain : PlanGoalRequest :=
  plan [step "build" "provider_analysis" .read 1, step "test" "provider_analysis" .read 1]
    [⟨"build", "test"⟩]

/-- The lengths and digests of the samples; their inputs and evidence are all empty objects. -/
def encoding : Encoding where
  inputLen _ := 2
  workflowLen spec := if spec = solo.workflow then 217 else if spec = outbound.workflow then 221 else 360
  planHash request :=
    if request = solo then
      "sha256:c5a7affbc645a2d9b842cc648da13ca18ffa5ef1d885fbd70f15fefa328f691b"
    else if request = outbound then
      "sha256:27354713a41bd70926d393c7dfa28e7948c5f9b78d1ae4641d5128c79b22a5e4"
    else "sha256:fe26ff4d165047c0af9154f8a5561548eb5f4f9154b6182949635c6c48e17f33"

def externalWrite : ExternalWritePolicy := ⟨true, ["channel_send"]⟩

/-- Plan the goal at `revision` and approve it; `round` marks the ids that are drawn. -/
def approve (request : PlanGoalRequest) (revision : Nat) (round : String) : List Txn :=
  [.planGoal "goal" request externalWrite "operator" ("plan" ++ round),
    .approveGoal "goal" ⟨revision + 1, encoding.planHash request⟩ externalWrite {} "operator"
      ("approval" ++ round) fun n => (if n = 0 then "first" else "second") ++ round]

/-- From an empty store to an approved goal. -/
def admission (request : PlanGoalRequest) : List Txn :=
  .createGoal { objective := "ship" } "operator" "goal" :: approve request 1 ""

def outcome : WorkOutcome := ⟨"done", [], .object .nil, none, none⟩

/-- The claim of the first attempt of `solo`. -/
def firstClaim (leaseToken attemptId : String) : WorkClaim where
  workItem := ⟨"first", "goal", .running, "build", "provider_analysis", .read, .object .nil, 2, 0, [],
    none⟩
  attempt := ⟨attemptId, "goal", "first", 1, .running, "w1", leaseToken, 1, 0, none⟩
  leaseUntilUnix := 300
  budget := ⟨1, 60, 1024⟩

end Sample

end Xiaomaolv
