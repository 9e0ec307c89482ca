import Xiaomaolv.Loop.Txn

/-!
# What a committed transaction wrote

One lemma `…_ok` for each transaction: the checks it passed and the store it left, in terms of the
shared updates (`reconcile`, `unlockReady`, `releaseClaim`, …). Later proofs cite these and unfold no
transaction.
-/

namespace Xiaomaolv

open Table LoopStore

variable {enc : Encoding} {s s' : Store} {goalId actor : String} {now : Int} {claim : WorkClaim}

theorem ensureClaimCurrent_eq_ok {u : Unit} : s.ensureClaimCurrent now claim = .ok u ↔
    Store.fencingInRange claim = true ∧ s.claimCurrent now claim = true := by
  simp only [Store.ensureClaimCurrent, ensure_bind_eq_ok, ensure_eq_ok]

theorem map_eq_ok {α β : Type} {x : Except String α} {f : α → β} {b : β} :
    x.map f = .ok b ↔ ∃ a, x = .ok a ∧ f a = b := by
  cases x <;> simp [Except.map]

theorem toOption_eq_some {α : Type} {x : Except String α} {a : α} : x.toOption = some a ↔ x = .ok a := by
  cases x <;> simp [Except.toOption]

/-! ## Goals -/

theorem createGoal_ok {request : CreateGoalRequest} {id : String}
    (h : createGoal request actor id s = .ok s') :
    s' = s ∨ ∃ g, (∀ x ∈ s.goals, x.id ≠ id) ∧ g.id = id ∧
      (g.status = .proposed ∧ g.revision = 1) ∧
      s' = { s with goals := s.goals ++ [g] }.insertEvent id "goal.created" actor := by
  unfold createGoal at h
  simp only [bind_eq_ok] at h
  obtain ⟨_, -, _, -, h⟩ := h
  split at h
  · exact .inl (pure_eq_ok.mp h).symm
  · right
    simp only [bind_eq_ok, insertRow_eq_ok, pure_eq_ok] at h
    obtain ⟨_, ⟨hid, rfl⟩, rfl⟩ := h
    exact ⟨_, fun x hx => by simpa using hid x hx, rfl, ⟨rfl, rfl⟩, rfl⟩

theorem planGoal_ok {request : PlanGoalRequest} {externalWrite : ExternalWritePolicy}
    {planId : String} (h : planGoal enc goalId request externalWrite actor planId s = .ok s') :
    ∃ goal, s.goal? goalId = some goal ∧ (goal.status = .proposed ∨ goal.status = .replan) ∧
      request.validateWithPolicy enc externalWrite = .ok () ∧
      (∀ w ∈ s.workflows, w.id ≠ planId ∧ (w.goalId = goalId → w.goalRevision ≠ goal.revision + 1)) ∧
      s' = ({ s with
        workflows := s.workflows ++
          [{ id := planId, goalId, goalRevision := goal.revision + 1, planHash := enc.planHash request,
             workflow := request.workflow, acceptance := request.acceptanceCriteria,
             effectManifest := request.effectManifest, createdBy := actor }]
        goals := updateWhere (fun g => g.id = goalId)
          (fun g => { g with status := .reviewReady, revision := goal.revision + 1 }) s.goals
        } : Store).insertEvent goalId "goal.planned" actor := by
  unfold planGoal at h
  simp only [bind_eq_ok, context_eq_ok, ensure_eq_ok, insertRow_eq_ok, pure_eq_ok] at h
  obtain ⟨_, hv, _, -, _, -, goal, hg, _, hst, _, ⟨hid, rfl⟩, rfl⟩ := h
  refine ⟨goal, hg, by simpa using hst, hv, fun w hw => ?_, rfl⟩
  simpa using hid w hw

theorem approveGoal_ok {request : ApproveGoalRequest} {externalWrite : ExternalWritePolicy}
    {internalPolicy : InternalApprovalPolicy} {approvalId : String} {workId : Nat → String}
    (h : approveGoal goalId request externalWrite internalPolicy actor approvalId workId s = .ok s') :
    ∃ goal plan workItems new dependencies,
      s.goal? goalId = some goal ∧ goal.status = .reviewReady ∧
      goal.revision = request.expectedGoalRevision ∧
      s.workflows.find? (fun w => w.goalId = goalId ∧ w.goalRevision = goal.revision) = some plan ∧
      plan.planHash = request.expectedPlanHash ∧
      (∀ a ∈ s.approvals, a.id ≠ approvalId ∧ (a.goalId = goalId → a.goalRevision ≠ goal.revision)) ∧
      materializeItems (approvedItem goalId plan workId) 0 plan.workflow.steps s.workItems
        = .ok workItems ∧
      edgeDependencies workId plan.workflow.steps plan.workflow.edges = .ok new ∧
      insertDependencies "failed to materialize work dependency" new s.dependencies
        = .ok dependencies ∧
      s' = ({ s with
        approvals := s.approvals ++
          [{ id := approvalId, goalId, goalRevision := goal.revision, planHash := plan.planHash,
             approvedBy := actor }]
        workItems, dependencies
        budgets := replaceBudget goalId plan.workflow.budget s.budgets
        goals := updateWhere (fun g => g.id = goalId)
          (fun g => { g with status := .approved, revision := goal.revision + 1 }) s.goals
        } : Store).insertEvent goalId "goal.approved" actor := by
  unfold approveGoal at h
  simp only [bind_eq_ok, context_eq_ok, ensure_eq_ok, insertRow_eq_ok, pure_eq_ok] at h
  obtain ⟨_, -, _, -, _, -, goal, hg, _, hst, _, hrev, plan, hplan, _, hhash, _, -, _, -, _,
    ⟨hid, rfl⟩, workItems, hw, new, hn, dependencies, hd, rfl⟩ := h
  refine ⟨goal, plan, workItems, new, dependencies, hg, by simpa using hst, by simpa using hrev,
    hplan, by simpa using hhash, fun a ha => ?_, hw, hn, hd, rfl⟩
  simpa using hid a ha

theorem extendWorkflow_ok {steps : List WorkflowStep} {externalWrite : ExternalWritePolicy}
    {workId : Nat → String}
    (h : extendWorkflow enc goalId steps externalWrite actor workId s = .ok s') :
    ∃ goal plan workItems new dependencies,
      s.goal? goalId = some goal ∧ isExtensible goal.status = true ∧
      latestWorkflow? goalId s = some plan ∧
      checkDependencies ((keptItems goalId s).map (·.stepId)) steps = .ok () ∧
      nextOrdinal goalId s + steps.length ≤ 2 ^ 32 ∧
      checkExtension enc plan.effectManifest externalWrite ((keptItems goalId s).map (·.stepId)) steps
        = .ok () ∧
      materializeItems (extendedItem goalId plan.id workId (nextOrdinal goalId s)) 0 steps s.workItems
        = .ok workItems ∧
      batchDependencies goalId workId steps workItems 0 steps = .ok new ∧
      insertDependencies "failed to materialize extended dependency" new s.dependencies
        = .ok dependencies ∧
      s' = (({ s with workItems, dependencies } : Store).insertEvent goalId "workflow.extended"
        actor).refreshGoalStatus goalId := by
  unfold extendWorkflow at h
  simp only [bind_eq_ok, context_eq_ok, ensure_eq_ok, pure_eq_ok] at h
  obtain ⟨_, -, _, -, _, -, _, -, goal, hg, _, hst, plan, hplan, root, -, maxNodes, -, _, -, _, hc,
    _, hd, _, ho, workItems, hw, new, hn, dependencies, hdeps, rfl⟩ := h
  exact ⟨goal, plan, workItems, new, dependencies, hg, hst, hplan, hd, by simpa using ho, hc, hw, hn,
    hdeps, rfl⟩

theorem cancelGoal_ok {reason : String} (h : cancelGoal goalId reason actor s = .ok s') :
    ∃ goal error, s.goal? goalId = some goal ∧ isCancelable goal.status = true ∧
      s' = (({ s with
        attempts := abandonAttempts goalId error s.attempts
        workItems := closeItems goalId error [.succeeded, .failed] .failed s.workItems
        } : Store).setGoalStatus goalId .canceled).insertEvent goalId "goal.canceled" actor := by
  unfold cancelGoal at h
  simp only [bind_eq_ok, context_eq_ok, ensure_eq_ok, pure_eq_ok] at h
  obtain ⟨_, -, _, -, goal, hg, _, hst, rfl⟩ := h
  exact ⟨goal, _, hg, hst, rfl⟩

theorem pauseGoal_ok {reason : String} (h : pauseGoal goalId reason actor s = .ok s') :
    ∃ goal, s.goal? goalId = some goal ∧ isPausable goal.status = true ∧
      s' = (s.setGoalStatus goalId .paused).insertEvent goalId "goal.paused" actor := by
  unfold pauseGoal at h
  simp only [bind_eq_ok, context_eq_ok, ensure_eq_ok, pure_eq_ok] at h
  obtain ⟨_, -, _, -, goal, hg, _, hst, rfl⟩ := h
  exact ⟨goal, hg, hst, rfl⟩

theorem unpauseGoal_ok (h : unpauseGoal goalId actor s = .ok s') :
    ∃ goal, s.goal? goalId = some goal ∧ goal.status = .paused ∧
      s' = (s.setGoalStatus goalId .active).insertEvent goalId "goal.unpaused" actor := by
  unfold unpauseGoal at h
  simp only [bind_eq_ok, context_eq_ok, ensure_eq_ok, pure_eq_ok] at h
  obtain ⟨_, -, goal, hg, _, hst, rfl⟩ := h
  exact ⟨goal, hg, by simpa using hst, rfl⟩

theorem rejectGoal_ok {reason : String} (h : rejectGoal goalId reason actor s = .ok s') :
    ∃ goal, s.goal? goalId = some goal ∧ isRejectable goal.status = true ∧
      s' = (s.setGoalStatus goalId .rejected).insertEvent goalId "goal.rejected" actor := by
  unfold rejectGoal at h
  simp only [bind_eq_ok, context_eq_ok, ensure_eq_ok, pure_eq_ok] at h
  obtain ⟨_, -, _, -, goal, hg, _, hst, rfl⟩ := h
  exact ⟨goal, hg, hst, rfl⟩

theorem markGoalForReplan_ok {reason : String}
    (h : markGoalForReplan goalId reason actor s = .ok s') :
    ∃ goal error, s.goal? goalId = some goal ∧ isReplannable goal.status = true ∧
      s' = (({ s with
        attempts := abandonAttempts goalId "superseded by replan" s.attempts
        workItems := closeItems goalId error [.succeeded, .failed, .canceled] .canceled s.workItems
        } : Store).setGoalStatus goalId .replan).insertEvent goalId "goal.replan" actor := by
  unfold markGoalForReplan at h
  simp only [bind_eq_ok, context_eq_ok, ensure_eq_ok, pure_eq_ok] at h
  obtain ⟨_, -, _, -, goal, hg, _, hst, rfl⟩ := h
  exact ⟨goal, _, hg, hst, rfl⟩

theorem verifyGoal_ok (h : verifyGoal goalId actor s = .ok s') :
    s' = s ∨ ∃ goal plan, s.goal? goalId = some goal ∧ goal.status = .verifying ∧
      latestWorkflow? goalId s = some plan ∧
      ((plan.acceptance.all (criterionMet s goalId) = true ∧
        s' = ({ s with
          goals := updateWhere (fun g => g.id = goalId ∧ g.status = .verifying)
            (fun g => { g with status := .achieved, revision := g.revision + 1 }) s.goals
          } : Store).insertEvent goalId "goal.achieved" actor) ∨
       (plan.acceptance.all (criterionMet s goalId) = false ∧
        s' = s.insertEvent goalId "goal.verification_pending" actor)) := by
  unfold verifyGoal at h
  simp only [bind_eq_ok, context_eq_ok] at h
  obtain ⟨_, -, _, -, goal, hg, h⟩ := h
  split at h
  · exact .inl (pure_eq_ok.mp h).symm
  · right
    simp only [bind_eq_ok, context_eq_ok, ensure_eq_ok] at h
    obtain ⟨_, hst, plan, hplan, h⟩ := h
    refine ⟨goal, plan, hg, by simpa using hst, hplan, ?_⟩
    split at h
    · rename_i hall
      exact .inl ⟨hall, (pure_eq_ok.mp h).symm⟩
    · rename_i hall
      exact .inr ⟨by simpa using hall, (pure_eq_ok.mp h).symm⟩

theorem recordManualVerification_ok {label : String}
    (h : recordManualVerification goalId label actor s = .ok s') :
    s' = s ∨ s' = ({ s with
      manualVerifications := s.manualVerifications ++ [⟨goalId, trim label, actor⟩]
      } : Store).insertEvent goalId "goal.manual_verified" actor := by
  unfold recordManualVerification at h
  simp only [bind_eq_ok] at h
  obtain ⟨_, -, _, -, _, -, _, -, _, -, _, -, _, -, h⟩ := h
  split at h
  · exact .inl (pure_eq_ok.mp h).symm
  · exact .inr (pure_eq_ok.mp h).symm

theorem publishArtifact_ok {id kind : String} (h : publishArtifact id kind s = .ok s') :
    s' = { s with artifacts := s.artifacts ++ [⟨id, kind⟩] } := by
  unfold publishArtifact at h
  simp only [bind_eq_ok, insertRow_eq_ok, pure_eq_ok] at h
  obtain ⟨_, ⟨-, rfl⟩, rfl⟩ := h
  rfl

theorem recordSelfTestRun_ok {id suite : String} {passed : Bool}
    (h : recordSelfTestRun id suite passed s = .ok s') :
    s' = { s with selfTestRuns := s.selfTestRuns ++ [⟨id, suite, passed⟩] } := by
  unfold recordSelfTestRun at h
  simp only [bind_eq_ok, insertRow_eq_ok, pure_eq_ok] at h
  obtain ⟨_, ⟨-, rfl⟩, rfl⟩ := h
  rfl

/-! ## Budgets -/

theorem reserveProviderCall_ok (h : reserveProviderCall goalId now s = .ok s') :
    ∃ budgets, s' = { s with budgets } := by
  unfold reserveProviderCall at h
  simp only [bind_eq_ok, pure_eq_ok] at h
  obtain ⟨_, -, _, -, _, -, _, -, rfl⟩ := h
  exact ⟨_, rfl⟩

theorem recordProviderResponseBytes_ok {responseBytes : Nat}
    (h : recordProviderResponseBytes goalId responseBytes s = .ok s') :
    ∃ budgets, s' = { s with budgets } := by
  unfold recordProviderResponseBytes at h
  simp only [bind_eq_ok, pure_eq_ok] at h
  obtain ⟨_, -, _, -, rfl⟩ := h
  exact ⟨_, rfl⟩

/-! ## Recovery and operators -/

theorem recoverGoalState_ok (h : recoverGoalState goalId actor now s = .ok s') :
    (s.goals.any (fun g => g.id = goalId) = true ∧ s' = recovered goalId actor now s) ∨
    (s.goals.any (fun g => g.id = goalId) = false ∧ s' = s) := by
  unfold recoverGoalState at h
  simp only [bind_eq_ok] at h
  obtain ⟨_, -, h⟩ := h
  split at h
  · rename_i hg
    exact .inl ⟨hg, (pure_eq_ok.mp h).symm⟩
  · rename_i hg
    exact .inr ⟨by simpa using hg, (pure_eq_ok.mp h).symm⟩

theorem requeueBlockedItems_ok {reasonPrefix : String} {handlers : List String}
    (h : requeueBlockedItems goalId reasonPrefix handlers actor s = .ok s') :
    s' = s ∨ ∃ events, s' = { s with
      workItems := updateWhere (isRequeueable goalId reasonPrefix handlers)
        (fun w => { w with status := .ready, nextAttemptAt := none, lastError := none }) s.workItems
      events } := by
  unfold requeueBlockedItems at h
  simp only [bind_eq_ok] at h
  obtain ⟨_, -, _, -, _, -, h⟩ := h
  split at h
  · exact .inl (pure_eq_ok.mp h).symm
  · simp only [bind_eq_ok, pure_eq_ok] at h
    obtain ⟨_, -, rfl⟩ := h
    right
    split
    · exact ⟨_, rfl⟩
    · exact ⟨_, rfl⟩

theorem resolveWaitingConfirmation_ok {workItemId : String} {resolution : ConfirmationResolution}
    {reason : String}
    (h : resolveWaitingConfirmation goalId workItemId resolution reason actor now s = .ok s') :
    ∃ item attempt checkpoint,
      s.workItems.find? (fun w => w.id = workItemId ∧ w.goalId = goalId) = some item ∧
      item.status = .waitingConfirmation ∧
      pickBy (fun a b : AttemptRow => b.attemptNumber ≤ a.attemptNumber)
        (s.attempts.filter fun a => a.workItemId = workItemId ∧ a.status = .waitingConfirmation)
        = some attempt ∧
      (s.checkpoints.filter fun c => c.attemptId = attempt.id ∧ c.phase = .prepared).getLast?
        = some checkpoint ∧
      (item.effectClass = .externalWrite ∨ checkpoint.replaySafe = false) ∧
      s' = (((applyVerdict item attempt checkpoint resolution (trim reason) now s).unlockReady
        goalId).refreshGoalStatus goalId).insertEvent goalId "confirmation.resolved" actor := by
  unfold resolveWaitingConfirmation at h
  simp only [bind_eq_ok, context_eq_ok, ensure_eq_ok, pure_eq_ok] at h
  obtain ⟨_, -, _, -, _, -, _, -, item, hi, _, -, _, hst, attempt, ha, _, -, checkpoint, hc, _, hamb,
    rfl⟩ := h
  exact ⟨item, attempt, checkpoint, hi, by simpa using hst, ha, hc, by simpa using hamb, rfl⟩

/-! ## Claim holders -/

/-- The store after `row` has been claimed. -/
def claimed (goalId : String) (row : WorkItemRow) (workerId : String) (leaseSecs : Nat)
    (actor leaseToken attemptId : String) (now : Int) (s : Store) : Store :=
  ({ s with
    attempts := s.attempts ++ [newAttempt s row workerId leaseToken attemptId now]
    workItems := updateWhere (fun w => w.id = row.id ∧ w.status = .ready)
      (fun w => { w with
        status := .running, leaseToken := some leaseToken, leaseUntil := some (now + leaseSecs),
        fencingToken := w.fencingToken + 1 }) s.workItems
    goals := updateWhere (fun g => g.id = goalId ∧ g.status = .approved)
      (fun g => { g with status := .active }) s.goals } : Store).insertEvent goalId "work.claimed"
    actor

theorem claimTx_ok {stepId : Option String} {workerId leaseToken attemptId : String}
    {leaseSecs : Nat} {work : Option ClaimedWork}
    (h : claimTx goalId stepId workerId leaseSecs actor leaseToken attemptId now s = .ok (work, s')) :
    ∃ goal, s.goal? goalId = some goal ∧ (goal.status = .approved ∨ goal.status = .active) ∧
      ((work = none ∧ s' = s) ∨ ∃ row workItem budget,
        claimCandidate? goalId stepId now s = some row ∧ decodeWorkItem row = .ok workItem ∧
        (∀ a ∈ s.attempts, a.id ≠ attemptId) ∧
        work = some ⟨{ workItem with status := .running },
          newAttempt s row workerId leaseToken attemptId now, now + leaseSecs, budget⟩ ∧
        s' = claimed goalId row workerId leaseSecs actor leaseToken attemptId now s) := by
  unfold claimTx at h
  simp only [bind_eq_ok, context_eq_ok, ensure_eq_ok] at h
  obtain ⟨_, -, _, -, _, -, _, -, _, -, goal, hg, _, hst, _, -, h⟩ := h
  refine ⟨goal, hg, by simpa using hst, ?_⟩
  cases hrow : claimCandidate? goalId stepId now s with
  | none =>
    rw [hrow] at h
    cases pure_eq_ok.mp h
    exact .inl ⟨rfl, rfl⟩
  | some row =>
    rw [hrow] at h
    simp only [bind_eq_ok, context_eq_ok, insertRow_eq_ok, pure_eq_ok] at h
    obtain ⟨workItem, hd, plan, hp, _, ⟨hid, rfl⟩, h⟩ := h
    cases h
    refine .inr ⟨row, workItem, _, rfl, hd, fun a ha => ?_, rfl, rfl⟩
    have := hid a ha
    simp only [decide_eq_false_iff_not, not_or] at this
    exact this.1

theorem prepareCheckpointTx_ok {idempotencyKey checkpointId : String} {replaySafe : Bool}
    {checkpoint : CheckpointRow}
    (h : prepareCheckpointTx claim idempotencyKey replaySafe actor checkpointId now s
      = .ok (checkpoint, s')) :
    s.claimCurrent now claim = true ∧ checkpoint.attemptId = claim.attempt.id ∧
      checkpoint.workItemId = claim.workItem.id ∧ checkpoint.idempotencyKey = idempotencyKey ∧
      checkpoint ∈ s'.checkpoints ∧
      (s' = s ∨
        ((∀ c ∈ s.checkpoints, c.id ≠ checkpointId) ∧ checkpoint.id = checkpointId ∧
          checkpoint.goalId = claim.attempt.goalId ∧
          checkpoint.phase = .prepared ∧ checkpoint.replaySafe = replaySafe ∧
          s' = ({ s with checkpoints := s.checkpoints ++ [checkpoint] } : Store).insertEvent
            claim.attempt.goalId "checkpoint.prepared" actor)) := by
  unfold prepareCheckpointTx at h
  simp only [bind_eq_ok, ensureClaimCurrent_eq_ok] at h
  obtain ⟨_, -, _, -, _, hc, h⟩ := h
  refine ⟨hc.2, ?_⟩
  split at h
  · rename_i c hfind
    simp only [bind_eq_ok, ensure_eq_ok, pure_eq_ok] at h
    obtain ⟨_, ha, h⟩ := h
    cases h
    have hp := List.find?_some hfind
    simp only [decide_eq_true_eq] at ha hp
    exact ⟨ha, hp.1, hp.2, List.mem_of_find?_eq_some hfind, .inl rfl⟩
  · simp only [bind_eq_ok, insertRow_eq_ok, pure_eq_ok] at h
    obtain ⟨_, ⟨hid, rfl⟩, h⟩ := h
    cases h
    refine ⟨rfl, rfl, rfl, by simp [Store.insertEvent], .inr ⟨fun c hmem => ?_, rfl, rfl, rfl, rfl, rfl⟩⟩
    have := hid c hmem
    simp only [decide_eq_false_iff_not, not_or] at this
    exact this.1

theorem renewClaimTx_ok {leaseSecs : Nat} (h : renewClaimTx claim leaseSecs now s = .ok s') :
    s.workItems.any (isRenewable claim now) = true ∧
      s' = { s with
        workItems := updateWhere (isRenewable claim now)
          (fun w => { w with leaseUntil := some (now + leaseSecs) }) s.workItems } := by
  unfold renewClaimTx at h
  simp only [bind_eq_ok, ensure_eq_ok, pure_eq_ok] at h
  obtain ⟨_, -, _, -, _, hr, rfl⟩ := h
  exact ⟨hr, rfl⟩

theorem commitCheckpointTx_ok {checkpointId : String} {outcome : WorkOutcome}
    (h : commitCheckpointTx enc claim checkpointId outcome actor now s = .ok s') :
    s.claimCurrent now claim = true ∧ ∃ current, s.checkpoint? checkpointId = some current ∧
      current.attemptId = claim.attempt.id ∧
      ((current.phase = .committed ∧ current.outcome = some outcome ∧ s' = s) ∨
       (current.phase = .prepared ∧
        s' = ({ s with
          checkpoints := updateWhere
            (fun c => c.id = checkpointId ∧ c.phase = .prepared ∧ c.attemptId = claim.attempt.id)
            (fun c => { c with phase := .committed, outcome := some outcome }) s.checkpoints
          attempts := updateWhere (fun a => a.id = claim.attempt.id ∧ a.status = .running)
            (fun a => { a with status := .committing }) s.attempts
          } : Store).insertEvent claim.attempt.goalId "checkpoint.committed" actor)) := by
  unfold commitCheckpointTx at h
  simp only [bind_eq_ok, context_eq_ok, ensure_eq_ok, ensureClaimCurrent_eq_ok] at h
  obtain ⟨_, -, _, -, _, -, _, hc, current, hcur, _, hatt, h⟩ := h
  refine ⟨hc.2, current, hcur, by simpa using hatt, ?_⟩
  split at h
  · rename_i hp
    simp only [bind_eq_ok, ensure_eq_ok, pure_eq_ok] at h
    obtain ⟨_, ho, h⟩ := h
    exact .inl ⟨hp, by simpa using ho, h.symm⟩
  · simp only [bind_eq_ok, ensure_eq_ok, pure_eq_ok] at h
    obtain ⟨_, hp, rfl⟩ := h
    exact .inr ⟨by simpa using hp, rfl⟩

theorem finishAttemptTx_ok {checkpointId : String}
    (h : finishAttemptTx claim checkpointId actor now s = .ok s') :
    s.claimCurrent now claim = true ∧ ∃ checkpoint, s.checkpoint? checkpointId = some checkpoint ∧
      checkpoint.attemptId = claim.attempt.id ∧ checkpoint.phase = .committed ∧
      s' = (((s.reconcile checkpoint).unlockReady claim.attempt.goalId).refreshGoalStatus
        claim.attempt.goalId).insertEvent claim.attempt.goalId "attempt.finished" actor := by
  unfold finishAttemptTx at h
  simp only [bind_eq_ok, context_eq_ok, ensure_eq_ok, ensureClaimCurrent_eq_ok, pure_eq_ok] at h
  obtain ⟨_, -, _, hc, checkpoint, hcp, _, hp, rfl⟩ := h
  simp only [decide_eq_true_eq] at hp
  exact ⟨hc.2, checkpoint, hcp, hp.1, hp.2, rfl⟩

/-- The store after a failure that has been written to the item and its attempt. -/
def failed (claim : WorkClaim) (row : WorkItemRow) (error : String) (retry : Bool) (now : Int)
    (s : Store) : Store :=
  let s := releaseClaim claim (failRelease row retry (takeChars 2000 error) now) s
  if retry then s else blockDownstream claim.workItem.id s

theorem failAttemptTx_ok {error : String} {retryable : Bool}
    (h : failAttemptTx claim error retryable actor now s = .ok s') :
    s.claimCurrent now claim = true ∧ ∃ row, s.workItem? claim.workItem.id = some row ∧
      s' = ((failed claim row error (willRetry s row retryable) now s).refreshGoalStatus
        claim.attempt.goalId).insertEvent claim.attempt.goalId "attempt.failed" actor := by
  unfold failAttemptTx at h
  simp only [bind_eq_ok, context_eq_ok, ensureClaimCurrent_eq_ok, pure_eq_ok] at h
  obtain ⟨_, -, _, hc, row, hrow, rfl⟩ := h
  exact ⟨hc.2, row, hrow, rfl⟩

theorem blockWorkItemTx_ok {reason : String} (h : blockWorkItemTx claim reason actor now s = .ok s') :
    s.claimCurrent now claim = true ∧
      s' = (releaseClaim claim (blockRelease (takeChars 2000 reason)) s).insertEvent
        claim.attempt.goalId "work.blocked" actor := by
  unfold blockWorkItemTx at h
  simp only [bind_eq_ok, ensureClaimCurrent_eq_ok, pure_eq_ok] at h
  obtain ⟨_, -, _, hc, rfl⟩ := h
  exact ⟨hc.2, rfl⟩

theorem deferAttemptTx_ok {untilUnix : Int}
    (h : deferAttemptTx claim untilUnix actor now s = .ok s') :
    s.claimCurrent now claim = true ∧
      s' = (releaseClaim claim (deferRelease untilUnix) s).insertEvent claim.attempt.goalId
        "attempt.deferred" actor := by
  unfold deferAttemptTx at h
  simp only [bind_eq_ok, ensureClaimCurrent_eq_ok, pure_eq_ok] at h
  obtain ⟨_, -, _, -, _, hc, rfl⟩ := h
  exact ⟨hc.2, rfl⟩

theorem continueAttemptTx_ok {continuation : WorkContinuation} {started : Int}
    (h : continueAttemptTx enc claim continuation actor started now s = .ok s') :
    s.claimCurrent now claim = true ∧ ∃ progress,
      nextPhaseProgress s claim.workItem.id continuation = .ok progress ∧
      s' = (releaseClaim claim (continueRelease continuation progress started) s).insertEvent
        claim.attempt.goalId "attempt.continued" actor := by
  unfold continueAttemptTx at h
  simp only [bind_eq_ok, ensureClaimCurrent_eq_ok, pure_eq_ok] at h
  obtain ⟨_, -, _, -, _, hc, progress, hp, rfl⟩ := h
  exact ⟨hc.2, progress, hp, rfl⟩

theorem recordPhaseProgressTx_ok {continuation : WorkContinuation} {progress : WorkPhaseProgress}
    (h : recordPhaseProgressTx enc claim continuation actor now s = .ok (progress, s')) :
    s.claimCurrent now claim = true ∧
      nextPhaseProgress s claim.workItem.id continuation = .ok progress ∧
      s' = ({ s with
        workItems := setProgress claim.workItem.id progress s.workItems } : Store).insertEvent
        claim.attempt.goalId "attempt.phase_progressed" actor := by
  unfold recordPhaseProgressTx at h
  simp only [bind_eq_ok, ensureClaimCurrent_eq_ok, pure_eq_ok] at h
  obtain ⟨_, -, _, -, _, hc, progress, hp, h⟩ := h
  cases h
  exact ⟨hc.2, hp, rfl⟩

/-! ## Transactions with a result -/

theorem claimWork_ok {stepId : Option String} {workerId leaseToken attemptId : String}
    {leaseSecs : Nat} (h : s.apply enc
      (.claimWork goalId stepId workerId leaseSecs actor leaseToken attemptId now) = .ok s') :
    s' = s ∨ ∃ goal row, s.goal? goalId = some goal ∧
      (goal.status = .approved ∨ goal.status = .active) ∧
      claimCandidate? goalId stepId now s = some row ∧ (∀ a ∈ s.attempts, a.id ≠ attemptId) ∧
      s' = claimed goalId row workerId leaseSecs actor leaseToken attemptId now s := by
  obtain ⟨⟨work, s₁⟩, hx, rfl⟩ := map_eq_ok.mp h
  obtain ⟨goal, hg, hst, ⟨-, he⟩ | ⟨row, workItem, budget, hrow, -, hfresh, -, he⟩⟩ := claimTx_ok hx
  · exact .inl he
  · exact .inr ⟨goal, row, hg, hst, hrow, hfresh, he⟩

theorem prepareCheckpoint_ok {idempotencyKey checkpointId : String} {replaySafe : Bool}
    (h : s.apply enc (.prepareCheckpoint claim idempotencyKey replaySafe actor checkpointId now)
      = .ok s') :
    ∃ checkpoint, prepareCheckpointTx claim idempotencyKey replaySafe actor checkpointId now s
      = .ok (checkpoint, s') := by
  obtain ⟨⟨checkpoint, s₁⟩, hx, rfl⟩ := map_eq_ok.mp h
  exact ⟨checkpoint, hx⟩

theorem recordPhaseProgress_ok {continuation : WorkContinuation}
    (h : s.apply enc (.recordPhaseProgress claim continuation actor now) = .ok s') :
    s.claimCurrent now claim = true ∧ ∃ progress,
      nextPhaseProgress s claim.workItem.id continuation = .ok progress ∧
      s' = ({ s with
        workItems := setProgress claim.workItem.id progress s.workItems } : Store).insertEvent
        claim.attempt.goalId "attempt.phase_progressed" actor := by
  obtain ⟨⟨progress, s₁⟩, hx, rfl⟩ := map_eq_ok.mp h
  obtain ⟨hc, hp, he⟩ := recordPhaseProgressTx_ok hx
  exact ⟨hc, progress, hp, he⟩

end Xiaomaolv
