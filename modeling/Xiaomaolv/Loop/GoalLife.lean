import Xiaomaolv.Loop.WellFormed

/-!
# The life of a goal

* `GoalEvent`: what a transaction does to a goal; `GoalRow.Step`: from which statuses, and what the
  row becomes.
* `Txn.Governs`: the transactions that do it; **`goal_apply`**: what a transaction leaves of a goal.
* `Store.charter`: the tables that work on items does not touch.
* **`mandate_apply`**: plans, approvals and budgets are written by the transactions on them only; `plans_apply`.
-/

namespace Xiaomaolv

open Table LoopStore

/-! ## Events of a goal -/

inductive GoalEvent where
  | plan | approve | cancel | pause | unpause | reject | replan | expire | achieve | claim
  | refresh (status : GoalStatus)
  deriving DecidableEq

namespace GoalEvent

/-- The statuses in which the event happens. -/
def allowed : GoalEvent → GoalStatus → Bool
  | plan, st => st = .proposed || st = .replan
  | approve, st => st = .reviewReady
  | cancel, st => isCancelable st
  | pause, st => isPausable st
  | unpause, st => st = .paused
  | reject, st => isRejectable st
  | replan, st => isReplannable st
  | expire, st => st = .approved || st = .active || st = .blocked || st = .verifying
  | achieve, st => st = .verifying
  | claim, st => st = .approved
  | refresh next, st =>
    Store.isRefreshable st && (next = .verifying || next = .failed || next = .active)

/-- The status that the event leaves. -/
def status : GoalEvent → GoalStatus
  | plan => .reviewReady
  | approve => .approved
  | cancel => .canceled
  | pause => .paused
  | unpause | claim => .active
  | reject => .rejected
  | replan => .replan
  | expire => .failed
  | achieve => .achieved
  | refresh next => next

/-- The revision that the event leaves. -/
def revision (g : GoalRow) : GoalEvent → Nat
  | plan | approve | achieve => g.revision + 1
  | refresh next => if g.status ≠ next then g.revision + 1 else g.revision
  | _ => g.revision

end GoalEvent

/-- The event happens to the goal `g` and makes it `g'`. -/
structure GoalRow.Step (g : GoalRow) (e : GoalEvent) (g' : GoalRow) : Prop where
  allowed : e.allowed g.status = true
  eq : g' = { g with status := e.status, revision := e.revision g }

theorem GoalRow.Step.revision_le_succ {g g' : GoalRow} {e : GoalEvent} (h : g.Step e g') :
    g'.revision ≤ g.revision + 1 := by
  rw [h.eq]
  show e.revision g ≤ g.revision + 1
  cases e with
  | refresh next =>
    simp only [GoalEvent.revision]
    split_ifs
    · omega
    · omega
  | _ => simp only [GoalEvent.revision]; omega

theorem GoalRow.Step.revision_le {g g' : GoalRow} {e : GoalEvent} (h : g.Step e g') :
    g.revision ≤ g'.revision := by
  rw [h.eq]
  show g.revision ≤ e.revision g
  cases e with
  | refresh next =>
    simp only [GoalEvent.revision]
    split_ifs
    · omega
    · omega
  | _ => simp only [GoalEvent.revision]; omega

/-- The transaction that leaves `s'` does the event to the goal. -/
def Txn.Governs (s' : Store) (goalId : String) (e : GoalEvent) : Txn → Prop
  | .planGoal id .. => id = goalId ∧ e = .plan
  | .approveGoal id .. => id = goalId ∧ e = .approve
  | .cancelGoal id .. => id = goalId ∧ e = .cancel
  | .pauseGoal id .. => id = goalId ∧ e = .pause
  | .unpauseGoal id .. => id = goalId ∧ e = .unpause
  | .rejectGoal id .. => id = goalId ∧ e = .reject
  | .markGoalForReplan id .. => id = goalId ∧ e = .replan
  | .expireOverdueGoals .. => e = .expire
  | .verifyGoal id _ => id = goalId ∧ e = .achieve
  | .claimWork id .. => id = goalId ∧ e = .claim
  | .extendWorkflow id .. | .recoverGoalState id .. | .resolveWaitingConfirmation id .. =>
    id = goalId ∧ ∃ st, e = .refresh st ∧ s'.nextGoalStatus goalId = some st
  | .finishAttempt claim .. | .failAttempt claim .. =>
    claim.attempt.goalId = goalId ∧ ∃ st, e = .refresh st ∧ s'.nextGoalStatus goalId = some st
  | _ => False

/-! ## Tables that work does not touch -/

/-- The goals with their plans, their approvals and what verification reads beside the outcomes. -/
structure Charter where
  goals : List GoalRow
  workflows : List WorkflowRow
  approvals : List ApprovalRow
  manualVerifications : List ManualVerificationRow
  artifacts : List ArtifactRow
  selfTestRuns : List SelfTestRunRow

def Store.charter (s : Store) : Charter :=
  ⟨s.goals, s.workflows, s.approvals, s.manualVerifications, s.artifacts, s.selfTestRuns⟩

section

variable (s : Store) (goalId : String)

@[simp] theorem charter_unlockReady : (s.unlockReady goalId).charter = s.charter := rfl

@[simp] theorem charter_reconcile (c : CheckpointRow) : (s.reconcile c).charter = s.charter := rfl

@[simp] theorem charter_lapse (now : Int) (row : ExpiredRow) : (lapse now s row).charter = s.charter :=
  rfl

@[simp] theorem charter_reconcileAll : (reconcileAll goalId s).charter = s.charter :=
  foldl_frame (I := fun _ => True) (fun _ _ _ => trivial) trivial fun c _ s _ => charter_reconcile s c

@[simp] theorem charter_lapseAll (now : Int) : (lapseAll goalId now s).charter = s.charter :=
  foldl_frame (I := fun _ => True) (fun _ _ _ => trivial) trivial fun row _ s _ => charter_lapse s now row

@[simp] theorem charter_failed (claim : WorkClaim) (row : WorkItemRow) (error : String) (retry : Bool)
    (now : Int) : (failed claim row error retry now s).charter = s.charter := by
  unfold failed
  split_ifs <;> rfl

end

/-! ## What a transaction leaves of a goal -/

/-- The goal row stays as it is, or an event that the transaction does happens to it. -/
def GoalRow.Moves (t : Txn) (s' : Store) (g g' : GoalRow) : Prop :=
  g' = g ∨ ∃ e, t.Governs s' g.id e ∧ g.Step e g'

section

variable {enc : Encoding} {s s' : Store} {t : Txn} {goalId : String} {g' : GoalRow}

/-- A goal row of `s'` was stored before and moved. -/
def MovedFrom (s : Store) (t : Txn) (s' : Store) (g' : GoalRow) : Prop :=
  ∃ g ∈ s.goals, g.id = g'.id ∧ g.Moves t s' g'

theorem movedFrom_stay (hgoals : s'.goals = s.goals) (hg' : g' ∈ s'.goals) : MovedFrom s t s' g' :=
  ⟨g', hgoals ▸ hg', rfl, .inl rfl⟩

theorem movedFrom_update {p : GoalRow → Bool} {f : GoalRow → GoalRow}
    (hgoals : s'.goals = updateWhere p f s.goals) (hid : ∀ g, (f g).id = g.id)
    (h : ∀ g ∈ s.goals, p g = true → ∃ e, t.Governs s' g.id e ∧ g.Step e (f g))
    (hg' : g' ∈ s'.goals) : MovedFrom s t s' g' := by
  rw [hgoals] at hg'
  obtain ⟨g, hg, rfl⟩ := mem_updateWhere.mp hg'
  split_ifs with hp
  · exact ⟨g, hg, (hid g).symm, .inr (h g hg hp)⟩
  · exact ⟨g, hg, rfl, .inl rfl⟩

theorem movedFrom_goal (hw : WellFormed s) {goal : GoalRow} {f : GoalRow → GoalRow}
    (hgoal : s.goal? goalId = some goal)
    (hgoals : s'.goals = updateWhere (fun g => g.id = goalId) f s.goals) (hid : ∀ g, (f g).id = g.id)
    {e : GoalEvent} (he : t.Governs s' goalId e) (hstep : goal.Step e (f goal))
    (hg' : g' ∈ s'.goals) : MovedFrom s t s' g' := by
  obtain ⟨hm, rfl⟩ := goal?_eq_some hgoal
  refine movedFrom_update hgoals hid (fun g hg hp => ?_) hg'
  rw [eq_of_key_eq hw.goalIds hg hm (by simpa using hp)]
  exact ⟨e, he, hstep⟩

theorem goals_refresh (s : Store) (goalId : String) {st : GoalStatus}
    (h : s.nextGoalStatus goalId = some st) : (s.refreshGoalStatus goalId).goals
      = updateWhere (fun g => g.id = goalId ∧ Store.isRefreshable g.status)
        (fun g => { g with
          status := st, revision := if g.status ≠ st then g.revision + 1 else g.revision })
        s.goals := by
  rw [Store.refreshGoalStatus, h]

theorem nextGoalStatus_refresh (s : Store) (goalId id : String) :
    (s.refreshGoalStatus goalId).nextGoalStatus id = s.nextGoalStatus id := by
  unfold Store.refreshGoalStatus
  split <;> rfl

theorem nextGoalStatus_mem {s : Store} {st : GoalStatus} (h : s.nextGoalStatus goalId = some st) :
    st = .verifying ∨ st = .failed ∨ st = .active := by
  unfold Store.nextGoalStatus at h
  dsimp only at h
  split_ifs at h
  · exact .inl (Option.some.inj h).symm
  · exact .inr (.inl (Option.some.inj h).symm)
  · exact .inr (.inr (Option.some.inj h).symm)

theorem movedFrom_refresh (s₁ : Store) (goalId : String) (hgoals : s₁.goals = s.goals)
    (hrefresh : s'.goals = (s₁.refreshGoalStatus goalId).goals)
    (hnext : s'.nextGoalStatus goalId = s₁.nextGoalStatus goalId)
    (he : ∀ st, s'.nextGoalStatus goalId = some st → t.Governs s' goalId (.refresh st))
    (hg' : g' ∈ s'.goals) : MovedFrom s t s' g' := by
  cases h : s₁.nextGoalStatus goalId with
  | none =>
    have hsame : (s₁.refreshGoalStatus goalId).goals = s₁.goals := by rw [Store.refreshGoalStatus, h]
    exact movedFrom_stay (hrefresh.trans (hsame.trans hgoals)) hg'
  | some st =>
    rw [goals_refresh s₁ goalId h, hgoals] at hrefresh
    refine movedFrom_update hrefresh (fun _ => rfl) (fun g hg hp => ?_) hg'
    simp only [decide_eq_true_eq] at hp
    obtain ⟨rfl, hst⟩ := hp
    refine ⟨.refresh st, he st (hnext.trans h), ?_, rfl⟩
    rw [GoalEvent.allowed, hst, Bool.true_and]
    rcases nextGoalStatus_mem h with rfl | rfl | rfl <;> rfl

theorem goals_expire (rows : List GoalRow) (s : Store) : (rows.foldl expireGoal s).goals
    = updateWhere (fun g => rows.any fun r => r.id = g.id) (fun g => { g with status := .failed })
      s.goals := by
  induction rows generalizing s with
  | nil => simp [updateWhere]
  | cons r rows ih =>
    rw [List.foldl_cons, ih]
    simp only [expireGoal, Store.insertEvent, Store.setGoalStatus, updateWhere, List.map_map]
    refine List.map_congr_left fun g _ => ?_
    by_cases hr : r.id = g.id
    · simp [hr]
    · simp [hr, Ne.symm hr]

theorem movedFrom_expire (hw : WellFormed s) {limit : Nat} {now : Int}
    (hg' : g' ∈ (expireOverdueGoals limit now s).goals) :
    MovedFrom s (.expireOverdueGoals limit now) s' g' := by
  rw [expireOverdueGoals, goals_expire] at hg'
  obtain ⟨g, hg, rfl⟩ := mem_updateWhere.mp hg'
  split_ifs with hp
  · obtain ⟨r, hr, hid⟩ := List.any_eq_true.mp hp
    obtain ⟨hrm, hover⟩ := List.mem_filter.mp (List.mem_of_mem_take hr)
    have heq : r = g := eq_of_key_eq hw.goalIds hrm hg (by simpa using hid)
    rw [heq, isOverdue, Bool.and_eq_true, Bool.and_eq_true, decide_eq_true_eq] at hover
    refine ⟨g, hg, rfl, .inr ⟨.expire, rfl, ?_, rfl⟩⟩
    simpa [GoalEvent.allowed, or_assoc] using hover.1.1
  · exact ⟨g, hg, rfl, .inl rfl⟩

theorem charter_recovered (s : Store) (goalId actor : String) (now : Int) :
    (recovered goalId actor now s).goals
      = (((lapseAll goalId now (reconcileAll goalId s)).unlockReady goalId).refreshGoalStatus
          goalId).goals ∧
    (recovered goalId actor now s).nextGoalStatus goalId
      = ((lapseAll goalId now (reconcileAll goalId s)).unlockReady goalId).nextGoalStatus goalId := by
  unfold recovered
  dsimp only
  split
  · exact ⟨rfl, nextGoalStatus_refresh _ _ _⟩
  · exact ⟨rfl, nextGoalStatus_refresh _ _ _⟩

/-- **What a transaction leaves of a goal**: a row that was stored and moved, or a new proposal. -/
theorem goal_apply (hw : WellFormed s) (ht : s.apply enc t = .ok s') (hg' : g' ∈ s'.goals) :
    MovedFrom s t s' g' ∨
      ((∀ g ∈ s.goals, g.id ≠ g'.id) ∧ g'.status = .proposed ∧ g'.revision = 1) := by
  cases t with
  | createGoal request actor id =>
    rcases createGoal_ok ht with rfl | ⟨g, hfresh, rfl, hst, rfl⟩
    · exact .inl (movedFrom_stay rfl hg')
    · rcases List.mem_append.mp hg' with hg' | hg'
      · exact .inl ⟨g', hg', rfl, .inl rfl⟩
      · cases List.mem_singleton.mp hg'
        exact .inr ⟨hfresh, hst⟩
  | planGoal goalId request externalWrite actor planId =>
    obtain ⟨goal, hg, hst, -, -, rfl⟩ := planGoal_ok ht
    refine .inl (movedFrom_goal (e := .plan) hw hg rfl (fun _ => rfl) ⟨rfl, rfl⟩ ⟨?_, rfl⟩ hg')
    simpa [GoalEvent.allowed] using hst
  | approveGoal goalId request externalWrite internalPolicy actor approvalId workId =>
    obtain ⟨goal, plan, workItems, new, dependencies, hg, hst, -, -, -, -, -, -, -, rfl⟩ :=
      approveGoal_ok ht
    refine .inl (movedFrom_goal (e := .approve) hw hg rfl (fun _ => rfl) ⟨rfl, rfl⟩ ⟨?_, rfl⟩ hg')
    simpa [GoalEvent.allowed] using hst
  | extendWorkflow goalId steps externalWrite actor workId =>
    obtain ⟨goal, plan, workItems, new, dependencies, -, -, -, -, -, -, -, -, -, rfl⟩ :=
      extendWorkflow_ok ht
    let s₁ : Store := { s with workItems, dependencies }.insertEvent goalId "workflow.extended" actor
    exact .inl (movedFrom_refresh s₁ goalId rfl rfl (nextGoalStatus_refresh _ _ _)
      (fun st h => ⟨rfl, st, rfl, h⟩) hg')
  | cancelGoal goalId reason actor =>
    obtain ⟨goal, error, hg, hst, rfl⟩ := cancelGoal_ok ht
    exact .inl (movedFrom_goal (e := .cancel) hw hg rfl (fun _ => rfl) ⟨rfl, rfl⟩ ⟨hst, rfl⟩ hg')
  | pauseGoal goalId reason actor =>
    obtain ⟨goal, hg, hst, rfl⟩ := pauseGoal_ok ht
    exact .inl (movedFrom_goal (e := .pause) hw hg rfl (fun _ => rfl) ⟨rfl, rfl⟩ ⟨hst, rfl⟩ hg')
  | unpauseGoal goalId actor =>
    obtain ⟨goal, hg, hst, rfl⟩ := unpauseGoal_ok ht
    refine .inl (movedFrom_goal (e := .unpause) hw hg rfl (fun _ => rfl) ⟨rfl, rfl⟩ ⟨?_, rfl⟩ hg')
    simpa [GoalEvent.allowed] using hst
  | rejectGoal goalId reason actor =>
    obtain ⟨goal, hg, hst, rfl⟩ := rejectGoal_ok ht
    exact .inl (movedFrom_goal (e := .reject) hw hg rfl (fun _ => rfl) ⟨rfl, rfl⟩ ⟨hst, rfl⟩ hg')
  | markGoalForReplan goalId reason actor =>
    obtain ⟨goal, error, hg, hst, rfl⟩ := markGoalForReplan_ok ht
    exact .inl (movedFrom_goal (e := .replan) hw hg rfl (fun _ => rfl) ⟨rfl, rfl⟩ ⟨hst, rfl⟩ hg')
  | expireOverdueGoals limit now =>
    cases ht
    exact .inl (movedFrom_expire hw hg')
  | verifyGoal goalId actor =>
    rcases verifyGoal_ok ht with rfl | ⟨goal, plan, -, -, -, ⟨-, rfl⟩ | ⟨-, rfl⟩⟩
    · exact .inl (movedFrom_stay rfl hg')
    · refine .inl (movedFrom_update rfl (fun _ => rfl) (fun g _ hp => ?_) hg')
      simp only [decide_eq_true_eq] at hp
      exact ⟨.achieve, ⟨hp.1.symm, rfl⟩, by simpa [GoalEvent.allowed] using hp.2, rfl⟩
    · exact .inl (movedFrom_stay rfl hg')
  | recordManualVerification goalId label actor =>
    rcases recordManualVerification_ok ht with rfl | rfl <;> exact .inl (movedFrom_stay rfl hg')
  | publishArtifact id kind =>
    cases publishArtifact_ok ht
    exact .inl (movedFrom_stay rfl hg')
  | recordSelfTestRun id suite passed =>
    cases recordSelfTestRun_ok ht
    exact .inl (movedFrom_stay rfl hg')
  | reserveProviderCall goalId now =>
    obtain ⟨budgets, rfl⟩ := reserveProviderCall_ok ht
    exact .inl (movedFrom_stay rfl hg')
  | recordProviderResponseBytes goalId responseBytes =>
    obtain ⟨budgets, rfl⟩ := recordProviderResponseBytes_ok ht
    exact .inl (movedFrom_stay rfl hg')
  | recoverGoalState goalId actor now =>
    rcases recoverGoalState_ok ht with ⟨-, rfl⟩ | ⟨-, rfl⟩
    · obtain ⟨hgoals, hnext⟩ := charter_recovered s goalId actor now
      refine .inl (movedFrom_refresh _ goalId ?_ hgoals hnext (fun st h => ⟨rfl, st, rfl, h⟩) hg')
      exact congrArg Charter.goals ((charter_unlockReady _ goalId).trans
        ((charter_lapseAll _ goalId now).trans (charter_reconcileAll s goalId)))
    · exact .inl (movedFrom_stay rfl hg')
  | recordResumed goalId actor =>
    cases ht
    refine .inl (movedFrom_stay ?_ hg')
    unfold recordResumed
    split <;> rfl
  | requeueBlockedItems goalId reasonPrefix handlers actor =>
    rcases requeueBlockedItems_ok ht with rfl | ⟨events, rfl⟩ <;>
      exact .inl (movedFrom_stay rfl hg')
  | resolveWaitingConfirmation goalId workItemId resolution reason actor now =>
    obtain ⟨item, attempt, checkpoint, -, -, -, -, -, rfl⟩ := resolveWaitingConfirmation_ok ht
    let s₁ := (applyVerdict item attempt checkpoint resolution (trim reason) now s).unlockReady goalId
    exact .inl (movedFrom_refresh s₁ goalId rfl rfl (nextGoalStatus_refresh _ _ _)
      (fun st h => ⟨rfl, st, rfl, h⟩) hg')
  | claimWork goalId stepId workerId leaseSecs actor leaseToken attemptId now =>
    rcases claimWork_ok ht with rfl | ⟨goal, row, -, -, -, -, rfl⟩
    · exact .inl (movedFrom_stay rfl hg')
    · refine .inl (movedFrom_update rfl (fun _ => rfl) (fun g _ hp => ?_) hg')
      simp only [decide_eq_true_eq] at hp
      exact ⟨.claim, ⟨hp.1.symm, rfl⟩, by simpa [GoalEvent.allowed] using hp.2, rfl⟩
  | prepareCheckpoint claim idempotencyKey replaySafe actor checkpointId now =>
    obtain ⟨checkpoint, ht⟩ := prepareCheckpoint_ok ht
    obtain ⟨-, -, -, -, -, rfl | ⟨-, -, -, -, -, rfl⟩⟩ := prepareCheckpointTx_ok ht <;>
      exact .inl (movedFrom_stay rfl hg')
  | renewClaim claim leaseSecs now =>
    obtain ⟨-, rfl⟩ := renewClaimTx_ok ht
    exact .inl (movedFrom_stay rfl hg')
  | commitCheckpoint claim checkpointId outcome actor now =>
    obtain ⟨-, current, -, -, ⟨-, -, rfl⟩ | ⟨-, rfl⟩⟩ := commitCheckpointTx_ok ht <;>
      exact .inl (movedFrom_stay rfl hg')
  | finishAttempt claim checkpointId actor now =>
    obtain ⟨-, checkpoint, -, -, -, rfl⟩ := finishAttemptTx_ok ht
    let s₁ := (s.reconcile checkpoint).unlockReady claim.attempt.goalId
    exact .inl (movedFrom_refresh s₁ claim.attempt.goalId rfl rfl (nextGoalStatus_refresh _ _ _)
      (fun st h => ⟨rfl, st, rfl, h⟩) hg')
  | failAttempt claim error retryable actor now =>
    obtain ⟨-, row, -, rfl⟩ := failAttemptTx_ok ht
    exact .inl (movedFrom_refresh _ claim.attempt.goalId
      (congrArg Charter.goals (charter_failed s claim row _ _ now)) rfl
      (nextGoalStatus_refresh _ _ _) (fun st h => ⟨rfl, st, rfl, h⟩) hg')
  | blockWorkItem claim reason actor now =>
    obtain ⟨-, rfl⟩ := blockWorkItemTx_ok ht
    exact .inl (movedFrom_stay rfl hg')
  | deferAttempt claim untilUnix actor now =>
    obtain ⟨-, rfl⟩ := deferAttemptTx_ok ht
    exact .inl (movedFrom_stay rfl hg')
  | recordPhaseProgress claim continuation actor now =>
    obtain ⟨-, progress, -, rfl⟩ := recordPhaseProgress_ok ht
    exact .inl (movedFrom_stay rfl hg')
  | continueAttempt claim continuation actor started now =>
    obtain ⟨-, progress, -, rfl⟩ := continueAttemptTx_ok ht
    exact .inl (movedFrom_stay rfl hg')

theorem goalIds_kept (ht : s.apply enc t = .ok s')
    (hcreate : ∀ request actor id, t ≠ .createGoal request actor id) :
    s'.goals.map (·.id) = s.goals.map (·.id) := by
  by_cases hins : t.inserts = false
  · exact congrArg Origin.goals (origin_apply ht hins)
  cases t with
  | createGoal request actor id => exact absurd rfl (hcreate request actor id)
  | approveGoal goalId request externalWrite internalPolicy actor approvalId workId =>
    obtain ⟨goal, plan, workItems, new, dependencies, -, -, -, -, -, -, -, -, -, rfl⟩ :=
      approveGoal_ok ht
    simp [Store.insertEvent, map_updateWhere]
  | extendWorkflow goalId steps externalWrite actor workId =>
    obtain ⟨goal, plan, workItems, new, dependencies, -, -, -, -, -, -, -, -, -, rfl⟩ :=
      extendWorkflow_ok ht
    exact congrArg Origin.goals (origin_refreshGoalStatus (({ s with
      workItems, dependencies } : Store).insertEvent goalId "workflow.extended" actor) goalId)
  | claimWork goalId stepId workerId leaseSecs actor leaseToken attemptId now =>
    rcases claimWork_ok ht with rfl | ⟨goal, row, -, -, -, -, rfl⟩
    · rfl
    · simp [claimed, Store.insertEvent, map_updateWhere]
  | prepareCheckpoint claim idempotencyKey replaySafe actor checkpointId now =>
    obtain ⟨checkpoint, ht⟩ := prepareCheckpoint_ok ht
    obtain ⟨-, -, -, -, -, rfl | ⟨-, -, -, -, -, rfl⟩⟩ := prepareCheckpointTx_ok ht <;> rfl
  | _ => exact absurd rfl hins

theorem goalIds_apply (ht : s.apply enc t = .ok s') :
    s.goals.map (·.id) <+: s'.goals.map (·.id) := by
  by_cases hcreate : ∃ request actor id, t = .createGoal request actor id
  · obtain ⟨request, actor, id, rfl⟩ := hcreate
    rcases createGoal_ok ht with rfl | ⟨g, -, -, -, rfl⟩
    · exact List.prefix_rfl
    · simp [Store.insertEvent]
  · exact prefix_of_eq (goalIds_kept ht fun request actor id h => hcreate ⟨request, actor, id, h⟩).symm

theorem goal_kept (hw : WellFormed s) (ht : s.apply enc t = .ok s') {g : GoalRow} (hg : g ∈ s.goals) :
    ∃ g' ∈ s'.goals, g'.id = g.id ∧ g.Moves t s' g' := by
  obtain ⟨g', hg', hid⟩ := List.mem_map.mp ((goalIds_apply ht).subset (List.mem_map_of_mem hg))
  rcases goal_apply hw ht hg' with ⟨g₀, hg₀, hid₀, hmove⟩ | ⟨hfresh, -⟩
  · rw [eq_of_key_eq hw.goalIds hg₀ hg (hid₀.trans hid)] at hmove
    exact ⟨g', hg', hid, hmove⟩
  · exact absurd hid.symm (hfresh g hg)

theorem GoalRow.Moves.revision_le {g : GoalRow} (h : g.Moves t s' g') : g.revision ≤ g'.revision := by
  rcases h with rfl | ⟨e, -, hstep⟩
  · exact Nat.le_refl _
  · exact hstep.revision_le

/-! ## Plans and approvals -/

/-- The transactions that write plans and approvals. -/
def Txn.isPlanning : Txn → Bool
  | .planGoal .. | .approveGoal .. => true
  | _ => false

/-- The plans, their approvals and the budgets. -/
structure Mandate where
  workflows : List WorkflowRow
  approvals : List ApprovalRow
  budgets : List BudgetUsageRow

def Store.mandate (s : Store) : Mandate := ⟨s.workflows, s.approvals, s.budgets⟩

/-- The transactions that write plans, approvals and budgets. -/
def Txn.writesMandate : Txn → Bool
  | .planGoal .. | .approveGoal .. | .reserveProviderCall .. | .recordProviderResponseBytes .. => true
  | _ => false

@[simp] theorem mandate_refresh (s : Store) (goalId : String) :
    (s.refreshGoalStatus goalId).mandate = s.mandate := by
  unfold Store.refreshGoalStatus
  split <;> rfl

@[simp] theorem mandate_unlockReady (s : Store) (goalId : String) : (s.unlockReady goalId).mandate = s.mandate :=
  rfl

@[simp] theorem mandate_reconcileAll (s : Store) (goalId : String) :
    (reconcileAll goalId s).mandate = s.mandate :=
  foldl_frame (I := fun _ => True) (fun _ _ _ => trivial) trivial fun _ _ _ _ => rfl

@[simp] theorem mandate_lapseAll (s : Store) (goalId : String) (now : Int) :
    (lapseAll goalId now s).mandate = s.mandate :=
  foldl_frame (I := fun _ => True) (fun _ _ _ => trivial) trivial fun _ _ _ _ => rfl

theorem mandate_expire (limit : Nat) (now : Int) (s : Store) :
    (expireOverdueGoals limit now s).mandate = s.mandate :=
  foldl_frame (I := fun _ => True) (fun _ _ _ => trivial) trivial fun _ _ _ _ => rfl

theorem mandate_failed (s : Store) (claim : WorkClaim) (row : WorkItemRow) (error : String) (retry : Bool)
    (now : Int) : (failed claim row error retry now s).mandate = s.mandate := by
  unfold failed
  split_ifs <;> rfl

/-- **The mandate is written by planning, by approval and by the budget operations only.** -/
theorem mandate_apply (ht : s.apply enc t = .ok s') (hp : t.writesMandate = false) :
    s'.mandate = s.mandate := by
  cases t with
  | planGoal | approveGoal | reserveProviderCall | recordProviderResponseBytes => cases hp
  | createGoal request actor id =>
    rcases createGoal_ok ht with rfl | ⟨g, -, -, -, rfl⟩ <;> rfl
  | extendWorkflow goalId steps externalWrite actor workId =>
    obtain ⟨goal, plan, workItems, new, dependencies, -, -, -, -, -, -, -, -, -, rfl⟩ :=
      extendWorkflow_ok ht
    exact mandate_refresh _ goalId
  | cancelGoal goalId reason actor =>
    obtain ⟨goal, error, -, -, rfl⟩ := cancelGoal_ok ht
    rfl
  | pauseGoal goalId reason actor =>
    obtain ⟨goal, -, -, rfl⟩ := pauseGoal_ok ht
    rfl
  | unpauseGoal goalId actor =>
    obtain ⟨goal, -, -, rfl⟩ := unpauseGoal_ok ht
    rfl
  | rejectGoal goalId reason actor =>
    obtain ⟨goal, -, -, rfl⟩ := rejectGoal_ok ht
    rfl
  | markGoalForReplan goalId reason actor =>
    obtain ⟨goal, error, -, -, rfl⟩ := markGoalForReplan_ok ht
    rfl
  | expireOverdueGoals limit now =>
    cases ht
    exact mandate_expire limit now s
  | verifyGoal goalId actor =>
    rcases verifyGoal_ok ht with rfl | ⟨goal, plan, -, -, -, ⟨-, rfl⟩ | ⟨-, rfl⟩⟩ <;>
      rfl
  | recordManualVerification goalId label actor =>
    rcases recordManualVerification_ok ht with rfl | rfl <;> rfl
  | publishArtifact id kind =>
    cases publishArtifact_ok ht
    rfl
  | recordSelfTestRun id suite passed =>
    cases recordSelfTestRun_ok ht
    rfl
  | recoverGoalState goalId actor now =>
    rcases recoverGoalState_ok ht with ⟨-, rfl⟩ | ⟨-, rfl⟩
    · unfold recovered
      dsimp only
      have h : (((lapseAll goalId now (reconcileAll goalId s)).unlockReady goalId).refreshGoalStatus
          goalId).mandate = s.mandate := by simp
      split <;> exact h
    · rfl
  | recordResumed goalId actor =>
    cases ht
    unfold recordResumed
    split <;> rfl
  | requeueBlockedItems goalId reasonPrefix handlers actor =>
    rcases requeueBlockedItems_ok ht with rfl | ⟨events, rfl⟩ <;> rfl
  | resolveWaitingConfirmation goalId workItemId resolution reason actor now =>
    obtain ⟨item, attempt, checkpoint, -, -, -, -, -, rfl⟩ := resolveWaitingConfirmation_ok ht
    exact mandate_refresh _ goalId
  | claimWork goalId stepId workerId leaseSecs actor leaseToken attemptId now =>
    rcases claimWork_ok ht with rfl | ⟨goal, row, -, -, -, -, rfl⟩ <;> rfl
  | prepareCheckpoint claim idempotencyKey replaySafe actor checkpointId now =>
    obtain ⟨checkpoint, ht⟩ := prepareCheckpoint_ok ht
    obtain ⟨-, -, -, -, -, rfl | ⟨-, -, -, -, -, rfl⟩⟩ := prepareCheckpointTx_ok ht <;>
      rfl
  | renewClaim claim leaseSecs now =>
    obtain ⟨-, rfl⟩ := renewClaimTx_ok ht
    rfl
  | commitCheckpoint claim checkpointId outcome actor now =>
    obtain ⟨-, current, -, -, ⟨-, -, rfl⟩ | ⟨-, rfl⟩⟩ := commitCheckpointTx_ok ht <;>
      rfl
  | finishAttempt claim checkpointId actor now =>
    obtain ⟨-, checkpoint, -, -, -, rfl⟩ := finishAttemptTx_ok ht
    exact mandate_refresh _ claim.attempt.goalId
  | failAttempt claim error retryable actor now =>
    obtain ⟨-, row, -, rfl⟩ := failAttemptTx_ok ht
    exact (mandate_refresh _ claim.attempt.goalId).trans (mandate_failed s claim row _ _ now)
  | blockWorkItem claim reason actor now =>
    obtain ⟨-, rfl⟩ := blockWorkItemTx_ok ht
    rfl
  | deferAttempt claim untilUnix actor now =>
    obtain ⟨-, rfl⟩ := deferAttemptTx_ok ht
    rfl
  | recordPhaseProgress claim continuation actor now =>
    obtain ⟨-, progress, -, rfl⟩ := recordPhaseProgress_ok ht
    rfl
  | continueAttempt claim continuation actor started now =>
    obtain ⟨-, progress, -, rfl⟩ := continueAttemptTx_ok ht
    rfl


theorem plans_apply (ht : s.apply enc t = .ok s') (hp : t.isPlanning = false) :
    s'.workflows = s.workflows ∧ s'.approvals = s.approvals := by
  by_cases hmandate : t.writesMandate = false
  · have h := mandate_apply ht hmandate
    exact ⟨congrArg Mandate.workflows h, congrArg Mandate.approvals h⟩
  cases t with
  | planGoal | approveGoal => cases hp
  | reserveProviderCall goalId now =>
    obtain ⟨budgets, rfl⟩ := reserveProviderCall_ok ht
    exact ⟨rfl, rfl⟩
  | recordProviderResponseBytes goalId responseBytes =>
    obtain ⟨budgets, rfl⟩ := recordProviderResponseBytes_ok ht
    exact ⟨rfl, rfl⟩
  | _ => exact absurd rfl hmandate

end

end Xiaomaolv
