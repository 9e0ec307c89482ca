import Xiaomaolv.Loop.Replay
import Xiaomaolv.Loop.Rest

/-!
# From a commit to the end of its attempt

A committed checkpoint is reconciled by the `finish_attempt` of its holder, or by the recovery of
anybody.

* `Store.records`: the store without its audit trail.
* `Named`: approved goals have valid ids; `recoverGoalState_commits`: so recovery does not fail on them.
* **`crash_before_finish_invisible`**: recovery in place of `finish_attempt` leaves the same records.
-/

namespace Xiaomaolv

open Table LoopStore

/-- The store without its audit trail. -/
def Store.records (s : Store) : Store := { s with events := [] }

/-! ## A crash before the finish -/

section Crash

variable {s s' : Store} {goalId actor : String} {now : Int}

theorem records_recovered : (recovered goalId actor now s).records
    = (((lapseAll goalId now (reconcileAll goalId s)).unlockReady goalId).refreshGoalStatus
        goalId).records := by
  unfold recovered
  dsimp only
  split <;> rfl

theorem records_resumeAfter {message : String} (h : recoverGoalState goalId actor now s = .ok s') :
    (resumeAfter goalId actor message now s).2.records = s'.records := by
  have hresume : (resumeGoal goalId actor now s).2.records = s'.records := by
    rw [resumeGoal_store h]
    split
    · obtain ⟨events, he⟩ : ∃ events, recordResumed goalId actor s' = { s' with events } :=
        recordResumed_eq actor
      rw [he]
      rfl
    · rfl
  unfold resumeAfter
  cases hr : resumeGoal goalId actor now s with
  | mk r s₁ =>
    rw [hr] at hresume
    cases r with
    | error e =>
      rw [bind_of_error hr]
      exact hresume
    | ok report =>
      rw [bind_of_ok hr]
      exact hresume

/-- The goals that have been approved have valid ids. -/
def Named (s : Store) : Prop := ∀ a ∈ s.approvals, ensureValidId a.goalId "goal id" = .ok ()

theorem named_exec {enc : Encoding} {t : Txn} (h : Named s) : Named (exec enc s t) := by
  refine exec_keeps h fun s' ht a ha => ?_
  by_cases hplan : t.isPlanning = false
  · rw [(plans_apply ht hplan).2] at ha
    exact h a ha
  cases t with
  | planGoal =>
    obtain ⟨goal, -, -, -, -, rfl⟩ := planGoal_ok ht
    exact h a ha
  | approveGoal goalId request externalWrite internalPolicy actor approvalId workId =>
    have hvalid : ensureValidId goalId "goal id" = .ok () := by
      have hx : approveGoal goalId request externalWrite internalPolicy actor approvalId workId s
        = .ok s' := ht
      unfold approveGoal at hx
      simp only [bind_eq_ok] at hx
      obtain ⟨_, -, _, hid, -⟩ := hx
      exact hid
    obtain ⟨goal, plan, workItems, new, dependencies, -, -, -, -, -, -, -, -, -, rfl⟩ := approveGoal_ok ht
    rcases List.mem_append.mp ha with ha | ha
    · exact h a ha
    · rw [List.mem_singleton.mp ha]
      exact hvalid
  | _ => exact absurd rfl hplan

theorem named_run (enc : Encoding) (ts : List Txn) : Named (Machine.run (exec enc) .empty ts) :=
  Machine.run_invariant' (fun _ _ h => named_exec h) (by simp [Named, Store.empty])

theorem Named.item (hn : Named s) (hg : Gated s) {w : WorkItemRow} (hw : w ∈ s.workItems) :
    ensureValidId w.goalId "goal id" = .ok () := by
  obtain ⟨p, -, -, hpg, ⟨a, ha, hag, -⟩, -⟩ := hg.items w hw
  rw [← hpg, ← hag]
  exact hn a ha

theorem recoverGoalState_commits (hw : WellFormed s) (hg : Gated s) (hn : Named s) {w : WorkItemRow}
    (hwm : w ∈ s.workItems) (actor : String) (now : Int) :
    recoverGoalState w.goalId actor now s = .ok (recovered w.goalId actor now s) := by
  obtain ⟨g, hgm, hid⟩ := hw.itemGoal w hwm
  unfold recoverGoalState
  rw [hn.item hg hwm]
  exact if_pos (List.any_eq_true.mpr ⟨g, hgm, decide_eq_true hid⟩)

variable {claim : WorkClaim} {checkpointId : String} {c : CheckpointRow}

/-- What `finish_attempt` writes in its transaction. -/
def finished (claim : WorkClaim) (c : CheckpointRow) (actor : String) (s : Store) : Store :=
  (((s.reconcile c).unlockReady claim.attempt.goalId).refreshGoalStatus
    claim.attempt.goalId).insertEvent claim.attempt.goalId "attempt.finished" actor

theorem finishAttemptTx_commits (hactor : validateActor actor = .ok ())
    (hcur : s.ensureClaimCurrent now claim = .ok ()) (hc : s.checkpoint? checkpointId = some c)
    (hattempt : c.attemptId = claim.attempt.id) (hphase : c.phase = .committed) :
    finishAttemptTx claim checkpointId actor now s = .ok (finished claim c actor s) := by
  unfold finishAttemptTx
  simp only [bind_eq_ok, context_eq_ok, ensure_eq_ok, pure_eq_ok]
  exact ⟨(), hactor, (), hcur, c, hc, (), decide_eq_true ⟨hattempt, hphase⟩, rfl⟩

theorem claimCurrent_checkpoint (hw : WellFormed s) (hcur : s.claimCurrent now claim = true)
    (hc : c ∈ s.checkpoints) (hattempt : c.attemptId = claim.attempt.id) :
    c.workItemId = claim.workItem.id ∧ c.goalId = claim.attempt.goalId ∧
      ∃ w ∈ s.workItems, w.id = claim.workItem.id ∧ w.goalId = claim.attempt.goalId := by
  obtain ⟨w, hwm, a, ham, hwi, hwg, -, -, -, -, haw, hai, -⟩ := claimCurrent_iff.mp hcur
  obtain ⟨hitem, hgoal⟩ := hw.attempt_item hc ham (hai.trans hattempt.symm)
  obtain ⟨w', hwm', hwi', hwg'⟩ := hw.attemptItem a ham
  have heq : w' = w := hw.item_eq hwm' hwm (hwi'.trans haw)
  refine ⟨hitem.symm.trans (haw.trans hwi), ?_, w, hwm, hwi, hwg⟩
  rw [← hgoal, ← hwg', heq, hwg]

theorem committedCheckpoints_eq_singleton (hw : WellFormed s) (hc : c ∈ s.checkpoints)
    (hgoal : c.goalId = goalId) (hphase : c.phase = .committed)
    (hother : ∀ x ∈ s.checkpoints, x.goalId = goalId → x.phase = .committed → x.id = c.id) :
    committedCheckpoints goalId s = [c] := by
  have hall : ∀ x ∈ committedCheckpoints goalId s, x = c := by
    intro x hx
    obtain ⟨hxm, hxg, hxp⟩ := mem_committedCheckpoints.mp hx
    exact hw.checkpoint_eq hxm hc (hother x hxm hxg hxp)
  have hmem : c ∈ committedCheckpoints goalId s := mem_committedCheckpoints.mpr ⟨hc, hgoal, hphase⟩
  have hnodup := nodup_committedCheckpoints hw goalId
  rw [List.eq_replicate_of_mem hall] at hmem hnodup ⊢
  rw [List.map_replicate, List.nodup_replicate] at hnodup
  have hpos := List.length_pos_of_mem hmem
  rw [List.length_replicate] at hpos
  rw [Nat.le_antisymm hnodup hpos]
  rfl

theorem leased_reconcile (h : ∀ w ∈ s.workItems, w.goalId = goalId → w.id ≠ c.workItemId →
      w.status = .running → leaseExpired now w = false) :
    ∀ w ∈ (s.reconcile c).workItems, w.goalId = goalId → w.status = .running →
      leaseExpired now w = false := by
  intro w hw hgoal hrun
  obtain ⟨w₀, hw₀, rfl⟩ := mem_updateWhere.mp hw
  by_cases hp : w₀.id = c.workItemId ∧ w₀.status = .running
  · rw [if_pos (decide_eq_true hp)] at hrun
    cases hrun
  · rw [if_neg (by simpa using hp)] at hgoal hrun ⊢
    exact h w₀ hw₀ hgoal (fun hid => hp ⟨hid, hrun⟩) hrun

end Crash

/-- **A crash between commit and finish is invisible.** After every run, for a current claim whose
checkpoint is the only committed one of its goal, with no other lease of the goal expired: the
transaction of `finish_attempt`, the whole of it with its resume, and a recovery by anybody in its
place leave the same records, whatever the other items and their dependencies. -/
theorem crash_before_finish_invisible (enc : Encoding) (ts : List Txn) (claim : WorkClaim)
    (checkpointId actor operator : String) (now later clock : Int) {c : CheckpointRow}
    (hactor : validateActor actor = .ok ())
    (hcur : (Machine.run (exec enc) .empty ts).ensureClaimCurrent now claim = .ok ())
    (hc : (Machine.run (exec enc) .empty ts).checkpoint? checkpointId = some c)
    (hattempt : c.attemptId = claim.attempt.id) (hphase : c.phase = .committed)
    (hother : ∀ x ∈ (Machine.run (exec enc) .empty ts).checkpoints,
      x.goalId = claim.attempt.goalId → x.phase = .committed → x.id = c.id)
    (hleases : ∀ w ∈ (Machine.run (exec enc) .empty ts).workItems,
      w.goalId = claim.attempt.goalId → w.id ≠ claim.workItem.id → w.status = .running →
      leaseExpired later w = false ∧ leaseExpired clock w = false) :
    ∃ s₁ s₂, finishAttemptTx claim checkpointId actor now (Machine.run (exec enc) .empty ts) = .ok s₁ ∧
      recoverGoalState claim.attempt.goalId operator clock (Machine.run (exec enc) .empty ts) = .ok s₂ ∧
      s₁.records = s₂.records ∧
      (finishAttempt claim checkpointId actor now later (Machine.run (exec enc) .empty ts)).2.records
        = s₂.records := by
  obtain ⟨hw, hg⟩ := gated_run enc ts
  have hn := named_run enc ts
  generalize Machine.run (exec enc) .empty ts = s at *
  obtain ⟨hcm, hcid⟩ := checkpoint?_eq_some hc
  obtain ⟨hitem, hgoal, w, hwm, -, hwg⟩ :=
    claimCurrent_checkpoint hw (ensureClaimCurrent_eq_ok.mp hcur).2 hcm hattempt
  have hone := committedCheckpoints_eq_singleton hw hcm hgoal hphase hother
  have hreconciled : reconcileAll claim.attempt.goalId s = s.reconcile c := by rw [reconcileAll, hone]; rfl
  have hnone : ∀ x ∈ (s.reconcile c).checkpoints, x.goalId = claim.attempt.goalId →
      x.phase ≠ .committed := hreconciled ▸ reconcileAll_committed
  -- The claim's own item no longer runs once its checkpoint is reconciled.
  have hleased : ∀ t, t = later ∨ t = clock → ∀ x ∈ (s.reconcile c).workItems,
      x.goalId = claim.attempt.goalId → x.status = .running → leaseExpired t x = false := by
    intro t ht
    refine leased_reconcile fun x hx hxg hne hrun => ?_
    have hlease := hleases x hx hxg (fun hid => hne (hid.trans hitem.symm)) hrun
    rcases ht with rfl | rfl
    · exact hlease.1
    · exact hlease.2
  have hfinish := finishAttemptTx_commits hactor hcur hc hattempt hphase
  have hrecover : recoverGoalState claim.attempt.goalId operator clock s
      = .ok (recovered claim.attempt.goalId operator clock s) :=
    hwg ▸ recoverGoalState_commits hw hg hn hwm operator clock
  have hrecords : (recovered claim.attempt.goalId operator clock s).records
      = (finished claim c actor s).records := by
    rw [records_recovered, hreconciled, lapseAll, expiredRows_eq_nil (hleased clock (.inr rfl))]
    rfl
  have hrest : AtRest claim.attempt.goalId later (finished claim c actor s) :=
    (atRest_refreshed hnone (hleased later (.inl rfl))).withEvents _
  have hresumed : recoverGoalState claim.attempt.goalId actor later (finished claim c actor s)
      = .ok (finished claim c actor s) := by
    have hexec : exec enc s (.finishAttempt claim checkpointId actor now) = finished claim c actor s :=
      exec_of_ok hfinish
    obtain ⟨w', hw', horigin⟩ := item_exec enc (.finishAttempt claim checkpointId actor now) hwm
    have hwg' : w'.goalId = claim.attempt.goalId := (congrArg WorkItemRow.goalId horigin).trans hwg
    have hresume := recoverGoalState_commits (wellFormed_exec _ hw) (gated_exec hw _ hg)
      (named_exec hn) hw' actor later
    rw [hexec, hwg', recovered_atRest hrest] at hresume
    exact hresume
  refine ⟨_, _, hfinish, hrecover, hrecords.symm, ?_⟩
  unfold finishAttempt
  rw [bind_of_ok (commit_of_ok hfinish), records_resumeAfter hresumed, hrecords]

namespace Sample

/-- The first step of `chain` commits; the second waits for it. -/
def chainCommitted : List Txn :=
  admission chain ++ [.claimWork "goal" none "w1" 300 "runtime:w1" "lease1" "attempt1" 0,
    .prepareCheckpoint (firstClaim "lease1" "attempt1") "first:attempt1:v1" true "runtime:w1"
      "checkpoint1" 1,
    .commitCheckpoint (firstClaim "lease1" "attempt1") "checkpoint1" outcome "runtime:w1" 2]

def committedCheckpoint : CheckpointRow where
  id := "checkpoint1"
  goalId := "goal"
  workItemId := "first"
  attemptId := "attempt1"
  phase := .committed
  idempotencyKey := "first:attempt1:v1"
  replaySafe := true
  outcome := some outcome

end Sample

theorem crash_before_finish_invisible_chain :
    ∃ s₁ s₂, finishAttemptTx (Sample.firstClaim "lease1" "attempt1") "checkpoint1" "runtime:w1" 3
        (Machine.run (exec Sample.encoding) .empty Sample.chainCommitted) = .ok s₁ ∧
      recoverGoalState "goal" "janitor" 5
        (Machine.run (exec Sample.encoding) .empty Sample.chainCommitted) = .ok s₂ ∧
      s₁.records = s₂.records ∧
      (finishAttempt (Sample.firstClaim "lease1" "attempt1") "checkpoint1" "runtime:w1" 3 4
        (Machine.run (exec Sample.encoding) .empty Sample.chainCommitted)).2.records = s₂.records :=
  crash_before_finish_invisible Sample.encoding Sample.chainCommitted
    (Sample.firstClaim "lease1" "attempt1") "checkpoint1" "runtime:w1" "janitor" 3 4 5 rfl
    (ensureClaimCurrent_eq_ok.mpr (by decide +kernel)) (c := Sample.committedCheckpoint)
    (by decide +kernel) rfl rfl (by decide +kernel) (by decide +kernel)

end Xiaomaolv
