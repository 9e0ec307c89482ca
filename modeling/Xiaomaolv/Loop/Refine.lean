import Xiaomaolv.Loop.Lives

/-!
# Transactions move lives along their events

* `Txn.Emits`: the events that a transaction may cause to an item.
* **`life_apply`**: a transaction moves every stored item along a path of events it emits.
* `life_born`: an item that a transaction creates starts a new life.
-/

namespace Xiaomaolv

open Table LoopStore

/-- Some checkpoint of the attempt is committed and not yet reconciled. -/
def Store.hasCommitted (s : Store) (attemptId : String) : Bool :=
  s.checkpoints.any fun c => c.attemptId = attemptId ∧ c.phase = .committed

/-- The status a failure leaves the item of a claim in. -/
def failStatus (s : Store) (claim : WorkClaim) (retryable : Bool) : WorkItemStatus :=
  if (s.workItem? claim.workItem.id).any fun row => willRetry s row retryable then .ready
  else .failed

/-- The events that a transaction may cause to the item `w`. -/
def Txn.Emits (s : Store) (t : Txn) (w : WorkItemRow) (e : Life.Event) : Prop :=
  match t with
  | .cancelGoal goalId .. => w.goalId = goalId ∧ e = .close .failed
  | .markGoalForReplan goalId .. => w.goalId = goalId ∧ e = .close .canceled
  | .recoverGoalState goalId _ now =>
    w.goalId = goalId ∧ (e = .unlock ∨ e = .lapse now ∨ ∃ c, e = .reconcile c)
  | .requeueBlockedItems goalId .. => w.goalId = goalId ∧ e = .requeue
  | .resolveWaitingConfirmation goalId workItemId resolution .. =>
    w.goalId = goalId ∧ (e = .unlock ∨ (w.id = workItemId ∧ e = .verdict resolution))
  | .claimWork goalId _ _ _ _ _ attemptId _ => w.goalId = goalId ∧ e = .claim attemptId
  | .prepareCheckpoint claim _ _ _ checkpointId _ =>
    w.id = claim.workItem.id ∧ e = .prepare checkpointId
  | .renewClaim claim .. => w.id = claim.workItem.id ∧ e = .renew
  | .commitCheckpoint claim checkpointId .. =>
    w.id = claim.workItem.id ∧ e = .commit claim.attempt.id checkpointId
  | .finishAttempt claim checkpointId .. =>
    w.goalId = claim.attempt.goalId ∧
      (e = .unlock ∨ (w.id = claim.workItem.id ∧ e = .reconcile checkpointId))
  | .failAttempt claim _ retryable .. =>
    e = .block ∨ (w.id = claim.workItem.id ∧
      e = .release claim.attempt.id (failStatus s claim retryable) (s.hasCommitted claim.attempt.id))
  | .blockWorkItem claim .. =>
    w.id = claim.workItem.id ∧
      e = .release claim.attempt.id .blocked (s.hasCommitted claim.attempt.id)
  | .deferAttempt claim .. | .continueAttempt claim .. =>
    w.id = claim.workItem.id ∧
      e = .release claim.attempt.id .ready (s.hasCommitted claim.attempt.id)
  | .recordPhaseProgress claim .. => w.id = claim.workItem.id ∧ e = .progress
  | _ => False

/-- The item moves along events that `t` emits; one that is unlocked has no open predecessor. -/
def Moves (s : Store) (t : Txn) (s' : Store) (id : String) (l : Life) : Prop :=
  ∃ es l', s'.life? id = some l' ∧ Life.Path l es l' ∧ (∀ e ∈ es, t.Emits s l.item e) ∧
    (.unlock ∈ es → s'.hasOpenPredecessor id = false)

variable {enc : Encoding} {s s' : Store} {t : Txn} {id goalId actor : String} {l : Life} {now : Int}
  {claim : WorkClaim}

theorem Moves.stay (h : s'.life? id = some l) : Moves s t s' id l :=
  ⟨[], l, h, .nil l, by simp, by simp⟩

theorem Moves.one {l' : Life} {e : Life.Event} (h : s'.life? id = some l')
    (hstep : Life.Step l e l') (hemits : t.Emits s l.item e) (hne : e ≠ .unlock) :
    Moves s t s' id l :=
  ⟨[e], l', h, .single hstep, by simpa using hemits, by simp [Ne.symm hne]⟩

/-! ## Unlocks -/

theorem hasOpenPredecessor_congr (hi : s'.workItems = s.workItems)
    (hd : s'.dependencies = s.dependencies) : s'.hasOpenPredecessor id = s.hasOpenPredecessor id := by
  unfold Store.hasOpenPredecessor
  rw [hi, hd]

theorem hasOpenPredecessor_unlockReady :
    (s.unlockReady goalId).hasOpenPredecessor id = s.hasOpenPredecessor id := by
  unfold Store.hasOpenPredecessor
  congr 1
  funext d
  congr 1
  simp only [Store.unlockReady, updateWhere, List.any_map]
  congr 1
  funext p
  simp only [Function.comp_apply]
  split
  · rename_i hp
    simp only [Store.isUnlockable, Bool.and_eq_true, decide_eq_true_eq] at hp
    simp [hp.1.2]
  · rfl

/-- A transaction that ends with `unlock_ready_work_tx` and `refresh_goal_status_tx`. -/
theorem moves_unlockReady {s₁ : Store} {l₁ : Life} (es : List Life.Event)
    {eventType : String} (h : s₁.life? id = some l₁)
    (hpath : Life.Path l es l₁) (hes : ∀ e ∈ es, t.Emits s l.item e) (hlock : .unlock ∉ es)
    (hunlock : s₁.isUnlockable goalId l₁.item = true → t.Emits s l.item .unlock)
    (hs : s' = (((s₁.unlockReady goalId).refreshGoalStatus goalId).insertEvent goalId eventType actor)
      ∨ s' = (s₁.unlockReady goalId).refreshGoalStatus goalId) :
    Moves s t s' id l := by
  have hlife : s'.life? id =
      some (if s₁.isUnlockable goalId l₁.item then l₁.withStatus .ready else l₁) := by
    have hu := life_unlockReady h goalId
    rcases hs with rfl | rfl <;> simpa using hu
  have hpred : s'.hasOpenPredecessor id = s₁.hasOpenPredecessor id := by
    have hr : ((s₁.unlockReady goalId).refreshGoalStatus goalId).hasOpenPredecessor id
        = s₁.hasOpenPredecessor id := by
      rw [hasOpenPredecessor_congr (refreshGoalStatus_tables goalId).1
          (refreshGoalStatus_tables goalId).2.2.2,
        hasOpenPredecessor_unlockReady]
    rcases hs with rfl | rfl <;> exact hr
  by_cases hp : s₁.isUnlockable goalId l₁.item = true
  · rw [if_pos hp] at hlife
    have hp' := hp
    simp only [Store.isUnlockable, Bool.and_eq_true, decide_eq_true_eq, Bool.not_eq_true'] at hp'
    refine ⟨es ++ [.unlock], _, hlife, hpath.append (.single (.unlock hp'.1.2)), ?_, fun _ => ?_⟩
    · intro e he
      rcases List.mem_append.mp he with he | he
      · exact hes e he
      · cases List.mem_singleton.mp he
        exact hunlock hp
    · rw [hpred, ← (life_item h).2]
      exact hp'.2
  · rw [if_neg hp] at hlife
    exact ⟨es, l₁, hlife, hpath, hes, fun hu => absurd hu hlock⟩

/-! ## Each transaction -/

section Transactions

variable (hw : WellFormed s) (h : s.life? id = some l)

include hw h

theorem moves_recovered :
    Moves s (.recoverGoalState goalId actor now) (recovered goalId actor now s) id l := by
  obtain ⟨es, l₁, h₁, hpath, hes⟩ := life_reconcileAll hw h goalId
  have hw₁ : WellFormed (reconcileAll goalId s) :=
    wellFormed_of_origin (origin_reconcileAll s goalId) hw
  have h₂ := life_lapseAll hw₁ h₁ goalId now
  have hgoal : l₁.item.goalId = l.item.goalId := hpath.goalId
  have hemits : ∀ e ∈ es, Txn.Emits s (.recoverGoalState goalId actor now) l.item e :=
    fun e he => ⟨(hes e he).1, .inr (.inr (hes e he).2)⟩
  have hlock : .unlock ∉ es := by
    intro hu
    obtain ⟨-, c, hc⟩ := hes _ hu
    cases hc
  have hs : recovered goalId actor now s =
      (((lapseAll goalId now (reconcileAll goalId s)).unlockReady goalId).refreshGoalStatus
        goalId).insertEvent goalId "goal.recovered" actor ∨ recovered goalId actor now s =
      ((lapseAll goalId now (reconcileAll goalId s)).unlockReady goalId).refreshGoalStatus goalId := by
    unfold recovered
    dsimp only
    split
    · exact .inl rfl
    · exact .inr rfl
  by_cases he : l₁.item.goalId = goalId ∧ l₁.item.status = .running ∧
      leaseExpired now l₁.item = true
  · rw [if_pos he] at h₂
    have hcommitted : ∀ c ∈ l₁.checkpoints, c.phase ≠ .committed := fun c hc =>
      reconcileAll_committed c ((mem_life_checkpoints h₁).mp hc).1
        ((hw₁.life_checkpoint h₁ hc).1.trans he.1)
    refine moves_unlockReady (es ++ [.lapse now]) h₂ (hpath.append (.single (.lapse now he.2.1 he.2.2 hcommitted))) ?_ ?_
      (fun _ => ⟨hgoal.symm.trans he.1, .inl rfl⟩) hs
    · intro e hmem
      rcases List.mem_append.mp hmem with hmem | hmem
      · exact hemits e hmem
      · cases List.mem_singleton.mp hmem
        exact ⟨hgoal.symm.trans he.1, .inr (.inl rfl)⟩
    · simpa using hlock
  · rw [if_neg he] at h₂
    refine moves_unlockReady es h₂ hpath hemits hlock (fun hp => ⟨?_, .inl rfl⟩) hs
    simp only [Store.isUnlockable, Bool.and_eq_true, decide_eq_true_eq] at hp
    exact hgoal.symm.trans hp.1.1

/-- Closing the items of a goal closes the item if it is one of them. -/
theorem moves_close {error attemptError eventType : String} {kept : List WorkItemStatus}
    {status : WorkItemStatus} {goalStatus : GoalStatus}
    (hkept : ∀ st, st ∈ kept ↔ st ∈ [.succeeded, .failed, status])
    (hstatus : status = .failed ∨ status = .canceled)
    (hemits : l.item.goalId = goalId → t.Emits s l.item (.close status)) :
    Moves s t ((({ s with
      attempts := abandonAttempts goalId attemptError s.attempts
      workItems := closeItems goalId error kept status s.workItems
      } : Store).setGoalStatus goalId goalStatus).insertEvent goalId eventType actor) id l := by
  have hu : ((({ s with
      attempts := abandonAttempts goalId attemptError s.attempts
      workItems := closeItems goalId error kept status s.workItems
      } : Store).setGoalStatus goalId goalStatus).insertEvent goalId eventType actor).life? id = _ :=
    life?_updateAttempts rfl rfl rfl (fun _ => rfl) fun _ => rfl
  rw [h, Option.map_some] at hu
  by_cases hg : l.item.goalId = goalId
  · have hattempts : updateWhere (fun a : AttemptRow => decide (a.goalId = goalId ∧ a.status.isOpen))
        (fun a => { a with status := .abandoned, error := some attemptError }) l.attempts
        = (l.close error attemptError status).attempts := by
      refine updateWhere_congr fun a ha => ?_
      simp [(hw.life_goal h ha).trans hg]
    have hitem : (if decide (l.item.goalId = goalId ∧ l.item.status ∉ kept) = true then
        { l.item with
          status, leaseToken := none, leaseUntil := none, nextAttemptAt := none,
          lastError := some error }
        else l.item) = (l.close error attemptError status).item := by
      simp only [Life.close, hg, true_and, decide_eq_true_eq, hkept]
      by_cases hk : l.item.status ∈ [.succeeded, .failed, status]
      · rw [if_neg (not_not_intro hk), if_pos hk]
      · rw [if_pos hk, if_neg hk]
    rw [hattempts, hitem] at hu
    exact .one hu (.close error attemptError status hstatus) (hemits hg) (by simp)
  · rw [if_neg (by simp [hg]), updateWhere_eq_self] at hu
    · exact .stay hu
    · intro a ha
      simp [hw.life_goal h ha, hg]

omit hw in
theorem moves_requeue {reasonPrefix : String} {handlers : List String} {events : List EventRow} :
    Moves s (.requeueBlockedItems goalId reasonPrefix handlers actor)
      { s with
        workItems := updateWhere (isRequeueable goalId reasonPrefix handlers)
          (fun w => { w with status := .ready, nextAttemptAt := none, lastError := none })
          s.workItems
        events } id l := by
  have hu : (({ s with
      workItems := updateWhere (isRequeueable goalId reasonPrefix handlers)
        (fun w => { w with status := .ready, nextAttemptAt := none, lastError := none }) s.workItems
      events } : Store)).life? id = _ := life?_updateItems rfl rfl rfl fun _ => rfl
  rw [h, Option.map_some] at hu
  by_cases hp : isRequeueable goalId reasonPrefix handlers l.item = true
  · rw [if_pos hp] at hu
    simp only [isRequeueable, Bool.and_eq_true, decide_eq_true_eq, Option.any_eq_true] at hp
    obtain ⟨⟨⟨hg, hst⟩, error, he, -⟩, -⟩ := hp
    exact .one hu (.requeue hst (by simp [he])) ⟨hg, rfl⟩ (by simp)
  · rw [if_neg hp] at hu
    exact .stay hu

theorem moves_resolve {workItemId reason : String} {resolution : ConfirmationResolution}
    {item : WorkItemRow} {attempt : AttemptRow} {checkpoint : CheckpointRow}
    (hi : s.workItems.find? (fun w => w.id = workItemId ∧ w.goalId = goalId) = some item)
    (hst : item.status = .waitingConfirmation)
    (ha : pickBy (fun a b : AttemptRow => b.attemptNumber ≤ a.attemptNumber)
      (s.attempts.filter fun a => a.workItemId = workItemId ∧ a.status = .waitingConfirmation)
      = some attempt)
    (hc : (s.checkpoints.filter fun c => c.attemptId = attempt.id ∧ c.phase = .prepared).getLast?
      = some checkpoint) :
    Moves s (.resolveWaitingConfirmation goalId workItemId resolution reason actor now)
      ((((applyVerdict item attempt checkpoint resolution (trim reason) now s).unlockReady
        goalId).refreshGoalStatus goalId).insertEvent goalId "confirmation.resolved" actor) id l := by
  have hitem := List.find?_some hi
  have ham := List.mem_filter.mp (pickBy_mem ha)
  have hcm := List.mem_filter.mp (List.mem_of_getLast? hc)
  simp only [decide_eq_true_eq] at hitem ham hcm
  have him : item ∈ s.workItems := List.mem_of_find?_eq_some hi
  have hlid := life_item h
  have hcw : checkpoint.workItemId = workItemId :=
    (hw.attempt_item hcm.1 ham.1 hcm.2.1.symm).1.symm.trans ham.2.1
  -- The parked attempt counts before and after its end.
  have hcount : ({ s with
      checkpoints := settlePrepared checkpoint.id (resolution.settle (trim reason)) s.checkpoints
      attempts := endParked attempt.id resolution.attemptStatus
        (resolution.attemptError (trim reason)) s.attempts } : Store).attemptCount item.id
      = s.attemptCount item.id := by
    have hne : resolution.attemptStatus ≠ .void := by cases resolution <;> decide
    unfold Store.attemptCount endParked
    rw [filter_updateWhere, length_updateWhere]
    intro a hp
    simp only [decide_eq_true_eq] at hp
    simp [hne, hp.2]
  have hsettle : ∀ c, (resolution.settle (trim reason) c).workItemId = c.workItemId := by
    intro c
    cases resolution <;> rfl
  have hu : (applyVerdict item attempt checkpoint resolution (trim reason) now s).life? id = _ :=
    life?_update (s := s) rfl rfl rfl (fun _ => rfl) (fun _ => rfl) hsettle
  rw [h, Option.map_some] at hu
  simp only [hcount] at hu
  by_cases he : item.id = id
  · cases hw.item_eq him hlid.1 (he.trans hlid.2.symm)
    have hattempt : attempt ∈ l.attempts :=
      (mem_life_attempts h).mpr ⟨ham.1, ham.2.1.trans (hitem.1.symm.trans he)⟩
    have hcheckpoint : checkpoint ∈ l.checkpoints :=
      (mem_life_checkpoints h).mpr ⟨hcm.1, hcw.trans (hitem.1.symm.trans he)⟩
    have hbudget : l.item.maxAttempts ≤ s.attemptCount l.item.id ↔
        l.item.maxAttempts ≤ (l.attempts.filter fun a => a.status ≠ .void).length := by
      rw [← attemptCount_life h, hlid.2]
    rw [if_pos (by simp [hst])] at hu
    refine moves_unlockReady [.verdict resolution] hu (.single ?_) ?_ ?_ ?_ (.inl rfl)
    · exact .verdict attempt checkpoint resolution (trim reason)
        (decide (l.item.maxAttempts ≤ s.attemptCount l.item.id)) now hst hattempt ham.2.2 hcheckpoint
        hcm.2.1 hcm.2.2 (by rw [decide_eq_true_eq, hbudget])
    · intro e hmem
      cases List.mem_singleton.mp hmem
      exact ⟨hitem.2, .inr ⟨hitem.1, rfl⟩⟩
    · simp
    · exact fun hp => ⟨hitem.2, .inl rfl⟩
  · rw [if_neg (by simp [hlid.2, Ne.symm he]), updateWhere_eq_self, updateWhere_eq_self] at hu
    · refine moves_unlockReady [] hu (.nil l) (by simp) (by simp) (fun hp => ?_) (.inl rfl)
      simp only [Store.isUnlockable, Bool.and_eq_true, decide_eq_true_eq] at hp
      exact ⟨hp.1.1, .inl rfl⟩
    · intro c hcl
      obtain ⟨hclm, hcli⟩ := (mem_life_checkpoints h).mp hcl
      have hne : c.id ≠ checkpoint.id := fun hcc =>
        he (hitem.1.trans (hcw.symm.trans (hw.checkpoint_eq hclm hcm.1 hcc ▸ hcli)))
      simp [hne]
    · intro a hal
      obtain ⟨halm, hali⟩ := (mem_life_attempts h).mp hal
      have hne : a.id ≠ attempt.id := fun haa =>
        he (hitem.1.trans (ham.2.1.symm.trans (hw.attempt_eq halm ham.1 haa ▸ hali)))
      simp [hne]

/-- A claim moves the item it takes. -/
theorem moves_claimed {stepId : Option String} {workerId leaseToken attemptId : String}
    {leaseSecs : Nat} {row : WorkItemRow} (hrow : claimCandidate? goalId stepId now s = some row)
    (hfresh : ∀ a ∈ s.attempts, a.id ≠ attemptId) :
    Moves s (.claimWork goalId stepId workerId leaseSecs actor leaseToken attemptId now)
      (claimed goalId row workerId leaseSecs actor leaseToken attemptId now s) id l := by
  obtain ⟨hrm, hclaim⟩ := claimCandidate?_mem hrow
  simp only [isClaimable, Bool.and_eq_true, decide_eq_true_eq] at hclaim
  obtain ⟨⟨⟨⟨hg, hst⟩, -⟩, -⟩, hbudget⟩ := hclaim
  have hlid := life_item h
  obtain ⟨hitem, ha, hc⟩ := life?_eq_some.mp h
  have hlife : (claimed goalId row workerId leaseSecs actor leaseToken attemptId now s).life? id
      = some ⟨if l.item.id = row.id ∧ l.item.status = .ready then
            { l.item with
              status := .running, leaseToken := some leaseToken, leaseUntil := some (now + leaseSecs),
              fencingToken := l.item.fencingToken + 1 }
          else l.item,
        l.attempts ++ [newAttempt s row workerId leaseToken attemptId now].filter
          fun a => a.workItemId = id,
        l.checkpoints⟩ := by
    have hf := find?_updateWhere (p := fun w : WorkItemRow => w.id = row.id ∧ w.status = .ready)
      (f := fun w => { w with
        status := .running, leaseToken := some leaseToken, leaseUntil := some (now + leaseSecs),
        fencingToken := w.fencingToken + 1 }) (q := fun w => w.id = id) (fun _ _ => rfl) s.workItems
    unfold Store.life? Store.workItem? claimed Store.insertEvent
    unfold Store.workItem? at hitem
    dsimp only
    rw [hf, hitem, Option.map_some, Option.map_some, List.filter_append, ← ha, ← hc]
    simp only [decide_eq_true_eq]
  by_cases he : row.id = id
  · cases hw.item_eq hrm hlid.1 (he.trans hlid.2.symm)
    rw [if_pos ⟨rfl, hst⟩] at hlife
    rw [List.filter_cons_of_pos (by simp [newAttempt, he])] at hlife
    let a := newAttempt s l.item workerId leaseToken attemptId now
    refine .one hlife (.claim a (now + leaseSecs) hst ?_ rfl rfl ?_ rfl rfl ?_) ⟨hg, rfl⟩ (by simp)
    · rw [← attemptCount_life h, ← he]
      exact hbudget
    · exact fun x hx => hfresh x ((mem_life_attempts h).mp hx).1
    · rw [ha, ← he]
      rfl
  · rw [if_neg (fun h' => he (h'.1.symm.trans hlid.2)),
      List.filter_cons_of_neg (by simp [newAttempt, he]), List.filter_nil, List.append_nil] at hlife
    exact .stay hlife

omit hw in
theorem moves_renew {leaseSecs : Nat} :
    Moves s (.renewClaim claim leaseSecs now)
      { s with
        workItems := updateWhere (isRenewable claim now)
          (fun w => { w with leaseUntil := some (now + leaseSecs) }) s.workItems } id l := by
  have hu : ({ s with
      workItems := updateWhere (isRenewable claim now)
        (fun w => { w with leaseUntil := some (now + leaseSecs) }) s.workItems } : Store).life? id = _ :=
    life?_updateItems rfl rfl rfl fun _ => rfl
  rw [h, Option.map_some] at hu
  by_cases hp : isRenewable claim now l.item = true
  · rw [if_pos hp] at hu
    simp only [isRenewable, Bool.and_eq_true, decide_eq_true_eq] at hp
    exact .one hu (.renew (now + leaseSecs) hp.1.2.1) ⟨hp.1.1, rfl⟩ (by simp)
  · rw [if_neg hp] at hu
    exact .stay hu

omit hw in
theorem life_recorded {progress : WorkPhaseProgress} {eventType : String} :
    (({ s with workItems := setProgress claim.workItem.id progress s.workItems } : Store).insertEvent
      claim.attempt.goalId eventType actor).life? id
      = some (if l.item.id = claim.workItem.id then l.recordProgress progress else l) := by
  have hu : (({ s with
      workItems := setProgress claim.workItem.id progress s.workItems } : Store).insertEvent
        claim.attempt.goalId eventType actor).life? id = _ :=
    life?_updateItems (s := s) rfl rfl rfl fun _ => rfl
  rw [hu, h, Option.map_some]
  by_cases hid : l.item.id = claim.workItem.id
  · simp [hid, Life.recordProgress]
  · simp [hid]

section Holder

variable (hcur : s.claimCurrent now claim = true)

include hcur

theorem moves_progress {progress : WorkPhaseProgress} {continuation : WorkContinuation} :
    Moves s (.recordPhaseProgress claim continuation actor now)
      (({ s with workItems := setProgress claim.workItem.id progress s.workItems } : Store).insertEvent
        claim.attempt.goalId "attempt.phase_progressed" actor) id l := by
  have hlife := @life_recorded s id actor l claim h progress "attempt.phase_progressed"
  by_cases hid : l.item.id = claim.workItem.id
  · obtain ⟨a, hold, -⟩ := claimCurrent_holds hw h hcur (hid.symm.trans (life_item h).2)
    rw [if_pos hid] at hlife
    exact .one hlife (.progress a progress hold) ⟨hid, rfl⟩ (by simp)
  · rw [if_neg hid] at hlife
    exact .stay hlife

theorem moves_prepare {idempotencyKey checkpointId : String} {replaySafe : Bool}
    {checkpoint : CheckpointRow} (hid : checkpoint.id = checkpointId)
    (hitem : checkpoint.workItemId = claim.workItem.id)
    (hattempt : checkpoint.attemptId = claim.attempt.id) (hphase : checkpoint.phase = .prepared)
    (hfresh : ∀ c ∈ s.checkpoints, c.id ≠ checkpointId) :
    Moves s (.prepareCheckpoint claim idempotencyKey replaySafe actor checkpointId now)
      (({ s with checkpoints := s.checkpoints ++ [checkpoint] } : Store).insertEvent
        claim.attempt.goalId "checkpoint.prepared" actor) id l := by
  obtain ⟨hi, ha, hc⟩ := life?_eq_some.mp h
  have hlife : (({ s with checkpoints := s.checkpoints ++ [checkpoint] } : Store).insertEvent
      claim.attempt.goalId "checkpoint.prepared" actor).life? id = some ⟨l.item, l.attempts,
        l.checkpoints ++ [checkpoint].filter fun c => c.workItemId = id⟩ := by
    rw [life?_eq_some]
    exact ⟨hi, ha, by rw [hc, ← List.filter_append]; rfl⟩
  by_cases he : claim.workItem.id = id
  · obtain ⟨a, hold, hai, -⟩ := claimCurrent_holds hw h hcur he
    rw [List.filter_cons_of_pos (by simp [hitem, he])] at hlife
    refine .one hlife (.prepare a checkpoint hold (hattempt.trans hai.symm) ?_ hphase)
      ⟨(life_item h).2.trans he.symm, by rw [hid]⟩ (by simp)
    exact fun x hx => hid ▸ hfresh x ((mem_life_checkpoints h).mp hx).1
  · rw [List.filter_cons_of_neg (by simp [hitem, he]), List.filter_nil, List.append_nil] at hlife
    exact .stay hlife

theorem moves_commit {checkpointId : String} {outcome : WorkOutcome} {current : CheckpointRow}
    (hc : s.checkpoint? checkpointId = some current) (hattempt : current.attemptId = claim.attempt.id)
    (hphase : current.phase = .prepared) :
    Moves s (.commitCheckpoint claim checkpointId outcome actor now)
      (({ s with
        checkpoints := updateWhere
          (fun c => c.id = checkpointId ∧ c.phase = .prepared ∧ c.attemptId = claim.attempt.id)
          (fun c => { c with phase := .committed, outcome := some outcome }) s.checkpoints
        attempts := updateWhere (fun a => a.id = claim.attempt.id ∧ a.status = .running)
          (fun a => { a with status := .committing }) s.attempts
        } : Store).insertEvent claim.attempt.goalId "checkpoint.committed" actor) id l := by
  obtain ⟨hcm, hcid⟩ := checkpoint?_eq_some hc
  obtain ⟨hi, ha, hcl⟩ := life?_eq_some.mp h
  have hlife : (({ s with
      checkpoints := updateWhere
        (fun c => c.id = checkpointId ∧ c.phase = .prepared ∧ c.attemptId = claim.attempt.id)
        (fun c => { c with phase := .committed, outcome := some outcome }) s.checkpoints
      attempts := updateWhere (fun a => a.id = claim.attempt.id ∧ a.status = .running)
        (fun a => { a with status := .committing }) s.attempts
      } : Store).insertEvent claim.attempt.goalId "checkpoint.committed" actor).life? id
      = some (l.commit claim.attempt.id checkpointId outcome) := by
    rw [life?_eq_some]
    refine ⟨hi, ?_, ?_⟩
    · rw [Life.commit, ha]
      refine (filter_updateWhere ?_ _).symm
      exact fun _ _ => rfl
    · rw [Life.commit, hcl]
      refine (filter_updateWhere ?_ _).symm
      exact fun _ _ => rfl
  by_cases he : claim.workItem.id = id
  · obtain ⟨a, hold, hai, -⟩ := claimCurrent_holds hw h hcur he
    have ham := ((mem_life_attempts h).mp hold.mem)
    have hcw : current.workItemId = id :=
      (hw.attempt_item hcm ham.1 (hai.trans hattempt.symm)).1.symm.trans ham.2
    have hstep : Life.Step l (.commit claim.attempt.id checkpointId)
        (l.commit claim.attempt.id checkpointId outcome) := by
      rw [← hai, ← hcid]
      exact .commit a current outcome hold ((mem_life_checkpoints h).mpr ⟨hcm, hcw⟩)
        (hattempt.trans hai.symm) hphase
    exact .one hlife hstep ⟨(life_item h).2.trans he.symm, rfl⟩ (by simp)
  · obtain ⟨hna, hnc⟩ := claimCurrent_frame hw h hcur he
    have hsame : l.commit claim.attempt.id checkpointId outcome = l := by
      rw [Life.commit, updateWhere_eq_self, updateWhere_eq_self]
      · exact fun x hx => by simp [hnc x hx]
      · exact fun x hx => by simp [hna x hx]
    rw [hsame] at hlife
    exact .stay hlife

theorem moves_finish {checkpointId : String} {checkpoint : CheckpointRow}
    (hc : s.checkpoint? checkpointId = some checkpoint)
    (hattempt : checkpoint.attemptId = claim.attempt.id) (hphase : checkpoint.phase = .committed) :
    Moves s (.finishAttempt claim checkpointId actor now)
      ((((s.reconcile checkpoint).unlockReady claim.attempt.goalId).refreshGoalStatus
        claim.attempt.goalId).insertEvent claim.attempt.goalId "attempt.finished" actor) id l := by
  obtain ⟨hcm, hcid⟩ := checkpoint?_eq_some hc
  have hlife := life_reconcile hw h hcm
  obtain ⟨a, ham, hai, haw, -⟩ := hw.checkpointAttempt checkpoint hcm
  have hcw : checkpoint.workItemId = claim.workItem.id :=
    haw.symm.trans (claimCurrent_item hw hcur ham (hai.trans hattempt))
  by_cases he : claim.workItem.id = id
  · obtain ⟨b, hold, -, hg, -⟩ := claimCurrent_holds hw h hcur he
    rw [if_pos (hcw.trans he)] at hlife
    have hcl := (mem_life_checkpoints h).mpr ⟨hcm, hcw.trans he⟩
    refine moves_unlockReady [.reconcile checkpoint.id] hlife
      (.single (.reconcile checkpoint hcl hphase)) ?_ (by simp) (fun _ => ⟨hg, .inl rfl⟩) (.inl rfl)
    intro e hmem
    cases List.mem_singleton.mp hmem
    exact ⟨hg, .inr ⟨(life_item h).2.trans he.symm, by rw [hcid]⟩⟩
  · rw [if_neg (fun hcc => he (hcw.symm.trans hcc))] at hlife
    refine moves_unlockReady [] hlife (.nil l) (by simp) (by simp) (fun hp => ?_) (.inl rfl)
    simp only [Store.isUnlockable, Bool.and_eq_true, decide_eq_true_eq] at hp
    exact ⟨hp.1.1, .inl rfl⟩

omit hcur in
theorem hasCommitted_eq {a : AttemptRow} (hold : l.Holds a) (hai : a.id = claim.attempt.id) :
    s.hasCommitted claim.attempt.id = l.hasCommitted a.id := by
  obtain ⟨ham, haw⟩ := (mem_life_attempts h).mp hold.mem
  rw [Store.hasCommitted, Life.hasCommitted, (life?_eq_some.mp h).2.2, List.any_filter, hai,
    Bool.eq_iff_iff, List.any_eq_true, List.any_eq_true]
  constructor
  · rintro ⟨c, hc, hp⟩
    have hp' := hp
    simp only [decide_eq_true_eq] at hp'
    have hcw := (hw.attempt_item hc ham (hai.trans hp'.1.symm)).1.symm.trans haw
    exact ⟨c, hc, by simpa [hcw] using hp'⟩
  · rintro ⟨c, hc, hp⟩
    simp only [Bool.and_eq_true] at hp
    exact ⟨c, hc, hp.2⟩

/-- Handing an item back moves that item and no other. -/
theorem life_releaseClaim (r : Release) : (releaseClaim claim r s).life? id =
    some (if claim.workItem.id = id then l.release claim.attempt.id r else l) := by
  have hlid := (life_item h).2
  have hu : (releaseClaim claim r s).life? id = some
      ⟨if l.item.id = claim.workItem.id ∧ l.item.status = .running then
          { l.item with
            status := r.status, leaseToken := none, leaseUntil := none,
            nextAttemptAt := r.nextAttemptAt, lastError := r.lastError,
            progress := r.progress <|> l.item.progress }
        else l.item,
        endAttempt claim.attempt.id r.attemptStatus r.attemptError l.attempts,
        if r.voids then voidPrepared claim.attempt.id l.checkpoints else l.checkpoints⟩ := by
    unfold releaseClaim
    split
    · have hx : ({ s with
          checkpoints := voidPrepared claim.attempt.id s.checkpoints
          attempts := endAttempt claim.attempt.id r.attemptStatus r.attemptError s.attempts
          workItems := releaseItem claim.workItem.id r s.workItems } : Store).life? id = _ :=
        life?_update (s := s) rfl rfl rfl (fun _ => rfl) (fun _ => rfl) fun _ => rfl
      rw [hx, h, Option.map_some]
      simp only [decide_eq_true_eq]
      rfl
    · have hx : ({ s with
          checkpoints := s.checkpoints
          attempts := endAttempt claim.attempt.id r.attemptStatus r.attemptError s.attempts
          workItems := releaseItem claim.workItem.id r s.workItems } : Store).life? id = _ :=
        life?_updateAttempts (s := s) rfl rfl rfl (fun _ => rfl) fun _ => rfl
      rw [hx, h, Option.map_some]
      simp only [decide_eq_true_eq]
      rfl
  rw [hu]
  by_cases he : claim.workItem.id = id
  · obtain ⟨a, hold, -⟩ := claimCurrent_holds hw h hcur he
    rw [if_pos ⟨hlid.trans he.symm, hold.running⟩, if_pos he]
    rfl
  · obtain ⟨hna, hnc⟩ := claimCurrent_frame hw h hcur he
    have hends : endAttempt claim.attempt.id r.attemptStatus r.attemptError l.attempts = l.attempts :=
      updateWhere_eq_self fun x hx => by simp [hna x hx]
    have hvoids : voidPrepared claim.attempt.id l.checkpoints = l.checkpoints :=
      updateWhere_eq_self fun x hx => by simp [hnc x hx]
    rw [if_neg (fun h' => he (h'.1.symm.trans hlid)), if_neg he, hends, hvoids, ite_self]

theorem moves_release {r : Release} (hs' : s'.life? id = (releaseClaim claim r s).life? id)
    (hstatus : r.status = .ready ∨ r.status = .blocked ∨ r.status = .failed)
    (hattempt : r.attemptStatus = .failed ∨ r.attemptStatus = .void)
    (hemits : ∀ w : WorkItemRow, w.id = claim.workItem.id →
      t.Emits s w (.release claim.attempt.id r.status (s.hasCommitted claim.attempt.id))) :
    Moves s t s' id l := by
  have hlife := life_releaseClaim hw h hcur r
  rw [← hs'] at hlife
  by_cases he : claim.workItem.id = id
  · obtain ⟨a, hold, hai, -⟩ := claimCurrent_holds hw h hcur he
    rw [if_pos he, ← hai] at hlife
    refine .one hlife (.release a r hold hstatus hattempt) ?_ (by simp)
    have hx := hemits l.item ((life_item h).2.trans he.symm)
    rwa [hasCommitted_eq hw h hold hai, ← hai] at hx
  · rw [if_neg he] at hlife
    exact .stay hlife

/-- A failure hands the item back, and blocks what waits for it when it is final. -/
theorem moves_fail {error : String} {retryable : Bool} {row : WorkItemRow}
    (hrow : s.workItem? claim.workItem.id = some row) :
    Moves s (.failAttempt claim error retryable actor now)
      (((failed claim row error (willRetry s row retryable) now s).refreshGoalStatus
        claim.attempt.goalId).insertEvent claim.attempt.goalId "attempt.failed" actor) id l := by
  have hstatus : failStatus s claim retryable = (failRelease row (willRetry s row retryable)
      (takeChars 2000 error) now).status := by
    simp [failStatus, hrow, failRelease]
  have hready : (failRelease row (willRetry s row retryable) (takeChars 2000 error) now).status
      = .ready ∨ (failRelease row (willRetry s row retryable) (takeChars 2000 error) now).status
      = .blocked ∨ (failRelease row (willRetry s row retryable) (takeChars 2000 error) now).status
      = .failed := by
    unfold failRelease
    cases willRetry s row retryable
    · exact .inr (.inr rfl)
    · exact .inl rfl
  have hreleased : Moves s (.failAttempt claim error retryable actor now)
      (releaseClaim claim (failRelease row (willRetry s row retryable) (takeChars 2000 error) now) s)
      id l :=
    moves_release hw h hcur rfl hready (.inl rfl) fun w hwid => .inr ⟨hwid, by rw [hstatus]⟩
  obtain ⟨es, l₁, h₁, hpath, hemits, hunlock⟩ := hreleased
  have hnot : .unlock ∉ es := by
    intro hu
    rcases hemits _ hu with hx | ⟨-, hx⟩ <;> cases hx
  have hlife : ∀ s₂ : Store, ((s₂.refreshGoalStatus claim.attempt.goalId).insertEvent
      claim.attempt.goalId "attempt.failed" actor).life? id = s₂.life? id := fun s₂ => by simp
  unfold failed
  dsimp only
  split
  · exact ⟨es, l₁, (hlife _).trans h₁, hpath, hemits, fun hu => absurd hu hnot⟩
  · have hb := life_blockDownstream h₁ claim.workItem.id
    split at hb
    · rename_i hp
      simp only [Bool.and_eq_true, Bool.or_eq_true, decide_eq_true_eq] at hp
      refine ⟨es ++ [.block], _, (hlife _).trans hb, hpath.append (.single (.block hp.2)), ?_, ?_⟩
      · intro e he
        rcases List.mem_append.mp he with he | he
        · exact hemits e he
        · cases List.mem_singleton.mp he
          exact .inl rfl
      · intro hu
        simp only [List.mem_append, List.mem_singleton] at hu
        rcases hu with hu | hu
        · exact absurd hu hnot
        · cases hu
    · exact ⟨es, l₁, (hlife _).trans hb, hpath, hemits, fun hu => absurd hu hnot⟩

end Holder

omit hw in
theorem life?_append {new : List WorkItemRow} (hi : s'.workItems = s.workItems ++ new)
    (ha : s'.attempts = s.attempts) (hc : s'.checkpoints = s.checkpoints) :
    s'.life? id = some l := by
  obtain ⟨hitem, hla, hlc⟩ := life?_eq_some.mp h
  rw [life?_eq_some]
  refine ⟨?_, ha ▸ hla, hc ▸ hlc⟩
  unfold Store.workItem? at hitem ⊢
  rw [hi, List.find?_append, hitem]
  rfl

/-- **A transaction moves every stored item along a path of events it emits.** -/
theorem life_apply (ht : s.apply enc t = .ok s') : Moves s t s' id l := by
  cases t with
  | createGoal request actor goalId =>
    rcases createGoal_ok ht with rfl | ⟨g, -, -, -, rfl⟩
    · exact .stay h
    · exact .stay h
  | planGoal goalId request externalWrite actor planId =>
    obtain ⟨goal, -, -, -, -, rfl⟩ := planGoal_ok ht
    exact .stay h
  | approveGoal goalId request externalWrite internalPolicy actor approvalId workId =>
    obtain ⟨goal, plan, workItems, new, dependencies, -, -, -, -, -, -, hitems, -, -, rfl⟩ :=
      approveGoal_ok ht
    exact .stay (life?_append h (materializeItems_ok hitems).1 rfl rfl)
  | extendWorkflow goalId steps externalWrite actor workId =>
    obtain ⟨goal, plan, workItems, new, dependencies, -, -, -, -, -, -, hitems, -, -, rfl⟩ :=
      extendWorkflow_ok ht
    refine .stay ?_
    rw [life?_refreshGoalStatus]
    exact life?_append h (materializeItems_ok hitems).1 rfl rfl
  | cancelGoal goalId reason actor =>
    obtain ⟨goal, error, -, -, rfl⟩ := cancelGoal_ok ht
    exact moves_close hw h (by simp) (.inl rfl) fun hg => ⟨hg, rfl⟩
  | pauseGoal goalId reason actor =>
    obtain ⟨goal, -, -, rfl⟩ := pauseGoal_ok ht
    exact .stay h
  | unpauseGoal goalId actor =>
    obtain ⟨goal, -, -, rfl⟩ := unpauseGoal_ok ht
    exact .stay h
  | rejectGoal goalId reason actor =>
    obtain ⟨goal, -, -, rfl⟩ := rejectGoal_ok ht
    exact .stay h
  | markGoalForReplan goalId reason actor =>
    obtain ⟨goal, error, -, -, rfl⟩ := markGoalForReplan_ok ht
    exact moves_close hw h (by simp) (.inr rfl) fun hg => ⟨hg, rfl⟩
  | expireOverdueGoals limit now =>
    cases ht
    have hkeep : (expireOverdueGoals limit now s).life? id = s.life? id :=
      foldl_frame (I := fun _ => True) (π := fun s : Store => s.life? id) (fun _ _ _ => trivial)
        trivial fun g _ s _ => rfl
    exact .stay (hkeep.trans h)
  | verifyGoal goalId actor =>
    rcases verifyGoal_ok ht with rfl | ⟨goal, plan, -, -, -, ⟨-, rfl⟩ | ⟨-, rfl⟩⟩
    · exact .stay h
    · exact .stay h
    · exact .stay h
  | recordManualVerification goalId label actor =>
    rcases recordManualVerification_ok ht with rfl | rfl
    · exact .stay h
    · exact .stay h
  | publishArtifact artifactId kind =>
    cases publishArtifact_ok ht
    exact .stay h
  | recordSelfTestRun runId suite passed =>
    cases recordSelfTestRun_ok ht
    exact .stay h
  | reserveProviderCall goalId now =>
    obtain ⟨budgets, rfl⟩ := reserveProviderCall_ok ht
    exact .stay h
  | recordProviderResponseBytes goalId responseBytes =>
    obtain ⟨budgets, rfl⟩ := recordProviderResponseBytes_ok ht
    exact .stay h
  | recoverGoalState goalId actor now =>
    rcases recoverGoalState_ok ht with ⟨-, rfl⟩ | ⟨-, rfl⟩
    · exact moves_recovered hw h
    · exact .stay h
  | recordResumed goalId actor =>
    cases ht
    refine .stay ?_
    unfold recordResumed
    split
    · exact h
    · exact h
  | requeueBlockedItems goalId reasonPrefix handlers actor =>
    rcases requeueBlockedItems_ok ht with rfl | ⟨events, rfl⟩
    · exact .stay h
    · exact moves_requeue h
  | resolveWaitingConfirmation goalId workItemId resolution reason actor now =>
    obtain ⟨item, attempt, checkpoint, hi, hst, ha, hc, -, rfl⟩ := resolveWaitingConfirmation_ok ht
    exact moves_resolve hw h hi hst ha hc
  | claimWork goalId stepId workerId leaseSecs actor leaseToken attemptId now =>
    rcases claimWork_ok ht with rfl | ⟨goal, row, -, -, hrow, hfresh, rfl⟩
    · exact .stay h
    · exact moves_claimed hw h hrow hfresh
  | prepareCheckpoint claim idempotencyKey replaySafe actor checkpointId now =>
    obtain ⟨checkpoint, ht⟩ := prepareCheckpoint_ok ht
    obtain ⟨hcur, hatt, hitem, -, -, rfl | ⟨hfresh, hid, -, hphase, -, rfl⟩⟩ :=
      prepareCheckpointTx_ok ht
    · exact .stay h
    · exact moves_prepare hw h hcur hid hitem hatt hphase hfresh
  | renewClaim claim leaseSecs now =>
    obtain ⟨-, rfl⟩ := renewClaimTx_ok ht
    exact moves_renew h
  | commitCheckpoint claim checkpointId outcome actor now =>
    obtain ⟨hcur, current, hc, hatt, ⟨-, -, rfl⟩ | ⟨hphase, rfl⟩⟩ := commitCheckpointTx_ok ht
    · exact .stay h
    · exact moves_commit hw h hcur hc hatt hphase
  | finishAttempt claim checkpointId actor now =>
    obtain ⟨hcur, checkpoint, hc, hatt, hphase, rfl⟩ := finishAttemptTx_ok ht
    exact moves_finish hw h hcur hc hatt hphase
  | failAttempt claim error retryable actor now =>
    obtain ⟨hcur, row, hrow, rfl⟩ := failAttemptTx_ok ht
    exact moves_fail hw h hcur hrow
  | blockWorkItem claim reason actor now =>
    obtain ⟨hcur, rfl⟩ := blockWorkItemTx_ok ht
    exact moves_release hw h hcur (r := blockRelease (takeChars 2000 reason)) rfl (.inr (.inl rfl))
      (.inr rfl) fun w hwid => ⟨hwid, rfl⟩
  | deferAttempt claim untilUnix actor now =>
    obtain ⟨hcur, rfl⟩ := deferAttemptTx_ok ht
    exact moves_release hw h hcur (r := deferRelease untilUnix) rfl (.inl rfl) (.inr rfl)
      fun w hwid => ⟨hwid, rfl⟩
  | recordPhaseProgress claim continuation actor now =>
    obtain ⟨hcur, progress, -, rfl⟩ := recordPhaseProgress_ok ht
    exact moves_progress hw h hcur
  | continueAttempt claim continuation actor started now =>
    obtain ⟨hcur, progress, -, rfl⟩ := continueAttemptTx_ok ht
    exact moves_release hw h hcur (r := continueRelease continuation progress started) rfl (.inl rfl)
      (.inr rfl) fun w hwid => ⟨hwid, rfl⟩

end Transactions

/-! ## New items -/

/-- What a transaction adds: nothing, or a batch of fresh items, pending where they depend on
others. -/
inductive Created (s s' : Store) : Prop
  | none (hi : s'.workItems.map (·.origin) = s.workItems.map (·.origin))
      (hd : s'.dependencies = s.dependencies)
  | batch (new : List WorkItemRow) (ds : List DependencyRow) (hi : s'.workItems = s.workItems ++ new)
      (hd : s'.dependencies = s.dependencies ++ ds) (ha : s'.attempts = s.attempts)
      (hc : s'.checkpoints = s.checkpoints) (hnew : ∀ w ∈ new, w.IsFresh)
      (hds : ∀ d ∈ ds, ∃ w ∈ new, w.id = d.workItemId ∧ w.status = .pending)

theorem approvedItem_fresh {plan : WorkflowRow} {workId : Nat → String} {n : Nat}
    {step : WorkflowStep} : (approvedItem goalId plan workId n step).IsFresh := by
  refine ⟨?_, rfl, rfl, rfl, rfl⟩
  unfold approvedItem
  dsimp only
  split
  · exact .inl rfl
  · exact .inr rfl

theorem extendedItem_fresh {workflowId : String} {workId : Nat → String} {base n : Nat}
    {step : WorkflowStep} : (extendedItem goalId workflowId workId base n step).IsFresh := by
  refine ⟨?_, rfl, rfl, rfl, rfl⟩
  unfold extendedItem
  dsimp only
  split
  · exact .inr rfl
  · exact .inl rfl

theorem created_apply (ht : s.apply enc t = .ok s') : Created s s' := by
  by_cases hins : t.inserts = false
  · have ho := origin_apply ht hins
    simp only [Store.origin, Origin.mk.injEq] at ho
    exact .none ho.2.1 ho.2.2.2.2
  cases t with
  | createGoal request actor id =>
    rcases createGoal_ok ht with rfl | ⟨g, -, -, -, rfl⟩ <;> exact .none rfl rfl
  | approveGoal goalId request externalWrite internalPolicy actor approvalId workId =>
    obtain ⟨goal, plan, workItems, new, dependencies, -, -, -, -, -, -, hitems, hnew, hdeps, rfl⟩ :=
      approveGoal_ok ht
    refine .batch _ new (materializeItems_ok hitems).1 (insertDependencies_ok hdeps) rfl rfl
      (fun w hwm => ?_) fun d hd => ?_
    · obtain ⟨i, step, -, rfl⟩ := mem_newItems.mp hwm
      exact approvedItem_fresh
    · obtain ⟨edge, hedge, hb, -⟩ := mem_edgeDependencies hnew hd
      obtain ⟨i, step, hi, hstep, hid⟩ := batchId?_eq_some hb
      refine ⟨_, mem_newItems.mpr ⟨i, step, hi, rfl⟩, by simp [approvedItem, hid], if_pos ?_⟩
      exact List.any_eq_true.mpr ⟨edge, hedge, by simpa using hstep.symm⟩
  | extendWorkflow goalId steps externalWrite actor workId =>
    obtain ⟨goal, plan, workItems, new, dependencies, -, -, -, -, -, -, hitems, hnew, hdeps, rfl⟩ :=
      extendWorkflow_ok ht
    have htables := refreshGoalStatus_tables goalId (s := ({ s with
      workItems, dependencies } : Store).insertEvent goalId "workflow.extended" actor)
    refine .batch _ new (htables.1.trans (materializeItems_ok hitems).1)
      (htables.2.2.2.trans (insertDependencies_ok hdeps)) htables.2.1 htables.2.2.1
      (fun w hwm => ?_) fun d hd => ?_
    · obtain ⟨i, step, -, rfl⟩ := mem_newItems.mp hwm
      exact extendedItem_fresh
    · obtain ⟨i, step, hi, hid, dep, hdep, -⟩ := mem_batchDependencies hnew hd
      refine ⟨_, mem_newItems.mpr ⟨i, step, hi, rfl⟩, by simp [extendedItem, hid], if_neg ?_⟩
      rw [List.isEmpty_iff]
      exact List.ne_nil_of_mem hdep
  | claimWork goalId stepId workerId leaseSecs actor leaseToken attemptId now =>
    rcases claimWork_ok ht with rfl | ⟨goal, row, -, -, -, -, rfl⟩
    · exact .none rfl rfl
    · refine .none ?_ rfl
      simp [claimed, Store.insertEvent, map_updateWhere, WorkItemRow.origin]
  | prepareCheckpoint claim idempotencyKey replaySafe actor checkpointId now =>
    obtain ⟨checkpoint, ht⟩ := prepareCheckpoint_ok ht
    obtain ⟨-, -, -, -, -, rfl | ⟨-, -, -, -, -, rfl⟩⟩ := prepareCheckpointTx_ok ht <;>
      exact .none rfl rfl
  | _ => exact absurd rfl hins

theorem life_born (hw : WellFormed s) (ht : s.apply enc t = .ok s') (h : s.life? id = none)
    (h' : s'.life? id = some l) : l.IsNew := by
  rw [life?_eq_none, workItem?_eq_none] at h
  obtain ⟨hitem, ha, hc⟩ := life?_eq_some.mp h'
  obtain ⟨hmem, hid⟩ := workItem?_eq_some hitem
  cases created_apply ht with
  | none hi hd =>
    obtain ⟨w, hwm, he⟩ := exists_of_map_eq hi.symm hmem
    have hwid := congrArg WorkItemRow.id he
    exact absurd (List.mem_map.mpr ⟨w, hwm, hwid.trans hid⟩) h
  | batch new ds hi hd ha' hc' hnew hds =>
    have hstale : ∀ a ∈ s.attempts, a.workItemId ≠ id := by
      intro a ham he
      obtain ⟨w, hwm, hwi, -⟩ := hw.attemptItem a ham
      exact h (List.mem_map.mpr ⟨w, hwm, hwi.trans he⟩)
    refine ⟨?_, ?_, ?_⟩
    · rw [hi] at hmem
      rcases List.mem_append.mp hmem with hm | hm
      · exact absurd (List.mem_map.mpr ⟨l.item, hm, hid⟩) h
      · exact hnew _ hm
    · rw [ha, ha', List.filter_eq_nil_iff]
      exact fun a ham => by simpa using hstale a ham
    · rw [hc, hc', List.filter_eq_nil_iff]
      intro c hcm
      obtain ⟨a, ham, -, haw, -⟩ := hw.checkpointAttempt c hcm
      simpa using fun he => hstale a ham (haw.trans he)

/-! ## Runs -/

/-- Every stored item's life has the property. -/
def Store.Lives (I : Life → Prop) (s : Store) : Prop := ∀ id l, s.life? id = some l → I l

theorem lives_empty (I : Life → Prop) : Store.empty.Lives I := by
  intro id l h
  cases h

theorem life_keeps {I : Life → Prop} {p : Life.Event → Prop}
    (hstep : ∀ (l : Life) e l', p e → I l → l.Step e l' → I l') (hw : WellFormed s)
    (h : s.life? id = some l)
    (hok : ∀ s', s.apply enc t = .ok s' → ∀ e, t.Emits s l.item e → p e) (hl : I l) :
    ∃ l', (exec enc s t).life? id = some l' ∧ I l' := by
  rcases exec_cases enc s t with he | he
  · exact ⟨l, by rw [he]; exact h, hl⟩
  · obtain ⟨es, l', h', hpath, hemits, -⟩ := life_apply hw h he
    exact ⟨l', h', hpath.keeps hstep (fun e hmem => hok _ he e (hemits e hmem)) hl⟩

theorem lives_exec {I : Life → Prop} {p : Life.Event → Prop} (hborn : ∀ l : Life, l.IsNew → I l)
    (hstep : ∀ (l : Life) e l', p e → I l → l.Step e l' → I l') (hw : WellFormed s)
    (hok : ∀ s', s.apply enc t = .ok s' → ∀ w e, t.Emits s w e → p e) (hs : s.Lives I) :
    (exec enc s t).Lives I := by
  intro id l' h'
  cases h : s.life? id with
  | none =>
    rcases exec_cases enc s t with he | he
    · rw [he, h] at h'
      cases h'
    · exact hborn l' (life_born hw he h h')
  | some l =>
    obtain ⟨l₁, h₁, hl₁⟩ := life_keeps hstep hw h (fun s' ht e => hok s' ht l.item e) (hs id l h)
    cases h₁.symm.trans h'
    exact hl₁

theorem life_run {I : Life → Prop} {p : Life.Event → Prop} {G : Store → Txn → Prop}
    (hstep : ∀ (l : Life) e l', p e → I l → l.Step e l' → I l')
    (hok : ∀ s t, G s t → ∀ s', s.apply enc t = .ok s' → ∀ w e, t.Emits s w e → p e) {ts : List Txn}
    (hw : WellFormed s) (h : s.life? id = some l) (hl : I l)
    (ha : Machine.Along (exec enc) G s ts) :
    ∃ l', (Machine.run (exec enc) s ts).life? id = some l' ∧ I l' := by
  have hrun := Machine.run_invariant
    (I := fun s : Store => WellFormed s ∧ ∃ l, s.life? id = some l ∧ I l)
    (fun s t hG hI => ⟨wellFormed_exec t hI.1, by
      obtain ⟨l, h, hl⟩ := hI.2
      exact life_keeps hstep hI.1 h (fun s' ht e => hok s t hG s' ht l.item e) hl⟩) ha ⟨hw, l, h, hl⟩
  exact hrun.2

end Xiaomaolv
