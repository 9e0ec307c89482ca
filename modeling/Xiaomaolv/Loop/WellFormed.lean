import Xiaomaolv.Loop.Batches

/-!
# The keys of the tables

No transaction deletes a goal, an item, an attempt or a checkpoint, and an update keeps every column
but the status columns.

* `WorkItemRow.origin`, `AttemptRow.origin`, `CheckpointRow.origin`: a row with its status columns
  reset; `Store.origin`: the work tables seen so.
* `WellFormed`: ids are unique and references meet stored rows of the same goal.
* **`wellFormed_exec`**: every transaction keeps the store well formed.
-/

namespace Xiaomaolv

open Table LoopStore

/-! ## Columns that no update changes -/

/-- The row with its status columns reset. -/
def WorkItemRow.origin (w : WorkItemRow) : WorkItemRow :=
  { w with
    status := .pending, leaseToken := none, leaseUntil := none, fencingToken := 0,
    nextAttemptAt := none, lastError := none, progress := none }

/-- The row with its status columns reset. -/
def AttemptRow.origin (a : AttemptRow) : AttemptRow := { a with status := .running, error := none }

/-- The row with its status columns reset. -/
def CheckpointRow.origin (c : CheckpointRow) : CheckpointRow :=
  { c with phase := .prepared, outcome := none }

/-- The work tables without their status columns. -/
structure Origin where
  goals : List String
  workItems : List WorkItemRow
  attempts : List AttemptRow
  checkpoints : List CheckpointRow
  dependencies : List DependencyRow

def Store.origin (s : Store) : Origin where
  goals := s.goals.map (·.id)
  workItems := s.workItems.map (·.origin)
  attempts := s.attempts.map (·.origin)
  checkpoints := s.checkpoints.map (·.origin)
  dependencies := s.dependencies

section Updates

variable (s : Store) (goalId : String)

@[simp] theorem origin_insertEvent (eventType actor : String) :
    (s.insertEvent goalId eventType actor).origin = s.origin := rfl

@[simp] theorem origin_setGoalStatus (status : GoalStatus) :
    (s.setGoalStatus goalId status).origin = s.origin := by
  simp [Store.origin, Store.setGoalStatus, map_updateWhere]

@[simp] theorem origin_refreshGoalStatus : (s.refreshGoalStatus goalId).origin = s.origin := by
  unfold Store.refreshGoalStatus
  split
  · rfl
  · simp [Store.origin, map_updateWhere]

@[simp] theorem origin_unlockReady : (s.unlockReady goalId).origin = s.origin := by
  simp [Store.origin, Store.unlockReady, map_updateWhere, WorkItemRow.origin]

@[simp] theorem origin_reconcile (c : CheckpointRow) : (s.reconcile c).origin = s.origin := by
  simp [Store.origin, Store.reconcile, map_updateWhere, WorkItemRow.origin, AttemptRow.origin,
    CheckpointRow.origin]

@[simp] theorem origin_lapse (now : Int) (row : ExpiredRow) :
    (lapse now s row).origin = s.origin := by
  unfold lapse Store.origin
  split <;>
    simp [map_updateWhere, WorkItemRow.origin, AttemptRow.origin, CheckpointRow.origin]

@[simp] theorem origin_reconcileAll : (reconcileAll goalId s).origin = s.origin :=
  foldl_frame (I := fun _ => True) (fun _ _ _ => trivial) trivial fun c _ s _ => origin_reconcile s c

@[simp] theorem origin_lapseAll (now : Int) : (lapseAll goalId now s).origin = s.origin :=
  foldl_frame (I := fun _ => True) (fun _ _ _ => trivial) trivial fun row _ s _ => origin_lapse s now row

@[simp] theorem origin_recovered (actor : String) (now : Int) :
    (recovered goalId actor now s).origin = s.origin := by
  unfold recovered
  dsimp only
  split <;> simp

@[simp] theorem origin_releaseClaim (claim : WorkClaim) (r : Release) :
    (releaseClaim claim r s).origin = s.origin := by
  unfold releaseClaim Store.origin voidPrepared endAttempt releaseItem
  split <;>
    simp [map_updateWhere, WorkItemRow.origin, AttemptRow.origin, CheckpointRow.origin]

@[simp] theorem origin_blockDownstream (id : String) : (blockDownstream id s).origin = s.origin := by
  simp [Store.origin, blockDownstream, map_updateWhere, WorkItemRow.origin]

@[simp] theorem origin_failed (claim : WorkClaim) (row : WorkItemRow) (error : String)
    (retry : Bool) (now : Int) : (failed claim row error retry now s).origin = s.origin := by
  unfold failed
  split <;> simp

@[simp] theorem origin_applyVerdict (item : WorkItemRow) (attempt : AttemptRow)
    (checkpoint : CheckpointRow) (resolution : ConfirmationResolution) (reason : String)
    (now : Int) :
    (applyVerdict item attempt checkpoint resolution reason now s).origin = s.origin := by
  have hsettle : ∀ c, (resolution.settle reason c).origin = c.origin := by
    intro c
    cases resolution <;> rfl
  simp [applyVerdict, endParked, settlePrepared, unpark, Store.origin, map_updateWhere, hsettle,
    WorkItemRow.origin, AttemptRow.origin]

@[simp] theorem origin_expireOverdueGoals (limit : Nat) (now : Int) :
    (expireOverdueGoals limit now s).origin = s.origin :=
  foldl_frame (I := fun _ => True) (fun _ _ _ => trivial) trivial fun g _ s _ => by simp [expireGoal]

@[simp] theorem origin_recordResumed (actor : String) :
    (recordResumed goalId actor s).origin = s.origin := by
  unfold recordResumed
  split <;> simp

end Updates

/-! ## Well-formed stores -/

/-- Ids are unique, and references meet stored rows of the same goal. -/
structure WellFormed (s : Store) : Prop where
  goalIds : (s.goals.map (·.id)).Nodup
  itemIds : (s.workItems.map (·.id)).Nodup
  attemptIds : (s.attempts.map (·.id)).Nodup
  checkpointIds : (s.checkpoints.map (·.id)).Nodup
  itemGoal : ∀ w ∈ s.workItems, ∃ g ∈ s.goals, g.id = w.goalId
  attemptItem : ∀ a ∈ s.attempts, ∃ w ∈ s.workItems, w.id = a.workItemId ∧ w.goalId = a.goalId
  checkpointAttempt : ∀ c ∈ s.checkpoints, ∃ a ∈ s.attempts,
    a.id = c.attemptId ∧ a.workItemId = c.workItemId ∧ a.goalId = c.goalId
  dependencyItems : ∀ d ∈ s.dependencies, ∃ w ∈ s.workItems, ∃ p ∈ s.workItems,
    w.id = d.workItemId ∧ p.id = d.dependsOnWorkItemId ∧ w.goalId = p.goalId

theorem wellFormed_empty : WellFormed Store.empty := by
  constructor <;> simp [Store.empty]

theorem exists_of_map_eq {α β : Type} {f : α → β} {t t' : List α} (h : t'.map f = t.map f) {a : α}
    (ha : a ∈ t) : ∃ a' ∈ t', f a' = f a :=
  List.mem_map.mp (h ▸ List.mem_map_of_mem ha)

theorem itemIds_of_origin {s s' : Store} (h : s'.origin = s.origin) :
    s'.workItems.map (·.id) = s.workItems.map (·.id) := by
  simpa [Store.origin, Function.comp_def, WorkItemRow.origin] using
    congrArg (List.map (·.id)) (congrArg Origin.workItems h)

/-- A store that differs in status columns only is as well formed. -/
theorem wellFormed_of_origin {s s' : Store} (h : s'.origin = s.origin) (hw : WellFormed s) :
    WellFormed s' := by
  have ids := itemIds_of_origin h
  simp only [Store.origin, Origin.mk.injEq] at h
  obtain ⟨hg, hi, ha, hc, hd⟩ := h
  have aids : s'.attempts.map (·.id) = s.attempts.map (·.id) := by
    simpa [Function.comp_def, AttemptRow.origin] using congrArg (List.map (·.id)) ha
  have cids : s'.checkpoints.map (·.id) = s.checkpoints.map (·.id) := by
    simpa [Function.comp_def, CheckpointRow.origin] using congrArg (List.map (·.id)) hc
  have item : ∀ w ∈ s.workItems, ∃ w' ∈ s'.workItems, w'.id = w.id ∧ w'.goalId = w.goalId := by
    intro w hmem
    obtain ⟨w', hmem', he⟩ := exists_of_map_eq hi hmem
    simp only [WorkItemRow.origin, WorkItemRow.mk.injEq] at he
    exact ⟨w', hmem', he.1, he.2.1⟩
  refine ⟨hg ▸ hw.goalIds, ids ▸ hw.itemIds, aids ▸ hw.attemptIds, cids ▸ hw.checkpointIds, ?_, ?_,
    ?_, ?_⟩
  · intro w hmem
    obtain ⟨w₀, hmem₀, he⟩ := exists_of_map_eq hi.symm hmem
    simp only [WorkItemRow.origin, WorkItemRow.mk.injEq] at he
    obtain ⟨g, hgm, hge⟩ := hw.itemGoal w₀ hmem₀
    obtain ⟨g', hgm', hge'⟩ := exists_of_map_eq hg hgm
    exact ⟨g', hgm', hge'.trans (hge.trans he.2.1)⟩
  · intro a hmem
    obtain ⟨a₀, hmem₀, he⟩ := exists_of_map_eq ha.symm hmem
    simp only [AttemptRow.origin, AttemptRow.mk.injEq] at he
    obtain ⟨w, hwm, hwi, hwg⟩ := hw.attemptItem a₀ hmem₀
    obtain ⟨w', hwm', hwi', hwg'⟩ := item w hwm
    exact ⟨w', hwm', by rw [hwi', hwi, he.2.2.1], by rw [hwg', hwg, he.2.1]⟩
  · intro c hmem
    obtain ⟨c₀, hmem₀, he⟩ := exists_of_map_eq hc.symm hmem
    simp only [CheckpointRow.origin, CheckpointRow.mk.injEq] at he
    obtain ⟨a, ham, h₁, h₂, h₃⟩ := hw.checkpointAttempt c₀ hmem₀
    obtain ⟨a', ham', he'⟩ := exists_of_map_eq ha ham
    simp only [AttemptRow.origin, AttemptRow.mk.injEq] at he'
    exact ⟨a', ham', by rw [he'.1, h₁, he.2.2.2.1], by rw [he'.2.2.1, h₂, he.2.2.1],
      by rw [he'.2.1, h₃, he.2.1]⟩
  · intro d hmem
    obtain ⟨w, hwm, p, hpm, h₁, h₂, h₃⟩ := hw.dependencyItems d (hd ▸ hmem)
    obtain ⟨w', hwm', hwi, hwg⟩ := item w hwm
    obtain ⟨p', hpm', hpi, hpg⟩ := item p hpm
    exact ⟨w', hwm', p', hpm', by rw [hwi, h₁], by rw [hpi, h₂], by rw [hwg, hpg, h₃]⟩

section Lookups

variable {s : Store} (hw : WellFormed s)

include hw

theorem WellFormed.workItem? {w : WorkItemRow} (h : w ∈ s.workItems) :
    s.workItem? w.id = some w :=
  find?_of_mem hw.itemIds h

theorem WellFormed.item_eq {w w' : WorkItemRow} (h : w ∈ s.workItems) (h' : w' ∈ s.workItems)
    (he : w.id = w'.id) : w = w' :=
  eq_of_key_eq hw.itemIds h h' he

theorem WellFormed.attempt_eq {a a' : AttemptRow} (h : a ∈ s.attempts) (h' : a' ∈ s.attempts)
    (he : a.id = a'.id) : a = a' :=
  eq_of_key_eq hw.attemptIds h h' he

theorem WellFormed.checkpoint_eq {c c' : CheckpointRow} (h : c ∈ s.checkpoints)
    (h' : c' ∈ s.checkpoints) (he : c.id = c'.id) : c = c' :=
  eq_of_key_eq hw.checkpointIds h h' he

end Lookups

theorem workItem?_eq_some {s : Store} {id : String} {w : WorkItemRow}
    (h : s.workItem? id = some w) : w ∈ s.workItems ∧ w.id = id :=
  ⟨List.mem_of_find?_eq_some h, by simpa using List.find?_some h⟩

theorem workItem?_eq_none {s : Store} {id : String} :
    s.workItem? id = none ↔ id ∉ s.workItems.map (·.id) := by
  simp [Store.workItem?]

theorem goal?_eq_some {s : Store} {id : String} {g : GoalRow} (h : s.goal? id = some g) :
    g ∈ s.goals ∧ g.id = id :=
  ⟨List.mem_of_find?_eq_some h, by simpa using List.find?_some h⟩

theorem checkpoint?_eq_some {s : Store} {id : String} {c : CheckpointRow}
    (h : s.checkpoint? id = some c) : c ∈ s.checkpoints ∧ c.id = id :=
  ⟨List.mem_of_find?_eq_some h, by simpa using List.find?_some h⟩

theorem claimCurrent_iff {s : Store} {now : Int} {claim : WorkClaim} :
    s.claimCurrent now claim = true ↔ ∃ w ∈ s.workItems, ∃ a ∈ s.attempts,
      w.id = claim.workItem.id ∧ w.goalId = claim.attempt.goalId ∧ w.status = .running ∧
      w.leaseToken = some claim.attempt.leaseToken ∧ w.fencingToken = claim.attempt.fencingToken ∧
      (∃ leaseUntil, w.leaseUntil = some leaseUntil ∧ now ≤ leaseUntil) ∧
      a.workItemId = w.id ∧ a.id = claim.attempt.id ∧ a.leaseToken = claim.attempt.leaseToken ∧
      a.fencingToken = claim.attempt.fencingToken ∧ a.status.isLive = true := by
  simp only [Store.claimCurrent, leaseCurrent, List.any_eq_true, Bool.and_eq_true, decide_eq_true_eq,
    Option.any_eq_true]
  constructor
  · rintro ⟨w, hw, ⟨⟨h₁, h₂, h₃, h₄, h₅⟩, hl⟩, a, ha, h⟩
    exact ⟨w, hw, a, ha, h₁, h₂, h₃, h₄, h₅, hl, h⟩
  · rintro ⟨w, hw, a, ha, h₁, h₂, h₃, h₄, h₅, hl, h⟩
    exact ⟨w, hw, ⟨⟨h₁, h₂, h₃, h₄, h₅⟩, hl⟩, a, ha, h⟩

/-! ## Inserts -/

section Inserts

variable {enc : Encoding} {s s' : Store} {goalId actor : String} {now : Int} {claim : WorkClaim}

theorem WellFormed.insertItems (hw : WellFormed s) {new : List WorkItemRow}
    (ds : List DependencyRow) (hg : ∃ g ∈ s.goals, g.id = goalId)
    (hids : ((s.workItems ++ new).map (·.id)).Nodup) (hnew : ∀ w ∈ new, w.goalId = goalId)
    (hds : ∀ d ∈ ds, ∃ w ∈ new, ∃ p ∈ s.workItems ++ new,
      w.id = d.workItemId ∧ p.id = d.dependsOnWorkItemId ∧ p.goalId = goalId) :
    WellFormed { s with workItems := s.workItems ++ new, dependencies := s.dependencies ++ ds } where
  goalIds := hw.goalIds
  itemIds := hids
  attemptIds := hw.attemptIds
  checkpointIds := hw.checkpointIds
  itemGoal w h := by
    rcases List.mem_append.mp h with h | h
    · exact hw.itemGoal w h
    · exact hnew w h ▸ hg
  attemptItem a h := by
    obtain ⟨w, hwm, h'⟩ := hw.attemptItem a h
    exact ⟨w, List.mem_append_left _ hwm, h'⟩
  checkpointAttempt := hw.checkpointAttempt
  dependencyItems d h := by
    rcases List.mem_append.mp h with h | h
    · obtain ⟨w, hwm, p, hpm, h'⟩ := hw.dependencyItems d h
      exact ⟨w, List.mem_append_left _ hwm, p, List.mem_append_left _ hpm, h'⟩
    · obtain ⟨w, hwm, p, hpm, h₁, h₂, h₃⟩ := hds d h
      exact ⟨w, List.mem_append_right _ hwm, p, hpm, h₁, h₂, (hnew w hwm).trans h₃.symm⟩

theorem WellFormed.insertGoal (hw : WellFormed s) {g : GoalRow} (hg : ∀ x ∈ s.goals, x.id ≠ g.id) :
    WellFormed { s with goals := s.goals ++ [g] } :=
  { hw with
    goalIds := nodup_concat hw.goalIds hg
    itemGoal := fun w h =>
      let ⟨g', hm, he⟩ := hw.itemGoal w h
      ⟨g', List.mem_append_left _ hm, he⟩ }

theorem WellFormed.insertAttempt (hw : WellFormed s) {a : AttemptRow}
    (ha : ∀ x ∈ s.attempts, x.id ≠ a.id)
    (hi : ∃ w ∈ s.workItems, w.id = a.workItemId ∧ w.goalId = a.goalId) :
    WellFormed { s with attempts := s.attempts ++ [a] } :=
  { hw with
    attemptIds := nodup_concat hw.attemptIds ha
    attemptItem := fun x h => by
      rcases List.mem_append.mp h with h | h
      · exact hw.attemptItem x h
      · cases List.mem_singleton.mp h
        exact hi
    checkpointAttempt := fun c h =>
      let ⟨x, hm, h'⟩ := hw.checkpointAttempt c h
      ⟨x, List.mem_append_left _ hm, h'⟩ }

theorem WellFormed.insertCheckpoint (hw : WellFormed s) {c : CheckpointRow}
    (hc : ∀ x ∈ s.checkpoints, x.id ≠ c.id)
    (ha : ∃ a ∈ s.attempts, a.id = c.attemptId ∧ a.workItemId = c.workItemId ∧
      a.goalId = c.goalId) :
    WellFormed { s with checkpoints := s.checkpoints ++ [c] } :=
  { hw with
    checkpointIds := nodup_concat hw.checkpointIds hc
    checkpointAttempt := fun x h => by
      rcases List.mem_append.mp h with h | h
      · exact hw.checkpointAttempt x h
      · cases List.mem_singleton.mp h
        exact ha }

theorem wellFormed_approveGoal {request : ApproveGoalRequest} {externalWrite : ExternalWritePolicy}
    {internalPolicy : InternalApprovalPolicy} {approvalId : String} {workId : Nat → String}
    (hw : WellFormed s)
    (h : approveGoal goalId request externalWrite internalPolicy actor approvalId workId s = .ok s') :
    WellFormed s' := by
  obtain ⟨goal, plan, workItems, new, dependencies, hg, -, -, -, -, -, hitems, hnew, hdeps, rfl⟩ :=
    approveGoal_ok h
  obtain ⟨rfl, hids, -⟩ := materializeItems_ok hitems
  cases insertDependencies_ok hdeps
  obtain ⟨hgm, hge⟩ := goal?_eq_some hg
  have hend : ∀ stepId id, batchId? workId plan.workflow.steps stepId = some id →
      ∃ w ∈ newItems (approvedItem goalId plan workId) 0 plan.workflow.steps, w.id = id ∧
        w.goalId = goalId := by
    intro stepId id hb
    obtain ⟨i, step, hi, -, rfl⟩ := batchId?_eq_some hb
    exact ⟨_, mem_newItems.mpr ⟨i, step, hi, rfl⟩, by simp [approvedItem], rfl⟩
  have hbase := hw.insertItems new ⟨goal, hgm, hge⟩ (hids hw.itemIds)
    (fun w hwm => by obtain ⟨i, step, -, rfl⟩ := mem_newItems.mp hwm; rfl)
    (fun d hd => by
      obtain ⟨edge, -, ht, hf⟩ := mem_edgeDependencies hnew hd
      obtain ⟨w, hwm, hwi, -⟩ := hend _ _ ht
      obtain ⟨p, hpm, hpi, hpg⟩ := hend _ _ hf
      exact ⟨w, hwm, p, List.mem_append_right _ hpm, hwi, hpi, hpg⟩)
  refine wellFormed_of_origin ?_ hbase
  simp [Store.origin, Store.insertEvent, map_updateWhere]

theorem wellFormed_extendWorkflow {steps : List WorkflowStep} {externalWrite : ExternalWritePolicy}
    {workId : Nat → String} (hw : WellFormed s)
    (h : extendWorkflow enc goalId steps externalWrite actor workId s = .ok s') :
    WellFormed s' := by
  obtain ⟨goal, plan, workItems, new, dependencies, hg, -, -, -, -, -, hitems, hnew, hdeps, rfl⟩ :=
    extendWorkflow_ok h
  obtain ⟨rfl, hids, -⟩ := materializeItems_ok hitems
  cases insertDependencies_ok hdeps
  obtain ⟨hgm, hge⟩ := goal?_eq_some hg
  have hmem : ∀ i step, steps[i]? = some step → ∃ w ∈ newItems
      (extendedItem goalId plan.id workId (nextOrdinal goalId s)) 0 steps, w.id = workId i ∧
        w.goalId = goalId := by
    intro i step hi
    exact ⟨_, mem_newItems.mpr ⟨i, step, hi, rfl⟩, by simp [extendedItem], rfl⟩
  have hbase := hw.insertItems new ⟨goal, hgm, hge⟩ (hids hw.itemIds)
    (fun w hwm => by obtain ⟨i, step, -, rfl⟩ := mem_newItems.mp hwm; rfl)
    (fun d hd => by
      obtain ⟨i, step, hi, hid, dep, -, hres⟩ := mem_batchDependencies hnew hd
      obtain ⟨w, hwm, hwi, -⟩ := hmem i step hi
      rw [Nat.zero_add] at hid
      refine ⟨w, hwm, ?_⟩
      rcases resolveDependency_ok hres with hb | ⟨-, p, hp, hpi⟩
      · obtain ⟨j, step', hj, -, hpi⟩ := batchId?_eq_some hb
        obtain ⟨p, hpm, hpi', hpg⟩ := hmem j step' hj
        exact ⟨p, List.mem_append_right _ hpm, hwi.trans hid.symm, hpi'.trans hpi.symm, hpg⟩
      · obtain ⟨hpm, hpg, -⟩ := stepItem?_eq_some hp
        exact ⟨p, hpm, hwi.trans hid.symm, hpi, hpg⟩)
  exact wellFormed_of_origin (by rw [origin_refreshGoalStatus, origin_insertEvent]) hbase

theorem wellFormed_claimed (hw : WellFormed s) {row : WorkItemRow} (hrow : row ∈ s.workItems)
    {workerId leaseToken attemptId : String} {leaseSecs : Nat}
    (ha : ∀ a ∈ s.attempts, a.id ≠ attemptId) :
    WellFormed (claimed goalId row workerId leaseSecs actor leaseToken attemptId now s) := by
  have hbase := hw.insertAttempt (a := newAttempt s row workerId leaseToken attemptId now) ha
    ⟨row, hrow, rfl, rfl⟩
  refine wellFormed_of_origin ?_ hbase
  simp [claimed, Store.insertEvent, Store.origin, map_updateWhere, WorkItemRow.origin]

theorem claimCandidate?_mem {stepId : Option String} {row : WorkItemRow}
    (h : claimCandidate? goalId stepId now s = some row) :
    row ∈ s.workItems ∧ isClaimable goalId stepId now s row = true := by
  unfold claimCandidate? at h
  cases stepId with
  | some id => exact List.mem_filter.mp (List.mem_of_mem_head? h)
  | none => exact List.mem_filter.mp (pickBy_mem h)

theorem wellFormed_prepareCheckpoint {idempotencyKey checkpointId : String} {replaySafe : Bool}
    {checkpoint : CheckpointRow} (hw : WellFormed s)
    (h : prepareCheckpointTx claim idempotencyKey replaySafe actor checkpointId now s
      = .ok (checkpoint, s')) : WellFormed s' := by
  obtain ⟨hcur, hatt, hitem, -, -, rfl | ⟨hfresh, hid, hgoal, -, -, rfl⟩⟩ := prepareCheckpointTx_ok h
  · exact hw
  · obtain ⟨w, hwm, a, ham, hwi, hwg, -, -, -, -, haw, hai, -⟩ := claimCurrent_iff.mp hcur
    obtain ⟨w', hwm', hwi', hwg'⟩ := hw.attemptItem a ham
    have hww : w' = w := hw.item_eq hwm' hwm (hwi'.trans haw)
    have hbase := hw.insertCheckpoint (c := checkpoint) (fun c hc => hid ▸ hfresh c hc)
      ⟨a, ham, hai.trans hatt.symm, by rw [haw, hwi, hitem], by rw [← hwg', hww, hwg, hgoal]⟩
    exact wellFormed_of_origin (by simp) hbase

end Inserts

/-! ## Every transaction -/

/-- The transactions that insert goals, items, attempts or checkpoints. -/
def Txn.inserts : Txn → Bool
  | .createGoal .. | .approveGoal .. | .extendWorkflow .. | .claimWork .. | .prepareCheckpoint .. =>
    true
  | _ => false

/-- The other transactions write status columns only. -/
theorem origin_apply {enc : Encoding} {s s' : Store} {t : Txn} (h : s.apply enc t = .ok s')
    (ht : t.inserts = false) : s'.origin = s.origin := by
  cases t with
  | createGoal | approveGoal | extendWorkflow | claimWork | prepareCheckpoint => cases ht
  | planGoal goalId request externalWrite actor planId =>
    obtain ⟨goal, -, -, -, -, rfl⟩ := planGoal_ok h
    simp [Store.origin, map_updateWhere, Store.insertEvent]
  | cancelGoal goalId reason actor =>
    obtain ⟨goal, error, -, -, rfl⟩ := cancelGoal_ok h
    simp [Store.origin, Store.insertEvent, Store.setGoalStatus, map_updateWhere, abandonAttempts,
      closeItems, WorkItemRow.origin, AttemptRow.origin]
  | pauseGoal goalId reason actor =>
    obtain ⟨goal, -, -, rfl⟩ := pauseGoal_ok h
    simp
  | unpauseGoal goalId actor =>
    obtain ⟨goal, -, -, rfl⟩ := unpauseGoal_ok h
    simp
  | rejectGoal goalId reason actor =>
    obtain ⟨goal, -, -, rfl⟩ := rejectGoal_ok h
    simp
  | markGoalForReplan goalId reason actor =>
    obtain ⟨goal, error, -, -, rfl⟩ := markGoalForReplan_ok h
    simp [Store.origin, Store.insertEvent, Store.setGoalStatus, map_updateWhere, abandonAttempts,
      closeItems, WorkItemRow.origin, AttemptRow.origin]
  | expireOverdueGoals limit now =>
    cases h
    simp
  | verifyGoal goalId actor =>
    rcases verifyGoal_ok h with rfl | ⟨goal, plan, -, -, -, ⟨-, rfl⟩ | ⟨-, rfl⟩⟩
    · rfl
    · simp [Store.origin, map_updateWhere, Store.insertEvent]
    · simp
  | recordManualVerification goalId label actor =>
    rcases recordManualVerification_ok h with rfl | rfl <;> rfl
  | publishArtifact id kind =>
    cases publishArtifact_ok h
    rfl
  | recordSelfTestRun id suite passed =>
    cases recordSelfTestRun_ok h
    rfl
  | reserveProviderCall goalId now =>
    obtain ⟨budgets, rfl⟩ := reserveProviderCall_ok h
    rfl
  | recordProviderResponseBytes goalId responseBytes =>
    obtain ⟨budgets, rfl⟩ := recordProviderResponseBytes_ok h
    rfl
  | recoverGoalState goalId actor now =>
    rcases recoverGoalState_ok h with ⟨-, rfl⟩ | ⟨-, rfl⟩
    · simp
    · rfl
  | recordResumed goalId actor =>
    cases h
    simp
  | requeueBlockedItems goalId reasonPrefix handlers actor =>
    rcases requeueBlockedItems_ok h with rfl | ⟨events, rfl⟩
    · rfl
    · simp [Store.origin, map_updateWhere, WorkItemRow.origin]
  | resolveWaitingConfirmation goalId workItemId resolution reason actor now =>
    obtain ⟨item, attempt, checkpoint, -, -, -, -, -, rfl⟩ := resolveWaitingConfirmation_ok h
    simp
  | renewClaim claim leaseSecs now =>
    obtain ⟨-, rfl⟩ := renewClaimTx_ok h
    simp [Store.origin, map_updateWhere, WorkItemRow.origin]
  | commitCheckpoint claim checkpointId outcome actor now =>
    obtain ⟨-, current, -, -, ⟨-, -, rfl⟩ | ⟨-, rfl⟩⟩ := commitCheckpointTx_ok h
    · rfl
    · simp [Store.origin, Store.insertEvent, map_updateWhere, AttemptRow.origin,
        CheckpointRow.origin]
  | finishAttempt claim checkpointId actor now =>
    obtain ⟨-, checkpoint, -, -, -, rfl⟩ := finishAttemptTx_ok h
    simp
  | failAttempt claim error retryable actor now =>
    obtain ⟨-, row, -, rfl⟩ := failAttemptTx_ok h
    simp
  | blockWorkItem claim reason actor now =>
    obtain ⟨-, rfl⟩ := blockWorkItemTx_ok h
    simp
  | deferAttempt claim untilUnix actor now =>
    obtain ⟨-, rfl⟩ := deferAttemptTx_ok h
    simp
  | recordPhaseProgress claim continuation actor now =>
    obtain ⟨-, progress, -, rfl⟩ := recordPhaseProgress_ok h
    simp [Store.origin, Store.insertEvent, setProgress, map_updateWhere, WorkItemRow.origin]
  | continueAttempt claim continuation actor started now =>
    obtain ⟨-, progress, -, rfl⟩ := continueAttemptTx_ok h
    simp

theorem prefix_of_eq {α : Type} {t u : List α} (h : t = u) : t <+: u := h ▸ List.prefix_rfl

/-- Rows are never deleted, and keep the columns they are created with. -/
structure Grows (s s' : Store) : Prop where
  workItems : s.workItems.map (·.origin) <+: s'.workItems.map (·.origin)
  attempts : s.attempts.map (·.origin) <+: s'.attempts.map (·.origin)
  checkpoints : s.checkpoints.map (·.origin) <+: s'.checkpoints.map (·.origin)

theorem grows_of_origin {s s' : Store} (h : s'.origin = s.origin) : Grows s s' where
  workItems := prefix_of_eq (congrArg Origin.workItems h).symm
  attempts := prefix_of_eq (congrArg Origin.attempts h).symm
  checkpoints := prefix_of_eq (congrArg Origin.checkpoints h).symm

theorem grows_apply {enc : Encoding} {s s' : Store} {t : Txn} (h : s.apply enc t = .ok s') :
    Grows s s' := by
  by_cases ht : t.inserts = false
  · exact grows_of_origin (origin_apply h ht)
  have hrfl : Grows s s := ⟨List.prefix_rfl, List.prefix_rfl, List.prefix_rfl⟩
  cases t with
  | createGoal request actor id =>
    rcases createGoal_ok h with rfl | ⟨g, -, -, -, rfl⟩
    · exact hrfl
    · exact ⟨hrfl.workItems, hrfl.attempts, hrfl.checkpoints⟩
  | approveGoal goalId request externalWrite internalPolicy actor approvalId workId =>
    obtain ⟨goal, plan, workItems, new, dependencies, -, -, -, -, -, -, hitems, -, -, rfl⟩ :=
      approveGoal_ok h
    refine { hrfl with workItems := ?_ }
    show _ <+: workItems.map _
    rw [(materializeItems_ok hitems).1, List.map_append]
    exact List.prefix_append _ _
  | extendWorkflow goalId steps externalWrite actor workId =>
    obtain ⟨goal, plan, workItems, new, dependencies, -, -, -, -, -, -, hitems, -, -, rfl⟩ :=
      extendWorkflow_ok h
    have hrefresh := grows_of_origin (origin_refreshGoalStatus (({ s with workItems, dependencies
      } : Store).insertEvent goalId "workflow.extended" actor) goalId)
    refine ⟨?_, hrefresh.attempts, hrefresh.checkpoints⟩
    refine List.IsPrefix.trans ?_ hrefresh.workItems
    show _ <+: workItems.map _
    rw [(materializeItems_ok hitems).1, List.map_append]
    exact List.prefix_append _ _
  | claimWork goalId stepId workerId leaseSecs actor leaseToken attemptId now =>
    rcases claimWork_ok h with rfl | ⟨goal, row, -, -, -, -, rfl⟩
    · exact hrfl
    · refine ⟨?_, ?_, List.prefix_rfl⟩
      · refine prefix_of_eq (Eq.symm ?_)
        refine map_updateWhere ?_ _
        exact fun _ => rfl
      · simp [claimed, Store.insertEvent]
  | prepareCheckpoint claim idempotencyKey replaySafe actor checkpointId now =>
    obtain ⟨checkpoint, h⟩ := prepareCheckpoint_ok h
    obtain ⟨-, -, -, -, -, rfl | ⟨-, -, -, -, -, rfl⟩⟩ := prepareCheckpointTx_ok h
    · exact hrfl
    · exact { hrfl with checkpoints := by simp [Store.insertEvent] }
  | _ => exact absurd rfl ht

section Rows

variable (enc : Encoding) {s : Store} (t : Txn)

theorem grows_exec : Grows s (exec enc s t) := by
  rcases exec_cases enc s t with he | he
  · rw [he]
    exact grows_of_origin rfl
  · exact grows_apply he

theorem item_exec {w : WorkItemRow} (h : w ∈ s.workItems) :
    ∃ w' ∈ (exec enc s t).workItems, w'.origin = w.origin :=
  List.mem_map.mp ((grows_exec enc t).workItems.subset (List.mem_map_of_mem h))

theorem attempt_exec {a : AttemptRow} (h : a ∈ s.attempts) :
    ∃ a' ∈ (exec enc s t).attempts, a'.origin = a.origin :=
  List.mem_map.mp ((grows_exec enc t).attempts.subset (List.mem_map_of_mem h))

theorem checkpoint_exec {c : CheckpointRow} (h : c ∈ s.checkpoints) :
    ∃ c' ∈ (exec enc s t).checkpoints, c'.origin = c.origin :=
  List.mem_map.mp ((grows_exec enc t).checkpoints.subset (List.mem_map_of_mem h))

end Rows

theorem wellFormed_apply {enc : Encoding} {s s' : Store} {t : Txn} (hw : WellFormed s)
    (h : s.apply enc t = .ok s') : WellFormed s' := by
  by_cases ht : t.inserts = false
  · exact wellFormed_of_origin (origin_apply h ht) hw
  cases t with
  | createGoal request actor id =>
    rcases createGoal_ok h with rfl | ⟨g, hfresh, rfl, -, rfl⟩
    · exact hw
    · exact wellFormed_of_origin (by simp) (hw.insertGoal hfresh)
  | approveGoal => exact wellFormed_approveGoal hw h
  | extendWorkflow => exact wellFormed_extendWorkflow hw h
  | claimWork goalId stepId workerId leaseSecs actor leaseToken attemptId now =>
    rcases claimWork_ok h with rfl | ⟨goal, row, -, -, hrow, hfresh, rfl⟩
    · exact hw
    · exact wellFormed_claimed hw (claimCandidate?_mem hrow).1 hfresh
  | prepareCheckpoint claim idempotencyKey replaySafe actor checkpointId now =>
    obtain ⟨checkpoint, h⟩ := prepareCheckpoint_ok h
    exact wellFormed_prepareCheckpoint hw h
  | _ => exact absurd rfl ht

/-- **Every transaction keeps the store well formed.** -/
theorem wellFormed_exec {enc : Encoding} {s : Store} (t : Txn) (hw : WellFormed s) :
    WellFormed (exec enc s t) :=
  exec_keeps hw fun _ => wellFormed_apply hw

theorem wellFormed_run (enc : Encoding) (ts : List Txn) :
    WellFormed (Machine.run (exec enc) Store.empty ts) :=
  Machine.run_invariant' (fun _ t => wellFormed_exec t) wellFormed_empty

end Xiaomaolv
