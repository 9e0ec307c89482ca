import Mathlib.Algebra.Order.BigOperators.Group.List
import Mathlib.Algebra.Order.Group.Nat
import Xiaomaolv.Loop.Extension
import Xiaomaolv.Loop.Graph

/-!
# The layers of the dependencies

* `Layered`: items are ranked along their dependencies; **`layered_exec`**: every transaction keeps it.
-/

namespace Xiaomaolv

open Table LoopStore

/-! ## Ranked items -/

/-- The items are ranked along their dependencies, and the steps of every plan along its edges. -/
structure Layered (s : Store) : Prop where
  plans : ∀ p ∈ s.workflows, p.workflow.Ranked
  items : ∃ rank : String → Nat, ∀ d ∈ s.dependencies, rank d.dependsOnWorkItemId < rank d.workItemId

theorem layered_empty : Layered .empty := ⟨by simp [Store.empty], fun _ => 0, by simp [Store.empty]⟩

section Batches

variable {enc : Encoding} {s s' : Store} {new : List WorkItemRow} {ds : List DependencyRow}

theorem rank_append (hw : WellFormed s) {rank : String → Nat}
    (hrank : ∀ d ∈ s.dependencies, rank d.dependsOnWorkItemId < rank d.workItemId) (level : String → Nat)
    (hds : ∀ d ∈ ds, d.workItemId ∉ s.workItems.map (·.id) ∧
      (d.dependsOnWorkItemId ∈ s.workItems.map (·.id) ∨ level d.dependsOnWorkItemId < level d.workItemId)) :
    ∃ rank : String → Nat, ∀ d ∈ s.dependencies ++ ds, rank d.dependsOnWorkItemId < rank d.workItemId := by
  obtain ⟨top, htop⟩ : ∃ top, ∀ id ∈ s.workItems.map (·.id), rank id ≤ top := by
    refine ⟨((s.workItems.map (·.id)).map rank).sum, fun id hid => ?_⟩
    exact List.single_le_sum (fun _ _ => Nat.zero_le _) _ (List.mem_map_of_mem hid)
  refine ⟨fun id => if id ∈ s.workItems.map (·.id) then rank id else top + 1 + level id, fun d hd => ?_⟩
  beta_reduce
  rcases List.mem_append.mp hd with hd | hd
  · obtain ⟨w, hwm, p, hpm, hwid, hpid, -⟩ := hw.dependencyItems d hd
    have hwi : d.workItemId ∈ s.workItems.map (·.id) := hwid ▸ List.mem_map_of_mem hwm
    have hpi : d.dependsOnWorkItemId ∈ s.workItems.map (·.id) := hpid ▸ List.mem_map_of_mem hpm
    rw [if_pos hwi, if_pos hpi]
    exact hrank d hd
  · obtain ⟨hnew, hsource⟩ := hds d hd
    rw [if_neg hnew]
    by_cases hstored : d.dependsOnWorkItemId ∈ s.workItems.map (·.id)
    · have hle := htop _ hstored
      rw [if_pos hstored]
      omega
    · have hlt := hsource.resolve_left hstored
      rw [if_neg hstored]
      omega

/-- A column of the new item with the id. -/
def levelOf (new : List WorkItemRow) (column : WorkItemRow → Nat) (id : String) : Nat :=
  (new.find? fun w => w.id = id).elim 0 column

theorem levelOf_newItems {row : Nat → WorkflowStep → WorkItemRow} {steps : List WorkflowStep}
    (hnodup : ((newItems row 0 steps).map (·.id)).Nodup) (column : WorkItemRow → Nat) {i : Nat}
    {step : WorkflowStep} (hi : steps[i]? = some step) :
    levelOf (newItems row 0 steps) column (row i step).id = column (row i step) := by
  have hmem : row i step ∈ newItems row 0 steps :=
    mem_newItems.mpr ⟨i, step, hi, by rw [Nat.zero_add]⟩
  rw [levelOf, find?_of_mem hnodup hmem]
  rfl

theorem newItems_fresh (hids : ((s.workItems ++ new).map (·.id)).Nodup) :
    (new.map (·.id)).Nodup ∧ ∀ w ∈ new, w.id ∉ s.workItems.map (·.id) := by
  rw [List.map_append, List.nodup_append] at hids
  exact ⟨hids.2.1, fun w hwm hmem => hids.2.2 _ hmem _ (List.mem_map_of_mem hwm) rfl⟩

variable {goalId actor : String} {externalWrite : ExternalWritePolicy} {workId : Nat → String}

/-- An approval ranks the new items as their steps are ranked. -/
theorem layered_approveGoal {request : ApproveGoalRequest} {internalPolicy : InternalApprovalPolicy}
    {approvalId : String} (hw : WellFormed s) (hl : Layered s) (ht : s.apply enc
      (.approveGoal goalId request externalWrite internalPolicy actor approvalId workId) = .ok s') :
    ∃ rank : String → Nat, ∀ d ∈ s'.dependencies, rank d.dependsOnWorkItemId < rank d.workItemId := by
  have hw' := wellFormed_apply hw ht
  obtain ⟨goal, plan, workItems, new, dependencies, -, -, -, hplan, -, -, hitems, hedges, hdeps, rfl⟩ :=
    approveGoal_ok ht
  obtain ⟨hpm, -, -⟩ := plan?_eq_some hplan
  obtain ⟨rank, hrank⟩ := hl.items
  obtain ⟨stepRank, hstep⟩ := hl.plans plan hpm
  have hnew := (materializeItems_ok hitems).1
  have hids : ((s.workItems ++ newItems (approvedItem goalId plan workId) 0 plan.workflow.steps).map
      (·.id)).Nodup := hnew ▸ hw'.itemIds
  obtain ⟨hnodup, hfresh⟩ := newItems_fresh hids
  have hd : dependencies = s.dependencies ++ new := insertDependencies_ok hdeps
  change ∃ rank : String → Nat, ∀ d ∈ dependencies, rank d.dependsOnWorkItemId < rank d.workItemId
  rw [hd]
  refine rank_append hw hrank (levelOf (newItems (approvedItem goalId plan workId) 0
    plan.workflow.steps) fun w => stepRank w.stepId) fun d hdm => ?_
  obtain ⟨edge, hedge, htarget, hsource⟩ := mem_edgeDependencies hedges hdm
  obtain ⟨i, target, hi, htid, hti⟩ := batchId?_eq_some htarget
  obtain ⟨j, source, hj, hsid, hsj⟩ := batchId?_eq_some hsource
  have htlevel := levelOf_newItems hnodup (fun w => stepRank w.stepId) hi
  have hslevel := levelOf_newItems hnodup (fun w => stepRank w.stepId) hj
  have hti' : (approvedItem goalId plan workId i target).id = d.workItemId := hti.symm
  have hsj' : (approvedItem goalId plan workId j source).id = d.dependsOnWorkItemId := hsj.symm
  rw [hti'] at htlevel
  rw [hsj'] at hslevel
  refine ⟨hti' ▸ hfresh _ (mem_newItems.mpr ⟨i, target, hi, by rw [Nat.zero_add]⟩), .inr ?_⟩
  rw [htlevel, hslevel]
  change stepRank source.id < stepRank target.id
  rw [htid, hsid]
  exact hstep edge hedge

theorem checkDependencies_before {seen : List String} {steps : List WorkflowStep}
    (hc : checkDependencies seen steps = .ok ()) {i : Nat} {step : WorkflowStep} (hi : steps[i]? = some step)
    {dep : String} (hd : dep ∈ declaredDependencies step) :
    dep ∈ seen ∨ ∃ j x, j < i ∧ steps[j]? = some x ∧ x.id = dep := by
  induction steps generalizing seen i with
  | nil => simp at hi
  | cons x steps ih =>
    rw [checkDependencies_cons] at hc
    obtain ⟨-, hdeps, hc⟩ := hc
    cases i with
    | zero =>
      cases Option.some.inj hi
      exact .inl (hdeps dep hd).1
    | succ i =>
      rcases ih hc hi with hmem | ⟨j, y, hj, hy, he⟩
      · rcases List.mem_cons.mp hmem with rfl | hmem
        · exact .inr ⟨0, x, by omega, rfl, rfl⟩
        · exact .inl hmem
      · exact .inr ⟨j + 1, y, by omega, hy, he⟩

theorem batchId?_before {steps : List WorkflowStep} {stepId id : String}
    (h : batchId? workId steps stepId = some id) {j : Nat} {x : WorkflowStep} (hx : steps[j]? = some x)
    (hid : x.id = stepId) : ∃ k y, k ≤ j ∧ steps[k]? = some y ∧ id = workId k := by
  obtain ⟨k, hk, rfl⟩ := Option.map_eq_some_iff.mp h
  obtain ⟨hlt, -, hfirst⟩ := List.findIdx?_eq_some_iff_getElem.mp hk
  refine ⟨k, steps[k], ?_, List.getElem?_eq_getElem hlt, rfl⟩
  by_contra hjk
  have hj : j < steps.length := (List.getElem?_eq_some_iff.mp hx).1
  have hne := hfirst j (by omega)
  have hget : steps[j] = x := (List.getElem?_eq_some_iff.mp hx).2
  simp [hget, hid] at hne

/-- An extension ranks the new items as they come. -/
theorem layered_extendWorkflow {steps : List WorkflowStep} (hw : WellFormed s) (hl : Layered s)
    (ht : s.apply enc (.extendWorkflow goalId steps externalWrite actor workId) = .ok s') :
    ∃ rank : String → Nat, ∀ d ∈ s'.dependencies, rank d.dependsOnWorkItemId < rank d.workItemId := by
  have hw' := wellFormed_apply hw ht
  obtain ⟨goal, plan, workItems, new, dependencies, -, -, -, hcheck, -, hext, hitems, hbatch, hdeps, rfl⟩ :=
    extendWorkflow_ok ht
  have htables := refreshGoalStatus_tables goalId (s := ({ s with
    workItems, dependencies } : Store).insertEvent goalId "workflow.extended" actor)
  obtain ⟨rank, hrank⟩ := hl.items
  have hnew := (materializeItems_ok hitems).1
  have hids : ((s.workItems ++ newItems (extendedItem goalId plan.id workId (nextOrdinal goalId s)) 0
      steps).map (·.id)).Nodup := by
    have hnodup := hw'.itemIds
    rw [htables.1] at hnodup
    exact hnew ▸ hnodup
  obtain ⟨hnodup, hfresh⟩ := newItems_fresh hids
  rw [htables.2.2.2]
  have hd : dependencies = s.dependencies ++ new := insertDependencies_ok hdeps
  change ∃ rank : String → Nat, ∀ d ∈ dependencies, rank d.dependsOnWorkItemId < rank d.workItemId
  rw [hd]
  refine rank_append hw hrank (levelOf (newItems (extendedItem goalId plan.id workId
    (nextOrdinal goalId s)) 0 steps) fun w => w.ordinal) fun d hdm => ?_
  obtain ⟨i, step, hi, hid, dep, hdep, hresolve⟩ := mem_batchDependencies hbatch hdm
  rw [Nat.zero_add] at hid
  have hitem : (extendedItem goalId plan.id workId (nextOrdinal goalId s) i step).id = d.workItemId := hid.symm
  refine ⟨hitem ▸ hfresh _ (mem_newItems.mpr ⟨i, step, hi, by rw [Nat.zero_add]⟩), ?_⟩
  rcases resolveDependency_ok hresolve with hb | ⟨hnone, p, hp, hpid⟩
  · -- The step is known by now, and no kept item has it, so it comes earlier in the batch.
    obtain ⟨k, y, hk, hy, hyk⟩ : ∃ k y, k < i ∧ steps[k]? = some y ∧ d.dependsOnWorkItemId = workId k := by
      rcases checkDependencies_before hcheck hi hdep with hkept | ⟨j, x, hj, hx, hxid⟩
      · obtain ⟨k, y, hy, hyid, -⟩ := batchId?_eq_some hb
        exact absurd hkept (hyid ▸ checkExtension_fresh hext y (List.mem_of_getElem? hy))
      · obtain ⟨k, y, hk, hy, hyk⟩ := batchId?_before hb hx hxid
        exact ⟨k, y, by omega, hy, hyk⟩
    have htlevel := levelOf_newItems hnodup (fun w => w.ordinal) hi
    have hslevel := levelOf_newItems hnodup (fun w => w.ordinal) hy
    have hsource : (extendedItem goalId plan.id workId (nextOrdinal goalId s) k y).id
      = d.dependsOnWorkItemId := hyk.symm
    rw [hitem] at htlevel
    rw [hsource] at hslevel
    rw [htlevel, hslevel]
    change _ ∨ nextOrdinal goalId s + k < nextOrdinal goalId s + i
    right
    omega
  · left
    rw [hnew, stepItem?_materialized goalId _ (fun _ _ => rfl) (batchId?_eq_none.mp hnone)] at hp
    rw [← hpid]
    exact List.mem_map_of_mem (stepItem?_eq_some hp).1

end Batches

/-! ## Transactions -/

section Transactions

variable {enc : Encoding} {s s' : Store} {t : Txn}

theorem dependencies_apply (ht : s.apply enc t = .ok s') (hm : t.isMaterializing = false) :
    s'.dependencies = s.dependencies := by
  by_cases hins : t.inserts = false
  · exact congrArg Origin.dependencies (origin_apply ht hins)
  cases t with
  | approveGoal | extendWorkflow => cases hm
  | createGoal request actor id =>
    rcases createGoal_ok ht with rfl | ⟨g, -, -, -, rfl⟩ <;> rfl
  | claimWork goalId stepId workerId leaseSecs actor leaseToken attemptId now =>
    rcases claimWork_ok ht with rfl | ⟨goal, row, -, -, -, -, rfl⟩ <;> rfl
  | prepareCheckpoint claim idempotencyKey replaySafe actor checkpointId now =>
    obtain ⟨checkpoint, ht⟩ := prepareCheckpoint_ok ht
    obtain ⟨-, -, -, -, -, rfl | ⟨-, -, -, -, -, rfl⟩⟩ := prepareCheckpointTx_ok ht <;> rfl
  | _ => exact absurd rfl hins

theorem rankedPlans_apply (h : ∀ p ∈ s.workflows, p.workflow.Ranked) (ht : s.apply enc t = .ok s') :
    ∀ p ∈ s'.workflows, p.workflow.Ranked := by
  by_cases hplan : t.isPlanning = false
  · rw [(plans_apply ht hplan).1]
    exact h
  cases t with
  | approveGoal goalId request externalWrite internalPolicy actor approvalId workId =>
    obtain ⟨goal, plan, workItems, new, dependencies, -, -, -, -, -, -, -, -, -, rfl⟩ := approveGoal_ok ht
    exact h
  | planGoal goalId request externalWrite actor planId =>
    obtain ⟨goal, -, -, hvalid, -, rfl⟩ := planGoal_ok ht
    intro p hp
    rcases List.mem_append.mp hp with hp | hp
    · exact h p hp
    · cases List.mem_singleton.mp hp
      rw [PlanGoalRequest.validateWithPolicy, bind_eq_ok] at hvalid
      obtain ⟨_, hworkflow, -⟩ := hvalid
      exact validate_rank hworkflow
  | _ => exact absurd rfl hplan

theorem layered_apply (hw : WellFormed s) (hl : Layered s) (ht : s.apply enc t = .ok s') : Layered s' := by
  refine ⟨rankedPlans_apply hl.plans ht, ?_⟩
  by_cases hm : t.isMaterializing = false
  · rw [dependencies_apply ht hm]
    exact hl.items
  cases t with
  | approveGoal => exact layered_approveGoal hw hl ht
  | extendWorkflow => exact layered_extendWorkflow hw hl ht
  | _ => exact absurd rfl hm

/-- **Every transaction keeps the layers.** -/
theorem layered_exec (hw : WellFormed s) (t : Txn) (hl : Layered s) : Layered (exec enc s t) :=
  exec_keeps hl fun _ => layered_apply hw hl

theorem layered_run (enc : Encoding) (ts : List Txn) : Layered (Machine.run (exec enc) .empty ts) :=
  (Machine.run_invariant' (I := fun s => WellFormed s ∧ Layered s)
    (fun _ t h => ⟨wellFormed_exec t h.1, layered_exec h.1 t h.2⟩) ⟨wellFormed_empty, layered_empty⟩).2

end Transactions

end Xiaomaolv
