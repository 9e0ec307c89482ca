import Xiaomaolv.Loop.Progress
import Xiaomaolv.Loop.Replay
import Xiaomaolv.Loop.Terminal

/-!
# The revisions of a goal

What a goal that is planned and approved again leaves of its earlier revisions, and what its verification rests on.

* `Store.AtWork`: an item that can still move, of the latest plan of an approved goal.
* `Store.HasDone`: the items of a plan, and all of them have succeeded.
* `Revised`: the invariant of the revisions; **`revised_apply`**: every transaction keeps it.
* `approvedWorkflow?_eq`: under an approved status the current workflow is the latest plan.
* **`superseded_rests`**, **`done_rests`**, **`verification_rests`**: the revisions along every run.
-/

namespace Xiaomaolv

open Table LoopStore

namespace Store

variable (s : Store)

/-- The goal of the item is approved, and the item belongs to its latest plan. -/
def AtWork (w : WorkItemRow) : Prop :=
  (∀ g ∈ s.goals, g.id = w.goalId → g.status.isApproved = true) ∧
    ∃ p ∈ s.workflows, p.id = w.workflowId ∧ p.goalId = w.goalId ∧ s.IsLatest p

/-- The plan has items, and all have succeeded. -/
def HasDone (p : WorkflowRow) : Prop :=
  (∃ w ∈ s.workItems, w.workflowId = p.id) ∧ ∀ w ∈ s.workItems, w.workflowId = p.id → w.status = .succeeded

/-- Every approval is of a revision that was planned. -/
def Bound : Prop := ∀ a ∈ s.approvals, ∃ p ∈ s.workflows, p.goalId = a.goalId ∧ p.goalRevision = a.goalRevision

end Store

/-- `status IN ('verifying', 'achieved')`. -/
def GoalStatus.isDone : GoalStatus → Bool
  | verifying | achieved => true
  | _ => false

theorem GoalStatus.isApproved_of_isDone {st : GoalStatus} (h : st.isDone = true) : st.isApproved = true := by
  cases st <;> first | rfl | cases h

/-- The invariant of the revisions of all goals. -/
structure Revised (s : Store) : Prop where
  bound : s.Bound
  atWork : ∀ w ∈ s.workItems, w.status.isFinal = false → s.AtWork w
  done : ∀ g ∈ s.goals, g.status.isDone = true → ∃ p ∈ s.workflows, p.goalId = g.id ∧ s.IsLatest p ∧ s.HasDone p

theorem revised_empty : Revised .empty := by
  constructor <;> simp [Store.empty, Store.Bound]

/-! ## The current workflow -/

section Current

variable {s : Store} {g : GoalRow} {p : WorkflowRow} {goalId : String}

/-- A goal with a plan has a latest one. -/
theorem latest_exists (hp : p ∈ s.workflows) : ∃ q ∈ s.workflows, q.goalId = p.goalId ∧ s.IsLatest q := by
  cases hq : latestWorkflow? p.goalId s with
  | none =>
    have hnone := List.filter_eq_nil_iff.mp (pickBy_eq_none.mp hq) p hp
    exact absurd (decide_eq_true rfl) hnone
  | some q =>
    obtain ⟨hqm, hqg, hlatest⟩ := latestWorkflow?_eq_some hq
    exact ⟨q, hqm, hqg, hlatest⟩

/-- Under an approved status the current workflow is the latest plan. -/
theorem approvedWorkflow?_eq (hg : Gated s) (hbound : s.Bound) (hgm : g ∈ s.goals) (hst : g.status.isApproved = true)
    (hp : p ∈ s.workflows) (hpg : p.goalId = g.id) (hlatest : s.IsLatest p) : s.approvedWorkflow? g.id = some p := by
  obtain ⟨a, ha, hag, harev, -⟩ := hg.latest g hgm hst p hp hpg hlatest
  have hrev : s.approvedRevision? g.id = some p.goalRevision := by
    rw [Store.approvedRevision?, List.max?_eq_some_iff]
    refine ⟨List.mem_map.mpr ⟨a, List.mem_filter.mpr ⟨ha, by simp [hag, hpg]⟩, harev⟩, fun n hn => ?_⟩
    obtain ⟨b, hb, rfl⟩ := List.mem_map.mp hn
    obtain ⟨hbm, hbg⟩ := List.mem_filter.mp hb
    obtain ⟨q, hq, hqg, hqrev⟩ := hbound b hbm
    rw [← hqrev]
    exact hlatest q hq (hqg.trans ((of_decide_eq_true hbg).trans hpg.symm))
  cases hfind : s.approvedWorkflow? g.id with
  | none =>
    rw [Store.approvedWorkflow?, List.find?_eq_none] at hfind
    exact absurd (decide_eq_true ⟨hpg, hrev.symm⟩) (hfind p hp)
  | some q =>
    have hq := List.find?_some hfind
    rw [decide_eq_true_eq, hrev, Option.some.injEq] at hq
    rw [hg.plan_eq (List.mem_of_find?_eq_some hfind) hp (hq.1.trans hpg.symm) hq.2]

theorem Gated.item_goal (hg : Gated s) {w : WorkItemRow} (hw : w ∈ s.workItems) (hp : p ∈ s.workflows)
    (hid : w.workflowId = p.id) : w.goalId = p.goalId := by
  obtain ⟨q, hq, hqid, hqg, -⟩ := hg.items w hw
  rw [← hqg, eq_of_key_eq hg.planIds hq hp (hqid.trans hid)]

theorem mem_currentItems (hg : Gated s) (hcurrent : s.approvedWorkflow? goalId = some p)
    {w : WorkItemRow} : w ∈ s.currentItems goalId ↔ w ∈ s.workItems ∧ w.workflowId = p.id := by
  have hfind := hcurrent
  rw [Store.approvedWorkflow?] at hfind
  have hpg := List.find?_some hfind
  rw [decide_eq_true_eq] at hpg
  rw [Store.currentItems, List.mem_filter, hcurrent, decide_eq_true_eq, Option.map_some, Option.some.injEq]
  refine ⟨fun h => ⟨h.1, h.2.2⟩, fun h => ⟨h.1, ?_, h.2⟩⟩
  exact (hg.item_goal h.1 (List.mem_of_find?_eq_some hfind) h.2).trans hpg.1

theorem nextGoalStatus_verifying (h : s.nextGoalStatus goalId = some .verifying) :
    s.currentItems goalId ≠ [] ∧ ∀ w ∈ s.currentItems goalId, w.status = .succeeded := by
  unfold Store.nextGoalStatus at h
  dsimp only at h
  split_ifs at h with hall hfailed hprogressed
  · refine ⟨List.length_pos_iff.mp hall.1, fun w hw => ?_⟩
    have hkept := List.length_filter_eq_length_iff.mp hall.2 w hw
    exact of_decide_eq_true hkept
  · cases h
  · cases h

theorem nextGoalStatus_ne_none {w : WorkItemRow} (hw : w ∈ s.currentItems goalId)
    (hst : w.status = .succeeded) : s.nextGoalStatus goalId ≠ none := by
  have hprogressed : 0 < ((s.currentItems goalId).filter fun w => Store.isProgressed w.status).length :=
    List.length_pos_of_mem (List.mem_filter.mpr ⟨hw, by rw [hst]; rfl⟩)
  unfold Store.nextGoalStatus
  dsimp only
  split_ifs <;> simp

/-- Where the current items call for verification, the latest plan is done. -/
theorem done_of_verifying (hg : Gated s) (hbound : s.Bound) (hgm : g ∈ s.goals) (hst : g.status.isApproved = true)
    (hnext : s.nextGoalStatus g.id = some .verifying) :
    ∃ p ∈ s.workflows, p.goalId = g.id ∧ s.IsLatest p ∧ s.HasDone p := by
  obtain ⟨hne, hall⟩ := nextGoalStatus_verifying hnext
  obtain ⟨w, hw⟩ := List.exists_mem_of_ne_nil _ hne
  obtain ⟨hwm, hwg⟩ := List.mem_filter.mp hw
  obtain ⟨q, hq, -, hqg, -⟩ := hg.items w hwm
  obtain ⟨p, hp, hpg, hlatest⟩ := latest_exists hq
  have hgoal := hpg.trans (hqg.trans (of_decide_eq_true hwg).1)
  have hcurrent := approvedWorkflow?_eq hg hbound hgm hst hp hgoal hlatest
  exact ⟨p, hp, hgoal, hlatest, ⟨w, (mem_currentItems hg hcurrent).mp hw⟩,
    fun w hw hid => hall w ((mem_currentItems hg hcurrent).mpr ⟨hw, hid⟩)⟩

end Current

/-! ## One transaction -/

section Steps

variable {enc : Encoding} {s s' : Store} {t : Txn} {w' : WorkItemRow} {g' : GoalRow} {p : WorkflowRow}

/-- Only planning writes a plan, of a goal that is not approved. -/
theorem isLatest_apply (ht : s.apply enc t = .ok s') (hlatest : s.IsLatest p)
    (hgoal : t.isMaterializing = true ∨ ∀ g ∈ s.goals, g.id = p.goalId → g.status.isApproved = true) :
    s'.IsLatest p := by
  by_cases hplan : t.isPlanning = false
  · unfold Store.IsLatest
    rw [(plans_apply ht hplan).1]
    exact hlatest
  cases t with
  | planGoal goalId request externalWrite actor planId =>
    obtain ⟨goal, hg, hst, -, -, rfl⟩ := planGoal_ok ht
    obtain ⟨hgm, hgid⟩ := goal?_eq_some hg
    intro q hq hqg
    rcases List.mem_append.mp hq with hq | hq
    · exact hlatest q hq hqg
    · cases List.mem_singleton.mp hq
      have happ := (hgoal.resolve_left (by simp [Txn.isMaterializing])) goal hgm (hgid.trans hqg)
      rcases hst with hst | hst <;> rw [hst] at happ <;> cases happ
  | approveGoal =>
    obtain ⟨goal, plan, workItems, new, dependencies, -, -, -, -, -, -, -, -, -, rfl⟩ := approveGoal_ok ht
    exact hlatest
  | _ => exact absurd rfl hplan

/-- Only a cancel and a replan leave the approved statuses. -/
theorem GoalEvent.leaves_approved {e : GoalEvent} {st : GoalStatus} (h : e.allowed st = true)
    (hst : st.isApproved = true) : e.status.isApproved = true ∨ e = .cancel ∨ e = .replan := by
  cases e with
  | cancel => exact .inr (.inl rfl)
  | replan => exact .inr (.inr rfl)
  | plan | reject => cases st <;> simp [GoalStatus.isApproved, allowed, isRejectable] at h hst
  | refresh next =>
    left
    cases next <;> first | rfl | simp [allowed] at h
  | _ => exact .inl rfl

/-- A cancel or a replan of the goal leaves final items only. -/
theorem closed_final (ht : s.apply enc t = .ok s') {goalId : String}
    (hgov : t.Governs s' goalId .cancel ∨ t.Governs s' goalId .replan) (hw' : w' ∈ s'.workItems)
    (hgoal : w'.goalId = goalId) : w'.status.isFinal = true := by
  have hclosed : ∀ {error : String} {status : WorkItemStatus} {kept : List WorkItemStatus} {items : List WorkItemRow},
      (∀ st ∈ kept, st.isFinal = true) → status.isFinal = true → w' ∈ closeItems goalId error kept status items →
        w'.status.isFinal = true := by
    intro error status kept items hkept hstatus hm
    obtain ⟨w, hwm, rfl⟩ := mem_updateWhere.mp hm
    split_ifs with hp
    · exact hstatus
    · rw [if_neg hp] at hgoal
      simp only [hgoal, true_and, decide_eq_true_eq, not_not] at hp
      exact hkept _ hp
  cases t with
  | cancelGoal id reason actor =>
    obtain ⟨goal, error, -, -, rfl⟩ := cancelGoal_ok ht
    obtain ⟨rfl, -⟩ | ⟨-, h⟩ := hgov
    · exact hclosed (by decide) rfl hw'
    · cases h
  | markGoalForReplan id reason actor =>
    obtain ⟨goal, error, -, -, rfl⟩ := markGoalForReplan_ok ht
    obtain ⟨-, h⟩ | ⟨rfl, -⟩ := hgov
    · cases h
    · exact hclosed (by decide) rfl hw'
  | _ => simp [Txn.Governs] at hgov

/-- A new item is of its goal's latest plan, which is approved or extended. -/
theorem born_planned (hw : WellFormed s) (hg : Gated s) (ht : s.apply enc t = .ok s') (hw' : w' ∈ s'.workItems)
    (hnew : s.life? w'.id = none) : ∃ p ∈ s.workflows, p.id = w'.workflowId ∧ p.goalId = w'.goalId ∧ s.IsLatest p ∧
      (t.Governs s' w'.goalId .approve ∨ ∃ steps externalWrite actor workId,
        t = .extendWorkflow w'.goalId steps externalWrite actor workId) := by
  rw [life?_eq_none, workItem?_eq_none] at hnew
  by_cases hm : t.isMaterializing = false
  · obtain ⟨x, hx, ho⟩ := exists_of_map_eq (itemOrigins_apply ht hm).symm hw'
    exact absurd (List.mem_map.mpr ⟨x, hx, (columns_of_origin ho).1⟩) hnew
  cases t with
  | approveGoal goalId request externalWrite internalPolicy actor approvalId workId =>
    obtain ⟨goal, plan, workItems, new, dependencies, hgoal, -, -, hplan, -, -, hitems, -, -, rfl⟩ :=
      approveGoal_ok ht
    obtain ⟨hgm, hgid⟩ := goal?_eq_some hgoal
    obtain ⟨hpm, hpg, hprev⟩ := plan?_eq_some hplan
    rw [show _ = workItems from rfl, (materializeItems_ok hitems).1] at hw'
    rcases List.mem_append.mp hw' with hold | hborn
    · exact absurd (List.mem_map_of_mem hold) hnew
    · obtain ⟨i, step, -, rfl⟩ := mem_newItems.mp hborn
      refine ⟨plan, hpm, rfl, hpg, fun q hq hqg => ?_, .inl ⟨rfl, rfl⟩⟩
      obtain ⟨g, hg', hid, hrev⟩ := hg.planGoal q hq
      rw [hprev, ← eq_of_key_eq hw.goalIds hg' hgm (hid.trans (hqg.trans (hpg.trans hgid.symm)))]
      exact hrev
  | extendWorkflow goalId steps externalWrite actor workId =>
    obtain ⟨goal, plan, hgoal, hst, hlatest, -, hitems⟩ := extendWorkflow_items ht
    obtain ⟨hpm, hpg, hlast⟩ := latestWorkflow?_eq_some hlatest
    rw [hitems] at hw'
    rcases List.mem_append.mp hw' with hold | hborn
    · exact absurd (List.mem_map_of_mem hold) hnew
    · obtain ⟨i, step, -, rfl⟩ := mem_newItems.mp hborn
      exact ⟨plan, hpm, rfl, hpg, hlast, .inr ⟨steps, externalWrite, actor, workId, rfl⟩⟩
  | _ => exact absurd rfl hm

/-- A goal that is approved or extended is in an approved status. -/
theorem born_approved (hw : WellFormed s) (ht : s.apply enc t = .ok s') {goalId : String}
    (hborn : t.Governs s' goalId .approve ∨ ∃ steps externalWrite actor workId,
      t = .extendWorkflow goalId steps externalWrite actor workId) (hg' : g' ∈ s'.goals) (hid : g'.id = goalId) :
    g'.status.isApproved = true := by
  rcases hborn with hgov | ⟨steps, externalWrite, actor, workId, rfl⟩
  · cases t with
    | approveGoal =>
      obtain ⟨goal, plan, workItems, new, dependencies, -, -, -, -, -, -, -, -, -, rfl⟩ := approveGoal_ok ht
      obtain ⟨g, -, rfl⟩ := mem_updateWhere.mp hg'
      split_ifs at hid ⊢ with hp
      · rfl
      · exact absurd (decide_eq_true (hid.trans hgov.1.symm)) hp
    | _ => simp [Txn.Governs] at hgov
  · obtain ⟨goal, -, hgoal, hst, -⟩ := extendWorkflow_items ht
    obtain ⟨hgm, hgid⟩ := goal?_eq_some hgoal
    have hextensible : goal.status.isApproved = true := by
      cases h : goal.status <;> rw [h] at hst <;> first | rfl | cases hst
    rcases goal_apply hw ht hg' with ⟨g, hg, hgi, rfl | ⟨e, hgov, hstep⟩⟩ | ⟨hfresh, -⟩
    · rw [eq_of_key_eq hw.goalIds hg hgm (hid.trans hgid.symm)]
      exact hextensible
    · obtain ⟨-, st, rfl, hnext⟩ := hgov
      rw [hstep.eq]
      rcases nextGoalStatus_mem hnext with rfl | rfl | rfl <;> rfl
    · exact absurd (hgid.trans hid.symm) (hfresh goal hgm)

/-- **What can still move** belongs to the latest plan of an approved goal. -/
theorem atWork_apply (hw : WellFormed s) (hg : Gated s) (h : Revised s) (ht : s.apply enc t = .ok s')
    (hw' : w' ∈ s'.workItems) (hopen : w'.status.isFinal = false) : s'.AtWork w' := by
  have hkept := plans_exec enc s t
  rw [exec_of_ok ht] at hkept
  have hl' := (wellFormed_apply hw ht).life? hw'
  cases hl : s.life? w'.id with
  | none =>
    obtain ⟨p, hp, hid, hpg, hlatest, hborn⟩ := born_planned hw hg ht hw' hl
    have hmaterializes : t.isMaterializing = true := by
      rcases hborn with hgov | ⟨steps, externalWrite, actor, workId, rfl⟩
      · cases t with
        | approveGoal => rfl
        | _ => simp [Txn.Governs] at hgov
      · rfl
    exact ⟨fun g' hg' hgid => born_approved hw ht hborn hg' hgid, p, hkept hp, hid, hpg,
      isLatest_apply ht hlatest (.inl hmaterializes)⟩
  | some l =>
    obtain ⟨es, l₁, h₁, hpath, -, -⟩ := life_apply hw hl ht
    cases h₁.symm.trans hl'
    obtain ⟨-, hgoal, hworkflow, -⟩ := columns_of_origin hpath.origin
    have hbefore : l.item.status.isFinal = false := by
      by_contra hfinal
      rw [Bool.not_eq_false] at hfinal
      have hstays := hpath.keeps (I := fun l => l.item.status.isFinal = true) (p := fun _ => True)
        (fun _ _ _ _ hI hstep => hstep.final hI) (fun _ _ => trivial) hfinal
      exact absurd hstays (by simp [hopen])
    obtain ⟨happ, p, hp, hid, hpg, hlatest⟩ := h.atWork l.item (life_item hl).1 hbefore
    rw [← hgoal] at happ hpg
    refine ⟨fun g' hg' hgid => ?_, p, hkept hp, hid.trans hworkflow.symm, hpg,
      isLatest_apply ht hlatest (.inr fun g hgm hgid => happ g hgm (hgid.trans hpg))⟩
    rcases goal_apply hw ht hg' with ⟨g, hgm, hgi, rfl | ⟨e, hgov, hstep⟩⟩ | ⟨hfresh, -⟩
    · exact happ _ hgm hgid
    · rw [hgi.trans hgid] at hgov
      rcases GoalEvent.leaves_approved hstep.allowed (happ g hgm (hgi.trans hgid)) with hst | rfl | rfl
      · rw [hstep.eq]
        exact hst
      · exact absurd (closed_final ht (.inl hgov) hw' rfl) (by simp [hopen])
      · exact absurd (closed_final ht (.inr hgov) hw' rfl) (by simp [hopen])
    · obtain ⟨g, hgm, hgi, -⟩ := hg.planGoal p hp
      exact absurd (hgi.trans (hpg.trans hgid.symm)) (hfresh g hgm)

theorem bound_apply (h : s.Bound) (ht : s.apply enc t = .ok s') : s'.Bound := by
  by_cases hplan : t.isPlanning = false
  · rw [Store.Bound, (plans_apply ht hplan).1, (plans_apply ht hplan).2]
    exact h
  cases t with
  | planGoal =>
    obtain ⟨goal, -, -, -, -, rfl⟩ := planGoal_ok ht
    intro a ha
    obtain ⟨p, hp, hkey⟩ := h a ha
    exact ⟨p, List.mem_append_left _ hp, hkey⟩
  | approveGoal =>
    obtain ⟨goal, plan, workItems, new, dependencies, -, -, -, hplan', -, -, -, -, -, rfl⟩ := approveGoal_ok ht
    obtain ⟨hpm, hkey⟩ := plan?_eq_some hplan'
    intro a ha
    rcases List.mem_append.mp ha with ha | ha
    · exact h a ha
    · cases List.mem_singleton.mp ha
      exact ⟨plan, hpm, hkey⟩
  | _ => exact absurd rfl hplan

/-- What has succeeded stays, and without new items the plan is still done. -/
theorem hasDone_kept (hw : WellFormed s) (ht : s.apply enc t = .ok s') (h : s.HasDone p)
    (hold : ∀ w' ∈ s'.workItems, w'.workflowId = p.id → s.life? w'.id ≠ none) : s'.HasDone p := by
  obtain ⟨⟨w, hwm, hid⟩, hall⟩ := h
  refine ⟨?_, fun w' hw' hid' => ?_⟩
  · obtain ⟨w', hw', ho⟩ := item_exec enc t hwm
    rw [exec_of_ok ht] at hw'
    exact ⟨w', hw', (columns_of_origin ho).2.2.1.trans hid⟩
  · obtain ⟨l, hl⟩ := Option.ne_none_iff_exists'.mp (hold w' hw' hid')
    obtain ⟨hlm, hlid⟩ := life_item hl
    obtain ⟨es, l₁, h₁, hpath, -, -⟩ := life_apply hw hl ht
    cases h₁.symm.trans ((wellFormed_apply hw ht).life? hw')
    have hst := hall l.item hlm ((columns_of_origin hpath.origin).2.2.1.symm.trans hid')
    exact hpath.keeps (I := fun l => l.item.status = .succeeded) (p := fun _ => True)
      (fun _ _ _ _ hI hstep => hstep.succeeded hI) (fun _ _ => trivial) hst

/-- An extension of a goal in verification calls for a status: verification, if it leaves the goal there. -/
theorem extended_verifying (hw : WellFormed s) (hg' : Gated s') (hbound : s'.Bound) {goalId actor : String}
    {steps : List WorkflowStep} {externalWrite : ExternalWritePolicy} {workId : Nat → String}
    (ht : s.apply enc (.extendWorkflow goalId steps externalWrite actor workId) = .ok s') (hgm : g' ∈ s'.goals)
    (hid : g'.id = goalId) (hst : g'.status.isDone = true) (hcurrent : s'.approvedWorkflow? goalId = some p)
    (h : s.HasDone p) : s'.nextGoalStatus goalId = some .verifying := by
  obtain ⟨⟨w, hwm, hwid⟩, hall⟩ := h
  obtain ⟨w', hw', hwid', hsucceeded⟩ := hasSucceeded_exec enc hw ⟨w, hwm, rfl, hall w hwm hwid⟩
    (.extendWorkflow goalId steps externalWrite actor workId)
  obtain ⟨x, hx, ho⟩ := item_exec enc (.extendWorkflow goalId steps externalWrite actor workId) hwm
  rw [exec_of_ok ht] at hw' hx
  obtain ⟨hxid, -, hxworkflow, -⟩ := columns_of_origin ho
  rw [(wellFormed_apply hw ht).item_eq hx hw' (hxid.trans hwid'.symm)] at hxworkflow
  obtain ⟨st, hnext⟩ := Option.ne_none_iff_exists'.mp (nextGoalStatus_ne_none
    ((mem_currentItems hg' hcurrent).mpr ⟨hw', hxworkflow.trans hwid⟩) hsucceeded)
  rw [hnext]
  obtain ⟨goal, plan, workItems, new, dependencies, hgoal, hextensible, -, -, -, -, -, -, -, rfl⟩ :=
    extendWorkflow_ok ht
  rw [nextGoalStatus_refresh] at hnext
  change g' ∈ Store.goals (Store.refreshGoalStatus _ _) at hgm
  rw [goals_refresh _ _ hnext] at hgm
  obtain ⟨g, hg, rfl⟩ := mem_updateWhere.mp hgm
  obtain ⟨hgoalm, hgoalid⟩ := goal?_eq_some hgoal
  have hgid : g.id = goalId := by
    split_ifs at hid <;> exact hid
  have hrefreshable : Store.isRefreshable g.status = true := by
    rw [eq_of_key_eq hw.goalIds hg hgoalm (hgid.trans hgoalid.symm)]
    cases h : goal.status <;> rw [h] at hextensible <;> first | rfl | cases hextensible
  rw [if_pos (decide_eq_true ⟨hgid, hrefreshable⟩)] at hst
  rcases nextGoalStatus_mem hnext with rfl | rfl | rfl
  · rfl
  · cases hst
  · cases hst

/-- A goal in verification was there before, or the transaction has counted its items. -/
theorem done_before (hw : WellFormed s) (ht : s.apply enc t = .ok s') (hgm : g' ∈ s'.goals)
    (hst : g'.status.isDone = true) :
    (∃ g ∈ s.goals, g.id = g'.id ∧ g.status.isDone = true) ∨ s'.nextGoalStatus g'.id = some .verifying := by
  rcases goal_apply hw ht hgm with ⟨g, hgs, hid, rfl | ⟨e, hgov, hstep⟩⟩ | ⟨-, hnew, -⟩
  · exact .inl ⟨_, hgs, rfl, hst⟩
  · have hallowed := hstep.allowed
    rw [hstep.eq] at hst
    cases e with
    | achieve =>
      refine .inl ⟨g, hgs, hid, ?_⟩
      rw [show g.status = .verifying by simpa [GoalEvent.allowed] using hallowed]
      rfl
    | refresh next =>
      obtain ⟨-, hnext⟩ := refreshes_of_governs hgov
      rw [hid] at hnext
      rcases nextGoalStatus_mem hnext with rfl | rfl | rfl
      · exact .inr hnext
      · cases hst
      · cases hst
    | _ => cases hst
  · rw [hnew] at hst
    cases hst

/-- **A goal in verification has done its latest plan**, and stays so. -/
theorem done_apply (hw : WellFormed s) (hg : Gated s) (h : Revised s) (ht : s.apply enc t = .ok s')
    (hgm : g' ∈ s'.goals) (hst : g'.status.isDone = true) :
    ∃ p ∈ s'.workflows, p.goalId = g'.id ∧ s'.IsLatest p ∧ s'.HasDone p := by
  have hg' := gated_apply hw hg ht
  have hbound := bound_apply h.bound ht
  have hcount := done_of_verifying hg' hbound hgm (GoalStatus.isApproved_of_isDone hst)
  rcases done_before hw ht hgm hst with ⟨g, hgs, hid, hdone⟩ | hnext
  · obtain ⟨p, hp, hpg, hlatest, hbefore⟩ := h.done g hgs hdone
    have hkept := plans_exec enc s t
    rw [exec_of_ok ht] at hkept
    have hlatest' := isLatest_apply ht hlatest (.inr fun x hx hxid => by
      rw [eq_of_key_eq hw.goalIds hx hgs (hxid.trans hpg)]
      exact GoalStatus.isApproved_of_isDone hdone)
    by_cases hnew : ∃ w' ∈ s'.workItems, w'.workflowId = p.id ∧ s.life? w'.id = none
    · obtain ⟨w', hw', hwid, hborn⟩ := hnew
      obtain ⟨q, hq, hqid, hqg, -, hcause⟩ := born_planned hw hg ht hw' hborn
      have hgoal : w'.goalId = g'.id := by
        rw [← hqg, eq_of_key_eq hg.planIds hq hp (hqid.trans hwid), hpg, hid]
      rw [hgoal] at hcause
      rcases hcause with hgov | ⟨steps, externalWrite, actor, workId, rfl⟩
      · -- Only a goal in review is approved.
        cases t with
        | approveGoal =>
          obtain ⟨goal, plan, workItems, new, dependencies, hgoal', hreview, -⟩ := approveGoal_ok ht
          obtain ⟨hgoalm, hgoalid⟩ := goal?_eq_some hgoal'
          rw [eq_of_key_eq hw.goalIds hgs hgoalm (hid.trans (hgov.1.symm.trans hgoalid.symm)), hreview] at hdone
          cases hdone
        | _ => simp [Txn.Governs] at hgov
      · refine hcount (extended_verifying hw hg' hbound ht hgm rfl hst ?_ hbefore)
        exact approvedWorkflow?_eq hg' hbound hgm (GoalStatus.isApproved_of_isDone hst) (hkept hp) (hpg.trans hid)
          hlatest'
    · exact ⟨p, hkept hp, hpg.trans hid, hlatest',
        hasDone_kept hw ht hbefore fun w' hw' hwid hborn => hnew ⟨w', hw', hwid, hborn⟩⟩
  · exact hcount hnext

theorem revised_apply (hw : WellFormed s) (hg : Gated s) (h : Revised s) (ht : s.apply enc t = .ok s') :
    Revised s' where
  bound := bound_apply h.bound ht
  atWork _ hw' hopen := atWork_apply hw hg h ht hw' hopen
  done _ hgm hst := done_apply hw hg h ht hgm hst

end Steps

theorem revised_run (enc : Encoding) (ts : List Txn) : (WellFormed (Machine.run (exec enc) .empty ts) ∧
    Gated (Machine.run (exec enc) .empty ts)) ∧ Revised (Machine.run (exec enc) .empty ts) :=
  Machine.run_invariant' (I := fun s => (WellFormed s ∧ Gated s) ∧ Revised s)
    (fun _ t h => ⟨⟨wellFormed_exec t h.1.1, gated_exec h.1.1 t h.1.2⟩,
      exec_keeps h.2 fun _ => revised_apply h.1.1 h.1.2 h.2⟩)
    ⟨⟨wellFormed_empty, gated_empty⟩, revised_empty⟩

/-! ## Every run -/

/-- What can still move belongs to the current workflow, and its goal is approved. -/
def Store.SupersededRests (s : Store) : Prop :=
  ∀ w ∈ s.workItems, w.status.isFinal = true ∨
    (w ∈ s.currentItems w.goalId ∧ ∃ g ∈ s.goals, g.id = w.goalId ∧ g.status.isApproved = true)

/-- **Superseded work rests**: in every run no item of an earlier revision, and no item of a goal that is not
approved, can move again. -/
theorem superseded_rests (enc : Encoding) (ts : List Txn) : (Machine.run (exec enc) .empty ts).SupersededRests := by
  obtain ⟨⟨hw, hg⟩, h⟩ := revised_run enc ts
  intro w hwm
  by_cases hfinal : w.status.isFinal = true
  · exact .inl hfinal
  · obtain ⟨happ, p, hp, hid, hpg, hlatest⟩ := h.atWork w hwm (by simpa using hfinal)
    obtain ⟨g, hgm, hgid, -⟩ := hg.planGoal p hp
    rw [hpg] at hgid
    have hcurrent := approvedWorkflow?_eq hg h.bound hgm (happ g hgm hgid) hp (hpg.trans hgid.symm) hlatest
    rw [hgid] at hcurrent
    exact .inr ⟨(mem_currentItems hg hcurrent).mpr ⟨hwm, hid.symm⟩, g, hgm, hgid, happ g hgm hgid⟩

/-- A goal in verification, or achieved, has a current workflow with items, all succeeded. -/
def Store.DoneRests (s : Store) : Prop :=
  ∀ g ∈ s.goals, g.status.isDone = true → ∃ p, s.approvedWorkflow? g.id = some p ∧
    latestWorkflow? g.id s = some p ∧ s.currentItems g.id ≠ [] ∧ ∀ w ∈ s.currentItems g.id, w.status = .succeeded

theorem Revised.rests {s : Store} (hg : Gated s) (h : Revised s) : s.DoneRests := by
  intro g hgm hst
  obtain ⟨p, hp, hpg, hlatest, ⟨w, hwm, hwid⟩, hall⟩ := h.done g hgm hst
  have hcurrent := approvedWorkflow?_eq hg h.bound hgm (GoalStatus.isApproved_of_isDone hst) hp hpg hlatest
  refine ⟨p, hcurrent, ?_, List.ne_nil_of_mem ((mem_currentItems hg hcurrent).mpr ⟨hwm, hwid⟩), fun w hw => ?_⟩
  · cases hq : latestWorkflow? g.id s with
    | none =>
      have hnone := List.filter_eq_nil_iff.mp (pickBy_eq_none.mp hq) p hp
      exact absurd (decide_eq_true hpg) hnone
    | some q =>
      obtain ⟨hqm, hqg, hlast⟩ := latestWorkflow?_eq_some hq
      have hle := hlast p hp (hpg.trans hqg.symm)
      have hge := hlatest q hqm (hqg.trans hpg.symm)
      rw [hg.plan_eq hqm hp (hqg.trans hpg.symm) (Nat.le_antisymm hge hle)]
  · obtain ⟨hwm, hid⟩ := (mem_currentItems hg hcurrent).mp hw
    exact hall w hwm hid

/-- **Done stays done**: in every run, extensions and replans of any goals included. -/
theorem done_rests (enc : Encoding) (ts : List Txn) : (Machine.run (exec enc) .empty ts).DoneRests :=
  (revised_run enc ts).2.rests (revised_run enc ts).1.2

/-- What a verification rests on when it achieves the goal. -/
structure Store.Verified (s : Store) (goalId : String) (p : WorkflowRow) : Prop where
  approved : s.approvedWorkflow? goalId = some p
  succeeded : s.currentItems goalId ≠ [] ∧ ∀ w ∈ s.currentItems goalId, w.status = .succeeded
  criteria : ∀ criterion ∈ p.acceptance, criterionMet s goalId criterion = true
  /-- Nothing of the goal can move any more, so no outcome of it is still to come. -/
  final : ∀ w ∈ s.workItems, w.goalId = goalId → w.status.isFinal = true

theorem Revised.verified {s : Store} (hg : Gated s) (h : Revised s) {g : GoalRow} {p : WorkflowRow} (hgm : g ∈ s.goals)
    (hst : g.status.isDone = true) (hlatest : latestWorkflow? g.id s = some p)
    (hcriteria : ∀ criterion ∈ p.acceptance, criterionMet s g.id criterion = true) : s.Verified g.id p := by
  obtain ⟨q, hcurrent, hq, hdone⟩ := h.rests hg g hgm hst
  cases hq.symm.trans hlatest
  refine ⟨hcurrent, hdone, hcriteria, fun w hwm hwg => ?_⟩
  by_contra hopen
  obtain ⟨-, r, hr, hrid, hrg, hrlatest⟩ := h.atWork w hwm (by simpa using hopen)
  have hsame := approvedWorkflow?_eq hg h.bound hgm (GoalStatus.isApproved_of_isDone hst) hr (hrg.trans hwg) hrlatest
  rw [hdone.2 w ((mem_currentItems hg hsame).mpr ⟨hwm, hrid.symm⟩)] at hopen
  exact hopen rfl

/-- **Verification rests on the approved revision**: a goal that becomes achieved in any run was verified, under its
current workflow, after every item of it had succeeded. -/
theorem verification_rests (enc : Encoding) (ts : List Txn) (t : Txn) {g g' : GoalRow}
    (hgm : g ∈ (Machine.run (exec enc) .empty ts).goals) (hgm' : g' ∈ (Machine.run (exec enc) .empty (ts ++ [t])).goals)
    (hid : g'.id = g.id) (hst : g.status ≠ .achieved) (hst' : g'.status = .achieved) :
    (∃ actor, t = .verifyGoal g.id actor) ∧ ∃ p, (Machine.run (exec enc) .empty ts).Verified g.id p := by
  obtain ⟨⟨hw, hg⟩, h⟩ := revised_run enc ts
  rw [Machine.run_concat] at hgm'
  generalize Machine.run (exec enc) .empty ts = s at *
  have hsame : ∀ x ∈ s.goals, x.id = g'.id → x = g := fun x hx hxid => eq_of_key_eq hw.goalIds hx hgm (hxid.trans hid)
  rcases exec_cases enc s t with he | ht
  · rw [he] at hgm'
    rw [hsame g' hgm' rfl] at hst'
    exact absurd hst' hst
  · rcases goal_apply hw ht hgm' with ⟨x, hx, hxid, rfl | ⟨e, hgov, hstep⟩⟩ | ⟨-, hnew, -⟩
    · rw [hsame _ hx rfl] at hst'
      exact absurd hst' hst
    · cases hsame x hx hxid
      have he : e = .achieve := by
        have hallowed := hstep.allowed
        rw [hstep.eq] at hst'
        cases e with
        | achieve => rfl
        | refresh next =>
          rw [show next = .achieved from hst'] at hallowed
          simp [GoalEvent.allowed] at hallowed
        | _ => cases hst'
      subst he
      have hverifying : g.status = .verifying := by simpa [GoalEvent.allowed] using hstep.allowed
      cases t with
      | verifyGoal goalId actor =>
        obtain ⟨rfl, -⟩ := hgov
        refine ⟨⟨actor, rfl⟩, ?_⟩
        rcases verifyGoal_ok ht with hsame' | ⟨goal, plan, -, -, hlatest, ⟨hall, -⟩ | ⟨-, hs'⟩⟩
        · rw [hsame'] at hgm'
          rw [hsame g' hgm' rfl] at hst'
          exact absurd hst' hst
        · exact ⟨plan, h.verified hg hgm (by rw [hverifying]; rfl) hlatest (List.all_eq_true.mp hall)⟩
        · rw [hs'] at hgm'
          rw [hsame g' hgm' rfl] at hst'
          exact absurd hst' hst
      | _ => simp [Txn.Governs] at hgov
    · cases hnew.symm.trans hst'

/-- The one step of `solo` has succeeded, and an operator has accepted its result. -/
def Sample.signedOff : List Txn :=
  committed ++ finished ++ [.recordManualVerification "goal" "ok" "operator"]

theorem verification_rests_signedOff :
    ∃ p, (Machine.run (exec Sample.encoding) .empty Sample.signedOff).Verified "goal" p := by
  have hverifying : (Machine.run (exec Sample.encoding) .empty Sample.signedOff).goals.map (fun g => (g.id, g.status))
      = [("goal", .verifying)] := by decide +kernel
  have hachieved : (Machine.run (exec Sample.encoding) .empty
      (Sample.signedOff ++ [.verifyGoal "goal" "operator"])).goals.map (fun g => (g.id, g.status))
      = [("goal", .achieved)] := by decide +kernel
  obtain ⟨g, hg, he⟩ := List.mem_map.mp (hverifying ▸ List.mem_singleton_self _)
  obtain ⟨g', hg', he'⟩ := List.mem_map.mp (hachieved ▸ List.mem_singleton_self _)
  obtain ⟨hid, hst⟩ := Prod.mk.inj he
  obtain ⟨hid', hst'⟩ := Prod.mk.inj he'
  have h := verification_rests Sample.encoding Sample.signedOff (.verifyGoal "goal" "operator") hg hg'
    (hid'.trans hid.symm) (by rw [hst]; decide) hst'
  rw [hid] at h
  exact h.2

end Xiaomaolv
