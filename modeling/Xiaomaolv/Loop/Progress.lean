import Xiaomaolv.Loop.Layers
import Xiaomaolv.Loop.Propagation

/-!
# No silent deadlock

* `Retired`: an item is canceled under a goal that is not approved or has been approved again.
* `Parked`: an item has been blocked since its holder parked it for want of a handler.
* **`blocked_cause`**: a blocked item is parked, or an item of its goal has failed.
* `open_recovered`: after recovery every pending item has an open predecessor.
* **`no_silent_deadlock`**: an approved goal that is not through has an item that can still move.
-/

namespace Xiaomaolv

open Table LoopStore

/-! ## Canceled items -/

/-- The goal of a canceled item is not approved, or has been approved again. -/
def Retired (s : Store) : Prop :=
  ∀ w ∈ s.workItems, w.status = .canceled → ∀ g ∈ s.goals, g.id = w.goalId →
    g.status.isApproved = true → 2 ≤ (s.approvals.filter fun a => a.goalId = w.goalId).length

theorem columns_of_origin {w w' : WorkItemRow} (h : w.origin = w'.origin) :
    w.id = w'.id ∧ w.goalId = w'.goalId ∧ w.workflowId = w'.workflowId ∧ w.stepId = w'.stepId ∧
      w.input = w'.input := by
  simp only [WorkItemRow.origin, WorkItemRow.mk.injEq] at h
  exact ⟨h.1, h.2.1, h.2.2.1, h.2.2.2.1, h.2.2.2.2.2.2.2.1⟩

section Retirement

variable {enc : Encoding} {s s' : Store} {t : Txn} {goalId : String}

theorem approvals_apply (ht : s.apply enc t = .ok s') : s'.approvals = s.approvals ∨
    ∃ a, s'.approvals = s.approvals ++ [a] ∧ t.Governs s' a.goalId .approve := by
  by_cases hplan : t.isPlanning = false
  · exact .inl (plans_apply ht hplan).2
  cases t with
  | planGoal goalId request externalWrite actor planId =>
    obtain ⟨goal, -, -, -, -, rfl⟩ := planGoal_ok ht
    exact .inl rfl
  | approveGoal goalId request externalWrite internalPolicy actor approvalId workId =>
    obtain ⟨goal, plan, workItems, new, dependencies, -, -, -, -, -, -, -, -, -, rfl⟩ := approveGoal_ok ht
    exact .inr ⟨_, rfl, rfl, rfl⟩
  | _ => exact absurd rfl hplan

theorem governs_approve {id : String} (h : t.Governs s' goalId .approve) (h' : t.Governs s' id .approve) :
    goalId = id := by
  cases t with
  | approveGoal => exact h.1.symm.trans h'.1
  | _ => simp [Txn.Governs] at h

/-- An item that is canceled was canceled before, or its goal awaits a plan. -/
theorem canceled_apply (hw : WellFormed s) (ht : s.apply enc t = .ok s') {w' : WorkItemRow}
    (hw' : w' ∈ s'.workItems) (hst : w'.status = .canceled) :
    (∃ w ∈ s.workItems, w.origin = w'.origin ∧ w.status = .canceled) ∨
      ∀ g ∈ s'.goals, g.id = w'.goalId → g.status = .replan := by
  have hl' := (wellFormed_apply hw ht).life? hw'
  cases hl : s.life? w'.id with
  | none =>
    rcases (life_born hw ht hl hl').item.status with h | h <;> cases h.symm.trans hst
  | some l =>
    obtain ⟨es, l₁, h₁, hpath, hemits, -⟩ := life_apply hw hl ht
    cases h₁.symm.trans hl'
    by_cases hold : l.item.status = .canceled
    · exact .inl ⟨l.item, (life_item hl).1, hpath.origin.symm, hold⟩
    · obtain ⟨es₁, e, x, x', -, he, -, hx, hstep, hx'⟩ :=
        hpath.enters (P := fun l => l.item.status = .canceled) hold hst
      have hclose := hemits e he
      rw [hstep.cancels hx hx'] at hclose
      obtain ⟨reason, actor, ⟨-, h⟩ | ⟨rfl, -⟩⟩ := hclose.close
      · cases h
      · obtain ⟨goal, error, -, -, rfl⟩ := markGoalForReplan_ok ht
        right
        intro g hg hid
        obtain ⟨g₀, -, rfl⟩ := mem_updateWhere.mp hg
        by_cases hreplan : g₀.id = l.item.goalId
        · rw [if_pos (by simpa using hreplan)]
        · rw [if_neg (by simpa using hreplan)] at hid
          have hgoal : w'.goalId = l.item.goalId := hpath.goalId
          exact absurd (hid.trans hgoal) hreplan

theorem retired_apply (hw : WellFormed s) (hg : Gated s) (h : Retired s) (ht : s.apply enc t = .ok s') :
    Retired s' := by
  intro w' hw' hcanceled g' hg' hid happ
  rcases canceled_apply hw ht hw' hcanceled with ⟨w, hwm, horigin, hold⟩ | hreplan
  · obtain ⟨-, hgoal, -⟩ := columns_of_origin horigin
    obtain ⟨g, hgm, hgid, hst | ⟨hgov, -⟩⟩ := approved_before hw ht hg' happ
    · have htwo := h w hwm hold g hgm (hgid.trans (hid.trans hgoal.symm)) hst
      rw [← hgoal]
      rcases approvals_apply ht with hsame | ⟨a, hadd, -⟩
      · rw [hsame]
        exact htwo
      · rw [hadd, List.filter_append, List.length_append]
        omega
    · -- The item is gated, so the approval is not the goal's first.
      obtain ⟨p, -, -, hpg, ⟨a, ha, hag, -⟩, -⟩ := hg.items w hwm
      have hone : 0 < (s.approvals.filter fun a => a.goalId = w'.goalId).length := by
        refine List.length_pos_of_mem (List.mem_filter.mpr ⟨ha, ?_⟩)
        rw [hag, hpg, hgoal]
        exact decide_eq_true rfl
      rcases approvals_apply ht with hsame | ⟨b, hadd, hgov'⟩
      · cases t with
        | approveGoal goalId request externalWrite internalPolicy actor approvalId workId =>
          obtain ⟨goal, plan, workItems, new, dependencies, -, -, -, -, -, -, -, -, -, rfl⟩ :=
            approveGoal_ok ht
          exact absurd hsame (by simp [Store.insertEvent])
        | _ => simp [Txn.Governs] at hgov
      · have hb : b.goalId = w'.goalId := (governs_approve hgov' hgov).trans (hgid.trans hid)
        rw [hadd, List.filter_append, List.length_append, List.filter_cons_of_pos (by simp [hb])]
        rw [List.filter_nil, List.length_singleton]
        omega
  · rw [hreplan g' hg' hid] at happ
    cases happ

theorem retired_run (enc : Encoding) (ts : List Txn) : Retired (Machine.run (exec enc) .empty ts) :=
  (Machine.run_invariant' (I := fun s => (WellFormed s ∧ Gated s) ∧ Retired s)
    (fun _ t h => ⟨⟨wellFormed_exec t h.1.1, gated_exec h.1.1 t h.1.2⟩,
      exec_keeps h.2 fun _ => retired_apply h.1.1 h.1.2 h.2⟩)
    ⟨⟨wellFormed_empty, gated_empty⟩, by simp [Retired, Store.empty]⟩).2

end Retirement

/-! ## Blocked items -/

namespace Life

variable {l l' : Life} {e : Event} {es : List Event}

theorem Step.failed (h : l.Step e l') (hl : l.item.status = .failed) : l'.item.status = .failed := by
  cases h with
  | unlock h | requeue h | claim _ _ h | renew _ h | lapse _ h | verdict _ _ _ _ _ _ h =>
    cases h.symm.trans hl
  | block h =>
    rcases h with h | h <;> cases h.symm.trans hl
  | progress _ _ h | prepare _ _ h | commit _ _ _ h | release _ _ h => cases h.running.symm.trans hl
  | reconcile c =>
    have hne : l.item.status ≠ .running := by
      rw [hl]
      decide
    rw [Life.reconcile, if_neg hne]
    exact hl
  | close error attemptError status =>
    rw [Life.close, if_pos (by simp [hl])]
    exact hl

theorem Step.blocks (h : l.Step e l') (hl : l.item.status ≠ .blocked) (hl' : l'.item.status = .blocked) :
    e = .block ∨ ∃ id committed, e = .release id .blocked committed := by
  cases h with
  | block => exact .inl rfl
  | unlock | requeue | claim => cases hl'
  | renew | progress | prepare | commit => exact absurd hl' hl
  | reconcile c =>
    simp only [Life.reconcile] at hl'
    split at hl'
    · cases hl'
    · exact absurd hl' hl
  | release a r =>
    have hst : r.status = .blocked := hl'
    exact .inr ⟨a.id, _, by rw [hst]⟩
  | lapse =>
    rcases lapse_status l.expired with hst | hst | hst <;> cases hst.symm.trans hl'
  | verdict a c resolution reason exhausted =>
    rcases verdict_status resolution exhausted with hst | hst | hst <;> cases hst.symm.trans hl'
  | close error attemptError status hstatus =>
    simp only [Life.close] at hl'
    split at hl'
    · exact absurd hl' hl
    · rcases hstatus with hst | hst <;> cases hst.symm.trans hl'

end Life

section Blocking

variable {enc : Encoding} {s s' : Store} {t : Txn} {w : WorkItemRow}

/-- Some item of the goal has failed. -/
def Store.HasFailed (s : Store) (goalId : String) : Prop :=
  ∃ f ∈ s.workItems, f.goalId = goalId ∧ f.status = .failed

theorem hasFailed_apply (hw : WellFormed s) (ht : s.apply enc t = .ok s') {goalId : String}
    (h : s.HasFailed goalId) : s'.HasFailed goalId := by
  obtain ⟨f, hf, hgoal, hst⟩ := h
  obtain ⟨es, l', hl', hpath, -, -⟩ := life_apply hw (hw.life? hf) ht
  refine ⟨l'.item, (life_item hl').1, hpath.goalId.trans hgoal, ?_⟩
  have hstays : ∀ {l es l'}, Life.Path l es l' → l.item.status = .failed → l'.item.status = .failed := by
    intro l es l' h hl
    induction h with
    | nil => exact hl
    | cons hstep _ ih => exact ih (hstep.failed hl)
  exact hstays hpath hst

/-- A failure that blocks an item fails another of its goal. -/
theorem failAttempt_blocks {claim : WorkClaim} {error actor : String} {retryable : Bool} {now : Int}
    (hw : WellFormed s) (ht : s.apply enc (.failAttempt claim error retryable actor now) = .ok s')
    {w' : WorkItemRow} (hw' : w' ∈ s'.workItems) (hst : w'.status = .blocked) :
    (∃ w ∈ s.workItems, w.id = w'.id ∧ w.status = .blocked) ∨
      s'.HasFailed w'.goalId := by
  obtain ⟨hcur, row, hrow, rfl⟩ := failAttemptTx_ok ht
  obtain ⟨hrm, hrid⟩ := workItem?_eq_some hrow
  obtain ⟨a, hholds, -⟩ := claimCurrent_holds hw (hw.life? hrm) hcur hrid.symm
  have hrun : row.status = .running := hholds.running
  have htables := refreshGoalStatus_tables claim.attempt.goalId
    (s := failed claim row error (willRetry s row retryable) now s)
  change w' ∈ Store.workItems (Store.refreshGoalStatus _ _) at hw'
  change _ ∨ ∃ f ∈ Store.workItems (Store.refreshGoalStatus _ _), _
  rw [htables.1] at hw' ⊢
  have hold : ∀ r, ∀ x ∈ releaseItem claim.workItem.id r s.workItems,
      ∃ y ∈ s.workItems, y.id = x.id ∧ y.goalId = x.goalId := by
    intro r x hx
    obtain ⟨y, hy, rfl⟩ := mem_updateWhere.mp hx
    split <;> exact ⟨y, hy, rfl, rfl⟩
  -- The release leaves the item ready or failed, so it blocks none.
  have hreleased : ∀ retry, ∀ x ∈ releaseItem claim.workItem.id (failRelease row retry (takeChars 2000 error) now)
      s.workItems, x.status = .blocked → x ∈ s.workItems := by
    intro retry x hx hblocked
    obtain ⟨y, hy, rfl⟩ := mem_updateWhere.mp hx
    split at hblocked
    · rw [failRelease] at hblocked
      split at hblocked <;> cases hblocked
    · rename_i hne
      rw [if_neg hne]
      exact hy
  unfold failed at hw' ⊢
  cases hretry : willRetry s row retryable with
  | true =>
    rw [hretry, if_pos rfl] at hw'
    exact .inl ⟨w', hreleased true w' hw' hst, rfl, hst⟩
  | false =>
    rw [hretry] at hw'
    obtain ⟨x, hx, rfl⟩ := mem_updateWhere.mp hw'
    split at hst
    · rename_i hblock
      rw [if_pos hblock]
      rw [Bool.and_eq_true, List.contains_iff_mem] at hblock
      obtain ⟨f, hf, hfgoal, hfailed⟩ : ∃ f ∈ releaseItem claim.workItem.id
          (failRelease row false (takeChars 2000 error) now) s.workItems,
          f.goalId = row.goalId ∧ f.status = .failed := by
        refine ⟨_, mem_updateWhere.mpr ⟨row, hrm, rfl⟩, ?_⟩
        rw [if_pos (by simp [hrid, hrun])]
        exact ⟨rfl, rfl⟩
      obtain ⟨y, hy, hyid, hygoal⟩ := hold _ x hx
      have hfollows : s.Follows y row := by
        rw [Store.Follows, hyid, hrid]
        exact mem_downstream.mp hblock.1
      have hgoal : y.goalId = row.goalId := hfollows.goalId hw hrm hy
      refine .inr ⟨f, mem_updateWhere.mpr ⟨f, hf, ?_⟩, hfgoal.trans (hgoal.symm.trans hygoal), hfailed⟩
      rw [if_neg (by simp [hfailed])]
    · rename_i hblock
      rw [if_neg hblock]
      exact .inl ⟨x, hreleased false x hx hst, rfl, hst⟩

theorem Txn.Emits.block (h : t.Emits s w .block) :
    ∃ claim error retryable actor now, t = .failAttempt claim error retryable actor now := by
  cases t with
  | failAttempt claim error retryable actor now => exact ⟨claim, error, retryable, actor, now, rfl⟩
  | recoverGoalState | resolveWaitingConfirmation | finishAttempt => simp [Txn.Emits] at h
  | cancelGoal | markGoalForReplan | requeueBlockedItems | claimWork | prepareCheckpoint | renewClaim
  | commitCheckpoint | blockWorkItem | deferAttempt | continueAttempt | recordPhaseProgress => cases h.2
  | _ => cases h

theorem handback_blocked {claim : WorkClaim} {now : Int} (h : t.handback? s = some (claim, .blocked, now)) :
    ∃ reason actor, t = .blockWorkItem claim reason actor now := by
  cases t with
  | blockWorkItem claim' reason actor now' =>
    simp only [Txn.handback?, Option.some.injEq, Prod.mk.injEq, true_and] at h
    obtain ⟨rfl, rfl⟩ := h
    exact ⟨reason, actor, rfl⟩
  | failAttempt claim' error retryable actor now' =>
    simp only [Txn.handback?, Option.some.injEq, Prod.mk.injEq, failStatus] at h
    split at h <;> cases h.2.1
  | deferAttempt | continueAttempt => simp [Txn.handback?] at h
  | _ => cases h

variable (enc) in
/-- The item has been blocked since its holder parked it, as `process_claim` does for want of a handler. -/
def Parked (ts : List Txn) (id : String) : Prop :=
  ∃ us claim reason actor now vs, ts = us ++ .blockWorkItem claim reason actor now :: vs ∧
    claim.workItem.id = id ∧
    (∃ s, (Machine.run (exec enc) .empty us).apply enc (.blockWorkItem claim reason actor now) = .ok s) ∧
    ∀ ws, ws <+: vs → ∃ w ∈ (Machine.run (exec enc) .empty
      (us ++ .blockWorkItem claim reason actor now :: ws)).workItems, w.id = id ∧ w.status = .blocked

theorem Parked.concat {ts : List Txn} {id : String} (h : Parked enc ts id) (t : Txn)
    (hb : ∃ w ∈ (Machine.run (exec enc) .empty (ts ++ [t])).workItems, w.id = id ∧ w.status = .blocked) :
    Parked enc (ts ++ [t]) id := by
  obtain ⟨us, claim, reason, actor, now, vs, rfl, hid, happly, hsince⟩ := h
  refine ⟨us, claim, reason, actor, now, vs ++ [t], by simp, hid, happly, fun ws hws => ?_⟩
  rcases List.prefix_concat_iff.mp hws with rfl | hws
  · simpa using hb
  · exact hsince ws hws

/-- **What blocks an item**: it is parked, or an item of its goal has failed. -/
theorem blocked_cause (enc : Encoding) (ts : List Txn) :
    ∀ w ∈ (Machine.run (exec enc) .empty ts).workItems, w.status = .blocked →
      (Machine.run (exec enc) .empty ts).HasFailed w.goalId ∨ Parked enc ts w.id := by
  induction ts using List.reverseRecOn with
  | nil =>
    intro w hw
    cases hw
  | append_singleton ts t ih =>
    have hw := wellFormed_run enc ts
    intro w' hw' hst
    have hb : ∃ w ∈ (Machine.run (exec enc) .empty (ts ++ [t])).workItems, w.id = w'.id ∧ w.status = .blocked :=
      ⟨w', hw', rfl, hst⟩
    rw [Machine.run_concat] at hw' ⊢
    rcases exec_cases enc (Machine.run (exec enc) .empty ts) t with he | ht
    · rw [he] at hw' ⊢
      exact (ih w' hw' hst).imp_right fun hp => hp.concat t hb
    · cases hl : (Machine.run (exec enc) .empty ts).life? w'.id with
      | none =>
        rcases (life_born hw ht hl ((wellFormed_apply hw ht).life? hw')).item.status with h | h <;>
          cases h.symm.trans hst
      | some l =>
        obtain ⟨es, l', hl', hpath, hemits, -⟩ := life_apply hw hl ht
        obtain ⟨hlm, hlid⟩ := life_item hl
        cases hl'.symm.trans ((wellFormed_apply hw ht).life? hw')
        have hgoal : w'.goalId = l.item.goalId := hpath.goalId
        rw [hgoal]
        by_cases hold : l.item.status = .blocked
        · have hcause := ih l.item hlm hold
          rw [hlid] at hcause
          exact hcause.imp (hasFailed_apply hw ht) fun hp => hp.concat t hb
        · obtain ⟨es₁, e, x, x', -, he, -, hx, hstep, hx'⟩ :=
            hpath.enters (P := fun l => l.item.status = .blocked) hold hst
          have hcause := hemits e he
          rcases hstep.blocks hx hx' with rfl | ⟨id, committed, rfl⟩
          · obtain ⟨claim, error, retryable, actor, now, rfl⟩ := Txn.Emits.block hcause
            rcases failAttempt_blocks hw ht hw' hst with ⟨w, hwm, hid, hblocked⟩ | hfailed
            · cases hw.item_eq hwm hlm (hid.trans hlid.symm)
              exact absurd hblocked hold
            · exact .inl (hgoal ▸ hfailed)
          · obtain ⟨claim, now, hback, hitem, -, -⟩ := Txn.Emits.release hcause
            obtain ⟨reason, actor, rfl⟩ := handback_blocked hback
            refine .inr ⟨ts, claim, reason, actor, now, [], rfl, hitem.symm.trans hlid, ⟨_, ht⟩, fun ws hws => ?_⟩
            rw [List.prefix_nil.mp hws]
            exact hb

end Blocking

/-! ## After recovery -/

section Recovery

variable {s : Store} {goalId actor : String} {now : Int} {w : WorkItemRow}

/-- **Recovery leaves no unlockable item pending.** -/
theorem open_recovered (hw : w ∈ (recovered goalId actor now s).workItems) (hgoal : w.goalId = goalId)
    (hst : w.status = .pending) : (recovered goalId actor now s).hasOpenPredecessor w.id = true := by
  let lapsed := lapseAll goalId now (reconcileAll goalId s)
  have htables := refreshGoalStatus_tables goalId (s := lapsed.unlockReady goalId)
  have hitems : (recovered goalId actor now s).workItems = (lapsed.unlockReady goalId).workItems := by
    rw [← htables.1]
    simp only [recovered, lapsed]
    split <;> rfl
  have hdeps : (recovered goalId actor now s).dependencies = (lapsed.unlockReady goalId).dependencies := by
    rw [← htables.2.2.2]
    simp only [recovered, lapsed]
    split <;> rfl
  rw [hasOpenPredecessor_congr hitems hdeps, hasOpenPredecessor_unlockReady]
  rw [hitems] at hw
  obtain ⟨w₀, -, rfl⟩ := mem_updateWhere.mp hw
  split at hst
  · cases hst
  · rename_i hlocked
    rw [if_neg hlocked] at hgoal ⊢
    by_contra hclosed
    refine hlocked ?_
    simp only [Store.isUnlockable, hgoal, hst, Bool.eq_false_iff.mpr hclosed]
    rfl

theorem current_of_single (hg : Gated s) (hone : (s.approvals.filter fun a => a.goalId = goalId).length ≤ 1)
    (hw : w ∈ s.workItems) (hgoal : w.goalId = goalId) : w ∈ s.currentItems goalId := by
  obtain ⟨p, hp, hpid, hpgoal, ⟨a, ha, hag, harev, -⟩, -⟩ := hg.items w hw
  have ham : a ∈ s.approvals.filter fun a => a.goalId = goalId := by
    refine List.mem_filter.mpr ⟨ha, ?_⟩
    rw [hag, hpgoal, hgoal]
    exact decide_eq_true rfl
  have hsingle : (s.approvals.filter fun a => a.goalId = goalId) = [a] := by
    obtain ⟨b, hb⟩ := List.length_eq_one_iff.mp (Nat.le_antisymm hone (List.length_pos_of_mem ham))
    rw [hb] at ham ⊢
    rw [List.mem_singleton.mp ham]
  have hrev : s.approvedRevision? goalId = some p.goalRevision := by
    rw [Store.approvedRevision?, hsingle, ← harev]
    rfl
  have hfound : (s.approvedWorkflow? goalId).isSome = true := by
    rw [Store.approvedWorkflow?, List.find?_isSome]
    refine ⟨p, hp, decide_eq_true ⟨hpgoal.trans hgoal, hrev.symm⟩⟩
  obtain ⟨q, hq⟩ := Option.isSome_iff_exists.mp hfound
  have hqm := List.mem_of_find?_eq_some hq
  have hqspec := List.find?_some hq
  simp only [decide_eq_true_eq, hrev, Option.some.injEq] at hqspec
  have heq : q = p := hg.plan_eq hqm hp (hqspec.1.trans (hpgoal.trans hgoal).symm) hqspec.2
  refine List.mem_filter.mpr ⟨hw, decide_eq_true ⟨hgoal, ?_⟩⟩
  rw [hq, heq, Option.map_some, hpid]

end Recovery

variable (enc : Encoding) in
/-- The item can still move: it is ready, runs, awaits a confirmation or lacks its handler. -/
def CanMove (ts : List Txn) (w : WorkItemRow) : Prop :=
  w.status = .ready ∨ w.status = .running ∨ w.status = .waitingConfirmation ∨
    (w.status = .blocked ∧ Parked enc ts w.id)

/-- **No silent deadlock.** Under one approved revision, a goal that recovery leaves approved or active with
unfinished items and no failed one has an item that can move, and it never waits on its pending items only. -/
theorem no_silent_deadlock (enc : Encoding) (ts : List Txn) (goalId actor : String) (now : Int) {s : Store}
    (ht : (Machine.run (exec enc) .empty ts).apply enc (.recoverGoalState goalId actor now) = .ok s)
    (hone : (s.approvals.filter fun a => a.goalId = goalId).length ≤ 1)
    (hgoal : ∃ g ∈ s.goals, g.id = goalId ∧ (g.status = .approved ∨ g.status = .active)) :
    ((∃ w ∈ s.currentItems goalId, w.status ≠ .succeeded) →
      (∀ w ∈ s.currentItems goalId, w.status ≠ .failed) →
      ∃ w ∈ s.currentItems goalId, CanMove enc (ts ++ [.recoverGoalState goalId actor now]) w) ∧
    ((∀ w ∈ s.currentItems goalId, w.status = .succeeded ∨ w.status = .pending) →
      ∀ w ∈ s.currentItems goalId, w.status ≠ .pending) := by
  have hrun : Machine.run (exec enc) .empty (ts ++ [.recoverGoalState goalId actor now]) = s := by
    rw [Machine.run_concat, exec_of_ok ht]
  obtain ⟨hw, hg⟩ := gated_run enc (ts ++ [.recoverGoalState goalId actor now])
  obtain ⟨rank, hrank⟩ := (layered_run enc (ts ++ [.recoverGoalState goalId actor now])).items
  have hretired := retired_run enc (ts ++ [.recoverGoalState goalId actor now])
  have hcause := blocked_cause enc (ts ++ [.recoverGoalState goalId actor now])
  rw [hrun] at hw hg hrank hretired hcause
  obtain ⟨g, hgm, hgid, happ⟩ := hgoal
  have hopen : ∀ w ∈ s.workItems, w.goalId = goalId → w.status = .pending →
      s.hasOpenPredecessor w.id = true := by
    rcases recoverGoalState_ok ht with ⟨-, rfl⟩ | ⟨hnone, rfl⟩
    · exact fun w => open_recovered
    · rw [List.any_eq_false] at hnone
      exact absurd hgid (by simpa using hnone g hgm)
  -- Follow the open predecessors down the layers.
  have hmove : (∀ w ∈ s.currentItems goalId, w.status ≠ .failed) → ∀ w ∈ s.workItems, w.goalId = goalId →
      w.status ≠ .succeeded →
      ∃ w ∈ s.currentItems goalId, CanMove enc (ts ++ [.recoverGoalState goalId actor now]) w := by
    intro hfailed w
    induction hn : rank w.id using Nat.strong_induction_on generalizing w with
    | _ n ih =>
      intro hwm hwg hst
      have hcurrent := current_of_single hg hone hwm hwg
      cases hstatus : w.status with
      | pending =>
        have hpred := hopen w hwm hwg hstatus
        simp only [Store.hasOpenPredecessor, List.any_eq_true, Bool.and_eq_true, decide_eq_true_eq] at hpred
        obtain ⟨d, hd, hdw, p, hp, hdp, hpst⟩ := hpred
        obtain ⟨a, ha, b, hb, hai, hbi, hab⟩ := hw.dependencyItems d hd
        cases hw.item_eq ha hwm (hai.trans hdw)
        cases hw.item_eq hb hp (hbi.trans hdp.symm)
        refine ih (rank p.id) ?_ p rfl hp (hab.symm.trans hwg) hpst
        rw [← hn, hdp, ← hdw]
        exact hrank d hd
      | ready => exact ⟨w, hcurrent, .inl hstatus⟩
      | running => exact ⟨w, hcurrent, .inr (.inl hstatus)⟩
      | waitingConfirmation => exact ⟨w, hcurrent, .inr (.inr (.inl hstatus))⟩
      | blocked =>
        rcases hcause w hwm hstatus with ⟨f, hf, hfg, hfst⟩ | hparked
        · exact absurd hfst (hfailed f (current_of_single hg hone hf (hfg.trans hwg)))
        · exact ⟨w, hcurrent, .inr (.inr (.inr ⟨hstatus, hparked⟩))⟩
      | succeeded => exact absurd hstatus hst
      | failed => exact absurd hstatus (hfailed w hcurrent)
      | canceled =>
        have htwo := hretired w hwm hstatus g hgm (hgid.trans hwg.symm) (by
          rcases happ with h | h <;> rw [h] <;> rfl)
        rw [hwg] at htwo
        omega
  have hitem : ∀ w ∈ s.currentItems goalId, w ∈ s.workItems ∧ w.goalId = goalId := fun w hwc =>
    ⟨(List.mem_filter.mp hwc).1, (of_decide_eq_true (List.mem_filter.mp hwc).2).1⟩
  refine ⟨fun ⟨w, hwc, hst⟩ hfailed => ?_, fun hall w hwc hpending => ?_⟩
  · exact hmove hfailed w (hitem w hwc).1 (hitem w hwc).2 hst
  · have hfailed : ∀ w ∈ s.currentItems goalId, w.status ≠ .failed := by
      intro x hx hxst
      rcases hall x hx with h | h <;> cases h.symm.trans hxst
    obtain ⟨x, hx, hxmove⟩ := hmove hfailed w (hitem w hwc).1 (hitem w hwc).2 (by
      rw [hpending]
      decide)
    rcases hall x hx with hst | hst <;> rw [CanMove, hst] at hxmove <;> simp at hxmove

namespace Sample

/-- The first step of `chain` runs when the goal is recovered. -/
def recoveredChain : Store :=
  Machine.run (exec encoding) .empty (linked ++ [.recoverGoalState "goal" "janitor" 2])

end Sample

theorem no_silent_deadlock_chain :
    ((∃ w ∈ Sample.recoveredChain.currentItems "goal", w.status ≠ .succeeded) →
      (∀ w ∈ Sample.recoveredChain.currentItems "goal", w.status ≠ .failed) →
      ∃ w ∈ Sample.recoveredChain.currentItems "goal",
        CanMove Sample.encoding (Sample.linked ++ [.recoverGoalState "goal" "janitor" 2]) w) ∧
    ((∀ w ∈ Sample.recoveredChain.currentItems "goal", w.status = .succeeded ∨ w.status = .pending) →
      ∀ w ∈ Sample.recoveredChain.currentItems "goal", w.status ≠ .pending) :=
  no_silent_deadlock Sample.encoding Sample.linked "goal" "janitor" 2 (by decide +kernel) (by decide +kernel)
    (by decide +kernel)

end Xiaomaolv
