import Xiaomaolv.Loop.Numbers

/-!
# Recovery is idempotent

* `AtRest`: recovery has nothing to do for the goal; **`recovered_atRest`**: it then writes nothing.
* `atRest_refreshed`: an unlock and a refresh put to rest a goal with nothing committed or expired;
  **`atRest_recovered`**: one recovery does.
* **`recovery_idempotent`**: a second recovery, or a second resume, at the same clock writes nothing.
-/

namespace Xiaomaolv

open Table LoopStore

/-! ## Goals at rest -/

/-- Recovery at `now` has nothing to do for the goal. -/
structure AtRest (goalId : String) (now : Int) (s : Store) : Prop where
  reconciled : ∀ c ∈ s.checkpoints, c.goalId = goalId → c.phase ≠ .committed
  leased : ∀ w ∈ s.workItems, w.goalId = goalId → w.status = .running → leaseExpired now w = false
  unlocked : ∀ w ∈ s.workItems, s.isUnlockable goalId w = false
  refreshed : ∀ st, s.nextGoalStatus goalId = some st →
    ∀ g ∈ s.goals, g.id = goalId → Store.isRefreshable g.status = true → g.status = st

section Settling

variable {s s' : Store} {goalId : String} {now : Int}

theorem committedCheckpoints_eq_nil
    (h : ∀ c ∈ s.checkpoints, c.goalId = goalId → c.phase ≠ .committed) :
    committedCheckpoints goalId s = [] := by
  refine List.filter_eq_nil_iff.mpr fun c hc hp => ?_
  rw [decide_eq_true_eq] at hp
  exact h c hc hp.1 hp.2

theorem expiredRows_eq_nil
    (h : ∀ w ∈ s.workItems, w.goalId = goalId → w.status = .running → leaseExpired now w = false) :
    expiredRows goalId now s = [] := by
  rw [expiredRows, List.map_eq_nil_iff, List.filter_eq_nil_iff]
  intro w hw hp
  rw [Bool.and_eq_true, decide_eq_true_eq] at hp
  rw [h w hw hp.1.1 hp.1.2] at hp
  cases hp.2

theorem unlockReady_eq_self (h : ∀ w ∈ s.workItems, s.isUnlockable goalId w = false) :
    s.unlockReady goalId = s := by
  rw [Store.unlockReady, updateWhere_eq_self h]

theorem refreshGoalStatus_eq_self (h : ∀ st, s.nextGoalStatus goalId = some st →
      ∀ g ∈ s.goals, g.id = goalId → Store.isRefreshable g.status = true → g.status = st) :
    s.refreshGoalStatus goalId = s := by
  unfold Store.refreshGoalStatus
  split
  · rfl
  · rename_i st hst
    -- Every row that the refresh meets has the status already.
    have hnone : updateWhere (fun g => g.id = goalId ∧ Store.isRefreshable g.status)
        (fun g => { g with
          status := st, revision := if g.status ≠ st then g.revision + 1 else g.revision })
        s.goals = updateWhere (fun _ => false) id s.goals := by
      refine updateWhere_congr fun g hg => ?_
      by_cases hp : g.id = goalId ∧ Store.isRefreshable g.status = true
      · have heq := h st hst g hg hp.1 hp.2
        rw [if_pos (decide_eq_true hp), if_neg Bool.false_ne_true, if_neg (not_not.mpr heq), ← heq]
      · rw [if_neg (by simpa using hp), if_neg Bool.false_ne_true]
    have hsame := hnone.trans (updateWhere_eq_self fun _ _ => rfl)
    rw [hsame]

/-- **Recovery leaves a goal at rest as it is.** -/
theorem recovered_atRest (h : AtRest goalId now s) (actor : String) :
    recovered goalId actor now s = s := by
  have hcommitted := committedCheckpoints_eq_nil h.reconciled
  have hreconciled : reconcileAll goalId s = s := by rw [reconcileAll, hcommitted]; rfl
  have hexpired := expiredRows_eq_nil h.leased
  have hlapsed : lapseAll goalId now s = s := by rw [lapseAll, hexpired]; rfl
  have hlocked : s.workItems.any (s.isUnlockable goalId) = false :=
    List.any_eq_false.mpr fun w hw => by rw [h.unlocked w hw]; exact Bool.false_ne_true
  unfold recovered
  dsimp only
  rw [hreconciled, hlapsed, unlockReady_eq_self h.unlocked, refreshGoalStatus_eq_self h.refreshed,
    hcommitted, hexpired, hlocked]
  rfl

theorem unlocked_unlockReady :
    ∀ w ∈ (s.unlockReady goalId).workItems, (s.unlockReady goalId).isUnlockable goalId w = false := by
  intro w hw
  obtain ⟨w₀, -, rfl⟩ := mem_updateWhere.mp hw
  rw [Store.isUnlockable, hasOpenPredecessor_unlockReady]
  split
  · simp
  · rename_i hp
    exact Bool.eq_false_iff.mpr hp

theorem isUnlockable_congr (hi : s'.workItems = s.workItems) (hd : s'.dependencies = s.dependencies) :
    s'.isUnlockable goalId = s.isUnlockable goalId := by
  funext w
  rw [Store.isUnlockable, Store.isUnlockable, hasOpenPredecessor_congr hi hd]

theorem refreshed_refreshGoalStatus {st : GoalStatus} (h : s.nextGoalStatus goalId = some st) :
    ∀ g ∈ (s.refreshGoalStatus goalId).goals, g.id = goalId → Store.isRefreshable g.status = true →
      g.status = st := by
  intro g hg hid href
  rw [goals_refresh s goalId h] at hg
  obtain ⟨g₀, -, rfl⟩ := mem_updateWhere.mp hg
  by_cases hp : g₀.id = goalId ∧ Store.isRefreshable g₀.status = true
  · rw [if_pos (decide_eq_true hp)]
  · rw [if_neg (by simpa using hp)] at hid href
    exact absurd ⟨hid, href⟩ hp

/-- **An unlock and a refresh put a goal to rest** that has nothing committed and nothing expired. -/
theorem atRest_refreshed
    (hcommitted : ∀ c ∈ s.checkpoints, c.goalId = goalId → c.phase ≠ .committed)
    (hleased : ∀ w ∈ s.workItems, w.goalId = goalId → w.status = .running →
      leaseExpired now w = false) :
    AtRest goalId now ((s.unlockReady goalId).refreshGoalStatus goalId) := by
  have htables := refreshGoalStatus_tables goalId (s := s.unlockReady goalId)
  refine ⟨fun c hc => hcommitted c (htables.2.2.1 ▸ hc), fun w hw hgoal hrun => ?_, fun w hw => ?_,
    fun st hst => ?_⟩
  · obtain ⟨w₀, hw₀, rfl⟩ := mem_updateWhere.mp (htables.1 ▸ hw)
    by_cases hp : s.isUnlockable goalId w₀ = true
    · rw [if_pos hp] at hrun
      cases hrun
    · rw [if_neg hp] at hgoal hrun ⊢
      exact hleased w₀ hw₀ hgoal hrun
  · have hsame : ((s.unlockReady goalId).refreshGoalStatus goalId).isUnlockable goalId
        = (s.unlockReady goalId).isUnlockable goalId := isUnlockable_congr htables.1 htables.2.2.2
    exact (congrFun hsame w).trans (unlocked_unlockReady w (htables.1 ▸ hw))
  · have hnext : (s.unlockReady goalId).nextGoalStatus goalId = some st :=
      (nextGoalStatus_refresh _ _ _).symm.trans hst
    exact refreshed_refreshGoalStatus hnext

theorem AtRest.withEvents (h : AtRest goalId now s) (events : List EventRow) :
    AtRest goalId now { s with events } :=
  ⟨h.reconciled, h.leased, h.unlocked, h.refreshed⟩

/-! ## After a recovery -/

theorem lapsed_committed :
    ∀ c ∈ (lapseAll goalId now (reconcileAll goalId s)).checkpoints,
      c.goalId = goalId → c.phase ≠ .committed := by
  refine foldl_keeps (I := fun s : Store => ∀ c ∈ s.checkpoints, c.goalId = goalId →
    c.phase ≠ .committed) (fun s row hs c hc hgoal => ?_) reconcileAll_committed
  simp only [lapse] at hc
  split at hc
  · exact hs c hc hgoal
  · obtain ⟨c₀, hc₀, rfl⟩ := mem_updateWhere.mp hc
    revert hgoal
    split
    · intro _ hphase
      cases hphase
    · exact hs c₀ hc₀

theorem lapsed_leased (hw : WellFormed s) : ∀ w ∈ (lapseAll goalId now s).workItems,
    w.goalId = goalId → w.status = .running → leaseExpired now w = false := by
  intro w hwm hgoal hrun
  have hw' : WellFormed (lapseAll goalId now s) := wellFormed_of_origin (origin_lapseAll s goalId now) hw
  have hl' := hw'.life? hwm
  cases hl : s.life? w.id with
  | none =>
    rw [life?_eq_none, workItem?_eq_none, ← itemIds_of_origin (origin_lapseAll s goalId now)] at hl
    exact absurd (List.mem_map_of_mem hwm) hl
  | some l =>
    have hlapsed := (life_lapseAll hw hl goalId now).symm.trans hl'
    split at hlapsed
    · -- What lapses no longer runs.
      have hst := congrArg (fun x => (x.map fun l : Life => l.item.status)) hlapsed
      simp only [Option.map_some, Option.some.injEq, hrun] at hst
      rcases Life.lapse_status l.expired with h | h | h <;> cases h.symm.trans hst
    · rename_i hnot
      have hitem : l.item = w := congrArg Life.item (Option.some.inj hlapsed)
      by_contra hexpired
      rw [hitem] at hnot
      exact hnot ⟨hgoal, hrun, Bool.not_eq_false _ ▸ hexpired⟩

/-- **One recovery puts its goal to rest.** -/
theorem atRest_recovered (hw : WellFormed s) (actor : String) :
    AtRest goalId now (recovered goalId actor now s) := by
  have hrest : AtRest goalId now
      (((lapseAll goalId now (reconcileAll goalId s)).unlockReady goalId).refreshGoalStatus goalId) :=
    atRest_refreshed lapsed_committed
      (lapsed_leased (wellFormed_of_origin (origin_reconcileAll s goalId) hw))
  unfold recovered
  dsimp only
  split
  · exact hrest.withEvents _
  · exact hrest

/-! ## Resumes -/

theorem recordResumed_recordResumed (actor actor' : String) :
    recordResumed goalId actor' (recordResumed goalId actor s) = recordResumed goalId actor s := by
  by_cases h : ((s.events.filter fun e => e.goalId = goalId).getLast?).any
      (fun e => e.eventType = "goal.resumed") = true
  · rw [recordResumed, recordResumed, if_pos h, if_pos h]
  · have hlast : (((s.insertEvent goalId "goal.resumed" actor).events.filter
        fun e => e.goalId = goalId).getLast?).any (fun e => e.eventType = "goal.resumed") = true := by
      simp [Store.insertEvent, List.filter_append]
    have hresumed : recordResumed goalId actor s = s.insertEvent goalId "goal.resumed" actor := by
      rw [recordResumed, if_neg h]
    rw [hresumed, recordResumed, if_pos hlast]

theorem resumeGoal_store {actor : String} (h : recoverGoalState goalId actor now s = .ok s') :
    (resumeGoal goalId actor now s).2 =
      if (resumeReport goalId s').toOption.join.isSome then recordResumed goalId actor s' else s' := by
  unfold resumeGoal
  rw [bind_of_ok (commit_of_ok h)]
  cases hreport : resumeReport goalId s' with
  | error e =>
    rw [bind_of_error (query_of_error hreport)]
    rfl
  | ok report =>
    rw [bind_of_ok (query_of_ok hreport)]
    cases report with
    | none => rfl
    | some report => rfl

theorem resumeReport_recordResumed (actor : String) :
    resumeReport goalId (recordResumed goalId actor s) = resumeReport goalId s := by
  unfold recordResumed
  split <;> rfl

theorem recoverGoalState_atRest (h : AtRest goalId now s) (hid : ensureValidId goalId "goal id" = .ok ())
    (actor : String) : recoverGoalState goalId actor now s = .ok s := by
  unfold recoverGoalState
  rw [hid]
  by_cases hg : s.goals.any (fun g => g.id = goalId) = true
  · have hsame : recovered goalId actor now s = s := recovered_atRest h actor
    rw [hsame, if_pos hg]
    rfl
  · rw [if_neg hg]
    rfl

theorem recordResumed_eq (actor : String) : ∃ events, recordResumed goalId actor s = { s with events } := by
  unfold recordResumed
  split
  · exact ⟨s.events, rfl⟩
  · exact ⟨_, rfl⟩

theorem recoverGoalState_again (hw : WellFormed s) {actor : String}
    (h : recoverGoalState goalId actor now s = .ok s') (actor' : String) (events : List EventRow) :
    recoverGoalState goalId actor' now { s' with events } = .ok { s' with events } := by
  cases hid : ensureValidId goalId "goal id" with
  | error e =>
    rw [recoverGoalState, hid] at h
    cases h
  | ok u =>
    rcases recoverGoalState_ok h with ⟨-, rfl⟩ | ⟨hnone, rfl⟩
    · exact recoverGoalState_atRest ((atRest_recovered hw actor).withEvents events) hid actor'
    · rw [recoverGoalState, hid, hnone]
      rfl

theorem recoverGoalState_error {actor e : String} (h : recoverGoalState goalId actor now s = .error e)
    (actor' : String) : recoverGoalState goalId actor' now s = .error e := by
  cases hid : ensureValidId goalId "goal id" with
  | error e' =>
    rw [recoverGoalState, hid] at h ⊢
    exact h
  | ok u =>
    obtain ⟨s₁, hs₁⟩ := recoverGoalState_isOk (s := s) actor now hid
    cases h.symm.trans hs₁

end Settling

/-- **Recovery is idempotent.** After every run, for every goal and clock: a second recovery, by
whomever, changes nothing, events included; and so does a second resume. -/
theorem recovery_idempotent (enc : Encoding) (ts : List Txn) (goalId actor actor' : String) (now : Int) :
    exec enc (exec enc (Machine.run (exec enc) .empty ts) (.recoverGoalState goalId actor now))
        (.recoverGoalState goalId actor' now)
      = exec enc (Machine.run (exec enc) .empty ts) (.recoverGoalState goalId actor now) ∧
    (resumeGoal goalId actor' now (resumeGoal goalId actor now (Machine.run (exec enc) .empty ts)).2).2
      = (resumeGoal goalId actor now (Machine.run (exec enc) .empty ts)).2 := by
  have hw := wellFormed_run enc ts
  generalize Machine.run (exec enc) .empty ts = s at hw ⊢
  cases h : recoverGoalState goalId actor now s with
  | error e =>
    have hagain := recoverGoalState_error h actor'
    have hexec : exec enc s (.recoverGoalState goalId actor now) = s :=
      congrArg (Store.orElse s) h
    have hexec' : exec enc s (.recoverGoalState goalId actor' now) = s :=
      congrArg (Store.orElse s) hagain
    have hresume : ∀ a, recoverGoalState goalId a now s = .error e →
        (resumeGoal goalId a now s).2 = s := by
      intro a ha
      unfold resumeGoal
      rw [bind_of_error (commit_of_error ha)]
    rw [hexec, hexec', hresume actor h, hresume actor' hagain]
    exact ⟨rfl, rfl⟩
  | ok s₁ =>
    have hagain : ∀ a events, _ := recoverGoalState_again hw h
    have hexec : exec enc s (.recoverGoalState goalId actor now) = s₁ := exec_of_ok h
    have hexec' : exec enc s₁ (.recoverGoalState goalId actor' now) = s₁ := exec_of_ok (hagain actor' s₁.events)
    refine ⟨by rw [hexec, hexec'], ?_⟩
    rw [resumeGoal_store h]
    by_cases hreport : (resumeReport goalId s₁).toOption.join.isSome = true
    · rw [if_pos hreport]
      -- The event of the first resume is the goal's last, so the second adds none.
      have hrest : recoverGoalState goalId actor' now (recordResumed goalId actor s₁)
          = .ok (recordResumed goalId actor s₁) := by
        obtain ⟨events, he⟩ : ∃ events, recordResumed goalId actor s₁ = { s₁ with events } :=
          recordResumed_eq actor
        rw [he]
        exact hagain actor' events
      rw [resumeGoal_store hrest, resumeReport_recordResumed, if_pos hreport, recordResumed_recordResumed]
    · rw [if_neg hreport, resumeGoal_store (hagain actor' s₁.events), if_neg hreport]

end Xiaomaolv
