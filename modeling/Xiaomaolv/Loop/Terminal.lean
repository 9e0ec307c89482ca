import Xiaomaolv.Loop.GoalLife

/-!
# Goals that have ended

A goal that failed, was canceled, rejected or achieved comes back through a replan, a new plan and the
approval of it.

* `GoalStatus.isEnded`, `GoalStatus.isDispatched`; `Renewed`: a run commits the three, in order.
* `Store.sparesFailed`: what the items of a failed goal must be when its status is computed again;
  **`nextGoalStatus_revives`**: just then the computation leaves the goal failed.
* `GoalStatus.renewal`: how many of the three a status needs; **`renewal_run`**: a run has passed them.
* **`ended_stays`**: along every run that spares failed goals, what has ended stays ended.
-/

namespace Xiaomaolv

open Table LoopStore

/-! ## Ended goals -/

def GoalStatus.isEnded : GoalStatus → Bool
  | failed | canceled | rejected | achieved => true
  | _ => false

/-- The statuses that an ended goal must not come back to. -/
def GoalStatus.isDispatched : GoalStatus → Bool
  | approved | active | verifying | achieved => true
  | _ => false

section Statements

variable (enc : Encoding) (goalId : String)

/-- The transaction commits, and does the event to the goal. -/
def Does (e : GoalEvent) (s : Store) (t : Txn) : Prop :=
  ∃ s', s.apply enc t = .ok s' ∧ t.Governs s' goalId e

/-- The ways back: `mark_goal_for_replan`, then `plan_goal`, then `approve_goal`. -/
def renewals : List (Store → Txn → Prop) :=
  [Does enc goalId .replan, Does enc goalId .plan, Does enc goalId .approve]

/-- The run commits a replan of the goal, then a plan of it, then an approval of it. -/
def Renewed (s : Store) (ts : List Txn) : Prop := Machine.Passes (exec enc) (renewals enc goalId) s ts

/-- The transaction claims an item of the goal. -/
def Claims (s : Store) : Txn → Prop
  | .claimWork id stepId workerId leaseSecs actor leaseToken attemptId now =>
    ∃ work s', claimTx id stepId workerId leaseSecs actor leaseToken attemptId now s = .ok (some work, s') ∧
      work.workItem.goalId = goalId
  | _ => False

/-- If the goal has ended in `s`, the run `ts` from `s` neither dispatches it again nor lets an item of it be
claimed, unless it renews the goal. -/
def EndedStays (s : Store) (ts : List Txn) : Prop :=
  ∀ g ∈ s.goals, g.id = goalId → g.status.isEnded = true →
    (∀ g' ∈ (Machine.run (exec enc) s ts).goals, g'.id = goalId → g'.status.isDispatched = true →
      g'.status = g.status ∨ Renewed enc goalId s ts) ∧
    ∀ t, Claims goalId (Machine.run (exec enc) s ts) t → Renewed enc goalId s ts

end Statements

/-! ## What the status of a failed goal is computed from -/

/-- One of the goal's current items has failed, or none of them is running, succeeded or waiting. -/
def Store.sparesFailed (s : Store) (goalId : String) : Bool :=
  (s.currentItems goalId).any (fun w => w.status = .failed) ||
    (s.currentItems goalId).all fun w => !Store.isProgressed w.status

/-- The transactions that end with `refresh_goal_status_tx` of the goal. -/
def Txn.refreshes (goalId : String) : Txn → Bool
  | .extendWorkflow id .. | .recoverGoalState id .. | .resolveWaitingConfirmation id .. => id = goalId
  | .finishAttempt claim .. | .failAttempt claim .. => claim.attempt.goalId = goalId
  | _ => false

/-- A transaction that computes the status of a failed goal again spares it. -/
def SparesFailed (enc : Encoding) (s : Store) (t : Txn) : Prop :=
  (s.apply enc t).isOk = true → ∀ g ∈ s.goals, g.status = .failed → t.refreshes g.id = true →
    (exec enc s t).sparesFailed g.id = true

instance (enc : Encoding) (s : Store) (t : Txn) : Decidable (SparesFailed enc s t) := by
  unfold SparesFailed; infer_instance

/-- **A refresh leaves a failed goal failed just when its items spare it.** -/
theorem nextGoalStatus_revives (s : Store) (goalId : String) :
    (∀ st, s.nextGoalStatus goalId = some st → st = .failed) ↔ s.sparesFailed goalId = true := by
  unfold Store.nextGoalStatus Store.sparesFailed
  generalize s.currentItems goalId = items
  dsimp only
  rw [Bool.or_eq_true, List.any_eq_true, List.all_eq_true]
  split_ifs with hall hfailed hprogressed
  · -- All have succeeded, and there is one.
    have hsucc : ∀ w ∈ items, w.status = .succeeded := by
      simpa using List.length_filter_eq_length_iff.mp hall.2
    obtain ⟨w, hw⟩ := List.length_pos_iff_exists_mem.mp hall.1
    constructor
    · intro h
      cases h _ rfl
    · rintro (⟨v, hv, hfail⟩ | hnone)
      · rw [hsucc v hv] at hfail
        cases hfail
      · have hopen := hnone w hw
        rw [hsucc w hw] at hopen
        cases hopen
  · obtain ⟨w, hw⟩ := List.length_pos_iff_exists_mem.mp hfailed
    obtain ⟨hwm, hst⟩ := List.mem_filter.mp hw
    constructor
    · intro _
      exact .inl ⟨w, hwm, hst⟩
    · intro _ st h
      exact (Option.some.inj h).symm
  · obtain ⟨w, hw⟩ := List.length_pos_iff_exists_mem.mp hprogressed
    obtain ⟨hwm, hst⟩ := List.mem_filter.mp hw
    constructor
    · intro h
      cases h _ rfl
    · rintro (⟨v, hv, hfail⟩ | hnone)
      · exact absurd (List.length_pos_of_mem (List.mem_filter.mpr ⟨hv, hfail⟩)) hfailed
      · have hopen := hnone w hwm
        rw [hst] at hopen
        cases hopen
  · constructor
    · intro _
      refine .inr fun w hw => ?_
      rw [Bool.not_eq_true']
      by_contra hst
      rw [Bool.not_eq_false] at hst
      exact hprogressed (List.length_pos_of_mem (List.mem_filter.mpr ⟨hw, hst⟩))
    · intro _ st h
      cases h

/-! ## How far a goal is from its end -/

/-- How many of the three transactions stand between an end and the status. -/
def GoalStatus.renewal : GoalStatus → Nat
  | failed | canceled | rejected => 0
  | replan => 1
  | reviewReady => 2
  | _ => 3

theorem GoalStatus.renewal_dispatched {st : GoalStatus} (h : st.isDispatched = true) : st.renewal = 3 := by
  cases st with
  | approved | active | verifying | achieved => rfl
  | _ => cases h

theorem GoalEvent.renewal_le {e : GoalEvent} {st : GoalStatus} (h : e.allowed st = true)
    (hspared : st = .failed → ∀ next, e = .refresh next → next = .failed) :
    e.status.renewal ≤ st.renewal ∨ (e = .replan ∧ st.renewal = 0) ∨ (e = .plan ∧ st.renewal = 1) ∨
      (e = .approve ∧ st.renewal = 2) := by
  cases e with
  | replan =>
    cases st <;> first | exact .inr (.inl ⟨rfl, rfl⟩) | exact .inl (by decide)
  | plan =>
    cases st <;> first | exact .inr (.inr (.inl ⟨rfl, rfl⟩)) | exact .inl (by decide) | cases h
  | approve =>
    cases st <;> first | exact .inr (.inr (.inr ⟨rfl, rfl⟩)) | cases h
  | refresh next =>
    refine .inl ?_
    cases st with
    | failed =>
      rw [hspared rfl next rfl]
      decide
    | approved | active | verifying =>
      have hle : ∀ st' : GoalStatus, st'.renewal ≤ 3 := by
        intro st'
        cases st' <;> decide
      exact hle next
    | _ => cases h
  | cancel | reject | expire => exact .inl (Nat.zero_le _)
  | pause | unpause | achieve | claim =>
    cases st <;> first | exact .inl (by decide) | cases h

section Runs

variable {enc : Encoding} {s s' : Store} {t : Txn} {goalId : String}

theorem refreshes_of_governs {st : GoalStatus} (h : t.Governs s' goalId (.refresh st)) :
    t.refreshes goalId = true ∧ s'.nextGoalStatus goalId = some st := by
  cases t with
  | extendWorkflow | recoverGoalState | resolveWaitingConfirmation | finishAttempt | failAttempt =>
    obtain ⟨hid, st', he, hnext⟩ := h
    cases he
    exact ⟨decide_eq_true hid, hnext⟩
  | planGoal | approveGoal | cancelGoal | pauseGoal | unpauseGoal | rejectGoal | markGoalForReplan
  | verifyGoal | claimWork => cases h.2
  | expireOverdueGoals => cases h
  | _ => exact h.elim

/-- Along a run from an end in `st₀`, the status `st` is that end or has passed the stages that it needs. -/
def Held (enc : Encoding) (goalId : String) (st₀ : GoalStatus) (s : Store) (ts : List Txn) (st : GoalStatus) :
    Prop :=
  (st = .achieved ∧ st₀ = .achieved) ∨
    Machine.Passes (exec enc) ((renewals enc goalId).take st.renewal) s ts

theorem passes_take {Ps : List (Store → Txn → Prop)} {ts : List Txn} {k n : Nat} (hk : k ≤ n)
    (h : Machine.Passes (exec enc) (Ps.take n) s ts) : Machine.Passes (exec enc) (Ps.take k) s ts := by
  have hsplit := List.take_append_drop k (Ps.take n)
  rw [List.take_take, Nat.min_eq_left hk] at hsplit
  rw [← hsplit] at h
  exact h.of_append

variable {ts : List Txn} {st₀ st : GoalStatus} {e : GoalEvent}

theorem Held.event (h : Held enc goalId st₀ s ts st)
    (ht : Does enc goalId e (Machine.run (exec enc) s ts) t) (hallowed : e.allowed st = true)
    (hspared : st = .failed → ∀ next, e = .refresh next → next = .failed) :
    Held enc goalId st₀ s (ts ++ [t]) e.status := by
  rcases h with ⟨rfl, -⟩ | hpasses
  · -- Nothing happens to a goal that has been achieved.
    cases e <;> cases hallowed
  · refine .inr ?_
    rcases GoalEvent.renewal_le hallowed hspared with hle | ⟨rfl, hst⟩ | ⟨rfl, hst⟩ | ⟨rfl, hst⟩
    · exact passes_take hle hpasses.append
    all_goals
      rw [hst] at hpasses
      exact hpasses.concat ht

theorem held_step (hw : WellFormed (Machine.run (exec enc) s ts))
    (hspares : SparesFailed enc (Machine.run (exec enc) s ts) t) {g : GoalRow}
    (hg : g ∈ (Machine.run (exec enc) s ts).goals) (hid : g.id = goalId)
    (h : Held enc goalId st₀ s ts g.status) :
    ∃ g' ∈ (Machine.run (exec enc) s (ts ++ [t])).goals, g'.id = goalId ∧
      Held enc goalId st₀ s (ts ++ [t]) g'.status := by
  have hlonger : Held enc goalId st₀ s (ts ++ [t]) g.status := h.imp_right Machine.Passes.append
  rw [Machine.run_concat]
  rcases exec_cases enc (Machine.run (exec enc) s ts) t with hsame | hok
  · rw [hsame]
    exact ⟨g, hg, hid, hlonger⟩
  · obtain ⟨g', hg', hid', rfl | ⟨e, hgov, hallowed, heq⟩⟩ := goal_kept hw hok hg
    · exact ⟨g', hg', hid, hlonger⟩
    · refine ⟨g', hg', hid'.trans hid, ?_⟩
      have hspared : g.status = .failed → ∀ next, e = .refresh next → next = .failed := by
        rintro hst next rfl
        obtain ⟨href, hnext⟩ := refreshes_of_governs hgov
        have hok' : ((Machine.run (exec enc) s ts).apply enc t).isOk = true := by rw [hok]; rfl
        exact (nextGoalStatus_revives _ _).mpr (hspares hok' g hg hst href) next hnext
      have hevent := h.event ⟨_, hok, hid ▸ hgov⟩ hallowed hspared
      rw [heq]
      exact hevent

/-- **What has ended is held along every run that spares failed goals.** -/
theorem held_run (hw : WellFormed s) (hrun : Machine.Along (exec enc) (SparesFailed enc) s ts) {g : GoalRow}
    (hg : g ∈ s.goals) (hid : g.id = goalId) (hend : g.status.isEnded = true) :
    ∃ g' ∈ (Machine.run (exec enc) s ts).goals, g'.id = goalId ∧
      Held enc goalId g.status s ts g'.status := by
  induction ts using List.reverseRecOn with
  | nil =>
    refine ⟨g, hg, hid, ?_⟩
    cases hst : g.status with
    | achieved => exact .inl ⟨rfl, rfl⟩
    | failed | canceled | rejected => exact .inr trivial
    | _ =>
      rw [hst] at hend
      cases hend
  | append_singleton ts t ih =>
    obtain ⟨hts, hspares, -⟩ := Machine.along_append.mp hrun
    obtain ⟨g', hg', hid', hheld⟩ := ih hts
    exact held_step (Machine.run_invariant' (fun _ t => wellFormed_exec t) hw) hspares hg' hid' hheld

theorem Held.renewed (h : Held enc goalId st₀ s ts st) (hst : st.isDispatched = true) :
    st = st₀ ∨ Renewed enc goalId s ts := by
  rcases h with ⟨rfl, rfl⟩ | hpasses
  · exact .inl rfl
  · rw [GoalStatus.renewal_dispatched hst] at hpasses
    exact .inr hpasses

theorem claims_dispatched (h : Claims goalId s t) :
    ∃ g ∈ s.goals, g.id = goalId ∧ (g.status = .approved ∨ g.status = .active) := by
  cases t with
  | claimWork id stepId workerId leaseSecs actor leaseToken attemptId now =>
    obtain ⟨work, s₁, hclaim, hgoal⟩ := h
    obtain ⟨goal, hg, hst, ⟨hnone, -⟩ | ⟨row, workItem, budget, hrow, hdecode, -, hsome, -⟩⟩ := claimTx_ok hclaim
    · cases hnone
    · cases hsome
      simp only [decodeWorkItem, bind_eq_ok, pure_eq_ok] at hdecode
      obtain ⟨maxAttempts, -, ordinal, -, rfl⟩ := hdecode
      have hclaimable := (claimCandidate?_mem hrow).2
      simp only [isClaimable, Bool.and_eq_true, decide_eq_true_eq] at hclaimable
      obtain ⟨hgm, hgid⟩ := goal?_eq_some hg
      exact ⟨goal, hgm, hgid.trans (hclaimable.1.1.1.1.symm.trans hgoal), hst⟩
  | _ => exact h.elim

end Runs

/-- **Ended goals stay ended** in every run whose steps spare failed goals: from any state of it, a goal that
has failed, or was canceled, rejected or achieved, is not approved, active, verifying or achieved again, and
no item of it is claimed, before a replan of it, a new plan and its approval have been committed. -/
theorem ended_stays (enc : Encoding) (goalId : String) (l m : List Txn)
    (hrun : Machine.Along (exec enc) (SparesFailed enc) .empty (l ++ m)) :
    EndedStays enc goalId (Machine.run (exec enc) .empty l) m := by
  intro g hg hid hend
  have hw := wellFormed_run enc l
  obtain ⟨g', hg', hid', hheld⟩ := held_run hw (Machine.along_append.mp hrun).2 hg hid hend
  have hwm : WellFormed (Machine.run (exec enc) (Machine.run (exec enc) .empty l) m) :=
    Machine.run_invariant' (fun _ t => wellFormed_exec t) hw
  have hdispatched : ∀ g'' ∈ (Machine.run (exec enc) (Machine.run (exec enc) .empty l) m).goals,
      g''.id = goalId → g''.status.isDispatched = true →
        g''.status = g.status ∨ Renewed enc goalId (Machine.run (exec enc) .empty l) m := by
    intro g'' hg'' hid'' hst
    rw [eq_of_key_eq hwm.goalIds hg'' hg' (hid''.trans hid'.symm)] at hst ⊢
    exact hheld.renewed hst
  refine ⟨hdispatched, fun t hclaim => ?_⟩
  obtain ⟨g'', hg'', hid'', hst⟩ := claims_dispatched hclaim
  rcases hdispatched g'' hg'' hid'' (by rcases hst with h | h <;> rw [h] <;> rfl) with hsame | hrenewed
  · -- No end is approved or active.
    rw [← hsame] at hend
    rcases hst with h | h <;> rw [h] at hend <;> cases hend
  · exact hrenewed

theorem Renewed.replanned {enc : Encoding} {goalId : String} {s : Store} {ts : List Txn}
    (h : Renewed enc goalId s ts) : ∃ reason actor, .markGoalForReplan goalId reason actor ∈ ts := by
  obtain ⟨l, t, r, rfl, ⟨s', -, hgov⟩, -⟩ := h
  cases t with
  | markGoalForReplan id reason actor =>
    obtain ⟨rfl, -⟩ := hgov
    exact ⟨reason, actor, List.mem_append_right _ List.mem_cons_self⟩
  | planGoal | approveGoal | cancelGoal | pauseGoal | unpauseGoal | rejectGoal | verifyGoal | claimWork =>
    cases hgov.2
  | extendWorkflow | recoverGoalState | resolveWaitingConfirmation | finishAttempt | failAttempt =>
    obtain ⟨-, st, he, -⟩ := hgov
    cases he
  | expireOverdueGoals => cases hgov
  | _ => exact hgov.elim

namespace Sample

/-- A worker holds the first step of `chain` when the goal's deadline passes. -/
def expired : List Txn :=
  admission chain ++ [.claimWork "goal" none "w1" 300 "runtime:w1" "lease1" "attempt1" 0,
    .reserveProviderCall "goal" 0, .expireOverdueGoals 64 61]

/-- An operator replans the expired goal and approves the plan again. -/
def renewal : List Txn :=
  .markGoalForReplan "goal" "more time" "operator" :: approve chain 3 "2"

/-- The worker finishes its step after the goal has expired. -/
def lateFinish : List Txn :=
  [.prepareCheckpoint (firstClaim "lease1" "attempt1") "first:attempt1:v1" true "runtime:w1" "checkpoint1" 62,
    .commitCheckpoint (firstClaim "lease1" "attempt1") "checkpoint1" outcome "runtime:w1" 63,
    .finishAttempt (firstClaim "lease1" "attempt1") "checkpoint1" "runtime:w1" 64]

end Sample

theorem ended_stays_renewal :
    (Machine.run (exec Sample.encoding) .empty (Sample.expired ++ Sample.renewal)).goals.map (·.status)
      = [.approved] ∧
    EndedStays Sample.encoding "goal" (Machine.run (exec Sample.encoding) .empty Sample.expired)
      Sample.renewal :=
  ⟨by decide +kernel, ended_stays Sample.encoding "goal" Sample.expired Sample.renewal (by decide +kernel)⟩

/-- The finish of its first step makes an expired goal active, and its second step is claimed. -/
theorem ended_revives :
    (Machine.run (exec Sample.encoding) .empty Sample.expired).goals.map (fun g => (g.id, g.status))
      = [("goal", .failed)] ∧
    (Machine.run (exec Sample.encoding) .empty (Sample.expired ++ Sample.lateFinish)).goals.map (·.status)
      = [.active] ∧
    Claims "goal" (Machine.run (exec Sample.encoding) .empty (Sample.expired ++ Sample.lateFinish))
      (.claimWork "goal" none "w2" 300 "runtime:w2" "lease2" "attempt2" 65) ∧
    ¬ EndedStays Sample.encoding "goal" (Machine.run (exec Sample.encoding) .empty Sample.expired)
      Sample.lateFinish := by
  have hclaim : Claims "goal" (Machine.run (exec Sample.encoding) .empty (Sample.expired ++ Sample.lateFinish))
      (.claimWork "goal" none "w2" 300 "runtime:w2" "lease2" "attempt2" 65) := by
    have hgoal : ((claimTx "goal" none "w2" 300 "runtime:w2" "lease2" "attempt2" 65
        (Machine.run (exec Sample.encoding) .empty (Sample.expired ++ Sample.lateFinish))).toOption.bind
        Prod.fst).map (fun work => work.workItem.goalId) = some "goal" := by decide +kernel
    obtain ⟨work, hwork, hid⟩ := Option.map_eq_some_iff.mp hgoal
    obtain ⟨⟨work', s'⟩, hclaim, hsome⟩ := Option.bind_eq_some_iff.mp hwork
    cases hsome
    exact ⟨work, s', toOption_eq_some.mp hclaim, hid⟩
  have hexpired : (Machine.run (exec Sample.encoding) .empty Sample.expired).goals.map
      (fun g => (g.id, g.status)) = [("goal", .failed)] := by decide +kernel
  refine ⟨hexpired, by decide +kernel, hclaim, fun hstays => ?_⟩
  have hmem : ("goal", GoalStatus.failed) ∈ (Machine.run (exec Sample.encoding) .empty Sample.expired).goals.map
      (fun g => (g.id, g.status)) := by rw [hexpired]; exact List.mem_cons_self
  obtain ⟨g, hg, heq⟩ := List.mem_map.mp hmem
  obtain ⟨hid, hst⟩ := Prod.mk.inj heq
  rw [Machine.run_append] at hclaim
  obtain ⟨reason, actor, hreplan⟩ := ((hstays g hg hid (by rw [hst]; rfl)).2 _ hclaim).replanned
  simp [Sample.lateFinish] at hreplan

end Xiaomaolv
