import Xiaomaolv.Loop.Finish

/-!
# Commits that are not yet finished

Between the `commit_checkpoint` of a holder and its `finish_attempt` anybody may act on the goal.

* `Txn.isFor`, `Txn.recovers`, `Txn.closes`: the holder's own transactions, the recoveries of a goal,
  and the operator's ends of it.
* `Life.Unfinished`: the life of an item whose attempt has committed; **`unfinished_still`**: no
  transaction of another worker moves it, but a recovery does.
* **`commit_reported`**: `finish_attempt` succeeds exactly when no recovery came between.
-/

namespace Xiaomaolv

open Table LoopStore

/-! ## Who acts on a goal -/

namespace Txn

/-- The transaction presents the claim's item under its fencing token. -/
def isFor (claim : WorkClaim) (t : Txn) : Bool :=
  t.holder?.any fun c =>
    c.workItem.id = claim.workItem.id ∧ c.attempt.fencingToken = claim.attempt.fencingToken

/-- `resume_goal` and `claim_ready_work_item` start with it. -/
def recovers (goalId : String) : Txn → Bool
  | .recoverGoalState id .. => id = goalId
  | _ => false

/-- A cancel or a replan of the goal. -/
def closes (goalId : String) : Txn → Bool
  | .cancelGoal id .. | .markGoalForReplan id .. => id = goalId
  | _ => false

/-- Neither the holder of the claim nor an operator who ends its goal. -/
def isOthers (claim : WorkClaim) (t : Txn) : Bool :=
  !t.isFor claim && !t.closes claim.attempt.goalId

end Txn

namespace Life

/-- The item runs under the claim, whose attempt has committed the checkpoint. -/
structure Unfinished (claim : WorkClaim) (checkpointId : String) (l : Life) : Prop where
  id : l.item.id = claim.workItem.id
  goalId : l.item.goalId = claim.attempt.goalId
  running : l.item.status = .running
  leaseToken : l.item.leaseToken = some claim.attempt.leaseToken
  fencingToken : l.item.fencingToken = claim.attempt.fencingToken
  attempt : ∃ a ∈ l.attempts, a.id = claim.attempt.id ∧ a.leaseToken = claim.attempt.leaseToken ∧
    a.fencingToken = claim.attempt.fencingToken ∧ a.status.isLive = true
  checkpoint : ∃ c ∈ l.checkpoints, c.id = checkpointId ∧ c.attemptId = claim.attempt.id ∧
    c.phase = .committed

/-- The events that a transaction may cause to an item that it does not hold. -/
def Event.isForeign : Event → Bool
  | unlock | block | requeue | lapse _ | claim _ | verdict _ => true
  | _ => false

variable {l l' : Life} {e : Event} {claim : WorkClaim} {checkpointId : String}

theorem Unfinished.no_foreign (hl : l.Unfinished claim checkpointId) (h : l.Step e l') :
    e.isForeign = false := by
  have hrun := hl.running
  cases h with
  | unlock h | requeue h | claim _ _ h | verdict _ _ _ _ _ _ h => cases h.symm.trans hrun
  | block h => rcases h with h | h <;> cases h.symm.trans hrun
  | lapse now h hlease hcommitted =>
    obtain ⟨c, hc, -, -, hp⟩ := hl.checkpoint
    exact absurd hp (hcommitted c hc)
  | _ => rfl

theorem reconcile_final (hrun : l.item.status = .running) (c : CheckpointRow) :
    (l.reconcile c).item.status.isFinal = true := by
  simp only [Life.reconcile, if_pos hrun]
  rfl

end Life

section Events

variable {enc : Encoding} {s s' : Store} {t : Txn} {id : String} {l : Life} {claim : WorkClaim}
  {checkpointId : String}

theorem holder_item (ht : s.apply enc t = .ok s') {c : WorkClaim} (hc : t.holder? = some c) :
    ∃ w ∈ s.workItems, w.id = c.workItem.id ∧ w.fencingToken = c.attempt.fencingToken := by
  have hcurrent : ∀ now, s.claimCurrent now c = true →
      ∃ w ∈ s.workItems, w.id = c.workItem.id ∧ w.fencingToken = c.attempt.fencingToken := by
    intro now hcur
    obtain ⟨w, hw, a, -, hid, -, -, -, hfencing, -⟩ := claimCurrent_iff.mp hcur
    exact ⟨w, hw, hid, hfencing⟩
  cases t with
  | renewClaim =>
    cases hc
    obtain ⟨w, hw, hr⟩ := List.any_eq_true.mp (renewClaimTx_ok ht).1
    simp only [isRenewable, Bool.and_eq_true, decide_eq_true_eq] at hr
    exact ⟨w, hw, hr.1.1, hr.1.2.2.2⟩
  | prepareCheckpoint =>
    cases hc
    obtain ⟨checkpoint, ht⟩ := prepareCheckpoint_ok ht
    exact hcurrent _ (prepareCheckpointTx_ok ht).1
  | commitCheckpoint => cases hc; exact hcurrent _ (commitCheckpointTx_ok ht).1
  | finishAttempt => cases hc; exact hcurrent _ (finishAttemptTx_ok ht).1
  | recordPhaseProgress => cases hc; exact hcurrent _ (recordPhaseProgress_ok ht).1
  | failAttempt => cases hc; exact hcurrent _ (failAttemptTx_ok ht).1
  | blockWorkItem => cases hc; exact hcurrent _ (blockWorkItemTx_ok ht).1
  | deferAttempt => cases hc; exact hcurrent _ (deferAttemptTx_ok ht).1
  | continueAttempt => cases hc; exact hcurrent _ (continueAttemptTx_ok ht).1
  | _ => cases hc

/-- What a transaction may cause to an item: its holder's doing, a recovery's, an operator's end of the
goal, or an event that needs no claim. -/
theorem Txn.Emits.source {w : WorkItemRow} {e : Life.Event} (h : t.Emits s w e) :
    e.isForeign = true ∨ (∃ c, t.holder? = some c ∧ w.id = c.workItem.id) ∨
      t.recovers w.goalId = true ∨ t.closes w.goalId = true := by
  cases t with
  | cancelGoal => exact .inr (.inr (.inr (decide_eq_true h.1.symm)))
  | markGoalForReplan => exact .inr (.inr (.inr (decide_eq_true h.1.symm)))
  | recoverGoalState => exact .inr (.inr (.inl (decide_eq_true h.1.symm)))
  | requeueBlockedItems =>
    obtain ⟨-, rfl⟩ := h
    exact .inl rfl
  | resolveWaitingConfirmation =>
    obtain ⟨-, rfl | ⟨-, rfl⟩⟩ := h
    · exact .inl rfl
    · exact .inl rfl
  | claimWork =>
    obtain ⟨-, rfl⟩ := h
    exact .inl rfl
  | finishAttempt claim =>
    obtain ⟨-, rfl | ⟨hid, -⟩⟩ := h
    · exact .inl rfl
    · exact .inr (.inl ⟨claim, rfl, hid⟩)
  | failAttempt claim =>
    rcases h with rfl | ⟨hid, -⟩
    · exact .inl rfl
    · exact .inr (.inl ⟨claim, rfl, hid⟩)
  | prepareCheckpoint claim | renewClaim claim | commitCheckpoint claim | blockWorkItem claim
  | deferAttempt claim | continueAttempt claim | recordPhaseProgress claim =>
    exact .inr (.inl ⟨claim, rfl, h.1⟩)
  | _ => cases h

/-- **No transaction of another worker moves an unfinished item**, but a recovery. -/
theorem unfinished_still (hw : WellFormed s) (h : s.life? id = some l)
    (hl : l.Unfinished claim checkpointId) (hothers : t.isOthers claim = true)
    (hrec : t.recovers claim.attempt.goalId = false) : (exec enc s t).life? id = some l := by
  rcases exec_cases enc s t with he | he
  · rw [he]
    exact h
  obtain ⟨es, l', h', hpath, hemits, -⟩ := life_apply hw h he
  cases hpath with
  | nil => exact h'
  | @cons _ l₁ _ e es hstep hrest =>
    simp only [Txn.isOthers, Bool.and_eq_true, Bool.not_eq_true'] at hothers
    have hsource := (hemits e List.mem_cons_self).source
    rw [hl.no_foreign hstep, hl.goalId, hrec, hothers.2] at hsource
    rcases hsource with h | ⟨c, hc, hid⟩ | h | h
    · cases h
    · -- The holder is another, yet its claim is of this item under its token.
      obtain ⟨w, hwm, hwi, hfencing⟩ := holder_item he hc
      obtain rfl : w = l.item := hw.item_eq hwm (life_item h).1 (hwi.trans hid.symm)
      have hfor : t.isFor claim = true := by
        rw [Txn.isFor, hc, Option.any_some, decide_eq_true_eq]
        exact ⟨hid.symm.trans hl.id, hfencing.symm.trans hl.fencingToken⟩
      rw [hothers.1] at hfor
      cases hfor
    · cases h
    · cases h

theorem Txn.Emits.recovery {w : WorkItemRow} {e : Life.Event} (h : t.Emits s w e)
    {goalId : String} (hrec : t.recovers goalId = true) :
    e = .unlock ∨ (∃ now, e = .lapse now) ∨ ∃ c, e = .reconcile c := by
  cases t with
  | recoverGoalState id actor now =>
    obtain ⟨-, rfl | rfl | hc⟩ := h
    · exact .inl rfl
    · exact .inr (.inl ⟨now, rfl⟩)
    · exact .inr (.inr hc)
  | _ => cases hrec

/-- **A recovery finishes the item**, whoever holds it. -/
theorem unfinished_recovered (hw : WellFormed s) (hg : Gated s) (hn : Named s)
    (h : s.life? id = some l) (hl : l.Unfinished claim checkpointId)
    (hrec : t.recovers claim.attempt.goalId = true) :
    ∃ l', (exec enc s t).life? id = some l' ∧ l'.item.status.isFinal = true := by
  cases t with
  | recoverGoalState goalId actor now =>
    obtain rfl : goalId = claim.attempt.goalId := of_decide_eq_true hrec
    have hcommits : s.apply enc (.recoverGoalState claim.attempt.goalId actor now)
        = .ok (recovered claim.attempt.goalId actor now s) :=
      hl.goalId ▸ recoverGoalState_commits hw hg hn (life_item h).1 actor now
    have hexec := exec_of_ok hcommits
    obtain ⟨es, l', h', hpath, hemits, -⟩ := life_apply hw h hcommits
    refine ⟨l', hexec ▸ h', ?_⟩
    cases hpath with
    | nil =>
      -- The item's checkpoint is reconciled, so something has happened to it.
      obtain ⟨c, hc, -, -, hphase⟩ := hl.checkpoint
      have hgoal : c.goalId = claim.attempt.goalId := (hw.life_checkpoint h hc).1.trans hl.goalId
      exact absurd hphase ((atRest_recovered hw actor).reconciled c ((mem_life_checkpoints h').mp hc).1 hgoal)
    | @cons _ l₁ _ e es hstep hrest =>
      have hfinal : l₁.item.status.isFinal = true := by
        have hforeign := hl.no_foreign hstep
        rcases (hemits e List.mem_cons_self).recovery hrec with rfl | ⟨at_, rfl⟩ | ⟨c, rfl⟩
        · cases hforeign
        · cases hforeign
        · cases hstep with
          | reconcile c => exact Life.reconcile_final hl.running c
      exact hrest.keeps (I := fun l => l.item.status.isFinal = true) (p := fun _ => True)
        (fun _ _ _ _ hI hstep => hstep.final hI) (fun _ _ => trivial) hfinal
  | _ => cases hrec

/-- A commit leaves its item unfinished. -/
theorem commit_unfinished (hw : WellFormed s) {outcome : WorkOutcome} {actor : String} {now : Int}
    (ht : s.apply enc (.commitCheckpoint claim checkpointId outcome actor now) = .ok s') :
    ∃ l, s'.life? claim.workItem.id = some l ∧ l.Unfinished claim checkpointId := by
  obtain ⟨hcur, current, hc, hattempt, hs⟩ := commitCheckpointTx_ok ht
  obtain ⟨w, hwm, a, ham, hwi, hwg, hrun, htoken, hfencing, -, haw, hai, hat, haf, hlive⟩ :=
    claimCurrent_iff.mp hcur
  obtain ⟨hcm, hcid⟩ := checkpoint?_eq_some hc
  have hci : current.workItemId = w.id :=
    ((hw.attempt_item hcm ham (hai.trans hattempt.symm)).1.symm.trans haw)
  have hw' := wellFormed_apply hw ht
  -- Whatever the commit wrote, the item is the same, and attempt and checkpoint have their keys.
  obtain ⟨hitems, ⟨a', ham', hai', haw', hat', haf', hlive'⟩, c', hcm', hcid', hcw', hca', hphase'⟩ :
      s'.workItems = s.workItems ∧
      (∃ a' ∈ s'.attempts, a'.id = a.id ∧ a'.workItemId = a.workItemId ∧
        a'.leaseToken = a.leaseToken ∧ a'.fencingToken = a.fencingToken ∧ a'.status.isLive = true) ∧
      ∃ c' ∈ s'.checkpoints, c'.id = checkpointId ∧ c'.workItemId = current.workItemId ∧
        c'.attemptId = claim.attempt.id ∧ c'.phase = .committed := by
    rcases hs with ⟨hphase, -, rfl⟩ | ⟨hphase, rfl⟩
    · exact ⟨rfl, ⟨a, ham, rfl, rfl, rfl, rfl, hlive⟩, current, hcm, hcid, rfl, hattempt, hphase⟩
    · refine ⟨rfl, ⟨_, mem_updateWhere.mpr ⟨a, ham, rfl⟩, ?_⟩, _,
        mem_updateWhere.mpr ⟨current, hcm, if_pos (decide_eq_true ⟨hcid, hphase, hattempt⟩)⟩, hcid, rfl,
        hattempt, rfl⟩
      split
      · exact ⟨rfl, rfl, rfl, rfl, rfl⟩
      · exact ⟨rfl, rfl, rfl, rfl, hlive⟩
  have hl := hw'.life? (hitems ▸ hwm)
  rw [hwi] at hl
  refine ⟨_, hl, hwi, hwg, hrun, htoken, hfencing, ⟨a', ?_, hai'.trans hai, hat'.trans hat,
    haf'.trans haf, hlive'⟩, c', ?_, hcid', hca', hphase'⟩
  · exact (mem_life_attempts hl).mpr ⟨ham', haw'.trans (haw.trans hwi)⟩
  · exact (mem_life_checkpoints hl).mpr ⟨hcm', hcw'.trans (hci.trans hwi)⟩

theorem commitCheckpoint_checks {outcome : WorkOutcome} {actor : String} {now : Int}
    (ht : s.apply enc (.commitCheckpoint claim checkpointId outcome actor now) = .ok s') :
    validateActor actor = .ok () ∧ Store.fencingInRange claim = true := by
  have hx : commitCheckpointTx enc claim checkpointId outcome actor now s = .ok s' := ht
  unfold commitCheckpointTx at hx
  simp only [bind_eq_ok, ensureClaimCurrent_eq_ok] at hx
  obtain ⟨_, hactor, _, -, _, -, _, hcur, -⟩ := hx
  exact ⟨hactor, hcur.1⟩

theorem unfinished_current (h : s.life? id = some l) (hl : l.Unfinished claim checkpointId) {now : Int}
    (hlease : leaseCurrent now l.item = true) : s.claimCurrent now claim = true := by
  obtain ⟨a, ha, hai, hat, haf, hlive⟩ := hl.attempt
  obtain ⟨hmem, hid⟩ := life_item h
  obtain ⟨ham, haw⟩ := (mem_life_attempts h).mp ha
  obtain ⟨leaseUntil, hsome, hle⟩ := (Option.any_eq_true _ _).mp hlease
  exact claimCurrent_iff.mpr ⟨l.item, hmem, a, ham, hl.id, hl.goalId, hl.running, hl.leaseToken,
    hl.fencingToken, ⟨leaseUntil, hsome, of_decide_eq_true hle⟩, haw.trans hid.symm, hai, hat, haf, hlive⟩

end Events

/-! ## Runs of the others -/

section Runs

variable {enc : Encoding} {s : Store} {us : List Txn} {id : String} {l : Life} {claim : WorkClaim}
  {checkpointId : String}

theorem unfinished_run (hw : WellFormed s) (h : s.life? id = some l)
    (hl : l.Unfinished claim checkpointId) (hothers : ∀ t ∈ us, t.isOthers claim = true)
    (hrec : ∀ t ∈ us, t.recovers claim.attempt.goalId = false) :
    WellFormed (Machine.run (exec enc) s us) ∧ (Machine.run (exec enc) s us).life? id = some l :=
  Machine.run_invariant (I := fun s => WellFormed s ∧ s.life? id = some l)
    (G := fun _ t => t.isOthers claim = true ∧ t.recovers claim.attempt.goalId = false)
    (fun _ t ht hI => ⟨wellFormed_exec t hI.1, unfinished_still hI.1 hI.2 hl ht.1 ht.2⟩)
    (Machine.along_of_forall fun _ t ht => ⟨hothers t ht, hrec t ht⟩) ⟨hw, h⟩

theorem recovered_run (hw : WellFormed s) (hg : Gated s) (hn : Named s) (h : s.life? id = some l)
    (hl : l.Unfinished claim checkpointId) (hothers : ∀ t ∈ us, t.isOthers claim = true)
    (hrec : ∃ t ∈ us, t.recovers claim.attempt.goalId = true) :
    ∃ l', (Machine.run (exec enc) s us).life? id = some l' ∧ l'.item.status.isFinal = true := by
  induction us generalizing s with
  | nil => simp at hrec
  | cons t us ih =>
    rw [Machine.run_cons]
    by_cases ht : t.recovers claim.attempt.goalId = true
    · obtain ⟨l₁, h₁, hfinal⟩ : ∃ l', (exec enc s t).life? id = some l' ∧
          l'.item.status.isFinal = true := unfinished_recovered hw hg hn h hl ht
      exact life_run (I := fun l => l.item.status.isFinal = true) (p := fun _ => True)
        (G := fun _ _ => True) (fun _ _ _ _ hI hstep => hstep.final hI)
        (fun _ _ _ _ _ _ _ _ => trivial) (wellFormed_exec t hw) h₁ hfinal
        (Machine.along_of_forall fun _ _ _ => trivial)
    · have hrest : ∃ t' ∈ us, t'.recovers claim.attempt.goalId = true := by
        obtain ⟨t', hmem, ht'⟩ := hrec
        rcases List.mem_cons.mp hmem with rfl | hmem
        · exact absurd ht' ht
        · exact ⟨t', hmem, ht'⟩
      refine ih (wellFormed_exec t hw) (gated_exec hw t hg) (named_exec hn) ?_
        (fun t' h' => hothers t' (List.mem_cons_of_mem _ h')) hrest
      exact unfinished_still hw h hl (hothers t List.mem_cons_self) (Bool.eq_false_iff.mpr ht)

end Runs

/-! ## The report -/

section Report

variable {enc : Encoding} {s s' : Store} {goalId actor : String} {now : Int}

theorem resumeReport_ne_none (hgoal : ∃ g ∈ s.goals, g.id = goalId) :
    resumeReport goalId s ≠ .ok none := by
  intro h
  unfold resumeReport at h
  cases hg : s.goal? goalId with
  | none =>
    obtain ⟨g, hgm, hid⟩ := hgoal
    have hne := List.find?_eq_none.mp hg g hgm
    exact hne (decide_eq_true hid)
  | some row =>
    rw [hg] at h
    simp only [bind_eq_ok, pure_eq_ok] at h
    obtain ⟨_, -, _, -, _, -, h⟩ := h
    cases h

/-- A resume of a stored goal reports it. -/
theorem resumeAfter_isOk (hw : WellFormed s) (h : Narrow s)
    (hrev : ∀ g ∈ s.goals, g.revision + 1 < 2 ^ 32) (hid : ensureValidId goalId "goal id" = .ok ())
    (hgoal : ∃ g ∈ s.goals, g.id = goalId) (actor message : String) (now : Int) :
    ∃ report s', resumeAfter goalId actor message now s = (.ok report, s') := by
  obtain ⟨report, s', hresume⟩ := resumeGoal_isOk hw h hrev actor now hid
  have hsome : ∃ r, report = some r := by
    obtain ⟨s₁, hs₁⟩ := recoverGoalState_isOk (s := s) actor now hid
    have hgoal₁ : ∃ g ∈ s₁.goals, g.id = goalId := by
      obtain ⟨g, hg, hgid⟩ := hgoal
      have hids : s₁.goals.map (·.id) = s.goals.map (·.id) := by
        rcases recoverGoalState_ok hs₁ with ⟨-, rfl⟩ | ⟨-, rfl⟩
        · exact congrArg Origin.goals (origin_recovered s goalId actor now)
        · rfl
      obtain ⟨g', hg', hgid'⟩ := exists_of_map_eq hids hg
      exact ⟨g', hg', hgid'.trans hgid⟩
    unfold resumeGoal at hresume
    rw [bind_of_ok (commit_of_ok hs₁)] at hresume
    cases hreport : resumeReport goalId s₁ with
    | error e =>
      rw [bind_of_error (query_of_error hreport)] at hresume
      cases hresume
    | ok r =>
      rw [bind_of_ok (query_of_ok hreport)] at hresume
      cases r with
      | none => exact absurd hreport (resumeReport_ne_none hgoal₁)
      | some r =>
        cases hresume
        exact ⟨r, rfl⟩
  obtain ⟨r, rfl⟩ := hsome
  refine ⟨r, s', ?_⟩
  unfold resumeAfter
  rw [bind_of_ok hresume]
  rfl

end Report

/-- **A successful commit is reported as one** exactly when no recovery of the goal comes between the
commit and the finish. After every run, for a commit that succeeds and whatever the other workers do
before the holder goes on, with its lease not expired and every record in its width: `finish_attempt`
returns a report if and only if nobody has resumed the goal or claimed from it. -/
theorem commit_reported (enc : Encoding) (ts us : List Txn) (claim : WorkClaim)
    (checkpointId actor : String) (outcome : WorkOutcome) (committedAt now later : Int) {s : Store}
    (hcommit : (Machine.run (exec enc) .empty ts).apply enc
      (.commitCheckpoint claim checkpointId outcome actor committedAt) = .ok s)
    (hlease : ∃ w ∈ s.workItems, w.id = claim.workItem.id ∧ leaseCurrent now w = true)
    (hothers : ∀ t ∈ us, t.isOthers claim = true)
    (hfit : Machine.Along (exec enc) NumbersFit .empty
      (ts ++ .commitCheckpoint claim checkpointId outcome actor committedAt :: us ++
        [.finishAttempt claim checkpointId actor now])) :
    (∃ report s', finishAttempt claim checkpointId actor now later (Machine.run (exec enc) s us)
      = (.ok report, s')) ↔
    ∀ t ∈ us, t.recovers claim.attempt.goalId = false := by
  obtain ⟨hw₀, hg₀⟩ := gated_run enc ts
  have hn₀ := named_run enc ts
  have hnarrow := narrow_run enc hfit
  have hrun : Machine.run (exec enc) .empty
      (ts ++ .commitCheckpoint claim checkpointId outcome actor committedAt :: us ++
        [.finishAttempt claim checkpointId actor now])
      = exec enc (Machine.run (exec enc) s us) (.finishAttempt claim checkpointId actor now) := by
    rw [Machine.run_concat, Machine.run_append, Machine.run_cons, exec_of_ok hcommit]
  rw [hrun] at hnarrow
  generalize Machine.run (exec enc) .empty ts = s₀ at hcommit hw₀ hg₀ hn₀
  have hexec := exec_of_ok hcommit
  have hw : WellFormed s := hexec ▸ wellFormed_exec _ hw₀
  have hg : Gated s := hexec ▸ gated_exec hw₀ _ hg₀
  have hn : Named s := hexec ▸ named_exec hn₀
  obtain ⟨l, h, hl⟩ := commit_unfinished hw₀ hcommit
  constructor
  · rintro ⟨report, s', hfinish⟩
    by_contra hrec
    have hrec' : ∃ t ∈ us, t.recovers claim.attempt.goalId = true := by simpa using hrec
    obtain ⟨l', h', hfinal⟩ : ∃ l', (Machine.run (exec enc) s us).life? claim.workItem.id = some l' ∧
        l'.item.status.isFinal = true := recovered_run hw hg hn h hl hothers hrec'
    have hw' : WellFormed (Machine.run (exec enc) s us) :=
      Machine.run_invariant' (fun _ t => wellFormed_exec t) hw
    cases hx : finishAttemptTx claim checkpointId actor now (Machine.run (exec enc) s us) with
    | error e =>
      unfold finishAttempt at hfinish
      rw [bind_of_error (commit_of_error hx)] at hfinish
      cases hfinish
    | ok s₃ =>
      obtain ⟨w, hwm, a, -, hwi, -, hrun, -⟩ := claimCurrent_iff.mp (finishAttemptTx_ok hx).1
      obtain ⟨hmem, hid⟩ := life_item h'
      rw [← hw'.item_eq hwm hmem (hwi.trans hid.symm), hrun] at hfinal
      cases hfinal
  · intro hrec
    obtain ⟨hw', h'⟩ : WellFormed (Machine.run (exec enc) s us) ∧
        (Machine.run (exec enc) s us).life? claim.workItem.id = some l :=
      unfinished_run hw h hl hothers hrec
    obtain ⟨hmem, hid⟩ := life_item h
    have hcurrent : leaseCurrent now l.item = true := by
      obtain ⟨w, hwm, hwi, hwl⟩ := hlease
      rw [← hw.item_eq hwm hmem (hwi.trans hid.symm)]
      exact hwl
    obtain ⟨hactor, hfencing⟩ := commitCheckpoint_checks hcommit
    obtain ⟨c, hc, hci, hattempt, hphase⟩ := hl.checkpoint
    have hfound : (Machine.run (exec enc) s us).checkpoint? checkpointId = some c := by
      rw [← hci]
      exact find?_of_mem hw'.checkpointIds ((mem_life_checkpoints h').mp hc).1
    have hfinish := finishAttemptTx_commits hactor
      (ensureClaimCurrent_eq_ok.mpr ⟨hfencing, unfinished_current h' hl hcurrent⟩) hfound hattempt hphase
    have hgoal : ensureValidId claim.attempt.goalId "goal id" = .ok () := hl.goalId ▸ hn.item hg hmem
    have hstep : exec enc (Machine.run (exec enc) s us) (.finishAttempt claim checkpointId actor now)
        = finished claim c actor (Machine.run (exec enc) s us) := exec_of_ok hfinish
    have hw'' : WellFormed (finished claim c actor (Machine.run (exec enc) s us)) :=
      hstep ▸ wellFormed_exec _ hw'
    have hstored : ∃ g ∈ (finished claim c actor (Machine.run (exec enc) s us)).goals,
        g.id = claim.attempt.goalId := by
      obtain ⟨w', hwm', horigin⟩ := item_exec enc (.finishAttempt claim checkpointId actor now)
        (life_item h').1
      obtain ⟨g, hgm, hgid⟩ := hw''.itemGoal w' (hstep ▸ hwm')
      exact ⟨g, hgm, hgid.trans ((congrArg WorkItemRow.goalId horigin).trans hl.goalId)⟩
    rw [hstep] at hnarrow
    unfold finishAttempt
    rw [bind_of_ok (commit_of_ok hfinish)]
    exact resumeAfter_isOk hw'' hnarrow.1 hnarrow.2 hgoal hstored actor _ later

namespace Sample

/-- Two steps, one attempt each, neither after the other. -/
def wide : PlanGoalRequest :=
  plan [step "build" "provider_analysis" .read 1, step "test" "provider_analysis" .read 1] []

/-- The claim of the second step of `wide`. -/
def secondClaim : WorkClaim where
  workItem := ⟨"second", "goal", .running, "test", "provider_analysis", .read, .object .nil, 1, 1, [],
    none⟩
  attempt := ⟨"attempt2", "goal", "second", 1, .running, "w2", "lease2", 1, 0, none⟩
  leaseUntilUnix := 300
  budget := ⟨1, 60, 1024⟩

/-- Two workers run the two steps of `wide`, and the first has prepared its checkpoint. -/
def racing : List Txn :=
  admission wide ++ [.claimWork "goal" none "w1" 300 "runtime:w1" "lease1" "attempt1" 0,
    .claimWork "goal" none "w2" 300 "runtime:w2" "lease2" "attempt2" 0,
    .prepareCheckpoint (firstClaim "lease1" "attempt1") "first:attempt1:v1" true "runtime:w1"
      "checkpoint1" 1]

/-- The first worker commits. -/
def commitFirst : Txn :=
  .commitCheckpoint (firstClaim "lease1" "attempt1") "checkpoint1" outcome "runtime:w1" 2

/-- The transaction of the second worker's `fail_attempt`; the resume that ends it comes later. -/
def failSecond : Txn := .failAttempt secondClaim "down" false "runtime:w2" 3

/-- The store after the first worker's commit. -/
def raced : Store := exec encoding (Machine.run (exec encoding) .empty racing) commitFirst

theorem raced_ok : (Machine.run (exec encoding) .empty racing).apply encoding commitFirst = .ok raced := by
  rcases exec_cases encoding (Machine.run (exec encoding) .empty racing) commitFirst with h | h
  · exact absurd h (by decide +kernel)
  · exact h

end Sample

theorem commit_reported_failing :
    (∃ report s', finishAttempt (Sample.firstClaim "lease1" "attempt1") "checkpoint1" "runtime:w1" 4 4
      (Machine.run (exec Sample.encoding) Sample.raced [Sample.failSecond]) = (.ok report, s')) ↔
    ∀ t ∈ [Sample.failSecond], t.recovers "goal" = false :=
  commit_reported Sample.encoding Sample.racing [Sample.failSecond]
    (Sample.firstClaim "lease1" "attempt1") "checkpoint1" "runtime:w1" Sample.outcome 2 4 4
    (s := Sample.raced) Sample.raced_ok (by decide +kernel) (by decide +kernel) (by decide +kernel)

/-- The second worker's `fail_attempt` ends with a resume of the goal: its recovery reconciles the first
worker's commit, and the first worker, whose lease lasts, is told that its claim is stale. -/
theorem commit_reported_stale :
    (Machine.run (exec Sample.encoding) .empty Sample.racing).apply Sample.encoding Sample.commitFirst
      = .ok Sample.raced ∧
    (∃ w ∈ Sample.raced.workItems, w.id = "first" ∧ leaseCurrent 4 w = true) ∧
    Refused (finishAttempt (Sample.firstClaim "lease1" "attempt1") "checkpoint1" "runtime:w1" 4 4)
      (failAttempt Sample.secondClaim "down" false "runtime:w2" 3 3 Sample.raced).2 := by
  refine ⟨Sample.raced_ok, by decide +kernel, ?_⟩
  have hstale : (failAttempt Sample.secondClaim "down" false "runtime:w2" 3 3 Sample.raced).2.claimCurrent
      4 (Sample.firstClaim "lease1" "attempt1") = false := by decide +kernel
  refine (refused_transact_ fun s' hs' => ?_).bind _
  exact Bool.false_ne_true (hstale.symm.trans (finishAttemptTx_ok hs').1)

end Xiaomaolv
