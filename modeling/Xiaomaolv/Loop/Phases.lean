import Xiaomaolv.Loop.Dependencies
import Xiaomaolv.Loop.Handback
import Xiaomaolv.Loop.Numbers

/-!
# The phases of an item

A handler that is not done yet leaves a boundary on its item; the next attempt starts from there.

* `Txn.boundary?`, `boundaries`: the boundaries that a run commits on an item, oldest first.
* `progressAfter`: the last boundary and their number.
* **`progress_apply`**: a transaction moves the progress of an item by its boundary, and by nothing else.
* **`phase_progress`**: until the item succeeds its progress is the last boundary and their number, at most
  `maxPhaseContinues`, and a claim carries it.
-/

namespace Xiaomaolv

open Table LoopStore

/-! ## Boundaries -/

/-- The boundary that the transaction commits on the item. -/
def Txn.boundary? (enc : Encoding) (s : Store) (id : String) (t : Txn) : Option WorkContinuation :=
  match t with
  | .recordPhaseProgress claim continuation .. | .continueAttempt claim continuation .. =>
    if claim.workItem.id = id ∧ (s.apply enc t).isOk = true then some continuation else none
  | _ => none

/-- The boundaries that the run commits on the item, oldest first. -/
def boundaries (enc : Encoding) (id : String) (s : Store) (ts : List Txn) : List WorkContinuation :=
  Machine.collect (exec enc) (fun s t => t.boundary? enc s id) s ts

/-- The progress that the boundaries leave: the last of them and their number. -/
def progressAfter (cs : List WorkContinuation) : Option WorkPhaseProgress :=
  cs.getLast?.map fun c => ⟨c.phase, c.state, cs.length⟩

/-- The stored counter of boundaries. -/
def WorkItemRow.continues (w : WorkItemRow) : Nat := (w.progress.map (·.continues)).getD 0

theorem continues_progressAfter (cs : List WorkContinuation) :
    ((progressAfter cs).map (·.continues)).getD 0 = cs.length := by
  rw [progressAfter, Option.map_map]
  cases hlast : cs.getLast? with
  | none => simp [List.getLast?_eq_none_iff.mp hlast]
  | some c => rfl

/-! ## One transaction -/

/-- The boundary moves the progress `p` to `p'`, within the limit. -/
def Advances (boundary : Option WorkContinuation) (p p' : Option WorkPhaseProgress) : Prop :=
  match boundary with
  | none => p' = p
  | some c =>
    (p.map (·.continues)).getD 0 + 1 ≤ maxPhaseContinues ∧
      p' = some ⟨c.phase, c.state, (p.map (·.continues)).getD 0 + 1⟩

section Steps

variable {enc : Encoding} {s s' : Store} {t : Txn} {id : String} {l : Life}

theorem nextPhaseProgress_ok (h : s.life? id = some l) {c : WorkContinuation} {p : WorkPhaseProgress}
    (hp : nextPhaseProgress s id c = .ok p) : Advances (some c) l.item.progress (some p) := by
  unfold nextPhaseProgress at hp
  simp only [bind_eq_ok, context_eq_ok, ensure_eq_ok, pure_eq_ok, (life?_eq_some.mp h).1] at hp
  obtain ⟨row, hrow, _, hmax, rfl⟩ := hp
  cases hrow
  exact ⟨of_decide_eq_true hmax, rfl⟩

theorem Txn.Emits.progress {w : WorkItemRow} (h : t.Emits s w .progress) :
    ∃ claim continuation actor now, t = .recordPhaseProgress claim continuation actor now := by
  cases t with
  | recordPhaseProgress claim continuation actor now => exact ⟨claim, continuation, actor, now, rfl⟩
  | recoverGoalState | resolveWaitingConfirmation | finishAttempt | failAttempt => simp [Txn.Emits] at h
  | cancelGoal | markGoalForReplan | requeueBlockedItems | claimWork | prepareCheckpoint | renewClaim
  | commitCheckpoint | blockWorkItem | deferAttempt | continueAttempt => cases h.2
  | _ => cases h

theorem Life.Step.progress_kept {l l' : Life} {e : Life.Event} (h : l.Step e l')
    (hrelease : e.isRelease = false) (hprogress : e ≠ .progress) (hst : l'.item.status ≠ .succeeded) :
    l.item.status ≠ .succeeded ∧ l'.item.progress = l.item.progress := by
  refine ⟨fun hs => hst (h.succeeded hs), ?_⟩
  cases h with
  | progress => exact absurd rfl hprogress
  | release => cases hrelease
  | reconcile c =>
    simp only [Life.reconcile] at hst ⊢
    split_ifs at hst ⊢ with hrun
    · exact absurd rfl hst
    · rfl
  | close error attemptError status =>
    simp only [Life.close]
    split_ifs <;> rfl
  | _ => rfl

/-- A handback moves the progress by its boundary. -/
theorem released_advances (h : s.life? id = some l) (ht : s.apply enc t = .ok s') {claim : WorkClaim}
    {r : Release} (hr : t.released? s = some (claim, r)) :
    Advances (t.boundary? enc s id) l.item.progress (l.handBack claim r).item.progress := by
  have hlid := (life_item h).2
  have hok : (s.apply enc t).isOk = true := by rw [ht]; rfl
  have hkept : ∀ {boundary : Option WorkContinuation}, boundary = none → r.progress = none →
      Advances boundary l.item.progress (l.handBack claim r).item.progress := by
    rintro _ rfl hnone
    unfold Life.handBack
    split_ifs
    · simp [Advances, Life.release, hnone]
    · rfl
  cases t with
  | failAttempt c error retryable actor now =>
    obtain ⟨row, -, he⟩ := Option.map_eq_some_iff.mp hr
    cases he
    exact hkept rfl rfl
  | blockWorkItem | deferAttempt =>
    cases hr
    exact hkept rfl rfl
  | continueAttempt c continuation actor started now =>
    obtain ⟨-, progress, hp, -⟩ := continueAttemptTx_ok ht
    simp only [Txn.released?, hp] at hr
    cases hr
    simp only [Txn.boundary?, hok, and_true, Life.handBack, hlid]
    by_cases hid : id = claim.workItem.id
    · rw [if_pos hid.symm, if_pos hid]
      exact nextPhaseProgress_ok h (hid ▸ hp)
    · rw [if_neg (Ne.symm hid), if_neg hid]
      rfl
  | _ => cases hr

theorem boundary?_eq_none (ht : s.apply enc t = .ok s') (hr : t.released? s = none)
    (hrecord : ∀ claim continuation actor now, t ≠ .recordPhaseProgress claim continuation actor now) :
    t.boundary? enc s id = none := by
  cases t with
  | recordPhaseProgress => exact absurd rfl (hrecord _ _ _ _)
  | continueAttempt c continuation actor started now =>
    obtain ⟨-, progress, hp, -⟩ := continueAttemptTx_ok ht
    simp [Txn.released?, hp] at hr
  | _ => rfl

/-- **A transaction moves the progress of an item by its boundary.** -/
theorem progress_apply (hw : WellFormed s) (h : s.life? id = some l) (ht : s.apply enc t = .ok s') :
    ∃ l', s'.life? id = some l' ∧ (l'.item.status ≠ .succeeded →
      l.item.status ≠ .succeeded ∧ Advances (t.boundary? enc s id) l.item.progress l'.item.progress) := by
  cases hr : t.released? s with
  | some x =>
    obtain ⟨claim, r⟩ := x
    have hadvances := released_advances h ht hr
    have hopen : (l.handBack claim r).item.status ≠ .succeeded → l.item.status ≠ .succeeded := by
      unfold Life.handBack
      split_ifs with hid
      · obtain ⟨now, hcur⟩ := released_current ht hr
        obtain ⟨a, hold, -⟩ := claimCurrent_holds hw h hcur (hid.symm.trans (life_item h).2)
        intro _ hs
        cases hold.running.symm.trans hs
      · exact fun hst => hst
    rcases life_released hw h ht hr with h' | ⟨hst, h'⟩
    · exact ⟨_, h', fun hst => ⟨hopen hst, hadvances⟩⟩
    · refine ⟨_, h', fun _ => ⟨hopen fun hs => ?_, hadvances⟩⟩
      rw [hs] at hst
      rcases hst with hst | hst <;> cases hst
  | none =>
    by_cases hrecord : ∃ claim continuation actor now, t = .recordPhaseProgress claim continuation actor now
    · obtain ⟨claim, continuation, actor, now, rfl⟩ := hrecord
      have hok : (s.apply enc (.recordPhaseProgress claim continuation actor now)).isOk = true := by
        rw [ht]; rfl
      obtain ⟨hcur, progress, hp, rfl⟩ := recordPhaseProgress_ok ht
      refine ⟨_, life_recorded h, fun hst => ?_⟩
      have hlid := (life_item h).2
      simp only [Txn.boundary?, hok, and_true, hlid] at hst ⊢
      by_cases hid : id = claim.workItem.id
      · rw [if_pos hid] at hst ⊢
        rw [if_pos hid.symm]
        exact ⟨hst, nextPhaseProgress_ok h (hid ▸ hp)⟩
      · rw [if_neg hid] at hst ⊢
        rw [if_neg (Ne.symm hid)]
        exact ⟨hst, rfl⟩
    · obtain ⟨es, l', h', hpath, hes⟩ := life_unreleased hw h ht hr
      refine ⟨l', h', ?_⟩
      rw [boundary?_eq_none ht hr fun claim continuation actor now he =>
        hrecord ⟨claim, continuation, actor, now, he⟩]
      refine hpath.keeps (I := fun x => x.item.status ≠ .succeeded →
        l.item.status ≠ .succeeded ∧ x.item.progress = l.item.progress)
        (p := fun e => e.isRelease = false ∧ e ≠ .progress) (fun x e x' he hx hstep hst => ?_)
        (fun e hmem => ⟨(hes e hmem).2, ?_⟩) fun hst => ⟨hst, rfl⟩
      · obtain ⟨hbefore, hkept⟩ := hstep.progress_kept he.1 he.2 hst
        exact ⟨(hx hbefore).1, hkept.trans (hx hbefore).2⟩
      · rintro rfl
        obtain ⟨claim, continuation, actor, now, he⟩ := (hes _ hmem).1.progress
        exact hrecord ⟨claim, continuation, actor, now, he⟩

theorem boundary?_of_none (h : s.life? id = none) : t.boundary? enc s id = none := by
  have hnone : ∀ claim : WorkClaim, ∀ now, s.claimCurrent now claim = true → claim.workItem.id ≠ id := by
    intro claim now hcur hid
    obtain ⟨w, hwm, -, -, hwi, -⟩ := claimCurrent_iff.mp hcur
    exact workItem?_eq_none.mp (life?_eq_none.mp h) (List.mem_map.mpr ⟨w, hwm, hwi.trans hid⟩)
  cases t with
  | recordPhaseProgress claim continuation actor now =>
    refine if_neg fun hp => ?_
    cases ht : s.apply enc (.recordPhaseProgress claim continuation actor now) with
    | error e => simp [ht, Except.isOk, Except.toBool] at hp
    | ok s' => exact hnone claim now (recordPhaseProgress_ok ht).1 hp.1
  | continueAttempt claim continuation actor started now =>
    refine if_neg fun hp => ?_
    cases ht : s.apply enc (.continueAttempt claim continuation actor started now) with
    | error e => simp [ht, Except.isOk, Except.toBool] at hp
    | ok s' => exact hnone claim now (continueAttemptTx_ok ht).1 hp.1
  | _ => rfl

theorem boundary?_of_error {e : String} (ht : s.apply enc t = .error e) :
    t.boundary? enc s id = none := by
  cases t with
  | recordPhaseProgress | continueAttempt => simp [Txn.boundary?, ht, Except.isOk, Except.toBool]
  | _ => rfl

theorem progress_born (ht : s.apply enc t = .ok s') (h : s.life? id = none) (h' : s'.life? id = some l) :
    l.item.progress = none := by
  rw [life?_eq_none, workItem?_eq_none] at h
  obtain ⟨hmem, hid⟩ := life_item h'
  rcases items_written ht hmem with ⟨w₀, hw₀, ho⟩ | ⟨goalId, plan, -, workId, i, step, -, hnew⟩ |
    ⟨goalId, planId, manifest, externalWrite, seen, workId, steps, i, step, -, -, -, hnew⟩
  · have hoid := congrArg WorkItemRow.id ho
    exact absurd (List.mem_map.mpr ⟨w₀, hw₀, Eq.trans hoid.symm hid⟩) h
  · rw [hnew]
    rfl
  · rw [hnew]
    rfl

end Steps

/-! ## Runs -/

section Runs

variable {enc : Encoding} {s : Store} {id : String}

/-- The item carries the boundaries `cs` until it succeeds; an item that is not stored has none. -/
def Carries (id : String) (cs : List WorkContinuation) (s : Store) : Prop :=
  match s.life? id with
  | none => cs = []
  | some l => l.item.status ≠ .succeeded →
      l.item.progress = progressAfter cs ∧ cs.length ≤ maxPhaseContinues

theorem progressAfter_advances {cs : List WorkContinuation} {boundary : Option WorkContinuation}
    {p p' : Option WorkPhaseProgress} (h : Advances boundary p p') (hp : p = progressAfter cs)
    (hle : cs.length ≤ maxPhaseContinues) :
    p' = progressAfter (cs ++ boundary.toList) ∧ (cs ++ boundary.toList).length ≤ maxPhaseContinues := by
  cases boundary with
  | none =>
    rw [Option.toList_none, List.append_nil]
    exact ⟨Eq.trans h hp, hle⟩
  | some c =>
    obtain ⟨hmax, hp'⟩ := h
    rw [hp, continues_progressAfter] at hmax hp'
    refine ⟨?_, by simpa using hmax⟩
    simp [hp', progressAfter]

/-- **Every transaction adds its boundary.** -/
theorem carries_exec (hw : WellFormed s) (t : Txn) {cs : List WorkContinuation} (h : Carries id cs s) :
    Carries id (cs ++ (t.boundary? enc s id).toList) (exec enc s t) := by
  cases ht : s.apply enc t with
  | error e =>
    rw [boundary?_of_error ht, Option.toList_none, List.append_nil]
    have hexec : exec enc s t = s := by rw [exec, ht]; rfl
    rwa [hexec]
  | ok s' =>
    rw [exec_of_ok ht]
    cases hl : s.life? id with
    | none =>
      rw [Carries, hl] at h
      rw [boundary?_of_none hl, h]
      unfold Carries
      split
      · rfl
      · rename_i l' hl'
        exact fun _ => ⟨progress_born ht hl hl', Nat.zero_le _⟩
    | some l =>
      obtain ⟨l', hl', hstep⟩ := progress_apply hw hl ht
      rw [Carries, hl] at h
      rw [Carries, hl']
      intro hst
      obtain ⟨hopen, hadvances⟩ := hstep hst
      obtain ⟨hp, hle⟩ := h hopen
      exact progressAfter_advances hadvances hp hle

theorem progress_run (ts : List Txn) {w : WorkItemRow}
    (hwm : w ∈ (Machine.run (exec enc) .empty ts).workItems) (hst : w.status ≠ .succeeded) :
    w.progress = progressAfter (boundaries enc w.id .empty ts) ∧
      (boundaries enc w.id .empty ts).length ≤ maxPhaseContinues := by
  have hstart : WellFormed .empty ∧ Carries w.id [] .empty := ⟨wellFormed_empty, rfl⟩
  obtain ⟨hw, hcarries⟩ := Machine.collect_invariant
    (J := fun s cs => WellFormed s ∧ Carries w.id cs s) (G := fun _ _ => True)
    (fun _ t _ _ h => ⟨wellFormed_exec t h.1, carries_exec h.1 t h.2⟩)
    (Machine.along_of_forall fun _ _ _ => trivial) hstart
  rw [List.nil_append, Carries, hw.life? hwm] at hcarries
  exact hcarries hst

theorem open_before (hw : WellFormed s) (us : List Txn) {w w' : WorkItemRow} (hwm : w ∈ s.workItems)
    (hwm' : w' ∈ (Machine.run (exec enc) s us).workItems) (hid : w'.id = w.id)
    (hst : w'.status ≠ .succeeded) : w.status ≠ .succeeded := by
  intro hs
  have ha : Machine.Along (exec enc) (fun _ _ => True) s us := Machine.along_of_forall fun _ _ _ => trivial
  obtain ⟨l', hl', hstill⟩ := life_run (I := fun l => l.item.status = .succeeded) (p := fun _ => True)
    (fun _ _ _ _ hI hstep => hstep.succeeded hI) (fun _ _ _ _ _ _ _ _ => trivial)
    hw (hw.life? hwm) hs ha
  obtain ⟨hmem, hlid⟩ := life_item hl'
  cases (Machine.run_invariant' (fun _ t => wellFormed_exec t) hw).item_eq hmem hwm' (hlid.trans hid.symm)
  exact hst hstill

/-- **Phase progress is durable and bounded.** Until an item succeeds, its progress is the last boundary that
was committed on it, its counter the number of those boundaries and at most `maxPhaseContinues`; the
counter is never lowered, and a claim carries the progress. -/
theorem phase_progress (enc : Encoding) (ts : List Txn) :
    (∀ w ∈ (Machine.run (exec enc) .empty ts).workItems, w.status ≠ .succeeded →
      w.progress = progressAfter (boundaries enc w.id .empty ts) ∧
      w.continues = (boundaries enc w.id .empty ts).length ∧ w.continues ≤ maxPhaseContinues) ∧
    (∀ us, ∀ w ∈ (Machine.run (exec enc) .empty ts).workItems,
      ∀ w' ∈ (Machine.run (exec enc) .empty (ts ++ us)).workItems, w'.id = w.id → w'.status ≠ .succeeded →
        w.continues ≤ w'.continues) ∧
    ∀ goalId stepId workerId leaseSecs actor leaseToken attemptId now work s' claim,
      claimTx goalId stepId workerId leaseSecs actor leaseToken attemptId now
        (Machine.run (exec enc) .empty ts) = .ok (some work, s') → work.toClaim = .ok claim →
      claim.workItem.progress = progressAfter (boundaries enc claim.workItem.id .empty ts) := by
  refine ⟨fun w hwm hst => ?_, fun us w hwm w' hwm' hid hst => ?_, ?_⟩
  · obtain ⟨hp, hle⟩ := progress_run ts hwm hst
    have hcount : w.continues = (boundaries enc w.id .empty ts).length := by
      rw [WorkItemRow.continues, hp, continues_progressAfter]
    exact ⟨hp, hcount, hcount.trans_le hle⟩
  · have hlater := (progress_run (ts ++ us) hwm' hst).1
    have hrun := hwm'
    rw [Machine.run_append] at hrun
    have hbefore := (progress_run ts hwm (open_before (wellFormed_run enc ts) us hwm hrun hid hst)).1
    rw [WorkItemRow.continues, WorkItemRow.continues, hbefore, hlater, continues_progressAfter,
      continues_progressAfter, hid, boundaries, boundaries, Machine.collect_append, List.length_append]
    omega
  · intro goalId stepId workerId leaseSecs actor leaseToken attemptId now work s' claim hclaim hwork
    obtain ⟨goal, -, -, ⟨hnone, -⟩ | ⟨row, workItem, budget, hrow, hdecode, -, hsome, -⟩⟩ := claimTx_ok hclaim
    · cases hnone
    · cases hsome
      simp only [ClaimedWork.toClaim, bind_eq_ok, pure_eq_ok] at hwork
      obtain ⟨attempt, -, rfl⟩ := hwork
      simp only [decodeWorkItem, bind_eq_ok, pure_eq_ok] at hdecode
      obtain ⟨maxAttempts, -, ordinal, -, rfl⟩ := hdecode
      obtain ⟨hrm, hclaimable⟩ := claimCandidate?_mem hrow
      simp only [isClaimable, Bool.and_eq_true, decide_eq_true_eq] at hclaimable
      have hready := hclaimable.1.1.1.2
      refine (progress_run ts hrm ?_).1
      rw [hready]
      decide

end Runs

end Xiaomaolv
