import Xiaomaolv.Loop.Refine

/-!
# What a holder hands back

The events of a life leave open what a handback writes; this is the exact account.

* `Txn.released?`: the claim that a transaction hands back, and what it writes.
* **`life_released`**: a handback releases its own item and blocks what waits for it.
* `life_unreleased`: no other transaction releases an item.
* **`lives_handback`**: the invariant rule for properties that need what a handback writes.
-/

namespace Xiaomaolv

open Table LoopStore

/-- The claim that the transaction hands back, and what it writes. -/
def Txn.released? (s : Store) : Txn → Option (WorkClaim × Release)
  | .failAttempt claim error retryable _ now =>
    (s.workItem? claim.workItem.id).map fun row =>
      (claim, failRelease row (willRetry s row retryable) (takeChars 2000 error) now)
  | .blockWorkItem claim reason _ _ => some (claim, blockRelease (takeChars 2000 reason))
  | .deferAttempt claim untilUnix _ _ => some (claim, deferRelease untilUnix)
  | .continueAttempt claim continuation _ started _ =>
    match nextPhaseProgress s claim.workItem.id continuation with
    | .ok progress => some (claim, continueRelease continuation progress started)
    | .error _ => none
  | _ => none

/-- The life after a handback, apart from a failure further up. -/
def Life.handBack (claim : WorkClaim) (r : Release) (l : Life) : Life :=
  if l.item.id = claim.workItem.id then l.release claim.attempt.id r else l

section Handbacks

variable {enc : Encoding} {s s' : Store} {t : Txn} {id : String} {l : Life} {claim : WorkClaim} {r : Release}

theorem released_current (ht : s.apply enc t = .ok s') (hr : t.released? s = some (claim, r)) :
    ∃ now, s.claimCurrent now claim = true := by
  cases t with
  | failAttempt c error retryable actor now =>
    obtain ⟨row, -, he⟩ := Option.map_eq_some_iff.mp hr
    cases he
    exact ⟨now, (failAttemptTx_ok ht).1⟩
  | blockWorkItem c reason actor now =>
    cases hr
    exact ⟨now, (blockWorkItemTx_ok ht).1⟩
  | deferAttempt c untilUnix actor now =>
    cases hr
    exact ⟨now, (deferAttemptTx_ok ht).1⟩
  | continueAttempt c continuation actor started now =>
    obtain ⟨hcur, progress, hp, -⟩ := continueAttemptTx_ok ht
    simp only [Txn.released?, hp] at hr
    cases hr
    exact ⟨now, hcur⟩
  | _ => cases hr

/-- **A handback releases its own item**, and blocks what waits for it when it is final. -/
theorem life_released (hw : WellFormed s) (h : s.life? id = some l) (ht : s.apply enc t = .ok s')
    (hr : t.released? s = some (claim, r)) :
    s'.life? id = some (l.handBack claim r) ∨
      ((l.handBack claim r).item.status = .pending ∨ (l.handBack claim r).item.status = .ready) ∧
        s'.life? id = some ((l.handBack claim r).withStatus .blocked) := by
  have hlid := (life_item h).2
  have hback : ∀ {now}, s.claimCurrent now claim = true →
      (releaseClaim claim r s).life? id = some (l.handBack claim r) := by
    intro now hcur
    rw [life_releaseClaim hw h hcur, Life.handBack, hlid]
    simp only [eq_comm]
  cases t with
  | failAttempt c error retryable actor now =>
    obtain ⟨hcur, row, hrow, rfl⟩ := failAttemptTx_ok ht
    simp only [Txn.released?, hrow, Option.map_some] at hr
    cases hr
    have hlife : ∀ s₂ : Store, ((s₂.refreshGoalStatus claim.attempt.goalId).insertEvent
        claim.attempt.goalId "attempt.failed" actor).life? id = s₂.life? id := fun s₂ => by simp
    rw [hlife, failed]
    split
    · exact .inl (hback hcur)
    · rw [life_blockDownstream (hback hcur)]
      split
      · rename_i hp
        simp only [Bool.and_eq_true, Bool.or_eq_true, decide_eq_true_eq] at hp
        exact .inr ⟨hp.2, rfl⟩
      · exact .inl rfl
  | blockWorkItem c reason actor now =>
    obtain ⟨hcur, rfl⟩ := blockWorkItemTx_ok ht
    cases hr
    exact .inl (hback hcur)
  | deferAttempt c untilUnix actor now =>
    obtain ⟨hcur, rfl⟩ := deferAttemptTx_ok ht
    cases hr
    exact .inl (hback hcur)
  | continueAttempt c continuation actor started now =>
    obtain ⟨hcur, progress, hp, rfl⟩ := continueAttemptTx_ok ht
    simp only [Txn.released?, hp] at hr
    cases hr
    exact .inl (hback hcur)
  | _ => cases hr

theorem released_of_emits (ht : s.apply enc t = .ok s') {w : WorkItemRow} {attemptId : String}
    {status : WorkItemStatus} {committed : Bool} (h : t.Emits s w (.release attemptId status committed)) :
    ∃ x, t.released? s = some x := by
  cases t with
  | failAttempt c error retryable actor now =>
    obtain ⟨-, row, hrow, -⟩ := failAttemptTx_ok ht
    exact ⟨_, by rw [Txn.released?, hrow]; rfl⟩
  | blockWorkItem | deferAttempt => exact ⟨_, rfl⟩
  | continueAttempt c continuation actor started now =>
    obtain ⟨-, progress, hp, -⟩ := continueAttemptTx_ok ht
    exact ⟨_, by rw [Txn.released?, hp]⟩
  | recoverGoalState | resolveWaitingConfirmation | finishAttempt => simp [Txn.Emits] at h
  | cancelGoal | markGoalForReplan | requeueBlockedItems | claimWork | prepareCheckpoint | renewClaim
  | commitCheckpoint | recordPhaseProgress => cases h.2
  | _ => cases h

/-- The event is not a release. -/
def Life.Event.isRelease : Life.Event → Bool
  | .release .. => true
  | _ => false

/-- **A transaction that hands nothing back** moves every stored item along events that release none. -/
theorem life_unreleased (hw : WellFormed s) (h : s.life? id = some l) (ht : s.apply enc t = .ok s')
    (hr : t.released? s = none) : ∃ es l', s'.life? id = some l' ∧ Life.Path l es l' ∧
      ∀ e ∈ es, t.Emits s l.item e ∧ e.isRelease = false := by
  obtain ⟨es, l', h', hpath, hemits, -⟩ := life_apply hw h ht
  refine ⟨es, l', h', hpath, fun e hmem => ⟨hemits e hmem, ?_⟩⟩
  cases e with
  | release attemptId status committed =>
    obtain ⟨x, hx⟩ := released_of_emits ht (hemits _ hmem)
    cases hr.symm.trans hx
  | _ => rfl

/-- **The invariant rule with what a handback writes.** A property that new items have, that every event but
a release keeps, and every handback too, is kept by every transaction. -/
theorem lives_handback {I : Life → Prop}
    (hborn : ∀ id l, s.life? id = none → (exec enc s t).life? id = some l → I l)
    (hstep : ∀ (l : Life) e l', e.isRelease = false → I l → l.Step e l' → I l')
    (hrelease : ∀ id l a claim r, s.life? id = some l → I l → t.released? s = some (claim, r) →
      l.item.id = claim.workItem.id → l.Holds a → a.id = claim.attempt.id → I (l.release a.id r))
    (hw : WellFormed s) (hs : s.Lives I) : (exec enc s t).Lives I := by
  intro id l' h'
  cases h : s.life? id with
  | none => exact hborn id l' h h'
  | some l =>
    have hl := hs id l h
    rcases exec_cases enc s t with he | he
    · rw [he, h] at h'
      cases h'
      exact hl
    cases hr : t.released? s with
    | none =>
      obtain ⟨es, l₁, h₁, hpath, hes⟩ := life_unreleased hw h he hr
      cases h₁.symm.trans h'
      exact hpath.keeps hstep (fun e hmem => (hes e hmem).2) hl
    | some x =>
      obtain ⟨claim, r⟩ := x
      have hback : I (l.handBack claim r) := by
        unfold Life.handBack
        split_ifs with hid
        · obtain ⟨now, hcur⟩ := released_current he hr
          obtain ⟨a, hold, hai, -⟩ := claimCurrent_holds hw h hcur (hid.symm.trans (life_item h).2)
          rw [← hai]
          exact hrelease id l a claim r h hl hr hid hold hai
        · exact hl
      rcases life_released hw h he hr with h₁ | ⟨hst, h₁⟩
      · cases h₁.symm.trans h'
        exact hback
      · cases h₁.symm.trans h'
        exact hstep _ .block _ rfl hback (.block hst)

end Handbacks

end Xiaomaolv
