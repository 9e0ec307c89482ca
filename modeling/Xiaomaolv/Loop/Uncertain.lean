import Xiaomaolv.Loop.Replay

/-!
# Uncertain effects

An attempt whose risky handler runs leaves an effect that may have landed.

* `Life.Uncertain`: the attempt still works on the item, or nobody may claim it without a verdict;
  `Life.Step.uncertain`: every event keeps it but a handback, a commit, or an authorized retry.
* **`uncertain_effect_not_repeated`**: an item whose risky handler has not returned gets no further
  attempt before an operator authorizes one, as long as a deadline that cuts the handler off finds
  the attempt budget exhausted; `uncertain_effect_repeated` is a run where it does not.
-/

namespace Xiaomaolv

open Table LoopStore

namespace Life

variable {l l' : Life} {e : Event} {attemptId : String}

/-- The attempt owns the item, and its effect may have landed: it has a prepared checkpoint that is
not safe to rerun, and no committed one. -/
structure Working (attemptId : String) (l : Life) : Prop where
  holder : ∃ a, l.Holds a ∧ a.id = attemptId
  prepared : ∃ c ∈ l.checkpoints, c.attemptId = attemptId ∧ c.phase = .prepared ∧
    (l.item.effectClass = .externalWrite ∨ c.replaySafe = false)
  uncommitted : ∀ c ∈ l.checkpoints, c.attemptId = attemptId → c.phase ≠ .committed

/-- The attempt still works on the item, or nobody may claim it without a verdict. -/
def Uncertain (attemptId : String) (l : Life) : Prop :=
  l.item.status.isFinal = true ∨ l.item.status = .waitingConfirmation ∨ l.Working attemptId

/-- The event does not hand the attempt's item back for another attempt, nor record its outcome. -/
def Event.Withholds (attemptId : String) : Event → Prop
  | .release id status _ => id = attemptId → status = .failed
  | .commit id _ => id ≠ attemptId
  | .verdict resolution => resolution ≠ .retry
  | _ => True

theorem Uncertain.not_ready (hl : l.Uncertain attemptId) : l.item.status ≠ .ready := by
  intro hready
  rcases hl with h | h | h
  · rw [hready] at h
    cases h
  · rw [hready] at h
    cases h
  · obtain ⟨a, ha, -⟩ := h.holder
    cases hready.symm.trans ha.running

theorem Working.parked (hl : l.Working attemptId) : l.expired.parked = true := by
  obtain ⟨a, ha, hid⟩ := hl.holder
  obtain ⟨c, hc, hattempt, hphase, hrisky⟩ := hl.prepared
  have hlive : l.isLivePrepared c = true := by
    rw [isLivePrepared, hphase]
    exact List.any_eq_true.mpr ⟨a, ha.mem, decide_eq_true ⟨hid.trans hattempt.symm, ha.live⟩⟩
  rw [ExpiredRow.parked, Bool.or_eq_true, Bool.and_eq_true]
  rcases hrisky with h | h
  · exact .inl ⟨decide_eq_true h, List.any_eq_true.mpr ⟨c, hc, hlive⟩⟩
  · exact .inr (List.any_eq_true.mpr ⟨c, hc, by rw [hlive, h]; rfl⟩)

theorem Working.congr (hl : l.Working attemptId) (hstatus : l'.item.status = l.item.status)
    (htoken : l'.item.leaseToken = l.item.leaseToken)
    (hfencing : l'.item.fencingToken = l.item.fencingToken)
    (heffect : l'.item.effectClass = l.item.effectClass) (ha : l'.attempts = l.attempts)
    (hc : ∀ c ∈ l.checkpoints, c ∈ l'.checkpoints)
    (hc' : ∀ c ∈ l'.checkpoints, c.phase = .committed → c ∈ l.checkpoints) :
    l'.Working attemptId := by
  obtain ⟨a, hold, hid⟩ := hl.holder
  obtain ⟨c, hm, hattempt, hphase, hrisky⟩ := hl.prepared
  refine ⟨⟨a, ?_, hid⟩, ⟨c, hc c hm, hattempt, hphase, heffect ▸ hrisky⟩, fun x hx hxa hp => ?_⟩
  · exact ⟨ha ▸ hold.mem, hold.live, hstatus.trans hold.running, htoken.trans hold.leaseToken,
      hfencing.trans hold.fencingToken⟩
  · exact hl.uncommitted x (hc' x hx hp) hxa hp

/-- An item that waits for a verdict waits on, or is over. -/
theorem Step.waiting (h : l.Step e l') (he : e.Withholds attemptId)
    (hl : l.item.status = .waitingConfirmation) :
    l'.item.status.isFinal = true ∨ l'.item.status = .waitingConfirmation := by
  have hne : ∀ st : WorkItemStatus, st ≠ .waitingConfirmation → l.item.status ≠ st :=
    fun st hst heq => hst (heq.symm.trans hl)
  cases h with
  | unlock h => exact absurd h (hne _ (by decide))
  | block h => exact absurd h (not_or.mpr ⟨hne _ (by decide), hne _ (by decide)⟩)
  | requeue h => exact absurd h (hne _ (by decide))
  | claim _ _ h => exact absurd h (hne _ (by decide))
  | renew _ h => exact absurd h (hne _ (by decide))
  | progress _ _ h | prepare _ _ h | commit _ _ _ h | release _ _ h =>
    exact absurd h.running (hne _ (by decide))
  | reconcile c =>
    right
    simp only [Life.reconcile]
    rw [if_neg (hne _ (by decide))]
    exact hl
  | lapse _ h => exact absurd h (hne _ (by decide))
  | verdict a c resolution reason exhausted =>
    left
    cases resolution with
    | confirmed => rfl
    | retry => exact absurd rfl he
    | abandoned => rfl
  | close error attemptError status h =>
    left
    simp only [Life.close]
    rw [hl]
    rcases h with rfl | rfl <;> rfl

/-- **What an attempt at work leaves** is its item parked or over. -/
theorem Step.working (h : l.Step e l') (he : e.Withholds attemptId) (hs : l.Sound)
    (hl : l.Working attemptId) : l'.Uncertain attemptId := by
  obtain ⟨a, hold, hid⟩ := hl.holder
  have hne : ∀ st : WorkItemStatus, st ≠ .running → l.item.status ≠ st :=
    fun st hst heq => hst (heq.symm.trans hold.running)
  cases h with
  | unlock h => exact absurd h (hne _ (by decide))
  | block h => exact absurd h (not_or.mpr ⟨hne _ (by decide), hne _ (by decide)⟩)
  | requeue h => exact absurd h (hne _ (by decide))
  | claim _ _ h => exact absurd h (hne _ (by decide))
  | renew | progress =>
    exact .inr (.inr (hl.congr rfl rfl rfl rfl rfl (fun _ hc => hc) fun _ hc _ => hc))
  | prepare a' c _ _ _ hphase =>
    refine .inr (.inr (hl.congr rfl rfl rfl rfl rfl (fun _ hc => List.mem_append_left _ hc) ?_))
    intro x hx hp
    rcases List.mem_append.mp hx with hx | hx
    · exact hx
    · rw [List.mem_singleton.mp hx, hphase] at hp
      cases hp
  | commit a' c outcome h =>
    -- Only the holder commits, and it is the attempt at work.
    exact absurd ((congrArg AttemptRow.id (hs.sequenced.unique h hold)).trans hid) he
  | reconcile c hc hphase =>
    rcases hs.owned.settled c hc (by rw [hphase]; rfl) with hf | ⟨-, b, hb, hbid⟩
    · rw [hold.running] at hf
      cases hf
    · have hba := congrArg AttemptRow.id (hs.sequenced.unique hb hold)
      exact absurd hphase (hl.uncommitted c hc (hbid.symm.trans (hba.trans hid)))
  | release a' r h =>
    have hfailed : r.status = .failed :=
      he ((congrArg AttemptRow.id (hs.sequenced.unique h hold)).trans hid)
    exact .inl (by rw [show (l.release a'.id r).item.status = r.status from rfl, hfailed]; rfl)
  | lapse now =>
    have hstatus : (l.lapse now).item.status = l.expired.workStatus := rfl
    exact .inr (.inl (by rw [hstatus, ExpiredRow.workStatus, if_pos hl.parked]))
  | verdict _ _ _ _ _ _ h => exact absurd h (hne _ (by decide))
  | close error attemptError status h =>
    left
    simp only [Life.close]
    rw [hold.running]
    rcases h with rfl | rfl <;> rfl

theorem Step.uncertain (h : l.Step e l') (he : e.Withholds attemptId) (hs : l.Sound)
    (hl : l.Uncertain attemptId) : l'.Uncertain attemptId := by
  rcases hl with hf | hw | hl
  · exact .inl (h.final hf)
  · rcases h.waiting he hw with hf | hw
    · exact .inl hf
    · exact .inr (.inl hw)
  · exact h.working he hs hl

end Life

/-! ## The worker whose handler has not returned -/

/-- The handler runs, was cut off by the deadline, or the worker has given up. -/
def WorkerPhase.isUnreturned : WorkerPhase → Bool
  | executing _ | failing _ true | done => true
  | _ => false

/-- The deadline has cut the handler off, and the worker is about to report it. -/
def WorkerPhase.isCutOff : WorkerPhase → Bool
  | failing _ true => true
  | _ => false

/-- The input is the handler's end. -/
def WorkerInput.isReturn : WorkerInput → Bool
  | handlerReturned _ | handlerFailed .. => true
  | _ => false

/-- The attempts of the claim's item are used up. -/
def Store.isExhausted (s : Store) (claim : WorkClaim) : Bool :=
  !(s.workItem? claim.workItem.id).any fun row => willRetry s row true

namespace Worker

variable {enc : Encoding} {s : Store} {w : Worker} {input : WorkerInput}

theorem Acts.isUnreturned {t : Option Txn} {phase : WorkerPhase} (h : w.Acts enc s input t phase)
    (hin : input.isReturn = false) (hw : w.phase.isUnreturned = true) : phase.isUnreturned = true := by
  cases h with
  | idle | heartbeat => exact hw
  | refuse h | block h | prepare h | invalid _ _ h | yields _ _ h | progress _ _ h | defer _ _ h
  | commit _ _ h | finish _ h =>
    rw [h] at hw
    cases hw
  | returns | error => cases hin
  | cut | fail => rfl

theorem Acts.unreturned {t : Txn} {phase : WorkerPhase} (h : w.Acts enc s input (some t) phase)
    (hw : w.phase.isUnreturned = true) :
    (∀ claim id outcome actor now, t ≠ .commitCheckpoint claim id outcome actor now) ∧
    ∀ claim status now, t.handback? s = some (claim, status, now) →
      (∃ started, input = .proceed started now) ∧ w.phase.isCutOff = true ∧
        status = failStatus s w.claim true := by
  cases h with
  | heartbeat => exact ⟨fun _ _ _ _ _ h => (by cases h), fun _ _ _ h => (by cases h)⟩
  | block h | prepare h | yields _ _ h | progress _ _ h | defer _ _ h | commit _ _ h
  | finish _ h =>
    rw [h] at hw
    cases hw
  | fail error retryable h started now =>
    rw [h] at hw
    cases retryable with
    | false => cases hw
    | true =>
      refine ⟨fun _ _ _ _ _ h => (by cases h), fun claim status now' hb => ?_⟩
      cases hb
      exact ⟨⟨started, rfl⟩, by rw [h]; rfl, rfl⟩

theorem Acts.executing {t : Option Txn} {id : String} (h : w.Acts enc s input t (.executing id))
    (hw : w.phase ≠ .executing id) : ∃ t' now s', t = some t' ∧ s.claimCurrent now w.claim = true ∧
      s.apply enc t' = .ok s' ∧
      ∀ item e, t'.Emits s item e → e = .progress ∨ ∃ c, e = .prepare c := by
  generalize hphase : WorkerPhase.executing id = phase at h
  cases h with
  | idle | heartbeat => exact absurd hphase.symm hw
  | prepare _ enabled handler checkpointId now _ hprepared =>
    rcases hprepared with rfl | ⟨checkpoint, s', -, hp⟩
    · cases hphase
    · exact ⟨_, now, s', rfl, (prepareCheckpointTx_ok hp).1, map_eq_ok.mpr ⟨_, hp, rfl⟩,
        fun item e he => .inr ⟨_, he.2⟩⟩
  | progress _ outcome _ continuation started now _ hprogress =>
    rcases hprogress with ⟨error, rfl⟩ | ⟨-, s', hs⟩
    · cases hphase
    · exact ⟨_, now, s', rfl, (recordPhaseProgress_ok hs).1, hs, fun item e he => .inl he.2⟩
  | commit _ _ _ _ _ _ hcommitted =>
    rcases hcommitted with rfl | ⟨rfl, -⟩ <;> cases hphase
  | refuse | block | returns | error | cut | invalid | yields | defer | fail | finish => cases hphase

end Worker

namespace Pool

variable {enc : Encoding} {p : Pool} {a : Action} {k : Nat} {claim : WorkClaim} {ids : List String}

theorem txn_holder {t : Txn} (ht : p.txn? enc a = some t) {claim : WorkClaim}
    (hclaim : t.holder? = some claim) : ∃ j input w phase, a = .work j input ∧
      p.workers[j]? = some w ∧ w.claim = claim ∧ w.Acts enc p.store input (some t) phase := by
  cases a with
  | shared t' =>
    simp only [txn?] at ht
    split at ht
    · rename_i hshared
      cases ht
      rw [holder_of_shared hshared] at hclaim
      cases hclaim
    · cases ht
  | claim => cases ht; cases hclaim
  | work j input =>
    simp only [txn?] at ht
    cases hj : p.workers[j]? with
    | none =>
      rw [hj] at ht
      cases ht
    | some w =>
      rw [hj, Option.bind_some] at ht
      have hacts := w.act_acts enc p.store input
      rw [ht] at hacts
      cases hacts.holder.symm.trans hclaim
      exact ⟨j, input, w, _, rfl, hj, rfl, hacts⟩

theorem Inv.keepsCommit_txn (h : p.Inv) {t : Txn} (ht : p.txn? enc a = some t) :
    KeepsCommit p.store t := by
  cases hh : t.holder? with
  | none => exact keepsCommit_of_holder hh
  | some claim =>
    obtain ⟨j, input, w, phase, -, hj, -, hacts⟩ := txn_holder ht hh
    exact h.keepsCommit (List.mem_of_getElem? hj) hacts

theorem Inv.worker_eq (h : p.Inv) {j : Nat} {w w' : Worker} (hj : p.workers[j]? = some w)
    (hk : p.workers[k]? = some w') (he : w.claim.attempt.id = w'.claim.attempt.id) : j = k := by
  have hlt : j < (p.workers.map fun w => w.claim.attempt.id).length := by
    rw [List.length_map]
    exact (List.getElem?_eq_some_iff.mp hj).1
  refine (List.getElem?_inj hlt h.distinct).mp ?_
  rw [List.getElem?_map, List.getElem?_map, hj, hk, Option.map_some, Option.map_some, he]

/-- The handler of worker `k` starts on the checkpoint, and the worker becomes `w`. -/
structure Starts (enc : Encoding) (p : Pool) (a : Action) (k : Nat) (w : Worker)
    (checkpointId : String) : Prop where
  before : ∀ w₀, p.workers[k]? = some w₀ → w₀.phase ≠ .executing checkpointId
  worker : (p.step enc a).workers[k]? = some w
  executing : w.phase = .executing checkpointId

/-- The handler of worker `k` has not returned with this action, and no operator authorizes a retry of
the item. -/
def Undecided (k : Nat) (itemId : String) : Action → Bool
  | .work j input => j ≠ k || !input.isReturn
  | .shared (.resolveWaitingConfirmation _ workItemId .retry ..) => workItemId ≠ itemId
  | _ => true

/-- Worker `k` reports a deadline under a current claim only when the attempts of its item are used
up. -/
def ReportsExhausted (k : Nat) (p : Pool) : Action → Bool
  | .work j (.proceed _ now) =>
    j ≠ k || (p.workers[k]?).all fun w =>
      !(w.phase.isCutOff && p.store.claimCurrent now w.claim) || p.store.isExhausted w.claim
  | _ => true

/-- Worker `k` has not returned, and its item gets no further attempt. -/
structure Withheld (k : Nat) (claim : WorkClaim) (ids : List String) (p : Pool) : Prop where
  inv : p.Inv
  worker : ∃ w, p.workers[k]? = some w ∧ w.claim = claim ∧ w.phase.isUnreturned = true
  life : ∃ l, p.store.life? claim.workItem.id = some l ∧ l.Uncertain claim.attempt.id ∧
    l.attempts.map (·.id) = ids

/-- What a transaction may do to the item of such a worker. -/
theorem Withheld.withholds (h : p.Withheld k claim ids) (hu : Undecided k claim.workItem.id a = true)
    (hr : ReportsExhausted k p a = true) {t : Txn} (ht : p.txn? enc a = some t) {s' : Store}
    (hs : p.store.apply enc t = .ok s') {item : WorkItemRow} (hitem : item.id = claim.workItem.id)
    {e : Life.Event} (he : t.Emits p.store item e) : e.Withholds claim.attempt.id := by
  obtain ⟨w, hk, rfl, hw⟩ := h.worker
  cases e with
  | release id status committed =>
    obtain ⟨claim', now, hb, -, rfl, -⟩ := he.release
    intro hid
    obtain ⟨j, input, w', phase, rfl, hj, rfl, hacts⟩ := txn_holder ht (handback_holder hb)
    cases h.inv.worker_eq hj hk hid
    cases hj.symm.trans hk
    obtain ⟨⟨started, rfl⟩, hcut, rfl⟩ := (hacts.unreturned hw).2 _ _ _ hb
    simp only [ReportsExhausted, hk, Option.all_some, handback_current hs hb, hcut] at hr
    have hexhausted : p.store.isExhausted w.claim = true := by simpa using hr
    rw [Store.isExhausted, Bool.not_eq_true'] at hexhausted
    rw [failStatus, hexhausted]
    rfl
  | commit id checkpointId =>
    obtain ⟨claim', outcome, actor, now, rfl, rfl⟩ := he.commit
    intro hid
    obtain ⟨j, input, w', phase, rfl, hj, rfl, hacts⟩ := txn_holder ht rfl
    cases h.inv.worker_eq hj hk hid
    cases hj.symm.trans hk
    exact (hacts.unreturned hw).1 _ _ _ _ _ rfl
  | verdict resolution =>
    obtain ⟨goalId, reason, actor, now, rfl⟩ := he.verdict
    rintro rfl
    cases a with
    | shared t' =>
      simp only [txn?] at ht
      split at ht
      · cases ht
        simp [Undecided, hitem] at hu
      · cases ht
    | claim => cases ht
    | work j input =>
      simp only [txn?] at ht
      cases hj : p.workers[j]? with
      | none =>
        rw [hj] at ht
        cases ht
      | some w' =>
        rw [hj, Option.bind_some] at ht
        have hacts := w'.act_acts enc p.store input
        rw [ht] at hacts
        cases hacts.holder
  | _ => trivial

theorem Withheld.worker_step (h : p.Withheld k claim ids)
    (hu : Undecided k claim.workItem.id a = true) :
    ∃ w, (p.step enc a).workers[k]? = some w ∧ w.claim = claim ∧ w.phase.isUnreturned = true := by
  obtain ⟨w, hk, hclaim, hw⟩ := h.worker
  have hlt := (List.getElem?_eq_some_iff.mp hk).1
  cases a with
  | shared t => exact ⟨w, hk, hclaim, hw⟩
  | claim goalId stepId workerId leaseSecs leaseToken attemptId now =>
    refine ⟨w, ?_, hclaim, hw⟩
    simp only [step, workersAfter]
    split
    · rw [List.getElem?_append_left hlt]
      exact hk
    · exact hk
  | work j input =>
    simp only [step, workersAfter]
    by_cases hj : j = k
    · subst hj
      rw [hk]
      refine ⟨_, List.getElem?_set_self hlt, hclaim, ?_⟩
      exact (w.act_acts enc p.store input).isUnreturned (by simpa [Undecided] using hu) hw
    · refine ⟨w, ?_, hclaim, hw⟩
      split
      · rw [List.getElem?_set_ne hj]
        exact hk
      · exact hk

/-- **An action leaves the item withheld.** -/
theorem withheld_step (h : p.Withheld k claim ids) (hu : Undecided k claim.workItem.id a = true)
    (hr : ReportsExhausted k p a = true) : (p.step enc a).Withheld k claim ids := by
  refine ⟨inv_step enc p a h.inv, h.worker_step hu, ?_⟩
  obtain ⟨l, hl, hun, hids⟩ := h.life
  cases ht : p.txn? enc a with
  | none =>
    refine ⟨l, ?_, hun, hids⟩
    rw [step, ht]
    exact hl
  | some t =>
    obtain ⟨l', hl', -, hun', hids'⟩ := life_keeps (t := t)
      (I := fun x => x.Sound ∧ x.Uncertain claim.attempt.id ∧ x.attempts.map (·.id) = ids)
      (p := fun e => e.Settles ∧ e.Withholds claim.attempt.id)
      (fun x e x' he hI hstep => ⟨hstep.sound he.1 hI.1, hstep.uncertain he.2 hI.1 hI.2.1, by
        rcases hstep.attemptIds with heq | hready
        · exact heq.trans hI.2.2
        · exact absurd hready hI.2.1.not_ready⟩)
      h.inv.wellFormed hl
      (fun s' hs e he => ⟨(h.inv.keepsCommit_txn ht).settles hs he,
        h.withholds hu hr ht hs (life_item hl).2 he⟩)
      ⟨h.inv.sound _ _ hl, hun, hids⟩
    refine ⟨l', ?_, hun', hids'⟩
    rw [step, ht]
    exact hl'

/-! ## The start of the handler -/

/-- Only an input of its own starts a worker's handler. -/
theorem Starts.acts {w : Worker} {checkpointId : String} (h : Starts enc p a k w checkpointId) :
    ∃ input w₀ t, p.workers[k]? = some w₀ ∧ w₀.claim = w.claim ∧
      p.txn? enc a = t ∧ w₀.Acts enc p.store input t (.executing checkpointId) ∧
      w₀.phase ≠ .executing checkpointId := by
  have hw := h.worker
  cases a with
  | shared t => exact absurd h.executing (h.before w hw)
  | claim goalId stepId workerId leaseSecs leaseToken attemptId now =>
    simp only [step, workersAfter] at hw
    split at hw
    · rename_i claim hout
      by_cases hlt : k < p.workers.length
      · rw [List.getElem?_append_left hlt] at hw
        exact absurd h.executing (h.before w hw)
      · -- The worker that is new has only claimed.
        rw [List.getElem?_append_right (Nat.not_lt.mp hlt)] at hw
        have hw' := List.mem_singleton.mp (List.mem_of_getElem? hw)
        have hex := h.executing
        rw [hw'] at hex
        cases hex
    · exact absurd h.executing (h.before w hw)
  | work j input =>
    simp only [step, workersAfter] at hw
    cases hj : p.workers[j]? with
    | none =>
      rw [hj] at hw
      exact absurd h.executing (h.before w hw)
    | some w₀ =>
      rw [hj] at hw
      by_cases hjk : j = k
      · subst hjk
        rw [List.getElem?_set_self (List.getElem?_eq_some_iff.mp hj).1] at hw
        cases hw
        refine ⟨input, w₀, _, hj, rfl, rfl, ?_, h.before w₀ hj⟩
        have hacts := w₀.act_acts enc p.store input
        have hex : (w₀.act enc p.store input).2 = .executing checkpointId := h.executing
        rw [hex] at hacts
        simpa only [txn?, hj, Option.bind_some] using hacts
      · rw [List.getElem?_set_ne hjk] at hw
        exact absurd h.executing (h.before w hw)

theorem Starts.holds {w : Worker} {checkpointId : String} (h : Starts enc p a k w checkpointId)
    (hp : p.Inv) : ∃ l b, (p.step enc a).store.life? w.claim.workItem.id = some l ∧ l.Holds b ∧
      b.id = w.claim.attempt.id := by
  obtain ⟨input, w₀, t, -, hclaim, ht, hacts, hne⟩ := h.acts
  obtain ⟨t', now, s', rfl, hcur, hs, hemits⟩ := hacts.executing hne
  rw [hclaim] at hcur
  obtain ⟨item, hitem, -, -, hid, -⟩ := claimCurrent_iff.mp hcur
  obtain ⟨l, hl⟩ : ∃ l, p.store.life? w.claim.workItem.id = some l :=
    ⟨_, hid ▸ hp.wellFormed.life? hitem⟩
  obtain ⟨b, hold, hbid, -⟩ := claimCurrent_holds hp.wellFormed hl hcur rfl
  obtain ⟨es, l', hl', hpath, hes, -⟩ := life_apply hp.wellFormed hl hs
  refine ⟨l', b, ?_, ?_, hbid⟩
  · rw [step, ht]
    dsimp only
    rw [exec_of_ok hs]
    exact hl'
  · refine hpath.keeps (I := fun x => x.Holds b) (p := fun e => e = .progress ∨ ∃ c, e = .prepare c)
      ?_ (fun e he => hemits _ e (hes e he)) hold
    intro x e x' he hx hstep
    rcases he with rfl | ⟨c, rfl⟩
    · cases hstep
      exact ⟨hx.mem, hx.live, hx.running, hx.leaseToken, hx.fencingToken⟩
    · cases hstep
      exact ⟨hx.mem, hx.live, hx.running, hx.leaseToken, hx.fencingToken⟩

/-- The effect under the checkpoint is ambiguous as long as it is not committed. -/
def isAmbiguous (p : Pool) (claim : WorkClaim) (checkpointId : String) : Bool :=
  claim.workItem.effect = .externalWrite ||
    p.store.checkpoints.any fun c => c.id = checkpointId && !c.replaySafe

theorem Starts.withheld {w : Worker} {checkpointId : String} (h : Starts enc p a k w checkpointId)
    (hp : p.Inv) (hrisky : (p.step enc a).isAmbiguous w.claim checkpointId = true) :
    (p.step enc a).Withheld k w.claim
      (((p.step enc a).store.attemptsOf w.claim.workItem.id).map (·.id)) := by
  have hinv := inv_step enc p a hp
  have hwm : w ∈ (p.step enc a).workers := List.mem_of_getElem? h.worker
  obtain ⟨l, b, hl, hold, hbid⟩ := h.holds hp
  have hids : l.attempts.map (·.id)
      = ((p.step enc a).store.attemptsOf w.claim.workItem.id).map (·.id) := by
    rw [(life?_eq_some.mp hl).2.1]
    rfl
  refine ⟨hinv, ⟨w, h.worker, rfl, by rw [h.executing]; rfl⟩, l, hl, .inr (.inr ?_), hids⟩
  have hcommitted : (p.step enc a).store.hasCommitted w.claim.attempt.id = false :=
    hinv.uncommitted w hwm (by rw [h.executing]; rfl)
  have huncommitted : ∀ c ∈ l.checkpoints, c.attemptId = w.claim.attempt.id →
      c.phase ≠ .committed := by
    intro c hc hattempt hphase
    have hany := List.any_eq_false.mp hcommitted c ((mem_life_checkpoints hl).mp hc).1
    exact hany (decide_eq_true ⟨hattempt, hphase⟩)
  obtain ⟨c, hc, hid, hattempt⟩ := hinv.prepared w hwm checkpointId (by rw [h.executing]; rfl)
  obtain ⟨hbm, hbi⟩ := (mem_life_attempts hl).mp hold.mem
  have hcl : c ∈ l.checkpoints := (mem_life_checkpoints hl).mpr
    ⟨hc, (hinv.wellFormed.attempt_item hc hbm (hbid.trans hattempt.symm)).1.symm.trans hbi⟩
  refine ⟨⟨b, hold, hbid⟩, ⟨c, hcl, hattempt, ?_, ?_⟩, huncommitted⟩
  · have hopen := (hinv.sound _ _ hl).tracked.working c hcl b hold.mem (hbid.trans hattempt.symm) hold.live
    exact hopen.resolve_right (huncommitted c hcl hattempt)
  · rcases (Bool.or_eq_true _ _).mp hrisky with heffect | hunsafe
    · left
      obtain ⟨item, hitem, hitemId, hitemEffect⟩ := (hinv.recorded w hwm).item
      have hlid := life_item hl
      cases hinv.wellFormed.item_eq hitem hlid.1 (hitemId.trans hlid.2.symm)
      exact hitemEffect.trans (of_decide_eq_true heffect)
    · right
      obtain ⟨x, hx, hxc⟩ := List.any_eq_true.mp hunsafe
      rw [Bool.and_eq_true, decide_eq_true_eq, Bool.not_eq_true'] at hxc
      cases hinv.wellFormed.checkpoint_eq hx hc (hxc.1.trans hid.symm)
      exact hxc.2

end Pool

/-- **An uncertain effect is not repeated** without a verdict, in a run in which the worker whose handler
has not returned reports a deadline only when the attempts of its item are used up. -/
theorem uncertain_effect_not_repeated (enc : Encoding) (acts rest : List Action) (a : Action) (k : Nat)
    (w : Worker) (checkpointId : String) (hstart : Pool.Starts enc (Pool.run enc acts) a k w checkpointId)
    (hambiguous : ((Pool.run enc acts).step enc a).isAmbiguous w.claim checkpointId = true)
    (h : Machine.Along (Pool.step enc) (fun p a => Pool.Undecided k w.claim.workItem.id a = true ∧
      Pool.ReportsExhausted k p a = true) ((Pool.run enc acts).step enc a) rest) :
    ((Pool.run enc (acts ++ a :: rest)).store.attemptsOf w.claim.workItem.id).map (·.id)
      = (((Pool.run enc acts).step enc a).store.attemptsOf w.claim.workItem.id).map (·.id) := by
  have hwithheld := hstart.withheld (Pool.inv_run enc acts) hambiguous
  have hrun := Machine.run_invariant (I := Pool.Withheld k w.claim
      (((Pool.run enc acts).step enc a).store.attemptsOf w.claim.workItem.id |>.map (·.id)))
    (fun p a hG hI => Pool.withheld_step hI hG.1 hG.2) h hwithheld
  obtain ⟨l, hl, -, hids⟩ := hrun.life
  have hpool : Pool.run enc (acts ++ a :: rest)
      = Machine.run (Pool.step enc) ((Pool.run enc acts).step enc a) rest := by
    rw [Pool.run, Machine.run_append, Machine.run_cons]
    rfl
  rw [hpool, Store.attemptsOf, ← (life?_eq_some.mp hl).2.1]
  exact hids

namespace Sample

/-- A worker claims the step of `outbound`. -/
def sending : List Action :=
  (admission outbound).map .shared ++ [.claim "goal" none "w1" 300 "lease1" "attempt1" 0]

/-- Its handler starts. -/
def started : Action := .work 0 (.dispatch true (some ⟨.externalWrite, false⟩) "checkpoint1" 1)

/-- The worker while its handler runs. -/
def sender : Worker where
  claim := { firstClaim "lease1" "attempt1" with
    workItem := ⟨"first", "goal", .running, "send", "channel_send", .externalWrite, .object .nil, 2, 0,
      [], none⟩ }
  actor := "runtime:w1"
  phase := .executing "checkpoint1"

/-- The worker crashes, its lease runs out, and a second worker looks for the step. -/
def crashed : List Action :=
  [.shared (.recoverGoalState "goal" "janitor" 301), .claim "goal" none "w2" 300 "lease2" "attempt2" 302]

/-- The deadline cuts the handler off, the worker reports it, and a second worker claims the step. -/
def cutOff : List Action :=
  [.work 0 .deadline, .work 0 (.proceed 61 61), .claim "goal" none "w2" 300 "lease2" "attempt2" 62]

end Sample

theorem uncertain_effect_not_repeated_crashed :
    ((Pool.run Sample.encoding (Sample.sending ++ Sample.started :: Sample.crashed)).store.attemptsOf
        "first").map (·.id)
      = (((Pool.run Sample.encoding Sample.sending).step Sample.encoding Sample.started).store.attemptsOf
          "first").map (·.id) :=
  uncertain_effect_not_repeated Sample.encoding Sample.sending Sample.crashed Sample.started 0
    Sample.sender "checkpoint1" ⟨by decide +kernel, by decide +kernel, rfl⟩ (by decide +kernel)
    (by decide +kernel)

/-- A deadline that cuts the handler off with attempts left: no verdict, and a second attempt. -/
theorem uncertain_effect_repeated :
    Pool.Starts Sample.encoding (Pool.run Sample.encoding Sample.sending) Sample.started 0 Sample.sender
        "checkpoint1" ∧
      ((Pool.run Sample.encoding Sample.sending).step Sample.encoding Sample.started).isAmbiguous
        Sample.sender.claim "checkpoint1" = true ∧
      (∀ a ∈ Sample.cutOff, Pool.Undecided 0 "first" a = true) ∧
      ((Pool.run Sample.encoding (Sample.sending ++ Sample.started :: Sample.cutOff)).store.attemptsOf
        "first").map (·.id) ≠
        (((Pool.run Sample.encoding Sample.sending).step Sample.encoding Sample.started).store.attemptsOf
          "first").map (·.id) := by
  refine ⟨⟨?_, ?_, rfl⟩, ?_, ?_, ?_⟩ <;> decide +kernel

end Xiaomaolv
