import Xiaomaolv.Loop.Ownership

/-!
# Workers

`process_claim` by any number of workers, interleaved with each other and with every transaction
that presents no claim.

* `Worker.act`: the transaction a worker sends next and the phase it goes to. A worker that stops
  takes no further action.
* `Pool`, `Action`, `Pool.step`: the workers over one store. A resume is a recovery transaction,
  which any caller may send.
* `step_store`: a pool step is one transaction of the store, or none.
* **`Pool.Inv`**, `inv_run`: what holds of the claims in every reachable pool.
-/

namespace Xiaomaolv

open Table LoopStore

/-- What `process_claim` asks of a registered handler. -/
structure Handler where
  effectClass : EffectClass
  replaySafe : Bool
  deriving DecidableEq, Repr

/-- Where a worker is in `process_claim`. -/
inductive WorkerPhase where
  | claimed
  /-- The handler runs. -/
  | executing (checkpointId : String)
  /-- The handler returned an outcome. -/
  | returned (checkpointId : String) (outcome : WorkOutcome)
  /-- The worker is about to call `fail_attempt`. -/
  | failing (error : String) (retryable : Bool)
  | committed (checkpointId : String)
  /-- `process_claim` has returned. -/
  | done
  deriving DecidableEq

/-- The worker has not yet tried to commit. -/
def WorkerPhase.isOpen : WorkerPhase → Bool
  | claimed | executing _ | returned .. | failing .. => true
  | committed _ | done => false

/-- The checkpoint that the worker holds. -/
def WorkerPhase.checkpoint? : WorkerPhase → Option String
  | executing id | returned id _ | committed id => some id
  | claimed | failing .. | done => none

/-- A worker on one claim. -/
structure Worker where
  claim : WorkClaim
  actor : String
  phase : WorkerPhase := .claimed
  deriving DecidableEq

/-- What a worker meets next: the policy and the registry, the clock, its handler's end. -/
inductive WorkerInput where
  | dispatch (externalWriteEnabled : Bool) (handler : Option Handler) (checkpointId : String)
      (now : Int)
  /-- One tick of `run_lease_heartbeat`. -/
  | heartbeat (leaseSecs : Nat) (now : Int)
  | handlerReturned (outcome : WorkOutcome)
  | handlerFailed (error : String) (retryable : Bool)
  /-- `timeout_at` cuts the handler off. -/
  | deadline
  /-- The worker goes on; `started` is the clock before the transaction. -/
  | proceed (started now : Int)

namespace Worker

variable (enc : Encoding) (s : Store) (w : Worker)

def idempotencyKey : String := w.claim.workItem.id ++ ":" ++ w.claim.attempt.id ++ ":v1"

/-- From the claim to the start of the handler. -/
def dispatch (externalWriteEnabled : Bool) (handler : Option Handler) (checkpointId : String)
    (now : Int) : Option Txn × WorkerPhase :=
  if w.claim.workItem.effect = .externalWrite ∧ externalWriteEnabled = false then
    (none, .failing "external_write is disabled" false)
  else
    match handler with
    | none =>
      (some (.blockWorkItem w.claim ("unregistered workflow handler: " ++ w.claim.workItem.handler)
        w.actor now), .done)
    | some handler =>
      if handler.effectClass ≠ w.claim.workItem.effect then
        (none, .failing "approved effect class does not match registered handler" false)
      else
        (some (.prepareCheckpoint w.claim w.idempotencyKey handler.replaySafe w.actor checkpointId now),
          match prepareCheckpointTx w.claim w.idempotencyKey handler.replaySafe w.actor checkpointId
              now s with
          | .ok (checkpoint, _) => .executing checkpoint.id
          | .error _ => .done)

/-- What becomes of the handler's outcome. -/
def processOutcome (checkpointId : String) (outcome : WorkOutcome) (started now : Int) :
    Option Txn × WorkerPhase :=
  match outcome.validate enc with
  | .error error => (none, .failing ("handler returned an invalid outcome: " ++ error) false)
  | .ok () =>
    match outcome.continuation with
    | some continuation =>
      if continuation.delaySecs.isSome then
        (some (.continueAttempt w.claim continuation w.actor started now), .done)
      else
        let t := Txn.recordPhaseProgress w.claim continuation w.actor now
        (some t, match s.apply enc t with
          | .ok _ => .executing checkpointId
          | .error error => .failing error false)
    | none =>
      match outcome.sleepUntilUnix with
      | some untilUnix => (some (.deferAttempt w.claim untilUnix w.actor now), .done)
      | none =>
        let t := Txn.commitCheckpoint w.claim checkpointId outcome w.actor now
        (some t, match s.apply enc t with
          | .ok _ => .committed checkpointId
          | .error _ => .done)

/-- The transaction a worker sends and the phase it goes to; an input out of place is ignored. A
heartbeat that fails stops in the source; here it may tick on. -/
def act : WorkerInput → Option Txn × WorkerPhase
  | .dispatch externalWriteEnabled handler checkpointId now =>
    if w.phase = .claimed then w.dispatch s externalWriteEnabled handler checkpointId now
    else (none, w.phase)
  | .heartbeat leaseSecs now =>
    match w.phase with
    | .executing _ | .returned .. => (some (.renewClaim w.claim leaseSecs now), w.phase)
    | _ => (none, w.phase)
  | .handlerReturned outcome =>
    match w.phase with
    | .executing checkpointId => (none, .returned checkpointId outcome)
    | _ => (none, w.phase)
  | .handlerFailed error retryable =>
    match w.phase with
    | .executing _ => (none, .failing error retryable)
    | _ => (none, w.phase)
  | .deadline =>
    match w.phase with
    | .executing _ => (none, .failing "workflow handler deadline exceeded" true)
    | _ => (none, w.phase)
  | .proceed started now =>
    match w.phase with
    | .returned checkpointId outcome => w.processOutcome enc s checkpointId outcome started now
    | .failing error retryable => (some (.failAttempt w.claim error retryable w.actor now), .done)
    | .committed checkpointId => (some (.finishAttempt w.claim checkpointId w.actor now), .done)
    | _ => (none, w.phase)

/-- What `act` may do on an input, by the phase of the worker. -/
inductive Acts : WorkerInput → Option Txn → WorkerPhase → Prop
  | idle (input : WorkerInput) : Acts input none w.phase
  | refuse (h : w.phase = .claimed) (error : String) (input : WorkerInput) :
      Acts input none (.failing error false)
  | block (h : w.phase = .claimed) (reason : String) (now : Int) (input : WorkerInput) :
      Acts input (some (.blockWorkItem w.claim reason w.actor now)) .done
  | prepare (h : w.phase = .claimed) (enabled : Bool) (handler : Handler) (checkpointId : String)
      (now : Int) (phase : WorkerPhase)
      (hphase : phase = .done ∨ ∃ checkpoint s', phase = .executing checkpoint.id ∧
        prepareCheckpointTx w.claim w.idempotencyKey handler.replaySafe w.actor checkpointId now s
          = .ok (checkpoint, s')) :
      Acts (.dispatch enabled (some handler) checkpointId now)
        (some (.prepareCheckpoint w.claim w.idempotencyKey handler.replaySafe w.actor checkpointId now))
        phase
  | heartbeat (leaseSecs : Nat) (now : Int) :
      Acts (.heartbeat leaseSecs now) (some (.renewClaim w.claim leaseSecs now)) w.phase
  | returns (checkpointId : String) (h : w.phase = .executing checkpointId) (outcome : WorkOutcome) :
      Acts (.handlerReturned outcome) none (.returned checkpointId outcome)
  | error (checkpointId : String) (h : w.phase = .executing checkpointId) (error : String)
      (retryable : Bool) : Acts (.handlerFailed error retryable) none (.failing error retryable)
  | cut (checkpointId : String) (h : w.phase = .executing checkpointId) :
      Acts .deadline none (.failing "workflow handler deadline exceeded" true)
  | invalid (checkpointId : String) (outcome : WorkOutcome)
      (h : w.phase = .returned checkpointId outcome) (error : String) (started now : Int) :
      Acts (.proceed started now) none (.failing error false)
  | yields (checkpointId : String) (outcome : WorkOutcome)
      (h : w.phase = .returned checkpointId outcome) (continuation : WorkContinuation)
      (started now : Int) :
      Acts (.proceed started now)
        (some (.continueAttempt w.claim continuation w.actor started now)) .done
  | progress (checkpointId : String) (outcome : WorkOutcome)
      (h : w.phase = .returned checkpointId outcome) (continuation : WorkContinuation)
      (started now : Int) (phase : WorkerPhase)
      (hphase : (∃ error, phase = .failing error false) ∨ (phase = .executing checkpointId ∧
        ∃ s', s.apply enc (.recordPhaseProgress w.claim continuation w.actor now) = .ok s')) :
      Acts (.proceed started now) (some (.recordPhaseProgress w.claim continuation w.actor now)) phase
  | defer (checkpointId : String) (outcome : WorkOutcome)
      (h : w.phase = .returned checkpointId outcome) (untilUnix started now : Int) :
      Acts (.proceed started now) (some (.deferAttempt w.claim untilUnix w.actor now)) .done
  | commit (checkpointId : String) (outcome : WorkOutcome)
      (h : w.phase = .returned checkpointId outcome) (started now : Int) (phase : WorkerPhase)
      (hphase : phase = .done ∨ (phase = .committed checkpointId ∧
        ∃ s', s.apply enc (.commitCheckpoint w.claim checkpointId outcome w.actor now) = .ok s')) :
      Acts (.proceed started now)
        (some (.commitCheckpoint w.claim checkpointId outcome w.actor now)) phase
  | fail (error : String) (retryable : Bool) (h : w.phase = .failing error retryable)
      (started now : Int) :
      Acts (.proceed started now) (some (.failAttempt w.claim error retryable w.actor now)) .done
  | finish (checkpointId : String) (h : w.phase = .committed checkpointId) (started now : Int) :
      Acts (.proceed started now) (some (.finishAttempt w.claim checkpointId w.actor now)) .done

section

variable {enc s w} {input : WorkerInput} {t : Txn}

theorem dispatch_acts (h : w.phase = .claimed) (enabled : Bool) (handler : Option Handler)
    (checkpointId : String) (now : Int) :
    w.Acts enc s (.dispatch enabled handler checkpointId now)
      (w.dispatch s enabled handler checkpointId now).1
      (w.dispatch s enabled handler checkpointId now).2 := by
  unfold dispatch
  split
  · exact .refuse h _ _
  cases handler with
  | none => exact .block h _ _ _
  | some handler =>
    dsimp only
    split
    · exact .refuse h _ _
    · refine .prepare h enabled handler checkpointId now _ ?_
      split
      · rename_i checkpoint s' hp
        exact .inr ⟨checkpoint, s', rfl, hp⟩
      · exact .inl rfl

theorem processOutcome_acts {checkpointId : String} {outcome : WorkOutcome}
    (h : w.phase = .returned checkpointId outcome) (started now : Int) :
    w.Acts enc s (.proceed started now)
      (w.processOutcome enc s checkpointId outcome started now).1
      (w.processOutcome enc s checkpointId outcome started now).2 := by
  unfold processOutcome
  split
  · exact .invalid checkpointId outcome h _ started now
  split
  · split
    · exact .yields checkpointId outcome h _ started now
    · refine .progress checkpointId outcome h _ started now _ ?_
      dsimp only
      split
      · rename_i s' hs
        exact .inr ⟨rfl, s', hs⟩
      · exact .inl ⟨_, rfl⟩
  · split
    · exact .defer checkpointId outcome h _ started now
    · refine .commit checkpointId outcome h started now _ ?_
      dsimp only
      split
      · rename_i s' hs
        exact .inr ⟨rfl, s', hs⟩
      · exact .inl rfl

variable (enc s w) in
theorem act_acts (input : WorkerInput) :
    w.Acts enc s input (w.act enc s input).1 (w.act enc s input).2 := by
  cases input with
  | dispatch enabled handler checkpointId now =>
    simp only [act]
    split
    · rename_i h
      exact dispatch_acts h enabled handler checkpointId now
    · exact .idle _
  | heartbeat leaseSecs now =>
    simp only [act]
    split
    · exact .heartbeat leaseSecs now
    · exact .heartbeat leaseSecs now
    · exact .idle _
  | handlerReturned outcome =>
    simp only [act]
    split
    · rename_i checkpointId h
      exact .returns checkpointId h outcome
    · exact .idle _
  | handlerFailed error retryable =>
    simp only [act]
    split
    · rename_i checkpointId h
      exact .error checkpointId h error retryable
    · exact .idle _
  | deadline =>
    simp only [act]
    split
    · rename_i checkpointId h
      exact .cut checkpointId h
    · exact .idle _
  | proceed started now =>
    simp only [act]
    split
    · rename_i checkpointId outcome h
      exact processOutcome_acts h started now
    · rename_i error retryable h
      exact .fail error retryable h started now
    · rename_i checkpointId h
      exact .finish checkpointId h started now
    · exact .idle _

theorem Acts.holder {phase : WorkerPhase} (h : w.Acts enc s input (some t) phase) :
    t.holder? = some w.claim := by
  cases h <;> rfl

theorem Acts.handback {phase : WorkerPhase} (h : w.Acts enc s input (some t) phase)
    (hb : t.handback? s ≠ none) : w.phase.isOpen = true := by
  cases h with
  | prepare | heartbeat | progress | commit | finish => exact absurd rfl hb
  | block h | yields _ _ h | defer _ _ h | fail _ _ h => rw [h]; rfl

theorem Acts.isOpen {t : Option Txn} {phase : WorkerPhase} (h : w.Acts enc s input t phase)
    (ho : phase.isOpen = true) : w.phase.isOpen = true ∧
      ∀ claim id outcome actor now, t ≠ some (.commitCheckpoint claim id outcome actor now) := by
  cases h with
  | idle | heartbeat => exact ⟨ho, fun _ _ _ _ _ h => by cases h⟩
  | refuse h | prepare h | returns _ h | error _ h | cut _ h | invalid _ _ h | progress _ _ h =>
    exact ⟨by rw [h]; rfl, fun _ _ _ _ _ h => by cases h⟩
  | commit _ _ _ _ _ _ hphase =>
    rcases hphase with rfl | ⟨rfl, -⟩ <;> cases ho
  | block | yields | defer | fail | finish => cases ho

theorem Acts.checkpoint {t : Option Txn} {phase : WorkerPhase} (h : w.Acts enc s input t phase)
    {id : String} (hid : phase.checkpoint? = some id) : w.phase.checkpoint? = some id ∨
      ∃ t', t = some t' ∧ ∃ c ∈ (exec enc s t').checkpoints, c.id = id ∧
        c.attemptId = w.claim.attempt.id := by
  cases h with
  | idle | heartbeat => exact .inl hid
  | prepare _ enabled handler checkpointId now _ hphase =>
    rcases hphase with rfl | ⟨checkpoint, s', rfl, hp⟩
    · cases hid
    · cases hid
      obtain ⟨-, hattempt, -, -, hmem, -⟩ := prepareCheckpointTx_ok hp
      have hok : s.apply enc (.prepareCheckpoint w.claim w.idempotencyKey handler.replaySafe w.actor
          checkpointId now) = .ok s' := map_eq_ok.mpr ⟨_, hp, rfl⟩
      exact .inr ⟨_, rfl, checkpoint, by rw [exec_of_ok hok]; exact hmem, rfl, hattempt⟩
  | returns _ h => exact .inl (by rw [h]; exact hid)
  | progress _ _ h _ _ _ _ hphase =>
    rcases hphase with ⟨error, rfl⟩ | ⟨rfl, -⟩
    · cases hid
    · exact .inl (by rw [h]; exact hid)
  | commit _ _ h _ _ _ hphase =>
    rcases hphase with rfl | ⟨rfl, -⟩
    · cases hid
    · exact .inl (by rw [h]; exact hid)
  | refuse | block | error | cut | invalid | yields | defer | fail | finish => cases hid

end

end Worker

/-! ## The pool -/

/-- The store and the workers, in the order of their claims. -/
structure Pool where
  store : Store
  workers : List Worker
  deriving DecidableEq

def Pool.empty : Pool := ⟨.empty, []⟩

/-- A transaction that presents no claim and takes none. -/
def Txn.isShared : Txn → Bool
  | .claimWork .. => false
  | t => t.holder?.isNone

theorem holder_of_shared {t : Txn} (h : t.isShared = true) : t.holder? = none := by
  cases t <;> first | rfl | cases h

/-- One step of somebody: an operator, a janitor, a claim, or a worker on its claim. -/
inductive Action where
  | shared (t : Txn)
  | claim (goalId : String) (stepId : Option String) (workerId : String) (leaseSecs : Nat)
      (leaseToken attemptId : String) (now : Int)
  | work (k : Nat) (input : WorkerInput)

/-- `format!("runtime:{}", self.worker_id)`. -/
def runtimeActor (workerId : String) : String := "runtime:" ++ workerId

namespace Pool

variable (enc : Encoding) (p : Pool)

/-- The transaction that an action sends. -/
def txn? : Action → Option Txn
  | .shared t => if t.isShared then some t else none
  | .claim goalId stepId workerId leaseSecs leaseToken attemptId now =>
    some (.claimWork goalId stepId workerId leaseSecs (runtimeActor workerId) leaseToken attemptId now)
  | .work k input => p.workers[k]?.bind fun w => (w.act enc p.store input).1

/-- The claim that a claim transaction hands out: none when its attempt number does not decode. -/
def handedOut (goalId : String) (stepId : Option String) (workerId : String) (leaseSecs : Nat)
    (leaseToken attemptId : String) (now : Int) : Option WorkClaim :=
  match claimTx goalId stepId workerId leaseSecs (runtimeActor workerId) leaseToken attemptId now
      p.store with
  | .ok (some work, _) => work.toClaim.toOption
  | _ => none

/-- The workers after an action. -/
def workersAfter : Action → List Worker
  | .shared _ => p.workers
  | .claim goalId stepId workerId leaseSecs leaseToken attemptId now =>
    match p.handedOut goalId stepId workerId leaseSecs leaseToken attemptId now with
    | some claim => p.workers ++ [⟨claim, runtimeActor workerId, .claimed⟩]
    | none => p.workers
  | .work k input =>
    match p.workers[k]? with
    | some w => p.workers.set k { w with phase := (w.act enc p.store input).2 }
    | none => p.workers

def step (a : Action) : Pool where
  store := match p.txn? enc a with
    | some t => exec enc p.store t
    | none => p.store
  workers := p.workersAfter enc a

/-- The pool after a run from the empty store. -/
def run (acts : List Action) : Pool := Machine.run (step enc) .empty acts

end Pool

/-! ## The claims of the workers -/

/-- The claim is of the attempt `a`. -/
structure WorkClaim.IsOf (claim : WorkClaim) (a : AttemptRow) : Prop where
  id : claim.attempt.id = a.id
  workItem : claim.workItem.id = a.workItemId
  goalId : claim.attempt.goalId = a.goalId
  leaseToken : claim.attempt.leaseToken = a.leaseToken
  fencingToken : claim.attempt.fencingToken = a.fencingToken

instance (claim : WorkClaim) (a : AttemptRow) : Decidable (claim.IsOf a) :=
  decidable_of_iff (claim.attempt.id = a.id ∧ claim.workItem.id = a.workItemId ∧
      claim.attempt.goalId = a.goalId ∧ claim.attempt.leaseToken = a.leaseToken ∧
      claim.attempt.fencingToken = a.fencingToken)
    ⟨fun ⟨h₁, h₂, h₃, h₄, h₅⟩ => ⟨h₁, h₂, h₃, h₄, h₅⟩, fun ⟨h₁, h₂, h₃, h₄, h₅⟩ => ⟨h₁, h₂, h₃, h₄, h₅⟩⟩

theorem WorkClaim.IsOf.of_origin {claim : WorkClaim} {a a' : AttemptRow} (h : claim.IsOf a)
    (he : a'.origin = a.origin) : claim.IsOf a' := by
  have hid := congrArg AttemptRow.id he
  have hitem := congrArg AttemptRow.workItemId he
  have hgoal := congrArg AttemptRow.goalId he
  have htoken := congrArg AttemptRow.leaseToken he
  have hfencing := congrArg AttemptRow.fencingToken he
  exact ⟨h.id.trans hid.symm, h.workItem.trans hitem.symm, h.goalId.trans hgoal.symm,
    h.leaseToken.trans htoken.symm, h.fencingToken.trans hfencing.symm⟩

/-- The claim is of a stored attempt, and its item has the effect that was approved. -/
structure WorkClaim.Recorded (claim : WorkClaim) (s : Store) : Prop where
  attempt : ∃ a ∈ s.attempts, claim.IsOf a
  item : ∃ w ∈ s.workItems, w.id = claim.workItem.id ∧ w.effectClass = claim.workItem.effect

theorem WorkClaim.Recorded.exec (enc : Encoding) {s : Store} {claim : WorkClaim}
    (h : claim.Recorded s) (t : Txn) : claim.Recorded (Xiaomaolv.exec enc s t) := by
  obtain ⟨a, ha, hof⟩ := h.attempt
  obtain ⟨w, hw, hid, heffect⟩ := h.item
  obtain ⟨a', ha', hae⟩ := attempt_exec enc t ha
  obtain ⟨w', hw', hwe⟩ := item_exec enc t hw
  refine ⟨⟨a', ha', hof.of_origin hae⟩, w', hw', ?_, ?_⟩
  · exact (congrArg WorkItemRow.id hwe).trans hid
  · exact (congrArg WorkItemRow.effectClass hwe).trans heffect

namespace Pool

variable {enc : Encoding} {p : Pool}

/-- A claim that is handed out is of the attempt that its transaction creates. -/
theorem handedOut_ok (enc : Encoding) {goalId workerId leaseToken attemptId : String} {stepId : Option String}
    {leaseSecs : Nat} {now : Int} {claim : WorkClaim}
    (h : p.handedOut goalId stepId workerId leaseSecs leaseToken attemptId now = some claim) :
    ∃ row, claimCandidate? goalId stepId now p.store = some row ∧
      (∀ a ∈ p.store.attempts, a.id ≠ attemptId) ∧ claim.attempt.id = attemptId ∧
      claim.workItem.effect = row.effectClass ∧
      claim.IsOf (newAttempt p.store row workerId leaseToken attemptId now) ∧
      exec enc p.store (.claimWork goalId stepId workerId leaseSecs (runtimeActor workerId) leaseToken
        attemptId now) = claimed goalId row workerId leaseSecs (runtimeActor workerId) leaseToken
          attemptId now p.store := by
  unfold handedOut at h
  split at h
  · rename_i work s' hx
    obtain ⟨goal, -, -, ⟨hn, -⟩ | ⟨row, workItem, budget, hrow, hdecode, hfresh, hwork, hs⟩⟩ :=
      claimTx_ok hx
    · cases hn
    · cases hwork
      have hitem : workItem.id = row.id ∧ workItem.effect = row.effectClass := by
        simp only [decodeWorkItem, bind_eq_ok, pure_eq_ok] at hdecode
        obtain ⟨_, -, _, -, rfl⟩ := hdecode
        exact ⟨rfl, rfl⟩
      simp only [ClaimedWork.toClaim, decodeAttempt] at h
      cases hnum : u8TryFrom (newAttempt p.store row workerId leaseToken attemptId now).attemptNumber
          "invalid attempt number" with
      | error e =>
        rw [hnum] at h
        cases h
      | ok n =>
        rw [hnum] at h
        cases h
        refine ⟨row, hrow, hfresh, rfl, hitem.2, ⟨rfl, hitem.1, rfl, rfl, rfl⟩, ?_⟩
        refine exec_of_ok ?_
        rw [← hs]
        exact map_eq_ok.mpr ⟨_, hx, rfl⟩
  · cases h

/-- What holds of the claims in a reachable pool. -/
structure Inv (p : Pool) : Prop where
  wellFormed : WellFormed p.store
  sound : p.store.Lives Life.Sound
  distinct : (p.workers.map fun w => w.claim.attempt.id).Nodup
  recorded : ∀ w ∈ p.workers, w.claim.Recorded p.store
  prepared : ∀ w ∈ p.workers, ∀ id, w.phase.checkpoint? = some id →
    ∃ c ∈ p.store.checkpoints, c.id = id ∧ c.attemptId = w.claim.attempt.id
  uncommitted : ∀ w ∈ p.workers, w.phase.isOpen = true →
    p.store.hasCommitted w.claim.attempt.id = false

theorem inv_empty : Inv .empty where
  wellFormed := wellFormed_empty
  sound := lives_empty _
  distinct := .nil
  recorded := by simp [empty]
  prepared := by simp [empty]
  uncommitted := by simp [empty]

theorem prepared_exec (enc : Encoding) {s : Store} (t : Txn) {id attemptId : String}
    (h : ∃ c ∈ s.checkpoints, c.id = id ∧ c.attemptId = attemptId) :
    ∃ c ∈ (exec enc s t).checkpoints, c.id = id ∧ c.attemptId = attemptId := by
  obtain ⟨c, hc, hid, hattempt⟩ := h
  obtain ⟨c', hc', he⟩ := checkpoint_exec enc t hc
  refine ⟨c', hc', ?_, ?_⟩
  · exact (congrArg CheckpointRow.id he).trans hid
  · exact (congrArg CheckpointRow.attemptId he).trans hattempt

theorem keepsCommit_of_holder {s : Store} {t : Txn} (h : t.holder? = none) : KeepsCommit s t := by
  intro claim status now hb
  cases h.symm.trans (handback_holder hb)

theorem Inv.shared (enc : Encoding) (h : p.Inv) {t : Txn} (ht : t.holder? = none) :
    (⟨exec enc p.store t, p.workers⟩ : Pool).Inv where
  wellFormed := wellFormed_exec t h.wellFormed
  sound := sound_exec h.wellFormed (keepsCommit_of_holder ht) h.sound
  distinct := h.distinct
  recorded := fun w hw => (h.recorded w hw).exec enc t
  prepared := fun w hw id hid => prepared_exec enc t (h.prepared w hw id hid)
  uncommitted := fun w hw ho => hasCommitted_exec h.wellFormed
    (fun _ _ _ _ _ he => by rw [he] at ht; cases ht) (h.uncommitted w hw ho)

theorem Inv.keepsCommit (h : p.Inv) {w : Worker} (hw : w ∈ p.workers) {input : WorkerInput} {t : Txn}
    {phase : WorkerPhase} (hacts : w.Acts enc p.store input (some t) phase) : KeepsCommit p.store t := by
  intro claim status now hb hcur hcommitted
  have hopen := hacts.handback (by rw [hb]; exact Option.some_ne_none _)
  cases hacts.holder.symm.trans (handback_holder hb)
  rw [h.uncommitted w hw hopen] at hcommitted
  cases hcommitted

/-- A worker's action that sends a transaction. -/
theorem Inv.work (h : p.Inv) {k : Nat} {w : Worker} (hk : p.workers[k]? = some w)
    {input : WorkerInput} {t : Txn} {phase : WorkerPhase}
    (hacts : w.Acts enc p.store input (some t) phase) :
    (⟨exec enc p.store t, p.workers.set k { w with phase }⟩ : Pool).Inv := by
  have hwm : w ∈ p.workers := List.mem_of_getElem? hk
  have hkeeps := h.keepsCommit hwm hacts
  refine ⟨wellFormed_exec t h.wellFormed, sound_exec h.wellFormed hkeeps h.sound, ?_,
    fun w' hw' => ?_, fun w' hw' id hid => ?_, fun w' hw' ho => ?_⟩
  · rw [map_replace hk]
    · exact h.distinct
    · rfl
  · rcases mem_replace h.distinct hk hw' with rfl | ⟨hw', -⟩
    · exact (h.recorded w hwm).exec enc t
    · exact (h.recorded w' hw').exec enc t
  · rcases mem_replace h.distinct hk hw' with rfl | ⟨hw', -⟩
    · rcases hacts.checkpoint hid with hid | ⟨t', ht', hc⟩
      · exact prepared_exec enc t (h.prepared w hwm id hid)
      · cases ht'
        exact hc
    · exact prepared_exec enc t (h.prepared w' hw' id hid)
  · rcases mem_replace h.distinct hk hw' with rfl | ⟨hw', hne⟩
    · obtain ⟨hopen, hcommit⟩ := hacts.isOpen ho
      refine hasCommitted_exec h.wellFormed (fun claim id outcome actor now he => ?_)
        (h.uncommitted w hwm hopen)
      exact absurd (congrArg some he) (hcommit claim id outcome actor now)
    · refine hasCommitted_exec h.wellFormed (fun claim id outcome actor now he => ?_)
        (h.uncommitted w' hw' ho)
      have hholder := hacts.holder
      rw [he] at hholder
      cases Option.some.inj hholder
      exact hne.symm

theorem Inv.wait (h : p.Inv) {k : Nat} {w : Worker} (hk : p.workers[k]? = some w)
    {input : WorkerInput} {phase : WorkerPhase} (hacts : w.Acts enc p.store input none phase) :
    (⟨p.store, p.workers.set k { w with phase }⟩ : Pool).Inv := by
  have hwm : w ∈ p.workers := List.mem_of_getElem? hk
  refine ⟨h.wellFormed, h.sound, ?_, fun w' hw' => ?_, fun w' hw' id hid => ?_, fun w' hw' ho => ?_⟩
  · rw [map_replace hk]
    · exact h.distinct
    · rfl
  · rcases mem_replace h.distinct hk hw' with rfl | ⟨hw', -⟩
    · exact h.recorded w hwm
    · exact h.recorded w' hw'
  · rcases mem_replace h.distinct hk hw' with rfl | ⟨hw', -⟩
    · rcases hacts.checkpoint hid with hid | ⟨t', ht', -⟩
      · exact h.prepared w hwm id hid
      · cases ht'
    · exact h.prepared w' hw' id hid
  · rcases mem_replace h.distinct hk hw' with rfl | ⟨hw', -⟩
    · exact h.uncommitted w hwm (hacts.isOpen ho).1
    · exact h.uncommitted w' hw' ho

/-- A claim that is handed out starts a worker on a fresh attempt. -/
theorem Inv.claim (h : p.Inv) {goalId workerId leaseToken attemptId : String}
    {stepId : Option String} {leaseSecs : Nat} {now : Int} {claim : WorkClaim}
    (hout : p.handedOut goalId stepId workerId leaseSecs leaseToken attemptId now = some claim)
    (actor : String) :
    (⟨exec enc p.store (.claimWork goalId stepId workerId leaseSecs (runtimeActor workerId) leaseToken
      attemptId now), p.workers ++ [⟨claim, actor, .claimed⟩]⟩ : Pool).Inv := by
  obtain ⟨row, hrow, hfresh, hid, heffect, hof, hs⟩ := handedOut_ok enc hout
  have hinv := h.shared enc (t := .claimWork goalId stepId workerId leaseSecs
    (runtimeActor workerId) leaseToken attemptId now) rfl
  refine ⟨hinv.wellFormed, hinv.sound, ?_, fun w hwm => ?_, fun w hwm id hid => ?_, fun w hwm ho => ?_⟩
  · refine nodup_concat h.distinct fun w hwm he => ?_
    obtain ⟨a, ham, hof'⟩ := (h.recorded w hwm).attempt
    exact hfresh a ham (hof'.id.symm.trans (he.trans hid))
  · rcases List.mem_append.mp hwm with hwm | hwm
    · exact hinv.recorded w hwm
    · cases List.mem_singleton.mp hwm
      obtain ⟨row', hrow', he⟩ := item_exec enc (.claimWork goalId stepId workerId leaseSecs
        (runtimeActor workerId) leaseToken attemptId now) (claimCandidate?_mem hrow).1
      refine ⟨⟨_, ?_, hof⟩, row', hrow', ?_, ?_⟩
      · rw [hs]
        simp [claimed, Store.insertEvent]
      · exact (congrArg WorkItemRow.id he).trans hof.workItem.symm
      · exact (congrArg WorkItemRow.effectClass he).trans heffect.symm
  · rcases List.mem_append.mp hwm with hwm | hwm
    · exact hinv.prepared w hwm id hid
    · cases List.mem_singleton.mp hwm
      cases hid
  · rcases List.mem_append.mp hwm with hwm | hwm
    · exact hinv.uncommitted w hwm ho
    · cases List.mem_singleton.mp hwm
      refine hasCommitted_exec h.wellFormed (fun _ _ _ _ _ he => by cases he) ?_
      -- No checkpoint belongs to an attempt that does not exist yet.
      refine List.any_eq_false.mpr fun c hc hp => ?_
      obtain ⟨a, ham, hai, -⟩ := h.wellFormed.checkpointAttempt c hc
      exact hfresh a ham (hai.trans ((of_decide_eq_true hp).1.trans hid))

/-- **Every action keeps the invariant.** -/
theorem inv_step (enc : Encoding) (p : Pool) (a : Action) (h : p.Inv) : (p.step enc a).Inv := by
  cases a with
  | shared t =>
    simp only [step, txn?, workersAfter]
    by_cases ht : t.isShared = true
    · rw [if_pos ht]
      exact h.shared enc (holder_of_shared ht)
    · rw [if_neg ht]
      exact h
  | claim goalId stepId workerId leaseSecs leaseToken attemptId now =>
    simp only [step, txn?, workersAfter]
    split
    · rename_i claim hout
      exact h.claim hout _
    · exact h.shared enc rfl
  | work k input =>
    simp only [step, txn?, workersAfter]
    cases hk : p.workers[k]? with
    | none => exact h
    | some w =>
      have hacts := w.act_acts enc p.store input
      simp only [Option.bind_some]
      split
      · rename_i t ht
        rw [ht] at hacts
        exact h.work hk hacts
      · rename_i ht
        rw [ht] at hacts
        exact h.wait hk hacts

theorem inv_run (enc : Encoding) (acts : List Action) : (run enc acts).Inv :=
  Machine.run_invariant' (fun p a => inv_step enc p a) inv_empty

end Pool

end Xiaomaolv
