import Xiaomaolv.Loop.WellFormed

/-!
# The life of one work item

What the store is for, seen from one work item: the item with its attempts and its checkpoints, and
the events that move them.

* `Life`, `Life.Holds`: the attempt that owns the running item.
* `Life.Event`, `Life.Step`: what can happen to an item, with the condition it happens under.
* `Life.Path`: a sequence of events; **`Life.Path.keeps`**: what every event keeps, a path keeps.
-/

namespace Xiaomaolv

open Table LoopStore

/-- A work item with its attempts and its checkpoints, both in the order of their creation. -/
structure Life where
  item : WorkItemRow
  attempts : List AttemptRow
  checkpoints : List CheckpointRow

namespace Life

/-- `a` is a live attempt, and the running item carries its tokens. -/
structure Holds (l : Life) (a : AttemptRow) : Prop where
  mem : a ∈ l.attempts
  live : a.status.isLive = true
  running : l.item.status = .running
  leaseToken : l.item.leaseToken = some a.leaseToken
  fencingToken : l.item.fencingToken = a.fencingToken

/-- Some checkpoint of the attempt is committed and not yet reconciled. -/
def hasCommitted (l : Life) (attemptId : String) : Bool :=
  l.checkpoints.any fun c => c.attemptId = attemptId ∧ c.phase = .committed

/-- A prepared checkpoint whose attempt is live. -/
def isLivePrepared (l : Life) (c : CheckpointRow) : Bool :=
  c.phase = .prepared && l.attempts.any fun a => a.id = c.attemptId ∧ a.status.isLive

/-- What recovery reads of the item when its lease has run out. -/
def expired (l : Life) : ExpiredRow where
  id := l.item.id
  effect := l.item.effectClass
  maxAttempts := l.item.maxAttempts
  attemptCount := (l.attempts.filter fun a => a.status ≠ .void).length
  backoffSecs := l.item.backoffSecs
  hasPrepared := l.checkpoints.any l.isLivePrepared
  hasUnsafePrepared := l.checkpoints.any fun c => l.isLivePrepared c && !c.replaySafe

/-! ## What an event writes -/

def withStatus (status : WorkItemStatus) (l : Life) : Life :=
  { l with item := { l.item with status } }

def requeue (l : Life) : Life :=
  { l with item := { l.item with status := .ready, nextAttemptAt := none, lastError := none } }

def claim (a : AttemptRow) (leaseUntil : Int) (l : Life) : Life :=
  { l with
    item := { l.item with
      status := .running, leaseToken := some a.leaseToken, leaseUntil := some leaseUntil,
      fencingToken := l.item.fencingToken + 1 }
    attempts := l.attempts ++ [a] }

def renew (leaseUntil : Int) (l : Life) : Life :=
  { l with item := { l.item with leaseUntil := some leaseUntil } }

def recordProgress (progress : WorkPhaseProgress) (l : Life) : Life :=
  { l with item := { l.item with progress := some progress } }

def prepare (c : CheckpointRow) (l : Life) : Life :=
  { l with checkpoints := l.checkpoints ++ [c] }

def commit (attemptId checkpointId : String) (outcome : WorkOutcome) (l : Life) : Life :=
  { l with
    checkpoints := updateWhere
      (fun c => c.id = checkpointId ∧ c.phase = .prepared ∧ c.attemptId = attemptId)
      (fun c => { c with phase := .committed, outcome := some outcome }) l.checkpoints
    attempts := updateWhere (fun a => a.id = attemptId ∧ a.status = .running)
      (fun a => { a with status := .committing }) l.attempts }

def reconcile (c : CheckpointRow) (l : Life) : Life where
  item :=
    if l.item.status = .running then
      { l.item with
        status := .succeeded, leaseToken := none, leaseUntil := none, nextAttemptAt := none,
        progress := none, lastError := none }
    else l.item
  attempts := updateWhere (fun a => a.id = c.attemptId ∧ a.status.isLive)
    (fun a => { a with status := .succeeded, error := none }) l.attempts
  checkpoints := updateWhere (fun x => x.id = c.id ∧ x.phase = .committed)
    (fun x => { x with phase := .reconciled }) l.checkpoints

def release (attemptId : String) (r : Release) (l : Life) : Life where
  item := { l.item with
    status := r.status, leaseToken := none, leaseUntil := none, nextAttemptAt := r.nextAttemptAt,
    lastError := r.lastError, progress := r.progress <|> l.item.progress }
  attempts := endAttempt attemptId r.attemptStatus r.attemptError l.attempts
  checkpoints := if r.voids then voidPrepared attemptId l.checkpoints else l.checkpoints

def lapse (now : Int) (l : Life) : Life where
  item := { l.item with
    status := l.expired.workStatus, leaseToken := none, leaseUntil := none,
    nextAttemptAt := l.expired.nextAttemptAt now, lastError := some l.expired.error }
  attempts := updateWhere (fun a => a.status.isLive)
    (fun a => { a with status := l.expired.attemptStatus, error := some l.expired.error })
    l.attempts
  checkpoints :=
    if l.expired.parked then l.checkpoints
    else updateWhere l.isLivePrepared (fun c => { c with phase := .voided }) l.checkpoints

def verdict (a : AttemptRow) (c : CheckpointRow) (resolution : ConfirmationResolution)
    (reason : String) (exhausted : Bool) (now : Int) (l : Life) : Life where
  item := { l.item with
    status := resolution.itemStatus exhausted, leaseToken := none, leaseUntil := none,
    nextAttemptAt := resolution.nextAttemptAt exhausted now,
    lastError := resolution.lastError exhausted reason }
  attempts := endParked a.id resolution.attemptStatus (resolution.attemptError reason) l.attempts
  checkpoints := settlePrepared c.id (resolution.settle reason) l.checkpoints

def close (error attemptError : String) (status : WorkItemStatus) (l : Life) : Life where
  item :=
    if l.item.status ∈ [.succeeded, .failed, status] then l.item
    else { l.item with
      status, leaseToken := none, leaseUntil := none, nextAttemptAt := none,
      lastError := some error }
  attempts := updateWhere (fun a => a.status.isOpen)
    (fun a => { a with status := .abandoned, error := some attemptError }) l.attempts
  checkpoints := l.checkpoints

/-! ## Events -/

/-- What can happen to a work item. -/
inductive Event where
  | unlock | block | requeue | renew | progress
  | lapse (now : Int)
  | claim (attemptId : String)
  | prepare (checkpointId : String)
  | commit (attemptId checkpointId : String)
  | reconcile (checkpointId : String)
  /-- The holder hands the item back; `committed` when its attempt has a committed checkpoint. -/
  | release (attemptId : String) (status : WorkItemStatus) (committed : Bool)
  | verdict (resolution : ConfirmationResolution)
  /-- A cancel fails what is open, a replan cancels it. -/
  | close (status : WorkItemStatus)

/-- The events, each with the condition it happens under and what it writes. -/
inductive Step (l : Life) : Event → Life → Prop
  | unlock (h : l.item.status = .pending) : Step l .unlock (l.withStatus .ready)
  | block (h : l.item.status = .pending ∨ l.item.status = .ready) :
      Step l .block (l.withStatus .blocked)
  | requeue (h : l.item.status = .blocked) (he : l.item.lastError ≠ none) : Step l .requeue l.requeue
  | claim (a : AttemptRow) (leaseUntil : Int) (h : l.item.status = .ready)
      (hbudget : (l.attempts.filter fun a => a.status ≠ .void).length < l.item.maxAttempts)
      (hitem : a.workItemId = l.item.id) (hgoal : a.goalId = l.item.goalId)
      (hfresh : ∀ x ∈ l.attempts, x.id ≠ a.id) (hlive : a.status = .running)
      (hfencing : a.fencingToken = l.item.fencingToken + 1)
      (hnumber : a.attemptNumber = l.attempts.length + 1) :
      Step l (.claim a.id) (l.claim a leaseUntil)
  | renew (leaseUntil : Int) (h : l.item.status = .running) : Step l .renew (l.renew leaseUntil)
  | progress (a : AttemptRow) (p : WorkPhaseProgress) (h : l.Holds a) :
      Step l .progress (l.recordProgress p)
  | prepare (a : AttemptRow) (c : CheckpointRow) (h : l.Holds a) (hattempt : c.attemptId = a.id)
      (hfresh : ∀ x ∈ l.checkpoints, x.id ≠ c.id) (hphase : c.phase = .prepared) :
      Step l (.prepare c.id) (l.prepare c)
  | commit (a : AttemptRow) (c : CheckpointRow) (outcome : WorkOutcome) (h : l.Holds a)
      (hc : c ∈ l.checkpoints) (hattempt : c.attemptId = a.id) (hphase : c.phase = .prepared) :
      Step l (.commit a.id c.id) (l.commit a.id c.id outcome)
  | reconcile (c : CheckpointRow) (hc : c ∈ l.checkpoints) (hphase : c.phase = .committed) :
      Step l (.reconcile c.id) (l.reconcile c)
  | release (a : AttemptRow) (r : Release) (h : l.Holds a)
      (hstatus : r.status = .ready ∨ r.status = .blocked ∨ r.status = .failed)
      (hattempt : r.attemptStatus = .failed ∨ r.attemptStatus = .void) :
      Step l (.release a.id r.status (l.hasCommitted a.id)) (l.release a.id r)
  | lapse (now : Int) (h : l.item.status = .running) (hlease : leaseExpired now l.item = true)
      (hcommitted : ∀ c ∈ l.checkpoints, c.phase ≠ .committed) : Step l (.lapse now) (l.lapse now)
  | verdict (a : AttemptRow) (c : CheckpointRow) (resolution : ConfirmationResolution)
      (reason : String) (exhausted : Bool) (now : Int) (h : l.item.status = .waitingConfirmation)
      (ha : a ∈ l.attempts) (hparked : a.status = .waitingConfirmation)
      (hc : c ∈ l.checkpoints) (hattempt : c.attemptId = a.id) (hphase : c.phase = .prepared)
      (hbudget : exhausted = true ↔
        l.item.maxAttempts ≤ (l.attempts.filter fun a => a.status ≠ .void).length) :
      Step l (.verdict resolution) (l.verdict a c resolution reason exhausted now)
  | close (error attemptError : String) (status : WorkItemStatus)
      (h : status = .failed ∨ status = .canceled) :
      Step l (.close status) (l.close error attemptError status)

/-- Events one after the other. -/
inductive Path : Life → List Event → Life → Prop
  | nil (l : Life) : Path l [] l
  | cons {l l' l'' : Life} {e : Event} {es : List Event} (h : Step l e l') (hs : Path l' es l'') :
      Path l (e :: es) l''

theorem Path.single {l l' : Life} {e : Event} (h : Step l e l') : Path l [e] l' :=
  .cons h (.nil l')

theorem Path.append {l l' l'' : Life} {es fs : List Event} (h : Path l es l') (h' : Path l' fs l'') :
    Path l (es ++ fs) l'' := by
  induction h with
  | nil => exact h'
  | cons hstep _ ih => exact .cons hstep (ih h')

/-- **What every event keeps, a path keeps.** -/
theorem Path.keeps {I : Life → Prop} {p : Event → Prop}
    (hstep : ∀ l e l', p e → I l → Step l e l' → I l') {l l' : Life} {es : List Event}
    (hpath : Path l es l') (hok : ∀ e ∈ es, p e) (hl : I l) : I l' := by
  induction hpath with
  | nil => exact hl
  | cons h _ ih =>
    exact ih (fun e he => hok e (List.mem_cons_of_mem _ he))
      (hstep _ _ _ (hok _ List.mem_cons_self) hl h)

theorem Step.origin {l l' : Life} {e : Event} (h : Step l e l') :
    l'.item.origin = l.item.origin := by
  cases h <;> try rfl
  · simp only [Life.reconcile]
    split <;> rfl
  · simp only [Life.close]
    split <;> rfl

theorem Path.origin {l l' : Life} {es : List Event} (h : Path l es l') :
    l'.item.origin = l.item.origin := by
  induction h with
  | nil => rfl
  | cons hstep _ ih => exact ih.trans hstep.origin

theorem Path.goalId {l l' : Life} {es : List Event} (h : Path l es l') :
    l'.item.goalId = l.item.goalId := by
  have hgoal := congrArg WorkItemRow.goalId h.origin
  exact hgoal

end Life

/-- What an item looks like when it is created. -/
structure WorkItemRow.IsFresh (w : WorkItemRow) : Prop where
  status : w.status = .pending ∨ w.status = .ready
  leaseToken : w.leaseToken = none
  leaseUntil : w.leaseUntil = none
  fencingToken : w.fencingToken = 0
  lastError : w.lastError = none

/-- A life that nothing has happened in. -/
structure Life.IsNew (l : Life) : Prop where
  item : l.item.IsFresh
  attempts : l.attempts = []
  checkpoints : l.checkpoints = []

end Xiaomaolv
