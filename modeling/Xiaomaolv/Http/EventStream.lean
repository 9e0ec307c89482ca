import Mathlib.Algebra.Order.Ring.Int
import Mathlib.Data.List.Forall2
import Xiaomaolv.Lib.Cursor
import Xiaomaolv.Lib.Machine
import Xiaomaolv.Loop.Store
import Xiaomaolv.Service.ToolProtocol

/-!
# The event stream of a goal

* `EventLog`: the table `harness_events`, its sequence increasing; `EventLog.listGoalEvents`: a read.
* `StreamState`, `StreamSystem.exec`: the loop of `get_goal_event_stream`, among commits, notifications, timeouts and
  failing reads.
* `Reading`: what was sent, then what is pending, are the first events after the cursor of the request.
* **`event_stream_exact`**: at every point the events sent are the first of the goal's events after it.
-/

open Cursor

namespace Xiaomaolv

/-! ## The table -/

/-- A row of `harness_events`. -/
structure HarnessEventRow where
  sequence : Int
  goalId : Option String
  eventType : String
  actor : String
  detailsJson : String
  createdAt : Int

structure LoopEventRecord where
  sequence : Int
  goalId : Option String
  eventType : String
  actor : String
  details : Value
  createdAtUnix : Int

/-- The columns of an insert. -/
structure NewHarnessEvent where
  goalId : Option String
  eventType : String
  actor : String
  detailsJson : String
  createdAt : Int

/-- The rows in the order of their commits, and the last sequence that `AUTOINCREMENT` gave. -/
structure EventLog where
  rows : List HarnessEventRow
  lastSequence : Int
  ordered : rows.Pairwise fun r r' => r.sequence < r'.sequence
  bounded : ∀ r ∈ rows, r.sequence ≤ lastSequence

namespace EventLog

def empty : EventLog := ⟨[], 0, List.Pairwise.nil, by simp⟩

def insert (log : EventLog) (event : NewHarnessEvent) : EventLog where
  rows := log.rows ++ [⟨log.lastSequence + 1, event.goalId, event.eventType, event.actor,
    event.detailsJson, event.createdAt⟩]
  lastSequence := log.lastSequence + 1
  ordered := by
    refine List.pairwise_append.mpr ⟨log.ordered, List.pairwise_singleton _ _, fun r hr r' hr' => ?_⟩
    rw [List.mem_singleton.mp hr']
    have := log.bounded r hr
    show r.sequence < log.lastSequence + 1
    omega
  bounded := by
    intro r hr
    rcases List.mem_append.mp hr with hr | hr
    · have := log.bounded r hr
      omega
    · rw [List.mem_singleton.mp hr]

/-- A transaction that inserts some events. -/
def commit (log : EventLog) (events : List NewHarnessEvent) : EventLog := events.foldl insert log

theorem exists_rows_commit (log : EventLog) (events : List NewHarnessEvent) :
    ∃ new, (log.commit events).rows = log.rows ++ new := by
  induction events generalizing log with
  | nil => exact ⟨[], (List.append_nil _).symm⟩
  | cons event events ih =>
    obtain ⟨new, hnew⟩ := ih (log.insert event)
    refine ⟨⟨log.lastSequence + 1, event.goalId, event.eventType, event.actor, event.detailsJson,
      event.createdAt⟩ :: new, ?_⟩
    show ((log.insert event).commit events).rows = _
    rw [hnew]
    exact List.append_assoc ..

/-- The rows of a goal. -/
def goalRows (log : EventLog) (goalId : String) : List HarnessEventRow :=
  log.rows.filter fun r => r.goalId = some goalId

theorem ordered_goalRows (log : EventLog) (goalId : String) :
    (log.goalRows goalId).Pairwise fun r r' => r.sequence < r'.sequence :=
  log.ordered.filter _

/-- The rows of a goal after a cursor. -/
def goalRowsAfter (log : EventLog) (goalId : String) (cursor : Int) : List HarnessEventRow :=
  after HarnessEventRow.sequence cursor (log.goalRows goalId)

end EventLog

section

variable (json : SerdeJson)

def decodeLoopEvent (row : HarnessEventRow) : Except String LoopEventRecord :=
  match json.fromStr row.detailsJson with
  | .error e => .error s!"invalid loop event details: {e}"
  | .ok details =>
    .ok ⟨row.sequence, row.goalId, row.eventType, row.actor, details, row.createdAt⟩

/-- `map(decode_loop_event).collect()`. -/
def decodeLoopEvents : List HarnessEventRow → Except String (List LoopEventRecord)
  | [] => .ok []
  | row :: rows => do
    let event ← decodeLoopEvent json row
    let events ← decodeLoopEvents rows
    return event :: events

/-- `list_goal_events`. -/
def EventLog.listGoalEvents (log : EventLog) (goalId : String) (afterSequence : Int) (limit : Nat) :
    Except String (List LoopEventRecord) := do
  ensureValidId goalId "goal id"
  ensure (0 ≤ afterSequence) "event cursor cannot be negative"
  let limit := max 1 (min limit 500)
  decodeLoopEvents json ((log.goalRowsAfter goalId afterSequence).take limit)

end

/-! ## The stream -/

/-- A notification of the engine, or what the receiver says instead of one. -/
inductive EngineNotify
  | goal (id : String)
  | signal (id : String)
  | swarm (id : String)
  | evolution (id : String)
  | lagged
  | closed

/-- An item of the stream: an event of the goal, or the error of a read. -/
inductive StreamItem
  | event (event : LoopEventRecord)
  | streamError (message : String)

structure StreamState where
  goalId : String
  cursor : Int
  pending : List LoopEventRecord := []
  waiting : Bool := false

/-- The committed log, a stream, and the items that it has yielded. -/
structure StreamSystem where
  log : EventLog
  stream : StreamState
  items : List StreamItem := []

/-- A step of a writer, of the receiver, of the clock, or of the stream itself, whose read may fail. -/
inductive StreamStep
  | commit (events : List NewHarnessEvent)
  | notify (message : EngineNotify)
  | timeout
  | poll (failure : Option String)

/-- A wake for this goal, or one that cannot tell, ends the wait. -/
def EngineNotify.wakes (goalId : String) : EngineNotify → Bool
  | goal id => id = goalId
  | signal _ | swarm _ | evolution _ => false
  | lagged | closed => true

namespace StreamSystem

variable (json : SerdeJson)

/-- One turn of the loop: a pending event is yielded, or the log is read. -/
def poll (s : StreamSystem) (failure : Option String) : StreamSystem :=
  match s.stream.pending with
  | event :: pending =>
    { s with
      stream := { s.stream with cursor := event.sequence, pending }
      items := s.items ++ [.event event] }
  | [] =>
    let read : Except String (List LoopEventRecord) :=
      match failure with
      | some message => .error message
      | none => s.log.listGoalEvents json s.stream.goalId s.stream.cursor 100
    match read with
    | .error message => { s with items := s.items ++ [.streamError message] }
    | .ok [] => { s with stream := { s.stream with waiting := true } }
    | .ok events => { s with stream := { s.stream with pending := events } }

def wake (s : StreamSystem) : StreamSystem := { s with stream := { s.stream with waiting := false } }

def exec (s : StreamSystem) : StreamStep → StreamSystem
  | .commit events => { s with log := s.log.commit events }
  | .notify message => if message.wakes s.stream.goalId then s.wake else s
  | .timeout => s.wake
  | .poll failure => if s.stream.waiting then s else s.poll json failure

/-- The stream as the request opens it. -/
def start (log : EventLog) (goalId : String) (after : Int) : StreamSystem where
  log
  stream := { goalId, cursor := after }

/-- The events among the items. -/
def sent (s : StreamSystem) : List LoopEventRecord :=
  s.items.filterMap fun
    | .event event => some event
    | .streamError _ => none

end StreamSystem

/-! ## Decoding -/

section

variable {json : SerdeJson} {rows : List HarnessEventRow} {events : List LoopEventRecord}

/-- The event of a row. -/
def Decodes (json : SerdeJson) (row : HarnessEventRow) (event : LoopEventRecord) : Prop :=
  decodeLoopEvent json row = .ok event

theorem Decodes.sequence_eq {row : HarnessEventRow} {event : LoopEventRecord}
    (h : Decodes json row event) : event.sequence = row.sequence := by
  unfold Decodes decodeLoopEvent at h
  cases hdetails : json.fromStr row.detailsJson with
  | error e =>
    rw [hdetails] at h
    cases h
  | ok details =>
    rw [hdetails] at h
    rw [← Except.ok.inj h]

theorem decodeLoopEvents_eq_ok :
    decodeLoopEvents json rows = .ok events ↔ List.Forall₂ (Decodes json) rows events := by
  induction rows generalizing events with
  | nil =>
    rw [List.forall₂_nil_left_iff, decodeLoopEvents, Except.ok.injEq]
    exact eq_comm
  | cons row rows ih =>
    rw [decodeLoopEvents, bind_eq_ok, List.forall₂_cons_left_iff]
    constructor
    · rintro ⟨event, hevent, h⟩
      obtain ⟨events', hevents, h⟩ := bind_eq_ok.mp h
      exact ⟨event, events', hevent, ih.mp hevents, (Except.ok.inj h).symm⟩
    · rintro ⟨event, events', hevent, hevents, rfl⟩
      exact ⟨event, hevent, bind_eq_ok.mpr ⟨events', ih.mpr hevents, rfl⟩⟩

theorem listGoalEvents_eq_ok {log : EventLog} {goalId : String} {cursor : Int} {limit : Nat}
    (h : log.listGoalEvents json goalId cursor limit = .ok events) :
    List.Forall₂ (Decodes json) ((log.goalRowsAfter goalId cursor).take (max 1 (min limit 500)))
      events := by
  unfold EventLog.listGoalEvents at h
  obtain ⟨_, -, h⟩ := bind_eq_ok.mp h
  obtain ⟨_, -, h⟩ := bind_eq_ok.mp h
  exact decodeLoopEvents_eq_ok.mp h

theorem map_sequence (h : List.Forall₂ (Decodes json) rows events) :
    events.map LoopEventRecord.sequence = rows.map HarnessEventRow.sequence := by
  induction h with
  | nil => rfl
  | cons hrow _ ih => rw [List.map_cons, List.map_cons, hrow.sequence_eq, ih]

theorem position_decodes {cursor : Int} (h : List.Forall₂ (Decodes json) rows events) :
    position LoopEventRecord.sequence cursor events = position HarnessEventRow.sequence cursor rows := by
  have hlast : ∀ {α : Type} (key : α → Int) (l : List α),
      position key cursor l = ((l.map key).getLast?).getD cursor := by
    intro α key l
    rw [position, List.getLast?_map]
    cases l.getLast? <;> rfl
  rw [hlast, hlast, map_sequence h]

end

/-! ## What a stream has read -/

/-- Of the goal's rows after the cursor of the request, the stream has sent the first and holds the next, and
its cursor is on the last one sent. -/
structure Reading (json : SerdeJson) (goalId : String) (cursor : Int) (s : StreamSystem) : Prop where
  goal : s.stream.goalId = goalId
  reads : ∃ read later, s.log.goalRowsAfter goalId cursor = read ++ later ∧
    List.Forall₂ (Decodes json) read (s.sent ++ s.stream.pending)
  position : s.stream.cursor = position LoopEventRecord.sequence cursor s.sent

section

variable {json : SerdeJson} {goalId : String} {cursor : Int} {s : StreamSystem}

theorem reading_commit (h : Reading json goalId cursor s) (events : List NewHarnessEvent) :
    Reading json goalId cursor { s with log := s.log.commit events } where
  goal := h.goal
  reads := by
    obtain ⟨new, hnew⟩ := s.log.exists_rows_commit events
    obtain ⟨read, later, hrows, hread⟩ := h.reads
    refine ⟨read, later ++ after HarnessEventRow.sequence cursor
      (new.filter fun r => r.goalId = some goalId), ?_, hread⟩
    unfold EventLog.goalRowsAfter EventLog.goalRows at hrows ⊢
    rw [hnew, List.filter_append, after_append, hrows, List.append_assoc]
  position := h.position

theorem reading_wake (h : Reading json goalId cursor s) : Reading json goalId cursor s.wake :=
  ⟨h.goal, h.reads, h.position⟩

theorem reading_yield (h : Reading json goalId cursor s) {event : LoopEventRecord}
    {pending : List LoopEventRecord} (hpending : s.stream.pending = event :: pending) :
    Reading json goalId cursor
      { s with
        stream := { s.stream with cursor := event.sequence, pending }
        items := s.items ++ [.event event] } := by
  have hsent : StreamSystem.sent
      { s with
        stream := { s.stream with cursor := event.sequence, pending }
        items := s.items ++ [.event event] } = s.sent ++ [event] := by
    simp [StreamSystem.sent]
  refine ⟨h.goal, ?_, ?_⟩
  · obtain ⟨read, later, hrows, hread⟩ := h.reads
    refine ⟨read, later, hrows, ?_⟩
    rw [hsent, List.append_assoc, List.singleton_append, ← hpending]
    exact hread
  · rw [hsent, position_concat]

theorem reading_batch (h : Reading json goalId cursor s) (hpending : s.stream.pending = [])
    {events : List LoopEventRecord}
    (hread : s.log.listGoalEvents json s.stream.goalId s.stream.cursor 100 = .ok events) :
    Reading json goalId cursor { s with stream := { s.stream with pending := events } } := by
  refine ⟨h.goal, ?_, h.position⟩
  obtain ⟨read, later, hrows, hsent⟩ := h.reads
  rw [hpending, List.append_nil] at hsent
  have hcursor : s.log.goalRowsAfter s.stream.goalId s.stream.cursor = later := by
    rw [h.goal, h.position, position_decodes hsent]
    exact after_position (s.log.ordered_goalRows goalId) hrows
  have hbatch := listGoalEvents_eq_ok hread
  rw [hcursor] at hbatch
  refine ⟨read ++ later.take 100, later.drop 100, ?_, ?_⟩
  · rw [hrows, List.append_assoc, List.take_append_drop]
  · exact List.rel_append hsent hbatch

theorem reading_exec (step : StreamStep) (h : Reading json goalId cursor s) :
    Reading json goalId cursor (s.exec json step) := by
  cases step with
  | commit events => exact reading_commit h events
  | notify message =>
    simp only [StreamSystem.exec]
    split_ifs
    · exact reading_wake h
    · exact h
  | timeout => exact reading_wake h
  | poll failure =>
    simp only [StreamSystem.exec]
    split_ifs
    · exact h
    · unfold StreamSystem.poll
      split
      · next event pending hpending => exact reading_yield h hpending
      · next hpending =>
        dsimp only
        split
        · next message _ =>
          have hsent : StreamSystem.sent { s with items := s.items ++ [.streamError message] }
              = s.sent := by
            simp [StreamSystem.sent]
          exact ⟨h.goal, by rw [hsent]; exact h.reads, by rw [hsent]; exact h.position⟩
        · exact ⟨h.goal, h.reads, h.position⟩
        · next events _ hread =>
          cases failure with
          | some message => cases hread
          | none => exact reading_batch h hpending hread

end

/-- **Exactly once and in order**: whatever commits, notifications, timeouts and failing reads come between, the
events that a stream has sent are the first of its goal's events after the cursor of the request, and their
sequences increase. -/
theorem event_stream_exact (json : SerdeJson) (log : EventLog) (goalId : String) (cursor : Int)
    (steps : List StreamStep) :
    let s := Machine.run (StreamSystem.exec json) (.start log goalId cursor) steps
    (∃ read later, s.log.goalRowsAfter goalId cursor = read ++ later ∧
      List.Forall₂ (Decodes json) read s.sent) ∧
    s.sent.Pairwise (fun e e' => e.sequence < e'.sequence) ∧ ∀ e ∈ s.sent, cursor < e.sequence := by
  intro s
  have h : Reading json goalId cursor s :=
    Machine.run_invariant' (I := Reading json goalId cursor) (fun _ step h => reading_exec step h)
      ⟨rfl, ⟨[], _, rfl, .nil⟩, rfl⟩
  obtain ⟨read, later, hrows, hread⟩ := h.reads
  have hsent : List.Forall₂ (Decodes json) (read.take s.sent.length) s.sent := by
    have := List.forall₂_take s.sent.length hread
    rwa [List.take_left] at this
  have hfirst : s.log.goalRowsAfter goalId cursor
      = read.take s.sent.length ++ (read.drop s.sent.length ++ later) := by
    rw [hrows, ← List.append_assoc, List.take_append_drop]
  have hordered : (s.log.goalRowsAfter goalId cursor).Pairwise fun r r' => r.sequence < r'.sequence :=
    pairwise_after (s.log.ordered_goalRows goalId)
  refine ⟨⟨_, _, hfirst, hsent⟩, ?_, fun e he => ?_⟩
  · rw [← List.pairwise_map (f := LoopEventRecord.sequence) (R := fun a b => a < b), map_sequence hsent,
      List.pairwise_map]
    exact (List.pairwise_append.mp (hfirst ▸ hordered)).1
  · have hmem : e.sequence ∈ (read.take s.sent.length).map HarnessEventRow.sequence := by
      rw [← map_sequence hsent]
      exact List.mem_map_of_mem he
    obtain ⟨row, hrow, heq⟩ := List.mem_map.mp hmem
    rw [← heq]
    have : row ∈ s.log.goalRowsAfter goalId cursor := by
      rw [hfirst]
      exact List.mem_append_left _ hrow
    exact lt_of_mem_after this

end Xiaomaolv
