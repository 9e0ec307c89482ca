import Mathlib.Logic.Function.Basic
import Xiaomaolv.Lib.Decimal
import Xiaomaolv.Lib.Machine
import Xiaomaolv.Lib.Table
import Xiaomaolv.Lib.Tally
import Xiaomaolv.Telegram.Delivery

/-!
# The queue of undelivered Telegram messages

* `TelegramOutboundQueueRow`, `outboundId`: a row, and the id that a process gives it; `outboundId_inj`.
* `OutboundQueue`: the table `telegram_outbound_queue` and the processes that enqueue to it and drain it.
* `OutboundQueue.exec`: an enqueue, and the parts of a round of the janitor: the listing of the due rows, the
  return of a delivery, and what is marked after it; a process may restart between any two of them.
-/

namespace Xiaomaolv

open Table

/-! ## Rows -/

/-- A row of `telegram_outbound_queue`. The second and the counter are not in the table: its id was made of
them. -/
structure TelegramOutboundQueueRow where
  id : String
  request : EnqueueTelegramOutboundRequest
  status : OutboundStatus := .pending
  attempts : Nat := 0
  nextAttemptAt : Int
  lastError : Option String := none
  createdAt : Int
  sentAt : Option Int := none
  second : Nat
  counter : Nat
deriving DecidableEq, Repr

/-- `out_{second}_{counter % 10_000:04}`. -/
def outboundId (second counter : Nat) : String :=
  s!"out_{second}_{Decimal.pad 4 (counter % 10000)}"

theorem outboundId_inj {second second' counter counter' : Nat}
    (h : outboundId second counter = outboundId second' counter') :
    second = second' ∧ counter % 10000 = counter' % 10000 := by
  have htext : ∀ second counter, (outboundId second counter).toList =
      ['o', 'u', 't', '_'] ++ (second.repr.toList ++ '_' :: (Decimal.pad 4 (counter % 10000)).toList) := by
    intro second counter
    simp [outboundId, toString]
  have hlist := congrArg String.toList h
  rw [htext, htext] at hlist
  obtain ⟨hsecond, -, hcounter⟩ := (List.append_cons_inj_of_notMem (Decimal.not_mem_repr (by decide) _)
    (Decimal.not_mem_pad (by decide) _ _)).mp (List.append_cancel_left hlist)
  exact ⟨Decimal.repr_inj (String.toList_inj.mp hsecond), Decimal.pad_inj (String.toList_inj.mp hcounter)⟩

/-! ## The store -/

/-- The row that an enqueue inserts. -/
def newOutboundRow (second counter : Nat) (createdAt : Int) (request : EnqueueTelegramOutboundRequest) :
    TelegramOutboundQueueRow where
  id := outboundId second counter
  request
  nextAttemptAt := createdAt
  createdAt
  second
  counter

section

variable (rows : List TelegramOutboundQueueRow)

/-- The rows that `list_due` selects. -/
def isOutboundDue (channel : String) (nowUnix : Int) (r : TelegramOutboundQueueRow) : Bool :=
  r.request.channel = channel && r.status = .pending && r.nextAttemptAt ≤ nowUnix

/-- An order in which `ORDER BY created_at ASC` may list the due rows. -/
def IsOldestFirst (channel : String) (nowUnix : Int) (order : List TelegramOutboundQueueRow) : Prop :=
  order.Perm (rows.filter (isOutboundDue channel nowUnix)) ∧
    order.Pairwise fun older newer => older.createdAt ≤ newer.createdAt

instance (channel : String) (nowUnix : Int) (order : List TelegramOutboundQueueRow) :
    Decidable (IsOldestFirst rows channel nowUnix order) :=
  inferInstanceAs (Decidable (_ ∧ _))

def markSent (id : String) (sentAt : Int) : List TelegramOutboundQueueRow :=
  updateWhere (fun r => r.id = id) (fun r => { r with status := .sent, sentAt := some sentAt, lastError := none })
    rows

def markRetry (id error : String) (nextAttemptAt : Int) : List TelegramOutboundQueueRow :=
  updateWhere (fun r => r.id = id)
    (fun r => { r with attempts := r.attempts + 1, nextAttemptAt, lastError := some error }) rows

def markDead (id error : String) : List TelegramOutboundQueueRow :=
  updateWhere (fun r => r.id = id) (fun r => { r with status := .dead, lastError := some error }) rows

/-! ## The janitor -/

/-- The limit of a listing. -/
def outboundBatch : Nat := 16

def outboundBackoff (attempts : Nat) : Int := 10 * 2 ^ min attempts 8

/-- What the janitor marks after the delivery of a listed row. -/
def markDelivery (now : Int) (row : TelegramOutboundQueueRow) (sentAt : Int) :
    Except String Unit → List TelegramOutboundQueueRow
  | .ok () => markSent rows row.id sentAt
  | .error e =>
    if 48 ≤ row.attempts then markDead rows row.id e
    else markRetry rows row.id e (now + outboundBackoff row.attempts)

end

/-- A process: its `OUT_SEQ`, and the round of its janitor: the listed rows that are left, the due rows that the
listing left out, and the result of the delivery of the first one once it is there. -/
structure OutboundProcess where
  outSeq : Nat := 0
  now : Int := 0
  due : List TelegramOutboundQueueRow := []
  leftOut : List String := []
  result : Option (Except String Unit) := none

/-- The table and the processes; and the requests so far, and for each row how often it was delivered, how often
the delivery failed, and how often another row was delivered from a listing that had left it out. -/
structure OutboundQueue where
  rows : List TelegramOutboundQueueRow := []
  processes : Nat → OutboundProcess := fun _ => {}
  enqueued : List EnqueueTelegramOutboundRequest := []
  deliveries : String → Nat := fun _ => 0
  failures : String → Nat := fun _ => 0
  overtaken : String → Nat := fun _ => 0

inductive OutboundStep
  | enqueue (p : Nat) (second : Nat) (createdAt : Int) (request : EnqueueTelegramOutboundRequest)
  | listDue (p : Nat) (now : Int) (order : List TelegramOutboundQueueRow)
  | deliver (p : Nat) (result : Except String Unit)
  | mark (p : Nat) (sentAt : Int) (stored : Bool)
  | restart (p : Nat)

/-- The request that a step enqueues. -/
def OutboundStep.request? : OutboundStep → Option EnqueueTelegramOutboundRequest
  | enqueue _ _ _ request => some request
  | _ => none

namespace OutboundQueue

def setProcess (s : OutboundQueue) (p : Nat) (process : OutboundProcess) : OutboundQueue :=
  { s with processes := Function.update s.processes p process }

/-- `enqueue`: refused when the id is taken. -/
def enqueue (s : OutboundQueue) (p second : Nat) (createdAt : Int) (request : EnqueueTelegramOutboundRequest) :
    OutboundQueue :=
  let process := s.processes p
  let row := newOutboundRow second process.outSeq createdAt request
  let s' := s.setProcess p { process with outSeq := (process.outSeq + 1) % 2 ^ 64 }
  { s' with
    rows :=
      match insertRow (fun r => r.id = row.id) "failed to enqueue telegram outbound" row s.rows with
      | .ok rows => rows
      | .error _ => s.rows
    enqueued := s.enqueued ++ [request] }

/-- A round of the janitor starts with a listing. -/
def listDue (s : OutboundQueue) (p : Nat) (now : Int) (order : List TelegramOutboundQueueRow) : OutboundQueue :=
  let process := s.processes p
  if process.due = [] ∧ IsOldestFirst s.rows "telegram" now order then
    s.setProcess p { process with
      now
      due := order.take outboundBatch
      leftOut := (order.drop outboundBatch).map fun r => r.id
      result := none }
  else s

/-- The delivery of the row in hand returns. -/
def deliver (s : OutboundQueue) (p : Nat) (result : Except String Unit) : OutboundQueue :=
  let process := s.processes p
  match process.due, process.result with
  | row :: _, none =>
    let s' := s.setProcess p { process with result := some result }
    { s' with
      deliveries := Tally.bump [row.id] s.deliveries
      failures := Tally.bump (if result.isOk then [] else [row.id]) s.failures
      overtaken := Tally.bump process.leftOut s.overtaken }
  | _, _ => s

/-- The row in hand is marked; an error of the store is ignored. -/
def mark (s : OutboundQueue) (p : Nat) (sentAt : Int) (stored : Bool) : OutboundQueue :=
  let process := s.processes p
  match process.due, process.result with
  | row :: rest, some result =>
    let s' := s.setProcess p { process with due := rest, result := none }
    { s' with rows := if stored then markDelivery s.rows process.now row sentAt result else s.rows }
  | _, _ => s

def exec (s : OutboundQueue) : OutboundStep → OutboundQueue
  | .enqueue p second createdAt request => s.enqueue p second createdAt request
  | .listDue p now order => s.listDue p now order
  | .deliver p result => s.deliver p result
  | .mark p sentAt stored => s.mark p sentAt stored
  | .restart p => s.setProcess p {}

def run (steps : List OutboundStep) : OutboundQueue := Machine.run exec {} steps

end OutboundQueue

end Xiaomaolv
