import Xiaomaolv.Telegram.SchedulerSystem

/-!
# The drafts of scheduler jobs

An owner describes a job, and the draft is stored until the owner confirms or cancels it.

* `OwnerDrafts`: the stored draft of an owner, the message in hand, and what came of the drafts so far;
  `DraftSystem`: the drafts of every owner over the tables of the scheduler.
* `OwnerDrafts.exec`: the steps of `maybe_handle_telegram_scheduler_natural_language`, one store call or one
  reply each. Any of them may fail, the process may stop before any of them, and a message may come again.
-/

namespace Xiaomaolv

/-! ## Messages -/

/-- What the scheduler reads of a message. -/
structure SchedulerMessage where
  chatId : Int
  fromId : Option Int
  messageThreadId : Option Int
  chatKind : Option String
  text : String
deriving DecidableEq

/-- The columns of the unique index of `telegram_scheduler_pending_intents`. -/
structure PendingKey where
  channel : String
  chatId : Int
  ownerUserId : Int
deriving DecidableEq

def SchedulerMessage.key (channel : String) (message : SchedulerMessage) : PendingKey where
  channel
  chatId := message.chatId
  ownerUserId := message.fromId.getD message.chatId

def isSchedulerConfirmText (text : String) : Bool :=
  ["确认", "确定", "yes", "y", "ok", "okay", "confirm"].contains (toAsciiLowercase (trim text))

def isSchedulerCancelText (text : String) : Bool :=
  ["取消", "不用了", "算了", "no", "n", "cancel", "stop"].contains (toAsciiLowercase (trim text))

def isGroupChatType (kind : Option String) : Bool :=
  kind.any fun v => ["group", "supergroup"].contains (toAsciiLowercase (trim v))

/-- The JSON of a draft, as `serde` reads and writes it. -/
structure DraftCodec where
  decode : String → Except String TelegramSchedulerIntentDraft
  encode : TelegramSchedulerIntentDraft → Except String String

structure DraftHost extends SchedulerHost where
  requireConfirm : Bool
  draftCodec : DraftCodec

def telegramSchedulerRequiresConfirm (host : DraftHost) (chatKind : Option String) : Bool :=
  host.requireConfirm && !isGroupChatType chatKind

/-! ## Pending drafts -/

def telegramSchedulerPendingTtlSecs : Int := 15 * 60

/-- A row of `telegram_scheduler_pending_intents`. The serial is not in the table: it tells the drafts apart
that are stored under one key. -/
structure TelegramSchedulerPendingIntentRecord where
  intentId : String
  draftJson : String
  expiresAtUnix : Int
  serial : Nat
deriving DecidableEq

def pendingIntentId (key : PendingKey) : String :=
  s!"pending:{key.channel}:{key.chatId}:{key.ownerUserId}"

/-- Where the draft of a creation comes from: a stored draft that was confirmed, or the message itself, which
may update a stored draft. -/
inductive DraftOrigin
  | confirmed (pending : TelegramSchedulerPendingIntentRecord)
  | described (pending : Option TelegramSchedulerPendingIntentRecord)
deriving DecidableEq

/-- What the deletion of a stored draft follows. -/
inductive DraftDeletion
  | corrupted (error : String)
  | confirmed (jobId : String) (nextRunAtUnix : Option Int)
  | canceled
  | replaced (jobId : String) (nextRunAtUnix : Option Int)
deriving DecidableEq

/-- What the user is told. -/
inductive DraftNotice
  | awaitsConfirmation
  | corrupted (error : String)
  | confirmed (jobId : String) (nextRunAtUnix : Option Int)
  | confirmFailed (error : String)
  | canceled (serial : Nat) (deleted : Bool)
  | created (jobId : String) (nextRunAtUnix : Option Int)
deriving DecidableEq

/-- The notice after a deletion, whatever came of it. -/
def DraftDeletion.notice (serial : Nat) (deleted : Bool) : DraftDeletion → DraftNotice
  | corrupted error => .corrupted error
  | confirmed jobId nextRunAtUnix => .confirmed jobId nextRunAtUnix
  | canceled => .canceled serial deleted
  | replaced jobId nextRunAtUnix => .created jobId nextRunAtUnix

/-- How far the message in hand is. -/
inductive DraftPhase
  | idle
  | loaded (message : SchedulerMessage) (nowUnix : Int)
      (pending : Option TelegramSchedulerPendingIntentRecord)
  | upserting (draft : TelegramSchedulerIntentDraft) (nowUnix : Int)
  | checking (message : SchedulerMessage) (draft : TelegramSchedulerIntentDraft) (origin : DraftOrigin)
  | inserting (message : SchedulerMessage) (draft : TelegramSchedulerIntentDraft) (origin : DraftOrigin)
  | deleting (pending : TelegramSchedulerPendingIntentRecord) (deletion : DraftDeletion)
  | replying (notice : DraftNotice)
deriving DecidableEq

/-- What comes of the stored drafts. -/
inductive DraftEvent
  | created (serial : Nat) (jobId : String)
  | undeleted (serial : Nat)
  | canceled (serial : Nat) (deleted : Bool)
deriving DecidableEq, Repr

/-- The drafts of one owner; the log has the newest event first. -/
structure OwnerDrafts where
  pending : Option TelegramSchedulerPendingIntentRecord := none
  storedDrafts : Nat := 0
  phase : DraftPhase := .idle
  log : List DraftEvent := []
deriving DecidableEq

/-- `load_telegram_scheduler_pending_intent`. -/
def OwnerDrafts.loadPending (d : OwnerDrafts) (nowUnix : Int) :
    Option TelegramSchedulerPendingIntentRecord :=
  d.pending.filter fun p => nowUnix < p.expiresAtUnix

/-- `upsert_telegram_scheduler_pending_intent`. -/
def OwnerDrafts.upsertPending (d : OwnerDrafts) (key : PendingKey) (draftJson : String)
    (expiresAtUnix : Int) : OwnerDrafts :=
  { d with
    pending := some ⟨pendingIntentId key, draftJson, expiresAtUnix, d.storedDrafts⟩
    storedDrafts := d.storedDrafts + 1 }

/-! ## The message in hand -/

/-- What is read from a message that neither confirms nor cancels: no draft, a draft that updates the stored
one, or a draft of its own. -/
inductive DraftReading
  | nothing
  | update (draft : TelegramSchedulerIntentDraft)
  | fresh (draft : TelegramSchedulerIntentDraft)

/-- A step of an owner's message, with what it is told from outside. -/
inductive DraftStep
  | receive (message : SchedulerMessage) (loaded : Bool)
  | read (reading : DraftReading)
  | upsert (stored : Bool)
  | checkQuota (order : List String) (listed : Bool)
  | insertJob (millis : Nat) (stored : Bool)
  | deletePending (stored : Bool)
  | reply (delivered : Bool)
  | stop

section

variable (host : DraftHost) (scheduler : SchedulerSystem) (key : PendingKey)

/-- A draft is stored for confirmation, or becomes a job at once. -/
def describedPhase (message : SchedulerMessage) (nowUnix : Int) (draft : TelegramSchedulerIntentDraft)
    (pending : Option TelegramSchedulerPendingIntentRecord) : DraftPhase :=
  if telegramSchedulerRequiresConfirm host message.chatKind then .upserting draft nowUnix
  else .checking message draft (.described pending)

def readingPhase (message : SchedulerMessage) (nowUnix : Int)
    (pending : Option TelegramSchedulerPendingIntentRecord) : DraftReading → DraftPhase
  | .nothing => .idle
  | .update draft => describedPhase host message nowUnix draft pending
  | .fresh draft => describedPhase host message nowUnix draft none

/-- The branches after the load. -/
def readPhase (message : SchedulerMessage) (nowUnix : Int)
    (pending : Option TelegramSchedulerPendingIntentRecord) (reading : DraftReading) : DraftPhase :=
  match pending with
  | none => readingPhase host message nowUnix none reading
  | some p =>
    if isSchedulerConfirmText message.text then
      match host.draftCodec.decode p.draftJson with
      | .error e => .deleting p (.corrupted e)
      | .ok draft => .checking message draft (.confirmed p)
    else if isSchedulerCancelText message.text then .deleting p .canceled
    else readingPhase host message nowUnix (some p) reading

/-- The quota, against the jobs listed in an order. -/
def checkDraftQuota (order : List String) (listed : Bool) : Except String Unit :=
  if listed then
    enforceSchedulerJobQuota
      (listTelegramSchedulerJobsByOwner scheduler order (host.settings.maxJobsPerOwner + 1))
      host.settings.maxJobsPerOwner
  else .error "failed to list telegram scheduler jobs"

/-- The insert of `create_scheduler_job_from_draft`: the job, and the tables with it. -/
def insertDraftJob (message : SchedulerMessage) (draft : TelegramSchedulerIntentDraft) (millis : Nat)
    (stored : Bool) : Except String (CreateTelegramSchedulerJobRequest × SchedulerSystem) := do
  let req ← jobFromDraft host.calendar host.codec key.channel key.chatId message.messageThreadId
    key.ownerUserId draft scheduler.nowUnix millis
  let store ← if stored then scheduler.store.createTelegramSchedulerJob req
    else .error "failed to create telegram scheduler job"
  return (req, { scheduler with
    store, createdAt := Function.update scheduler.createdAt req.jobId scheduler.nowUnix })

/-- The job of a draft cannot be created. -/
def OwnerDrafts.createFailed (d : OwnerDrafts) (error : String) : DraftOrigin → OwnerDrafts
  | .confirmed _ => { d with phase := .replying (.confirmFailed error) }
  | .described _ => { d with phase := .idle }

/-- The job of a draft is created. -/
def OwnerDrafts.jobCreated (d : OwnerDrafts) (req : CreateTelegramSchedulerJobRequest) :
    DraftOrigin → OwnerDrafts
  | .confirmed p =>
    { d with
      phase := .deleting p (.confirmed req.jobId req.nextRunAtUnix)
      log := .created p.serial req.jobId :: d.log }
  | .described (some p) => { d with phase := .deleting p (.replaced req.jobId req.nextRunAtUnix) }
  | .described none => { d with phase := .replying (.created req.jobId req.nextRunAtUnix) }

/-- A deletion after a confirmation is not carried out. -/
def OwnerDrafts.noteLost (d : OwnerDrafts) (p : TelegramSchedulerPendingIntentRecord) :
    DraftDeletion → OwnerDrafts
  | .confirmed _ _ => { d with log := .undeleted p.serial :: d.log }
  | _ => d

/-- The steps that leave the tables of the scheduler alone. -/
def OwnerDrafts.step (d : OwnerDrafts) : DraftStep → OwnerDrafts
  | .receive message loaded =>
    if d.phase = .idle ∧ message.key key.channel = key ∧ loaded then
      { d with phase := .loaded message scheduler.nowUnix (d.loadPending scheduler.nowUnix) }
    else d
  | .read reading =>
    match d.phase with
    | .loaded message nowUnix pending =>
      { d with phase := readPhase host message nowUnix pending reading }
    | _ => d
  | .upsert stored =>
    match d.phase with
    | .upserting draft nowUnix =>
      match host.draftCodec.encode draft, stored with
      | .ok draftJson, true =>
        { d.upsertPending key draftJson (nowUnix + telegramSchedulerPendingTtlSecs) with
          phase := .replying .awaitsConfirmation }
      | _, _ => { d with phase := .idle }
    | _ => d
  | .checkQuota order listed =>
    match d.phase with
    | .checking message draft origin =>
      if IsNewestFirst scheduler key.channel key.chatId key.ownerUserId order then
        match checkDraftQuota host scheduler order listed with
        | .error e => d.createFailed e origin
        | .ok () => { d with phase := .inserting message draft origin }
      else d
    | _ => d
  | .insertJob _ _ => d
  | .deletePending stored =>
    match d.phase with
    | .deleting p deletion =>
      let d' := { d with phase := .replying (deletion.notice p.serial stored) }
      if stored then { d' with pending := none } else d'.noteLost p deletion
    | _ => d
  | .reply delivered =>
    match d.phase with
    | .replying (.canceled serial deleted) =>
      { d with phase := .idle, log := if delivered then .canceled serial deleted :: d.log else d.log }
    | .replying _ => { d with phase := .idle }
    | _ => d
  | .stop =>
    match d.phase with
    | .deleting p deletion => { d with phase := .idle }.noteLost p deletion
    | _ => { d with phase := .idle }

/-- The insert, if the message in hand is at it. -/
def OwnerDrafts.insert (d : OwnerDrafts) (millis : Nat) (stored : Bool) : SchedulerSystem × OwnerDrafts :=
  match d.phase with
  | .inserting message draft origin =>
    match insertDraftJob host scheduler key message draft millis stored with
    | .error e => (scheduler, d.createFailed e origin)
    | .ok (req, scheduler') => (scheduler', d.jobCreated req origin)
  | _ => (scheduler, d)

def OwnerDrafts.exec (d : OwnerDrafts) : DraftStep → SchedulerSystem × OwnerDrafts
  | .insertJob millis stored => d.insert host scheduler key millis stored
  | step => (scheduler, d.step host scheduler key step)

end

/-! ## The owners together -/

structure DraftSystem where
  scheduler : SchedulerSystem
  owners : PendingKey → OwnerDrafts := fun _ => {}

/-- A step of an owner's message, or one of the other parties around the scheduler's tables. -/
inductive DraftLabel
  | owner (key : PendingKey) (step : DraftStep)
  | elsewhere (step : SchedulerStep)

def DraftSystem.exec (host : DraftHost) (s : DraftSystem) : DraftLabel → DraftSystem
  | .owner key step =>
    let (scheduler, d) := (s.owners key).exec host s.scheduler key step
    { scheduler, owners := Function.update s.owners key d }
  | .elsewhere step => { s with scheduler := s.scheduler.exec host.toSchedulerHost step }

/-- A run from empty tables of drafts. -/
def DraftSystem.run (host : DraftHost) (scheduler : SchedulerSystem) (labels : List DraftLabel) :
    DraftSystem :=
  Machine.run (DraftSystem.exec host) { scheduler } labels

end Xiaomaolv
