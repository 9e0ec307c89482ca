import Mathlib.Logic.Function.Basic
import Xiaomaolv.Telegram.SchedulerPolicy

/-!
# The parties around the scheduler's tables

* `SchedulerSystem`: the tables, the clock, and the parties between two of their calls: workers with the
  jobs they have claimed, commands of owners that have loaded their job, creations whose quota is checked.
* `SchedulerStep`, `SchedulerSystem.exec`: every step that a party or the clock can take; a store call
  may fail, and a worker may stop anywhere.
* `log`: the claims, sends and changes of status so far, the newest first.
* `Rewrites`, **`rewrites_exec`**: what one step does to the jobs.
-/

namespace Xiaomaolv

open Table

structure TelegramSchedulerSettings where
  batchSize : Nat
  leaseSecs : Nat
  defaultTimezone : String
  maxJobsPerOwner : Nat

/-- What the scheduler is given: its settings, and the crates it calls. -/
structure SchedulerHost where
  settings : TelegramSchedulerSettings
  calendar : Calendar
  codec : PolicyCodec

/-! ## The parties -/

/-- Where a worker is in the run of a claimed job. -/
inductive RunPhase
  | claimed
  | executing (startedAtUnix : Int)
  | sending (startedAtUnix : Int)
  | sent (startedAtUnix : Int)
  | failing (startedAtUnix : Int) (delivered : Bool) (error : String)
deriving DecidableEq, Repr

/-- A claimed job: the copy of its row that the claim returned, and how far its run is. -/
structure ClaimedJob where
  job : TelegramSchedulerJobRecord
  phase : RunPhase := .claimed
deriving DecidableEq, Repr

/-- One tick of `run_telegram_scheduler_loop`: the claimed jobs that are left, the first of them in hand. -/
structure SchedulerWorker where
  channel : String := ""
  leaseToken : String := ""
  claimed : List ClaimedJob := []

/-- A command whose plan is made and whose update is still to come. -/
structure PendingUpdate where
  channel : String
  chatId : Int
  ownerUserId : Int
  jobId : String
  status : TelegramSchedulerJobStatus

/-- A creation whose quota is checked, against the jobs listed, and whose insert is still to come. -/
structure PendingCreation where
  channel : String
  chatId : Int
  messageThreadId : Option Int
  ownerUserId : Int
  draft : TelegramSchedulerIntentDraft
  listed : List TelegramSchedulerJobRecord

/-- What a step shows. The time of an occurrence is the `next_run_at_unix` of its row. -/
inductive SchedulerEvent
  | claimed (worker : Nat) (jobId : String)
  | sendStarted (worker : Nat) (jobId : String) (occurrence : Option Int) (text : String)
  | sendSucceeded (worker : Nat) (jobId : String) (occurrence : Option Int)
  | abandoned (worker : Nat) (jobId : String) (occurrence : Option Int)
  | settled (worker : Nat) (jobId : String)
  | updated (jobId : String) (status : TelegramSchedulerJobStatus)
deriving DecidableEq, Repr

structure SchedulerSystem where
  store : SchedulerStore := .empty
  createdAt : String → Int := fun _ => 0
  nowUnix : Int := 0
  workers : Nat → SchedulerWorker := fun _ => {}
  operators : Nat → Option PendingUpdate := fun _ => none
  creators : Nat → Option PendingCreation := fun _ => none
  log : List SchedulerEvent := []

/-- A step, with what it is told from outside. -/
inductive SchedulerStep
  | setClock (nowUnix : Int)
  | checkQuota (creator : Nat) (channel : String) (chatId : Int) (messageThreadId : Option Int)
      (ownerUserId : Int) (draft : TelegramSchedulerIntentDraft) (order : List String)
  | insertJob (creator : Nat) (millis : Nat) (stored : Bool)
  | loadJob (operator : Nat) (channel : String) (chatId ownerUserId : Int) (op : SchedulerJobOperation)
      (jobId : String)
  | updateJob (operator : Nat) (stored : Bool)
  | claim (worker : Nat) (channel leaseToken : String) (stored : Bool)
  | start (worker : Nat)
  | send (worker : Nat) (profile : Option (String × Option String)) (reply : Except String String)
  | sendReturns (worker : Nat) (outcome : Except String Unit)
  | complete (worker : Nat) (stored : Bool)
  | fail (worker : Nat) (stored : Bool)
  | stop (worker : Nat)

/-! ## The quota of an owner -/

/-- The jobs of an owner in a chat. -/
def isOwnedBy (channel : String) (chatId ownerUserId : Int) (j : TelegramSchedulerJobRecord) : Bool :=
  j.channel = channel && j.chatId = chatId && j.ownerUserId = ownerUserId

/-- The jobs that count against the quota. -/
def isOpen (j : TelegramSchedulerJobRecord) : Bool := j.status = .active || j.status = .paused

/-- An order in which `ORDER BY created_at DESC` may list the owner's jobs. -/
def IsNewestFirst (s : SchedulerSystem) (channel : String) (chatId ownerUserId : Int)
    (order : List String) : Prop :=
  order.Perm ((s.store.jobs.filter (isOwnedBy channel chatId ownerUserId)).map fun j => j.jobId) ∧
    order.Pairwise fun newer older => s.createdAt older ≤ s.createdAt newer

instance (s : SchedulerSystem) (channel : String) (chatId ownerUserId : Int) (order : List String) :
    Decidable (IsNewestFirst s channel chatId ownerUserId order) :=
  inferInstanceAs (Decidable (_ ∧ _))

/-- `list_telegram_scheduler_jobs_by_owner`, of an order: at most `limit.max(1)` rows. -/
def listTelegramSchedulerJobsByOwner (s : SchedulerSystem) (order : List String) (limit : Nat) :
    List TelegramSchedulerJobRecord :=
  (order.take (max limit 1)).filterMap s.store.job?

/-- `enforce_scheduler_job_quota`, of the jobs listed. -/
def enforceSchedulerJobQuota (jobs : List TelegramSchedulerJobRecord) (maxJobsPerOwner : Nat) :
    Except String Unit :=
  ensure (jobs.countP isOpen < maxJobsPerOwner)
    s!"任务数量已达上限({maxJobsPerOwner})，请先删除/暂停部分任务后再创建。"

/-! ## The texts of a run -/

def buildSchedulerOwnerMention (ownerUserId : Int) (ownerUsername ownerPreferredName : Option String) :
    String :=
  let normalizedUsername :=
    (ownerUsername.map fun v => String.ofList ((trim v).toList.dropWhile (· = '@'))).filter
      fun v => !v.isEmpty
  match normalizedUsername with
  | some username => s!"@{username}"
  | none =>
    let preferredName := ((ownerPreferredName.map trim).filter fun v => !v.isEmpty).getD "这位同学"
    s!"[{preferredName}](tg://user?id={ownerUserId})"

def buildSchedulerReminderOutboundText (chatId ownerUserId : Int)
    (ownerUsername ownerPreferredName : Option String) (payload : String) : String :=
  if 0 ≤ chatId then payload
  else
    let mention := buildSchedulerOwnerMention ownerUserId ownerUsername ownerPreferredName
    let reminderBody := trim payload
    if reminderBody.isEmpty then s!"{mention} 你的定时提醒到了。"
    else s!"{mention} 你的定时提醒到了：{reminderBody}"

/-- The text of a run: a reminder with the owner's profile in the group, or an agent's reply. -/
def outboundText (job : TelegramSchedulerJobRecord) (profile : Option (String × Option String))
    (reply : Except String String) : Except String String :=
  match job.taskKind with
  | .reminder =>
    .ok (buildSchedulerReminderOutboundText job.chatId job.ownerUserId (profile.bind fun p => p.2)
      (profile.map fun p => p.1) job.payload)
  | .agent => reply.mapError fun e => s!"failed to generate scheduler agent output: {e}"

/-! ## The reports of a run -/

section

variable (host : SchedulerHost)

/-- The fields that both reports of a worker share. -/
def SchedulerWorker.report (w : SchedulerWorker) (job : TelegramSchedulerJobRecord)
    (startedAtUnix finishedAtUnix : Int) (nextRunAtUnix : Option Int) : SchedulerJobRun where
  channel := w.channel
  chatId := job.chatId
  jobId := job.jobId
  leaseToken := w.leaseToken
  startedAtUnix
  finishedAtUnix
  nextRunAtUnix

/-- The report of a success, unless the next run cannot be planned. -/
def successReport (w : SchedulerWorker) (job : TelegramSchedulerJobRecord)
    (startedAtUnix finishedAtUnix : Int) : Except String CompleteTelegramSchedulerJobRunRequest := do
  let policy ←
    resolveSchedulerPolicyForJob host.calendar host.codec job host.settings.defaultTimezone
  let plan ← (planSuccessTransition host.calendar policy finishedAtUnix (job.runCount + 1)
    job.maxRuns).mapError fun e => s!"failed to plan scheduler success transition: {e}"
  return {
    toSchedulerJobRun := w.report job startedAtUnix finishedAtUnix plan.nextRunAtUnix
    markCompleted := plan.markCompleted }

/-- The report of a failure. -/
def failureReport (w : SchedulerWorker) (job : TelegramSchedulerJobRecord)
    (startedAtUnix finishedAtUnix : Int) (error : String) : FailTelegramSchedulerJobRunRequest :=
  let outcome :=
    (failurePlan host.calendar host.codec host.settings.defaultTimezone job finishedAtUnix).outcome
  { toSchedulerJobRun := w.report job startedAtUnix finishedAtUnix outcome.2
    pauseJob := outcome.1
    error }

/-! ## One step -/

/-- The worker's copy of the lease is over. -/
def leaseOver (nowUnix : Int) (job : TelegramSchedulerJobRecord) : Bool :=
  job.leaseUntilUnix.any fun until_ => until_ ≤ nowUnix

/-- The worker with its claimed jobs replaced. -/
def SchedulerSystem.setClaimed (s : SchedulerSystem) (worker : Nat) (claimed : List ClaimedJob) :
    SchedulerSystem :=
  { s with workers := Function.update s.workers worker { s.workers worker with claimed } }

/-- The job in hand goes on with another phase. -/
def SchedulerSystem.setPhase (s : SchedulerSystem) (worker : Nat) (job : TelegramSchedulerJobRecord)
    (phase : RunPhase) (rest : List ClaimedJob) : SchedulerSystem :=
  s.setClaimed worker (⟨job, phase⟩ :: rest)

def SchedulerSystem.note (s : SchedulerSystem) (event : SchedulerEvent) : SchedulerSystem :=
  { s with log := event :: s.log }

/-- The quota check of a creation. -/
def stepCheckQuota (s : SchedulerSystem) (creator : Nat) (channel : String) (chatId : Int)
    (messageThreadId : Option Int) (ownerUserId : Int) (draft : TelegramSchedulerIntentDraft)
    (order : List String) : SchedulerSystem :=
  let listed := listTelegramSchedulerJobsByOwner s order (host.settings.maxJobsPerOwner + 1)
  if (s.creators creator).isNone ∧ IsNewestFirst s channel chatId ownerUserId order ∧
      (enforceSchedulerJobQuota listed host.settings.maxJobsPerOwner).isOk then
    let pending := ⟨channel, chatId, messageThreadId, ownerUserId, draft, listed⟩
    { s with creators := Function.update s.creators creator (some pending) }
  else s

/-- The insert of a creation. -/
def stepInsertJob (s : SchedulerSystem) (creator : Nat) (millis : Nat) (stored : Bool) :
    SchedulerSystem :=
  match s.creators creator with
  | none => s
  | some p =>
    let s' := { s with creators := Function.update s.creators creator none }
    match jobFromDraft host.calendar host.codec p.channel p.chatId p.messageThreadId p.ownerUserId
        p.draft s.nowUnix millis with
    | .error _ => s'
    | .ok req =>
      match if stored then s.store.createTelegramSchedulerJob req else .error "" with
      | .error _ => s'
      | .ok store =>
        { s' with store, createdAt := Function.update s.createdAt req.jobId s.nowUnix }

/-- A command loads its job and plans. -/
def stepLoadJob (s : SchedulerSystem) (operator : Nat) (channel : String) (chatId ownerUserId : Int)
    (op : SchedulerJobOperation) (jobId : String) : SchedulerSystem :=
  let loaded := (s.store.job? jobId).filter fun j => j.channel = channel
  let pending :=
    (planJobOperation loaded op chatId ownerUserId jobId).toOption.map fun status =>
      (⟨channel, chatId, ownerUserId, jobId, status⟩ : PendingUpdate)
  if (s.operators operator).isNone then
    { s with operators := Function.update s.operators operator pending }
  else s

/-- A command updates its job. -/
def stepUpdateJob (s : SchedulerSystem) (operator : Nat) (stored : Bool) : SchedulerSystem :=
  match s.operators operator with
  | none => s
  | some p =>
    let s' := { s with operators := Function.update s.operators operator none }
    if stored then
      let result := s.store.updateTelegramSchedulerJobStatus p.channel p.chatId p.ownerUserId p.jobId
        p.status
      let log := if result.1 then .updated p.jobId p.status :: s.log else s.log
      { s' with store := result.2, log }
    else s'

/-- An idle worker claims. -/
def stepClaim (s : SchedulerSystem) (worker : Nat) (channel leaseToken : String) (stored : Bool) :
    SchedulerSystem :=
  if (s.workers worker).claimed.isEmpty ∧ stored then
    let (jobs, store) := s.store.claimDueTelegramSchedulerJobs channel s.nowUnix
      host.settings.batchSize host.settings.leaseSecs leaseToken
    { s with
      store
      workers := Function.update s.workers worker
        ⟨channel, leaseToken, jobs.map fun job => { job }⟩
      log := jobs.map (fun job => .claimed worker job.jobId) ++ s.log }
  else s

/-- The worker takes up the next job: an expired claim is dropped, an unreadable policy fails the run. -/
def stepStart (s : SchedulerSystem) (worker : Nat) : SchedulerSystem :=
  match (s.workers worker).claimed with
  | ⟨job, .claimed⟩ :: rest =>
    if leaseOver s.nowUnix job then s.setClaimed worker rest
    else
      match resolveSchedulerPolicyForJob host.calendar host.codec job
          host.settings.defaultTimezone with
      | .error e => s.setPhase worker job (.failing s.nowUnix false e) rest
      | .ok _ => s.setPhase worker job (.executing s.nowUnix) rest
  | _ => s

/-- The text is ready: the lease is checked again, and the send starts. -/
def stepSend (s : SchedulerSystem) (worker : Nat) (profile : Option (String × Option String))
    (reply : Except String String) : SchedulerSystem :=
  match (s.workers worker).claimed with
  | ⟨job, .executing startedAt⟩ :: rest =>
    match outboundText job profile reply with
    | .error e => s.setPhase worker job (.failing startedAt false e) rest
    | .ok text =>
      if leaseOver s.nowUnix job then
        s.setPhase worker job (.failing startedAt false
          "scheduler lease expired before send — job owned by a new claim") rest
      else
        (s.setPhase worker job (.sending startedAt) rest).note
          (.sendStarted worker job.jobId job.nextRunAtUnix text)
  | _ => s

def stepSendReturns (s : SchedulerSystem) (worker : Nat) (outcome : Except String Unit) :
    SchedulerSystem :=
  match (s.workers worker).claimed with
  | ⟨job, .sending startedAt⟩ :: rest =>
    match outcome with
    | .ok () =>
      (s.setPhase worker job (.sent startedAt) rest).note
        (.sendSucceeded worker job.jobId job.nextRunAtUnix)
    | .error e =>
      s.setPhase worker job (.failing startedAt false
        s!"failed to send scheduler telegram message: {e}") rest
  | _ => s

/-- The report of a run reaches the store or is refused there. -/
def SchedulerSystem.settle (s : SchedulerSystem) (worker : Nat) (job : TelegramSchedulerJobRecord)
    (rest : List ClaimedJob) (store : SchedulerStore) : SchedulerSystem :=
  ({ s with store }.setClaimed worker rest).note (.settled worker job.jobId)

def stepComplete (s : SchedulerSystem) (worker : Nat) (stored : Bool) : SchedulerSystem :=
  match (s.workers worker).claimed with
  | ⟨job, .sent startedAt⟩ :: rest =>
    let completed := do
      let req ← successReport host (s.workers worker) job startedAt s.nowUnix
      (if stored then s.store.completeTelegramSchedulerJobRun req else .error "").mapError
        fun e => s!"failed to mark scheduler job success: {e}"
    match completed with
    | .ok store => s.settle worker job rest store
    | .error e => s.setPhase worker job (.failing startedAt true e) rest
  | _ => s

/-- A failure to report a failure is only logged. -/
def stepFail (s : SchedulerSystem) (worker : Nat) (stored : Bool) : SchedulerSystem :=
  match (s.workers worker).claimed with
  | ⟨job, .failing startedAt _ error⟩ :: rest =>
    let req := failureReport host (s.workers worker) job startedAt s.nowUnix error
    match if stored then s.store.failTelegramSchedulerJobRun req else .error "" with
    | .ok store => s.settle worker job rest store
    | .error _ => s.setClaimed worker rest
  | _ => s

/-- A worker stops, with all that it has claimed. -/
def stepStop (s : SchedulerSystem) (worker : Nat) : SchedulerSystem :=
  let abandoned := (s.workers worker).claimed.map fun c =>
    SchedulerEvent.abandoned worker c.job.jobId c.job.nextRunAtUnix
  { s.setClaimed worker [] with log := abandoned ++ s.log }

/-- One step. -/
def SchedulerSystem.exec (s : SchedulerSystem) : SchedulerStep → SchedulerSystem
  | .setClock nowUnix => { s with nowUnix }
  | .checkQuota creator channel chatId messageThreadId ownerUserId draft order =>
    stepCheckQuota host s creator channel chatId messageThreadId ownerUserId draft order
  | .insertJob creator millis stored => stepInsertJob host s creator millis stored
  | .loadJob operator channel chatId ownerUserId op jobId =>
    stepLoadJob s operator channel chatId ownerUserId op jobId
  | .updateJob operator stored => stepUpdateJob s operator stored
  | .claim worker channel leaseToken stored => stepClaim host s worker channel leaseToken stored
  | .start worker => stepStart host s worker
  | .send worker profile reply => stepSend s worker profile reply
  | .sendReturns worker outcome => stepSendReturns s worker outcome
  | .complete worker stored => stepComplete host s worker stored
  | .fail worker stored => stepFail host s worker stored
  | .stop worker => stepStop s worker

/-- The system after the steps, from empty tables. -/
def SchedulerSystem.run (steps : List SchedulerStep) : SchedulerSystem :=
  Machine.run (SchedulerSystem.exec host) {} steps

/-! ## What a step does to the jobs -/

/-- The report of a worker for the job in its hand: a job that it leaves active has a next run, after the
clock; a job that it leaves otherwise has none. -/
structure Reports (s : SchedulerSystem) (worker : Nat) (job : TelegramSchedulerJobRecord)
    (run : SchedulerJobRun) (status : TelegramSchedulerJobStatus) : Prop where
  inHand : ∃ phase rest, (s.workers worker).claimed = ⟨job, phase⟩ :: rest ∧ phase ≠ .claimed
  job : ∃ startedAtUnix nextRunAtUnix,
    run = (s.workers worker).report job startedAtUnix s.nowUnix nextRunAtUnix
  status : (status = .active ∧ ∃ next, run.nextRunAtUnix = some next ∧
      (host.calendar.Forward → s.nowUnix < next)) ∨
    ((status = .paused ∨ status = .completed) ∧ run.nextRunAtUnix = none)

/-- What a step makes of the jobs. -/
inductive Rewrites (s : SchedulerSystem) : SchedulerStep → List TelegramSchedulerJobRecord → Prop
  | kept (step : SchedulerStep) : Rewrites s step s.store.jobs
  | inserted (creator millis : Nat) (p : PendingCreation) (req : CreateTelegramSchedulerJobRequest)
      (pending : s.creators creator = some p)
      (request : jobFromDraft host.calendar host.codec p.channel p.chatId p.messageThreadId
        p.ownerUserId p.draft s.nowUnix millis = .ok req)
      (fresh : ∀ j ∈ s.store.jobs, j.jobId ≠ req.jobId) :
      Rewrites s (.insertJob creator millis true)
        (s.store.jobs ++ [({ req with } : TelegramSchedulerJobRecord)])
  | updated (operator : Nat) (p : PendingUpdate) (pending : s.operators operator = some p) :
      Rewrites s (.updateJob operator true) (updateWhere
        (SchedulerStore.isOpenFor p.channel p.chatId p.ownerUserId p.jobId)
        (SchedulerStore.setStatus p.status) s.store.jobs)
  | claimed (worker : Nat) (channel leaseToken : String) (idle : (s.workers worker).claimed = []) :
      Rewrites s (.claim worker channel leaseToken true) (updateWhere
        (SchedulerStore.isClaimable channel s.nowUnix
          (s.store.dueJobIds channel s.nowUnix host.settings.batchSize))
        (SchedulerStore.grantLease leaseToken (s.nowUnix + max (host.settings.leaseSecs : Int) 1))
        s.store.jobs)
  | settled (step : SchedulerStep) (worker : Nat) (job : TelegramSchedulerJobRecord) (run : SchedulerJobRun)
      (status : TelegramSchedulerJobStatus) (error : Option String)
      (settles : step = .complete worker true ∨ step = .fail worker true)
      (reports : Reports host s worker job run status) :
      Rewrites s step (updateWhere (SchedulerStore.holds run)
        (SchedulerStore.settleJob run status error) s.store.jobs)

variable {host} {s : SchedulerSystem}

theorem claimable_due {store : SchedulerStore} {channel : String} {now : Int} {limit : Nat}
    {j : TelegramSchedulerJobRecord} (hj : j ∈ store.jobs)
    (h : SchedulerStore.isClaimable channel now (store.dueJobIds channel now limit) j = true) :
    j.status = .active ∧ SchedulerStore.isDue channel now j = true := by
  simp only [SchedulerStore.isClaimable, Bool.and_eq_true, decide_eq_true_eq,
    List.contains_eq_mem] at h
  obtain ⟨⟨⟨-, hactive⟩, hid⟩, -⟩ := h
  obtain ⟨k, hk, hid⟩ := List.mem_map.mp hid
  obtain ⟨hk, hdue⟩ := List.mem_filter.mp ((List.mem_insertionSort _).mp (List.mem_of_mem_take hk))
  exact ⟨hactive, eq_of_key_eq store.primaryKey hk hj hid ▸ hdue⟩

theorem mapError_eq_ok {α : Type} {x : Except String α} {f : String → String} {a : α}
    (h : x.mapError f = .ok a) : x = .ok a := by
  cases x with
  | ok b => exact h
  | error e => cases h

theorem successReport_eq_ok {w : SchedulerWorker} {job : TelegramSchedulerJobRecord}
    {startedAtUnix finishedAtUnix : Int} {req : CompleteTelegramSchedulerJobRunRequest}
    (h : successReport host w job startedAtUnix finishedAtUnix = .ok req) :
    ∃ next, req.toSchedulerJobRun = w.report job startedAtUnix finishedAtUnix next ∧
      ((req.markCompleted = true ∧ next = none) ∨
        (req.markCompleted = false ∧ ∃ n, next = some n ∧
          (host.calendar.Forward → finishedAtUnix < n))) := by
  unfold successReport at h
  obtain ⟨policy, -, h⟩ := bind_eq_ok.mp h
  obtain ⟨plan, hplan, h⟩ := bind_eq_ok.mp h
  refine ⟨plan.nextRunAtUnix, by rw [← Except.ok.inj h], ?_⟩
  rw [← Except.ok.inj h]
  exact planSuccess_next (mapError_eq_ok hplan)

variable (host) in
theorem failureReport_cases (w : SchedulerWorker) (job : TelegramSchedulerJobRecord)
    (startedAtUnix finishedAtUnix : Int) (error : String) :
    ∃ next, (failureReport host w job startedAtUnix finishedAtUnix error).toSchedulerJobRun
        = w.report job startedAtUnix finishedAtUnix next ∧
      (((failureReport host w job startedAtUnix finishedAtUnix error).pauseJob = true ∧ next = none) ∨
        ((failureReport host w job startedAtUnix finishedAtUnix error).pauseJob = false ∧
          ∃ n, next = some n ∧ finishedAtUnix < n)) := by
  refine ⟨_, rfl, ?_⟩
  rcases failurePlan_next host.calendar host.codec host.settings.defaultTimezone job
    finishedAtUnix with h | ⟨n, h, hlt⟩
  · exact .inl ⟨congrArg Prod.fst h, congrArg Prod.snd h⟩
  · exact .inr ⟨congrArg Prod.fst h, n, congrArg Prod.snd h, hlt⟩

theorem settleRun_eq_ok {store store' : SchedulerStore} {run : SchedulerJobRun}
    {status : TelegramSchedulerJobStatus} {error : Option String} {message : String}
    (h : store.settleRun run status error message = .ok store') :
    store'.jobs = updateWhere (SchedulerStore.holds run) (SchedulerStore.settleJob run status error)
      store.jobs := by
  unfold SchedulerStore.settleRun at h
  simp only at h
  split_ifs at h
  rw [← Except.ok.inj h]
  rfl

variable (host) in
theorem rewrites_insertJob (creator millis : Nat) (stored : Bool) :
    Rewrites host s (.insertJob creator millis stored)
      (stepInsertJob host s creator millis stored).store.jobs := by
  unfold stepInsertJob
  cases hp : s.creators creator with
  | none => exact .kept _
  | some p =>
    dsimp only
    cases hreq : jobFromDraft host.calendar host.codec p.channel p.chatId p.messageThreadId
        p.ownerUserId p.draft s.nowUnix millis with
    | error e => exact .kept _
    | ok req =>
      dsimp only
      cases stored with
      | false => exact .kept _
      | true =>
        simp only [if_true]
        cases hstore : s.store.createTelegramSchedulerJob req with
        | error e => exact .kept _
        | ok store =>
          unfold SchedulerStore.createTelegramSchedulerJob at hstore
          split_ifs at hstore with hkey
          show Rewrites host s _ store.jobs
          rw [← Except.ok.inj hstore]
          refine .inserted creator millis p req hp hreq fun j hj => ?_
          simpa using List.find?_eq_none.mp (Option.not_isSome_iff_eq_none.mp hkey) j hj

theorem rewrites_updateJob (operator : Nat) (stored : Bool) :
    Rewrites host s (.updateJob operator stored) (stepUpdateJob s operator stored).store.jobs := by
  unfold stepUpdateJob
  cases hp : s.operators operator with
  | none => exact .kept _
  | some p =>
    cases stored with
    | false => exact .kept _
    | true => exact .updated operator p hp

theorem rewrites_claim (worker : Nat) (channel leaseToken : String) (stored : Bool) :
    Rewrites host s (.claim worker channel leaseToken stored)
      (stepClaim host s worker channel leaseToken stored).store.jobs := by
  unfold stepClaim
  split_ifs with h
  · obtain ⟨hidle, rfl⟩ := h
    dsimp only
    rw [SchedulerStore.claim_jobs]
    exact .claimed worker channel leaseToken (List.isEmpty_iff.mp hidle)
  · exact .kept _

theorem rewrites_complete (worker : Nat) (stored : Bool) :
    Rewrites host s (.complete worker stored) (stepComplete host s worker stored).store.jobs := by
  unfold stepComplete
  split
  · next job startedAt rest hclaimed =>
    dsimp only
    split
    · next store hcompleted =>
      obtain ⟨req, hreq, hstore⟩ := bind_eq_ok.mp hcompleted
      obtain ⟨next, hrun, hnext⟩ := successReport_eq_ok hreq
      cases stored with
      | false => cases hstore
      | true =>
        have hstore := mapError_eq_ok hstore
        rw [if_pos rfl] at hstore
        have hjobs : (s.settle worker job rest store).store.jobs = _ := settleRun_eq_ok hstore
        rw [hjobs]
        refine .settled _ worker job _ _ _ (.inl rfl) ⟨⟨_, _, hclaimed, nofun⟩, ⟨_, next, hrun⟩, ?_⟩
        rcases hnext with ⟨hdone, rfl⟩ | ⟨hdone, n, rfl, hlt⟩
        · exact .inr ⟨.inr (by rw [hdone]; rfl), by rw [hrun]; rfl⟩
        · exact .inl ⟨by rw [hdone]; rfl, n, by rw [hrun]; rfl, hlt⟩
    · exact .kept _
  · exact .kept _

theorem rewrites_fail (worker : Nat) (stored : Bool) :
    Rewrites host s (.fail worker stored) (stepFail host s worker stored).store.jobs := by
  unfold stepFail
  split
  · next job startedAt delivered error rest hclaimed =>
    dsimp only
    split
    · next store hstore =>
      cases stored with
      | false => cases hstore
      | true =>
        rw [if_pos rfl] at hstore
        have hjobs : (s.settle worker job rest store).store.jobs = _ := settleRun_eq_ok hstore
        rw [hjobs]
        obtain ⟨next, hrun, hnext⟩ :=
          failureReport_cases host (s.workers worker) job startedAt s.nowUnix error
        refine .settled _ worker job _ _ _ (.inr rfl) ⟨⟨_, _, hclaimed, nofun⟩, ⟨_, next, hrun⟩, ?_⟩
        rcases hnext with ⟨hpause, rfl⟩ | ⟨hpause, n, rfl, hlt⟩
        · exact .inr ⟨.inl (by rw [hpause]; rfl), by rw [hrun]; rfl⟩
        · exact .inl ⟨by rw [hpause]; rfl, n, by rw [hrun]; rfl, fun _ => hlt⟩
    · exact .kept _
  · exact .kept _

theorem jobs_start (worker : Nat) : (stepStart host s worker).store = s.store := by
  unfold stepStart
  split
  · split_ifs
    · rfl
    · split <;> rfl
  · rfl

theorem jobs_send (worker : Nat) (profile : Option (String × Option String))
    (reply : Except String String) : (stepSend s worker profile reply).store = s.store := by
  unfold stepSend
  split
  · split
    · rfl
    · split_ifs <;> rfl
  · rfl

theorem jobs_sendReturns (worker : Nat) (outcome : Except String Unit) :
    (stepSendReturns s worker outcome).store = s.store := by
  unfold stepSendReturns
  split
  · split <;> rfl
  · rfl

variable (host) in
/-- **What a step does to the jobs.** -/
theorem rewrites_exec (step : SchedulerStep) : Rewrites host s step (s.exec host step).store.jobs := by
  cases step with
  | setClock => exact .kept _
  | checkQuota creator channel chatId messageThreadId ownerUserId draft order =>
    have : (s.exec host (.checkQuota creator channel chatId messageThreadId ownerUserId draft
        order)).store = s.store := by
      simp only [SchedulerSystem.exec, stepCheckQuota]
      split_ifs <;> rfl
    rw [this]
    exact .kept _
  | insertJob creator millis stored => exact rewrites_insertJob host creator millis stored
  | loadJob operator channel chatId ownerUserId op jobId =>
    have : (s.exec host (.loadJob operator channel chatId ownerUserId op jobId)).store = s.store := by
      simp only [SchedulerSystem.exec, stepLoadJob]
      split_ifs <;> rfl
    rw [this]
    exact .kept _
  | updateJob operator stored => exact rewrites_updateJob operator stored
  | claim worker channel leaseToken stored => exact rewrites_claim worker channel leaseToken stored
  | start worker =>
    simp only [SchedulerSystem.exec, jobs_start]
    exact .kept _
  | send worker profile reply =>
    simp only [SchedulerSystem.exec, jobs_send]
    exact .kept _
  | sendReturns worker outcome =>
    simp only [SchedulerSystem.exec, jobs_sendReturns]
    exact .kept _
  | complete worker stored => exact rewrites_complete worker stored
  | fail worker stored => exact rewrites_fail worker stored
  | stop worker => exact .kept _

end

end Xiaomaolv
