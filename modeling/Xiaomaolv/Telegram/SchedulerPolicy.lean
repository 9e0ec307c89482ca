import Xiaomaolv.Telegram.Scheduler
import Xiaomaolv.Loop.Data

/-!
# The policy of a scheduler job

* `SchedulerPolicy`, its check (`validateSchedulerPolicy`) and its normal form (`normalizePolicy`).
* `applySchedulerStateTransition`: the states that the events of a job lead to.
* `planSuccessTransition`, `planFailureTransition`: what a finished run writes to its job;
  `failurePlan`: what a worker writes, also for a policy that cannot be read.
* `jobFromDraft`: the request that a draft is stored by; `planJobOperation`: the status that a
  command of the owner writes.
* **`planSuccess_next`**, **`failurePlan_next`**: a job that a report keeps active gets its next run,
  after the clock of the report.
-/

namespace Xiaomaolv

/-! ## What the program calls -/

/-- `chrono_tz` and `cron`: whether a timezone, an expression and a moment of a timezone can be read, and
the first time of an expression from a moment on. -/
structure Calendar where
  timezone : String → Bool
  schedule : String → Bool
  isMoment : String → Int → Bool
  after : String → String → Int → Option Int

/-- An iterator over the times after a moment yields none before it. -/
def Calendar.Forward (calendar : Calendar) : Prop :=
  ∀ expr timezone start next, calendar.after expr timezone start = some next → start ≤ next

/-! ## Policies -/

inductive ScheduleSpec
  | once (runAtUnix : Int)
  | cron (expr : String)
deriving DecidableEq, Repr

inductive SchedulerPolicyTrigger
  | once (runAtUnix : Int) (timezone : String)
  | cron (expr : String) (timezone : String)
deriving DecidableEq, Repr

structure SchedulerBackoffPolicy where
  strategy : String := "exponential"
  baseSecs : Int := 1
  maxSecs : Int := 300
deriving DecidableEq, Repr

structure SchedulerExecutionPolicy where
  maxFailureStreakBeforePause : Nat := 8
  backoff : SchedulerBackoffPolicy := {}
deriving DecidableEq, Repr

def defaultSchedulerPolicyVersion : String := "1.0"

structure SchedulerPolicy where
  version : String := defaultSchedulerPolicyVersion
  trigger : SchedulerPolicyTrigger
  execution : SchedulerExecutionPolicy := {}
deriving DecidableEq, Repr

/-- The JSON of a policy, as `serde` reads and writes it. -/
structure PolicyCodec where
  decode : String → Except String SchedulerPolicy
  encode : SchedulerPolicy → Except String String

/-- `split_whitespace().count()`, from inside or outside a field. -/
def countFields : Bool → List Char → Nat
  | _, [] => 0
  | inField, c :: cs =>
    if isWhitespace c then countFields false cs
    else (if inField then 0 else 1) + countFields true cs

def normalizeCronExpr (raw : String) : String :=
  let trimmed := trim raw
  if countFields false trimmed.toList = 5 then s!"0 {trimmed}" else trimmed

def normalizeBackoffPolicy (policy : SchedulerBackoffPolicy) : SchedulerBackoffPolicy :=
  let strategy :=
    if isBlank policy.strategy then "exponential" else toAsciiLowercase (trim policy.strategy)
  let baseSecs := max policy.baseSecs 1
  let maxSecs := if policy.maxSecs < baseSecs then baseSecs else policy.maxSecs
  { strategy, baseSecs, maxSecs }

def SchedulerPolicyTrigger.normalize : SchedulerPolicyTrigger → SchedulerPolicyTrigger
  | .once runAtUnix timezone => .once runAtUnix (trim timezone)
  | .cron expr timezone => .cron (trim expr) (trim timezone)

def normalizePolicy (policy : SchedulerPolicy) : SchedulerPolicy where
  version := if isBlank policy.version then defaultSchedulerPolicyVersion else trim policy.version
  trigger := policy.trigger.normalize
  execution :=
    { policy.execution with backoff := normalizeBackoffPolicy policy.execution.backoff }

def validateBackoffPolicy (policy : SchedulerBackoffPolicy) : Except String Unit := do
  let strategy := toAsciiLowercase (trim policy.strategy)
  ensure (strategy = "exponential" || strategy = "fixed")
    s!"unsupported backoff strategy '{policy.strategy}', expected exponential|fixed"
  ensure (0 < policy.baseSecs) "backoff.base_secs must be >= 1"
  ensure (0 < policy.maxSecs) "backoff.max_secs must be >= 1"
  ensure (policy.baseSecs ≤ policy.maxSecs) "backoff.max_secs must be >= backoff.base_secs"

section

variable (calendar : Calendar)

def validatePolicyTrigger : SchedulerPolicyTrigger → Except String Unit
  | .once runAtUnix timezone => do
    ensure (0 < runAtUnix) "trigger.run_at_unix must be positive"
    ensure (calendar.timezone timezone) s!"invalid timezone '{timezone}'"
  | .cron expr timezone => do
    ensure (!isBlank expr) "trigger.expr cannot be empty"
    ensure (calendar.timezone timezone) s!"invalid timezone '{timezone}'"
    ensure (calendar.schedule (normalizeCronExpr expr)) s!"invalid cron expression '{expr}'"

def validateSchedulerPolicy (policy : SchedulerPolicy) : Except String Unit := do
  ensure (trim policy.version = defaultSchedulerPolicyVersion)
    (s!"unsupported scheduler policy version '{policy.version}', " ++
      s!"expected {defaultSchedulerPolicyVersion}")
  ensure (policy.execution.maxFailureStreakBeforePause ≠ 0)
    "execution.max_failure_streak_before_pause must be >= 1"
  ensure (policy.execution.maxFailureStreakBeforePause ≤ 1024)
    "execution.max_failure_streak_before_pause must be <= 1024"
  validateBackoffPolicy policy.execution.backoff
  validatePolicyTrigger calendar policy.trigger

def parseSchedulerPolicyJson (codec : PolicyCodec) (raw : String) : Except String SchedulerPolicy := do
  let policy ← codec.decode raw
  let policy := normalizePolicy policy
  validateSchedulerPolicy calendar policy
  return policy

def encodeSchedulerPolicyJson (codec : PolicyCodec) (policy : SchedulerPolicy) :
    Except String String := do
  validateSchedulerPolicy calendar policy
  codec.encode policy

/-! ## The next run -/

def computeNextRunAtUnix (spec : ScheduleSpec) (nowUnix : Int) (timezone : String) :
    Except String (Option Int) := do
  ensure (calendar.timezone timezone) s!"invalid timezone '{timezone}'"
  match spec with
  | .once runAtUnix => return if runAtUnix ≤ nowUnix then none else some runAtUnix
  | .cron expr =>
    let normalizedExpr := normalizeCronExpr expr
    ensure (calendar.schedule normalizedExpr) s!"invalid cron expression '{expr}'"
    ensure (calendar.isMoment timezone nowUnix) s!"invalid local timestamp for timezone '{timezone}'"
    return calendar.after normalizedExpr timezone (nowUnix + 1)

def computeNextRunFromPolicy (policy : SchedulerPolicy) (nowUnix : Int) :
    Except String (Option Int) := do
  validateSchedulerPolicy calendar policy
  match policy.trigger with
  | .once runAtUnix timezone => computeNextRunAtUnix calendar (.once runAtUnix) nowUnix timezone
  | .cron expr timezone => computeNextRunAtUnix calendar (.cron expr) nowUnix timezone

end

/-- `clamp(1, max)`. -/
def clampSecs (secs maxSecs : Int) : Int := max 1 (min secs maxSecs)

/-- The delay before the retry of an attempt. Under the base of at least 1 a saturated product is above
`max_secs` whenever the product is. -/
def computeRetryBackoffSecsWithPolicy (policy : SchedulerBackoffPolicy) (attempt : Nat) : Int :=
  let normalized := normalizeBackoffPolicy policy
  let base := max normalized.baseSecs 1
  let maxSecs := max normalized.maxSecs base
  if normalized.strategy = "fixed" then clampSecs base maxSecs
  else if attempt = 0 then clampSecs 1 maxSecs
  else clampSecs (base * 2 ^ min attempt 20) maxSecs

def computeRetryBackoffSecs (attempt : Nat) : Int := computeRetryBackoffSecsWithPolicy {} attempt

theorem one_le_retryBackoff (policy : SchedulerBackoffPolicy) (attempt : Nat) :
    1 ≤ computeRetryBackoffSecsWithPolicy policy attempt := by
  simp only [computeRetryBackoffSecsWithPolicy, clampSecs]
  split_ifs <;> omega

/-! ## States and events -/

inductive SchedulerExecutionState
  | active
  | paused
  | completed
  | canceled
deriving DecidableEq, Repr

def SchedulerExecutionState.asStr : SchedulerExecutionState → String
  | active => "active"
  | paused => "paused"
  | completed => "completed"
  | canceled => "canceled"

inductive SchedulerExecutionEvent
  | ManualPause
  | ManualResume
  | ManualCancel
  | RunSucceededKeepActive
  | RunSucceededComplete
  | RunFailedRetry
  | RunFailedPause
deriving DecidableEq, Repr

def SchedulerExecutionEvent.debug : SchedulerExecutionEvent → String
  | ManualPause => "ManualPause"
  | ManualResume => "ManualResume"
  | ManualCancel => "ManualCancel"
  | RunSucceededKeepActive => "RunSucceededKeepActive"
  | RunSucceededComplete => "RunSucceededComplete"
  | RunFailedRetry => "RunFailedRetry"
  | RunFailedPause => "RunFailedPause"

def applySchedulerStateTransition (current : SchedulerExecutionState)
    (event : SchedulerExecutionEvent) : Except String SchedulerExecutionState :=
  match current, event with
  | .active, .ManualPause => .ok .paused
  | .paused, .ManualResume => .ok .active
  | .active, .ManualCancel => .ok .canceled
  | .paused, .ManualCancel => .ok .canceled
  | .active, .RunSucceededKeepActive => .ok .active
  | .active, .RunSucceededComplete => .ok .completed
  | .active, .RunFailedRetry => .ok .active
  | .active, .RunFailedPause => .ok .paused
  | _, _ => .error s!"invalid scheduler transition {current.asStr} + {event.debug}"

def schedulerStateFromJobStatus : TelegramSchedulerJobStatus → SchedulerExecutionState
  | .active => .active
  | .paused => .paused
  | .completed => .completed
  | .canceled => .canceled

def schedulerStateToJobStatus : SchedulerExecutionState → TelegramSchedulerJobStatus
  | .active => .active
  | .paused => .paused
  | .completed => .completed
  | .canceled => .canceled

/-! ## Plans of a finished run -/

structure SchedulerSuccessPlan where
  nextState : SchedulerExecutionState
  markCompleted : Bool
  nextRunAtUnix : Option Int
deriving DecidableEq, Repr

structure SchedulerFailurePlan where
  nextState : SchedulerExecutionState
  pauseJob : Bool
  nextRunAtUnix : Option Int
  backoffSecs : Option Int
deriving DecidableEq, Repr

def SchedulerPolicyTrigger.isOnce : SchedulerPolicyTrigger → Bool
  | .once _ _ => true
  | .cron _ _ => false

section

variable (calendar : Calendar)

/-- The job is over. -/
def planCompleted : Except String SchedulerSuccessPlan := do
  let nextState ← applySchedulerStateTransition .active .RunSucceededComplete
  return ⟨nextState, true, none⟩

def planSuccessTransition (policy : SchedulerPolicy) (nowUnix runCountAfter : Int)
    (maxRuns : Option Int) : Except String SchedulerSuccessPlan := do
  validateSchedulerPolicy calendar policy
  let maxRunsReached := maxRuns.any fun maxRuns => maxRuns ≤ runCountAfter
  if policy.trigger.isOnce || maxRunsReached then planCompleted
  else
    match ← computeNextRunFromPolicy calendar policy nowUnix with
    | none => planCompleted
    | some next =>
      let nextState ← applySchedulerStateTransition .active .RunSucceededKeepActive
      return ⟨nextState, false, some next⟩

def planFailureTransition (policy : SchedulerPolicy) (nowUnix failureStreakAfter : Int) :
    Except String SchedulerFailurePlan := do
  validateSchedulerPolicy calendar policy
  let threshold : Int := max policy.execution.maxFailureStreakBeforePause 1
  if threshold ≤ failureStreakAfter then
    let nextState ← applySchedulerStateTransition .active .RunFailedPause
    return ⟨nextState, true, none, none⟩
  else
    let attempt := (max failureStreakAfter 0).toNat % 2 ^ 32
    let backoffSecs := max (computeRetryBackoffSecsWithPolicy policy.execution.backoff attempt) 1
    let nextState ← applySchedulerStateTransition .active .RunFailedRetry
    return ⟨nextState, false, some (nowUnix + backoffSecs), some backoffSecs⟩

/-- `resolve_scheduler_policy_for_job`. -/
def resolveSchedulerPolicyForJob (codec : PolicyCodec) (job : TelegramSchedulerJobRecord)
    (defaultTimezone : String) : Except String SchedulerPolicy :=
  match job.policyJson.filter fun raw => !isBlank raw with
  | some raw => parseSchedulerPolicyJson calendar codec raw
  | none => do
    let timezone := if isBlank job.timezone then defaultTimezone else job.timezone
    match job.scheduleKind with
    | .once =>
      let runAtUnix ← context (job.runAtUnix.or job.nextRunAtUnix) "once scheduler job missing run_at"
      return { trigger := .once runAtUnix timezone }
    | .cron =>
      let expr ← context job.cronExpr "cron scheduler job missing cron_expr"
      return { trigger := .cron expr timezone }

/-- The plan for a job whose policy cannot be read. -/
def legacyFailurePlan (job : TelegramSchedulerJobRecord) (finishedAtUnix : Int) :
    SchedulerFailurePlan :=
  let attempt := min (job.failureStreak % 2 ^ 32 + 1) (2 ^ 32 - 1)
  let backoff := computeRetryBackoffSecs attempt
  if 8 ≤ attempt then ⟨.paused, true, none, none⟩
  else ⟨.active, false, some (finishedAtUnix + backoff), some backoff⟩

/-- The plan of a worker for a failed run. -/
def failurePlan (codec : PolicyCodec) (defaultTimezone : String) (job : TelegramSchedulerJobRecord)
    (finishedAtUnix : Int) : SchedulerFailurePlan :=
  let planned := do
    let policy ← resolveSchedulerPolicyForJob calendar codec job defaultTimezone
    planFailureTransition calendar policy finishedAtUnix (job.failureStreak + 1)
  match planned with
  | .ok plan => plan
  | .error _ => legacyFailurePlan job finishedAtUnix

/-- The worker's reading of a plan: paused jobs have no next run. -/
def SchedulerFailurePlan.outcome (plan : SchedulerFailurePlan) : Bool × Option Int :=
  let pauseJob := plan.nextState = .paused || plan.pauseJob
  (pauseJob, if pauseJob then none else plan.nextRunAtUnix)

end

/-! ## Drafts and commands -/

structure TelegramSchedulerIntentDraft where
  taskKind : TelegramSchedulerTaskKind
  scheduleKind : TelegramSchedulerScheduleKind
  payload : String
  timezone : String
  runAtUnix : Option Int
  cronExpr : Option String
deriving DecidableEq, Repr

def buildSchedulerPolicyFromDraft (draft : TelegramSchedulerIntentDraft) :
    Except String SchedulerPolicy :=
  match draft.scheduleKind with
  | .once => do
    let runAtUnix ← context draft.runAtUnix "once draft missing run_at"
    return { trigger := .once runAtUnix draft.timezone }
  | .cron => do
    let expr ← context draft.cronExpr "cron draft missing cron_expr"
    return { trigger := .cron expr draft.timezone }

def buildSchedulerJobId (chatId ownerUserId : Int) (millis : Nat) : String :=
  s!"task-{chatId}-{ownerUserId}-{millis}"

/-- The first run of a draft. -/
def draftNextRun (calendar : Calendar) (draft : TelegramSchedulerIntentDraft) (nowUnix : Int) :
    Except String Int :=
  match draft.scheduleKind with
  | .once => context draft.runAtUnix "once draft missing run_at"
  | .cron => do
    let expr ← context draft.cronExpr "cron draft missing cron_expr"
    let next ← computeNextRunAtUnix calendar (.cron expr) nowUnix draft.timezone
    context next "failed to compute next run time for cron draft"

/-- The request that `create_scheduler_job_from_draft` stores, once the quota is checked. -/
def jobFromDraft (calendar : Calendar) (codec : PolicyCodec) (channel : String) (chatId : Int)
    (messageThreadId : Option Int) (ownerUserId : Int) (draft : TelegramSchedulerIntentDraft)
    (nowUnix : Int) (millis : Nat) : Except String CreateTelegramSchedulerJobRequest := do
  let policy ← buildSchedulerPolicyFromDraft draft
  let policyJson ← encodeSchedulerPolicyJson calendar codec policy
  let nextRunAtUnix ← draftNextRun calendar draft nowUnix
  let isOnce := draft.scheduleKind = .once
  return {
    jobId := buildSchedulerJobId chatId ownerUserId millis
    channel, chatId, messageThreadId, ownerUserId
    status := .active
    taskKind := draft.taskKind
    payload := draft.payload
    scheduleKind := draft.scheduleKind
    timezone := draft.timezone
    runAtUnix := if isOnce then some nextRunAtUnix else none
    cronExpr := draft.cronExpr
    policyJson := some policyJson
    nextRunAtUnix := some nextRunAtUnix
    maxRuns := if isOnce then some 1 else none }

inductive SchedulerJobOperation
  | Pause
  | Resume
  | Delete
deriving DecidableEq, Repr

def SchedulerJobOperation.asEvent : SchedulerJobOperation → SchedulerExecutionEvent
  | Pause => .ManualPause
  | Resume => .ManualResume
  | Delete => .ManualCancel

/-- The status that `execute_scheduler_job_operation` writes after it has loaded the job, or its reply. -/
def planJobOperation (loaded : Option TelegramSchedulerJobRecord) (op : SchedulerJobOperation)
    (chatId ownerUserId : Int) (jobId : String) : Except String TelegramSchedulerJobStatus :=
  match loaded.filter fun job => job.chatId = chatId && job.ownerUserId = ownerUserId with
  | none => .error s!"未找到可更新的任务: {jobId}"
  | some job =>
    let currentState := schedulerStateFromJobStatus job.status
    match applySchedulerStateTransition currentState op.asEvent with
    | .error _ => .error s!"任务当前状态为 `{currentState.asStr}`，不支持执行该操作。"
    | .ok nextState =>
      if nextState = currentState then .error s!"任务 `{jobId}` 当前已是 `{currentState.asStr}`。"
      else .ok (schedulerStateToJobStatus nextState)

/-! ## What the plans write -/

section

variable {calendar : Calendar}

theorem computeNextRunAtUnix_lt (hforward : calendar.Forward) {spec : ScheduleSpec}
    {nowUnix : Int} {timezone : String} {next : Int}
    (h : computeNextRunAtUnix calendar spec nowUnix timezone = .ok (some next)) : nowUnix < next := by
  unfold computeNextRunAtUnix at h
  obtain ⟨_, -, h⟩ := bind_eq_ok.mp h
  cases spec with
  | once runAtUnix =>
    by_cases hpast : runAtUnix ≤ nowUnix
    · simp [hpast, pure, Except.pure] at h
    · simp only [hpast, if_false, pure, Except.pure, Except.ok.injEq, Option.some.injEq] at h
      omega
  | cron expr =>
    obtain ⟨_, -, h⟩ := bind_eq_ok.mp h
    obtain ⟨_, -, h⟩ := bind_eq_ok.mp h
    have := hforward _ _ _ _ (Except.ok.inj h)
    omega

theorem computeNextRunFromPolicy_lt (hforward : calendar.Forward) {policy : SchedulerPolicy}
    {nowUnix next : Int} (h : computeNextRunFromPolicy calendar policy nowUnix = .ok (some next)) :
    nowUnix < next := by
  unfold computeNextRunFromPolicy at h
  obtain ⟨_, -, h⟩ := bind_eq_ok.mp h
  cases htrigger : policy.trigger with
  | once runAtUnix timezone =>
    simp only [htrigger] at h
    exact computeNextRunAtUnix_lt hforward h
  | cron expr timezone =>
    simp only [htrigger] at h
    exact computeNextRunAtUnix_lt hforward h

/-- **A success that keeps its job active plans the next run**, after its clock; any other plans none. -/
theorem planSuccess_next {policy : SchedulerPolicy} {nowUnix runCountAfter : Int}
    {maxRuns : Option Int} {plan : SchedulerSuccessPlan}
    (h : planSuccessTransition calendar policy nowUnix runCountAfter maxRuns = .ok plan) :
    (plan.markCompleted = true ∧ plan.nextRunAtUnix = none) ∨
    (plan.markCompleted = false ∧ ∃ next, plan.nextRunAtUnix = some next ∧
      (calendar.Forward → nowUnix < next)) := by
  unfold planSuccessTransition at h
  obtain ⟨_, -, h⟩ := bind_eq_ok.mp h
  simp only at h
  split_ifs at h
  · exact .inl (Except.ok.inj h ▸ ⟨rfl, rfl⟩)
  · obtain ⟨next?, hnext, h⟩ := bind_eq_ok.mp h
    cases next? with
    | none => exact .inl (Except.ok.inj h ▸ ⟨rfl, rfl⟩)
    | some next =>
      refine .inr ?_
      rw [← Except.ok.inj h]
      exact ⟨rfl, next, rfl, fun hforward => computeNextRunFromPolicy_lt hforward hnext⟩

/-- What a failure plan says: a pause, or a retry after the clock. -/
def SchedulerFailurePlan.Retries (plan : SchedulerFailurePlan) (nowUnix : Int) : Prop :=
  (plan.nextState = .paused ∧ plan.pauseJob = true ∧ plan.nextRunAtUnix = none) ∨
  (plan.nextState = .active ∧ plan.pauseJob = false ∧
    ∃ next, plan.nextRunAtUnix = some next ∧ nowUnix < next)

theorem planFailure_retries {policy : SchedulerPolicy} {nowUnix failureStreakAfter : Int}
    {plan : SchedulerFailurePlan}
    (h : planFailureTransition calendar policy nowUnix failureStreakAfter = .ok plan) :
    plan.Retries nowUnix := by
  unfold planFailureTransition at h
  obtain ⟨_, -, h⟩ := bind_eq_ok.mp h
  simp only at h
  split_ifs at h
  · exact .inl (Except.ok.inj h ▸ ⟨rfl, rfl, rfl⟩)
  · refine .inr ?_
    rw [← Except.ok.inj h]
    exact ⟨rfl, rfl, _, rfl, by omega⟩

theorem legacyFailurePlan_retries (job : TelegramSchedulerJobRecord) (finishedAtUnix : Int) :
    (legacyFailurePlan job finishedAtUnix).Retries finishedAtUnix := by
  simp only [legacyFailurePlan]
  split_ifs
  · exact .inl ⟨rfl, rfl, rfl⟩
  · refine .inr ⟨rfl, rfl, _, rfl, ?_⟩
    have := one_le_retryBackoff {} (min (job.failureStreak % 2 ^ 32 + 1) (2 ^ 32 - 1))
    simp only [computeRetryBackoffSecs]
    omega

variable (calendar) in
/-- **A failure that does not pause its job plans a retry**, after its clock. -/
theorem failurePlan_next (codec : PolicyCodec) (defaultTimezone : String)
    (job : TelegramSchedulerJobRecord) (finishedAtUnix : Int) :
    (failurePlan calendar codec defaultTimezone job finishedAtUnix).outcome = (true, none) ∨
    ∃ next, (failurePlan calendar codec defaultTimezone job finishedAtUnix).outcome
      = (false, some next) ∧ finishedAtUnix < next := by
  have hretries : (failurePlan calendar codec defaultTimezone job finishedAtUnix).Retries
      finishedAtUnix := by
    unfold failurePlan
    simp only
    split
    · next plan hplan =>
      obtain ⟨policy, -, hplan⟩ := bind_eq_ok.mp hplan
      exact planFailure_retries hplan
    · exact legacyFailurePlan_retries job finishedAtUnix
  rcases hretries with ⟨hstate, hpause, hnext⟩ | ⟨hstate, hpause, next, hnext, hlt⟩
  · exact .inl (by simp [SchedulerFailurePlan.outcome, hstate])
  · exact .inr ⟨next, by simp [SchedulerFailurePlan.outcome, hstate, hpause, hnext], hlt⟩

theorem jobFromDraft_scheduled {codec : PolicyCodec} {channel : String} {chatId : Int}
    {messageThreadId : Option Int} {ownerUserId : Int} {draft : TelegramSchedulerIntentDraft}
    {nowUnix : Int} {millis : Nat} {req : CreateTelegramSchedulerJobRequest}
    (h : jobFromDraft calendar codec channel chatId messageThreadId ownerUserId draft nowUnix millis
      = .ok req) :
    req.status = .active ∧ req.nextRunAtUnix.isSome ∧ req.channel = channel ∧ req.chatId = chatId ∧
      req.ownerUserId = ownerUserId := by
  unfold jobFromDraft at h
  obtain ⟨_, -, h⟩ := bind_eq_ok.mp h
  obtain ⟨_, -, h⟩ := bind_eq_ok.mp h
  obtain ⟨_, -, h⟩ := bind_eq_ok.mp h
  rw [← Except.ok.inj h]
  exact ⟨rfl, rfl, rfl, rfl, rfl⟩

end

end Xiaomaolv
