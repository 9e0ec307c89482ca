import Mathlib.Data.List.Sort
import Xiaomaolv.Lib.Machine
import Xiaomaolv.Lib.Table

/-!
# The leases of Telegram scheduler jobs

* `SchedulerStore`: the tables `telegram_scheduler_jobs`, with its primary key, and
  `telegram_scheduler_runs`; the operations on them.
* `Keeps`: the calls that leave a lease in force; `leased_exec`: such a call keeps the leased row.
* **`lease_exclusive`**: a lease in force is handed to no other token, and a run reported under a token
  that the row does not carry changes nothing.
-/

namespace Xiaomaolv

open Table

inductive TelegramSchedulerJobStatus
  | active
  | paused
  | completed
  | canceled
deriving DecidableEq, Repr

inductive TelegramSchedulerTaskKind
  | reminder
  | agent
deriving DecidableEq, Repr

inductive TelegramSchedulerScheduleKind
  | once
  | cron
deriving DecidableEq, Repr

structure CreateTelegramSchedulerJobRequest where
  jobId : String
  channel : String
  chatId : Int
  messageThreadId : Option Int := none
  ownerUserId : Int
  status : TelegramSchedulerJobStatus := .active
  taskKind : TelegramSchedulerTaskKind
  payload : String
  scheduleKind : TelegramSchedulerScheduleKind
  timezone : String
  runAtUnix : Option Int := none
  cronExpr : Option String := none
  policyJson : Option String := none
  nextRunAtUnix : Option Int
  maxRuns : Option Int := none
deriving DecidableEq, Repr

/-- A row of `telegram_scheduler_jobs`. -/
structure TelegramSchedulerJobRecord extends CreateTelegramSchedulerJobRequest where
  lastRunAtUnix : Option Int := none
  lastError : Option String := none
  runCount : Nat := 0
  failureStreak : Nat := 0
  leaseToken : Option String := none
  leaseUntilUnix : Option Int := none
deriving DecidableEq, Repr

/-- A row of `telegram_scheduler_runs`. -/
structure TelegramSchedulerRunRow where
  jobId : String
  channel : String
  chatId : Int
  startedAtUnix : Int
  finishedAtUnix : Int
  ok : Bool
  error : Option String
deriving DecidableEq, Repr

/-- The fields that the reports of a finished run share. -/
structure SchedulerJobRun where
  channel : String
  chatId : Int
  jobId : String
  leaseToken : String
  startedAtUnix : Int
  finishedAtUnix : Int
  nextRunAtUnix : Option Int

structure CompleteTelegramSchedulerJobRunRequest extends SchedulerJobRun where
  markCompleted : Bool

structure FailTelegramSchedulerJobRunRequest extends SchedulerJobRun where
  pauseJob : Bool
  error : String

/-- The jobs, no two of one `job_id`, and the history of their runs. -/
structure SchedulerStore where
  jobs : List TelegramSchedulerJobRecord
  primaryKey : (jobs.map fun j => j.jobId).Nodup
  runs : List TelegramSchedulerRunRow

namespace SchedulerStore

def empty : SchedulerStore := ⟨[], List.nodup_nil, []⟩

def job? (s : SchedulerStore) (jobId : String) : Option TelegramSchedulerJobRecord :=
  s.jobs.find? fun j => j.jobId = jobId

/-- An `UPDATE` that keeps the primary key. -/
def updateJobs (s : SchedulerStore) (p : TelegramSchedulerJobRecord → Bool)
    (f : TelegramSchedulerJobRecord → TelegramSchedulerJobRecord) (hf : ∀ j, (f j).jobId = j.jobId) :
    SchedulerStore where
  jobs := updateWhere p f s.jobs
  primaryKey := by rw [map_updateWhere hf]; exact s.primaryKey
  runs := s.runs

/-! ## The operations -/

/-- `create_telegram_scheduler_job`: refused when the key is taken. -/
def createTelegramSchedulerJob (s : SchedulerStore) (req : CreateTelegramSchedulerJobRequest) :
    Except String SchedulerStore :=
  if h : (s.job? req.jobId).isSome then .error "failed to create telegram scheduler job"
  else
    .ok
      { s with
        jobs := s.jobs ++ [{ req with }]
        primaryKey := nodup_concat s.primaryKey fun x hx => by
          simpa using List.find?_eq_none.mp (Option.not_isSome_iff_eq_none.mp h) x hx }

/-- The job of a chat's owner, unless it is over. -/
def isOpenFor (channel : String) (chatId ownerUserId : Int) (jobId : String)
    (j : TelegramSchedulerJobRecord) : Bool :=
  j.channel = channel && j.chatId = chatId && j.ownerUserId = ownerUserId && j.jobId = jobId &&
    !(j.status = .completed || j.status = .canceled)

/-- `SET status = ?, lease_token = NULL, lease_until_unix = NULL`. -/
def setStatus (status : TelegramSchedulerJobStatus) (j : TelegramSchedulerJobRecord) :
    TelegramSchedulerJobRecord :=
  { j with status, leaseToken := none, leaseUntilUnix := none }

theorem setStatus_jobId (status : TelegramSchedulerJobStatus) (j : TelegramSchedulerJobRecord) :
    (setStatus status j).jobId = j.jobId := rfl

/-- `update_telegram_scheduler_job_status`. -/
def updateTelegramSchedulerJobStatus (s : SchedulerStore) (channel : String)
    (chatId ownerUserId : Int) (jobId : String) (status : TelegramSchedulerJobStatus) :
    Bool × SchedulerStore :=
  (s.jobs.any (isOpenFor channel chatId ownerUserId jobId),
    s.updateJobs (isOpenFor channel chatId ownerUserId jobId) (setStatus status) (setStatus_jobId _))

/-- `lease_until_unix IS NULL OR lease_until_unix <= now`. -/
def leaseFree (now : Int) (j : TelegramSchedulerJobRecord) : Bool :=
  j.leaseUntilUnix.all fun leaseUntil => leaseUntil ≤ now

/-- An active job of the channel whose time has come and whose lease is free. -/
def isDue (channel : String) (now : Int) (j : TelegramSchedulerJobRecord) : Bool :=
  j.channel = channel && j.status = .active && j.nextRunAtUnix.any (fun nextRun => nextRun ≤ now) &&
    leaseFree now j

/-- `ORDER BY next_run_at_unix ASC`. -/
def runsBefore (j j' : TelegramSchedulerJobRecord) : Prop :=
  j.nextRunAtUnix.getD 0 ≤ j'.nextRunAtUnix.getD 0

instance : DecidableRel runsBefore :=
  fun j j' => inferInstanceAs (Decidable (j.nextRunAtUnix.getD 0 ≤ j'.nextRunAtUnix.getD 0))

/-- The due jobs, the earliest first, at most `limit.max(1)` of them. -/
def dueJobIds (s : SchedulerStore) (channel : String) (now : Int) (limit : Nat) : List String :=
  (((s.jobs.filter (isDue channel now)).insertionSort runsBefore).take (max limit 1)).map
    fun j => j.jobId

/-- The rows that the batch update of a claim meets. -/
def isClaimable (channel : String) (now : Int) (jobIds : List String)
    (j : TelegramSchedulerJobRecord) : Bool :=
  j.channel = channel && j.status = .active && jobIds.contains j.jobId && leaseFree now j

/-- `SET lease_token = ?, lease_until_unix = ?`. -/
def grantLease (leaseToken : String) (leaseUntil : Int) (j : TelegramSchedulerJobRecord) :
    TelegramSchedulerJobRecord :=
  { j with leaseToken := some leaseToken, leaseUntilUnix := some leaseUntil }

theorem grantLease_jobId (leaseToken : String) (leaseUntil : Int) (j : TelegramSchedulerJobRecord) :
    (grantLease leaseToken leaseUntil j).jobId = j.jobId := rfl

/-- `claim_due_telegram_scheduler_jobs`: the rows that carry the token after the batch update. -/
def claimDueTelegramSchedulerJobs (s : SchedulerStore) (channel : String) (now : Int) (limit : Nat)
    (leaseSecs : Int) (leaseToken : String) : List TelegramSchedulerJobRecord × SchedulerStore :=
  let jobIds := s.dueJobIds channel now limit
  if jobIds.isEmpty then ([], s)
  else
    let claimed := s.updateJobs (isClaimable channel now jobIds)
      (grantLease leaseToken (now + max leaseSecs 1)) (grantLease_jobId _ _)
    (claimed.jobs.filter fun j => j.channel = channel && j.leaseToken = some leaseToken, claimed)

/-- The job of a report, while its row carries the report's token. -/
def holds (run : SchedulerJobRun) (j : TelegramSchedulerJobRecord) : Bool :=
  j.channel = run.channel && j.chatId = run.chatId && j.jobId = run.jobId &&
    j.leaseToken = some run.leaseToken

/-- What a report writes to its job: an error lengthens the streak of failures. -/
def settleJob (run : SchedulerJobRun) (status : TelegramSchedulerJobStatus) (error : Option String)
    (j : TelegramSchedulerJobRecord) : TelegramSchedulerJobRecord :=
  { j with
    status
    nextRunAtUnix := run.nextRunAtUnix
    lastRunAtUnix := some run.finishedAtUnix
    lastError := error
    runCount := j.runCount + 1
    failureStreak := if error.isNone then 0 else j.failureStreak + 1
    leaseToken := none
    leaseUntilUnix := none }

theorem settleJob_jobId (run : SchedulerJobRun) (status : TelegramSchedulerJobStatus)
    (error : Option String) (j : TelegramSchedulerJobRecord) :
    (settleJob run status error j).jobId = j.jobId := rfl

/-- The transaction of a report: the run row, then the job row; no row met, nothing written. -/
def settleRun (s : SchedulerStore) (run : SchedulerJobRun) (status : TelegramSchedulerJobStatus)
    (error : Option String) (message : String) : Except String SchedulerStore :=
  let runRow : TelegramSchedulerRunRow :=
    ⟨run.jobId, run.channel, run.chatId, run.startedAtUnix, run.finishedAtUnix, error.isNone, error⟩
  let inserted := { s with runs := s.runs ++ [runRow] }
  if inserted.jobs.countP (holds run) = 0 then .error message
  else .ok (inserted.updateJobs (holds run) (settleJob run status error) (settleJob_jobId _ _ _))

/-- `complete_telegram_scheduler_job_run`. -/
def completeTelegramSchedulerJobRun (s : SchedulerStore) (req : CompleteTelegramSchedulerJobRunRequest) :
    Except String SchedulerStore :=
  s.settleRun req.toSchedulerJobRun (if req.markCompleted then .completed else .active) none
    "scheduler job completion rejected due to missing lease"

/-- `fail_telegram_scheduler_job_run`. -/
def failTelegramSchedulerJobRun (s : SchedulerStore) (req : FailTelegramSchedulerJobRunRequest) :
    Except String SchedulerStore :=
  s.settleRun req.toSchedulerJobRun (if req.pauseJob then .paused else .active) (some req.error)
    "scheduler job failure update rejected due to missing lease"

end SchedulerStore

/-! ## Runs -/

/-- A call on the scheduler's tables, with the clock that it passes. -/
inductive SchedulerCall
  | create (req : CreateTelegramSchedulerJobRequest)
  | updateStatus (channel : String) (chatId ownerUserId : Int) (jobId : String)
      (status : TelegramSchedulerJobStatus)
  | claimDue (channel : String) (now : Int) (limit : Nat) (leaseSecs : Int) (leaseToken : String)
  | complete (req : CompleteTelegramSchedulerJobRunRequest)
  | fail (req : FailTelegramSchedulerJobRunRequest)

namespace SchedulerStore

/-- An error rolls its transaction back. -/
def commit (s : SchedulerStore) (tx : Except String SchedulerStore) : SchedulerStore :=
  match tx with
  | .ok s' => s'
  | .error _ => s

/-- One call. -/
def exec (s : SchedulerStore) : SchedulerCall → SchedulerStore
  | .create req => s.commit (s.createTelegramSchedulerJob req)
  | .updateStatus channel chatId ownerUserId jobId status =>
    (s.updateTelegramSchedulerJobStatus channel chatId ownerUserId jobId status).2
  | .claimDue channel now limit leaseSecs leaseToken =>
    (s.claimDueTelegramSchedulerJobs channel now limit leaseSecs leaseToken).2
  | .complete req => s.commit (s.completeTelegramSchedulerJobRun req)
  | .fail req => s.commit (s.failTelegramSchedulerJobRun req)

/-- The tables that a list of calls leaves. -/
def run (calls : List SchedulerCall) : SchedulerStore := Machine.run exec empty calls

/-! ## The rows after one call -/

variable {s : SchedulerStore} {j : TelegramSchedulerJobRecord}

theorem job?_eq_some_iff {jobId : String} : s.job? jobId = some j ↔ j ∈ s.jobs ∧ j.jobId = jobId := by
  constructor
  · intro h
    exact ⟨List.mem_of_find?_eq_some h, by simpa using List.find?_some h⟩
  · rintro ⟨h, rfl⟩
    exact find?_of_mem s.primaryKey h

theorem mem_updateJobs {p : TelegramSchedulerJobRecord → Bool}
    {f : TelegramSchedulerJobRecord → TelegramSchedulerJobRecord} (hf : ∀ j, (f j).jobId = j.jobId)
    (hj : j ∈ s.jobs) (hp : p j = false) : j ∈ (s.updateJobs p f hf).jobs :=
  mem_updateWhere.mpr ⟨j, hj, by simp [hp]⟩

theorem settleRun_eq_error {run : SchedulerJobRun} (h : ∀ j ∈ s.jobs, holds run j = false)
    (status : TelegramSchedulerJobStatus) (error : Option String) (message : String) :
    s.settleRun run status error message = .error message := by
  have hcount : s.jobs.countP (holds run) = 0 := List.countP_eq_zero.mpr fun j hj => by simp [h j hj]
  simp only [settleRun, hcount, if_true]

theorem settleRun_cases (run : SchedulerJobRun) (status : TelegramSchedulerJobStatus)
    (error : Option String) (message : String) :
    s.commit (s.settleRun run status error message) = s ∨
    (s.commit (s.settleRun run status error message)).jobs
      = updateWhere (holds run) (settleJob run status error) s.jobs := by
  by_cases h : s.jobs.countP (holds run) = 0
  · left
    simp only [settleRun, h, if_true, commit]
  · right
    simp only [settleRun, h, if_false, commit, updateJobs]

theorem claim_cases (channel : String) (now : Int) (limit : Nat) (leaseSecs : Int)
    (leaseToken : String) :
    s.claimDueTelegramSchedulerJobs channel now limit leaseSecs leaseToken = ([], s) ∨
    ∃ jobIds, (s.claimDueTelegramSchedulerJobs channel now limit leaseSecs leaseToken).2.jobs
      = updateWhere (isClaimable channel now jobIds)
          (grantLease leaseToken (now + max leaseSecs 1)) s.jobs := by
  unfold claimDueTelegramSchedulerJobs
  simp only
  split_ifs
  · exact .inl rfl
  · exact .inr ⟨_, rfl⟩

theorem claimed_sublist (channel : String) (now : Int) (limit : Nat) (leaseSecs : Int)
    (leaseToken : String) :
    (s.claimDueTelegramSchedulerJobs channel now limit leaseSecs leaseToken).1.Sublist
      (s.claimDueTelegramSchedulerJobs channel now limit leaseSecs leaseToken).2.jobs ∧
    ∀ j ∈ (s.claimDueTelegramSchedulerJobs channel now limit leaseSecs leaseToken).1,
      j.channel = channel := by
  unfold claimDueTelegramSchedulerJobs
  simp only
  split_ifs
  · exact ⟨List.nil_sublist _, fun j hj => absurd hj List.not_mem_nil⟩
  · refine ⟨List.filter_sublist, fun j hj => ?_⟩
    simp only [List.mem_filter, Bool.and_eq_true, decide_eq_true_eq] at hj
    exact hj.2.1

theorem claim_jobs (channel : String) (now : Int) (limit : Nat) (leaseSecs : Int) (leaseToken : String) :
    (s.claimDueTelegramSchedulerJobs channel now limit leaseSecs leaseToken).2.jobs
      = updateWhere (isClaimable channel now (s.dueJobIds channel now limit))
          (grantLease leaseToken (now + max leaseSecs 1)) s.jobs := by
  unfold claimDueTelegramSchedulerJobs
  simp only
  split_ifs with h
  · refine (updateWhere_eq_self fun j _ => ?_).symm
    simp [isClaimable, List.isEmpty_iff.mp h]
  · rfl

/-- A due job is among the first, or so many due jobs are not after it. -/
theorem due_or_full {channel : String} {now : Int} (limit : Nat) (hj : j ∈ s.jobs)
    (hdue : isDue channel now j = true) :
    j.jobId ∈ s.dueJobIds channel now limit ∨
    max limit 1 ≤ (s.jobs.filter fun k => isDue channel now k && decide (runsBefore k j)).length := by
  have htotal : Std.Total runsBefore := ⟨fun a b => Int.le_total _ _⟩
  have htrans : IsTrans TelegramSchedulerJobRecord runsBefore := ⟨fun _ _ _ => Int.le_trans⟩
  let sorted := (s.jobs.filter (isDue channel now)).insertionSort runsBefore
  have hperm : sorted.Perm (s.jobs.filter (isDue channel now)) := List.perm_insertionSort _ _
  have hsorted : sorted.Pairwise runsBefore := List.pairwise_insertionSort _ _
  have hmem : j ∈ sorted := hperm.mem_iff.mpr (List.mem_filter.mpr ⟨hj, hdue⟩)
  rw [← List.take_append_drop (max limit 1) sorted] at hmem hsorted
  rcases List.mem_append.mp hmem with hfirst | hlater
  · exact .inl (List.mem_map_of_mem hfirst)
  · refine .inr ?_
    have hbefore : ∀ k ∈ sorted.take (max limit 1), runsBefore k j :=
      fun k hk => (List.pairwise_append.mp hsorted).2.2 k hk j hlater
    have hlength : (sorted.take (max limit 1)).length = max limit 1 := by
      have := List.length_pos_of_mem hlater
      rw [List.length_drop] at this
      rw [List.length_take]
      omega
    have hsub : (sorted.take (max limit 1)).Subperm
        ((s.jobs.filter (isDue channel now)).filter fun k => decide (runsBefore k j)) := by
      rw [← List.filter_eq_self.mpr fun k hk => decide_eq_true (hbefore k hk)]
      exact (((List.take_sublist _ _).filter _).subperm).trans (hperm.filter _).subperm
    rw [← hlength]
    refine hsub.length_le.trans (le_of_eq ?_)
    rw [List.filter_filter]
    simp only [Bool.and_comm]

theorem claimed_of_due {channel : String} {now : Int} {limit : Nat} {leaseSecs : Int} {leaseToken : String}
    (hj : j ∈ s.jobs) (hdue : isDue channel now j = true) (hid : j.jobId ∈ s.dueJobIds channel now limit) :
    grantLease leaseToken (now + max leaseSecs 1) j ∈
      (s.claimDueTelegramSchedulerJobs channel now limit leaseSecs leaseToken).1 := by
  have hclaimable : isClaimable channel now (s.dueJobIds channel now limit) j = true := by
    simp only [isDue, Bool.and_eq_true] at hdue
    simp [isClaimable, hdue, hid]
  have hmem := claim_jobs (s := s) channel now limit leaseSecs leaseToken ▸
    mem_updateWhere.mpr ⟨j, hj, if_pos hclaimable⟩
  have hchannel : j.channel = channel := by
    simp only [isDue, Bool.and_eq_true, decide_eq_true_eq] at hdue
    exact hdue.1.1.1
  unfold claimDueTelegramSchedulerJobs at hmem ⊢
  simp only at hmem ⊢
  have hne : (s.dueJobIds channel now limit).isEmpty = false := by
    cases h : s.dueJobIds channel now limit with
    | nil => rw [h] at hid; cases hid
    | cons => rfl
  simp only [hne] at hmem ⊢
  exact List.mem_filter.mpr ⟨hmem, by simp [grantLease, hchannel]⟩

theorem claimed_mem {channel : String} {now : Int} {limit : Nat} {leaseSecs : Int} {leaseToken : String}
    (h : j ∈ (s.claimDueTelegramSchedulerJobs channel now limit leaseSecs leaseToken).1) :
    j ∈ (s.claimDueTelegramSchedulerJobs channel now limit leaseSecs leaseToken).2.jobs ∧
    j.leaseToken = some leaseToken := by
  unfold claimDueTelegramSchedulerJobs at h ⊢
  simp only at h ⊢
  split_ifs at h ⊢
  · cases h
  · obtain ⟨hmem, htoken⟩ := List.mem_filter.mp h
    exact ⟨hmem, by simpa using (Bool.and_eq_true_iff.mp htoken).2⟩

/-! ## A lease in force -/

/-- The calls that leave the lease of `j`, until `leaseUntil`, in force: a claim before it expires, a
report that does not carry its token, a status change of another job. -/
def Keeps (j : TelegramSchedulerJobRecord) (leaseUntil : Int) : SchedulerCall → Prop
  | .create _ => True
  | .updateStatus channel chatId ownerUserId jobId _ =>
    isOpenFor channel chatId ownerUserId jobId j = false
  | .claimDue _ now _ _ _ => now < leaseUntil
  | .complete req => holds req.toSchedulerJobRun j = false
  | .fail req => holds req.toSchedulerJobRun j = false

/-- A row keeps its lease under such a call, and all else with it. -/
theorem leased_exec {leaseUntil : Int} (call : SchedulerCall) (hj : j ∈ s.jobs)
    (hlease : j.leaseUntilUnix = some leaseUntil) (hcall : Keeps j leaseUntil call) :
    j ∈ (s.exec call).jobs := by
  have hsettle : ∀ run status error message, holds run j = false →
      j ∈ (s.commit (s.settleRun run status error message)).jobs := by
    intro run status error message hne
    rcases s.settleRun_cases run status error message with h | h
    · rw [h]
      exact hj
    · rw [h]
      exact mem_updateWhere.mpr ⟨j, hj, by simp [hne]⟩
  cases call with
  | create req =>
    show j ∈ (s.commit (s.createTelegramSchedulerJob req)).jobs
    unfold createTelegramSchedulerJob
    split_ifs
    · exact hj
    · exact List.mem_append_left _ hj
  | updateStatus channel chatId ownerUserId jobId status =>
    exact mem_updateJobs (setStatus_jobId status) hj hcall
  | claimDue channel now limit leaseSecs leaseToken =>
    show j ∈ (s.claimDueTelegramSchedulerJobs channel now limit leaseSecs leaseToken).2.jobs
    rcases s.claim_cases channel now limit leaseSecs leaseToken with h | ⟨jobIds, h⟩
    · rw [h]
      exact hj
    · have hfree : leaseFree now j = false := by
        simp only [Keeps] at hcall
        simp [leaseFree, hlease, hcall]
      rw [h]
      exact mem_updateWhere.mpr ⟨j, hj, by simp [isClaimable, hfree]⟩
  | complete req => exact hsettle _ _ _ _ hcall
  | fail req => exact hsettle _ _ _ _ hcall

theorem claim_skips {leaseUntil : Int} {token : String} (hj : j ∈ s.jobs)
    (hlease : j.leaseUntilUnix = some leaseUntil) (htoken : j.leaseToken = some token)
    {channel : String} {now : Int} {limit : Nat} {leaseSecs : Int} {leaseToken : String}
    (hnow : now < leaseUntil) (hne : leaseToken ≠ token) :
    ∀ c ∈ (s.claimDueTelegramSchedulerJobs channel now limit leaseSecs leaseToken).1,
      c.jobId ≠ j.jobId := by
  intro c hc hid
  obtain ⟨hmem, hctoken⟩ := claimed_mem hc
  have hj' : j ∈ (s.claimDueTelegramSchedulerJobs channel now limit leaseSecs leaseToken).2.jobs :=
    leased_exec (.claimDue channel now limit leaseSecs leaseToken) hj hlease hnow
  have hcj := eq_of_key_eq
    (s.claimDueTelegramSchedulerJobs channel now limit leaseSecs leaseToken).2.primaryKey hmem hj' hid
  rw [hcj, htoken] at hctoken
  exact hne (Option.some.inj hctoken).symm

/-! ## Tokens and expiries -/

/-- A row has a token exactly when it has an expiry. -/
def Paired (s : SchedulerStore) : Prop :=
  ∀ j ∈ s.jobs, j.leaseToken.isSome = j.leaseUntilUnix.isSome

theorem paired_update {p : TelegramSchedulerJobRecord → Bool}
    {f : TelegramSchedulerJobRecord → TelegramSchedulerJobRecord} (hs : s.Paired)
    (hf : ∀ j, (f j).leaseToken.isSome = (f j).leaseUntilUnix.isSome) :
    ∀ j ∈ updateWhere p f s.jobs, j.leaseToken.isSome = j.leaseUntilUnix.isSome := by
  intro j hj
  obtain ⟨j₀, hj₀, rfl⟩ := mem_updateWhere.mp hj
  split_ifs
  · exact hf j₀
  · exact hs j₀ hj₀

theorem paired_exec (call : SchedulerCall) (hs : s.Paired) : (s.exec call).Paired := by
  have hsettle : ∀ run status error message,
      (s.commit (s.settleRun run status error message)).Paired := by
    intro run status error message
    rcases s.settleRun_cases run status error message with h | h
    · rwa [h]
    · unfold Paired
      rw [h]
      exact paired_update hs fun _ => rfl
  cases call with
  | create req =>
    show (s.commit (s.createTelegramSchedulerJob req)).Paired
    unfold createTelegramSchedulerJob
    split_ifs
    · exact hs
    · intro j hj
      rcases List.mem_append.mp hj with hj | hj
      · exact hs j hj
      · rw [List.mem_singleton.mp hj]
        rfl
  | updateStatus => exact paired_update hs fun _ => rfl
  | claimDue channel now limit leaseSecs leaseToken =>
    show (s.claimDueTelegramSchedulerJobs channel now limit leaseSecs leaseToken).2.Paired
    rcases s.claim_cases channel now limit leaseSecs leaseToken with h | ⟨jobIds, h⟩
    · rwa [h]
    · unfold Paired
      rw [h]
      exact paired_update hs fun _ => rfl
  | complete => exact hsettle _ _ _ _
  | fail => exact hsettle _ _ _ _

theorem paired_run (calls : List SchedulerCall) : (run calls).Paired :=
  Machine.run_invariant' (fun _ call h => paired_exec call h) (by simp [Paired, empty])

end SchedulerStore

open SchedulerStore in
/-- **Exclusive leases**: after any calls, a job that a claim hands out stays under its token, and goes
to no other token before the lease expires, through all calls that leave the lease in force; and a
report that no row meets changes nothing. -/
theorem lease_exclusive (calls : List SchedulerCall) :
    (∀ channel now limit leaseSecs token,
      ∀ j ∈ ((run calls).claimDueTelegramSchedulerJobs channel now limit leaseSecs token).1,
      ∃ leaseUntil, j.leaseUntilUnix = some leaseUntil ∧
      ∀ later, (∀ call ∈ later, Keeps j leaseUntil call) →
        let after := Machine.run SchedulerStore.exec ((run calls).exec (.claimDue channel now limit leaseSecs token)) later
        j ∈ after.jobs ∧
        ∀ channel' now' limit' leaseSecs' token', now' < leaseUntil → token' ≠ token →
          ∀ c ∈ (after.claimDueTelegramSchedulerJobs channel' now' limit' leaseSecs' token').1,
            c.jobId ≠ j.jobId) ∧
    (∀ req : CompleteTelegramSchedulerJobRunRequest,
      (∀ j ∈ (run calls).jobs, holds req.toSchedulerJobRun j = false) →
      (run calls).exec (.complete req) = run calls) ∧
    (∀ req : FailTelegramSchedulerJobRunRequest,
      (∀ j ∈ (run calls).jobs, holds req.toSchedulerJobRun j = false) →
      (run calls).exec (.fail req) = run calls) := by
  refine ⟨fun channel now limit leaseSecs token j hj => ?_, fun req h => ?_, fun req h => ?_⟩
  · obtain ⟨hmem, htoken⟩ := claimed_mem hj
    have hpaired := paired_exec (.claimDue channel now limit leaseSecs token) (paired_run calls) j hmem
    rw [htoken, Option.isSome_some] at hpaired
    obtain ⟨leaseUntil, hlease⟩ := Option.isSome_iff_exists.mp hpaired.symm
    refine ⟨leaseUntil, hlease, fun later hlater => ?_⟩
    have hstays : j ∈ (Machine.run SchedulerStore.exec
        ((run calls).exec (.claimDue channel now limit leaseSecs token)) later).jobs :=
      Machine.run_invariant (G := fun _ call => Keeps j leaseUntil call)
        (I := fun s : SchedulerStore => j ∈ s.jobs)
        (fun _ call hcall hjs => leased_exec call hjs hlease hcall)
        (Machine.along_of_forall fun _ call hcall => hlater call hcall) hmem
    exact ⟨hstays, fun _ _ _ _ _ hnow hne => claim_skips hstays hlease htoken hnow hne⟩
  · show (run calls).commit ((run calls).completeTelegramSchedulerJobRun req) = run calls
    rw [completeTelegramSchedulerJobRun, settleRun_eq_error h, commit]
  · show (run calls).commit ((run calls).failTelegramSchedulerJobRun req) = run calls
    rw [failTelegramSchedulerJobRun, settleRun_eq_error h, commit]

namespace Sample

/-- A reminder that is due from the clock 0. -/
def reminderRequest : CreateTelegramSchedulerJobRequest where
  jobId := "job"
  channel := "telegram"
  chatId := 1
  ownerUserId := 7
  taskKind := .reminder
  payload := "stand up"
  scheduleKind := .once
  timezone := "UTC"
  nextRunAtUnix := some 0

def reminder : List SchedulerCall := [.create reminderRequest]

/-- Its row under the first lease. -/
def leasedReminder : TelegramSchedulerJobRecord :=
  { reminderRequest with leaseToken := some "lease1", leaseUntilUnix := some 60 }

/-- The report of its first run. -/
def reminded (finishedAtUnix : Int) : CompleteTelegramSchedulerJobRunRequest where
  channel := "telegram"
  chatId := 1
  jobId := "job"
  leaseToken := "lease1"
  startedAtUnix := 0
  finishedAtUnix
  nextRunAtUnix := none
  markCompleted := true

/-- Its owner pauses it and resumes it. -/
def pausedAndResumed : List SchedulerCall :=
  [.updateStatus "telegram" 1 7 "job" .paused, .updateStatus "telegram" 1 7 "job" .active]

end Sample

open SchedulerStore in
theorem lease_exclusive_reminder :
    (∀ c ∈ ((Machine.run SchedulerStore.exec ((run Sample.reminder).exec (.claimDue "telegram" 0 1 60 "lease1"))
        [.updateStatus "telegram" 1 7 "other" .paused]).claimDueTelegramSchedulerJobs
          "telegram" 59 1 60 "lease2").1, c.jobId ≠ "job") ∧
    (run Sample.reminder).exec (.complete (Sample.reminded 1)) = run Sample.reminder := by
  have h := lease_exclusive Sample.reminder
  obtain ⟨leaseUntil, hlease, hlater⟩ :=
    h.1 "telegram" 0 1 60 "lease1" Sample.leasedReminder (by decide +kernel)
  cases hlease
  refine ⟨(hlater [.updateStatus "telegram" 1 7 "other" .paused] ?_).2 "telegram" 59 1 60 "lease2"
    (by decide) (by decide), h.2.1 (Sample.reminded 1) (by decide +kernel)⟩
  intro call hcall
  rw [List.mem_singleton.mp hcall]
  show isOpenFor "telegram" 1 7 "other" Sample.leasedReminder = false
  decide

open SchedulerStore in
/-- A status change takes the lease away before it expires, and the job goes to a second token; and a
run is reported under a lease that has expired. -/
theorem lease_revoked :
    (((run Sample.reminder).claimDueTelegramSchedulerJobs "telegram" 0 1 60 "lease1").1.map
        fun j => (j.jobId, j.leaseUntilUnix)) = [("job", some 60)] ∧
    (((run (Sample.reminder ++ [.claimDue "telegram" 0 1 60 "lease1"] ++ Sample.pausedAndResumed)
        ).claimDueTelegramSchedulerJobs "telegram" 1 1 60 "lease2").1.map
        fun j => (j.jobId, j.leaseToken)) = [("job", some "lease2")] ∧
    ((run (Sample.reminder ++ [.claimDue "telegram" 0 1 60 "lease1"])).exec
        (.complete (Sample.reminded 100))).runs ≠
      (run (Sample.reminder ++ [.claimDue "telegram" 0 1 60 "lease1"])).runs := by
  decide +kernel

end Xiaomaolv
