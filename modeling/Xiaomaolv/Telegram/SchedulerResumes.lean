import Xiaomaolv.Telegram.SchedulerSystem

/-!
# Active jobs run again

* `Rewrites.forall_jobs`: what every rewriting step keeps holds of every job.
* `LeasedWell`: leases are whole, and only active jobs have one.
* `Scheduled`: an active job has a next run; `ResumesScheduled`: the resumes that keep it so.
* **`no_zombie_jobs`**: exactly along the resumes of jobs that have a next run, every active job without a
  lease is claimed once its time has come.
-/

namespace Xiaomaolv

open Table SchedulerStore

section

variable {host : SchedulerHost} {s : SchedulerSystem}

/-- A property of jobs that every rewriting step keeps. -/
theorem Rewrites.forall_jobs {P : TelegramSchedulerJobRecord → Prop} {step : SchedulerStep}
    {jobs : List TelegramSchedulerJobRecord} (h : Rewrites host s step jobs)
    (hP : ∀ j ∈ s.store.jobs, P j)
    (hinserted : ∀ p : PendingCreation, ∀ millis req, jobFromDraft host.calendar host.codec p.channel
      p.chatId p.messageThreadId p.ownerUserId p.draft s.nowUnix millis = .ok req → P { req with })
    (hupdated : ∀ operator p, step = .updateJob operator true → s.operators operator = some p →
      ∀ j ∈ s.store.jobs, isOpenFor p.channel p.chatId p.ownerUserId p.jobId j = true →
        P (setStatus p.status j))
    (hclaimed : ∀ channel leaseToken leaseUntil, ∀ j ∈ s.store.jobs, j.status = .active →
      isDue channel s.nowUnix j = true → P (grantLease leaseToken leaseUntil j))
    (hsettled : ∀ worker job run status error, Reports host s worker job run status →
      ∀ j ∈ s.store.jobs, holds run j = true → P (settleJob run status error j)) :
    ∀ j ∈ jobs, P j := by
  cases h with
  | kept => exact hP
  | inserted creator millis p req _ hreq _ =>
    intro j hj
    rcases List.mem_append.mp hj with hj | hj
    · exact hP j hj
    · rw [List.mem_singleton.mp hj]
      exact hinserted p millis req hreq
  | updated operator p hp =>
    intro j hj
    obtain ⟨j₀, hj₀, rfl⟩ := mem_updateWhere.mp hj
    split_ifs with hopen
    · exact hupdated operator p rfl hp j₀ hj₀ hopen
    · exact hP j₀ hj₀
  | claimed worker channel leaseToken _ =>
    intro j hj
    obtain ⟨j₀, hj₀, rfl⟩ := mem_updateWhere.mp hj
    split_ifs with hclaimable
    · obtain ⟨hactive, hdue⟩ := claimable_due hj₀ hclaimable
      exact hclaimed channel _ _ j₀ hj₀ hactive hdue
    · exact hP j₀ hj₀
  | settled _ worker job run status error _ hreports =>
    intro j hj
    obtain ⟨j₀, hj₀, rfl⟩ := mem_updateWhere.mp hj
    split_ifs with hholds
    · exact hsettled worker job run status error hreports j₀ hj₀ hholds
    · exact hP j₀ hj₀

/-! ## Leases -/

/-- A lease has a token and an expiry, and only an active job has one. -/
def LeasedWell (j : TelegramSchedulerJobRecord) : Prop :=
  j.leaseToken.isSome = j.leaseUntilUnix.isSome ∧ (j.leaseToken.isSome → j.status = .active)

theorem leasedWell_exec (step : SchedulerStep) (h : ∀ j ∈ s.store.jobs, LeasedWell j) :
    ∀ j ∈ (s.exec host step).store.jobs, LeasedWell j := by
  refine (rewrites_exec host step).forall_jobs h ?_ ?_ ?_ ?_
  · exact fun _ _ _ _ => ⟨rfl, nofun⟩
  · exact fun _ _ _ _ _ _ _ => ⟨rfl, nofun⟩
  · exact fun _ _ _ _ _ hactive _ => ⟨rfl, fun _ => hactive⟩
  · exact fun _ _ _ _ _ _ _ _ _ => ⟨rfl, nofun⟩

theorem leasedWell_run (steps : List SchedulerStep) :
    ∀ j ∈ (SchedulerSystem.run host steps).store.jobs, LeasedWell j :=
  Machine.run_invariant' (I := fun s : SchedulerSystem => ∀ j ∈ s.store.jobs, LeasedWell j)
    (fun _ step h => leasedWell_exec step h) (by simp [SchedulerStore.empty])

/-! ## Next runs -/

/-- The job has a next run if it is active. -/
def Scheduled (j : TelegramSchedulerJobRecord) : Prop := j.status = .active → j.nextRunAtUnix.isSome

/-- A resume that reaches the store finds a next run in the job that it resumes. -/
def ResumesScheduled (s : SchedulerSystem) (step : SchedulerStep) : Prop :=
  ∀ operator p, step = .updateJob operator true → s.operators operator = some p →
    p.status = .active → ∀ j ∈ s.store.jobs,
      isOpenFor p.channel p.chatId p.ownerUserId p.jobId j = true → j.nextRunAtUnix.isSome

theorem scheduled_exec (step : SchedulerStep) (hstep : ResumesScheduled s step)
    (h : ∀ j ∈ s.store.jobs, Scheduled j) : ∀ j ∈ (s.exec host step).store.jobs, Scheduled j := by
  refine (rewrites_exec host step).forall_jobs h ?_ ?_ ?_ ?_
  · intro p millis req hreq _
    exact (jobFromDraft_scheduled hreq).2.1
  · intro operator p hupdate hp j hj hopen hactive
    exact hstep operator p hupdate hp hactive j hj hopen
  · intro channel leaseToken leaseUntil j hj hactive _ _
    exact h j hj hactive
  · intro worker job run status error hreports j hj _ hactive
    rcases hreports.status with ⟨-, next, hnext, -⟩ | ⟨hstatus | hstatus, -⟩
    · show run.nextRunAtUnix.isSome
      rw [hnext, Option.isSome_some]
    · cases hstatus.symm.trans hactive
    · cases hstatus.symm.trans hactive

/-! ## Jobs that will run -/

/-- The job has a next run, and every claim from then on hands it out, or finds as many due jobs as it may
take that are not after it. -/
def WillRun (s : SchedulerStore) (j : TelegramSchedulerJobRecord) : Prop :=
  ∃ next, j.nextRunAtUnix = some next ∧ ∀ now limit leaseSecs leaseToken, next ≤ now →
    grantLease leaseToken (now + max leaseSecs 1) j ∈
        (s.claimDueTelegramSchedulerJobs j.channel now limit leaseSecs leaseToken).1 ∨
      max limit 1 ≤
        (s.jobs.filter fun k => isDue j.channel now k && decide (runsBefore k j)).length

/-- Every active job without a lease will run. -/
def NoZombies (s : SchedulerStore) : Prop :=
  ∀ j ∈ s.jobs, j.status = .active → j.leaseToken = none → WillRun s j

theorem noZombies_of_scheduled {s : SchedulerStore} (hleased : ∀ j ∈ s.jobs, LeasedWell j)
    (h : ∀ j ∈ s.jobs, Scheduled j) : NoZombies s := by
  intro j hj hactive htoken
  obtain ⟨next, hnext⟩ := Option.isSome_iff_exists.mp (h j hj hactive)
  refine ⟨next, hnext, fun now limit leaseSecs leaseToken hnow => ?_⟩
  have huntil : j.leaseUntilUnix = none := by
    have hwhole := (hleased j hj).1
    rw [htoken] at hwhole
    simpa using hwhole.symm
  have hdue : isDue j.channel now j = true := by
    simp [isDue, leaseFree, hactive, hnext, huntil, hnow]
  rcases due_or_full limit hj hdue with hid | hfull
  · exact .inl (claimed_of_due hj hdue hid)
  · exact .inr hfull

theorem resumesScheduled_of_noZombies {step : SchedulerStep}
    (h : NoZombies (s.exec host step).store) : ResumesScheduled s step := by
  rintro operator p rfl hp hactive j hj hopen
  have hjobs : (s.exec host (.updateJob operator true)).store.jobs = updateWhere
      (isOpenFor p.channel p.chatId p.ownerUserId p.jobId) (setStatus p.status) s.store.jobs := by
    simp only [SchedulerSystem.exec, stepUpdateJob, hp]
    rfl
  have hmem : setStatus p.status j ∈ (s.exec host (.updateJob operator true)).store.jobs := by
    rw [hjobs]
    exact mem_updateWhere.mpr ⟨j, hj, if_pos hopen⟩
  obtain ⟨next, hnext, -⟩ := h _ hmem hactive rfl
  exact Option.isSome_iff_exists.mpr ⟨next, hnext⟩

end

/-- **No zombie jobs**: a run leaves in none of its states an active job that holds no lease and will not
run, exactly when every resume in it finds a next run in its job. -/
theorem no_zombie_jobs (host : SchedulerHost) (steps : List SchedulerStep) :
    (∀ l r, steps = l ++ r → NoZombies (SchedulerSystem.run host l).store) ↔
      Machine.Along (SchedulerSystem.exec host) ResumesScheduled {} steps := by
  constructor
  · intro h
    rw [Machine.along_iff]
    rintro l step r rfl
    have hzombies := h (l ++ [step]) r (by simp)
    rw [SchedulerSystem.run, Machine.run_concat] at hzombies
    exact resumesScheduled_of_noZombies hzombies
  · rintro h l r rfl
    have hscheduled : ∀ j ∈ (SchedulerSystem.run host l).store.jobs, Scheduled j :=
      Machine.run_invariant (I := fun s : SchedulerSystem => ∀ j ∈ s.store.jobs, Scheduled j)
        (fun _ step hstep => scheduled_exec step hstep) (Machine.along_append.mp h).1
        (by simp [SchedulerStore.empty])
    exact noZombies_of_scheduled (leasedWell_run l) hscheduled

namespace Sample

def onceDraft : TelegramSchedulerIntentDraft where
  taskKind := .reminder
  scheduleKind := .once
  payload := "stand up"
  timezone := "UTC"
  runAtUnix := some 10
  cronExpr := none

def oncePolicy : SchedulerPolicy := { trigger := .once 10 "UTC" }

def oncePolicyJson : String :=
  "\x7b\"version\":\"1.0\",\"trigger\":\x7b\"kind\":\"once\",\"run_at_unix\":10," ++
    "\"timezone\":\"UTC\"\x7d,\"execution\":\x7b\"max_failure_streak_before_pause\":8," ++
    "\"backoff\":\x7b\"strategy\":\"exponential\",\"base_secs\":1,\"max_secs\":300\x7d\x7d\x7d"

/-- A scheduler of one-time jobs. -/
def schedulerHost (maxJobsPerOwner : Nat) : SchedulerHost where
  settings := { batchSize := 8, leaseSecs := 60, defaultTimezone := "UTC", maxJobsPerOwner }
  calendar :=
    { timezone := fun timezone => timezone = "UTC"
      schedule := fun _ => false
      isMoment := fun _ _ => true
      after := fun _ _ _ => none }
  codec :=
    { decode := fun raw => if raw = oncePolicyJson then .ok oncePolicy else .error "unknown policy"
      encode := fun policy => if policy = oncePolicy then .ok oncePolicyJson else .error "unknown policy" }

/-- A job of owner 7 is created at a clock. -/
def jobCreated (clock : Nat) (listed : List String) : List SchedulerStep :=
  [.setClock clock, .checkQuota 0 "telegram" 1 none 7 onceDraft listed, .insertJob 0 clock true]

/-- A round of the worker at a clock, in which the send fails. -/
def failedRound (clock : Nat) : List SchedulerStep :=
  [.setClock clock, .claim 0 "telegram" s!"lease-telegram-{clock}" true, .start 0, .send 0 none (.ok ""),
    .sendReturns 0 (.error "connection refused"), .fail 0 true]

/-- Eight failed rounds pause the job, and its owner resumes it. -/
def resumedJob : List SchedulerStep :=
  jobCreated 0 [] ++ [10, 400, 800, 1200, 1600, 2000, 2400, 2800].flatMap failedRound ++
    [.loadJob 0 "telegram" 1 7 .Resume "task-1-7-0", .updateJob 0 true]

end Sample

/-- A job that the failures of its runs have paused has no next run, and a resume does not give it one. -/
theorem no_zombie_jobs_resumed :
    ¬ NoZombies (SchedulerSystem.run (Sample.schedulerHost 64) Sample.resumedJob).store := by
  intro h
  have hjobs : ((SchedulerSystem.run (Sample.schedulerHost 64) Sample.resumedJob).store.jobs.map
      fun j => (j.status, j.leaseToken, j.nextRunAtUnix)) = [(.active, none, none)] := by
    decide +kernel
  obtain ⟨j, hj, heq⟩ := List.mem_map.mp (hjobs ▸ List.mem_singleton_self _)
  simp only [Prod.mk.injEq] at heq
  obtain ⟨next, hnext, -⟩ := h j hj heq.1 heq.2.1
  rw [heq.2.2] at hnext
  cases hnext

end Xiaomaolv
