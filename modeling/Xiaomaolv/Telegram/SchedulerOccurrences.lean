import Xiaomaolv.Telegram.SchedulerTracking

/-!
# The occurrences of a job

* `Orderly`: the steps that leave no worker with a copy that is out of date.
* `tracked_exec`: they keep the invariant between the copies, the rows and the log.
* **`scheduler_occurrences`**: in orderly runs no occurrence is sent twice, no job is sent while a command
  halts it, and no run settles a job after a command on it.
-/

namespace Xiaomaolv

open Table SchedulerStore

/-! ## Orderly steps -/

/-- A step after which every worker still knows enough: the clock does not go back; a claim has a token of
its own, and takes no job that a worker is past its last check on; a command takes effect on no job that a
worker may still send, and cancels, if anything, a job that a worker is past its check on; and of a
delivered run that still has its lease, the report of its failure is not lost. -/
def Orderly (host : SchedulerHost) (s : SchedulerSystem) : SchedulerStep → Prop
  | .setClock nowUnix => s.nowUnix ≤ nowUnix
  | .claim _ channel leaseToken true =>
    (∀ j ∈ s.store.jobs, j.leaseToken ≠ some leaseToken) ∧
    ∀ k, ∀ c ∈ (s.workers k).claimed, (s.workers k).leaseToken ≠ leaseToken ∧
      (c.phase.pastCheck = true → ∀ j ∈ s.store.jobs, j.jobId = c.job.jobId →
        isClaimable channel s.nowUnix (s.store.dueJobIds channel s.nowUnix host.settings.batchSize) j
          = false)
  | .updateJob operator true => ∀ p, s.operators operator = some p →
    ∀ j ∈ s.store.jobs, isOpenFor p.channel p.chatId p.ownerUserId p.jobId j = true →
      ∀ k, ∀ c ∈ (s.workers k).claimed, c.job.jobId = j.jobId →
        (c.phase.beforeCheck = true → leaseOver s.nowUnix c.job = true) ∧
        (c.phase.pastCheck = true → p.status = .canceled)
  | .fail worker false => ∀ c rest, (s.workers worker).claimed = c :: rest →
    c.phase.delivered = true → c.job ∉ s.store.jobs
  | _ => True

/-! ## One step -/

section

variable {host : SchedulerHost} {s : SchedulerSystem}

/-- What is known of a system after orderly steps. -/
def TrackedSystem (s : SchedulerSystem) : Prop :=
  Tracked s.store.jobs s.nowUnix s.workers s.log ∧ History s.log

theorem settleRun_held {store store' : SchedulerStore} {run : SchedulerJobRun}
    {status : TelegramSchedulerJobStatus} {error : Option String} {message : String}
    (h : store.settleRun run status error message = .ok store') : ∃ j ∈ store.jobs, holds run j = true := by
  unfold settleRun at h
  simp only at h
  split_ifs at h with hcount
  by_contra hnone
  exact hcount (List.countP_eq_zero.mpr fun j hj hh => hnone ⟨j, hj, hh⟩)

theorem settleRun_not_held {store : SchedulerStore} {run : SchedulerJobRun}
    {status : TelegramSchedulerJobStatus} {error : Option String} {message e : String}
    (h : store.settleRun run status error message = .error e) :
    ∀ j ∈ store.jobs, holds run j = false := by
  unfold settleRun at h
  simp only at h
  split_ifs at h with hcount
  exact fun j hj => by simpa using List.countP_eq_zero.mp hcount j hj

variable (host) in
theorem insertJob_frame (creator millis : Nat) (stored : Bool) :
    (stepInsertJob host s creator millis stored).nowUnix = s.nowUnix ∧
    (stepInsertJob host s creator millis stored).workers = s.workers ∧
    (stepInsertJob host s creator millis stored).log = s.log := by
  unfold stepInsertJob
  split
  · exact ⟨rfl, rfl, rfl⟩
  · split
    · exact ⟨rfl, rfl, rfl⟩
    · split <;> exact ⟨rfl, rfl, rfl⟩

theorem checkQuota_frame (creator : Nat) (channel : String) (chatId : Int)
    (messageThreadId : Option Int) (ownerUserId : Int) (draft : TelegramSchedulerIntentDraft)
    (order : List String) :
    (stepCheckQuota host s creator channel chatId messageThreadId ownerUserId draft order).workers
      = s.workers := by
  simp only [stepCheckQuota]
  split_ifs <;> rfl

theorem tracked_insertJob (h : TrackedSystem s) (creator millis : Nat) (stored : Bool) :
    TrackedSystem (stepInsertJob host s creator millis stored) := by
  have hframe := insertJob_frame (s := s) host creator millis stored
  have hrewrites := rewrites_insertJob (s := s) host creator millis stored
  unfold TrackedSystem
  rw [hframe.1, hframe.2.1, hframe.2.2]
  refine ⟨?_, h.2⟩
  generalize (stepInsertJob host s creator millis stored).store.jobs = jobs at hrewrites ⊢
  cases hrewrites with
  | kept => exact h.1
  | inserted _ _ p req _ _ hfresh => exact h.1.insert hfresh rfl ⟨rfl, nofun⟩
  | settled _ _ _ _ _ _ hsettles => rcases hsettles with hstep | hstep <;> cases hstep

theorem tracked_updateJob (h : TrackedSystem s) {operator : Nat} {stored : Bool}
    (horderly : Orderly host s (.updateJob operator stored)) :
    TrackedSystem (stepUpdateJob s operator stored) := by
  unfold stepUpdateJob
  cases hp : s.operators operator with
  | none => exact h
  | some p =>
    cases stored with
    | false => exact h
    | true =>
      simp only [TrackedSystem, if_true]
      by_cases hany : (s.store.updateTelegramSchedulerJobStatus p.channel p.chatId p.ownerUserId p.jobId
          p.status).1 = true
      · rw [if_pos hany]
        exact ⟨h.1.update (horderly p hp) hany, h.2.cons trivial⟩
      · rw [if_neg hany]
        refine ⟨?_, h.2⟩
        rw [Bool.not_eq_true] at hany
        have hkept := List.any_eq_false.mp hany
        have hjobs : (s.store.updateTelegramSchedulerJobStatus p.channel p.chatId p.ownerUserId p.jobId
            p.status).2.jobs = s.store.jobs :=
          updateWhere_eq_self fun j hj => by simpa using hkept j hj
        rw [hjobs]
        exact h.1

theorem tracked_claim (h : TrackedSystem s) {worker : Nat} {channel leaseToken : String} {stored : Bool}
    (horderly : Orderly host s (.claim worker channel leaseToken stored)) :
    TrackedSystem (stepClaim host s worker channel leaseToken stored) := by
  unfold stepClaim
  split_ifs with hidle
  · obtain ⟨hidle, rfl⟩ := hidle
    refine ⟨h.1.claim (List.isEmpty_iff.mp hidle) horderly.1 horderly.2, h.2.append _ ?_⟩
    intro e he log
    obtain ⟨job, -, rfl⟩ := List.mem_map.mp he
    trivial
  · exact h

theorem tracked_start (h : TrackedSystem s) (worker : Nat) : TrackedSystem (stepStart host s worker) := by
  unfold stepStart
  split
  · next job rest hhead =>
    split_ifs
    · exact ⟨h.1.drop hhead nofun, h.2⟩
    · split
      · exact ⟨h.1.setPhase hhead nofun nofun nofun nofun, h.2⟩
      · exact ⟨h.1.setPhase hhead (fun _ => rfl) nofun nofun nofun, h.2⟩
  · exact h

theorem tracked_send (h : TrackedSystem s) (worker : Nat) (profile : Option (String × Option String))
    (reply : Except String String) : TrackedSystem (stepSend s worker profile reply) := by
  unfold stepSend
  split
  · next job startedAt rest hhead =>
    split
    · exact ⟨h.1.setPhase hhead nofun nofun nofun nofun, h.2⟩
    · split_ifs with hover
      · exact ⟨h.1.setPhase hhead nofun nofun nofun nofun, h.2⟩
      · have hover : leaseOver s.nowUnix job = false := by simpa using hover
        have hc : (⟨job, .executing startedAt⟩ : ClaimedJob) ∈ (s.workers worker).claimed := by
          rw [hhead]
          exact List.mem_cons_self
        exact ⟨(h.1.startSend hhead rfl hover).note nofun (fun _ => rfl) (fun _ _ => rfl),
          h.2.cons (h.1.sendable_faithful hc rfl hover)⟩
  · exact h

theorem tracked_sendReturns (h : TrackedSystem s) (worker : Nat) (outcome : Except String Unit) :
    TrackedSystem (stepSendReturns s worker outcome) := by
  unfold stepSendReturns
  split
  · next job startedAt rest hhead =>
    have hc : (⟨job, .sending startedAt⟩ : ClaimedJob) ∈ (s.workers worker).claimed := by
      rw [hhead]
      exact List.mem_cons_self
    split
    · have hphase : Tracked s.store.jobs s.nowUnix (Function.update s.workers worker
          { s.workers worker with claimed := ⟨job, .sent startedAt⟩ :: rest }) s.log :=
        h.1.setPhase hhead nofun (fun _ => rfl) nofun nofun
      have hc' : (⟨job, .sent startedAt⟩ : ClaimedJob) ∈ ((s.setPhase worker job (.sent startedAt)
          rest).workers worker).claimed := by
        simp [SchedulerSystem.setPhase, SchedulerSystem.setClaimed]
      exact ⟨hphase.note_sent hc' rfl rfl, h.2.cons (h.1.unsent worker _ hc rfl)⟩
    · exact ⟨h.1.setPhase hhead nofun nofun nofun nofun, h.2⟩
  · exact h

theorem tracked_complete (hforward : host.calendar.Forward) (h : TrackedSystem s) (worker : Nat)
    (stored : Bool) : TrackedSystem (stepComplete host s worker stored) := by
  unfold stepComplete
  split
  · next job startedAt rest hhead =>
    dsimp only
    split
    · next store hcompleted =>
      obtain ⟨req, hreq, hstore⟩ := bind_eq_ok.mp hcompleted
      obtain ⟨next, hrun, hnext⟩ := successReport_eq_ok hreq
      cases stored with
      | false => cases hstore
      | true =>
        have hstore := mapError_eq_ok hstore
        rw [if_pos rfl] at hstore
        have hjobs := settleRun_eq_ok hstore
        have hsettle := h.1.settle hhead req.toSchedulerJobRun
          (if req.markCompleted then .completed else .active) none
          (by rw [hrun]; rfl) (by rw [hrun]; rfl) ?_ (settleRun_held hstore)
        · refine ⟨?_, h.2.cons hsettle.2⟩
          have := hsettle.1
          rwa [← hjobs] at this
        · intro n hn
          rcases hnext with ⟨-, rfl⟩ | ⟨-, n', rfl, hlt⟩
          · rw [hrun] at hn
            cases hn
          · rw [hrun] at hn
            cases hn
            exact hlt hforward
    · exact ⟨h.1.setPhase hhead nofun (fun _ => rfl) nofun (fun _ => rfl), h.2⟩
  · exact h

theorem tracked_fail (h : TrackedSystem s) {worker : Nat} {stored : Bool}
    (horderly : Orderly host s (.fail worker stored)) :
    TrackedSystem (stepFail host s worker stored) := by
  unfold stepFail
  split
  · next job startedAt delivered error rest hhead =>
    have hc : (⟨job, .failing startedAt delivered error⟩ : ClaimedJob) ∈ (s.workers worker).claimed := by
      rw [hhead]
      exact List.mem_cons_self
    obtain ⟨next, hrun, hnext⟩ := failureReport_cases host (s.workers worker) job startedAt
      s.nowUnix error
    dsimp only
    split
    · next store hstore =>
      cases stored with
      | false => cases hstore
      | true =>
        rw [if_pos rfl] at hstore
        have hjobs := settleRun_eq_ok hstore
        have hsettle := h.1.settle hhead
          (failureReport host (s.workers worker) job startedAt s.nowUnix error).toSchedulerJobRun
          (if (failureReport host (s.workers worker) job startedAt s.nowUnix error).pauseJob
            then .paused else .active)
          (some (failureReport host (s.workers worker) job startedAt s.nowUnix error).error)
          (by rw [hrun]; rfl) (by rw [hrun]; rfl) ?_ (settleRun_held hstore)
        · refine ⟨?_, h.2.cons hsettle.2⟩
          have := hsettle.1
          rwa [← hjobs] at this
        · intro n hn
          rcases hnext with ⟨-, rfl⟩ | ⟨-, n', rfl, hlt⟩
          · rw [hrun] at hn
            cases hn
          · rw [hrun] at hn
            cases hn
            exact hlt
    · next e hstore =>
      refine ⟨h.1.drop hhead fun hdelivered => ?_, h.2⟩
      have hpast := h.1.past worker _ hc (Tracked.delivered_past hdelivered)
      -- The report would have met the row, had it reached the store.
      refine hpast.resolve_left fun hrow => ?_
      cases stored with
      | false => exact horderly _ rest hhead hdelivered hrow
      | true =>
        rw [if_pos rfl] at hstore
        have hchannel : job.channel = (s.workers worker).channel := (h.1.copies worker _ hc).channel
        have htoken : job.leaseToken = some (s.workers worker).leaseToken :=
          (h.1.copies worker _ hc).token
        have hnot := settleRun_not_held hstore job hrow
        rw [hrun] at hnot
        simp [holds, SchedulerWorker.report, hchannel, htoken] at hnot
  · exact h

theorem Tracked.notes {jobs : List TelegramSchedulerJobRecord} {nowUnix : Int}
    {workers : Nat → SchedulerWorker} {log : List SchedulerEvent} (h : Tracked jobs nowUnix workers log)
    (worker : Nat) : ∀ claimed : List ClaimedJob, Tracked jobs nowUnix workers
      (claimed.map (fun c => .abandoned worker c.job.jobId c.job.nextRunAtUnix) ++ log)
  | [] => h
  | _ :: claimed => (h.notes worker claimed).note nofun (fun _ => rfl) (fun _ _ => rfl)

theorem tracked_stop (h : TrackedSystem s) (worker : Nat) : TrackedSystem (stepStop s worker) := by
  let abandoned := (s.workers worker).claimed.map fun c =>
    SchedulerEvent.abandoned worker c.job.jobId c.job.nextRunAtUnix
  show Tracked s.store.jobs s.nowUnix
    (Function.update s.workers worker { s.workers worker with claimed := [] }) (abandoned ++ s.log) ∧
    History (abandoned ++ s.log)
  refine ⟨(h.1.notes worker (s.workers worker).claimed).advance
    (fun _ => Tracked.leaseToken_update) (fun _ => Tracked.channel_update) ?_ ?_ ?_, h.2.append _ ?_⟩
  · intro k
    by_cases hk : k = worker
    · rw [hk, Function.update_self]
      exact List.nodup_nil
    · rw [Function.update_of_ne hk]
      exact h.1.distinct k
  · intro k c hc
    rcases Tracked.mem_update hc with ⟨-, hmem⟩ | ⟨-, hold⟩
    · cases hmem
    · exact ⟨c, hold, rfl, id, id, id⟩
  · intro k c hc hd
    by_cases hk : k = worker
    · subst hk
      exact .inr (.inl (List.mem_append_left _ (List.mem_map.mpr ⟨c, hc, rfl⟩)))
    · exact .inl ⟨c, by rwa [Function.update_of_ne hk], rfl, hd⟩
  · intro e he log
    obtain ⟨c, -, rfl⟩ := List.mem_map.mp he
    trivial

/-- **Orderly steps keep what is known.** -/
theorem tracked_exec (hforward : host.calendar.Forward) (step : SchedulerStep)
    (horderly : Orderly host s step) (h : TrackedSystem s) : TrackedSystem (s.exec host step) := by
  cases step with
  | setClock nowUnix => exact ⟨h.1.setClock horderly, h.2⟩
  | checkQuota =>
    simp only [SchedulerSystem.exec, stepCheckQuota]
    split_ifs
    · exact h
    · exact h
  | insertJob creator millis stored => exact tracked_insertJob h creator millis stored
  | loadJob =>
    simp only [SchedulerSystem.exec, stepLoadJob]
    split_ifs
    · exact h
    · exact h
  | updateJob => exact tracked_updateJob h horderly
  | claim => exact tracked_claim h horderly
  | start worker => exact tracked_start h worker
  | send worker profile reply => exact tracked_send h worker profile reply
  | sendReturns worker outcome => exact tracked_sendReturns h worker outcome
  | complete worker stored => exact tracked_complete hforward h worker stored
  | fail => exact tracked_fail h horderly
  | stop worker => exact tracked_stop h worker

theorem tracked_run (hforward : host.calendar.Forward) {steps : List SchedulerStep}
    (h : Machine.Along (SchedulerSystem.exec host) (Orderly host) {} steps) :
    TrackedSystem (SchedulerSystem.run host steps) := by
  refine Machine.run_invariant (I := TrackedSystem) (fun _ step hstep => tracked_exec hforward step hstep)
    h ⟨?_, fun later event earlier heq => by cases later <;> cases heq⟩
  exact
    { keys := List.nodup_nil
      leased := fun _ hj => absurd hj List.not_mem_nil
      copies := fun _ _ hc => absurd hc List.not_mem_nil
      distinct := fun _ => List.nodup_nil
      tokens := fun _ _ _ _ hc => absurd hc List.not_mem_nil
      sendable := fun _ _ hc => absurd hc List.not_mem_nil
      past := fun _ _ hc => absurd hc List.not_mem_nil
      alone := fun _ _ _ _ hc => absurd hc List.not_mem_nil
      unsent := fun _ _ hc => absurd hc List.not_mem_nil
      delivered := fun _ _ _ hk => absurd hk List.not_mem_nil
      known := fun _ hne => absurd rfl hne
      halted := fun _ hj => absurd hj List.not_mem_nil
      stands := fun _ _ hc => absurd hc List.not_mem_nil }

end

/-- **Occurrences and commands**: in an orderly run an occurrence whose send succeeded is not sent again,
unless its worker stopped before it was settled; no send of a job starts after a command has halted it; and
a run settles its job only if no command on the job has succeeded since its claim. -/
theorem scheduler_occurrences (host : SchedulerHost) (hforward : host.calendar.Forward)
    (steps : List SchedulerStep)
    (horderly : Machine.Along (SchedulerSystem.exec host) (Orderly host) {} steps) :
    (∀ later worker jobId occurrence text earlier, (SchedulerSystem.run host steps).log
        = later ++ .sendStarted worker jobId occurrence text :: earlier →
      SentOnce jobId occurrence earlier ∧ ¬ Halted jobId earlier) ∧
    (∀ later worker jobId occurrence earlier, (SchedulerSystem.run host steps).log
        = later ++ .sendSucceeded worker jobId occurrence :: earlier →
      SentOnce jobId occurrence earlier) ∧
    (∀ later worker jobId earlier, (SchedulerSystem.run host steps).log
        = later ++ .settled worker jobId :: earlier → claimStands worker jobId earlier = true) := by
  have hhistory := (tracked_run hforward horderly).2
  refine ⟨?_, ?_, ?_⟩
  · intro later worker jobId occurrence text earlier heq
    exact hhistory _ _ _ heq
  · intro later worker jobId occurrence earlier heq
    exact hhistory _ _ _ heq
  · intro later worker jobId earlier heq
    exact hhistory _ _ _ heq

namespace Sample

/-- The worker claims at a clock, and its send succeeds. -/
def sentRound (clock : Nat) : List SchedulerStep :=
  [.setClock clock, .claim 0 "telegram" s!"lease-telegram-{clock}" true, .start 0, .send 0 none (.ok ""),
    .sendReturns 0 (.ok ())]

/-- A reminder is sent and completed. -/
def sentJob : List SchedulerStep := jobCreated 0 [] ++ sentRound 10 ++ [.complete 0 true]

/-- Neither the success nor its failure to be stored reaches the store, and the lease expires. -/
def resentJob : List SchedulerStep :=
  jobCreated 0 [] ++ sentRound 10 ++ [.complete 0 false, .fail 0 false] ++ sentRound 70

/-- The owner pauses the job while a worker has it claimed. -/
def pausedJob : List SchedulerStep :=
  jobCreated 0 [] ++ [.setClock 10, .claim 0 "telegram" "lease-telegram-10" true,
    .loadJob 0 "telegram" 1 7 .Pause "task-1-7-0", .updateJob 0 true, .start 0, .send 0 none (.ok "")]

end Sample

theorem scheduler_occurrences_sent :
    (SchedulerSystem.run (Sample.schedulerHost 64) Sample.sentJob).log =
      [.settled 0 "task-1-7-0", .sendSucceeded 0 "task-1-7-0" (some 10),
        .sendStarted 0 "task-1-7-0" (some 10) "stand up", .claimed 0 "task-1-7-0"] ∧
    claimStands 0 "task-1-7-0" [.sendSucceeded 0 "task-1-7-0" (some 10),
      .sendStarted 0 "task-1-7-0" (some 10) "stand up", .claimed 0 "task-1-7-0"] = true := by
  have hlog : (SchedulerSystem.run (Sample.schedulerHost 64) Sample.sentJob).log =
      [.settled 0 "task-1-7-0", .sendSucceeded 0 "task-1-7-0" (some 10),
        .sendStarted 0 "task-1-7-0" (some 10) "stand up", .claimed 0 "task-1-7-0"] := by
    decide +kernel
  refine ⟨hlog, ?_⟩
  refine (scheduler_occurrences (Sample.schedulerHost 64) nofun Sample.sentJob ?_).2.2 [] 0
    "task-1-7-0" _ hlog
  refine ⟨?_, trivial, trivial, ?_, ⟨?_, ?_⟩, trivial, trivial, trivial, trivial, trivial⟩
  · show (0 : Int) ≤ 0
    decide
  · show (_ : Int) ≤ 10
    decide +kernel
  · decide +kernel
  · intro k c hc
    simp only [SchedulerSystem.exec, insertJob_frame, checkQuota_frame] at hc
    cases hc

/-- A success whose two reports fail is sent again once its lease is over, by a worker that did not stop;
and a claimed job is sent after its owner has paused it. -/
theorem scheduler_occurrences_violated :
    (∃ earlier, (SchedulerSystem.run (Sample.schedulerHost 64) Sample.resentJob).log =
        [.sendSucceeded 0 "task-1-7-0" (some 10)] ++
          .sendStarted 0 "task-1-7-0" (some 10) "stand up" :: earlier ∧
      ¬ SentOnce "task-1-7-0" (some 10) earlier) ∧
    (∃ earlier, (SchedulerSystem.run (Sample.schedulerHost 64) Sample.pausedJob).log =
        [] ++ .sendStarted 0 "task-1-7-0" (some 10) "stand up" :: earlier ∧
      Halted "task-1-7-0" earlier) := by
  refine ⟨⟨[.claimed 0 "task-1-7-0", .sendSucceeded 0 "task-1-7-0" (some 10),
    .sendStarted 0 "task-1-7-0" (some 10) "stand up", .claimed 0 "task-1-7-0"], by decide +kernel, ?_⟩,
    ⟨[.updated "task-1-7-0" .paused, .claimed 0 "task-1-7-0"], by decide +kernel, .paused, rfl, nofun⟩⟩
  intro h
  have habandoned := h 0 (by decide)
  revert habandoned
  decide

end Xiaomaolv
