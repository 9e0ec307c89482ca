import Xiaomaolv.Telegram.SchedulerQuota

/-!
# Copies, rows and the log

Workers know a job by the copy that their claim returned. An occurrence of a job is one value of its
`next_run_at_unix`.

* `SentOnce`, `Halted`, `claimStands`: what the log says about an occurrence, a job, and a claim.
* `Tracked`: the invariant between the copies, the rows and the log.
* `Tracked.setPhase`, `Tracked.startSend`, **`Tracked.settle`**, **`Tracked.update`**,
  **`Tracked.claim`**: what keeps it.
-/

namespace Xiaomaolv

open Table SchedulerStore

/-! ## The log -/

/-- Every success of the occurrence in the log is of a worker that stopped before it was settled. -/
def SentOnce (jobId : String) (occurrence : Option Int) (log : List SchedulerEvent) : Prop :=
  ∀ k, .sendSucceeded k jobId occurrence ∈ log → .abandoned k jobId occurrence ∈ log

/-- The status that the last successful command on the job wrote. -/
def lastUpdate (jobId : String) : List SchedulerEvent → Option TelegramSchedulerJobStatus
  | [] => none
  | .updated id status :: log => if id = jobId then some status else lastUpdate jobId log
  | _ :: log => lastUpdate jobId log

/-- The last successful command on the job was a pause or a cancel. -/
def Halted (jobId : String) (log : List SchedulerEvent) : Prop :=
  ∃ status, lastUpdate jobId log = some status ∧ status ≠ .active

/-- The worker has claimed the job, and no command on it has succeeded since. -/
def claimStands (worker : Nat) (jobId : String) : List SchedulerEvent → Bool
  | [] => false
  | .claimed k id :: log => if k = worker ∧ id = jobId then true else claimStands worker jobId log
  | .updated id _ :: log => if id = jobId then false else claimStands worker jobId log
  | _ :: log => claimStands worker jobId log

/-- What an event may follow. -/
def Faithful (log : List SchedulerEvent) : SchedulerEvent → Prop
  | .sendStarted _ jobId occurrence _ => SentOnce jobId occurrence log ∧ ¬ Halted jobId log
  | .sendSucceeded _ jobId occurrence => SentOnce jobId occurrence log
  | .settled worker jobId => claimStands worker jobId log = true
  | _ => True

/-- Every event is faithful to the log before it. -/
def History (log : List SchedulerEvent) : Prop :=
  ∀ later event earlier, log = later ++ event :: earlier → Faithful earlier event

theorem History.cons {log : List SchedulerEvent} {event : SchedulerEvent} (h : History log)
    (hevent : Faithful log event) : History (event :: log) := by
  intro later e earlier heq
  cases later with
  | nil =>
    cases heq
    exact hevent
  | cons e' later =>
    rw [List.cons_append, List.cons.injEq] at heq
    exact h later e earlier heq.2

theorem History.append {log : List SchedulerEvent} (h : History log) :
    ∀ events : List SchedulerEvent, (∀ e ∈ events, ∀ log, Faithful log e) → History (events ++ log)
  | [], _ => h
  | e :: events, he =>
    (h.append events fun e' he' => he e' (List.mem_cons_of_mem _ he')).cons
      (he e List.mem_cons_self _)

theorem sentOnce_cons {jobId : String} {occurrence : Option Int} {log : List SchedulerEvent}
    {event : SchedulerEvent} (hevent : ∀ k, event ≠ .sendSucceeded k jobId occurrence)
    (h : SentOnce jobId occurrence log) : SentOnce jobId occurrence (event :: log) := by
  intro k hk
  rcases List.mem_cons.mp hk with hk | hk
  · exact absurd hk.symm (hevent k)
  · exact List.mem_cons_of_mem _ (h k hk)

theorem lastUpdate_claimed (worker : Nat) (jobId : String) (log : List SchedulerEvent) :
    ∀ jobs : List TelegramSchedulerJobRecord,
      lastUpdate jobId (jobs.map (fun j => .claimed worker j.jobId) ++ log) = lastUpdate jobId log
  | [] => rfl
  | _ :: jobs => lastUpdate_claimed worker jobId log jobs

theorem claimStands_claimed {worker : Nat} {jobId : String} (log : List SchedulerEvent) :
    ∀ {jobs : List TelegramSchedulerJobRecord}, (∃ j ∈ jobs, j.jobId = jobId) →
      claimStands worker jobId (jobs.map (fun j => .claimed worker j.jobId) ++ log) = true
  | [], ⟨_, hj, _⟩ => by cases hj
  | j :: jobs, ⟨j', hj', hid⟩ => by
    by_cases hsame : j.jobId = jobId
    · simp [claimStands, hsame]
    · have hrest : j' ∈ jobs := by
        rcases List.mem_cons.mp hj' with rfl | h
        · exact absurd hid hsame
        · exact h
      simpa [claimStands, hsame] using claimStands_claimed log ⟨j', hrest, hid⟩

theorem claimStands_other {worker k : Nat} {jobId : String} {log : List SchedulerEvent} (hk : k ≠ worker) :
    ∀ jobs : List TelegramSchedulerJobRecord,
      claimStands worker jobId (jobs.map (fun j => .claimed k j.jobId) ++ log)
        = claimStands worker jobId log
  | [] => rfl
  | j :: jobs => by simpa [claimStands, hk] using claimStands_other hk jobs

/-! ## Phases -/

namespace RunPhase

/-- The lease is still to be checked before the send. -/
def beforeCheck : RunPhase → Bool
  | claimed | executing _ => true
  | _ => false

def isSending : RunPhase → Bool
  | sending _ => true
  | _ => false

/-- The send has succeeded, and its run is not yet settled. -/
def delivered : RunPhase → Bool
  | sent _ => true
  | failing _ delivered _ => delivered
  | _ => false

/-- The last check of the lease is over. -/
def pastCheck (phase : RunPhase) : Bool := phase.isSending || phase.delivered

end RunPhase

/-! ## The invariant -/

/-- A copy as a claim of the worker returned it. -/
structure IsCopy (nowUnix : Int) (w : SchedulerWorker) (job : TelegramSchedulerJobRecord) : Prop where
  token : job.leaseToken = some w.leaseToken
  channel : job.channel = w.channel
  active : job.status = .active
  leased : ∃ leaseUntil, job.leaseUntilUnix = some leaseUntil
  due : ∃ next, job.nextRunAtUnix = some next ∧ next ≤ nowUnix

/-- The row of the job is canceled. -/
def RowCanceled (jobs : List TelegramSchedulerJobRecord) (jobId : String) : Prop :=
  ∃ j ∈ jobs, j.jobId = jobId ∧ j.status = .canceled

/-- The row of the job is canceled, or its next run is after `time`. -/
def RowPast (jobs : List TelegramSchedulerJobRecord) (jobId : String) (time : Int) : Prop :=
  ∃ j ∈ jobs, j.jobId = jobId ∧ (j.status = .canceled ∨ ∀ next, j.nextRunAtUnix = some next → time < next)

/-- What is known of the rows, the clock, the workers and the log after orderly steps. -/
structure Tracked (jobs : List TelegramSchedulerJobRecord) (nowUnix : Int) (workers : Nat → SchedulerWorker)
    (log : List SchedulerEvent) : Prop where
  keys : (jobs.map fun j => j.jobId).Nodup
  leased : ∀ j ∈ jobs, LeasedWell j
  /-- What a worker holds are copies of its claim, of distinct jobs, under a token of its own. -/
  copies : ∀ k, ∀ c ∈ (workers k).claimed, IsCopy nowUnix (workers k) c.job
  distinct : ∀ k, ((workers k).claimed.map fun c => c.job.jobId).Nodup
  tokens : ∀ k k' c c', c ∈ (workers k).claimed → c' ∈ (workers k').claimed →
    (workers k).leaseToken = (workers k').leaseToken → k = k'
  /-- A copy that can still be sent, or that is past its check, is the row itself. -/
  sendable : ∀ k, ∀ c ∈ (workers k).claimed, c.phase.beforeCheck = true →
    leaseOver nowUnix c.job = false → c.job ∈ jobs
  past : ∀ k, ∀ c ∈ (workers k).claimed, c.phase.pastCheck = true →
    c.job ∈ jobs ∨ RowCanceled jobs c.job.jobId
  /-- One worker at most is past its check on a job. -/
  alone : ∀ k k' c c', c ∈ (workers k).claimed → c' ∈ (workers k').claimed →
    c.phase.pastCheck = true → c'.phase.pastCheck = true → c.job.jobId = c'.job.jobId → k = k'
  /-- What is being sent has not been sent. -/
  unsent : ∀ k, ∀ c ∈ (workers k).claimed, c.phase.isSending = true →
    SentOnce c.job.jobId c.job.nextRunAtUnix log
  /-- A sent occurrence is abandoned, or in the hand of its worker, or over. -/
  delivered : ∀ k jobId occurrence, .sendSucceeded k jobId occurrence ∈ log →
    .abandoned k jobId occurrence ∈ log ∨ ∃ time, occurrence = some time ∧ time ≤ nowUnix ∧
      ((∃ c ∈ (workers k).claimed, c.job.jobId = jobId ∧ c.job.nextRunAtUnix = occurrence ∧
        c.phase.delivered = true) ∨ RowPast jobs jobId time)
  known : ∀ jobId, lastUpdate jobId log ≠ none → ∃ j ∈ jobs, j.jobId = jobId
  halted : ∀ j ∈ jobs, Halted j.jobId log → j.status ≠ .active
  /-- A row under the token of a worker's claim is under that claim. -/
  stands : ∀ k, ∀ c ∈ (workers k).claimed, ∀ j ∈ jobs, j.jobId = c.job.jobId →
    j.leaseToken = some (workers k).leaseToken → claimStands k j.jobId log = true

namespace Tracked

variable {jobs : List TelegramSchedulerJobRecord} {nowUnix : Int} {workers : Nat → SchedulerWorker}
  {log : List SchedulerEvent}

theorem eq_of_token (h : Tracked jobs nowUnix workers log) {k k' : Nat} {c c' : ClaimedJob}
    (hc : c ∈ (workers k).claimed) (hc' : c' ∈ (workers k').claimed)
    (htoken : c.job.leaseToken = c'.job.leaseToken) (hid : c.job.jobId = c'.job.jobId) :
    k = k' ∧ c = c' := by
  have hk : k = k' := by
    rw [(h.copies k c hc).token, (h.copies k' c' hc').token] at htoken
    exact h.tokens k k' c c' hc hc' (Option.some.inj htoken)
  subst hk
  exact ⟨rfl, eq_of_key_eq (h.distinct k) hc hc' hid⟩

theorem eq_of_alone (h : Tracked jobs nowUnix workers log) {k k' : Nat} {c c' : ClaimedJob}
    (hc : c ∈ (workers k).claimed) (hc' : c' ∈ (workers k').claimed)
    (hpast : c.phase.pastCheck = true) (hpast' : c'.phase.pastCheck = true)
    (hid : c.job.jobId = c'.job.jobId) : k = k' ∧ c = c' := by
  have hk := h.alone k k' c c' hc hc' hpast hpast' hid
  subst hk
  exact ⟨rfl, eq_of_key_eq (h.distinct k) hc hc' hid⟩

theorem delivered_past {phase : RunPhase} (h : phase.delivered = true) : phase.pastCheck = true := by
  rw [RunPhase.pastCheck, h, Bool.or_true]

/-! ### Events and the clock -/

theorem note (h : Tracked jobs nowUnix workers log) {event : SchedulerEvent}
    (hsent : ∀ k jobId occurrence, event ≠ .sendSucceeded k jobId occurrence)
    (hlast : ∀ jobId, lastUpdate jobId (event :: log) = lastUpdate jobId log)
    (hclaim : ∀ k jobId, claimStands k jobId (event :: log) = claimStands k jobId log) :
    Tracked jobs nowUnix workers (event :: log) where
  keys := h.keys
  leased := h.leased
  copies := h.copies
  distinct := h.distinct
  tokens := h.tokens
  sendable := h.sendable
  past := h.past
  alone := h.alone
  unsent := fun k c hc hsending => sentOnce_cons (fun k' => hsent k' _ _) (h.unsent k c hc hsending)
  delivered := by
    intro k jobId occurrence hk
    rcases List.mem_cons.mp hk with hk | hk
    · exact absurd hk.symm (hsent _ _ _)
    · exact (h.delivered k jobId occurrence hk).imp_left (List.mem_cons_of_mem _)
  known := fun jobId hid => h.known jobId (by rwa [hlast] at hid)
  halted := fun j hj ⟨status, hstatus, hne⟩ => h.halted j hj ⟨status, by rwa [hlast] at hstatus, hne⟩
  stands := fun k c hc j hj hid htoken => by
    rw [hclaim]
    exact h.stands k c hc j hj hid htoken

/-- A success of the run that a worker is sending. -/
theorem note_sent (h : Tracked jobs nowUnix workers log) {k : Nat} {c : ClaimedJob}
    (hc : c ∈ (workers k).claimed) (hphase : c.phase.delivered = true) (hsending : c.phase.isSending = false) :
    Tracked jobs nowUnix workers (.sendSucceeded k c.job.jobId c.job.nextRunAtUnix :: log) where
  keys := h.keys
  leased := h.leased
  copies := h.copies
  distinct := h.distinct
  tokens := h.tokens
  sendable := h.sendable
  past := h.past
  alone := h.alone
  unsent := by
    intro k' c' hc' hsending'
    refine sentOnce_cons (fun k'' heq => ?_) (h.unsent k' c' hc' hsending')
    -- Another send of the job would be past its check with this one.
    simp only [SchedulerEvent.sendSucceeded.injEq] at heq
    have hpast' : c'.phase.pastCheck = true := by rw [RunPhase.pastCheck, hsending', Bool.true_or]
    obtain ⟨-, rfl⟩ := h.eq_of_alone hc hc' (delivered_past hphase) hpast' heq.2.1
    rw [hsending] at hsending'
    cases hsending'
  delivered := by
    intro k' jobId occurrence hk'
    rcases List.mem_cons.mp hk' with heq | hk'
    · cases heq
      obtain ⟨time, htime, hle⟩ := (h.copies k c hc).due
      exact .inr ⟨time, htime, hle, .inl ⟨c, hc, rfl, rfl, hphase⟩⟩
    · exact (h.delivered k' jobId occurrence hk').imp_left (List.mem_cons_of_mem _)
  known := h.known
  halted := h.halted
  stands := h.stands

theorem setClock (h : Tracked jobs nowUnix workers log) {nowUnix' : Int} (hle : nowUnix ≤ nowUnix') :
    Tracked jobs nowUnix' workers log where
  keys := h.keys
  leased := h.leased
  copies := fun k c hc => by
    obtain ⟨next, hnext, hdue⟩ := (h.copies k c hc).due
    exact { h.copies k c hc with due := ⟨next, hnext, hdue.trans hle⟩ }
  distinct := h.distinct
  tokens := h.tokens
  sendable := fun k c hc hbefore hover => by
    refine h.sendable k c hc hbefore ?_
    obtain ⟨leaseUntil, huntil⟩ := (h.copies k c hc).leased
    simp only [leaseOver, huntil, Option.any_some, decide_eq_false_iff_not] at hover ⊢
    omega
  past := h.past
  alone := h.alone
  unsent := h.unsent
  delivered := fun k jobId occurrence hk => by
    refine (h.delivered k jobId occurrence hk).imp_right ?_
    rintro ⟨time, htime, hdue, hwhere⟩
    exact ⟨time, htime, hdue.trans hle, hwhere⟩
  known := h.known
  halted := h.halted
  stands := h.stands

/-! ### Workers -/

/-- The workers go on without the store: what they hold they have held, no earlier in its run, and what was
delivered is still held, or over, or abandoned. -/
theorem advance (h : Tracked jobs nowUnix workers log) {workers' : Nat → SchedulerWorker}
    (htoken : ∀ k, (workers' k).leaseToken = (workers k).leaseToken)
    (hchannel : ∀ k, (workers' k).channel = (workers k).channel)
    (hdistinct : ∀ k, ((workers' k).claimed.map fun c => c.job.jobId).Nodup)
    (hback : ∀ k, ∀ c' ∈ (workers' k).claimed, ∃ c ∈ (workers k).claimed, c.job = c'.job ∧
      (c'.phase.beforeCheck = true → c.phase.beforeCheck = true) ∧
      (c'.phase.pastCheck = true → c.phase.pastCheck = true) ∧
      (c'.phase.isSending = true → c.phase.isSending = true))
    (hforth : ∀ k, ∀ c ∈ (workers k).claimed, c.phase.delivered = true →
      (∃ c' ∈ (workers' k).claimed, c'.job = c.job ∧ c'.phase.delivered = true) ∨
      .abandoned k c.job.jobId c.job.nextRunAtUnix ∈ log ∨ RowCanceled jobs c.job.jobId) :
    Tracked jobs nowUnix workers' log where
  keys := h.keys
  leased := h.leased
  copies := fun k c' hc' => by
    obtain ⟨c, hc, hjob, -⟩ := hback k c' hc'
    have hcopy := h.copies k c hc
    rw [hjob] at hcopy
    exact { hcopy with
      token := by rw [htoken]; exact hcopy.token
      channel := by rw [hchannel]; exact hcopy.channel }
  distinct := hdistinct
  tokens := by
    intro k k' c₁ c₂ hc₁ hc₂ heq
    obtain ⟨c, hc, -⟩ := hback k c₁ hc₁
    obtain ⟨c', hc', -⟩ := hback k' c₂ hc₂
    rw [htoken, htoken] at heq
    exact h.tokens k k' c c' hc hc' heq
  sendable := by
    intro k c' hc' hbefore hover
    obtain ⟨c, hc, hjob, hb, -⟩ := hback k c' hc'
    rw [← hjob] at hover ⊢
    exact h.sendable k c hc (hb hbefore) hover
  past := by
    intro k c' hc' hpast
    obtain ⟨c, hc, hjob, -, hp, -⟩ := hback k c' hc'
    rw [← hjob]
    exact h.past k c hc (hp hpast)
  alone := by
    intro k k' c₁ c₂ hc₁ hc₂ hp₁ hp₂ hid
    obtain ⟨c, hc, hjob, -, hp, -⟩ := hback k c₁ hc₁
    obtain ⟨c', hc', hjob', -, hp', -⟩ := hback k' c₂ hc₂
    exact h.alone k k' c c' hc hc' (hp hp₁) (hp' hp₂) (by rw [hjob, hjob', hid])
  unsent := by
    intro k c' hc' hsending
    obtain ⟨c, hc, hjob, -, -, hs⟩ := hback k c' hc'
    rw [← hjob]
    exact h.unsent k c hc (hs hsending)
  delivered := by
    intro k jobId occurrence hk
    rcases h.delivered k jobId occurrence hk with hab | ⟨time, rfl, hle, ⟨c, hc, rfl, hnext, hd⟩ | hrow⟩
    · exact .inl hab
    · rcases hforth k c hc hd with ⟨c', hc', hjob, hd'⟩ | hab | ⟨j, hj, hid, hcanceled⟩
      · exact .inr ⟨time, rfl, hle, .inl ⟨c', hc', by rw [hjob], by rw [hjob, hnext], hd'⟩⟩
      · rw [hnext] at hab
        exact .inl hab
      · exact .inr ⟨time, rfl, hle, .inr ⟨j, hj, hid, .inl hcanceled⟩⟩
    · exact .inr ⟨time, rfl, hle, .inr hrow⟩
  known := h.known
  halted := h.halted
  stands := by
    intro k c' hc' j hj hid htok
    obtain ⟨c, hc, hjob, -⟩ := hback k c' hc'
    rw [htoken] at htok
    exact h.stands k c hc j hj (by rw [hid, hjob]) htok

theorem mem_update {w : SchedulerWorker} {k k' : Nat} {c : ClaimedJob}
    (hc : c ∈ (Function.update workers k w k').claimed) :
    (k' = k ∧ c ∈ w.claimed) ∨ (k' ≠ k ∧ c ∈ (workers k').claimed) := by
  by_cases hk : k' = k
  · subst hk
    rw [Function.update_self] at hc
    exact .inl ⟨rfl, hc⟩
  · rw [Function.update_of_ne hk] at hc
    exact .inr ⟨hk, hc⟩

theorem leaseToken_update {k k' : Nat} {claimed : List ClaimedJob} :
    (Function.update workers k { workers k with claimed } k').leaseToken = (workers k').leaseToken := by
  by_cases hk : k' = k
  · rw [hk, Function.update_self]
  · rw [Function.update_of_ne hk]

theorem channel_update {k k' : Nat} {claimed : List ClaimedJob} :
    (Function.update workers k { workers k with claimed } k').channel = (workers k').channel := by
  by_cases hk : k' = k
  · rw [hk, Function.update_self]
  · rw [Function.update_of_ne hk]

theorem isCopy_update {k k' : Nat} {claimed : List ClaimedJob} {job : TelegramSchedulerJobRecord}
    (h : IsCopy nowUnix (workers k') job) :
    IsCopy nowUnix (Function.update workers k { workers k with claimed } k') job :=
  { h with
    token := by rw [leaseToken_update]; exact h.token
    channel := by rw [channel_update]; exact h.channel }

/-- The job in hand goes on in its run, without a check of the lease and without the store. -/
theorem setPhase (h : Tracked jobs nowUnix workers log) {k : Nat} {job : TelegramSchedulerJobRecord}
    {phase phase' : RunPhase} {rest : List ClaimedJob}
    (hhead : (workers k).claimed = ⟨job, phase⟩ :: rest)
    (hbefore : phase'.beforeCheck = true → phase.beforeCheck = true)
    (hpast : phase'.pastCheck = true → phase.pastCheck = true)
    (hsending : phase'.isSending = true → phase.isSending = true)
    (hdelivered : phase.delivered = true → phase'.delivered = true) :
    Tracked jobs nowUnix
      (Function.update workers k { workers k with claimed := ⟨job, phase'⟩ :: rest }) log := by
  refine h.advance (fun _ => leaseToken_update) (fun _ => channel_update) ?_ ?_ ?_
  · intro k'
    by_cases hk : k' = k
    · subst hk
      have := h.distinct k'
      rw [hhead] at this
      rwa [Function.update_self]
    · rw [Function.update_of_ne hk]
      exact h.distinct k'
  · intro k' c' hc'
    rcases mem_update hc' with ⟨rfl, hc'⟩ | ⟨-, hc'⟩
    · rcases List.mem_cons.mp hc' with rfl | hc'
      · exact ⟨⟨job, phase⟩, by rw [hhead]; exact List.mem_cons_self, rfl, hbefore, hpast, hsending⟩
      · exact ⟨c', by rw [hhead]; exact List.mem_cons_of_mem _ hc', rfl, id, id, id⟩
    · exact ⟨c', hc', rfl, id, id, id⟩
  · intro k' c hc hd
    by_cases hk : k' = k
    · subst hk
      rw [hhead] at hc
      rw [Function.update_self]
      rcases List.mem_cons.mp hc with rfl | hc
      · exact .inl ⟨⟨job, phase'⟩, List.mem_cons_self, rfl, hdelivered hd⟩
      · exact .inl ⟨c, List.mem_cons_of_mem _ hc, rfl, hd⟩
    · rw [Function.update_of_ne hk]
      exact .inl ⟨c, hc, rfl, hd⟩

/-- A worker drops the job in its hand, which is over if it was delivered. -/
theorem drop (h : Tracked jobs nowUnix workers log) {k : Nat} {c : ClaimedJob} {rest : List ClaimedJob}
    (hhead : (workers k).claimed = c :: rest)
    (hover : c.phase.delivered = true → RowCanceled jobs c.job.jobId) :
    Tracked jobs nowUnix (Function.update workers k { workers k with claimed := rest }) log := by
  refine h.advance (fun _ => leaseToken_update) (fun _ => channel_update) ?_ ?_ ?_
  · intro k'
    by_cases hk : k' = k
    · subst hk
      have := h.distinct k'
      rw [hhead, List.map_cons, List.nodup_cons] at this
      rw [Function.update_self]
      exact this.2
    · rw [Function.update_of_ne hk]
      exact h.distinct k'
  · intro k' c' hc'
    rcases mem_update hc' with ⟨rfl, hc'⟩ | ⟨-, hc'⟩
    · exact ⟨c', by rw [hhead]; exact List.mem_cons_of_mem _ hc', rfl, id, id, id⟩
    · exact ⟨c', hc', rfl, id, id, id⟩
  · intro k' c' hc' hd
    by_cases hk : k' = k
    · subst hk
      rw [hhead] at hc'
      rw [Function.update_self]
      rcases List.mem_cons.mp hc' with rfl | hc'
      · exact .inr (.inr (hover hd))
      · exact .inl ⟨c', hc', rfl, hd⟩
    · rw [Function.update_of_ne hk]
      exact .inl ⟨c', hc', rfl, hd⟩

/-! ### The start of a send -/

theorem sendable_faithful (h : Tracked jobs nowUnix workers log) {k : Nat} {c : ClaimedJob}
    (hc : c ∈ (workers k).claimed) (hbefore : c.phase.beforeCheck = true)
    (hover : leaseOver nowUnix c.job = false) :
    SentOnce c.job.jobId c.job.nextRunAtUnix log ∧ ¬ Halted c.job.jobId log := by
  have hrow := h.sendable k c hc hbefore hover
  have hactive := (h.copies k c hc).active
  refine ⟨fun k' hk' => ?_, fun hhalted => h.halted _ hrow hhalted hactive⟩
  have hcanceled : ¬ RowCanceled jobs c.job.jobId := by
    rintro ⟨j, hj, hid, hstatus⟩
    rw [eq_of_key_eq h.keys hj hrow hid, hactive] at hstatus
    cases hstatus
  rcases h.delivered k' _ _ hk' with hab | ⟨time, htime, -, ⟨c', hc', hid, -, hd⟩ | ⟨j, hj, hid, hpast⟩⟩
  · exact hab
  · -- The copy that was delivered would be the row, and so the copy that can be sent.
    rcases h.past k' c' hc' (delivered_past hd) with hrow' | hcanceled'
    · have hsame := eq_of_key_eq h.keys hrow' hrow hid
      obtain ⟨-, rfl⟩ := h.eq_of_token hc' hc (by rw [hsame]) hid
      cases hphase : c'.phase <;> simp [hphase, RunPhase.beforeCheck, RunPhase.delivered] at hbefore hd
    · exact absurd (hid ▸ hcanceled') hcanceled
  · rcases hpast with hstatus | hpast
    · exact absurd ⟨j, hj, hid, hstatus⟩ hcanceled
    · have := hpast time (by rw [eq_of_key_eq h.keys hj hrow hid, htime])
      omega

/-- The lease is checked, and the send starts. -/
theorem startSend (h : Tracked jobs nowUnix workers log) {k : Nat} {job : TelegramSchedulerJobRecord}
    {phase : RunPhase} {startedAt : Int} {rest : List ClaimedJob}
    (hhead : (workers k).claimed = ⟨job, phase⟩ :: rest) (hbefore : phase.beforeCheck = true)
    (hover : leaseOver nowUnix job = false) :
    Tracked jobs nowUnix
      (Function.update workers k { workers k with claimed := ⟨job, .sending startedAt⟩ :: rest })
      log := by
  have hc : (⟨job, phase⟩ : ClaimedJob) ∈ (workers k).claimed := by
    rw [hhead]
    exact List.mem_cons_self
  have hrow : job ∈ jobs := h.sendable k _ hc hbefore hover
  have hback : ∀ {k' c'}, c' ∈ (Function.update workers k
      { workers k with claimed := ⟨job, .sending startedAt⟩ :: rest } k').claimed →
      (k' = k ∧ c' = ⟨job, .sending startedAt⟩) ∨ c' ∈ (workers k').claimed := by
    intro k' c' hc'
    rcases mem_update hc' with ⟨rfl, hc'⟩ | ⟨-, hc'⟩
    · rcases List.mem_cons.mp hc' with rfl | hc'
      · exact .inl ⟨rfl, rfl⟩
      · exact .inr (by rw [hhead]; exact List.mem_cons_of_mem _ hc')
    · exact .inr hc'
  have halone : ∀ {k' c'}, c' ∈ (workers k').claimed → c'.phase.pastCheck = true →
      job.jobId = c'.job.jobId → k = k' := by
    intro k' c' hc' hpast hid
    rcases h.past k' c' hc' hpast with hrow' | ⟨j, hj, hj', hstatus⟩
    · have hsame := eq_of_key_eq h.keys hrow hrow' hid
      exact (h.eq_of_token hc hc' (by rw [hsame]) hid).1
    · rw [eq_of_key_eq h.keys hj hrow (hj'.trans hid.symm), (h.copies k _ hc).active] at hstatus
      cases hstatus
  exact
    { keys := h.keys
      leased := h.leased
      copies := by
        intro k' c' hc'
        rcases hback hc' with ⟨rfl, rfl⟩ | hold
        · have hcopy := h.copies _ _ hc
          exact isCopy_update hcopy
        · exact isCopy_update (h.copies _ _ hold)
      distinct := by
        intro k'
        by_cases hk : k' = k
        · subst hk
          have := h.distinct k'
          rw [hhead] at this
          rwa [Function.update_self]
        · rw [Function.update_of_ne hk]
          exact h.distinct k'
      tokens := by
        intro k₁ k₂ c₁ c₂ hc₁ hc₂ heq
        rw [leaseToken_update, leaseToken_update] at heq
        rcases hback hc₁ with ⟨rfl, -⟩ | hold₁
        · rcases hback hc₂ with ⟨rfl, -⟩ | hold₂
          · rfl
          · exact h.tokens _ _ _ _ hc hold₂ heq
        · rcases hback hc₂ with ⟨rfl, -⟩ | hold₂
          · exact h.tokens _ _ _ _ hold₁ hc heq
          · exact h.tokens _ _ _ _ hold₁ hold₂ heq
      sendable := by
        intro k' c' hc' hb ho
        rcases hback hc' with ⟨rfl, rfl⟩ | hold
        · cases hb
        · exact h.sendable k' c' hold hb ho
      past := by
        intro k' c' hc' hp
        rcases hback hc' with ⟨rfl, rfl⟩ | hold
        · exact .inl hrow
        · exact h.past k' c' hold hp
      alone := by
        intro k₁ k₂ c₁ c₂ hc₁ hc₂ hp₁ hp₂ hid
        rcases hback hc₁ with ⟨rfl, rfl⟩ | hold₁
        · rcases hback hc₂ with ⟨rfl, rfl⟩ | hold₂
          · rfl
          · exact halone hold₂ hp₂ hid
        · rcases hback hc₂ with ⟨rfl, rfl⟩ | hold₂
          · exact (halone hold₁ hp₁ hid.symm).symm
          · exact h.alone _ _ _ _ hold₁ hold₂ hp₁ hp₂ hid
      unsent := by
        intro k' c' hc' hs
        rcases hback hc' with ⟨rfl, rfl⟩ | hold
        · exact (h.sendable_faithful hc hbefore hover).1
        · exact h.unsent k' c' hold hs
      delivered := by
        intro k' jobId occurrence hk'
        refine (h.delivered k' jobId occurrence hk').imp_right ?_
        rintro ⟨time, htime, hle, ⟨c', hc', hid, hnext, hd⟩ | hpast⟩
        · refine ⟨time, htime, hle, .inl ⟨c', ?_, hid, hnext, hd⟩⟩
          by_cases hk : k' = k
          · subst hk
            rw [hhead] at hc'
            rw [Function.update_self]
            rcases List.mem_cons.mp hc' with rfl | hc'
            · cases phase <;> simp [RunPhase.beforeCheck, RunPhase.delivered] at hbefore hd
            · exact List.mem_cons_of_mem _ hc'
          · rwa [Function.update_of_ne hk]
        · exact ⟨time, htime, hle, .inr hpast⟩
      known := h.known
      halted := h.halted
      stands := by
        intro k' c' hc' j hj hid htok
        rw [leaseToken_update] at htok
        rcases hback hc' with ⟨rfl, rfl⟩ | hold
        · exact h.stands _ _ hc j hj hid htok
        · exact h.stands _ _ hold j hj hid htok }

/-! ### The store -/

/-- A new job has a row of its own, which no worker holds and no command has met. -/
theorem insert (h : Tracked jobs nowUnix workers log) {row : TelegramSchedulerJobRecord}
    (hfresh : ∀ j ∈ jobs, j.jobId ≠ row.jobId) (htoken : row.leaseToken = none) (hleased : LeasedWell row) :
    Tracked (jobs ++ [row]) nowUnix workers log where
  keys := nodup_concat h.keys hfresh
  leased := by
    intro j hj
    rcases List.mem_append.mp hj with hj | hj
    · exact h.leased j hj
    · rwa [List.mem_singleton.mp hj]
  copies := h.copies
  distinct := h.distinct
  tokens := h.tokens
  sendable := fun k c hc hb ho => List.mem_append_left _ (h.sendable k c hc hb ho)
  past := fun k c hc hp => (h.past k c hc hp).imp (List.mem_append_left _) fun ⟨j, hj, hj'⟩ =>
    ⟨j, List.mem_append_left _ hj, hj'⟩
  alone := h.alone
  unsent := h.unsent
  delivered := by
    intro k jobId occurrence hk
    refine (h.delivered k jobId occurrence hk).imp_right ?_
    rintro ⟨time, htime, hle, hheld | ⟨j, hj, hj'⟩⟩
    · exact ⟨time, htime, hle, .inl hheld⟩
    · exact ⟨time, htime, hle, .inr ⟨j, List.mem_append_left _ hj, hj'⟩⟩
  known := fun jobId hid => by
    obtain ⟨j, hj, hj'⟩ := h.known jobId hid
    exact ⟨j, List.mem_append_left _ hj, hj'⟩
  halted := by
    intro j hj hhalted
    rcases List.mem_append.mp hj with hj | hj
    · exact h.halted j hj hhalted
    · obtain ⟨status, hstatus, -⟩ := hhalted
      obtain ⟨j', hj', hid⟩ := h.known j.jobId (by rw [hstatus]; exact Option.some_ne_none _)
      rw [List.mem_singleton.mp hj] at hid
      exact absurd hid (hfresh j' hj')
  stands := by
    intro k c hc j hj hid htok
    rcases List.mem_append.mp hj with hj | hj
    · exact h.stands k c hc j hj hid htok
    · rw [List.mem_singleton.mp hj, htoken] at htok
      cases htok

/-- A command rewrites its job. -/
theorem update (h : Tracked jobs nowUnix workers log) {channel : String} {chatId ownerUserId : Int}
    {jobId : String} {status : TelegramSchedulerJobStatus}
    (horderly : ∀ j ∈ jobs, isOpenFor channel chatId ownerUserId jobId j = true →
      ∀ k, ∀ c ∈ (workers k).claimed, c.job.jobId = j.jobId →
        (c.phase.beforeCheck = true → leaseOver nowUnix c.job = true) ∧
        (c.phase.pastCheck = true → status = .canceled))
    (hany : jobs.any (isOpenFor channel chatId ownerUserId jobId) = true) :
    Tracked (updateWhere (isOpenFor channel chatId ownerUserId jobId) (setStatus status) jobs) nowUnix
      workers (.updated jobId status :: log) := by
  have hid_of_open : ∀ {j}, isOpenFor channel chatId ownerUserId jobId j = true → j.jobId = jobId := by
    intro j hopen
    simp only [isOpenFor, Bool.and_eq_true, decide_eq_true_eq] at hopen
    exact hopen.1.2
  have hopen_of_id : ∀ {j}, j ∈ jobs → j.jobId = jobId →
      isOpenFor channel chatId ownerUserId jobId j = true := by
    intro j hj hid
    obtain ⟨j', hj', hopen⟩ := List.any_eq_true.mp hany
    rwa [eq_of_key_eq h.keys hj hj' (hid.trans (hid_of_open hopen).symm)]
  have hkept : ∀ {j}, j ∈ jobs → isOpenFor channel chatId ownerUserId jobId j = false →
      j ∈ updateWhere (isOpenFor channel chatId ownerUserId jobId) (setStatus status) jobs :=
    fun {j} hj hclosed => mem_updateWhere.mpr ⟨j, hj, by simp [hclosed]⟩
  have hcanceled : ∀ {id}, RowCanceled jobs id → RowCanceled
      (updateWhere (isOpenFor channel chatId ownerUserId jobId) (setStatus status) jobs) id := by
    rintro id ⟨j, hj, hid, hstatus⟩
    exact ⟨j, hkept hj (by simp [isOpenFor, hstatus]), hid, hstatus⟩
  exact
    { keys := by rw [map_updateWhere (setStatus_jobId _)]; exact h.keys
      leased := by
        intro j hj
        obtain ⟨j₀, hj₀, rfl⟩ := mem_updateWhere.mp hj
        split_ifs
        · exact ⟨rfl, fun hnone => by cases hnone⟩
        · exact h.leased j₀ hj₀
      copies := h.copies
      distinct := h.distinct
      tokens := h.tokens
      sendable := by
        intro k c hc hb ho
        have hrow := h.sendable k c hc hb ho
        by_cases hopen : isOpenFor channel chatId ownerUserId jobId c.job = true
        · rw [(horderly _ hrow hopen k c hc rfl).1 hb] at ho
          cases ho
        · exact hkept hrow (by simpa using hopen)
      past := by
        intro k c hc hp
        rcases h.past k c hc hp with hrow | hrow
        · by_cases hopen : isOpenFor channel chatId ownerUserId jobId c.job = true
          · refine .inr ⟨setStatus status c.job, mem_updateWhere.mpr ⟨_, hrow, if_pos hopen⟩, rfl, ?_⟩
            exact (horderly _ hrow hopen k c hc rfl).2 hp
          · exact .inl (hkept hrow (by simpa using hopen))
        · exact .inr (hcanceled hrow)
      alone := h.alone
      unsent := fun k c hc hs => sentOnce_cons (fun _ hsent => by cases hsent) (h.unsent k c hc hs)
      delivered := by
        intro k id occurrence hk
        have hk : .sendSucceeded k id occurrence ∈ log := by simpa using hk
        refine (h.delivered k id occurrence hk).imp (List.mem_cons_of_mem _) ?_
        rintro ⟨time, htime, hle, hheld | ⟨j, hj, hid, hpast⟩⟩
        · exact ⟨time, htime, hle, .inl hheld⟩
        · refine ⟨time, htime, hle, .inr ?_⟩
          rcases hpast with hstatus | hpast
          · obtain ⟨j', hj', hid', hstatus'⟩ := hcanceled ⟨j, hj, hid, hstatus⟩
            exact ⟨j', hj', hid', .inl hstatus'⟩
          · refine ⟨_, mem_updateWhere.mpr ⟨j, hj, rfl⟩, ?_⟩
            split_ifs
            · exact ⟨hid, .inr hpast⟩
            · exact ⟨hid, .inr hpast⟩
      known := by
        intro id hne
        have hrow : ∃ j ∈ jobs, j.jobId = id := by
          by_cases hid : jobId = id
          · obtain ⟨j, hj, hopen⟩ := List.any_eq_true.mp hany
            exact ⟨j, hj, (hid_of_open hopen).trans hid⟩
          · exact h.known id (by simpa [lastUpdate, hid] using hne)
        obtain ⟨j, hj, hid⟩ := hrow
        refine ⟨_, mem_updateWhere.mpr ⟨j, hj, rfl⟩, ?_⟩
        split_ifs
        · exact hid
        · exact hid
      halted := by
        intro j hj hhalted
        obtain ⟨j₀, hj₀, rfl⟩ := mem_updateWhere.mp hj
        obtain ⟨last, hlast, hne⟩ := hhalted
        by_cases hopen : isOpenFor channel chatId ownerUserId jobId j₀ = true
        · have hlast : status = last := by
            rw [if_pos hopen, setStatus_jobId] at hlast
            simpa [lastUpdate, hid_of_open hopen] using hlast
          rw [if_pos hopen]
          exact hlast ▸ hne
        · rw [if_neg hopen] at hlast ⊢
          have hid : jobId ≠ j₀.jobId := fun hid => hopen (hopen_of_id hj₀ hid.symm)
          refine h.halted j₀ hj₀ ⟨last, ?_, hne⟩
          simpa [lastUpdate, hid] using hlast
      stands := by
        intro k c hc j hj hid htok
        obtain ⟨j₀, hj₀, rfl⟩ := mem_updateWhere.mp hj
        by_cases hopen : isOpenFor channel chatId ownerUserId jobId j₀ = true
        · rw [if_pos hopen] at htok
          cases htok
        · rw [if_neg hopen] at htok hid ⊢
          have hne : jobId ≠ j₀.jobId := fun hid => hopen (hopen_of_id hj₀ hid.symm)
          simpa [claimStands, hne] using h.stands k c hc j₀ hj₀ hid htok }

/-- The run in a worker's hand is settled: the row under its lease is rewritten, and its next run, if it has
one, comes after the clock. -/
theorem settle (h : Tracked jobs nowUnix workers log) {k : Nat} {c : ClaimedJob} {rest : List ClaimedJob}
    (hhead : (workers k).claimed = c :: rest) (run : SchedulerJobRun)
    (status : TelegramSchedulerJobStatus) (error : Option String) (hid : run.jobId = c.job.jobId)
    (htoken : run.leaseToken = (workers k).leaseToken)
    (hnext : ∀ next, run.nextRunAtUnix = some next → nowUnix < next)
    (hheld : ∃ j ∈ jobs, holds run j = true) :
    Tracked (updateWhere (holds run) (settleJob run status error) jobs) nowUnix
        (Function.update workers k { workers k with claimed := rest }) (.settled k c.job.jobId :: log) ∧
      claimStands k c.job.jobId log = true := by
  have hc : c ∈ (workers k).claimed := by
    rw [hhead]
    exact List.mem_cons_self
  have hholds : ∀ {j}, holds run j = true →
      j.jobId = c.job.jobId ∧ j.leaseToken = some (workers k).leaseToken := by
    intro j hj
    simp only [holds, Bool.and_eq_true, decide_eq_true_eq, hid, htoken] at hj
    exact ⟨hj.1.2, hj.2⟩
  have hactive : ∀ {j}, j ∈ jobs → holds run j = true → j.status = .active := by
    intro j hj hh
    exact (h.leased j hj).2 (by rw [(hholds hh).2, Option.isSome_some])
  have hkept : ∀ {j}, j ∈ jobs → holds run j = false →
      j ∈ updateWhere (holds run) (settleJob run status error) jobs :=
    fun {j} hj hh => mem_updateWhere.mpr ⟨j, hj, by simp [hh]⟩
  have hcanceled : ∀ {id}, RowCanceled jobs id →
      RowCanceled (updateWhere (holds run) (settleJob run status error) jobs) id := by
    rintro id ⟨j, hj, hj', hstatus⟩
    refine ⟨j, hkept hj ?_, hj', hstatus⟩
    by_contra hh
    rw [hactive hj (by simpa using hh)] at hstatus
    cases hstatus
  -- A row that is some other copy is not the one settled.
  have hrow : ∀ {k' c'}, c' ∈ (Function.update workers k { workers k with claimed := rest } k').claimed →
      c'.job ∈ jobs → c'.job ∈ updateWhere (holds run) (settleJob run status error) jobs := by
    intro k' c' hc' hrow
    refine hkept hrow ?_
    by_contra hh
    obtain ⟨hsame, htok⟩ := hholds (by simpa using hh)
    have hcopy := h.copies k c hc
    rcases mem_update hc' with ⟨rfl, hc'⟩ | ⟨hne, hc'⟩
    · have hdistinct := h.distinct k'
      rw [hhead, List.map_cons, List.nodup_cons] at hdistinct
      exact hdistinct.1 (hsame ▸ List.mem_map_of_mem hc')
    · exact hne (h.eq_of_token hc' hc (htok.trans hcopy.token.symm) hsame).1
  have hback : ∀ {k' c'}, c' ∈ (Function.update workers k { workers k with claimed := rest } k').claimed →
      c' ∈ (workers k').claimed := by
    intro k' c' hc'
    rcases mem_update hc' with ⟨rfl, hc'⟩ | ⟨-, hc'⟩
    · rw [hhead]
      exact List.mem_cons_of_mem _ hc'
    · exact hc'
  refine ⟨?_, ?_⟩
  · exact
      { keys := by rw [map_updateWhere (settleJob_jobId _ _ _)]; exact h.keys
        leased := by
          intro j hj
          obtain ⟨j₀, hj₀, rfl⟩ := mem_updateWhere.mp hj
          split_ifs
          · exact ⟨rfl, fun hnone => by cases hnone⟩
          · exact h.leased j₀ hj₀
        copies := fun k' c' hc' => isCopy_update (h.copies k' c' (hback hc'))
        distinct := by
          intro k'
          by_cases hk : k' = k
          · subst hk
            have := h.distinct k'
            rw [hhead, List.map_cons, List.nodup_cons] at this
            rw [Function.update_self]
            exact this.2
          · rw [Function.update_of_ne hk]
            exact h.distinct k'
        tokens := by
          intro k₁ k₂ c₁ c₂ hc₁ hc₂ heq
          rw [leaseToken_update, leaseToken_update] at heq
          exact h.tokens k₁ k₂ c₁ c₂ (hback hc₁) (hback hc₂) heq
        sendable := fun k' c' hc' hb ho => hrow hc' (h.sendable k' c' (hback hc') hb ho)
        past := fun k' c' hc' hp => (h.past k' c' (hback hc') hp).imp (hrow hc') hcanceled
        alone := fun k₁ k₂ c₁ c₂ hc₁ hc₂ => h.alone k₁ k₂ c₁ c₂ (hback hc₁) (hback hc₂)
        unsent := fun k' c' hc' hs => sentOnce_cons (fun _ hsent => by cases hsent) (h.unsent k' c' (hback hc') hs)
        delivered := by
          intro k' id occurrence hk'
          have hk' : .sendSucceeded k' id occurrence ∈ log := by simpa using hk'
          have hover : ∀ {j time}, j ∈ jobs → j.jobId = id → holds run j = true → time ≤ nowUnix →
              RowPast (updateWhere (holds run) (settleJob run status error) jobs) id time := by
            intro j time hj hj' hh hle
            refine ⟨_, mem_updateWhere.mpr ⟨j, hj, if_pos hh⟩, hj', .inr fun next hn => ?_⟩
            have := hnext next hn
            omega
          refine (h.delivered k' id occurrence hk').imp (List.mem_cons_of_mem _) ?_
          rintro ⟨time, htime, hle, ⟨c', hc', hid', hocc, hd⟩ | ⟨j, hj, hid', hpast⟩⟩
          · by_cases hk : k' = k ∧ c' = c
            · obtain ⟨rfl, rfl⟩ := hk
              obtain ⟨j, hj, hh⟩ := hheld
              exact ⟨time, htime, hle, .inr (hover hj ((hholds hh).1.trans hid') hh hle)⟩
            · refine ⟨time, htime, hle, .inl ⟨c', ?_, hid', hocc, hd⟩⟩
              by_cases hkk : k' = k
              · subst hkk
                rw [Function.update_self]
                rw [hhead] at hc'
                exact (List.mem_cons.mp hc').resolve_left fun heq => hk ⟨rfl, heq⟩
              · rwa [Function.update_of_ne hkk]
          · refine ⟨time, htime, hle, .inr ?_⟩
            by_cases hh : holds run j = true
            · exact hover hj hid' hh hle
            · exact ⟨j, hkept hj (by simpa using hh), hid', hpast⟩
        known := by
          intro id hne
          obtain ⟨j, hj, hid'⟩ := h.known id hne
          refine ⟨_, mem_updateWhere.mpr ⟨j, hj, rfl⟩, ?_⟩
          split_ifs
          · exact hid'
          · exact hid'
        halted := by
          intro j hj hhalted
          obtain ⟨j₀, hj₀, rfl⟩ := mem_updateWhere.mp hj
          by_cases hh : holds run j₀ = true
          · rw [if_pos hh] at hhalted
            exact absurd (hactive hj₀ hh) (h.halted j₀ hj₀ hhalted)
          · rw [if_neg hh] at hhalted ⊢
            exact h.halted j₀ hj₀ hhalted
        stands := by
          intro k' c' hc' j hj hid' htok
          rw [leaseToken_update] at htok
          obtain ⟨j₀, hj₀, rfl⟩ := mem_updateWhere.mp hj
          by_cases hh : holds run j₀ = true
          · rw [if_pos hh] at htok
            cases htok
          · rw [if_neg hh] at htok hid' ⊢
            exact h.stands k' c' (hback hc') j₀ hj₀ hid' htok }
  · obtain ⟨j, hj, hh⟩ := hheld
    obtain ⟨hsame, htok⟩ := hholds hh
    rw [← hsame]
    exact h.stands k c hc j hj hsame htok

end Tracked

/-! ### Claims -/

section

variable {host : SchedulerHost} {store : SchedulerStore} {nowUnix : Int}
  {workers : Nat → SchedulerWorker} {log : List SchedulerEvent}

theorem claimed_fresh {channel leaseToken : String} {limit : Nat} {leaseSecs : Int}
    {j : TelegramSchedulerJobRecord} (hfresh : ∀ j ∈ store.jobs, j.leaseToken ≠ some leaseToken)
    (hj : j ∈ (store.claimDueTelegramSchedulerJobs channel nowUnix limit leaseSecs leaseToken).1) :
    ∃ j₀ ∈ store.jobs, j = grantLease leaseToken (nowUnix + max leaseSecs 1) j₀ ∧
      isClaimable channel nowUnix (store.dueJobIds channel nowUnix limit) j₀ = true := by
  obtain ⟨hmem, htoken⟩ := claimed_mem hj
  rw [claim_jobs] at hmem
  obtain ⟨j₀, hj₀, rfl⟩ := mem_updateWhere.mp hmem
  split_ifs at htoken ⊢ with hclaimable
  · exact ⟨j₀, hj₀, rfl, hclaimable⟩
  · exact absurd htoken (hfresh j₀ hj₀)

/-- A claim of an idle worker, under a token of its own. -/
theorem Tracked.claim (h : Tracked store.jobs nowUnix workers log) {k : Nat} {channel leaseToken : String}
    {limit : Nat} {leaseSecs : Int} (hidle : (workers k).claimed = [])
    (hfresh : ∀ j ∈ store.jobs, j.leaseToken ≠ some leaseToken)
    (horderly : ∀ k, ∀ c ∈ (workers k).claimed, (workers k).leaseToken ≠ leaseToken ∧
      (c.phase.pastCheck = true → ∀ j ∈ store.jobs, j.jobId = c.job.jobId →
        isClaimable channel nowUnix (store.dueJobIds channel nowUnix limit) j = false)) :
    let result := store.claimDueTelegramSchedulerJobs channel nowUnix limit leaseSecs leaseToken
    Tracked result.2.jobs nowUnix
      (Function.update workers k ⟨channel, leaseToken, result.1.map fun job => { job }⟩)
      (result.1.map (fun job => .claimed k job.jobId) ++ log) := by
  intro result
  have hjobs : result.2.jobs = updateWhere
      (isClaimable channel nowUnix (store.dueJobIds channel nowUnix limit))
      (grantLease leaseToken (nowUnix + max leaseSecs 1)) store.jobs := claim_jobs _ _ _ _ _
  have hnew : ∀ {job}, job ∈ result.1 → ∃ j₀ ∈ store.jobs,
      job = grantLease leaseToken (nowUnix + max leaseSecs 1) j₀ ∧
      isClaimable channel nowUnix (store.dueJobIds channel nowUnix limit) j₀ = true :=
    fun {job} hjob => claimed_fresh hfresh hjob
  have hrows := fun {job} => (claimed_sublist (s := store) channel nowUnix limit leaseSecs
    leaseToken).1.subset (a := job)
  have hchannel := (claimed_sublist (s := store) channel nowUnix limit leaseSecs leaseToken).2
  have hback : ∀ {k' c}, c ∈ (Function.update workers k
      ⟨channel, leaseToken, result.1.map fun job => { job }⟩ k').claimed →
      (k' = k ∧ ∃ job ∈ result.1, c = { job }) ∨ (k' ≠ k ∧ c ∈ (workers k').claimed) := by
    intro k' c hc
    rcases Tracked.mem_update hc with ⟨rfl, hmem⟩ | hold
    · obtain ⟨job, hjob, rfl⟩ := List.mem_map.mp hmem
      exact .inl ⟨rfl, job, hjob, rfl⟩
    · exact .inr hold
  have hkept : ∀ {j}, j ∈ store.jobs →
      isClaimable channel nowUnix (store.dueJobIds channel nowUnix limit) j = false →
      j ∈ result.2.jobs := by
    intro j hj hnot
    rw [hjobs]
    exact mem_updateWhere.mpr ⟨j, hj, by simp [hnot]⟩
  have hcanceled : ∀ {id}, RowCanceled store.jobs id → RowCanceled result.2.jobs id := by
    rintro id ⟨j, hj, hid, hstatus⟩
    refine ⟨j, hkept hj ?_, hid, hstatus⟩
    by_contra hclaimable
    rw [(claimable_due hj (by simpa using hclaimable)).1] at hstatus
    cases hstatus
  have hsent : ∀ {k' id occurrence}, .sendSucceeded k' id occurrence ∈
      result.1.map (fun job => SchedulerEvent.claimed k job.jobId) ++ log →
      .sendSucceeded k' id occurrence ∈ log := by
    intro k' id occurrence hk'
    rcases List.mem_append.mp hk' with hk' | hk'
    · obtain ⟨job, -, heq⟩ := List.mem_map.mp hk'
      cases heq
    · exact hk'
  exact
    { keys := result.2.primaryKey
      leased := by
        intro j hj
        rw [hjobs] at hj
        obtain ⟨j₀, hj₀, rfl⟩ := mem_updateWhere.mp hj
        split_ifs with hclaimable
        · exact ⟨rfl, fun _ => (claimable_due hj₀ hclaimable).1⟩
        · exact h.leased j₀ hj₀
      copies := by
        intro k' c hc
        rcases hback hc with ⟨rfl, job, hjob, rfl⟩ | ⟨hk, hc⟩
        · rw [Function.update_self]
          have hofChannel := hchannel job hjob
          obtain ⟨j₀, hj₀, rfl, hclaimable⟩ := hnew hjob
          obtain ⟨hactive, hdue⟩ := claimable_due hj₀ hclaimable
          refine ⟨rfl, hofChannel, hactive, ⟨_, rfl⟩, ?_⟩
          simp only [isDue, Bool.and_eq_true, Option.any_eq_true, decide_eq_true_eq] at hdue
          exact hdue.1.2
        · rw [Function.update_of_ne hk]
          exact h.copies k' c hc
      distinct := by
        intro k'
        by_cases hk : k' = k
        · rw [hk, Function.update_self]
          simp only [List.map_map, Function.comp_def]
          exact ((claimed_sublist channel nowUnix limit leaseSecs leaseToken).1.map _).nodup
            result.2.primaryKey
        · rw [Function.update_of_ne hk]
          exact h.distinct k'
      tokens := by
        intro k₁ k₂ c₁ c₂ hc₁ hc₂ heq
        rcases hback hc₁ with ⟨rfl, -⟩ | ⟨hk₁, hold₁⟩
        · rcases hback hc₂ with ⟨rfl, -⟩ | ⟨hk₂, hold₂⟩
          · rfl
          · rw [Function.update_self, Function.update_of_ne hk₂] at heq
            exact absurd heq.symm (horderly k₂ c₂ hold₂).1
        · rcases hback hc₂ with ⟨rfl, -⟩ | ⟨hk₂, hold₂⟩
          · rw [Function.update_self, Function.update_of_ne hk₁] at heq
            exact absurd heq (horderly k₁ c₁ hold₁).1
          · rw [Function.update_of_ne hk₁, Function.update_of_ne hk₂] at heq
            exact h.tokens k₁ k₂ c₁ c₂ hold₁ hold₂ heq
      sendable := by
        intro k' c hc hb ho
        rcases hback hc with ⟨-, job, hjob, rfl⟩ | ⟨-, hold⟩
        · exact hrows hjob
        · have hrow := h.sendable k' c hold hb ho
          refine hkept hrow ?_
          -- A lease that the worker may rely on is not free for another claim.
          obtain ⟨leaseUntil, huntil⟩ := (h.copies k' c hold).leased
          simp only [leaseOver, huntil, Option.any_some, decide_eq_false_iff_not] at ho
          simp [isClaimable, leaseFree, huntil, ho]
      past := by
        intro k' c hc hp
        rcases hback hc with ⟨-, job, hjob, rfl⟩ | ⟨-, hold⟩
        · cases hp
        · rcases h.past k' c hold hp with hrow | hrow
          · exact .inl (hkept hrow ((horderly k' c hold).2 hp _ hrow rfl))
          · exact .inr (hcanceled hrow)
      alone := by
        intro k₁ k₂ c₁ c₂ hc₁ hc₂ hp₁ hp₂ hid
        rcases hback hc₁ with ⟨-, job, -, rfl⟩ | ⟨-, hold₁⟩
        · cases hp₁
        · rcases hback hc₂ with ⟨-, job, -, rfl⟩ | ⟨-, hold₂⟩
          · cases hp₂
          · exact h.alone k₁ k₂ c₁ c₂ hold₁ hold₂ hp₁ hp₂ hid
      unsent := by
        intro k' c hc hs
        rcases hback hc with ⟨-, job, -, rfl⟩ | ⟨-, hold⟩
        · cases hs
        · exact fun k'' hk'' => List.mem_append_right _ (h.unsent k' c hold hs k'' (hsent hk''))
      delivered := by
        intro k' id occurrence hk'
        refine (h.delivered k' id occurrence (hsent hk')).imp (List.mem_append_right _) ?_
        rintro ⟨time, htime, hle, ⟨c, hc, hid, hocc, hd⟩ | ⟨j, hj, hid, hpast⟩⟩
        · refine ⟨time, htime, hle, .inl ⟨c, ?_, hid, hocc, hd⟩⟩
          by_cases hk : k' = k
          · rw [hk, hidle] at hc
            cases hc
          · rwa [Function.update_of_ne hk]
        · refine ⟨time, htime, hle, .inr ?_⟩
          rcases hpast with hstatus | hpast
          · obtain ⟨j', hj', hid', hstatus'⟩ := hcanceled ⟨j, hj, hid, hstatus⟩
            exact ⟨j', hj', hid', .inl hstatus'⟩
          · rw [hjobs]
            refine ⟨_, mem_updateWhere.mpr ⟨j, hj, rfl⟩, ?_⟩
            split_ifs
            · exact ⟨hid, .inr hpast⟩
            · exact ⟨hid, .inr hpast⟩
      known := by
        intro id hne
        rw [lastUpdate_claimed] at hne
        obtain ⟨j, hj, hid⟩ := h.known id hne
        rw [hjobs]
        refine ⟨_, mem_updateWhere.mpr ⟨j, hj, rfl⟩, ?_⟩
        split_ifs
        · exact hid
        · exact hid
      halted := by
        rintro j hj ⟨status, hstatus, hne⟩
        rw [lastUpdate_claimed] at hstatus
        rw [hjobs] at hj
        obtain ⟨j₀, hj₀, rfl⟩ := mem_updateWhere.mp hj
        split_ifs at hstatus ⊢
        · exact h.halted j₀ hj₀ ⟨status, hstatus, hne⟩
        · exact h.halted j₀ hj₀ ⟨status, hstatus, hne⟩
      stands := by
        intro k' c hc j hj hid htok
        rcases hback hc with ⟨rfl, job, hjob, rfl⟩ | ⟨hk, hold⟩
        · exact claimStands_claimed log ⟨job, hjob, hid.symm⟩
        · rw [Function.update_of_ne hk] at htok
          rw [claimStands_other (Ne.symm hk)]
          rw [hjobs] at hj
          obtain ⟨j₀, hj₀, rfl⟩ := mem_updateWhere.mp hj
          split_ifs at htok hid ⊢
          · exact absurd (Option.some.inj htok).symm (horderly k' c hold).1
          · exact h.stands k' c hold j₀ hj₀ hid htok }

end

end Xiaomaolv
