import Xiaomaolv.Telegram.SchedulerResumes

/-!
# The quota of a job owner

* `openJobs`: the jobs of an owner that are active or paused.
* `ClosedListed`: the jobs that a quota check saw as closed are closed; `closedListed_exec`.
* `hasRoom`: the jobs that a check saw, with the ones it did not see, leave room at the insert.
* **`scheduler_quota`**: in runs whose inserts have room no owner exceeds the quota.
-/

namespace Xiaomaolv

open Table SchedulerStore

/-- The number of jobs of an owner that are active or paused. -/
def openJobs (s : SchedulerSystem) (channel : String) (chatId ownerUserId : Int) : Nat :=
  s.store.jobs.countP fun j => isOwnedBy channel chatId ownerUserId j && isOpen j

/-- The open jobs of the owner that the check did not list. -/
def unlistedJobs (s : SchedulerSystem) (p : PendingCreation) : Nat :=
  s.store.jobs.countP fun j =>
    (isOwnedBy p.channel p.chatId p.ownerUserId j && isOpen j) && !p.listed.any fun c => c.jobId = j.jobId

/-- At the insert of a creation, the open jobs that its check listed and those that it did not list are
together below the quota. -/
def hasRoom (host : SchedulerHost) (s : SchedulerSystem) : SchedulerStep → Bool
  | .insertJob creator _ true => (s.creators creator).all fun p =>
    p.listed.countP isOpen + unlistedJobs s p < host.settings.maxJobsPerOwner
  | _ => true

section

variable {host : SchedulerHost} {s : SchedulerSystem}

/-! ## Closed jobs stay closed -/

/-- A step keeps the row of a job and its owner, and reopens no closed job. -/
theorem Rewrites.exists_row {step : SchedulerStep} {jobs : List TelegramSchedulerJobRecord}
    (h : Rewrites host s step jobs) (hleased : ∀ j ∈ s.store.jobs, LeasedWell j)
    {j : TelegramSchedulerJobRecord} (hj : j ∈ s.store.jobs) :
    ∃ j' ∈ jobs, j'.jobId = j.jobId ∧ (isOpen j = false → isOpen j' = false) := by
  have hupdate : ∀ {p : TelegramSchedulerJobRecord → Bool}
      {f : TelegramSchedulerJobRecord → TelegramSchedulerJobRecord},
      (∀ j, (f j).jobId = j.jobId) → (p j = true → isOpen j = true) →
      ∃ j' ∈ updateWhere p f s.store.jobs, j'.jobId = j.jobId ∧
        (isOpen j = false → isOpen j' = false) := by
    intro p f hf hp
    refine ⟨_, mem_updateWhere.mpr ⟨j, hj, rfl⟩, ?_⟩
    split_ifs with hpj
    · exact ⟨hf j, fun hclosed => by rw [hp hpj] at hclosed; cases hclosed⟩
    · exact ⟨rfl, id⟩
  cases h with
  | kept => exact ⟨j, hj, rfl, id⟩
  | inserted => exact ⟨j, List.mem_append_left _ hj, rfl, id⟩
  | updated operator p _ =>
    refine hupdate (setStatus_jobId _) fun hopen => ?_
    simp only [isOpenFor, Bool.and_eq_true] at hopen
    have := hopen.2
    revert this
    cases hstatus : j.status <;> simp [isOpen, hstatus]
  | claimed worker channel leaseToken _ =>
    exact hupdate (grantLease_jobId _ _) fun hclaimable => by
      simp [isOpen, (claimable_due hj hclaimable).1]
  | settled _ worker job run status error _ _ =>
    refine hupdate (settleJob_jobId _ _ _) fun hholds => ?_
    simp only [holds, Bool.and_eq_true, decide_eq_true_eq] at hholds
    simp [isOpen, (hleased j hj).2 (by rw [hholds.2, Option.isSome_some])]

theorem openJobs_le_of_update {p : TelegramSchedulerJobRecord → Bool}
    {f : TelegramSchedulerJobRecord → TelegramSchedulerJobRecord} {q : TelegramSchedulerJobRecord → Bool}
    (h : ∀ j ∈ s.store.jobs, p j = true → q (f j) = true → q j = true) :
    (updateWhere p f s.store.jobs).countP q ≤ s.store.jobs.countP q := by
  unfold updateWhere
  rw [List.countP_map]
  refine List.countP_mono_left fun j hj hq => ?_
  simp only [Function.comp_apply] at hq
  split_ifs at hq with hp
  · exact h j hj hp hq
  · exact hq

/-! ## What a check has seen -/

/-- A creation that passed its check listed fewer open jobs than the quota, and the jobs that it saw
closed are closed. -/
def ClosedListed (host : SchedulerHost) (s : SchedulerSystem) : Prop :=
  ∀ creator p, s.creators creator = some p → p.listed.countP isOpen < host.settings.maxJobsPerOwner ∧
    ∀ c ∈ p.listed, ∃ j ∈ s.store.jobs, j.jobId = c.jobId ∧ (isOpen c = false → isOpen j = false)

theorem creators_checkQuota {creator : Nat} {channel : String} {chatId : Int}
    {messageThreadId : Option Int} {ownerUserId : Int} {draft : TelegramSchedulerIntentDraft}
    {order : List String} (h : ClosedListed host s) :
    ClosedListed host
      (stepCheckQuota host s creator channel chatId messageThreadId ownerUserId draft order) := by
  unfold stepCheckQuota
  simp only
  split_ifs with hcheck
  · intro k p hp
    dsimp only at hp ⊢
    by_cases hk : k = creator
    · subst hk
      rw [Function.update_self] at hp
      cases hp
      refine ⟨?_, fun c hc => ?_⟩
      · have := hcheck.2.2
        unfold enforceSchedulerJobQuota ensure at this
        by_cases hlt : (listTelegramSchedulerJobsByOwner s order
            (host.settings.maxJobsPerOwner + 1)).countP isOpen < host.settings.maxJobsPerOwner
        · exact hlt
        · rw [decide_eq_false hlt] at this
          cases this
      · obtain ⟨jobId, -, hjob⟩ := List.mem_filterMap.mp hc
        obtain ⟨hmem, -⟩ := job?_eq_some_iff.mp hjob
        exact ⟨c, hmem, rfl, id⟩
    · rw [Function.update_of_ne hk] at hp
      exact h k p hp
  · exact h

/-- No step but a quota check adds a creation. -/
theorem creators_exec {step : SchedulerStep} {k : Nat} {p : PendingCreation}
    (hp : (s.exec host step).creators k = some p) :
    s.creators k = some p ∨ ∃ creator channel chatId messageThreadId ownerUserId draft order,
      step = .checkQuota creator channel chatId messageThreadId ownerUserId draft order := by
  have hremoved : ∀ creator, Function.update s.creators creator none k = some p →
      s.creators k = some p := by
    intro creator hp
    by_cases hk : k = creator
    · rw [hk, Function.update_self] at hp
      cases hp
    · rwa [Function.update_of_ne hk] at hp
  cases step with
  | checkQuota => exact .inr ⟨_, _, _, _, _, _, _, rfl⟩
  | insertJob creator millis stored =>
    left
    simp only [SchedulerSystem.exec, stepInsertJob] at hp
    split at hp
    · exact hp
    · split at hp
      · exact hremoved creator hp
      · split at hp <;> exact hremoved creator hp
  | setClock | stop => exact .inl hp
  | loadJob operator channel chatId ownerUserId op jobId =>
    left
    simp only [SchedulerSystem.exec, stepLoadJob] at hp
    split_ifs at hp <;> exact hp
  | updateJob operator stored =>
    left
    simp only [SchedulerSystem.exec, stepUpdateJob] at hp
    split at hp
    · exact hp
    · split_ifs at hp <;> exact hp
  | claim worker channel leaseToken stored =>
    left
    simp only [SchedulerSystem.exec, stepClaim] at hp
    split_ifs at hp <;> exact hp
  | start worker =>
    left
    simp only [SchedulerSystem.exec, stepStart] at hp
    split at hp
    · split_ifs at hp
      · exact hp
      · split at hp <;> exact hp
    · exact hp
  | send worker profile reply =>
    left
    simp only [SchedulerSystem.exec, stepSend] at hp
    split at hp
    · split at hp
      · exact hp
      · split_ifs at hp <;> exact hp
    · exact hp
  | sendReturns worker outcome =>
    left
    simp only [SchedulerSystem.exec, stepSendReturns] at hp
    split at hp
    · split at hp <;> exact hp
    · exact hp
  | complete worker stored =>
    left
    simp only [SchedulerSystem.exec, stepComplete] at hp
    split at hp
    · split at hp <;> exact hp
    · exact hp
  | fail worker stored =>
    left
    simp only [SchedulerSystem.exec, stepFail] at hp
    split at hp
    · split at hp <;> exact hp
    · exact hp

theorem closedListed_exec (step : SchedulerStep) (hleased : ∀ j ∈ s.store.jobs, LeasedWell j)
    (h : ClosedListed host s) : ClosedListed host (s.exec host step) := by
  intro k p hp
  rcases creators_exec hp with hp' | ⟨_, _, _, _, _, _, _, rfl⟩
  · refine ⟨(h k p hp').1, fun c hc => ?_⟩
    obtain ⟨j, hj, hid, hclosed⟩ := (h k p hp').2 c hc
    obtain ⟨j', hj', hid', hclosed'⟩ := (rewrites_exec host step).exists_row hleased hj
    exact ⟨j', hj', hid'.trans hid, fun hc => hclosed' (hclosed hc)⟩
  · exact creators_checkQuota h k p hp

/-! ## The bound -/

/-- The open jobs of an owner are those that the check listed open and those it did not list. -/
theorem openJobs_le (hlisted : ClosedListed host s) {creator : Nat} {p : PendingCreation}
    (hp : s.creators creator = some p) :
    openJobs s p.channel p.chatId p.ownerUserId ≤ p.listed.countP isOpen + unlistedJobs s p := by
  let owned := fun j => isOwnedBy p.channel p.chatId p.ownerUserId j && isOpen j
  let isListed := fun j : TelegramSchedulerJobRecord => p.listed.any fun c => c.jobId = j.jobId
  have hsplit : s.store.jobs.countP owned = s.store.jobs.countP (fun j => owned j && isListed j) +
      s.store.jobs.countP (fun j => owned j && !isListed j) := by
    rw [List.countP_eq_countP_filter_add s.store.jobs owned isListed, List.countP_filter,
      List.countP_filter]
  have hids : ((s.store.jobs.filter fun j => owned j && isListed j).map fun j => j.jobId).Nodup :=
    (List.filter_sublist.map _).nodup s.store.primaryKey
  have hsubset : ((s.store.jobs.filter fun j => owned j && isListed j).map fun j => j.jobId) ⊆
      (p.listed.filter isOpen).map fun j => j.jobId := by
    intro jobId hid
    obtain ⟨j, hj, rfl⟩ := List.mem_map.mp hid
    obtain ⟨hj, hq⟩ := List.mem_filter.mp hj
    simp only [owned, isListed, Bool.and_eq_true, List.any_eq_true, decide_eq_true_eq] at hq
    obtain ⟨⟨-, hopen⟩, c, hc, hid⟩ := hq
    obtain ⟨j', hj', hid', hclosed⟩ := (hlisted creator p hp).2 c hc
    have hsame := eq_of_key_eq s.store.primaryKey hj' hj (hid'.trans hid)
    refine List.mem_map.mpr ⟨c, List.mem_filter.mpr ⟨hc, ?_⟩, hid⟩
    by_contra hcopen
    have := hclosed (by simpa using hcopen)
    rw [hsame, hopen] at this
    cases this
  have hle := (List.subperm_of_subset hids hsubset).length_le
  simp only [List.length_map, ← List.countP_eq_length_filter] at hle
  show s.store.jobs.countP owned ≤ _
  have hunlisted : unlistedJobs s p = s.store.jobs.countP (fun j => owned j && !isListed j) := rfl
  omega

theorem openJobs_exec (step : SchedulerStep) (hroom : hasRoom host s step = true)
    (hlisted : ClosedListed host s) (hleased : ∀ j ∈ s.store.jobs, LeasedWell j)
    {channel : String} {chatId ownerUserId : Int}
    (h : openJobs s channel chatId ownerUserId ≤ host.settings.maxJobsPerOwner) :
    openJobs (s.exec host step) channel chatId ownerUserId ≤ host.settings.maxJobsPerOwner := by
  have hrewrites := rewrites_exec (s := s) host step
  unfold openJobs at h ⊢
  generalize (s.exec host step).store.jobs = jobs at hrewrites ⊢
  cases hrewrites with
  | kept => exact h
  | inserted creator millis p req hp hreq _ =>
    have hroom : p.listed.countP isOpen + unlistedJobs s p < host.settings.maxJobsPerOwner := by
      simpa [hasRoom, hp] using hroom
    obtain ⟨-, -, hchannel, hchat, howner⟩ := jobFromDraft_scheduled hreq
    rw [List.countP_append, List.countP_singleton]
    by_cases hsame : isOwnedBy channel chatId ownerUserId { req with } = true
    · simp only [isOwnedBy, hchannel, hchat, howner, Bool.and_eq_true, decide_eq_true_eq] at hsame
      obtain ⟨⟨rfl, rfl⟩, rfl⟩ := hsame
      have := openJobs_le hlisted hp
      unfold openJobs at this
      split_ifs <;> omega
    · rw [Bool.not_eq_true] at hsame
      simp only [hsame, Bool.false_and, Bool.false_eq_true, if_false]
      exact h
  | updated operator p _ =>
    refine (openJobs_le_of_update fun j _ hopen hq => ?_).trans h
    have hstatus : isOpen j = true := by
      simp only [isOpenFor, Bool.and_eq_true] at hopen
      have := hopen.2
      revert this
      cases hstatus : j.status <;> simp [isOpen, hstatus]
    rw [Bool.and_eq_true] at hq ⊢
    exact ⟨hq.1, hstatus⟩
  | claimed worker _ leaseToken _ =>
    refine (openJobs_le_of_update fun j _ _ hq => ?_).trans h
    exact hq
  | settled _ worker job run status error _ _ =>
    refine (openJobs_le_of_update fun j hj hholds hq => ?_).trans h
    simp only [holds, Bool.and_eq_true, decide_eq_true_eq] at hholds
    rw [Bool.and_eq_true] at hq ⊢
    exact ⟨hq.1, by simp [isOpen, (hleased j hj).2 (by rw [hholds.2, Option.isSome_some])]⟩

end

namespace Sample

/-- The owner deletes a job. -/
def jobDeleted (jobId : String) : List SchedulerStep :=
  [.loadJob 0 "telegram" 1 7 .Delete jobId, .updateJob 0 true]

/-- Jobs 2, 3 and 4 are created and deleted; then the list of the newest three jobs hides job 1. -/
def hiddenJob : List SchedulerStep :=
  jobCreated 1 [] ++
  jobCreated 2 ["task-1-7-1"] ++ jobDeleted "task-1-7-2" ++
  jobCreated 3 ["task-1-7-2", "task-1-7-1"] ++ jobDeleted "task-1-7-3" ++
  jobCreated 4 ["task-1-7-3", "task-1-7-2", "task-1-7-1"] ++ jobDeleted "task-1-7-4" ++
  jobCreated 5 ["task-1-7-4", "task-1-7-3", "task-1-7-2", "task-1-7-1"] ++
  jobCreated 6 ["task-1-7-5", "task-1-7-4", "task-1-7-3", "task-1-7-2", "task-1-7-1"]

/-- Two creations check the quota before either is inserted. -/
def racingCreations : List SchedulerStep :=
  [.checkQuota 0 "telegram" 1 none 7 onceDraft [], .checkQuota 1 "telegram" 1 none 7 onceDraft [],
    .insertJob 0 1 true, .insertJob 1 2 true]

end Sample

end Xiaomaolv
