import Xiaomaolv.Telegram.SchedulerDrafts
import Xiaomaolv.Telegram.SchedulerResumes

/-!
# Drafts are confirmed once

* `ConfirmedOnce`: no two jobs are made from one stored draft, and none after its cancellation was told.
* `LeftBehind`: a lost deletion has left the draft stored; `ConfirmsFresh`: no such draft is confirmed.
* `Kept`, `kept_exec`: a draft that is stored although it has a job is at its deletion, or left behind.
* **`confirmed_once_iff`**: drafts are confirmed at most once in exactly the runs along `ConfirmsFresh`.
-/

namespace Xiaomaolv

/-! ## What is asked of the log -/

/-- The stored draft that a job was made from. -/
def DraftEvent.jobOf : DraftEvent → Option Nat
  | created serial _ => some serial
  | _ => none

/-- The stored draft that the user was told to be canceled. -/
def DraftEvent.toldCanceled : DraftEvent → Option Nat
  | canceled serial _ => some serial
  | _ => none

/-- **At most once**: no two jobs are made from one stored draft, and none after the user was told that the
draft is canceled. -/
structure ConfirmedOnce (log : List DraftEvent) : Prop where
  jobs : log.Pairwise fun newer older => ∀ n, newer.jobOf = some n → older.jobOf ≠ some n
  canceled : log.Pairwise fun newer older => ∀ n, newer.jobOf = some n → older.toldCanceled ≠ some n

/-- A deletion of the draft is lost: the one after a job was made from it failed, or the process stopped
before it; or the one before its cancellation was reported failed. -/
def LeftBehind (log : List DraftEvent) (serial : Nat) : Prop :=
  .undeleted serial ∈ log ∨ .canceled serial false ∈ log

/-- The insert of a confirmation makes no job of a draft that is left behind. -/
def OwnerDrafts.InsertsFresh (host : DraftHost) (scheduler : SchedulerSystem) (key : PendingKey)
    (d : OwnerDrafts) (millis : Nat) (stored : Bool) : Prop :=
  ∀ message draft p, d.phase = .inserting message draft (.confirmed p) →
    (insertDraftJob host scheduler key message draft millis stored).isOk → ¬ LeftBehind d.log p.serial

/-- No confirmation makes a job of a draft that is left behind. -/
def ConfirmsFresh (host : DraftHost) (s : DraftSystem) : DraftLabel → Prop
  | .owner key (.insertJob millis stored) => (s.owners key).InsertsFresh host s.scheduler key millis stored
  | _ => True

theorem confirmedOnce_nil : ConfirmedOnce [] := ⟨.nil, .nil⟩

theorem confirmedOnce_cons {e : DraftEvent} {log : List DraftEvent} :
    ConfirmedOnce (e :: log) ↔ ConfirmedOnce log ∧
      ∀ n, e.jobOf = some n → ∀ e' ∈ log, e'.jobOf ≠ some n ∧ e'.toldCanceled ≠ some n := by
  constructor
  · rintro ⟨hjobs, hcanceled⟩
    rw [List.pairwise_cons] at hjobs hcanceled
    exact ⟨⟨hjobs.2, hcanceled.2⟩, fun n hn e' he' => ⟨hjobs.1 e' he' n hn, hcanceled.1 e' he' n hn⟩⟩
  · rintro ⟨⟨hjobs, hcanceled⟩, h⟩
    exact ⟨.cons (fun e' he' n hn => (h n hn e' he').1) hjobs,
      .cons (fun e' he' n hn => (h n hn e' he').2) hcanceled⟩

theorem confirmedOnce_cons_of_no_job {e : DraftEvent} {log : List DraftEvent} (he : e.jobOf = none) :
    ConfirmedOnce (e :: log) ↔ ConfirmedOnce log := by
  simp [confirmedOnce_cons, he]

theorem forall_jobOf_ne {log : List DraftEvent} {n : Nat} :
    (∀ e ∈ log, e.jobOf ≠ some n) ↔ ∀ jobId, .created n jobId ∉ log := by
  constructor
  · intro h jobId he
    exact h _ he rfl
  · intro h e he hn
    cases e <;> simp only [DraftEvent.jobOf, Option.some.injEq, reduceCtorEq] at hn
    exact h _ (hn ▸ he)

theorem forall_toldCanceled_ne {log : List DraftEvent} {n : Nat} :
    (∀ e ∈ log, e.toldCanceled ≠ some n) ↔ ∀ deleted, .canceled n deleted ∉ log := by
  constructor
  · intro h deleted he
    exact h _ he rfl
  · intro h e he hn
    cases e <;> simp only [DraftEvent.toldCanceled, Option.some.injEq, reduceCtorEq] at hn
    exact h _ (hn ▸ he)

/-! ## What a step keeps -/

/-- The stored draft that the message in hand works on. -/
def DraftOrigin.held : DraftOrigin → Option TelegramSchedulerPendingIntentRecord
  | confirmed p => some p
  | described pending => pending

def DraftPhase.held : DraftPhase → Option TelegramSchedulerPendingIntentRecord
  | loaded _ _ pending => pending
  | checking _ _ origin | inserting _ _ origin => origin.held
  | deleting p _ => some p
  | idle | upserting _ _ | replying _ => none

/-- The stored draft whose deletion is due after its job. -/
def DraftPhase.afterJob : DraftPhase → Option TelegramSchedulerPendingIntentRecord
  | deleting p (.confirmed _ _) => some p
  | _ => none

/-- The cancellation that is about to be told. -/
def DraftPhase.canceling : DraftPhase → Option (Nat × Bool)
  | replying (.canceled serial deleted) => some (serial, deleted)
  | _ => none

def DraftEvent.serial : DraftEvent → Nat
  | created serial _ | undeleted serial | canceled serial _ => serial

/-- The message in hand works on the stored draft; and a stored draft that has its job is at its deletion, or
the deletion is lost. -/
structure Kept (d : OwnerDrafts) : Prop where
  held : ∀ p, d.phase.held = some p → d.pending = some p
  pending : ∀ p, d.pending = some p → p.serial < d.storedDrafts
  logged : ∀ e ∈ d.log, e.serial < d.storedDrafts
  told : ∀ n deleted, d.phase.canceling = some (n, deleted) →
    n < d.storedDrafts ∧ (deleted = true → d.pending = none)
  job : ∀ p, d.pending = some p → ∀ jobId, .created p.serial jobId ∈ d.log →
    .undeleted p.serial ∈ d.log ∨ d.phase.afterJob = some p
  canceled : ∀ p, d.pending = some p → .canceled p.serial true ∉ d.log
  undeleted : ∀ n, .undeleted n ∈ d.log → ∃ jobId, .created n jobId ∈ d.log
  made : ∀ p, d.phase.afterJob = some p → ∃ jobId, .created p.serial jobId ∈ d.log

section

variable {d : OwnerDrafts}

theorem kept_empty : Kept {} := by
  constructor <;> simp [DraftPhase.held, DraftPhase.canceling, DraftPhase.afterJob]

theorem Kept.setPhase (h : Kept d) {phase : DraftPhase} (hfrom : d.phase.afterJob = none)
    (hto : phase.afterJob = none) (hheld : ∀ p, phase.held = some p → d.pending = some p)
    (htold : ∀ n deleted, phase.canceling = some (n, deleted) →
      n < d.storedDrafts ∧ (deleted = true → d.pending = none)) : Kept { d with phase } where
  held := hheld
  pending := h.pending
  logged := h.logged
  told := htold
  job p hp jobId hjob := by
    rcases h.job p hp jobId hjob with hlost | hafter
    · exact .inl hlost
    · rw [hfrom] at hafter
      cases hafter
  canceled := h.canceled
  undeleted := h.undeleted
  made p hp := by
    change phase.afterJob = some p at hp
    rw [hto] at hp
    cases hp

/-- The deletion after a job is lost. -/
theorem Kept.lose (h : Kept d) {p : TelegramSchedulerPendingIntentRecord} {phase : DraftPhase}
    (hafter : d.phase.afterJob = some p) (hpending : d.pending = some p) (hheld : phase.held = none)
    (hto : phase.afterJob = none) (hcanceling : phase.canceling = none) :
    Kept { d with phase, log := .undeleted p.serial :: d.log } := by
  obtain ⟨made, hmade⟩ := h.made p hafter
  constructor
  case held =>
    intro q hq
    change phase.held = some q at hq
    rw [hheld] at hq
    cases hq
  case pending => exact h.pending
  case logged =>
    intro e he
    rcases List.mem_cons.mp he with rfl | he
    · exact h.pending p hpending
    · exact h.logged e he
  case told =>
    intro n deleted hn
    change phase.canceling = some (n, deleted) at hn
    rw [hcanceling] at hn
    cases hn
  case job =>
    intro q hq jobId hjob
    have : q = p := Option.some.inj (hq.symm.trans hpending)
    exact .inl (this ▸ List.mem_cons_self)
  case canceled =>
    intro q hq hcanceled
    rcases List.mem_cons.mp hcanceled with heq | hcanceled
    · cases heq
    · exact h.canceled q hq hcanceled
  case undeleted =>
    intro n hn
    rcases List.mem_cons.mp hn with heq | hn
    · cases heq
      exact ⟨made, List.mem_cons_of_mem _ hmade⟩
    · obtain ⟨jobId, hjob⟩ := h.undeleted n hn
      exact ⟨jobId, List.mem_cons_of_mem _ hjob⟩
  case made =>
    intro q hq
    change phase.afterJob = some q at hq
    rw [hto] at hq
    cases hq

theorem Kept.noteLost (h : Kept d) {p : TelegramSchedulerPendingIntentRecord} {deletion : DraftDeletion}
    {phase : DraftPhase} (hphase : d.phase = .deleting p deletion)
    (hto : phase = .replying (deletion.notice p.serial false) ∨ phase = .idle) :
    Kept ({ d with phase }.noteLost p deletion) := by
  have hpending : d.pending = some p := h.held p (by rw [hphase]; rfl)
  have hheld : phase.held = none := by rcases hto with rfl | rfl <;> rfl
  have hafter : phase.afterJob = none := by rcases hto with rfl | rfl <;> rfl
  cases deletion with
  | confirmed jobId next =>
    refine h.lose (by rw [hphase]; rfl) hpending hheld hafter ?_
    rcases hto with rfl | rfl <;> rfl
  | corrupted | replaced =>
    refine h.setPhase (by rw [hphase]; rfl) hafter (by rw [hheld]; exact nofun) ?_
    rcases hto with rfl | rfl <;> exact nofun
  | canceled =>
    refine h.setPhase (by rw [hphase]; rfl) hafter (by rw [hheld]; exact nofun) ?_
    intro n deleted hn
    rcases hto with rfl | rfl <;> cases hn
    exact ⟨h.pending p hpending, nofun⟩

theorem loadPending_eq_some {nowUnix : Int} {p : TelegramSchedulerPendingIntentRecord}
    (hp : d.loadPending nowUnix = some p) : d.pending = some p :=
  (Option.filter_eq_some_iff.mp hp).1

/-! ## The steps one by one -/

variable {host : DraftHost} {scheduler : SchedulerSystem} {key : PendingKey}

theorem readingPhase_held {message : SchedulerMessage} {nowUnix : Int}
    {pending : Option TelegramSchedulerPendingIntentRecord} (reading : DraftReading) :
    (readingPhase host message nowUnix pending reading).afterJob = none ∧
    (readingPhase host message nowUnix pending reading).canceling = none ∧
    ∀ p, (readingPhase host message nowUnix pending reading).held = some p → pending = some p := by
  have hdescribed : ∀ draft (pending' : Option TelegramSchedulerPendingIntentRecord),
      (∀ p, pending' = some p → pending = some p) →
      (describedPhase host message nowUnix draft pending').afterJob = none ∧
      (describedPhase host message nowUnix draft pending').canceling = none ∧
      ∀ p, (describedPhase host message nowUnix draft pending').held = some p → pending = some p := by
    intro draft pending' h
    unfold describedPhase
    split_ifs
    · exact ⟨rfl, rfl, nofun⟩
    · exact ⟨rfl, rfl, h⟩
  cases reading with
  | nothing => exact ⟨rfl, rfl, nofun⟩
  | update draft => exact hdescribed draft pending fun p hp => hp
  | fresh draft => exact hdescribed draft none nofun

variable (host) in
theorem readPhase_held (message : SchedulerMessage) (nowUnix : Int)
    (pending : Option TelegramSchedulerPendingIntentRecord) (reading : DraftReading) :
    (readPhase host message nowUnix pending reading).afterJob = none ∧
    (readPhase host message nowUnix pending reading).canceling = none ∧
    ∀ p, (readPhase host message nowUnix pending reading).held = some p → pending = some p := by
  unfold readPhase
  cases pending with
  | none => exact readingPhase_held reading
  | some p =>
    dsimp only
    split_ifs
    · cases host.draftCodec.decode p.draftJson with
      | error e => exact ⟨rfl, rfl, fun q hq => hq⟩
      | ok draft => exact ⟨rfl, rfl, fun q hq => hq⟩
    · exact ⟨rfl, rfl, fun q hq => hq⟩
    · exact readingPhase_held reading

theorem Kept.createFailed (h : Kept d) (hfrom : d.phase.afterJob = none) (error : String)
    (origin : DraftOrigin) : Kept (d.createFailed error origin) := by
  cases origin with
  | confirmed p => exact h.setPhase hfrom rfl nofun nofun
  | described pending => exact h.setPhase hfrom rfl nofun nofun

theorem Kept.upsert (h : Kept d) (draftJson : String)
    (expiresAtUnix : Int) :
    Kept { d.upsertPending key draftJson expiresAtUnix with phase := .replying .awaitsConfirmation } where
  held := nofun
  pending p hp := by
    rw [← Option.some.inj hp]
    exact Nat.lt_succ_self _
  logged e he := (h.logged e he).trans (Nat.lt_succ_self _)
  told := nofun
  job p hp jobId hjob := by
    rw [← Option.some.inj hp] at hjob
    exact absurd (h.logged _ hjob) (Nat.lt_irrefl _)
  canceled p hp hcanceled := by
    rw [← Option.some.inj hp] at hcanceled
    exact absurd (h.logged _ hcanceled) (Nat.lt_irrefl _)
  undeleted := h.undeleted
  made := nofun

theorem Kept.jobCreated (h : Kept d) {message : SchedulerMessage} {draft : TelegramSchedulerIntentDraft}
    {origin : DraftOrigin} (hphase : d.phase = .inserting message draft origin)
    (req : CreateTelegramSchedulerJobRequest) : Kept (d.jobCreated req origin) := by
  have hfrom : d.phase.afterJob = none := by rw [hphase]; rfl
  cases origin with
  | described pending =>
    cases pending with
    | none => exact h.setPhase hfrom rfl nofun nofun
    | some p =>
      have hpending : d.pending = some p := h.held p (by rw [hphase]; rfl)
      exact h.setPhase hfrom rfl (fun q hq => Option.some.inj hq ▸ hpending) nofun
  | confirmed p =>
    have hpending : d.pending = some p := h.held p (by rw [hphase]; rfl)
    constructor
    case held => exact fun q hq => Option.some.inj hq ▸ hpending
    case pending => exact h.pending
    case logged =>
      intro e he
      rcases List.mem_cons.mp he with rfl | he
      · exact h.pending p hpending
      · exact h.logged e he
    case told => exact nofun
    case job => exact fun q hq _ _ => .inr (hpending.symm.trans hq)
    case canceled =>
      intro q hq hcanceled
      rcases List.mem_cons.mp hcanceled with heq | hcanceled
      · cases heq
      · exact h.canceled q hq hcanceled
    case undeleted =>
      intro n hn
      rcases List.mem_cons.mp hn with heq | hn
      · cases heq
      · obtain ⟨jobId, hjob⟩ := h.undeleted n hn
        exact ⟨jobId, List.mem_cons_of_mem _ hjob⟩
    case made => exact fun q hq => ⟨req.jobId, Option.some.inj hq ▸ List.mem_cons_self⟩

theorem Kept.deleted (h : Kept d) {p : TelegramSchedulerPendingIntentRecord} {deletion : DraftDeletion}
    (hphase : d.phase = .deleting p deletion) :
    Kept { d with phase := .replying (deletion.notice p.serial true), pending := none } where
  held := nofun
  pending := nofun
  logged := h.logged
  told n deleted hn := by
    cases deletion <;> cases hn
    exact ⟨h.pending p (h.held p (by rw [hphase]; rfl)), fun _ => rfl⟩
  job := nofun
  canceled := nofun
  undeleted := h.undeleted
  made := nofun

/-- The user is told of a cancellation. -/
theorem Kept.tellCanceled (h : Kept d) {n : Nat} {deleted : Bool}
    (hphase : d.phase = .replying (.canceled n deleted)) :
    Kept { d with phase := .idle, log := .canceled n deleted :: d.log } := by
  obtain ⟨hserial, hdeleted⟩ := h.told n deleted (by rw [hphase]; rfl)
  constructor
  case held => exact nofun
  case pending => exact h.pending
  case logged =>
    intro e he
    rcases List.mem_cons.mp he with rfl | he
    · exact hserial
    · exact h.logged e he
  case told => exact nofun
  case job =>
    intro p hp jobId hjob
    rcases List.mem_cons.mp hjob with heq | hjob
    · cases heq
    · rcases h.job p hp jobId hjob with hlost | hafter
      · exact .inl (List.mem_cons_of_mem _ hlost)
      · rw [hphase] at hafter
        cases hafter
  case canceled =>
    intro p hp hcanceled
    rcases List.mem_cons.mp hcanceled with heq | hcanceled
    · cases heq
      change d.pending = some p at hp
      rw [hdeleted rfl] at hp
      cases hp
    · exact h.canceled p hp hcanceled
  case undeleted =>
    intro n hn
    rcases List.mem_cons.mp hn with heq | hn
    · cases heq
    · obtain ⟨jobId, hjob⟩ := h.undeleted n hn
      exact ⟨jobId, List.mem_cons_of_mem _ hjob⟩
  case made => exact nofun

variable (host scheduler key) in
theorem kept_step (step : DraftStep) (h : Kept d) : Kept (d.step host scheduler key step) := by
  have hfrom : ∀ {phase : DraftPhase}, d.phase = phase → phase.afterJob = none →
      d.phase.afterJob = none := fun hphase hnone => by rw [hphase, hnone]
  cases step with
  | receive message loaded =>
    simp only [OwnerDrafts.step]
    split_ifs with hidle
    · exact h.setPhase (hfrom hidle.1 rfl) rfl (fun p hp => loadPending_eq_some hp) nofun
    · exact h
  | read reading =>
    simp only [OwnerDrafts.step]
    split
    · next message nowUnix pending hphase =>
      obtain ⟨hafter, hcanceling, hheld⟩ := readPhase_held host message nowUnix pending reading
      refine h.setPhase (hfrom hphase rfl) hafter (fun p hp => ?_) (by rw [hcanceling]; exact nofun)
      exact h.held p (by rw [hphase]; exact hheld p hp)
    · exact h
  | upsert stored =>
    simp only [OwnerDrafts.step]
    split
    · next draft nowUnix hphase =>
      split
      · exact h.upsert _ _
      · exact h.setPhase (hfrom hphase rfl) rfl nofun nofun
    · exact h
  | checkQuota order listed =>
    simp only [OwnerDrafts.step]
    split
    · next message draft origin hphase =>
      split_ifs
      · split
        · exact h.createFailed (hfrom hphase rfl) _ origin
        · refine h.setPhase (hfrom hphase rfl) rfl (fun p hp => ?_) nofun
          exact h.held p (by rw [hphase]; exact hp)
      · exact h
    · exact h
  | insertJob => exact h
  | deletePending stored =>
    simp only [OwnerDrafts.step]
    split
    · next p deletion hphase =>
      cases stored with
      | true => exact h.deleted hphase
      | false => exact h.noteLost hphase (.inl rfl)
    · exact h
  | reply delivered =>
    simp only [OwnerDrafts.step]
    split
    · next n deleted hphase =>
      cases delivered with
      | true => exact h.tellCanceled hphase
      | false => exact h.setPhase (hfrom hphase rfl) rfl nofun nofun
    · next notice _ hphase => exact h.setPhase (hfrom hphase rfl) rfl nofun nofun
    · exact h
  | stop =>
    simp only [OwnerDrafts.step]
    split
    · next p deletion hphase => exact h.noteLost hphase (.inr rfl)
    · next hphase =>
      refine h.setPhase ?_ rfl nofun nofun
      cases hcase : d.phase with
      | deleting p deletion => exact absurd hcase (hphase p deletion)
      | idle | loaded | upserting | checking | inserting | replying => rfl

variable (host scheduler key) in
theorem kept_exec (step : DraftStep) (h : Kept d) : Kept (d.exec host scheduler key step).2 := by
  have hstep := kept_step host scheduler key step h
  cases step with
  | insertJob millis stored =>
    simp only [OwnerDrafts.exec, OwnerDrafts.insert]
    split
    · next message draft origin hphase =>
      split
      · exact h.createFailed (by rw [hphase]; rfl) _ origin
      · next req scheduler' _ => exact h.jobCreated hphase req
    · exact h
  | receive | read | upsert | checkQuota | deletePending | reply | stop => exact hstep

/-! ## What a step adds to the log -/

theorem noteLost_log (p : TelegramSchedulerPendingIntentRecord) (deletion : DraftDeletion) :
    ConfirmedOnce (d.noteLost p deletion).log ↔ ConfirmedOnce d.log := by
  cases deletion with
  | confirmed => exact confirmedOnce_cons_of_no_job rfl
  | corrupted | canceled | replaced => exact Iff.rfl

variable (host scheduler key) in
/-- Only an insert adds a job. -/
theorem step_log (step : DraftStep) :
    ConfirmedOnce (d.step host scheduler key step).log ↔ ConfirmedOnce d.log := by
  have hfailed : ∀ error origin, (d.createFailed error origin).log = d.log := by
    intro error origin
    cases origin <;> rfl
  cases step with
  | receive | insertJob =>
    simp only [OwnerDrafts.step]
    try split_ifs <;> rfl
  | read reading =>
    simp only [OwnerDrafts.step]
    split <;> rfl
  | upsert stored =>
    simp only [OwnerDrafts.step]
    split
    · split <;> rfl
    · rfl
  | checkQuota order listed =>
    simp only [OwnerDrafts.step]
    split
    · split_ifs
      · split
        · rw [hfailed]
        · rfl
      · rfl
    · rfl
  | deletePending stored =>
    simp only [OwnerDrafts.step]
    split
    · next p deletion _ =>
      cases stored with
      | true => rfl
      | false => exact noteLost_log p deletion
    · rfl
  | reply delivered =>
    simp only [OwnerDrafts.step]
    split
    · cases delivered with
      | true => exact confirmedOnce_cons_of_no_job rfl
      | false => rfl
    · rfl
    · rfl
  | stop =>
    simp only [OwnerDrafts.step]
    split
    · next p deletion _ => exact noteLost_log p deletion
    · rfl

/-- **A draft at its insert is left behind** if it has a job or was told to be canceled, and only then. -/
theorem Kept.leftBehind_iff (h : Kept d) {message : SchedulerMessage} {draft : TelegramSchedulerIntentDraft}
    {p : TelegramSchedulerPendingIntentRecord} (hphase : d.phase = .inserting message draft (.confirmed p)) :
    (∀ e ∈ d.log, e.jobOf ≠ some p.serial ∧ e.toldCanceled ≠ some p.serial) ↔
      ¬ LeftBehind d.log p.serial := by
  have hpending : d.pending = some p := h.held p (by rw [hphase]; rfl)
  rw [forall₂_and, forall_jobOf_ne, forall_toldCanceled_ne]
  constructor
  · rintro ⟨hjobs, hcanceled⟩ (hlost | htold)
    · obtain ⟨jobId, hjob⟩ := h.undeleted _ hlost
      exact hjobs jobId hjob
    · exact hcanceled false htold
  · intro hleft
    refine ⟨fun jobId hjob => ?_, fun deleted htold => ?_⟩
    · rcases h.job p hpending jobId hjob with hlost | hafter
      · exact hleft (.inl hlost)
      · rw [hphase] at hafter
        cases hafter
    · cases deleted with
      | true => exact h.canceled p hpending htold
      | false => exact hleft (.inr htold)

/-- An insert keeps the log as it should be exactly if its draft is not left behind. -/
theorem insert_log (h : Kept d) (millis : Nat) (stored : Bool) :
    ConfirmedOnce (d.insert host scheduler key millis stored).2.log ↔
      ConfirmedOnce d.log ∧ d.InsertsFresh host scheduler key millis stored := by
  unfold OwnerDrafts.insert OwnerDrafts.InsertsFresh
  cases hphase : d.phase with
  | inserting message draft origin =>
    dsimp only
    cases hinsert : insertDraftJob host scheduler key message draft millis stored with
    | error e =>
      have hlog : (d.createFailed e origin).log = d.log := by cases origin <;> rfl
      rw [hlog, iff_self_and]
      rintro - message' draft' p heq hok
      cases heq
      rw [hinsert] at hok
      cases hok
    | ok created =>
      cases origin with
      | described pending =>
        have hlog : (d.jobCreated created.1 (.described pending)).log = d.log := by
          cases pending <;> rfl
        rw [hlog, iff_self_and]
        exact fun _ _ _ _ heq => nomatch heq
      | confirmed p =>
        change ConfirmedOnce (.created p.serial created.1.jobId :: d.log) ↔ _
        rw [confirmedOnce_cons]
        refine and_congr_right fun _ => ⟨fun hfresh => ?_, fun hfresh n hn => ?_⟩
        · intro message' draft' p' heq _
          cases heq
          exact (h.leftBehind_iff hphase).mp (hfresh p.serial rfl)
        · cases hn
          exact (h.leftBehind_iff hphase).mpr (hfresh message draft p rfl (by rw [hinsert]; rfl))
  | idle | loaded | upserting | checking | deleting | replying =>
    rw [iff_self_and]
    exact fun _ _ _ _ heq => nomatch heq

end

/-! ## Runs -/

section

variable {host : DraftHost} {s : DraftSystem}

theorem kept_label (label : DraftLabel) (h : ∀ key, Kept (s.owners key)) (key : PendingKey) :
    Kept ((s.exec host label).owners key) := by
  cases label with
  | elsewhere step => exact h key
  | owner acting step =>
    show Kept (Function.update s.owners acting _ key)
    by_cases hkey : key = acting
    · rw [hkey, Function.update_self]
      exact kept_exec host s.scheduler acting step (h acting)
    · rw [Function.update_of_ne hkey]
      exact h key

theorem confirmedOnce_label (label : DraftLabel) (h : ∀ key, Kept (s.owners key)) :
    (∀ key, ConfirmedOnce ((s.exec host label).owners key).log) ↔
      (∀ key, ConfirmedOnce (s.owners key).log) ∧ ConfirmsFresh host s label := by
  cases label with
  | elsewhere step => exact (and_iff_left trivial).symm
  | owner acting step =>
    have hacting : ConfirmedOnce ((s.owners acting).exec host s.scheduler acting step).2.log ↔
        ConfirmedOnce (s.owners acting).log ∧ ConfirmsFresh host s (.owner acting step) := by
      have hstep := step_log (d := s.owners acting) host s.scheduler acting step
      cases step with
      | insertJob millis stored => exact insert_log (h acting) millis stored
      | receive | read | upsert | checkQuota | deletePending | reply | stop =>
        exact hstep.trans (and_iff_left trivial).symm
    have hothers : ∀ key, key ≠ acting →
        (s.exec host (.owner acting step)).owners key = s.owners key :=
      fun key hkey => Function.update_of_ne hkey _ _
    have hself : (s.exec host (.owner acting step)).owners acting =
        ((s.owners acting).exec host s.scheduler acting step).2 := Function.update_self _ _ _
    constructor
    · intro hall
      have := hacting.mp (hself ▸ hall acting)
      refine ⟨fun key => ?_, this.2⟩
      by_cases hkey : key = acting
      · exact hkey ▸ this.1
      · exact hothers key hkey ▸ hall key
    · rintro ⟨hall, hfresh⟩ key
      by_cases hkey : key = acting
      · rw [hkey, hself]
        exact hacting.mpr ⟨hall acting, hfresh⟩
      · rw [hothers key hkey]
        exact hall key

end

/-- **Drafts are confirmed at most once**: every stored draft leads to at most one job, and to none after
the user was told that it is canceled, in exactly the runs in which no confirmation makes a job of a draft
that a lost deletion has left behind. -/
theorem confirmed_once_iff (host : DraftHost) (scheduler : SchedulerSystem) (labels : List DraftLabel) :
    (∀ key, ConfirmedOnce ((DraftSystem.run host scheduler labels).owners key).log) ↔
      Machine.Along (DraftSystem.exec host) (ConfirmsFresh host) { scheduler } labels := by
  refine Iff.trans (Machine.run_iff_along (I := fun s : DraftSystem => ∀ key, Kept (s.owners key))
    (P := fun s : DraftSystem => ∀ key, ConfirmedOnce (s.owners key).log)
    (fun _ label h => kept_label label h) (fun _ label h => confirmedOnce_label label h) fun _ => kept_empty) ?_
  exact and_iff_right fun _ => confirmedOnce_nil

namespace Sample

def onceDraftJson : String :=
  "\x7b\"task_kind\":\"Reminder\",\"schedule_kind\":\"Once\",\"payload\":\"stand up\"," ++
    "\"timezone\":\"UTC\",\"run_at_unix\":10,\"cron_expr\":null,\"source_text\":\"stand up\"\x7d"

/-- A scheduler that asks for confirmations. -/
def draftHost : DraftHost where
  toSchedulerHost := schedulerHost 2
  requireConfirm := true
  draftCodec :=
    { decode := fun raw => if raw = onceDraftJson then .ok onceDraft else .error "unknown draft"
      encode := fun draft => if draft = onceDraft then .ok onceDraftJson else .error "unknown draft" }

def draftOwner : PendingKey := ⟨"telegram", 1, 7⟩

def ownerMessage (text : String) : SchedulerMessage := ⟨1, some 7, none, some "private", text⟩

/-- The draft is stored and shown. -/
def draftStored : List DraftStep :=
  [.receive (ownerMessage "stand up") true, .read (.fresh onceDraft), .upsert true, .reply true]

/-- A confirmation up to its insert. -/
def jobInserted (millis : Nat) (listed : List String) : List DraftStep :=
  [.receive (ownerMessage "ok") true, .read .nothing, .checkQuota listed true, .insertJob millis true]

/-- The deletion after a first confirmation fails, and the owner confirms again. -/
def confirmedAgain : List DraftStep :=
  draftStored ++ jobInserted 1 [] ++ [.deletePending false, .reply true] ++ jobInserted 2 ["task-1-7-1"]

/-- The process stops before the deletion, and the message comes again. -/
def deliveredAgain : List DraftStep :=
  draftStored ++ jobInserted 1 [] ++ [.stop] ++ jobInserted 2 ["task-1-7-1"]

/-- The deletion of a cancellation fails, and the owner confirms. -/
def confirmedAfterCancel : List DraftStep :=
  draftStored ++ [.receive (ownerMessage "no") true, .read .nothing, .deletePending false, .reply true] ++
    jobInserted 1 []

/-- What came of the owner's drafts. -/
def draftLog (steps : List DraftStep) : List DraftEvent :=
  ((DraftSystem.run draftHost {} (steps.map (.owner draftOwner))).owners draftOwner).log

end Sample

theorem confirmed_once_broken :
    ¬ ConfirmedOnce (Sample.draftLog Sample.confirmedAgain) ∧
    ¬ ConfirmedOnce (Sample.draftLog Sample.deliveredAgain) ∧
    ¬ ConfirmedOnce (Sample.draftLog Sample.confirmedAfterCancel) := by
  have hagain : Sample.draftLog Sample.confirmedAgain =
      [.created 0 "task-1-7-2", .undeleted 0, .created 0 "task-1-7-1"] := by decide +kernel
  have hdelivered : Sample.draftLog Sample.deliveredAgain =
      [.created 0 "task-1-7-2", .undeleted 0, .created 0 "task-1-7-1"] := by decide +kernel
  have hcanceled : Sample.draftLog Sample.confirmedAfterCancel =
      [.created 0 "task-1-7-1", .canceled 0 false] := by decide +kernel
  rw [hagain, hdelivered, hcanceled]
  simp [confirmedOnce_cons, DraftEvent.jobOf, DraftEvent.toldCanceled]

end Xiaomaolv
