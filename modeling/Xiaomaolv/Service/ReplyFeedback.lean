import Xiaomaolv.Lib.Decimal
import Xiaomaolv.Loop.Batches

/-!
# Feedback on replies

* `telegramSessionId`, `isSessionOf`: the session ids of a chat.
* `FeedbackTables`: the runs and the recorded outbound messages, with what the bot keeps of them;
  `FeedbackTables.recordOutbound` records one.
* `recordEvolutionReplyFeedback`: the run that a marker is attached to.
* **`feedback_binds_right`**: when the feedback of a chat goes to the run that it is meant for, and only the
  data of the chat decide it.
-/

namespace Xiaomaolv

open Table LoopStore

/-! ## Sessions -/

/-- `tg:{chat_id}`: the session of a private chat, and what the session ids of a chat begin with. -/
def chatSessionId (chatId : Int) : String := "tg:" ++ toString chatId

/-- `telegram_session_id`. -/
def telegramSessionId (chatId : Int) (messageThreadId replyToMessageId : Option Int) : String :=
  match messageThreadId, replyToMessageId with
  | some threadId, _ => chatSessionId chatId ++ ":thread:" ++ toString threadId
  | none, some replyId => chatSessionId chatId ++ ":reply:" ++ toString replyId
  | none, none => chatSessionId chatId

/-- The session of an agent job of the scheduler. -/
def schedulerSessionId (chatId : Int) (jobId : String) : String :=
  chatSessionId chatId ++ ":scheduler:" ++ jobId

/-- The session ids of a chat: `tg:{chat_id}`, alone or before a colon. -/
def isSessionOf (chatId : Int) (sessionId : String) : Bool :=
  sessionId = chatSessionId chatId || startsWith sessionId (chatSessionId chatId ++ ":")

theorem isSessionOf_telegramSessionId (chatId : Int) (messageThreadId replyToMessageId : Option Int) :
    isSessionOf chatId (telegramSessionId chatId messageThreadId replyToMessageId) = true := by
  unfold telegramSessionId
  split <;> simp [isSessionOf, startsWith, String.toList_append]

/-- The session in which `dispatch_telegram_reply` answers. -/
def replySessionId (isGroup : Bool) (chatId : Int) (messageThreadId replyToMessageId : Option Int) : String :=
  if isGroup then telegramSessionId chatId messageThreadId replyToMessageId else chatSessionId chatId

theorem isSessionOf_replySessionId (isGroup : Bool) (chatId : Int)
    (messageThreadId replyToMessageId : Option Int) :
    isSessionOf chatId (replySessionId isGroup chatId messageThreadId replyToMessageId) = true := by
  unfold replySessionId
  split_ifs
  · exact isSessionOf_telegramSessionId chatId messageThreadId replyToMessageId
  · exact isSessionOf_telegramSessionId chatId none none

/-! ## The tables -/

/-- A row of `mcp_trajectories`. -/
structure TrajectoryRow where
  id : String
  sessionId : String
  channel : String
  finishedAt : Option Int
deriving DecidableEq

/-- A row of `telegram_outbound_messages`, with the run whose reply the message is: the table does not have it. -/
structure OutboundMessageRow where
  chatId : Int
  messageId : Int
  sessionId : String
  sentAt : Int
  producer : Option String := none
deriving DecidableEq

/-- The two tables: the keys are unique; a message is recorded for a session of its chat, after the run whose
reply it is has finished. -/
structure FeedbackTables where
  trajectories : List TrajectoryRow
  outbound : List OutboundMessageRow
  trajectoryIds : (trajectories.map TrajectoryRow.id).Nodup
  messageIds : (outbound.map fun o => (o.chatId, o.messageId)).Nodup
  sessions : ∀ o ∈ outbound, isSessionOf o.chatId o.sessionId = true
  produced : ∀ o ∈ outbound, ∀ id, o.producer = some id →
    ∃ r ∈ trajectories, r.id = id ∧ r.sessionId = o.sessionId ∧ r.finishedAt.any (· ≤ o.sentAt) = true

/-- `record_telegram_outbound_message` after a reply in the session of the chat. -/
def FeedbackTables.recordOutbound (t : FeedbackTables) (isGroup : Bool) (chatId messageId : Int)
    (messageThreadId replyToMessageId : Option Int) (sentAt : Int) (producer : Option String)
    (hproducer : ∀ id, producer = some id → ∃ r ∈ t.trajectories, r.id = id ∧
      r.sessionId = replySessionId isGroup chatId messageThreadId replyToMessageId ∧
      r.finishedAt.any (· ≤ sentAt) = true) : FeedbackTables where
  trajectories := t.trajectories
  outbound := (t.outbound.filter fun o => (o.chatId, o.messageId) ≠ (chatId, messageId)) ++
    [⟨chatId, messageId, replySessionId isGroup chatId messageThreadId replyToMessageId, sentAt, producer⟩]
  trajectoryIds := t.trajectoryIds
  messageIds := nodup_concat (t.messageIds.sublist (List.filter_sublist.map _)) fun o ho =>
    of_decide_eq_true (List.mem_filter.mp ho).2
  sessions o ho := by
    rcases List.mem_append.mp ho with ho | ho
    · exact t.sessions o (List.mem_of_mem_filter ho)
    · cases List.mem_singleton.mp ho
      exact isSessionOf_replySessionId isGroup chatId messageThreadId replyToMessageId
  produced o ho id hid := by
    rcases List.mem_append.mp ho with ho | ho
    · exact t.produced o (List.mem_of_mem_filter ho) id hid
    · cases List.mem_singleton.mp ho
      exact hproducer id hid

/-- `ORDER BY finished_at DESC, id DESC`. -/
def TrajectoryRow.isNewer (a b : TrajectoryRow) : Bool :=
  b.finishedAt.getD 0 < a.finishedAt.getD 0 ∨ (b.finishedAt.getD 0 = a.finishedAt.getD 0 ∧ b.id ≤ a.id)

/-- `EvolutionFeedbackDraft`. -/
structure FeedbackDraft (F : Type) where
  trajectoryId : String
  score : F
  tags : List String
  comment : Option String
deriving DecidableEq

/-- The arguments of `record_evolution_reply_feedback`. -/
structure ReplyFeedback (F : Type) where
  chatId : Int
  replyToMessageId : Option Int
  channel : String
  userId : String
  score : F
  comment : Option String := none

/-- The comment, cut after 200 characters. -/
def clipComment (text : String) : String :=
  if 200 < text.length then takeChars 200 text ++ "…" else text

/-- `REPLY_FEEDBACK_MAX_AGE_SECS`. -/
def replyFeedbackMaxAgeSecs : Int := 2 * 3600

namespace FeedbackTables

variable {F : Type} (t : FeedbackTables) (q : ReplyFeedback F) (now : Int)

/-- `telegram_outbound_ref`, the whole row. -/
def sessionFor (chatId messageId : Int) : Option OutboundMessageRow :=
  t.outbound.find? fun o => (o.chatId, o.messageId) = (chatId, messageId)

/-- The runs of a session finished at or before a time. -/
def finishedBefore (sessionId : String) (beforeUnix : Int) : List TrajectoryRow :=
  t.trajectories.filter fun r => r.sessionId = sessionId && r.finishedAt.any (· ≤ beforeUnix)

def latestFinishedTrajectoryBefore (sessionId : String) (beforeUnix : Int) : Option TrajectoryRow :=
  pickBy TrajectoryRow.isNewer (t.finishedBefore sessionId beforeUnix)

/-- The runs finished at or after a time whose session id begins with a text, as `LIKE` has it. -/
def finishedLike (sessionStart : String) (minFinishedUnix : Int) : List TrajectoryRow :=
  t.trajectories.filter fun r =>
    like (escapeLike sessionStart ++ ['%']) r.sessionId.toList && r.finishedAt.any (minFinishedUnix ≤ ·)

def latestFinishedTrajectory (sessionStart : String) (minFinishedUnix : Int) : Option TrajectoryRow :=
  pickBy TrajectoryRow.isNewer (t.finishedLike sessionStart minFinishedUnix)

/-- `record_bound_feedback`: the draft that is recorded. -/
def recordBoundFeedback (trajectory : TrajectoryRow) : Option (FeedbackDraft F) :=
  if trajectory.channel ≠ q.channel then none
  else some ⟨trajectory.id, q.score, ["telegram-reply"], q.comment.map clipComment⟩

/-- The recorded message that is answered. -/
def answered : Option OutboundMessageRow := q.replyToMessageId.bind (t.sessionFor q.chatId)

/-- The runs that the fallback chooses from. -/
def recent : List TrajectoryRow :=
  t.finishedLike (chatSessionId q.chatId) (now - replyFeedbackMaxAgeSecs)

/-- `record_evolution_reply_feedback`: the feedback that is recorded; `none` is `Ok(false)`. -/
def recordEvolutionReplyFeedback : Option (FeedbackDraft F) :=
  match (t.answered q).bind fun o => t.latestFinishedTrajectoryBefore o.sessionId o.sentAt with
  | some trajectory => recordBoundFeedback q trajectory
  | none =>
    match t.latestFinishedTrajectory (chatSessionId q.chatId) (now - replyFeedbackMaxAgeSecs) with
    | none => none
    | some trajectory => if trajectory.channel ≠ q.channel then none else recordBoundFeedback q trajectory

/-- The runs and the messages of a chat. -/
def ofChat (chatId : Int) : FeedbackTables where
  trajectories := t.trajectories.filter fun r => isSessionOf chatId r.sessionId
  outbound := t.outbound.filter fun o => o.chatId = chatId
  trajectoryIds := t.trajectoryIds.sublist (List.filter_sublist.map _)
  messageIds := t.messageIds.sublist (List.filter_sublist.map _)
  sessions o ho := t.sessions o (List.mem_of_mem_filter ho)
  produced o ho id hid := by
    obtain ⟨ho, hchat⟩ := List.mem_filter.mp ho
    obtain ⟨r, hr, hrid, hsession, hfinished⟩ := t.produced o ho id hid
    refine ⟨r, List.mem_filter.mpr ⟨hr, ?_⟩, hrid, hsession, hfinished⟩
    rw [hsession, ← of_decide_eq_true hchat]
    exact t.sessions o ho

/-- A row of the list that no other is newer than. -/
def IsNewest (r : TrajectoryRow) (rows : List TrajectoryRow) : Prop :=
  r ∈ rows ∧ ∀ r' ∈ rows, r.isNewer r' = true

/-! ## The law and its condition -/

/-- The feedback goes to a run of the chat; if it answers a recorded message, to the run whose reply the message
is; and the runs and messages of other chats do not matter. -/
structure BindsRight : Prop where
  own : ∀ draft, t.recordEvolutionReplyFeedback q now = some draft →
    ∃ r ∈ t.trajectories, r.id = draft.trajectoryId ∧ isSessionOf q.chatId r.sessionId = true
  exact : ∀ o id, t.answered q = some o → o.producer = some id →
    (t.recordEvolutionReplyFeedback q now).map FeedbackDraft.trajectoryId = some id
  undisturbed : t.recordEvolutionReplyFeedback q now = (t.ofChat q.chatId).recordEvolutionReplyFeedback q now

/-- The run whose reply is answered was the newest of its session when the message was recorded, and of the
channel. Where no finished run of an answered message is found, the newest recent run under the `LIKE` pattern
is one of the chat, or neither it nor the newest of the chat is of the channel. -/
structure Bindable : Prop where
  newest : ∀ o id, t.answered q = some o → o.producer = some id →
    ∃ r, IsNewest r (t.finishedBefore o.sessionId o.sentAt) ∧ r.id = id ∧ r.channel = q.channel
  own : (∀ o, t.answered q = some o → t.finishedBefore o.sessionId o.sentAt = []) →
    ∀ r, IsNewest r (t.recent q now) → isSessionOf q.chatId r.sessionId = true ∨
      (r.channel ≠ q.channel ∧
        ∀ o, IsNewest o ((t.recent q now).filter fun o => isSessionOf q.chatId o.sessionId) →
          o.channel ≠ q.channel)

end FeedbackTables

theorem isNewer_total (a b : TrajectoryRow) : a.isNewer b = true ∨ b.isNewer a = true := by
  simp only [TrajectoryRow.isNewer, decide_eq_true_eq]
  rcases Int.lt_trichotomy (a.finishedAt.getD 0) (b.finishedAt.getD 0) with h | h | h
  · exact .inr (.inl h)
  · rcases String.le_total a.id b.id with hid | hid
    · exact .inr (.inr ⟨h, hid⟩)
    · exact .inl (.inr ⟨h.symm, hid⟩)
  · exact .inl (.inl h)

theorem isNewer_trans (a b c : TrajectoryRow) (hab : a.isNewer b = true) (hbc : b.isNewer c = true) :
    a.isNewer c = true := by
  simp only [TrajectoryRow.isNewer, decide_eq_true_eq] at hab hbc ⊢
  rcases hab with hab | ⟨hab, hid⟩
  · left
    omega
  · rcases hbc with hbc | ⟨hbc, hid'⟩
    · left
      omega
    · exact .inr ⟨hbc.trans hab, String.le_trans hid' hid⟩

namespace FeedbackTables

variable {F : Type} {t : FeedbackTables} {q : ReplyFeedback F} {now : Int}

theorem pick_eq_some_iff {p : TrajectoryRow → Bool} {r : TrajectoryRow} :
    pickBy TrajectoryRow.isNewer (t.trajectories.filter p) = some r ↔ IsNewest r (t.trajectories.filter p) := by
  constructor
  · exact fun h => ⟨pickBy_mem h, pickBy_before isNewer_total isNewer_trans h⟩
  · rintro ⟨hr, hnewest⟩
    cases hpick : pickBy TrajectoryRow.isNewer (t.trajectories.filter p) with
    | none =>
      rw [pickBy_eq_none.mp hpick] at hr
      exact absurd hr List.not_mem_nil
    | some r' =>
      have hr' := pickBy_mem hpick
      have h₁ := hnewest r' hr'
      have h₂ := pickBy_before isNewer_total isNewer_trans hpick r hr
      simp only [TrajectoryRow.isNewer, decide_eq_true_eq] at h₁ h₂
      have hid : r'.id = r.id := by
        rcases h₁ with h₁ | ⟨h₁, hle⟩
        · rcases h₂ with h₂ | ⟨h₂, -⟩ <;> omega
        · rcases h₂ with h₂ | ⟨-, hle'⟩
          · omega
          · exact String.le_antisymm hle hle'
      rw [eq_of_key_eq t.trajectoryIds (List.mem_of_mem_filter hr') (List.mem_of_mem_filter hr) hid]

/-! ## What the two paths look at -/

theorem answered_mem {o : OutboundMessageRow} (h : t.answered q = some o) :
    o ∈ t.outbound ∧ o.chatId = q.chatId := by
  obtain ⟨messageId, -, hfind⟩ := Option.bind_eq_some_iff.mp h
  unfold sessionFor at hfind
  have hkey := List.find?_some hfind
  rw [decide_eq_true_eq] at hkey
  exact ⟨List.mem_of_find?_eq_some hfind, (Prod.mk.inj hkey).1⟩

variable (t q now)

theorem answered_ofChat : (t.ofChat q.chatId).answered q = t.answered q := by
  unfold answered
  congr 1
  funext messageId
  unfold sessionFor ofChat
  dsimp only
  rw [List.find?_filter]
  congr 1
  funext o
  by_cases h : (o.chatId, o.messageId) = (q.chatId, messageId)
  · simp [(Prod.mk.inj h).1, (Prod.mk.inj h).2]
  · simp [h]

variable {t q now}

theorem finishedBefore_ofChat {sessionId : String} (h : isSessionOf q.chatId sessionId = true) (beforeUnix : Int) :
    (t.ofChat q.chatId).finishedBefore sessionId beforeUnix = t.finishedBefore sessionId beforeUnix := by
  unfold finishedBefore ofChat
  dsimp only
  rw [List.filter_filter]
  refine List.filter_congr fun r _ => ?_
  by_cases hr : r.sessionId = sessionId
  · rw [hr, h, Bool.and_true]
  · simp [hr]

variable (t q now)

theorem recent_ofChat : (t.ofChat q.chatId).recent q now =
    (t.recent q now).filter fun r => isSessionOf q.chatId r.sessionId := by
  unfold recent finishedLike ofChat
  dsimp only
  rw [List.filter_filter, List.filter_filter]
  exact List.filter_congr fun r _ => Bool.and_comm _ _

/-- The run that the exact path finds. -/
def exactRun : Option TrajectoryRow :=
  (t.answered q).bind fun o => t.latestFinishedTrajectoryBefore o.sessionId o.sentAt

theorem exactRun_ofChat : (t.ofChat q.chatId).exactRun q = t.exactRun q := by
  unfold exactRun
  rw [answered_ofChat]
  cases ho : t.answered q with
  | none => rfl
  | some o =>
    obtain ⟨hmem, hchat⟩ := answered_mem ho
    have hsession := t.sessions o hmem
    rw [hchat] at hsession
    simp only [Option.bind_some, latestFinishedTrajectoryBefore, finishedBefore_ofChat hsession]

theorem record_eq : t.recordEvolutionReplyFeedback q now = match t.exactRun q with
    | some r => recordBoundFeedback q r
    | none => (pickBy TrajectoryRow.isNewer (t.recent q now)).bind (recordBoundFeedback q) := by
  unfold recordEvolutionReplyFeedback exactRun
  split
  · rfl
  · show (match t.latestFinishedTrajectory _ _ with
      | none => none
      | some trajectory => if trajectory.channel ≠ q.channel then none else recordBoundFeedback q trajectory) =
      (t.latestFinishedTrajectory (chatSessionId q.chatId) (now - replyFeedbackMaxAgeSecs)).bind _
    cases t.latestFinishedTrajectory (chatSessionId q.chatId) (now - replyFeedbackMaxAgeSecs) with
    | none => rfl
    | some r =>
      rw [Option.bind_some]
      dsimp only
      split_ifs with hchannel
      · rw [recordBoundFeedback, if_pos hchannel]
      · rfl

variable {t q now}

theorem recordBoundFeedback_eq_none {r : TrajectoryRow} :
    recordBoundFeedback q r = none ↔ r.channel ≠ q.channel := by
  unfold recordBoundFeedback
  split_ifs with h
  · exact ⟨fun _ => h, fun _ => rfl⟩
  · exact ⟨nofun, fun h' => absurd h' h⟩

theorem recordBoundFeedback_eq_some {r : TrajectoryRow} {draft : FeedbackDraft F}
    (h : recordBoundFeedback q r = some draft) : draft.trajectoryId = r.id ∧ r.channel = q.channel := by
  unfold recordBoundFeedback at h
  split_ifs at h with hchannel
  cases h
  exact ⟨rfl, not_not.mp hchannel⟩

theorem exactRun_eq_some {r : TrajectoryRow} (h : t.exactRun q = some r) : ∃ o, t.answered q = some o ∧
    IsNewest r (t.finishedBefore o.sessionId o.sentAt) ∧ isSessionOf q.chatId r.sessionId = true := by
  obtain ⟨o, ho, hpick⟩ := Option.bind_eq_some_iff.mp h
  have hnewest := pick_eq_some_iff.mp hpick
  obtain ⟨-, hr⟩ := List.mem_filter.mp hnewest.1
  rw [Bool.and_eq_true, decide_eq_true_eq] at hr
  obtain ⟨hmem, hchat⟩ := answered_mem ho
  refine ⟨o, ho, hnewest, ?_⟩
  rw [hr.1, ← hchat]
  exact t.sessions o hmem

theorem exactRun_eq_none (h : t.exactRun q = none) {o : OutboundMessageRow} (ho : t.answered q = some o) :
    t.finishedBefore o.sessionId o.sentAt = [] ∧ o.producer = none := by
  rw [exactRun, ho, Option.bind_some] at h
  have hnil := pickBy_eq_none.mp h
  refine ⟨hnil, ?_⟩
  cases hproducer : o.producer with
  | none => rfl
  | some id =>
    obtain ⟨r, hr, -, hsession, hfinished⟩ := t.produced o (answered_mem ho).1 id hproducer
    have hmem : r ∈ t.finishedBefore o.sessionId o.sentAt :=
      List.mem_filter.mpr ⟨hr, by rw [hsession, hfinished, decide_eq_true rfl]; rfl⟩
    rw [hnil] at hmem
    exact absurd hmem List.not_mem_nil

/-! ## The exact path -/

theorem bindsRight_iff_of_exact {r : TrajectoryRow} (h : t.exactRun q = some r) :
    t.BindsRight q now ↔ t.Bindable q now := by
  have hrecord : t.recordEvolutionReplyFeedback q now = recordBoundFeedback q r := by rw [record_eq, h]
  obtain ⟨o, ho, hnewest, hsession⟩ := exactRun_eq_some h
  constructor
  · intro hbinds
    refine ⟨fun o' id ho' hid => ?_, fun hno => ?_⟩
    · have hexact := hbinds.exact o' id ho' hid
      rw [hrecord, Option.map_eq_some_iff] at hexact
      obtain ⟨draft, hdraft, rfl⟩ := hexact
      obtain ⟨hrid, hchannel⟩ := recordBoundFeedback_eq_some hdraft
      obtain rfl : o = o' := Option.some.inj (ho.symm.trans ho')
      exact ⟨r, hnewest, hrid.symm, hchannel⟩
    · have hmem := hnewest.1
      rw [hno o ho] at hmem
      exact absurd hmem List.not_mem_nil
  · intro hbindable
    refine ⟨fun draft hdraft => ?_, fun o' id ho' hid => ?_, ?_⟩
    · rw [hrecord] at hdraft
      exact ⟨r, List.mem_of_mem_filter hnewest.1, (recordBoundFeedback_eq_some hdraft).1.symm, hsession⟩
    · obtain ⟨r', hnewest', hrid, hchannel⟩ := hbindable.newest o' id ho' hid
      obtain rfl : o = o' := Option.some.inj (ho.symm.trans ho')
      obtain rfl : r = r' :=
        Option.some.inj ((pick_eq_some_iff.mpr hnewest).symm.trans (pick_eq_some_iff.mpr hnewest'))
      rw [hrecord, recordBoundFeedback, if_neg (not_not.mpr hchannel), Option.map_some, hrid]
    · rw [hrecord, record_eq, exactRun_ofChat, h]

/-! ## The fallback -/

theorem pick_recent {r : TrajectoryRow} :
    pickBy TrajectoryRow.isNewer (t.recent q now) = some r ↔ IsNewest r (t.recent q now) :=
  pick_eq_some_iff

theorem mem_recent {r : TrajectoryRow} (hr : r ∈ t.recent q now) : r ∈ t.trajectories :=
  List.mem_of_mem_filter hr

variable (now) in
theorem record_fallback (h : t.exactRun q = none) : t.recordEvolutionReplyFeedback q now =
    (pickBy TrajectoryRow.isNewer (t.recent q now)).bind (recordBoundFeedback q) := by
  rw [record_eq, h]

theorem foreign_of_bindsRight (h : t.exactRun q = none) (hbinds : t.BindsRight q now) {r : TrajectoryRow}
    (hnewest : IsNewest r (t.recent q now)) (hforeign : ¬ isSessionOf q.chatId r.sessionId = true) :
    r.channel ≠ q.channel ∧ ∀ o, IsNewest o ((t.recent q now).filter fun o => isSessionOf q.chatId o.sessionId) →
      o.channel ≠ q.channel := by
  have hrecord : t.recordEvolutionReplyFeedback q now = recordBoundFeedback q r := by
    rw [record_fallback now h, pick_recent.mpr hnewest, Option.bind_some]
  have hchannel : r.channel ≠ q.channel := by
    intro hchannel
    have hdraft : recordBoundFeedback q r =
        some ⟨r.id, q.score, ["telegram-reply"], q.comment.map clipComment⟩ :=
      if_neg (not_not.mpr hchannel)
    obtain ⟨r', hr', hid, hsession⟩ := hbinds.own _ (hrecord.trans hdraft)
    rw [eq_of_key_eq t.trajectoryIds hr' (mem_recent hnewest.1) hid] at hsession
    exact hforeign hsession
  refine ⟨hchannel, fun o ho => ?_⟩
  have hsame := hbinds.undisturbed
  rw [← recent_ofChat] at ho
  rw [hrecord, recordBoundFeedback_eq_none.mpr hchannel, record_fallback now ((exactRun_ofChat t q).trans h),
    pick_recent.mpr ho, Option.bind_some] at hsame
  exact recordBoundFeedback_eq_none.mp hsame.symm

theorem bindsRight_of_fallback (h : t.exactRun q = none) (hbindable : t.Bindable q now) :
    t.BindsRight q now := by
  have hexact : ∀ o id, t.answered q = some o → o.producer ≠ some id := by
    intro o id ho hid
    rw [(exactRun_eq_none h ho).2] at hid
    cases hid
  have hrecord := record_fallback now h
  have hrecord' := record_fallback (t := t.ofChat q.chatId) now ((exactRun_ofChat t q).trans h)
  rw [recent_ofChat] at hrecord'
  cases hpick : pickBy TrajectoryRow.isNewer (t.recent q now) with
  | none =>
    rw [hpick, Option.bind_none] at hrecord
    rw [pickBy_eq_none.mp hpick] at hrecord'
    refine ⟨fun draft hdraft => ?_, fun o id ho hid => absurd hid (hexact o id ho), hrecord.trans hrecord'.symm⟩
    rw [hrecord] at hdraft
    cases hdraft
  | some r =>
    rw [hpick, Option.bind_some] at hrecord
    have hnewest := pick_recent.mp hpick
    rcases hbindable.own (fun o ho => (exactRun_eq_none h ho).1) r hnewest with hown | ⟨hchannel, hothers⟩
    · -- The newest run is one of the chat, and so the newest of the chat.
      rw [pickBy_filter isNewer_total isNewer_trans (fun r => isSessionOf q.chatId r.sessionId) hpick hown,
        Option.bind_some] at hrecord'
      refine ⟨fun draft hdraft => ?_, fun o id ho hid => absurd hid (hexact o id ho), hrecord.trans hrecord'.symm⟩
      rw [hrecord] at hdraft
      exact ⟨r, mem_recent hnewest.1, (recordBoundFeedback_eq_some hdraft).1.symm, hown⟩
    · -- Nothing is recorded, with the other chats and without them.
      rw [recordBoundFeedback_eq_none.mpr hchannel] at hrecord
      have hnone : (t.ofChat q.chatId).recordEvolutionReplyFeedback q now = none := by
        rw [hrecord']
        cases ho : pickBy TrajectoryRow.isNewer
            ((t.recent q now).filter fun r => isSessionOf q.chatId r.sessionId) with
        | none => rfl
        | some o =>
          rw [← recent_ofChat] at ho
          have hnewest' := pick_recent.mp ho
          rw [recent_ofChat] at hnewest'
          exact recordBoundFeedback_eq_none.mpr (hothers o hnewest')
      refine ⟨fun draft hdraft => ?_, fun o id ho hid => absurd hid (hexact o id ho), hrecord.trans hnone.symm⟩
      rw [hrecord] at hdraft
      cases hdraft

end FeedbackTables

/-- **Feedback on replies**: the feedback of a chat goes to a run of the chat, to the one whose reply is answered
where the message is recorded, and whatever other chats do, exactly under the condition `Bindable`. -/
theorem feedback_binds_right {F : Type} (t : FeedbackTables) (q : ReplyFeedback F) (now : Int) :
    t.BindsRight q now ↔ t.Bindable q now := by
  cases h : t.exactRun q with
  | some r => exact FeedbackTables.bindsRight_iff_of_exact h
  | none =>
    refine ⟨fun hbinds => ⟨fun o id ho hid => ?_, fun _ r hnewest => ?_⟩,
      FeedbackTables.bindsRight_of_fallback h⟩
    · rw [(FeedbackTables.exactRun_eq_none h ho).2] at hid
      cases hid
    · by_cases hown : isSessionOf q.chatId r.sessionId = true
      · exact .inl hown
      · exact .inr (FeedbackTables.foreign_of_bindsRight h hbinds hnewest hown)

namespace Sample

/-- A marker in chat 12, as an answer to message 7. -/
def marker : ReplyFeedback Unit where
  chatId := 12
  replyToMessageId := some 7
  channel := "telegram"
  userId := "5"
  score := ()

/-- The message is not recorded, and the newest run is one of chat 123. -/
def neighbors : FeedbackTables where
  trajectories := [⟨"r1", "tg:12", "telegram", some 100⟩, ⟨"r2", "tg:123", "telegram", some 200⟩]
  outbound := []
  trajectoryIds := by decide
  messageIds := by decide
  sessions := nofun
  produced := nofun

/-- The message is the reply of the first run; a second one of the session has finished before it was recorded. -/
def overtaken : FeedbackTables where
  trajectories := [⟨"r1", "tg:12", "telegram", some 100⟩, ⟨"r2", "tg:12", "telegram", some 110⟩]
  outbound := [⟨12, 7, "tg:12", 120, some "r1"⟩]
  trajectoryIds := by decide
  messageIds := by decide
  sessions o ho := by
    cases List.mem_singleton.mp ho
    decide +kernel
  produced o ho id hid := by
    cases List.mem_singleton.mp ho
    cases hid
    exact ⟨⟨"r1", "tg:12", "telegram", some 100⟩, List.mem_cons_self, rfl, rfl, rfl⟩

end Sample

/-- Feedback of chat 12 goes to a run of chat 123; and feedback on a recorded message to another run than the one
whose reply it is. -/
theorem feedback_misbinds : ¬ Sample.neighbors.BindsRight Sample.marker 300 ∧
    ¬ Sample.overtaken.BindsRight Sample.marker 300 := by
  constructor
  · intro h
    obtain ⟨r, hr, hid, hsession⟩ := h.own ⟨"r2", (), ["telegram-reply"], none⟩ (by decide +kernel)
    simp only [Sample.neighbors, List.mem_cons, List.not_mem_nil, or_false] at hr
    rcases hr with rfl | rfl
    · exact absurd hid (by decide)
    · exact absurd hsession (by decide +kernel)
  · intro h
    have hexact := h.exact ⟨12, 7, "tg:12", 120, some "r1"⟩ "r1" (by decide +kernel) rfl
    exact absurd hexact (by decide +kernel)

end Xiaomaolv
