import Mathlib.Data.List.Nodup
import Xiaomaolv.Telegram.Delivery

/-!
# What a streamed reply leaves in the chat

* `recordedTexts`: what the messages show whose ids the sink has recorded.
* `flushParts_recorded`: a flush that succeeds shows the parts, behind which older messages stay, and it trusts
  what it has noted of the messages.
* `finalizeSink`: the whole of `finalize`, with whether it returns `Ok`.
* **`finalize_shows_iff`**: after any stream, a `finalize` that returns `Ok` leaves exactly the parts of the final
  text in the recorded messages if and only if `Converges`.
-/

namespace Xiaomaolv

/-! ## What the recorded messages show -/

/-- The texts of the messages with these ids. -/
def recordedTexts (chat : List ChatMessage) (messageIds : List Nat) : List (Option TelegramRenderedText) :=
  messageIds.map fun id => chat[id]?.map (·.rendered)

/-- The ids are those of different messages of the chat. -/
structure OwnMessages (chat : List ChatMessage) (messageIds : List Nat) : Prop where
  nodup : messageIds.Nodup
  sent : ∀ id ∈ messageIds, id < chat.length

section Recorded

variable {chat : List ChatMessage} {messageIds : List Nat}

theorem ownMessages_of_slots (h : SlotsAt chat messageIds) : OwnMessages chat messageIds where
  nodup := by
    refine List.nodup_iff_getElem?_ne_getElem?.mpr fun i j hij hj heq => ?_
    obtain ⟨rendered, hi⟩ := h i messageIds[i] (List.getElem?_eq_getElem _)
    obtain ⟨rendered', hj'⟩ := h j messageIds[i] (by rw [← heq, List.getElem?_eq_getElem])
    rw [hi] at hj'
    cases hj'
    exact absurd hij (Nat.lt_irrefl _)
  sent id hid := by
    obtain ⟨i, hi⟩ := List.mem_iff_getElem?.mp hid
    obtain ⟨rendered, hchat⟩ := h i id hi
    exact (List.getElem?_eq_some_iff.mp hchat).1

theorem length_recordedTexts : (recordedTexts chat messageIds).length = messageIds.length := List.length_map _

theorem recordedTexts_append (h : OwnMessages chat messageIds) (new : List ChatMessage) :
    recordedTexts (chat ++ new) messageIds = recordedTexts chat messageIds := by
  refine List.map_congr_left fun id hid => ?_
  rw [List.getElem?_append_left (h.sent id hid)]

theorem OwnMessages.modify (h : OwnMessages chat messageIds) (id : Nat) (f : ChatMessage → ChatMessage) :
    OwnMessages (chat.modify id f) messageIds :=
  ⟨h.nodup, fun id' hid' => by rw [List.length_modify]; exact h.sent id' hid'⟩

theorem recordedTexts_modify (h : OwnMessages chat messageIds) {i id : Nat} (hid : messageIds[i]? = some id)
    (part : TelegramRenderedText) :
    recordedTexts (chat.modify id fun m => { m with rendered := part }) messageIds =
      (recordedTexts chat messageIds).set i (some part) := by
  obtain ⟨hi, rfl⟩ := List.getElem?_eq_some_iff.mp hid
  refine List.ext_getElem? fun j => ?_
  rw [List.getElem?_set, recordedTexts, recordedTexts, List.getElem?_map, List.getElem?_map, List.length_map]
  by_cases hij : i = j
  · subst hij
    have hlt := h.sent _ (List.getElem_mem hi)
    rw [if_pos rfl, if_pos hi, List.getElem?_eq_getElem hi, Option.map_some, List.getElem?_modify,
      List.getElem?_eq_getElem hlt]
    simp
  · rw [if_neg hij]
    cases hj : messageIds[j]? with
    | none => rfl
    | some id =>
      have hne : messageIds[i] ≠ id := by
        rintro rfl
        obtain ⟨hjlt, heq⟩ := List.getElem?_eq_some_iff.mp hj
        exact hij ((h.nodup.getElem_inj_iff).mp heq.symm)
      rw [Option.map_some, Option.map_some, List.getElem?_modify]
      simp [hne]

theorem OwnMessages.push (h : OwnMessages chat messageIds) (m : ChatMessage) :
    OwnMessages (chat ++ [m]) (messageIds ++ [chat.length]) where
  nodup := by
    refine List.nodup_append.mpr ⟨h.nodup, List.nodup_singleton _, fun id hid id' hid' => ?_⟩
    have hlt := h.sent id hid
    have heq := List.mem_singleton.mp hid'
    omega
  sent id hid := by
    rw [List.length_append, List.length_singleton]
    rcases List.mem_append.mp hid with hid | hid
    · have hlt := h.sent id hid
      omega
    · have heq := List.mem_singleton.mp hid
      omega

theorem recordedTexts_push (h : OwnMessages chat messageIds) (m : ChatMessage) :
    recordedTexts (chat ++ [m]) (messageIds ++ [chat.length]) = recordedTexts chat messageIds ++ [some m.rendered] := by
  rw [recordedTexts, List.map_append]
  refine congrArg₂ (· ++ ·) (recordedTexts_append h [m]) ?_
  rw [List.map_singleton, List.getElem?_append_right (Nat.le_refl _), Nat.sub_self]
  rfl

end Recorded

/-! ## A flush -/

/-- The calls of a flush are accepted: of an edit where the part at a position is not the one that was noted, of a
send where there is no message. -/
def NeededAccepted (rendered parts : List TelegramRenderedText) (count : Nat) (api : Nat → Except String Int) : Prop :=
  ∀ i < parts.length, (i < count ∧ rendered[i]? = parts[i]?) ∨ (api i).isOk = true

section Flush

variable {rendered : List TelegramRenderedText} {api : Nat → Except String Int} {chat : List ChatMessage}
  {messageIds : List Nat}

/-- What the message at a position shows after a flush that succeeds. -/
def flushedText (rendered : List TelegramRenderedText) (shown : List (Option TelegramRenderedText)) (i : Nat) :
    Option TelegramRenderedText → Option (Option TelegramRenderedText)
  | none => shown[i]?
  | some part => if i < shown.length ∧ rendered[i]? = some part then shown[i]? else some (some part)

/-- What a flush leaves of the recorded messages, from the part at `idx` on. -/
structure Flushed (rendered : List TelegramRenderedText) (api : Nat → Except String Int) (idx : Nat)
    (parts : List TelegramRenderedText) (chat : List ChatMessage) (messageIds : List Nat) (out : Flush) : Prop where
  own : OwnMessages out.chat out.messageIds
  ids : messageIds <+: out.messageIds
  ok_iff : out.ok = true ↔
    ∀ i < parts.length, (idx + i < messageIds.length ∧ rendered[idx + i]? = parts[i]?) ∨ (api (idx + i)).isOk = true
  before : out.ok = true → ∀ i < idx,
    (recordedTexts out.chat out.messageIds)[i]? = (recordedTexts chat messageIds)[i]?
  behind : out.ok = true → ∀ i, (recordedTexts out.chat out.messageIds)[idx + i]? =
    flushedText rendered (recordedTexts chat messageIds) (idx + i) parts[i]?

theorem flushed_nil (idx : Nat) (hown : OwnMessages chat messageIds) :
    Flushed rendered api idx [] chat messageIds { chat, messageIds, ok := true } where
  own := hown
  ids := List.prefix_refl _
  ok_iff := ⟨fun _ _ h => (nomatch h), fun _ => rfl⟩
  before _ _ _ := rfl
  behind _ _ := rfl

theorem flushed_rejected {idx : Nat} {part : TelegramRenderedText} {parts : List TelegramRenderedText}
    (hown : OwnMessages chat messageIds) (hneeded : ¬ (idx < messageIds.length ∧ rendered[idx]? = some part))
    (hrejected : ¬ (api idx).isOk = true) :
    Flushed rendered api idx (part :: parts) chat messageIds { chat, messageIds, ok := false } where
  own := hown
  ids := List.prefix_refl _
  ok_iff := ⟨nofun, fun h => ((h 0 (Nat.succ_pos _)).elim hneeded hrejected).elim⟩
  before := nofun
  behind := nofun

/-- A part that is shown, edited or sent, and the flush of those behind it. -/
theorem flushed_cons {idx : Nat} {part : TelegramRenderedText} {parts : List TelegramRenderedText} {out : Flush}
    {chat' : List ChatMessage} {messageIds' : List Nat} (hidx : idx ≤ messageIds.length)
    (hids : messageIds <+: messageIds') (hlen : messageIds'.length = max messageIds.length (idx + 1))
    (hcall : (idx < messageIds.length ∧ rendered[idx]? = some part) ∨ (api idx).isOk = true)
    (hother : ∀ i, i ≠ idx → (recordedTexts chat' messageIds')[i]? = (recordedTexts chat messageIds)[i]?)
    (hself : (recordedTexts chat' messageIds')[idx]? =
      flushedText rendered (recordedTexts chat messageIds) idx (some part))
    (h : Flushed rendered api (idx + 1) parts chat' messageIds' out) :
    Flushed rendered api idx (part :: parts) chat messageIds out where
  own := h.own
  ids := hids.trans h.ids
  ok_iff := by
    rw [h.ok_iff, hlen]
    constructor
    · intro hall i hi
      cases i with
      | zero => exact hcall
      | succ i =>
        have hthis := hall i (Nat.lt_of_succ_lt_succ hi)
        rw [Nat.add_right_comm, Nat.add_assoc] at hthis
        exact hthis.imp_left fun ⟨hlt, heq⟩ => ⟨by omega, heq⟩
    · intro hall i hi
      have hthis := hall (i + 1) (Nat.succ_lt_succ hi)
      rw [Nat.add_right_comm, Nat.add_assoc]
      exact hthis.imp_left fun ⟨hlt, heq⟩ => ⟨by omega, heq⟩
  before hok i hi := by
    rw [h.before hok i (by omega), hother i (by omega)]
  behind hok i := by
    cases i with
    | zero =>
      rw [Nat.add_zero, h.before hok idx (Nat.lt_succ_self _), hself]
      rfl
    | succ i =>
      have hthis := h.behind hok i
      rw [Nat.add_right_comm, Nat.add_assoc] at hthis
      have hsame := hother (idx + (i + 1)) (by omega)
      have hlt : idx + (i + 1) < (recordedTexts chat' messageIds').length ↔
          idx + (i + 1) < (recordedTexts chat messageIds).length := by
        rw [length_recordedTexts, length_recordedTexts, hlen]
        omega
      rw [hthis, List.getElem?_cons_succ]
      cases parts[i]? with
      | none => exact hsame
      | some part => simp only [flushedText, hlt, hsame]

theorem flushParts_recorded (rendered : List TelegramRenderedText) (api : Nat → Except String Int) (idx : Nat)
    (parts : List TelegramRenderedText) (hown : OwnMessages chat messageIds) (hidx : idx ≤ messageIds.length) :
    Flushed rendered api idx parts chat messageIds (flushParts rendered api idx parts chat messageIds) := by
  induction parts generalizing idx chat messageIds with
  | nil => exact flushed_nil idx hown
  | cons part parts ih =>
    rw [flushParts]
    cases hid : messageIds[idx]? with
    | some id =>
      have hlt := (List.getElem?_eq_some_iff.mp hid).1
      have hmax : messageIds.length = max messageIds.length (idx + 1) := by omega
      dsimp only
      split_ifs with hshown hcall
      · refine flushed_cons hidx (List.prefix_refl _) hmax (.inl ⟨hlt, hshown⟩) (fun _ _ => rfl) ?_ (ih _ hown hlt)
        rw [flushedText, if_pos ⟨by rwa [length_recordedTexts], hshown⟩]
      · have hset := recordedTexts_modify hown hid part
        refine flushed_cons hidx (List.prefix_refl _) hmax (.inr hcall) (fun i hi => ?_) ?_
          (ih _ (hown.modify id _) hlt)
        · rw [hset, List.getElem?_set_ne hi.symm]
        · rw [hset, List.getElem?_set_self (by rwa [length_recordedTexts]), flushedText,
            if_neg fun h => hshown h.2]
      · exact flushed_rejected hown (fun h => hshown h.2) hcall
    | none =>
      have hlen := List.getElem?_eq_none_iff.mp hid
      obtain rfl : idx = messageIds.length := by omega
      dsimp only
      split_ifs with hcall
      · have hpush := recordedTexts_push hown { origin := .part messageIds.length, rendered := part }
        refine flushed_cons hidx (List.prefix_append _ _) ?_ (.inr hcall) (fun i hi => ?_) ?_
          (ih _ (hown.push _) ?_)
        · rw [List.length_append, List.length_singleton]
          omega
        · rw [hpush, List.getElem?_append]
          split_ifs with hi'
          · rfl
          · rw [length_recordedTexts] at hi' ⊢
            rw [List.getElem?_eq_none (by rw [List.length_singleton]; omega),
              List.getElem?_eq_none (by rw [length_recordedTexts]; omega)]
        · have hend : (recordedTexts chat messageIds).length = messageIds.length := length_recordedTexts
          rw [hpush, flushedText, if_neg (by omega), List.getElem?_append_right (by omega), hend, Nat.sub_self]
          rfl
        · rw [List.length_append, List.length_singleton]
      · exact flushed_rejected hown (fun h => absurd h.1 (Nat.lt_irrefl _)) hcall

/-- A flush that succeeds shows the parts if and only if no message is left over, and the messages show what the
sink has noted where it matters. -/
theorem shows_of_flush_iff {rendered parts : List TelegramRenderedText} {out : Flush}
    (h : Flushed rendered api 0 parts chat messageIds out) (hok : out.ok = true) :
    recordedTexts out.chat out.messageIds = parts.map some ↔
      messageIds.length ≤ parts.length ∧ ∀ i < messageIds.length, rendered[i]? = parts[i]? →
        (recordedTexts chat messageIds)[i]? = parts[i]?.map some := by
  have hall : ∀ i, (recordedTexts out.chat out.messageIds)[i]? =
      flushedText rendered (recordedTexts chat messageIds) i parts[i]? := by
    intro i
    have hthis := h.behind hok i
    rwa [Nat.zero_add] at hthis
  constructor
  · intro hshown
    have hle : messageIds.length ≤ parts.length := by
      by_contra hlong
      have hstale := hall parts.length
      rw [hshown, List.getElem?_eq_none (by rw [List.length_map]), List.getElem?_eq_none (Nat.le_refl _)] at hstale
      have hnone := List.getElem?_eq_none_iff.mp hstale.symm
      rw [length_recordedTexts] at hnone
      omega
    refine ⟨hle, fun i hi hnoted => ?_⟩
    have hpart := hall i
    rw [hshown, List.getElem?_map, List.getElem?_eq_getElem (by omega), Option.map_some, flushedText,
      if_pos ⟨by rwa [length_recordedTexts], by rw [hnoted, List.getElem?_eq_getElem (by omega)]⟩] at hpart
    rw [← hpart, List.getElem?_eq_getElem (by omega)]
    rfl
  · rintro ⟨hle, htrust⟩
    refine List.ext_getElem? fun i => ?_
    rw [hall i, List.getElem?_map]
    cases hpart : parts[i]? with
    | none =>
      have hi := List.getElem?_eq_none_iff.mp hpart
      exact List.getElem?_eq_none (by rw [length_recordedTexts]; omega)
    | some part =>
      rw [flushedText]
      split_ifs with hnoted
      · have hi := hnoted.1
        rw [length_recordedTexts] at hi
        rw [htrust i hi (hnoted.2.trans hpart.symm), hpart]
      · rfl

theorem messageIds_of_flush_iff (rendered : List TelegramRenderedText) (api : Nat → Except String Int)
    {parts : List TelegramRenderedText} (hne : parts ≠ [])
    (hown : OwnMessages chat messageIds) :
    (flushParts rendered api 0 parts chat messageIds).messageIds = [] ↔ messageIds = [] ∧ (api 0).isOk = false := by
  obtain ⟨part, parts, rfl⟩ := List.exists_cons_of_ne_nil hne
  constructor
  · intro hout
    have hids := (flushParts_recorded rendered api 0 (part :: parts) hown (Nat.zero_le _)).ids
    rw [hout, List.prefix_nil] at hids
    refine ⟨hids, ?_⟩
    by_contra hcall
    rw [hids] at hown hout
    rw [flushParts] at hout
    dsimp only [List.getElem?_nil] at hout
    rw [if_pos (by simpa using hcall)] at hout
    have hrest := (flushParts_recorded rendered api 1 parts (hown.push { origin := .part 0, rendered := part })
      (Nat.le_refl _)).ids
    rw [hout, List.prefix_nil] at hrest
    exact absurd hrest (by simp)
  · rintro ⟨rfl, hcall⟩
    rw [flushParts]
    dsimp only [List.getElem?_nil]
    rw [hcall, if_neg Bool.false_ne_true]

end Flush

/-! ## A send of the whole text -/

section Send

variable {parse : String → List MarkdownEvent} {reply : TelegramReply} {api : Nat → Except String Int}

theorem sendRendered_isOk (chatId : Int) (messageThreadId replyToMessageId : Option Int) (idx : Nat)
    (parts : List TelegramRenderedText) :
    (sendRendered api chatId messageThreadId replyToMessageId idx parts).result.isOk = true ↔
      ∀ i < parts.length, (api (idx + i)).isOk = true := by
  induction parts generalizing idx with
  | nil =>
    refine ⟨fun _ i hi => ?_, fun _ => rfl⟩
    rw [List.length_nil] at hi
    omega
  | cons part parts ih =>
    rw [sendRendered]
    dsimp only
    cases hcall : api idx with
    | error e =>
      refine ⟨fun hok => (by cases hok), fun h => ?_⟩
      have hfirst := h 0 (Nat.succ_pos _)
      rw [Nat.add_zero, hcall] at hfirst
      exact hfirst
    | ok id =>
      dsimp only
      rw [show (Except.map (id :: ·) (sendRendered api chatId messageThreadId replyToMessageId (idx + 1) parts).result).isOk =
        (sendRendered api chatId messageThreadId replyToMessageId (idx + 1) parts).result.isOk from by
          cases (sendRendered api chatId messageThreadId replyToMessageId (idx + 1) parts).result <;> rfl, ih]
      constructor
      · intro h i hi
        cases i with
        | zero =>
          rw [Nat.add_zero, hcall]
          rfl
        | succ i =>
          have hrest := h i (Nat.lt_of_succ_lt_succ hi)
          rwa [Nat.add_right_comm, Nat.add_assoc] at hrest
      · intro h i hi
        have hrest := h (i + 1) (Nat.succ_lt_succ hi)
        rwa [Nat.add_right_comm, Nat.add_assoc]

theorem sendOk_iff : Delivery.sendOk parse reply api = true ↔
    ∀ i < (renderTelegramTextParts parse reply.text telegramMaxTextChars).length, (api i).isOk = true := by
  rw [Delivery.sendOk, sendMessageWithIds, sendRendered_isOk]
  simp only [Nat.zero_add]

theorem chat_sendText (s : Delivery) (hok : Delivery.sendOk parse reply api = true) (enqueued : Bool) (now : Int) :
    (s.sendText parse reply api enqueued now).chat =
      s.chat ++ placed .part (renderTelegramTextParts parse reply.text telegramMaxTextChars) := by
  rcases sendRendered_spec api reply.chatId reply.messageThreadId reply.replyToMessageId 0
    (renderTelegramTextParts parse reply.text telegramMaxTextChars) with ⟨-, -, -, hshown⟩ | ⟨-, -, -, -, -, -, -, e, he⟩
  · exact congrArg (fun shown => s.chat ++ placed .part shown) hshown
  · rw [Delivery.sendOk, sendMessageWithIds, he] at hok
    cases hok

theorem recordedTexts_send {chat : List ChatMessage} {messageIds : List Nat} (h : OwnMessages chat messageIds)
    (parts : List TelegramRenderedText) :
    recordedTexts (chat ++ placed .part parts) (messageIds ++ List.range' chat.length parts.length) =
        recordedTexts chat messageIds ++ parts.map some ∧
      OwnMessages (chat ++ placed .part parts) (messageIds ++ List.range' chat.length parts.length) := by
  have hlen : (placed .part parts).length = parts.length := List.length_mapIdx
  constructor
  · rw [recordedTexts, List.map_append]
    refine congrArg₂ (· ++ ·) (recordedTexts_append h _) (List.ext_getElem? fun i => ?_)
    rw [List.getElem?_map, List.getElem?_map]
    by_cases hi : i < parts.length
    · rw [List.getElem?_range' hi, Option.map_some, List.getElem?_append_right (by omega), placed, List.getElem?_mapIdx,
        show chat.length + 1 * i - chat.length = i by omega, List.getElem?_eq_getElem hi]
      rfl
    · rw [List.getElem?_eq_none (by rw [List.length_range']; omega), List.getElem?_eq_none (by omega)]
      rfl
  · refine ⟨List.nodup_append.mpr ⟨h.nodup, List.nodup_range', fun id hid id' hid' => ?_⟩, fun id hid => ?_⟩
    · have hlt := h.sent id hid
      have hge := (List.mem_range'_1.mp hid').1
      omega
    · rw [List.length_append, hlen]
      rcases List.mem_append.mp hid with hid | hid
      · have hlt := h.sent id hid
        omega
      · have hlt := (List.mem_range'_1.mp hid).2
        omega

end Send

/-! ## The whole of `finalize` -/

/-- The results of the calls of `finalize`: of the final send after drafts, of the flush, and of the send of the
last fallback. -/
structure FinalizeCalls where
  final : Nat → Except String Int
  flush : Nat → Except String Int
  fallback : Nat → Except String Int
  enqueued : Bool
  now : Int

/-- `finalize`, and whether it returns `Ok`. -/
def finalizeSink (parse : String → List MarkdownEvent) (reply : TelegramReply) (s : Delivery) (calls : FinalizeCalls) :
    Delivery × Bool :=
  let s := s.finalize parse reply calls.final calls.enqueued calls.now
  if s.phase = .done then (s, true)
  else
    let s := s.flush parse calls.flush
    if s.phase = .done then (s, true)
    else (s.fallback parse reply calls.fallback calls.enqueued calls.now, Delivery.sendOk parse reply calls.fallback)

/-- A piece of the stream, whether the interval of the edits has passed, and the results of the calls of its
flush. -/
structure StreamDelta where
  text : String
  due : Bool
  draft : Bool
  api : Nat → Except String Int

/-- The sink after a stream. -/
def streamed (parse : String → List MarkdownEvent) (preferDraft draftSupported : Bool) (deltas : List StreamDelta) :
    Delivery :=
  deltas.foldl (fun s d => s.delta parse d.text d.due d.draft d.api) (.start .streaming preferDraft draftSupported)

/-- The recorded messages show exactly these parts, in order, each once. -/
def ShowsExactly (parts : List TelegramRenderedText) (s : Delivery) : Prop :=
  recordedTexts s.chat s.sink.messageIds = parts.map some ∧ s.sink.messageIds.Nodup

/-- The stream has shown drafts only. -/
def Drafting (s : Delivery) : Prop :=
  s.sink.preferDraft = true ∧ s.sink.draftSupported = true ∧ s.sink.messageIds = []

/-- When `finalize` leaves exactly the parts. Without a part no message may have been sent. Otherwise the final send
after drafts is accepted; or what the sink has noted are the parts, and the messages do show them; or the flush
succeeds, with no more messages than parts, each of which shows its part where the sink has noted so; or no message
has been sent, and the first send of the flush is rejected. -/
def Converges (parts : List TelegramRenderedText) (s : Delivery) (calls : FinalizeCalls) : Prop :=
  if parts = [] then s.sink.messageIds = []
  else (Drafting s ∧ ∀ i < parts.length, (calls.final i).isOk = true) ∨
    if parts = s.sink.renderedParts then recordedTexts s.chat s.sink.messageIds = parts.map some
    else
      (NeededAccepted s.sink.renderedParts parts s.sink.messageIds.length calls.flush ∧
        s.sink.messageIds.length ≤ parts.length ∧
        ∀ i < s.sink.messageIds.length, s.sink.renderedParts[i]? = parts[i]? →
          (recordedTexts s.chat s.sink.messageIds)[i]? = parts[i]?.map some) ∨
      (s.sink.messageIds = [] ∧ (calls.flush 0).isOk = false)

section Finalize

variable {parse : String → List MarkdownEvent} {reply : TelegramReply} {s : Delivery} {calls : FinalizeCalls}

theorem streamed_slots (parse : String → List MarkdownEvent) (preferDraft draftSupported : Bool)
    (deltas : List StreamDelta) : (streamed parse preferDraft draftSupported deltas).phase = .streaming ∧
      SlotsAt (streamed parse preferDraft draftSupported deltas).chat
        (streamed parse preferDraft draftSupported deltas).sink.messageIds := by
  rw [streamed]
  have hstart : (Delivery.start .streaming preferDraft draftSupported).phase = .streaming ∧
      SlotsAt (Delivery.start .streaming preferDraft draftSupported).chat
        (Delivery.start .streaming preferDraft draftSupported).sink.messageIds := ⟨rfl, nofun⟩
  generalize Delivery.start .streaming preferDraft draftSupported = s at hstart ⊢
  induction deltas generalizing s with
  | nil => exact hstart
  | cons d deltas ih =>
    refine ih _ ?_
    obtain ⟨hphase, hslots⟩ := hstart
    dsimp only
    unfold Delivery.delta
    split_ifs
    · generalize hout : Delivery.flushSink parse { s with sink := { s.sink with pendingText := s.sink.pendingText ++ d.text } }
        false d.due d.draft d.api = out
      obtain ⟨hphase', -, hslots', -⟩ := Delivery.flushSink_spec (P := fun _ => True) hout hslots fun _ _ _ _ => trivial
      exact ⟨hphase'.trans hphase, hslots'⟩
    · exact ⟨hphase, hslots⟩

theorem parts_of_empty (h : reply.text = "") : renderTelegramTextParts parse reply.text telegramMaxTextChars = [] := by
  rw [h]
  rfl

theorem showsExactly_iff {parts : List TelegramRenderedText} (hown : OwnMessages s.chat s.sink.messageIds) :
    ShowsExactly parts s ↔ recordedTexts s.chat s.sink.messageIds = parts.map some :=
  and_iff_left hown.nodup

theorem showsExactly_send_iff {parts : List TelegramRenderedText} {chat : List ChatMessage} {messageIds : List Nat}
    (hown : OwnMessages chat messageIds) (hchat : s.chat = chat ++ placed .part parts)
    (hids : s.sink.messageIds = messageIds ++ List.range' chat.length parts.length) :
    ShowsExactly parts s ↔ messageIds = [] := by
  obtain ⟨htexts, hown'⟩ := recordedTexts_send hown parts
  rw [ShowsExactly, hchat, hids, htexts, and_iff_left hown'.nodup, List.append_left_eq_self]
  exact List.map_eq_nil_iff

theorem flushSink_same {api : Nat → Except String Int}
    (h : renderTelegramTextParts parse s.sink.pendingText telegramMaxTextChars = [] ∨
      renderTelegramTextParts parse s.sink.pendingText telegramMaxTextChars = s.sink.renderedParts) :
    s.flushSink parse true true false api = (s, true) := by
  rw [Delivery.flushSink]
  split_ifs with hempty
  · rfl
  · refine if_pos ?_
    rcases h with h | h
    · rw [h]
      rfl
    · rw [← h, decide_eq_true rfl, Bool.or_true]

theorem flushSink_new (api : Nat → Except String Int) {parts : List TelegramRenderedText}
    (hparts : renderTelegramTextParts parse s.sink.pendingText telegramMaxTextChars = parts) (hne : parts ≠ [])
    (hnew : parts ≠ s.sink.renderedParts)
    (hdraft : (s.sink.preferDraft && s.sink.draftSupported && s.sink.messageIds.isEmpty) = false) :
    let out := flushParts s.sink.renderedParts api 0 parts s.chat s.sink.messageIds
    let flushed := s.flushSink parse true true false api
    flushed.1.chat = out.chat ∧ flushed.1.sink.messageIds = out.messageIds ∧
      flushed.1.sink.pendingText = s.sink.pendingText ∧ flushed.2 = out.ok := by
  have hsome : s.sink.pendingText.isEmpty = false := by
    rw [Bool.eq_false_iff, ne_eq, String.isEmpty_iff]
    intro hempty
    rw [hempty] at hparts
    exact hne hparts.symm
  have hchanged : (parts.isEmpty || decide (parts = s.sink.renderedParts)) = false := by
    rw [List.isEmpty_eq_false_iff.mpr hne, decide_eq_false hnew]
    rfl
  rw [Delivery.flushSink, hsome, hparts]
  simp only [Bool.not_true, Bool.false_and, Bool.or_false, Bool.false_eq_true, if_false, hdraft, hchanged,
    and_self]

theorem fallback_ok (parse : String → List MarkdownEvent) (hphase : s.phase = .fallback) (hok : Delivery.sendOk parse reply calls.fallback = true) :
    (s.fallback parse reply calls.fallback calls.enqueued calls.now).chat =
        s.chat ++ placed .part (renderTelegramTextParts parse reply.text telegramMaxTextChars) ∧
      (s.fallback parse reply calls.fallback calls.enqueued calls.now).sink.messageIds = s.sink.messageIds ++
        List.range' s.chat.length (renderTelegramTextParts parse reply.text telegramMaxTextChars).length := by
  have hchat := chat_sendText s hok calls.enqueued calls.now
  rw [Delivery.fallback, if_pos hphase]
  dsimp only
  rw [if_pos hok]
  refine ⟨hchat, ?_⟩
  show s.sink.messageIds ++ List.range' _ _ = _
  have hlen : (placed .part (renderTelegramTextParts parse reply.text telegramMaxTextChars)).length =
      (renderTelegramTextParts parse reply.text telegramMaxTextChars).length := List.length_mapIdx
  rw [hchat, List.length_append, hlen, Nat.add_sub_cancel_left]

/-- The flush of `finalize`, and the last fallback where it fails. -/
def flushOrSend (parse : String → List MarkdownEvent) (reply : TelegramReply) (s : Delivery) (calls : FinalizeCalls) :
    Delivery × Bool :=
  let s := s.flush parse calls.flush
  if s.phase = .done then (s, true)
  else (s.fallback parse reply calls.fallback calls.enqueued calls.now, Delivery.sendOk parse reply calls.fallback)

theorem flushOrSend_same (hphase : s.phase = .flushing)
    (h : renderTelegramTextParts parse s.sink.pendingText telegramMaxTextChars = [] ∨
      renderTelegramTextParts parse s.sink.pendingText telegramMaxTextChars = s.sink.renderedParts) :
    flushOrSend parse reply s calls = ({ s with phase := .done }, true) := by
  rw [flushOrSend, Delivery.flush, if_pos hphase, flushSink_same h]
  rfl

/-- What decides, where the parts are new. -/
theorem flushOrSend_iff {parts : List TelegramRenderedText} (hphase : s.phase = .flushing)
    (htext : s.sink.pendingText = reply.text)
    (hparts : renderTelegramTextParts parse reply.text telegramMaxTextChars = parts) (hne : parts ≠ [])
    (hnew : parts ≠ s.sink.renderedParts)
    (hdraft : (s.sink.preferDraft && s.sink.draftSupported && s.sink.messageIds.isEmpty) = false)
    (hown : OwnMessages s.chat s.sink.messageIds) (hok : (flushOrSend parse reply s calls).2 = true) :
    ShowsExactly parts (flushOrSend parse reply s calls).1 ↔
      (NeededAccepted s.sink.renderedParts parts s.sink.messageIds.length calls.flush ∧
        s.sink.messageIds.length ≤ parts.length ∧
        ∀ i < s.sink.messageIds.length, s.sink.renderedParts[i]? = parts[i]? →
          (recordedTexts s.chat s.sink.messageIds)[i]? = parts[i]?.map some) ∨
      (s.sink.messageIds = [] ∧ (calls.flush 0).isOk = false) := by
  have hout := flushParts_recorded s.sink.renderedParts calls.flush 0 parts hown (Nat.zero_le _)
  have hnone := messageIds_of_flush_iff s.sink.renderedParts calls.flush hne hown
  obtain ⟨hchat, hids, -, hflag⟩ := flushSink_new calls.flush
    ((congrArg (renderTelegramTextParts parse · telegramMaxTextChars) htext).trans hparts) hne hnew hdraft
  have hneeded : (flushParts s.sink.renderedParts calls.flush 0 parts s.chat s.sink.messageIds).ok = true ↔
      NeededAccepted s.sink.renderedParts parts s.sink.messageIds.length calls.flush := by
    rw [hout.ok_iff, NeededAccepted]
    simp only [Nat.zero_add]
  have hflush : s.flush parse calls.flush =
      { (s.flushSink parse true true false calls.flush).1 with
        phase := if (s.flushSink parse true true false calls.flush).2 then .done else .fallback } := by
    rw [Delivery.flush, if_pos hphase]
  unfold flushOrSend at hok ⊢
  rw [hflush] at hok ⊢
  generalize s.flushSink parse true true false calls.flush = flushed at hchat hids hflag hok ⊢
  generalize flushParts s.sink.renderedParts calls.flush 0 parts s.chat s.sink.messageIds = out at *
  rw [hflag] at hok ⊢
  cases hend : out.ok with
  | true =>
    have hfirst : ¬ (s.sink.messageIds = [] ∧ (calls.flush 0).isOk = false) := by
      rintro ⟨hnil, hrejected⟩
      rcases hneeded.mp hend 0 (List.length_pos_of_ne_nil hne) with ⟨hlt, -⟩ | hcall
      · rw [hnil] at hlt
        exact absurd hlt (Nat.lt_irrefl _)
      · rw [hrejected] at hcall
        cases hcall
    rw [or_iff_left hfirst, and_iff_right (hneeded.mp hend), ← shows_of_flush_iff hout hend, ← hchat, ← hids]
    exact showsExactly_iff (s := { flushed.1 with phase := .done }) (by rw [hchat, hids]; exact hout.own)
  | false =>
    have hfailed : ¬ NeededAccepted s.sink.renderedParts parts s.sink.messageIds.length calls.flush := by
      rw [← hneeded, hend]
      exact Bool.false_ne_true
    rw [hend] at hok
    have hown' : OwnMessages flushed.1.chat flushed.1.sink.messageIds := by
      rw [hchat, hids]
      exact hout.own
    rw [or_iff_right fun h => hfailed h.1, ← hnone, ← hids]
    simp only [Bool.false_eq_true, if_false, reduceCtorEq] at hok ⊢
    have hsend := fallback_ok parse (s := { flushed.1 with phase := .fallback }) rfl hok
    rw [hparts] at hsend
    exact showsExactly_send_iff hown' hsend.1 hsend.2

theorem drafting_iff : (s.sink.preferDraft && s.sink.draftSupported && s.sink.messageIds.isEmpty) = true ↔ Drafting s := by
  rw [Bool.and_eq_true, Bool.and_eq_true, List.isEmpty_iff, and_assoc]
  rfl

/-- Where the beginning of `finalize` leads: to its end, without a call or with the final send after drafts, or to
the flush, after a final send that failed or at once. -/
inductive FinalizeCase (text : String) (parts : List TelegramRenderedText) (s : Delivery) (calls : FinalizeCalls) :
    Delivery → Prop where
  | unchanged (s' : Delivery) (hphase : s'.phase = .done) (hchat : s'.chat = s.chat)
      (hids : s'.sink.messageIds = s.sink.messageIds)
      (hparts : parts = [] ∨ parts = s.sink.renderedParts ∧ ¬ Drafting s) : FinalizeCase text parts s calls s'
  | sent (s' : Delivery) (hphase : s'.phase = .done) (hdraft : Drafting s)
      (hcalls : ∀ i < parts.length, (calls.final i).isOk = true) (hchat : s'.chat = s.chat ++ placed .part parts)
      (hids : s'.sink.messageIds = s.sink.messageIds ++ List.range' s.chat.length parts.length) :
      FinalizeCase text parts s calls s'
  | failed (s' : Delivery) (hphase : s'.phase = .flushing) (htext : s'.sink.pendingText = text) (hdraft : Drafting s)
      (hcalls : ¬ ∀ i < parts.length, (calls.final i).isOk = true) (hdraft' : ¬ Drafting s')
      (hids : s'.sink.messageIds = []) (hrendered : s'.sink.renderedParts = s.sink.renderedParts) :
      FinalizeCase text parts s calls s'
  | flush (s' : Delivery) (hphase : s'.phase = .flushing) (htext : s'.sink.pendingText = text) (hdraft : ¬ Drafting s)
      (hdraft' : ¬ Drafting s') (hchat : s'.chat = s.chat) (hids : s'.sink.messageIds = s.sink.messageIds)
      (hrendered : s'.sink.renderedParts = s.sink.renderedParts) : FinalizeCase text parts s calls s'

theorem finalize_cases (parse : String → List MarkdownEvent) (reply : TelegramReply) (calls : FinalizeCalls)
    (hphase : s.phase = .streaming) :
    FinalizeCase reply.text (renderTelegramTextParts parse reply.text telegramMaxTextChars) s calls
      (s.finalize parse reply calls.final calls.enqueued calls.now) := by
  rw [Delivery.finalize, if_pos hphase]
  by_cases hempty : reply.text.isEmpty = true
  · rw [if_pos hempty]
    exact .unchanged _ rfl rfl rfl (.inl (parts_of_empty (String.isEmpty_iff.mp hempty)))
  · rw [if_neg hempty]
    dsimp only
    by_cases hdraft : Drafting s
    · have hwaiting := drafting_iff.mpr hdraft
      rw [hwaiting, Bool.not_true, Bool.and_false, if_neg Bool.false_ne_true, if_pos rfl]
      split_ifs with hok
      · have hchat := chat_sendText { s with sink := { s.sink with pendingText := reply.text } } hok calls.enqueued
          calls.now
        refine .sent _ rfl hdraft (sendOk_iff.mp hok) hchat ?_
        show s.sink.messageIds ++ List.range' _ _ = _
        have hlen : (placed .part (renderTelegramTextParts parse reply.text telegramMaxTextChars)).length =
            (renderTelegramTextParts parse reply.text telegramMaxTextChars).length := List.length_mapIdx
        rw [hchat, List.length_append, hlen, Nat.add_sub_cancel_left]
      · exact .failed _ rfl rfl hdraft (fun hcalls => hok (sendOk_iff.mpr hcalls)) (fun h => Bool.false_ne_true h.2.1)
          hdraft.2.2 rfl
    · have hwaiting := Bool.eq_false_iff.mpr (mt drafting_iff.mp hdraft)
      rw [hwaiting, Bool.not_false, Bool.and_true, if_neg Bool.false_ne_true]
      split_ifs with hsame
      · rw [Bool.and_eq_true, decide_eq_true_eq] at hsame
        exact .unchanged _ rfl rfl rfl (.inr ⟨hsame.2, hdraft⟩)
      · exact .flush _ rfl rfl hdraft hdraft rfl rfl rfl

/-- **A `finalize` that returns `Ok`**, from a stream. -/
theorem finalizeSink_iff (hphase : s.phase = .streaming) (hown : OwnMessages s.chat s.sink.messageIds)
    (hok : (finalizeSink parse reply s calls).2 = true) :
    ShowsExactly (renderTelegramTextParts parse reply.text telegramMaxTextChars) (finalizeSink parse reply s calls).1 ↔
      Converges (renderTelegramTextParts parse reply.text telegramMaxTextChars) s calls := by
  have hcase := finalize_cases parse reply calls hphase
  have heq : finalizeSink parse reply s calls =
      if (s.finalize parse reply calls.final calls.enqueued calls.now).phase = .done then
        (s.finalize parse reply calls.final calls.enqueued calls.now, true)
      else flushOrSend parse reply (s.finalize parse reply calls.final calls.enqueued calls.now) calls := rfl
  rw [heq] at hok ⊢
  generalize s.finalize parse reply calls.final calls.enqueued calls.now = s' at hcase hok ⊢
  generalize hparts : renderTelegramTextParts parse reply.text telegramMaxTextChars = parts at hcase ⊢
  have hnone : recordedTexts s.chat s.sink.messageIds = [] ↔ s.sink.messageIds = [] := List.map_eq_nil_iff
  cases hcase with
  | unchanged hend hchat hids hwhy =>
    rw [if_pos hend, showsExactly_iff (by rwa [hchat, hids]), hchat, hids, Converges]
    split_ifs with hempty hsame
    · rw [hempty]
      exact hnone
    · refine (or_iff_right fun hfinal => ?_).symm
      exact (hwhy.resolve_left hempty).2 hfinal.1
    · exact absurd (hwhy.resolve_left hempty).1 hsame
  | sent hend hdraft hcalls hchat hids =>
    rw [if_pos hend, showsExactly_send_iff hown hchat hids, Converges]
    split_ifs with hempty
    · rfl
    · exact iff_of_true hdraft.2.2 (.inl ⟨hdraft, hcalls⟩)
    · exact iff_of_true hdraft.2.2 (.inl ⟨hdraft, hcalls⟩)
  | failed hflush htext hdraft hcalls hdraft' hids hrendered =>
    have hne : parts ≠ [] := by
      rintro rfl
      exact hcalls fun _ h => (nomatch h)
    have hnil : s.sink.messageIds = [] := hdraft.2.2
    have hown' : OwnMessages s'.chat s'.sink.messageIds := by
      rw [hids]
      exact ⟨.nil, nofun⟩
    rw [if_neg (by rw [hflush]; decide)] at hok ⊢
    rw [Converges, if_neg hne, or_iff_right fun hfinal => hcalls hfinal.2]
    by_cases hsame : parts = s.sink.renderedParts
    · rw [if_pos hsame, hnil, flushOrSend_same hflush (.inr (by rw [htext, hparts, hrendered, hsame]))]
      refine (showsExactly_iff (s := { s' with phase := .done }) hown').trans ?_
      show recordedTexts s'.chat s'.sink.messageIds = _ ↔ _
      rw [hids]
      rfl
    · have hiff := flushOrSend_iff hflush htext hparts hne (by rwa [hrendered])
        (Bool.eq_false_iff.mpr (mt drafting_iff.mp hdraft')) hown' hok
      rw [if_neg hsame, hiff, hids, hnil, hrendered]
      rfl
  | flush hflush htext hdraft hdraft' hchat hids hrendered =>
    have hown' : OwnMessages s'.chat s'.sink.messageIds := by rwa [hchat, hids]
    rw [if_neg (by rw [hflush]; decide)] at hok ⊢
    rw [Converges]
    by_cases hempty : parts = []
    · rw [if_pos hempty, flushOrSend_same hflush (.inl (by rw [htext, hparts, hempty]))]
      refine (showsExactly_iff (s := { s' with phase := .done }) hown').trans ?_
      show recordedTexts s'.chat s'.sink.messageIds = _ ↔ _
      rw [hchat, hids, hempty]
      exact hnone
    · rw [if_neg hempty, or_iff_right fun hfinal => hdraft hfinal.1]
      by_cases hsame : parts = s.sink.renderedParts
      · rw [if_pos hsame, flushOrSend_same hflush (.inr (by rw [htext, hparts, hrendered, hsame]))]
        refine (showsExactly_iff (s := { s' with phase := .done }) hown').trans ?_
        show recordedTexts s'.chat s'.sink.messageIds = _ ↔ _
        rw [hchat, hids]
      · rw [if_neg hsame, flushOrSend_iff hflush htext hparts hempty (by rwa [hrendered])
          (Bool.eq_false_iff.mpr (mt drafting_iff.mp hdraft')) hown' hok, hids, hchat, hrendered]

end Finalize

namespace Sample

/-- The draft of the whole text is accepted. -/
def doneDelta : StreamDelta := { text := "Done.", due := true, draft := true, api := accepted }

/-- The calls of a `finalize`, of which only the final send is rejected. -/
def finalRejected : FinalizeCalls :=
  { final := unreachable, flush := accepted, fallback := accepted, enqueued := true, now := 0 }

end Sample

end Xiaomaolv
