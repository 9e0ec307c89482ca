import Xiaomaolv.Lib.Machine
import Xiaomaolv.Telegram.Outbound

/-!
# The delivery of a reply

* `ChatMessage`: a message of the chat with its origin; `ShownOnce`: no two messages show the same part.
* `Delivery.exec`: the stream sink with its two fallbacks, the attempts of the scheduler, and the janitor.
* `SlotsAt`, `Others`: the messages that the sink edits, and the rest of the chat; `flushParts_spec`.
* `Unrepeated`: the text is sent from its beginning, and a row of the queue, only where nothing of it is shown.
* **`shown_at_most_once`**: along such runs each part is shown at most once.
-/

namespace Xiaomaolv

/-! ## The chat -/

/-- What a message was sent for: the part at a position of the reply, or a piece of the text of a row of the
queue, whose parts begin with `first`. -/
inductive MessageOrigin where
  | part (idx : Nat)
  | row (row first piece : Nat)
  deriving DecidableEq, Repr

/-- A message is known by its place in the chat. -/
structure ChatMessage where
  origin : MessageOrigin
  rendered : TelegramRenderedText
  deriving DecidableEq, Repr

/-- The message shows the part: it has its text at its position. A piece of a row shows some of the parts of the
row, and its text does not say which: it counts for all of them. -/
def ChatMessage.shows (parts : List TelegramRenderedText) (m : ChatMessage) (i : Nat) : Bool :=
  match m.origin with
  | .part idx => idx = i && parts[i]? = some m.rendered
  | .row _ first _ => first ≤ i && i < parts.length

def ChatMessage.ofRow (row : Nat) (m : ChatMessage) : Bool :=
  match m.origin with
  | .part _ => false
  | .row row' _ _ => row' = row

/-- Two pieces of one row. -/
def OtherPiece (m m' : ChatMessage) : Bool :=
  match m.origin, m'.origin with
  | .row row _ piece, .row row' _ piece' => row = row' && piece ≠ piece'
  | _, _ => false

/-- Each part is shown at most once. -/
def ShownOnce (parts : List TelegramRenderedText) (chat : List ChatMessage) : Prop :=
  chat.Pairwise fun m m' => ∀ i < parts.length, m.shows parts i = true → m'.shows parts i = true → OtherPiece m m' = true

instance (parts : List TelegramRenderedText) (chat : List ChatMessage) : Decidable (ShownOnce parts chat) :=
  inferInstanceAs (Decidable (List.Pairwise _ _))

def ShowsNone (parts : List TelegramRenderedText) (m : ChatMessage) : Prop := ∀ i < parts.length, m.shows parts i = false

instance (parts : List TelegramRenderedText) (m : ChatMessage) : Decidable (ShowsNone parts m) :=
  inferInstanceAs (Decidable (∀ i < parts.length, _))

/-- New messages, for these origins. -/
def placed (origin : Nat → MessageOrigin) (shown : List TelegramRenderedText) : List ChatMessage :=
  shown.mapIdx fun i rendered => { origin := origin i, rendered }

/-! ## The steps -/

inductive OutboundStatus where
  | pending
  | sent
  | dead
  deriving DecidableEq, Repr

/-- A row of the queue; its text is that of the parts from `first` on. -/
structure TelegramOutboundQueueRecord where
  request : EnqueueTelegramOutboundRequest
  first : Nat
  status : OutboundStatus := .pending
  attempts : Nat := 0
  nextAttemptAt : Int
  lastError : Option String := none
  deriving DecidableEq, Repr

/-- The sink of a stream: its messages (the primary one, then the tails), and what they show. -/
structure TelegramStreamSink where
  preferDraft : Bool
  draftSupported : Bool
  messageIds : List Nat := []
  pendingText : String := ""
  renderedParts : List TelegramRenderedText := []
  deriving DecidableEq, Repr

/-- Where the delivery is: before `finalize`, before its flush, before its last fallback; a job of the
scheduler that is active; the end. -/
inductive DeliveryPhase where
  | streaming
  | flushing
  | fallback
  | scheduled
  | done
  deriving DecidableEq, Repr

structure TelegramReply where
  chatId : Int
  messageThreadId : Option Int
  replyToMessageId : Option Int
  text : String

structure Delivery where
  phase : DeliveryPhase
  sink : TelegramStreamSink
  chat : List ChatMessage := []
  queue : List TelegramOutboundQueueRecord := []
  deriving DecidableEq, Repr

/-- The steps, with the results of their calls: of the API for each part, of the draft, of the queue and of the
scheduler's store. -/
inductive DeliveryStep where
  | delta (delta : String) (due draft : Bool) (api : Nat → Except String Int)
  | finalize (api : Nat → Except String Int) (enqueued : Bool) (now : Int)
  | flush (api : Nat → Except String Int)
  | fallback (api : Nat → Except String Int) (enqueued : Bool) (now : Int)
  /-- The scheduler sends the text and marks the run. -/
  | attempt (api : Nat → Except String Int) (enqueued : Bool) (now : Int) (completed : Bool)
  | janitor (row : Nat) (now : Int) (api : Nat → Except String Int) (marked : Bool)

/-- What a flush leaves: the chat, the messages of the sink, and whether all of its calls were accepted. -/
structure Flush where
  chat : List ChatMessage
  messageIds : List Nat
  ok : Bool

/-- The loop of a flush, from the part at `idx` on: a message of the sink is edited where it does not show the
part, and a new one is sent where there is none. -/
def flushParts (rendered : List TelegramRenderedText) (api : Nat → Except String Int) :
    Nat → List TelegramRenderedText → List ChatMessage → List Nat → Flush
  | _, [], chat, messageIds => { chat, messageIds, ok := true }
  | idx, part :: parts, chat, messageIds =>
    match messageIds[idx]? with
    | some id =>
      if rendered[idx]? = some part then flushParts rendered api (idx + 1) parts chat messageIds
      else if (api idx).isOk then
        flushParts rendered api (idx + 1) parts (chat.modify id fun m => { m with rendered := part }) messageIds
      else { chat, messageIds, ok := false }
    | none =>
      if (api idx).isOk then
        flushParts rendered api (idx + 1) parts (chat ++ [{ origin := .part idx, rendered := part }])
          (messageIds ++ [chat.length])
      else { chat, messageIds, ok := false }

/-- `note_sent_message_ids`, for the messages that a send has added to the chat, and what they show. -/
def TelegramStreamSink.noted (sink : TelegramStreamSink) (before after : List ChatMessage)
    (parts : List TelegramRenderedText) : TelegramStreamSink :=
  { sink with
    messageIds := sink.messageIds ++ List.range' before.length (after.length - before.length)
    renderedParts := parts }

namespace Delivery

section Steps

variable (parse : String → List MarkdownEvent) (reply : TelegramReply)

/-- `send_message_with_ids` on the whole text. -/
def sendText (s : Delivery) (api : Nat → Except String Int) (enqueued : Bool) (now : Int) : Delivery :=
  let send := sendMessageWithIds parse api reply.chatId reply.messageThreadId reply.replyToMessageId reply.text
  { s with
    chat := s.chat ++ placed .part send.shown
    queue :=
      match send.queued with
      | some request =>
        if enqueued then s.queue ++ [{ request, first := send.sent.length, nextAttemptAt := now }] else s.queue
      | none => s.queue }

def sendOk (api : Nat → Except String Int) : Bool :=
  (sendMessageWithIds parse api reply.chatId reply.messageThreadId reply.replyToMessageId reply.text).result.isOk

/-- `flush`: the draft first, where there is no message yet; whether it succeeds. -/
def flushSink (s : Delivery) (force due draft : Bool) (api : Nat → Except String Int) : Delivery × Bool :=
  if s.sink.pendingText.isEmpty || (!force && !due) then (s, true)
  else
    let parts := renderTelegramTextParts parse s.sink.pendingText telegramMaxTextChars
    if parts.isEmpty || parts = s.sink.renderedParts then (s, true)
    else
      let drafts := s.sink.preferDraft && s.sink.draftSupported && s.sink.messageIds.isEmpty
      if drafts && draft then ({ s with sink := { s.sink with renderedParts := parts } }, true)
      else
        let sink := { s.sink with draftSupported := s.sink.draftSupported && !drafts }
        let out := flushParts s.sink.renderedParts api 0 parts s.chat s.sink.messageIds
        ({ s with
            chat := out.chat
            sink := { sink with
              messageIds := out.messageIds
              renderedParts := if out.ok then parts else s.sink.renderedParts } }, out.ok)

/-- `on_delta`; a failure is left to the next flush. -/
def delta (s : Delivery) (delta : String) (due draft : Bool) (api : Nat → Except String Int) : Delivery :=
  if s.phase = .streaming ∧ delta ≠ "" then
    (flushSink parse { s with sink := { s.sink with pendingText := s.sink.pendingText ++ delta } } false due draft api).1
  else s

/-- The beginning of `finalize`, with the final send after drafts. -/
def finalize (s : Delivery) (api : Nat → Except String Int) (enqueued : Bool) (now : Int) : Delivery :=
  if s.phase = .streaming then
    if reply.text.isEmpty then { s with phase := .done }
    else
      let s := { s with sink := { s.sink with pendingText := reply.text } }
      let parts := renderTelegramTextParts parse reply.text telegramMaxTextChars
      let waitingFinalAfterDraft := s.sink.preferDraft && s.sink.draftSupported && s.sink.messageIds.isEmpty
      if !parts.isEmpty && parts = s.sink.renderedParts && !waitingFinalAfterDraft then { s with phase := .done }
      else if waitingFinalAfterDraft then
        let sent := s.sendText parse reply api enqueued now
        if sendOk parse reply api then { sent with phase := .done, sink := s.sink.noted s.chat sent.chat parts }
        else { sent with phase := .flushing, sink := { s.sink with draftSupported := false } }
      else { s with phase := .flushing }
  else s

/-- The flush of `finalize`. -/
def flush (s : Delivery) (api : Nat → Except String Int) : Delivery :=
  if s.phase = .flushing then
    let out := s.flushSink parse true true false api
    { out.1 with phase := if out.2 then .done else .fallback }
  else s

/-- The last fallback of `finalize`, which ends it. -/
def fallback (s : Delivery) (api : Nat → Except String Int) (enqueued : Bool) (now : Int) : Delivery :=
  if s.phase = .fallback then
    let sent := s.sendText parse reply api enqueued now
    { sent with
      phase := .done
      sink :=
        if sendOk parse reply api then
          s.sink.noted s.chat sent.chat (renderTelegramTextParts parse s.sink.pendingText telegramMaxTextChars)
        else s.sink }
  else s

/-- An attempt of the scheduler: the job stays active unless it is sent and marked. -/
def attempt (s : Delivery) (api : Nat → Except String Int) (enqueued : Bool) (now : Int) (completed : Bool) :
    Delivery :=
  if s.phase = .scheduled then
    { s.sendText parse reply api enqueued now with
      phase := if sendOk parse reply api && completed then .done else .scheduled }
  else s

/-- What the janitor marks on a row after its send. -/
def marked (r : TelegramOutboundQueueRecord) (now : Int) : Except String (List Int) → TelegramOutboundQueueRecord
  | .ok _ => { r with status := .sent, lastError := none }
  | .error e =>
    if 48 ≤ r.attempts then { r with status := .dead, lastError := some e }
    else
      { r with
        attempts := r.attempts + 1
        nextAttemptAt := now + 10 * 2 ^ min r.attempts 8
        lastError := some e }

/-- The janitor on one row that is due; an error of the store leaves the row as it is. -/
def janitor (s : Delivery) (row : Nat) (now : Int) (api : Nat → Except String Int) (markOk : Bool) : Delivery :=
  match s.queue[row]? with
  | some r =>
    if r.status = .pending ∧ r.nextAttemptAt ≤ now then
      let send := resendRow parse api r.request
      { s with
        chat := s.chat ++ placed (.row row r.first) send.shown
        queue := if markOk then s.queue.set row (marked r now send.result) else s.queue }
    else s
  | none => s

def exec (s : Delivery) : DeliveryStep → Delivery
  | .delta text due draft api => s.delta parse text due draft api
  | .finalize api enqueued now => s.finalize parse reply api enqueued now
  | .flush api => s.flush parse api
  | .fallback api enqueued now => s.fallback parse reply api enqueued now
  | .attempt api enqueued now completed => s.attempt parse reply api enqueued now completed
  | .janitor row now api markOk => s.janitor parse row now api markOk

end Steps

section Conditions

variable (parts : List TelegramRenderedText)

/-- No message shows a part, and no row of the queue is pending. -/
def Unseen (s : Delivery) : Prop :=
  (∀ r ∈ s.queue, r.status ≠ .pending) ∧ ∀ m ∈ s.chat, ShowsNone parts m

/-- No message shows a part but those of the sink, and no row of the queue is pending. -/
def OnlySink (s : Delivery) : Prop :=
  (∀ r ∈ s.queue, r.status ≠ .pending) ∧
    ∀ p < s.chat.length, p ∉ s.sink.messageIds → ∀ m ∈ s.chat[p]?, ShowsNone parts m

/-- The text is sent from its beginning, and a row of the queue, only where nothing of it is shown or queued. -/
def Unrepeated (s : Delivery) : DeliveryStep → Prop
  | .flush _ => s.phase = .flushing → s.OnlySink parts
  | .fallback .. => s.phase = .fallback → s.Unseen parts
  | .attempt .. => s.phase = .scheduled → s.Unseen parts
  | .janitor row _ _ _ => ∀ m ∈ s.chat, m.ofRow row = false
  | .delta .. | .finalize .. => True

instance (s : Delivery) : Decidable (s.Unseen parts) := inferInstanceAs (Decidable (_ ∧ _))

instance (s : Delivery) : Decidable (s.OnlySink parts) := inferInstanceAs (Decidable (_ ∧ _))

instance (s : Delivery) : (step : DeliveryStep) → Decidable (s.Unrepeated parts step)
  | .flush _ => inferInstanceAs (Decidable (s.phase = .flushing → s.OnlySink parts))
  | .fallback .. => inferInstanceAs (Decidable (s.phase = .fallback → s.Unseen parts))
  | .attempt .. => inferInstanceAs (Decidable (s.phase = .scheduled → s.Unseen parts))
  | .janitor row _ _ _ => inferInstanceAs (Decidable (∀ m ∈ s.chat, m.ofRow row = false))
  | .delta .. | .finalize .. => isTrue trivial

end Conditions

end Delivery

/-! ## Messages that are added -/

section Added

variable {parts : List TelegramRenderedText} {chat : List ChatMessage} {m : ChatMessage}

theorem shows_of_part {idx i : Nat} (h : m.origin = .part idx) (hs : m.shows parts i = true) : idx = i := by
  rw [ChatMessage.shows, h] at hs
  simp only [Bool.and_eq_true, decide_eq_true_eq] at hs
  exact hs.1

theorem mem_placed {origin : Nat → MessageOrigin} {shown : List TelegramRenderedText} (h : m ∈ placed origin shown) :
    ∃ i < shown.length, m.origin = origin i := by
  rw [placed, List.mem_mapIdx] at h
  obtain ⟨i, hi, rfl⟩ := h
  exact ⟨i, hi, rfl⟩

theorem pairwise_placed {R : ChatMessage → ChatMessage → Prop} {origin : Nat → MessageOrigin}
    (h : ∀ i j a b, i < j → R ⟨origin i, a⟩ ⟨origin j, b⟩) (shown : List TelegramRenderedText) :
    (placed origin shown).Pairwise R := by
  rw [placed, List.pairwise_iff_getElem]
  intro i j hi hj hij
  rw [List.getElem_mapIdx, List.getElem_mapIdx]
  exact h i j _ _ hij

theorem shownOnce_append {new : List ChatMessage} (hchat : ShownOnce parts chat) (hnew : ShownOnce parts new)
    (h : ∀ m ∈ chat, ∀ m' ∈ new, ∀ i < parts.length, m.shows parts i = true → m'.shows parts i = false) :
    ShownOnce parts (chat ++ new) := by
  refine List.pairwise_append.mpr ⟨hchat, hnew, fun m hm m' hm' i hi hs hs' => ?_⟩
  rw [h m hm m' hm' i hi hs] at hs'
  exact absurd hs' (by decide)

theorem shownOnce_placed_part (shown : List TelegramRenderedText) : ShownOnce parts (placed .part shown) := by
  refine pairwise_placed (fun i j a b hij k _ hs hs' => ?_) shown
  have := (shows_of_part rfl hs).trans (shows_of_part rfl hs').symm
  omega

theorem shownOnce_placed_row (row first : Nat) (shown : List TelegramRenderedText) :
    ShownOnce parts (placed (.row row first) shown) := by
  refine pairwise_placed (fun i j a b hij k _ _ _ => ?_) shown
  simp only [OtherPiece, decide_true, Bool.true_and, decide_eq_true_eq]
  omega

end Added

/-! ## The messages of the sink -/

section Sink

variable {parts : List TelegramRenderedText} {chat : List ChatMessage} {messageIds : List Nat}

/-- The message of the sink at each position was sent for the part there. -/
def SlotsAt (chat : List ChatMessage) (messageIds : List Nat) : Prop :=
  ∀ k p : Nat, messageIds[k]? = some p → ∃ rendered, chat[p]? = some ⟨.part k, rendered⟩

/-- The messages that are not of the sink. -/
def Others (P : ChatMessage → Prop) (chat : List ChatMessage) (messageIds : List Nat) : Prop :=
  ∀ (p : Nat) (m : ChatMessage), chat[p]? = some m → p ∉ messageIds → P m

theorem SlotsAt.append (h : SlotsAt chat messageIds) (new : List ChatMessage) : SlotsAt (chat ++ new) messageIds := by
  intro k p hk
  obtain ⟨rendered, hp⟩ := h k p hk
  exact ⟨rendered, by rw [List.getElem?_append_left (List.getElem?_eq_some_iff.mp hp).1, hp]⟩

theorem SlotsAt.modify (h : SlotsAt chat messageIds) (id : Nat) (rendered : TelegramRenderedText) :
    SlotsAt (chat.modify id fun m => { m with rendered }) messageIds := by
  intro k p hk
  obtain ⟨old, hp⟩ := h k p hk
  rw [List.getElem?_modify, hp]
  by_cases hid : id = p
  · exact ⟨rendered, by simp only [if_pos hid, Option.map_eq_map, Option.map_some]⟩
  · exact ⟨old, by simp only [if_neg hid, Option.map_eq_map, Option.map_some]⟩

theorem Others.modify {P : ChatMessage → Prop} (h : Others P chat messageIds) {id : Nat} (hid : id ∈ messageIds)
    (rendered : TelegramRenderedText) : Others P (chat.modify id fun m => { m with rendered }) messageIds := by
  intro p m hp hne
  have hidp : id ≠ p := by
    rintro rfl
    exact hne hid
  rw [List.getElem?_modify] at hp
  simp only [if_neg hidp, Option.map_eq_map, Option.map_id_fun'] at hp
  exact h p m hp hne

theorem SlotsAt.push (h : SlotsAt chat messageIds) (rendered : TelegramRenderedText) :
    SlotsAt (chat ++ [{ origin := .part messageIds.length, rendered }]) (messageIds ++ [chat.length]) := by
  intro k p hk
  by_cases hlt : k < messageIds.length
  · rw [List.getElem?_append_left hlt] at hk
    exact h.append _ k p hk
  · rw [List.getElem?_append_right (by omega), List.getElem?_singleton] at hk
    split_ifs at hk with h0
    cases hk
    exact ⟨rendered, by rw [List.getElem?_append_right (Nat.le_refl _), Nat.sub_self, show k = messageIds.length by omega]; rfl⟩

theorem Others.push {P : ChatMessage → Prop} (h : Others P chat messageIds) (m : ChatMessage) :
    Others P (chat ++ [m]) (messageIds ++ [chat.length]) := by
  intro p m' hp hne
  rw [List.mem_append, List.mem_singleton, not_or] at hne
  by_cases hlt : p < chat.length
  · rw [List.getElem?_append_left hlt] at hp
    exact h p m' hp hne.1
  · rw [List.getElem?_append_right (by omega), List.getElem?_singleton, if_neg (by omega)] at hp
    cases hp

theorem flushParts_spec {P : ChatMessage → Prop} (rendered : List TelegramRenderedText)
    (api : Nat → Except String Int) (idx : Nat) (todo : List TelegramRenderedText) (hslots : SlotsAt chat messageIds)
    (hothers : Others P chat messageIds) (hidx : idx ≤ messageIds.length) :
    let out := flushParts rendered api idx todo chat messageIds
    SlotsAt out.chat out.messageIds ∧ Others P out.chat out.messageIds := by
  induction todo generalizing idx chat messageIds with
  | nil => exact ⟨hslots, hothers⟩
  | cons part todo ih =>
    dsimp only
    rw [flushParts]
    cases hid : messageIds[idx]? with
    | some id =>
      have hlt := (List.getElem?_eq_some_iff.mp hid).1
      dsimp only
      split_ifs
      · exact ih (idx + 1) hslots hothers hlt
      · exact ih (idx + 1) (hslots.modify id part) (hothers.modify (List.mem_of_getElem? hid) part) hlt
      · exact ⟨hslots, hothers⟩
    | none =>
      have hlen := List.getElem?_eq_none_iff.mp hid
      obtain rfl : idx = messageIds.length := by omega
      dsimp only
      split_ifs
      · refine ih (messageIds.length + 1) (hslots.push part) (hothers.push _) ?_
        rw [List.length_append, List.length_singleton]
      · exact ⟨hslots, hothers⟩

theorem Others.mono {P Q : ChatMessage → Prop} (h : Others P chat messageIds) (hPQ : ∀ m, P m → Q m) :
    Others Q chat messageIds :=
  fun p m hp hne => hPQ m (h p m hp hne)

theorem shownOnce_of_slots (hslots : SlotsAt chat messageIds) (hothers : Others (ShowsNone parts) chat messageIds) :
    ShownOnce parts chat := by
  have hslot : ∀ p m i, chat[p]? = some m → i < parts.length → m.shows parts i = true → messageIds[i]? = some p := by
    intro p m i hp hi hs
    have hmem : p ∈ messageIds := by
      by_contra hne
      rw [hothers p m hp hne i hi] at hs
      exact absurd hs (by decide)
    obtain ⟨k, hk⟩ := List.mem_iff_getElem?.mp hmem
    obtain ⟨rendered, hm⟩ := hslots k p hk
    rw [hp] at hm
    cases hm
    rw [← shows_of_part rfl hs, hk]
  refine List.pairwise_iff_getElem.mpr fun p q hp hq hpq i hi hs hs' => ?_
  have h₁ := hslot p _ i (List.getElem?_eq_getElem hp) hi hs
  have h₂ := hslot q _ i (List.getElem?_eq_getElem hq) hi hs'
  rw [h₁] at h₂
  cases h₂
  exact absurd hpq (Nat.lt_irrefl _)

end Sink

/-! ## The runs -/

namespace Delivery

variable {parse : String → List MarkdownEvent} {reply : TelegramReply} {s : Delivery}

/-- Each part is shown at most once, those that a pending row carries by messages of this row only, and it is the
only pending one. -/
structure Apart (parts : List TelegramRenderedText) (chat : List ChatMessage)
    (queue : List TelegramOutboundQueueRecord) : Prop where
  once : ShownOnce parts chat
  carried : ∀ (row : Nat) (r : TelegramOutboundQueueRecord), queue[row]? = some r → r.status = .pending →
    ∀ m ∈ chat, ∀ i < parts.length, r.first ≤ i → m.shows parts i = true → m.ofRow row = true
  single : ∀ (row row' : Nat) (r r' : TelegramOutboundQueueRecord), queue[row]? = some r → queue[row']? = some r' →
    r.status = .pending → r'.status = .pending → row = row'

/-- What each step keeps: before its flush the sink has its messages in order, and until `finalize` they are all of
the chat. -/
structure Kept (parts : List TelegramRenderedText) (s : Delivery) : Prop where
  apart : Apart parts s.chat s.queue
  slots : s.phase = .streaming ∨ s.phase = .flushing → SlotsAt s.chat s.sink.messageIds
  streaming : s.phase = .streaming → s.queue = [] ∧ Others (fun _ => False) s.chat s.sink.messageIds

section Apart

variable {parts : List TelegramRenderedText} {chat : List ChatMessage} {queue : List TelegramOutboundQueueRecord}

theorem Apart.of_not_pending (honce : ShownOnce parts chat) (h : ∀ r ∈ queue, r.status ≠ .pending) :
    Apart parts chat queue where
  once := honce
  carried _ r hr hpending := absurd hpending (h r (List.mem_of_getElem? hr))
  single _ _ r _ hr _ hpending := absurd hpending (h r (List.mem_of_getElem? hr))

/-- A send of the whole text, where no message shows a part and no row is pending. -/
theorem apart_sendText {parse : String → List MarkdownEvent} {reply : TelegramReply} {s : Delivery}
    (hunseen : s.Unseen (renderTelegramTextParts parse reply.text telegramMaxTextChars))
    (honce : ShownOnce (renderTelegramTextParts parse reply.text telegramMaxTextChars) s.chat)
    (api : Nat → Except String Int) (enqueued : Bool) (now : Int) :
    Apart (renderTelegramTextParts parse reply.text telegramMaxTextChars) (s.sendText parse reply api enqueued now).chat
      (s.sendText parse reply api enqueued now).queue := by
  obtain ⟨hpending, hnone⟩ := hunseen
  rw [sendText]
  dsimp only
  generalize hsend : sendMessageWithIds parse api reply.chatId reply.messageThreadId reply.replyToMessageId
    reply.text = send
  generalize renderTelegramTextParts parse reply.text telegramMaxTextChars = parts at *
  have honce' : ShownOnce parts (s.chat ++ placed .part send.shown) :=
    shownOnce_append honce (shownOnce_placed_part _) fun m hm m' _ i hi hs => by
      rw [hnone m hm i hi] at hs
      exact absurd hs (by decide)
  split
  · rename_i request hrequest
    split_ifs
    · have hrow : ∀ (row : Nat) (r : TelegramOutboundQueueRecord),
          (s.queue ++ [{ request, first := send.sent.length, nextAttemptAt := now }])[row]? = some r →
            r.status = .pending → row = s.queue.length ∧ r.first = send.shown.length := by
        intro row r hr hstatus
        by_cases hlt : row < s.queue.length
        · rw [List.getElem?_append_left hlt] at hr
          exact absurd hstatus (hpending r (List.mem_of_getElem? hr))
        · rw [List.getElem?_append_right (by omega), List.getElem?_singleton] at hr
          split_ifs at hr with h0
          cases hr
          exact ⟨by omega, (List.length_map _).symm⟩
      refine ⟨honce', fun row r hr hstatus m hm i hi hfirst hs => ?_, fun row row' r r' hr hr' hstatus hstatus' => ?_⟩
      · rcases List.mem_append.mp hm with hold | hnew
        · rw [hnone m hold i hi] at hs
          exact absurd hs (by decide)
        · obtain ⟨k, hk, horigin⟩ := mem_placed hnew
          have hfirst' := (hrow row r hr hstatus).2
          have := shows_of_part horigin hs
          omega
      · rw [(hrow row r hr hstatus).1, (hrow row' r' hr' hstatus').1]
    · exact .of_not_pending honce' hpending
  · exact .of_not_pending honce' hpending

@[simp] theorem marked_first (r : TelegramOutboundQueueRecord) (now : Int) (result : Except String (List Int)) :
    (marked r now result).first = r.first := by
  cases result with
  | ok _ => rfl
  | error e =>
    rw [marked]
    split_ifs
    · rfl
    · rfl

/-- A pass of the janitor over a row none of whose messages is shown. -/
theorem apart_janitor {s : Delivery} (h : Apart parts s.chat s.queue) (parse : String → List MarkdownEvent) (row : Nat)
    (now : Int) (api : Nat → Except String Int) (markOk : Bool) (hrow : ∀ m ∈ s.chat, m.ofRow row = false) :
    Apart parts (s.janitor parse row now api markOk).chat (s.janitor parse row now api markOk).queue := by
  rw [janitor]
  split
  · rename_i r hr
    by_cases hdue : r.status = .pending ∧ r.nextAttemptAt ≤ now
    · rw [if_pos hdue]
      dsimp only
      generalize resendRow parse api r.request = send
      have hbelow : ∀ m ∈ s.chat, ∀ i < parts.length, r.first ≤ i → m.shows parts i = false := by
        intro m hm i hi hfirst
        by_contra hs
        have := h.carried row r hr hdue.1 m hm i hi hfirst (by simpa using hs)
        rw [hrow m hm] at this
        exact absurd this (by decide)
      have hfrom : ∀ m ∈ placed (.row row r.first) send.shown, ∀ i, m.shows parts i = true →
          r.first ≤ i ∧ m.ofRow row = true := by
        intro m hm i hs
        obtain ⟨k, -, horigin⟩ := mem_placed hm
        rw [ChatMessage.shows, horigin] at hs
        simp only [Bool.and_eq_true, decide_eq_true_eq] at hs
        exact ⟨hs.1, by rw [ChatMessage.ofRow, horigin]; exact decide_eq_true rfl⟩
      -- The pending rows after the pass: this one, if it still is.
      have hqueue : ∀ (row' : Nat) (r' : TelegramOutboundQueueRecord),
          (if markOk then s.queue.set row (marked r now send.result) else s.queue)[row']? = some r' →
            r'.status = .pending → row' = row ∧ r'.first = r.first := by
        intro row' r' hr' hstatus
        by_cases hne : row' = row
        · subst hne
          split_ifs at hr'
          · rw [List.getElem?_set_self (List.getElem?_eq_some_iff.mp hr).1] at hr'
            cases hr'
            exact ⟨rfl, marked_first ..⟩
          · rw [hr] at hr'
            cases hr'
            exact ⟨rfl, rfl⟩
        · have hold : s.queue[row']? = some r' := by
            split_ifs at hr'
            · rwa [List.getElem?_set_ne (Ne.symm hne)] at hr'
            · exact hr'
          exact absurd (h.single row' row r' r hold hr hstatus hdue.1) hne
      refine ⟨shownOnce_append h.once (shownOnce_placed_row _ _ _) fun m hm m' hm' i hi hs => ?_,
        fun row' r' hr' hstatus m hm i hi hfirst hs => ?_, fun row' row'' r' r'' hr' hr'' hstatus hstatus' => ?_⟩
      · by_contra hs'
        rw [hbelow m hm i hi (hfrom m' hm' i (by simpa using hs')).1] at hs
        exact absurd hs (by decide)
      · obtain ⟨rfl, hfirst'⟩ := hqueue row' r' hr' hstatus
        rw [hfirst'] at hfirst
        rcases List.mem_append.mp hm with hold | hnew
        · rw [hbelow m hold i hi hfirst] at hs
          exact absurd hs (by decide)
        · exact (hfrom m hnew i hs).2
      · rw [(hqueue row' r' hr' hstatus).1, (hqueue row'' r'' hr'' hstatus').1]
    · rw [if_neg hdue]
      exact h
  · exact h

end Apart

/-! ## The steps keep it -/

section Steps

variable {parts : List TelegramRenderedText}

theorem Kept.of_apart (h : Apart parts s.chat s.queue) (hstreaming : s.phase ≠ .streaming)
    (hflushing : s.phase ≠ .flushing) : s.Kept parts where
  apart := h
  slots hphase := hphase.elim (absurd · hstreaming) (absurd · hflushing)
  streaming hphase := absurd hphase hstreaming

theorem flushSink_spec {P : ChatMessage → Prop} {force due draft : Bool} {api : Nat → Except String Int}
    {out : Delivery × Bool} (hout : s.flushSink parse force due draft api = out)
    (hslots : SlotsAt s.chat s.sink.messageIds) (hothers : Others P s.chat s.sink.messageIds) :
    out.1.phase = s.phase ∧ out.1.queue = s.queue ∧ SlotsAt out.1.chat out.1.sink.messageIds ∧
      Others P out.1.chat out.1.sink.messageIds := by
  subst hout
  rw [flushSink]
  split
  · exact ⟨rfl, rfl, hslots, hothers⟩
  · dsimp only
    split
    · exact ⟨rfl, rfl, hslots, hothers⟩
    · have hflush := flushParts_spec s.sink.renderedParts api 0
        (renderTelegramTextParts parse s.sink.pendingText telegramMaxTextChars) hslots hothers (Nat.zero_le _)
      generalize flushParts s.sink.renderedParts api 0
        (renderTelegramTextParts parse s.sink.pendingText telegramMaxTextChars) s.chat s.sink.messageIds = out at *
      split
      · exact ⟨rfl, rfl, hslots, hothers⟩
      · exact ⟨rfl, rfl, hflush⟩

theorem kept_delta (h : s.Kept parts) (text : String) (due draft : Bool) (api : Nat → Except String Int) :
    (s.delta parse text due draft api).Kept parts := by
  rw [Delivery.delta]
  split_ifs with hstep
  · obtain ⟨hqueue, hothers⟩ := h.streaming hstep.1
    generalize hout : Delivery.flushSink parse { s with sink := { s.sink with pendingText := s.sink.pendingText ++ text } }
      false due draft api = out
    obtain ⟨-, hqueue', hslots', hothers'⟩ := flushSink_spec hout (h.slots (.inl hstep.1)) hothers
    have hempty : out.1.queue = [] := hqueue'.trans hqueue
    refine ⟨.of_not_pending (shownOnce_of_slots hslots' (hothers'.mono fun m => False.elim)) ?_, fun _ => hslots',
      fun _ => ⟨hempty, hothers'⟩⟩
    rw [hempty]
    exact nofun
  · exact h

theorem kept_flush (h : s.Kept parts) (hsink : s.phase = .flushing → s.OnlySink parts) (api : Nat → Except String Int) :
    (s.flush parse api).Kept parts := by
  rw [Delivery.flush]
  split_ifs with hphase
  · obtain ⟨hpending, hnone⟩ := hsink hphase
    have hothers : Others (ShowsNone parts) s.chat s.sink.messageIds := fun p m hp hne =>
      hnone p (List.getElem?_eq_some_iff.mp hp).1 hne m hp
    generalize hout : s.flushSink parse true true false api = out
    obtain ⟨-, hqueue, hslots', hothers'⟩ := flushSink_spec hout (h.slots (.inr hphase)) hothers
    refine .of_apart (.of_not_pending (shownOnce_of_slots hslots' hothers') ?_) ?_ ?_
    · show ∀ r ∈ out.1.queue, _
      rw [hqueue]
      exact hpending
    all_goals
      dsimp only
      split_ifs <;> simp
  · exact h

theorem chat_eq_nil (h : s.Kept parts) (hphase : s.phase = .streaming) (hids : s.sink.messageIds = []) : s.chat = [] := by
  have hothers := (h.streaming hphase).2
  rw [hids] at hothers
  cases hchat : s.chat with
  | nil => rfl
  | cons m chat => exact (hothers 0 m (by rw [hchat]; rfl) (List.not_mem_nil)).elim

theorem kept_finalize (h : s.Kept (renderTelegramTextParts parse reply.text telegramMaxTextChars))
    (api : Nat → Except String Int) (enqueued : Bool) (now : Int) :
    (s.finalize parse reply api enqueued now).Kept (renderTelegramTextParts parse reply.text telegramMaxTextChars) := by
  rw [Delivery.finalize]
  split
  · rename_i hphase
    split
    · exact .of_apart h.apart (by simp) (by simp)
    · dsimp only
      split
      · exact .of_apart h.apart (by simp) (by simp)
      · split
        · rename_i hwaiting
          simp only [Bool.and_eq_true, List.isEmpty_iff] at hwaiting
          have hchat := chat_eq_nil h hphase hwaiting.2
          have hunseen : Delivery.Unseen (renderTelegramTextParts parse reply.text telegramMaxTextChars)
              { s with sink := { s.sink with pendingText := reply.text } } := by
            refine ⟨?_, ?_⟩
            · rw [(h.streaming hphase).1]
              exact nofun
            · rw [hchat]
              exact nofun
          have hapart := apart_sendText hunseen h.apart.once api enqueued now
          generalize Delivery.sendText parse reply { s with sink := { s.sink with pendingText := reply.text } } api enqueued
            now = sent at hapart ⊢
          split
          · exact .of_apart hapart (by simp) (by simp)
          · refine ⟨hapart, fun _ => ?_, by simp⟩
            show SlotsAt _ s.sink.messageIds
            rw [hwaiting.2]
            exact nofun
        · exact ⟨h.apart, fun _ => h.slots (.inl hphase), by simp⟩
  · exact h

theorem kept_fallback (h : s.Kept (renderTelegramTextParts parse reply.text telegramMaxTextChars))
    (hunseen : s.phase = .fallback → s.Unseen (renderTelegramTextParts parse reply.text telegramMaxTextChars))
    (api : Nat → Except String Int) (enqueued : Bool) (now : Int) :
    (s.fallback parse reply api enqueued now).Kept (renderTelegramTextParts parse reply.text telegramMaxTextChars) := by
  rw [Delivery.fallback]
  split
  · rename_i hphase
    have hapart := apart_sendText (hunseen hphase) h.apart.once api enqueued now
    generalize s.sendText parse reply api enqueued now = sent at hapart ⊢
    exact .of_apart hapart (by simp) (by simp)
  · exact h

theorem kept_attempt (h : s.Kept (renderTelegramTextParts parse reply.text telegramMaxTextChars))
    (hunseen : s.phase = .scheduled → s.Unseen (renderTelegramTextParts parse reply.text telegramMaxTextChars))
    (api : Nat → Except String Int) (enqueued : Bool) (now : Int) (completed : Bool) :
    (s.attempt parse reply api enqueued now completed).Kept
      (renderTelegramTextParts parse reply.text telegramMaxTextChars) := by
  rw [Delivery.attempt]
  split
  · rename_i hphase
    have hapart := apart_sendText (hunseen hphase) h.apart.once api enqueued now
    generalize s.sendText parse reply api enqueued now = sent at hapart ⊢
    dsimp only
    split
    · exact .of_apart hapart (by simp) (by simp)
    · exact .of_apart hapart (by simp) (by simp)
  · exact h

theorem kept_janitor (h : s.Kept parts) (row : Nat) (hrow : ∀ m ∈ s.chat, m.ofRow row = false) (now : Int)
    (api : Nat → Except String Int) (markOk : Bool) : (s.janitor parse row now api markOk).Kept parts := by
  have hapart := apart_janitor h.apart parse row now api markOk hrow
  rw [Delivery.janitor] at hapart ⊢
  cases hr : s.queue[row]? with
  | none =>
    rw [hr] at hapart
    exact h
  | some r =>
    rw [hr] at hapart
    dsimp only at hapart ⊢
    by_cases hdue : r.status = .pending ∧ r.nextAttemptAt ≤ now
    · rw [if_pos hdue] at hapart ⊢
      refine ⟨hapart, fun hphase => (h.slots hphase).append _, fun hphase => ?_⟩
      rw [(h.streaming hphase).1] at hr
      cases hr
    · rw [if_neg hdue]
      exact h

theorem kept_exec (step : DeliveryStep)
    (hstep : s.Unrepeated (renderTelegramTextParts parse reply.text telegramMaxTextChars) step)
    (h : s.Kept (renderTelegramTextParts parse reply.text telegramMaxTextChars)) :
    (s.exec parse reply step).Kept (renderTelegramTextParts parse reply.text telegramMaxTextChars) := by
  cases step with
  | delta text due draft api => exact kept_delta h text due draft api
  | finalize api enqueued now => exact kept_finalize h api enqueued now
  | flush api => exact kept_flush h hstep api
  | fallback api enqueued now => exact kept_fallback h hstep api enqueued now
  | attempt api enqueued now completed => exact kept_attempt h hstep api enqueued now completed
  | janitor row now api markOk => exact kept_janitor h row hstep now api markOk

end Steps

/-- A reply to a stream, or the text of a job of the scheduler; nothing of it is shown yet. -/
def start (phase : DeliveryPhase) (preferDraft draftSupported : Bool) : Delivery :=
  { phase, sink := { preferDraft, draftSupported } }

theorem kept_start (parts : List TelegramRenderedText) (phase : DeliveryPhase) (preferDraft draftSupported : Bool) :
    (start phase preferDraft draftSupported).Kept parts where
  apart := .of_not_pending List.Pairwise.nil nofun
  slots _ := nofun
  streaming _ := ⟨rfl, nofun⟩

end Delivery

/-- **Each part of a reply is shown at most once**, in every run of the sink, the scheduler and the janitor in which
the text is sent from its beginning, and a row of the queue, only where nothing of it is shown or queued; the calls
of the API, the queue and the stores succeed and fail in any way. -/
theorem shown_at_most_once (parse : String → List MarkdownEvent) (reply : TelegramReply) (phase : DeliveryPhase)
    (preferDraft draftSupported : Bool) (steps : List DeliveryStep)
    (h : Machine.Along (Delivery.exec parse reply)
      (Delivery.Unrepeated (renderTelegramTextParts parse reply.text telegramMaxTextChars))
      (.start phase preferDraft draftSupported) steps) :
    ShownOnce (renderTelegramTextParts parse reply.text telegramMaxTextChars)
      (Machine.run (Delivery.exec parse reply) (.start phase preferDraft draftSupported) steps).chat := by
  have hkept := Machine.run_invariant (I := Delivery.Kept (renderTelegramTextParts parse reply.text telegramMaxTextChars))
    (fun _ step hstep hs => Delivery.kept_exec step hstep hs) h (Delivery.kept_start _ phase preferDraft draftSupported)
  exact hkept.apart.once

namespace Sample

def doneReply : TelegramReply := { chatId := 7, messageThreadId := none, replyToMessageId := none, text := "Done." }

/-- The attempt fails and is queued; the janitor fails once and then delivers the row. -/
def queuedOnce : List DeliveryStep :=
  [.attempt unreachable true 0 true, .janitor 0 15 unreachable true, .janitor 0 30 accepted true]

/-- The scheduler retries an attempt that is queued. -/
def queuedAndRetried : List DeliveryStep :=
  [.attempt unreachable true 0 true, .attempt accepted true 10 true, .janitor 0 15 accepted true]

/-- `finalize` falls back to its flush after a final send that is queued. -/
def queuedAndFlushed : List DeliveryStep :=
  [.finalize unreachable true 0, .flush accepted, .janitor 0 15 accepted true]

end Sample

theorem shown_at_most_once_queued :
    (Machine.run (Delivery.exec Sample.cmark Sample.doneReply) (.start .scheduled false false) Sample.queuedOnce).chat =
        [⟨.row 0 0 0, ⟨"Done\\.", some "MarkdownV2"⟩⟩] ∧
      ShownOnce (renderTelegramTextParts Sample.cmark Sample.doneReply.text telegramMaxTextChars)
        (Machine.run (Delivery.exec Sample.cmark Sample.doneReply) (.start .scheduled false false) Sample.queuedOnce).chat :=
  ⟨by decide +kernel, shown_at_most_once Sample.cmark Sample.doneReply .scheduled false false Sample.queuedOnce
    (by decide +kernel)⟩

/-- The one part is shown twice: by the retry of the scheduler and by the janitor, and likewise by the flush of a
stream and by the janitor. -/
theorem shown_at_most_once_repeated :
    renderTelegramTextParts Sample.cmark Sample.doneReply.text telegramMaxTextChars = [⟨"Done\\.", some "MarkdownV2"⟩] ∧
      (Machine.run (Delivery.exec Sample.cmark Sample.doneReply) (.start .scheduled false false)
          Sample.queuedAndRetried).chat =
        [⟨.part 0, ⟨"Done\\.", some "MarkdownV2"⟩⟩, ⟨.row 0 0 0, ⟨"Done\\.", some "MarkdownV2"⟩⟩] ∧
      (Machine.run (Delivery.exec Sample.cmark Sample.doneReply) (.start .streaming true true)
          Sample.queuedAndFlushed).chat =
        [⟨.part 0, ⟨"Done\\.", some "MarkdownV2"⟩⟩, ⟨.row 0 0 0, ⟨"Done\\.", some "MarkdownV2"⟩⟩] ∧
      ¬ ShownOnce (renderTelegramTextParts Sample.cmark Sample.doneReply.text telegramMaxTextChars)
        (Machine.run (Delivery.exec Sample.cmark Sample.doneReply) (.start .scheduled false false)
          Sample.queuedAndRetried).chat ∧
      ¬ ShownOnce (renderTelegramTextParts Sample.cmark Sample.doneReply.text telegramMaxTextChars)
        (Machine.run (Delivery.exec Sample.cmark Sample.doneReply) (.start .streaming true true)
          Sample.queuedAndFlushed).chat := by
  decide +kernel

end Xiaomaolv
