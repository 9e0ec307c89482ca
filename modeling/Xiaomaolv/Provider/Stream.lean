import Xiaomaolv.Lib.Emitter
import Xiaomaolv.Lib.Utf8
import Xiaomaolv.Loop.Data

/-!
# Streams of a provider

The OpenAI-compatible provider: requests over HTTP, retried; a streamed reply is read chunk by chunk
and line by line, each `data:` line one event.

* `Web`, `Codec`: the server and the parsers, which the source takes from elsewhere.
* `readStream`: the chunk loop; `OpenAiCompatibleProvider.completeStream`: the retries around it.
* `Body.payloads`: the data payloads of a streamed body; **`readStream_eq`**: the loop reads these and
  nothing else.
* `Streams`: a reply is the text that the sink has accepted on the way to it; **`streams_completeStream`**.
* **`stream_chunking`**: when the cuts between chunks change nothing.
-/

namespace Xiaomaolv

open Emitter

/-! ## Requests, replies and failures -/

inductive ResponseFormat where
  | jsonObject
  deriving DecidableEq, Repr

structure CompletionRequest where
  messages : List StoredMessage
  responseFormat : Option ResponseFormat := none
  deriving DecidableEq, Repr

/-- An error of a provider call. -/
inductive ProviderError where
  /-- `ProviderHttpError`. -/
  | http (status : Nat) (body : String)
  | other (message : String)
  deriving DecidableEq, Repr

/-- How a call ends without a reply: with an error, or with a panic, which no caller catches. -/
inductive Failure where
  | error (e : ProviderError)
  | panicked
  deriving DecidableEq, Repr

/-- A call on a world `ω`; what it emits are the deltas that its sink is given. -/
abbrev Call (ω α : Type) := Emitter.Op ω String ProviderError Failure α

/-- `Err(e)`. -/
def raise {ω α : Type} (e : ProviderError) : Call ω α := Op.fail (.error e)

/-- `sink.on_delta(delta).await?`. -/
def onDelta {ω : Type} (delta : String) : Call ω Unit := fun w =>
  .emit delta fun
    | .ok () => .done (.ok (), w)
    | .error e => .done (.error (.error e), w)

/-- `match call.await { Ok(..) => .., Err(..) => .. }`. -/
def attempt {ω α : Type} (call : Call ω α) : Call ω (Except ProviderError α) := fun w =>
  (call w).bind fun
    | (.ok a, w') => .done (.ok (.ok a), w')
    | (.error (.error e), w') => .done (.ok (.error e), w')
    | (.error .panicked, w') => .done (.error .panicked, w')

/-- The body of a response, in the chunks it arrives in; a broken one ends with an error. -/
structure Body where
  chunks : List (List UInt8)
  broken : Bool := false
  deriving DecidableEq, Repr

def Body.bytes (body : Body) : List UInt8 := body.chunks.flatten

/-- What comes back for a request. -/
inductive Reply where
  | failed (message : String)
  | response (status : Nat) (body : Body)
  deriving DecidableEq, Repr

/-- `StatusCode::is_success`. -/
def isSuccess (status : Nat) : Bool := 200 ≤ status && status < 300

structure HttpRequest where
  url : String
  timeoutSecs : Nat
  apiKey : String
  model : String
  messages : List StoredMessage
  responseFormat : Option ResponseFormat
  stream : Bool
  deriving DecidableEq, Repr

/-- The server, which answers each request and changes with it. -/
structure Web (ω : Type) where
  send : HttpRequest → ω → Reply × ω

/-- The parsers of the response bodies. -/
structure Codec where
  /-- `serde_json::from_str` of an event. -/
  parseEvent : String → Option Value
  /-- The contents of the choices of a reply. -/
  parseResponse : List UInt8 → Option (List String)
  /-- The text of an error body. -/
  bodyText : List UInt8 → String

/-- `resp.json()`. -/
def Codec.json (codec : Codec) (body : Body) : Option (List String) :=
  if body.broken then none else codec.parseResponse body.bytes

/-- `resp.text().await.unwrap_or_default()`. -/
def Codec.text (codec : Codec) (body : Body) : String :=
  if body.broken then "" else codec.bodyText body.bytes

/-! ## Messages -/

/-- One iteration of `normalize_messages`: blank messages go, neighbours of one role merge. -/
def pushMessage (normalized : List StoredMessage) (msg : StoredMessage) : List StoredMessage :=
  if isBlank msg.content then normalized
  else
    match normalized.getLast? with
    | some last =>
      if last.role = msg.role then
        normalized.dropLast ++ [{ last with content := last.content ++ "\n\n" ++ msg.content }]
      else normalized ++ [msg]
    | none => [msg]

def normalizeMessages (messages : List StoredMessage) : List StoredMessage :=
  messages.foldl pushMessage []

def compatMessageLimit : Nat := 16

/-- The system messages of a compatibility request, folded into one text. -/
def systemGuidance (messages : List StoredMessage) : String :=
  "\n\n".intercalate (((messages.filter fun msg => msg.role = .system).map fun msg =>
    trim msg.content).filter fun content => !content.isEmpty)

/-- Put the folded system text before the first user message. -/
def foldGuidance (folded : String) : List StoredMessage → Option (List StoredMessage)
  | [] => none
  | msg :: messages =>
    if msg.role = .user then
      some ({ msg with content := folded ++ "\n\n" ++ msg.content } :: messages)
    else (foldGuidance folded messages).map (msg :: ·)

def buildCompatMessages (messages : List StoredMessage) : List StoredMessage :=
  let guidance := systemGuidance messages
  let filtered := normalizeMessages (messages.filter fun msg => msg.role ≠ .system)
  let filtered := filtered.drop (filtered.length - compatMessageLimit)
  let filtered :=
    if filtered.isEmpty then
      (messages.reverse.find? fun msg => msg.role = .user && !isBlank msg.content).toList
    else filtered
  if guidance.isEmpty then filtered
  else
    let folded := "系统提示（兼容模式）:\n" ++ guidance
    match foldGuidance folded filtered with
    | some messages => messages
    | none => ⟨.user, folded⟩ :: filtered

/-- The first `n` bytes of a text; slicing inside a character panics. -/
def sliceTo : Nat → List Char → Option (List Char)
  | 0, _ => some []
  | _, [] => none
  | n, c :: cs => if c.utf8Size ≤ n then (sliceTo (n - c.utf8Size) cs).map (c :: ·) else none

/-- `is_message_shape_error`; `none` where its slice panics. -/
def isMessageShapeError (status : Nat) (body : String) : Option Bool :=
  if status ≠ 400 then some false
  else (sliceTo (min body.utf8ByteSize 256) body.toList).map fun chars =>
    let lower := String.ofList chars
    contains lower "invalid chat setting" || contains lower "expr_path=messages" ||
      contains lower "missing required parameter" || contains lower "invalid params"

/-! ## The provider without streaming -/

structure OpenAiCompatibleProvider where
  baseUrl : String
  apiKey : String
  model : String
  timeoutSecs : Nat
  maxRetries : Nat
  deriving DecidableEq, Repr

/-- `retry_attempts`. -/
def retryAttempts (maxRetries : Nat) : Nat := max (min (maxRetries + 1) (2 ^ 64 - 1)) 1

namespace OpenAiCompatibleProvider

variable {ω : Type} (web : Web ω) (codec : Codec) (p : OpenAiCompatibleProvider)

/-- The request that the provider sends. -/
def request (messages : List StoredMessage) (responseFormat : Option ResponseFormat)
    (stream : Bool) : HttpRequest where
  url := p.baseUrl ++ "/chat/completions"
  -- Streamed replies can exceed the regular timeout.
  timeoutSecs := if stream then max (min (p.timeoutSecs * 10) (2 ^ 64 - 1)) 300 else p.timeoutSecs
  apiKey := p.apiKey
  model := p.model
  messages := messages
  responseFormat := responseFormat
  stream := stream

/-- Send a request. -/
def send (messages : List StoredMessage) (responseFormat : Option ResponseFormat) (stream : Bool) :
    Call ω Reply := fun w =>
  let r := web.send (p.request messages responseFormat stream) w
  .done (.ok r.1, r.2)

/-- `try_compat_nonstream_recovery`, its error turned into no text. -/
def tryCompatNonstreamRecovery (messages : List StoredMessage) (status : Nat) (body : String)
    (responseFormat : Option ResponseFormat) : Call ω (Option String) :=
  match isMessageShapeError status body with
  | none => Op.fail .panicked
  | some false => pure none
  | some true =>
    let compat := buildCompatMessages messages
    if compat.isEmpty || compat == messages then pure none
    else do
      let reply ← send web p compat responseFormat false
      match reply with
      | .failed _ => pure none
      | .response status body =>
        if isSuccess status then pure ((codec.json body).bind List.head?) else pure none

/-- The retries of `complete_with_retry`. -/
def completeAttempts (messages : List StoredMessage) (responseFormat : Option ResponseFormat) :
    Nat → Option ProviderError → Call ω String
  | 0, lastError => raise (lastError.getD (.other "provider request failed without details"))
  | attempts + 1, _ => do
    let reply ← send web p messages responseFormat false
    match reply with
    | .failed message => completeAttempts messages responseFormat attempts (some (.other message))
    | .response status body =>
      if isSuccess status then
        match codec.json body with
        | none => raise (.other "failed to deserialize provider response")
        | some [] => raise (.other "provider response has no choices")
        | some (content :: _) => pure content
      else do
        let recovered ← tryCompatNonstreamRecovery web codec p messages status (codec.text body)
          responseFormat
        match recovered with
        | some text => pure text
        | none =>
          completeAttempts messages responseFormat attempts (some (.http status (codec.text body)))

/-- `complete_with_retry`. -/
def complete (req : CompletionRequest) : Call ω String :=
  completeAttempts web codec p (normalizeMessages req.messages) req.responseFormat
    (retryAttempts p.maxRetries) none

end OpenAiCompatibleProvider

/-! ## Events -/

/-- `trim_start_matches("data:")`. -/
def dropData : List Char → List Char
  | 'd' :: 'a' :: 't' :: 'a' :: ':' :: rest => dropData rest
  | text => text

/-- The payload of a line that carries data. -/
def payload? (line : String) : Option String :=
  let trimmed := trim line
  if trimmed.isEmpty || !startsWith trimmed "data:" then none
  else
    let payload := trim (String.ofList (dropData trimmed.toList))
    if payload.isEmpty || payload == "[DONE]" then none else some payload

/-- The texts of the items of a content list. -/
def itemTexts (items : List Value) : String :=
  "".intercalate (items.filterMap fun item => (item.get "text").bind Value.asStr)

def extractContentFromEvent (event : Value) : Option String :=
  match ((event.get "choices").bind Value.asArray).bind List.head? with
  | none => none
  | some choice =>
    let content := (choice.get "delta").bind (·.get "content")
    match content.bind Value.asStr with
    | some content => some content
    | none =>
      match (content.bind Value.asArray).map itemTexts with
      | some text => if text.isEmpty then fromMessage choice else some text
      | none => fromMessage choice
where
  /-- The content of a whole message, or the text of a choice. -/
  fromMessage (choice : Value) : Option String :=
    match ((choice.get "message").bind (·.get "content")).bind Value.asStr with
    | some content => some content
    | none => (choice.get "text").bind Value.asStr

/-- What a payload holds. -/
def extractEvent (codec : Codec) (payload : String) : Except ProviderError (Option String) :=
  match codec.parseEvent payload with
  | none => .error (.other ("invalid stream event: " ++ payload))
  | some event => .ok (extractContentFromEvent event)

def extractStreamDelta (codec : Codec) (line : String) : Except ProviderError (Option String) :=
  match payload? line with
  | none => .ok none
  | some payload => extractEvent codec payload

/-! ## The chunk loop -/

section Reading

variable {ω : Type} (codec : Codec)

/-- Append what the line holds to the assembled text, and hand it to the sink. -/
def readLine (assembled line : String) : Call ω String :=
  match extractStreamDelta codec line with
  | .error e => raise e
  | .ok none => pure assembled
  | .ok (some delta) => do
    onDelta delta
    pure (assembled ++ delta)

def readLines : String → List (List Char) → Call ω String
  | assembled, [] => pure assembled
  | assembled, line :: lines => do
    let assembled ← readLine codec assembled (chomp line)
    readLines assembled lines

/-- The loop over the chunks: each is decoded by itself. -/
def readChunks : String → List Char → List (List UInt8) → Call ω (String × List Char)
  | assembled, buffer, [] => pure (assembled, buffer)
  | assembled, buffer, chunk :: chunks => do
    let cut := takeLines (buffer ++ Utf8.decodeLossy chunk)
    let assembled ← readLines codec assembled cut.1
    readChunks assembled cut.2 chunks

/-- Read a streamed body; the reply is the text of its deltas. -/
def readStream (body : Body) : Call ω String := do
  let (assembled, buffer) ← readChunks codec "" [] body.chunks
  if body.broken then raise (.other "failed to read provider stream chunk")
  else
    let buffer := String.ofList buffer
    if isBlank buffer then pure assembled else readLine codec assembled (trim buffer)

end Reading

/-! ## The provider with streaming -/

namespace OpenAiCompatibleProvider

variable {ω : Type} (web : Web ω) (codec : Codec) (p : OpenAiCompatibleProvider)

/-- The retries of `complete_stream_with_retry`: a reply, or the last error. -/
def streamAttempts (messages : List StoredMessage) (responseFormat : Option ResponseFormat) :
    Nat → Option ProviderError → Call ω (Except (Option ProviderError) String)
  | 0, lastError => pure (.error lastError)
  | attempts + 1, _ => do
    let reply ← send web p messages responseFormat true
    match reply with
    | .failed message => streamAttempts messages responseFormat attempts (some (.other message))
    | .response status body =>
      if isSuccess status then do
        let assembled ← readStream codec body
        if assembled.isEmpty then
          streamAttempts messages responseFormat attempts
            (some (.other "provider stream completed without text delta"))
        else pure (.ok assembled)
      else streamAttempts messages responseFormat attempts (some (.http status (codec.text body)))

/-- The end of `complete_stream_with_retry`: one reply without streaming. -/
def streamFallback (messages : List StoredMessage) (responseFormat : Option ResponseFormat)
    (lastError : Option ProviderError) : Call ω String := do
  let fallback ← attempt (p.complete web codec ⟨messages, responseFormat⟩)
  match fallback with
  | .error fallbackErr => raise (lastError.getD fallbackErr)
  | .ok text =>
    if text.isEmpty then pure text
    else do
      onDelta text
      pure text

/-- `complete_stream_with_retry`. -/
def completeStream (req : CompletionRequest) : Call ω String := do
  let messages := normalizeMessages req.messages
  let reply ← streamAttempts web codec p messages req.responseFormat (retryAttempts p.maxRetries) none
  match reply with
  | .ok text => pure text
  | .error lastError => streamFallback web codec p messages req.responseFormat lastError

end OpenAiCompatibleProvider

/-! ## The payloads of a body -/

theorem takeLines_append (a b : List Char) : takeLines (a ++ b) =
    ((takeLines a).1 ++ (takeLines ((takeLines a).2 ++ b)).1, (takeLines ((takeLines a).2 ++ b)).2) := by
  induction a with
  | nil => rfl
  | cons c a ih =>
    rw [List.cons_append, takeLines, takeLines, ih]
    dsimp only
    by_cases hc : c = '\n'
    · rw [if_pos hc, if_pos hc]
      rfl
    · rw [if_neg hc, if_neg hc]
      cases (takeLines a).1 with
      | nil =>
        simp only [List.nil_append, List.cons_append, takeLines, if_neg hc]
      | cons line lines => rfl

theorem takeLines_rest (a : List Char) : takeLines (takeLines a).2 = ([], (takeLines a).2) := by
  induction a with
  | nil => rfl
  | cons c a ih =>
    rw [takeLines]
    dsimp only
    by_cases hc : c = '\n'
    · rw [if_pos hc]
      exact ih
    · rw [if_neg hc]
      cases (takeLines a).1 with
      | nil =>
        dsimp only
        rw [takeLines, ih]
        dsimp only
        rw [if_neg hc]
      | cons line lines => exact ih

/-- The text of a body, decoded chunk by chunk. -/
def Body.text (body : Body) : List Char := body.chunks.flatMap Utf8.decodeLossy

/-- The data payloads of the complete lines. -/
def linePayloads (lines : List (List Char)) : List String :=
  lines.filterMap fun line => payload? (chomp line)

/-- The data payload of an unfinished last line. -/
def tailPayloads (rest : List Char) : List String :=
  if isBlank (String.ofList rest) then [] else (payload? (trim (String.ofList rest))).toList

/-- The data payloads of a streamed body; a broken one has lost its unfinished line. -/
def Body.payloads (body : Body) : List String :=
  linePayloads (takeLines body.text).1 ++
    if body.broken then [] else tailPayloads (takeLines body.text).2

section Payloads

variable {ω : Type} (codec : Codec)

/-- Append what the payloads hold to the assembled text, and hand it to the sink. -/
def readPayloads : String → List String → Call ω String
  | assembled, [] => pure assembled
  | assembled, payload :: payloads =>
    match extractEvent codec payload with
    | .error e => raise e
    | .ok none => readPayloads assembled payloads
    | .ok (some delta) => do
      onDelta delta
      readPayloads (assembled ++ delta) payloads

theorem readPayloads_append (assembled : String) (ps qs : List String) :
    readPayloads (ω := ω) codec assembled (ps ++ qs) = (do
      let assembled ← readPayloads codec assembled ps
      readPayloads codec assembled qs) := by
  induction ps generalizing assembled with
  | nil => rfl
  | cons p ps ih =>
    rw [List.cons_append, readPayloads, readPayloads]
    cases extractEvent codec p with
    | error e => rfl
    | ok delta =>
      cases delta with
      | none => exact ih assembled
      | some delta =>
        dsimp only
        rw [Op.bind_assoc]
        congr 1
        funext _
        exact ih _

theorem readLine_eq (assembled line : String) :
    readLine (ω := ω) codec assembled line = readPayloads codec assembled (payload? line).toList := by
  unfold readLine extractStreamDelta
  cases payload? line with
  | none => rfl
  | some payload =>
    show _ = readPayloads codec assembled [payload]
    rw [readPayloads]
    dsimp only
    cases extractEvent codec payload with
    | error e => rfl
    | ok delta => cases delta <;> rfl

theorem readLines_eq (assembled : String) (lines : List (List Char)) :
    readLines (ω := ω) codec assembled lines
      = readPayloads codec assembled (linePayloads lines) := by
  induction lines generalizing assembled with
  | nil => rfl
  | cons line lines ih =>
    have hcons : linePayloads (line :: lines)
        = (payload? (chomp line)).toList ++ linePayloads lines := by
      unfold linePayloads
      rw [List.filterMap_cons]
      cases payload? (chomp line) <;> rfl
    rw [readLines, hcons, readPayloads_append, readLine_eq]
    congr 1
    funext assembled
    exact ih assembled

theorem readChunks_eq (assembled : String) {buffer : List Char} (chunks : List (List UInt8))
    (hbuffer : takeLines buffer = ([], buffer)) :
    readChunks (ω := ω) codec assembled buffer chunks = (do
      let cut := takeLines (buffer ++ chunks.flatMap Utf8.decodeLossy)
      let assembled ← readPayloads codec assembled (linePayloads cut.1)
      pure (assembled, cut.2)) := by
  induction chunks generalizing assembled buffer with
  | nil =>
    rw [List.flatMap_nil, List.append_nil, hbuffer]
    rfl
  | cons chunk chunks ih =>
    have hcut := takeLines_append (buffer ++ Utf8.decodeLossy chunk) (chunks.flatMap Utf8.decodeLossy)
    rw [List.flatMap_cons, ← List.append_assoc, readChunks, hcut]
    dsimp only
    have happend : ∀ ls ls', linePayloads (ls ++ ls') = linePayloads ls ++ linePayloads ls' :=
      fun _ _ => List.filterMap_append
    rw [happend, readPayloads_append, Op.bind_assoc, readLines_eq]
    congr 1
    funext assembled
    exact ih assembled (takeLines_rest _)

/-- **The loop over the chunks reads the payloads of the body, and nothing else.** -/
theorem readStream_eq (body : Body) : readStream (ω := ω) codec body = (do
    let assembled ← readPayloads codec "" body.payloads
    if body.broken then raise (.other "failed to read provider stream chunk") else pure assembled) := by
  unfold readStream
  rw [readChunks_eq codec "" body.chunks rfl, List.nil_append, Op.bind_assoc]
  unfold Body.payloads tailPayloads Body.text
  generalize takeLines (body.chunks.flatMap Utf8.decodeLossy) = cut
  show (readPayloads codec "" (linePayloads cut.1) >>= fun assembled =>
    if body.broken then _ else _) = _
  cases body.broken with
  | true =>
    simp only [if_true, List.append_nil]
  | false =>
    simp only [Bool.false_eq_true, if_false]
    rw [readPayloads_append, Op.bind_pure]
    congr 1
    funext assembled
    by_cases hblank : isBlank (String.ofList cut.2) = true
    · rw [if_pos hblank, if_pos hblank]
      rfl
    · rw [if_neg hblank, if_neg hblank]
      exact readLine_eq codec assembled _

end Payloads

/-! ## A reply is what was accepted -/

/-- The reply of the call is the text that its sink has accepted. -/
def Streams {ω : Type} (call : Call ω String) : Prop :=
  ∀ w items text w', Op.Emits call w items (.ok text) w' → String.join items = text

section Emitted

variable {ω : Type} {web : Web ω} {codec : Codec} {p : OpenAiCompatibleProvider}
  {messages : List StoredMessage} {responseFormat : Option ResponseFormat} {w w' : ω}
  {items : List String}

theorem emits_onDelta {delta : String} (h : Op.Emits (onDelta delta) w items (.ok ()) w') :
    items = [delta] := by
  cases h with
  | accepted h =>
    rw [(emits_done.mp h).1]
  | refused e h =>
    cases (emits_done.mp h).2

theorem emits_readPayloads {assembled text : String} {payloads : List String}
    (h : Op.Emits (readPayloads codec assembled payloads) w items (.ok text) w') :
    text = assembled ++ String.join items := by
  induction payloads generalizing assembled items w with
  | nil =>
    obtain ⟨rfl, he, -⟩ := Op.emits_pure.mp h
    cases he
    rw [String.join_nil, String.append_empty]
  | cons payload payloads ih =>
    rw [readPayloads] at h
    cases hevent : extractEvent codec payload with
    | error e =>
      rw [hevent] at h
      cases (Op.emits_fail.mp h).2.1
    | ok delta =>
      rw [hevent] at h
      cases delta with
      | none => exact ih h
      | some delta =>
        rcases Op.emits_bind.mp h with ⟨l, a, w₁, l', hl, hrest, rfl⟩ | ⟨e, -, he⟩
        · rw [ih hrest, emits_onDelta hl, String.join_append, String.append_assoc]
          simp
        · cases he

theorem streams_readStream (body : Body) : Streams (ω := ω) (readStream codec body) := by
  intro w items text w' h
  rw [readStream_eq] at h
  rcases Op.emits_bind.mp h with ⟨l, assembled, w₁, l', hl, hrest, rfl⟩ | ⟨e, -, he⟩
  · have htext := emits_readPayloads hl
    split_ifs at hrest with hbroken
    · cases (Op.emits_fail.mp hrest).2.1
    · obtain ⟨rfl, he, -⟩ := Op.emits_pure.mp hrest
      cases he
      rw [List.append_nil, htext, String.empty_append]
  · cases he

open OpenAiCompatibleProvider

theorem silent_send (stream : Bool) : Op.Silent (send web p messages responseFormat stream) :=
  fun _ _ _ _ h => (emits_done.mp h).1

theorem silent_tryCompat (status : Nat) (body : String) :
    Op.Silent (tryCompatNonstreamRecovery web codec p messages status body responseFormat) := by
  unfold tryCompatNonstreamRecovery
  split
  · exact Op.silent_fail _
  · exact Op.silent_pure _
  · dsimp only
    split_ifs with hc
    · exact Op.silent_pure _
    · refine (silent_send _).bind fun reply => ?_
      cases reply with
      | failed message => exact Op.silent_pure _
      | response status body =>
        dsimp only
        split_ifs <;> exact Op.silent_pure _

theorem silent_completeAttempts (attempts : Nat) (lastError : Option ProviderError) :
    Op.Silent (completeAttempts web codec p messages responseFormat attempts lastError) := by
  induction attempts generalizing lastError with
  | zero => exact Op.silent_fail _
  | succ attempts ih =>
    refine (silent_send _).bind fun reply => ?_
    cases reply with
    | failed message => exact ih _
    | response status body =>
      dsimp only
      split_ifs with hsuccess
      · split
        · exact Op.silent_fail _
        · exact Op.silent_fail _
        · exact Op.silent_pure _
      · refine (silent_tryCompat _ _).bind fun recovered => ?_
        cases recovered with
        | none => exact ih _
        | some text => exact Op.silent_pure _

theorem silent_complete (req : CompletionRequest) : Op.Silent (p.complete web codec req) :=
  silent_completeAttempts _ _

theorem Silent.attempt {α : Type} {call : Call ω α} (h : Op.Silent call) :
    Op.Silent (attempt call) := by
  intro w items r w' hr
  obtain ⟨l, ⟨r₀, w₀⟩, l', hl, hrest, rfl⟩ := Emitter.emits_bind.mp hr
  rw [h _ _ _ _ hl]
  rcases r₀ with (e | _) | a
  · rw [(emits_done.mp hrest).1]
    rfl
  · rw [(emits_done.mp hrest).1]
    rfl
  · rw [(emits_done.mp hrest).1]
    rfl

/-- The text that the retries have handed over: the reply, or nothing. -/
theorem emits_streamAttempts {attempts : Nat} {lastError : Option ProviderError}
    {reply : Except (Option ProviderError) String}
    (h : Op.Emits (streamAttempts web codec p messages responseFormat attempts lastError) w items
      (.ok reply) w') :
    String.join items = reply.toOption.getD "" := by
  induction attempts generalizing lastError items w with
  | zero =>
    obtain ⟨rfl, he, -⟩ := Op.emits_pure.mp h
    cases he
    rfl
  | succ attempts ih =>
    rw [streamAttempts] at h
    rcases Op.emits_bind.mp h with ⟨l, r, w₁, l', hl, hrest, rfl⟩ | ⟨e, -, he⟩
    · rw [silent_send _ _ _ _ _ hl, List.nil_append]
      cases r with
      | failed message => exact ih hrest
      | response status body =>
        dsimp only at hrest
        split_ifs at hrest with hsuccess
        · rcases Op.emits_bind.mp hrest with ⟨l₁, assembled, w₂, l₂, hread, hnext, rfl⟩ | ⟨e, -, he⟩
          · have htext := streams_readStream body _ _ _ _ hread
            split_ifs at hnext with hempty
            · rw [String.join_append, htext, ih hnext, String.isEmpty_iff.mp hempty,
                String.empty_append]
            · obtain ⟨rfl, he, -⟩ := Op.emits_pure.mp hnext
              cases he
              rw [List.append_nil, htext]
              rfl
          · cases he
        · exact ih hrest
    · cases he

/-- **A streamed reply is the text that the sink has accepted**, through all the retries. -/
theorem streams_completeStream (req : CompletionRequest) :
    Streams (p.completeStream web codec req) := by
  intro w items text w' h
  rcases Op.emits_bind.mp h with ⟨l, reply, w₁, l', hl, hrest, rfl⟩ | ⟨e, -, he⟩
  · rw [String.join_append, emits_streamAttempts hl]
    cases reply with
    | ok reply =>
      obtain ⟨rfl, he, -⟩ := Op.emits_pure.mp hrest
      cases he
      rw [String.join_nil, String.append_empty]
      rfl
    | error lastError =>
      show "" ++ String.join l' = text
      rw [String.empty_append]
      rcases Op.emits_bind.mp hrest with ⟨l₁, fallback, w₂, l₂, hcall, hend, rfl⟩ | ⟨e, -, he⟩
      · rw [Silent.attempt (silent_complete _) _ _ _ _ hcall, List.nil_append]
        cases fallback with
        | error e => cases (Op.emits_fail.mp hend).2.1
        | ok reply =>
          dsimp only at hend
          split_ifs at hend with hempty
          · obtain ⟨rfl, he, -⟩ := Op.emits_pure.mp hend
            cases he
            exact (String.isEmpty_iff.mp hempty).symm
          · rcases Op.emits_bind.mp hend with ⟨l₃, u, w₃, l₄, hdelta, hpure, rfl⟩ | ⟨e, -, he⟩
            · obtain ⟨rfl, he, -⟩ := Op.emits_pure.mp hpure
              cases he
              rw [emits_onDelta hdelta]
              simp
            · cases he
      · cases he
  · cases he

end Emitted

/-! ## Chunks -/

/-- The body in one chunk. -/
def Body.joined (body : Body) : Body := { body with chunks := [body.bytes] }

@[simp] theorem Body.bytes_joined (body : Body) : body.joined.bytes = body.bytes := by
  simp [Body.joined, Body.bytes]

/-- No chunk ends inside a character. -/
def Body.EndsOnChars (body : Body) : Prop := ∀ chunk ∈ body.chunks, ∃ text, chunk = Utf8.encode text

theorem Body.EndsOnChars.payloads {body : Body} (h : body.EndsOnChars) :
    body.payloads = body.joined.payloads := by
  have htext : body.joined.text = body.text := by
    show [body.bytes].flatMap Utf8.decodeLossy = body.text
    rw [List.flatMap_singleton]
    exact (Utf8.decodeLossy_flatten h).1
  unfold Body.payloads
  rw [htext]
  rfl

def Reply.joined : Reply → Reply
  | .failed message => .failed message
  | .response status body => .response status body.joined

/-- The server, each of its bodies in one chunk. -/
def Web.joined {ω : Type} (web : Web ω) : Web ω where
  send request w := ((web.send request w).1.joined, (web.send request w).2)

/-- The cuts of the streamed bodies change none of their payloads. -/
def Web.CutsHarmlessly {ω : Type} (web : Web ω) : Prop :=
  ∀ request w status body, request.stream = true → (web.send request w).1 = .response status body →
    isSuccess status = true → body.payloads = body.joined.payloads

section Joined

variable {ω : Type} {web : Web ω} {codec : Codec} {p : OpenAiCompatibleProvider}
  {messages : List StoredMessage} {responseFormat : Option ResponseFormat}

theorem Codec.json_joined (body : Body) : codec.json body.joined = codec.json body := by
  unfold Codec.json
  rw [Body.bytes_joined]
  rfl

theorem Codec.text_joined (body : Body) : codec.text body.joined = codec.text body := by
  unfold Codec.text
  rw [Body.bytes_joined]
  rfl

theorem readStream_joined {body : Body} (h : body.payloads = body.joined.payloads) :
    readStream (ω := ω) codec body = readStream codec body.joined := by
  rw [readStream_eq, readStream_eq, h]
  rfl

open OpenAiCompatibleProvider

theorem send_joined {α : Type} (stream : Bool) (f : Reply → Call ω α) :
    (send web.joined p messages responseFormat stream >>= f)
      = (send web p messages responseFormat stream >>= fun reply => f reply.joined) := rfl

theorem send_congr {α : Type} {stream : Bool} {f g : Reply → Call ω α}
    (h : ∀ w, f (web.send (p.request messages responseFormat stream) w).1
      = g (web.send (p.request messages responseFormat stream) w).1) :
    (send web p messages responseFormat stream >>= f)
      = (send web p messages responseFormat stream >>= g) := by
  funext w
  show f _ _ = g _ _
  rw [h w]

theorem tryCompat_joined (status : Nat) (body : String) :
    tryCompatNonstreamRecovery web.joined codec p messages status body responseFormat
      = tryCompatNonstreamRecovery web codec p messages status body responseFormat := by
  unfold tryCompatNonstreamRecovery
  cases isMessageShapeError status body with
  | none => rfl
  | some shape =>
    cases shape with
    | false => rfl
    | true =>
      dsimp only
      split_ifs with hc
      · rfl
      · rw [send_joined]
        refine send_congr fun w => ?_
        cases (web.send (p.request (buildCompatMessages messages) responseFormat false) w).1 with
        | failed message => rfl
        | response status body => simp only [Reply.joined, Codec.json_joined]

theorem completeAttempts_joined (attempts : Nat) (lastError : Option ProviderError) :
    completeAttempts web.joined codec p messages responseFormat attempts lastError
      = completeAttempts web codec p messages responseFormat attempts lastError := by
  induction attempts generalizing lastError with
  | zero => rfl
  | succ attempts ih =>
    rw [completeAttempts, completeAttempts, send_joined]
    refine send_congr fun w => ?_
    cases (web.send (p.request messages responseFormat false) w).1 with
    | failed message => exact ih _
    | response status body =>
      simp only [Reply.joined, Codec.json_joined, Codec.text_joined, tryCompat_joined, ih]

theorem complete_joined (req : CompletionRequest) :
    p.complete web.joined codec req = p.complete web codec req :=
  completeAttempts_joined _ _

theorem streamAttempts_joined (h : web.CutsHarmlessly) (attempts : Nat)
    (lastError : Option ProviderError) :
    streamAttempts web.joined codec p messages responseFormat attempts lastError
      = streamAttempts web codec p messages responseFormat attempts lastError := by
  induction attempts generalizing lastError with
  | zero => rfl
  | succ attempts ih =>
    rw [streamAttempts, streamAttempts, send_joined]
    refine send_congr fun w => ?_
    cases hreply : (web.send (p.request messages responseFormat true) w).1 with
    | failed message => exact ih _
    | response status body =>
      simp only [Reply.joined, Codec.text_joined, ih]
      split_ifs with hsuccess
      · rw [readStream_joined (h _ w status body rfl hreply hsuccess)]
      · rfl

theorem completeStream_joined (h : web.CutsHarmlessly) (req : CompletionRequest) :
    p.completeStream web.joined codec req = p.completeStream web codec req := by
  unfold completeStream streamFallback
  simp only [streamAttempts_joined h, complete_joined]

end Joined

/-! ## Exactly the payloads -/

/-- Two bodies read alike: with every sink, the same text is accepted and the same comes back. -/
def ReadAlike {ω : Type} (codec : Codec) (w : ω) (body body' : Body) : Prop :=
  ∀ (σ : Type) (listen : String → σ → Except ProviderError Unit × σ) (s : σ),
    let r := run listen (readStream codec body w) s
    let r' := run listen (readStream codec body' w) s
    String.join r.accepted = String.join r'.accepted ∧ r.value = r'.value

/-- An event with the given content. -/
def contentEvent (content : String) : Value :=
  .json [("choices", .array (.cons (.json [("delta", .json [("content", .string content)])]) .nil))]

theorem extractContent_contentEvent (content : String) :
    extractContentFromEvent (contentEvent content) = some content := by
  simp [extractContentFromEvent, contentEvent, Value.asArray, Values.toList, Value.asStr]

/-- A digit that tells one payload from the others. -/
def markOf (mark payload : String) : String := if payload = mark then "1" else "0"

/-- A parser of events that reads nothing but this digit. -/
def marking (mark : String) : Codec where
  parseEvent payload := some (contentEvent (markOf mark payload))
  parseResponse _ := none
  bodyText _ := ""

/-- A sink that takes everything. -/
def takeAll (_ : String) (_ : Unit) : Except ProviderError Unit × Unit := (.ok (), ())

section Marks

variable {ω : Type}

theorem run_readPayloads (mark assembled : String) (payloads : List String) (w : ω) :
    run takeAll (readPayloads (marking mark) assembled payloads w) ()
      = ⟨(.ok (assembled ++ String.join (payloads.map (markOf mark))), w),
          payloads.map (markOf mark), ()⟩ := by
  induction payloads generalizing assembled with
  | nil => simp [readPayloads, pure, run]
  | cons payload payloads ih =>
    have hevent : extractEvent (marking mark) payload = .ok (some (markOf mark payload)) := by
      show Except.ok (extractContentFromEvent (contentEvent (markOf mark payload))) = _
      rw [extractContent_contentEvent]
    have hstep : readPayloads (ω := ω) (marking mark) assembled (payload :: payloads)
        = (onDelta (markOf mark payload) >>= fun _ =>
          readPayloads (marking mark) (assembled ++ markOf mark payload) payloads) := by
      rw [readPayloads, hevent]
    rw [hstep]
    show run takeAll (.emit (markOf mark payload) _) () = _
    rw [run]
    show (let r := run takeAll (readPayloads (marking mark) (assembled ++ markOf mark payload) payloads w) ()
      (⟨r.value, markOf mark payload :: r.accepted, r.state⟩ : Outcome _ _ _)) = _
    rw [ih]
    simp [String.append_assoc]

theorem accepted_readStream (mark : String) (body : Body) (w : ω) :
    (run takeAll (readStream (marking mark) body w) ()).accepted = body.payloads.map (markOf mark) := by
  rw [readStream_eq]
  show (run takeAll (Emitter.bind (readPayloads (marking mark) "" body.payloads w) _) ()).accepted = _
  rw [run_bind, run_readPayloads]
  dsimp only
  split_ifs
  · exact List.append_nil _
  · exact List.append_nil _

theorem eq_of_marks {ps qs : List String}
    (h : ∀ mark, String.join (ps.map (markOf mark)) = String.join (qs.map (markOf mark))) : ps = qs := by
  have hdigits : ∀ mark, ps.map (fun p => decide (p = mark)) = qs.map fun q => decide (q = mark) := by
    intro mark
    have hchars := congrArg String.toList (h mark)
    have hsingle : ∀ l : List String, (String.join (l.map (markOf mark))).toList
        = (l.map fun p => decide (p = mark)).map fun b => if b then '1' else '0' := by
      intro l
      induction l with
      | nil => rfl
      | cons p l ih =>
        rw [List.map_cons, String.join_cons, String.toList_append, ih]
        by_cases hp : p = mark
        · simp [markOf, hp]
        · simp [markOf, hp]
    rw [hsingle, hsingle] at hchars
    refine List.map_injective_iff.mpr (fun a b hab => ?_) hchars
    cases a <;> cases b <;> simp_all
  have hlen : ps.length = qs.length := by
    have hl := congrArg List.length (hdigits "")
    simpa using hl
  refine List.ext_getElem hlen fun i hi hi' => ?_
  have hget := congrArg (fun l => l[i]?) (hdigits ps[i])
  simp only [List.getElem?_map, List.getElem?_eq_getElem hi, List.getElem?_eq_getElem hi',
    Option.map_some, Option.some.injEq, decide_eq_decide, true_iff] at hget
  exact hget.symm

end Marks

/-- **When the cuts between chunks change nothing.** A body and the same bytes in one chunk are read
alike, whatever the parser of the events, exactly when their data payloads are the same; so it is when
no chunk ends inside a character. A provider whose server cuts harmlessly streams as it does from whole
bodies. -/
theorem stream_chunking {ω : Type} (w : ω) (body : Body) :
    ((∀ codec, ReadAlike codec w body body.joined) ↔ body.payloads = body.joined.payloads) ∧
    (body.EndsOnChars → body.payloads = body.joined.payloads) ∧
    ∀ (web : Web ω) (codec : Codec) (p : OpenAiCompatibleProvider) (req : CompletionRequest),
      web.CutsHarmlessly → p.completeStream web codec req = p.completeStream web.joined codec req := by
  refine ⟨⟨fun h => ?_, fun h codec σ listen s => ?_⟩, Body.EndsOnChars.payloads,
    fun web codec p req h => (completeStream_joined h req).symm⟩
  · refine eq_of_marks fun mark => ?_
    have hread := (h (marking mark) Unit takeAll ()).1
    rwa [accepted_readStream, accepted_readStream] at hread
  · dsimp only
    rw [readStream_joined h]
    exact ⟨rfl, rfl⟩

namespace Sample

/-- The text of a stream with one event. -/
def accented : String := "data: \x7b\"choices\":[\x7b\"delta\":\x7b\"content\":\"é\"\x7d\x7d]\x7d\n"

/-- Its bytes in two chunks, the first of which ends inside the `é`. -/
def cutInside : Body where
  chunks := [(Utf8.encode accented.toList).take 40, (Utf8.encode accented.toList).drop 40]

/-- `serde_json` on the event, and on the event with replacement characters. -/
def eventCodec : Codec where
  parseEvent payload :=
    if payload = "\x7b\"choices\":[\x7b\"delta\":\x7b\"content\":\"é\"\x7d\x7d]\x7d" then some (contentEvent "é")
    else if payload = "\x7b\"choices\":[\x7b\"delta\":\x7b\"content\":\"\uFFFD\uFFFD\"\x7d\x7d]\x7d" then
      some (contentEvent "\uFFFD\uFFFD")
    else none
  parseResponse _ := none
  bodyText _ := ""

end Sample

/-- A cut inside a character puts replacement characters into the reply. -/
theorem stream_chunking_cut :
    Sample.cutInside.bytes = Utf8.encode Sample.accented.toList ∧
    ¬ ReadAlike Sample.eventCodec () Sample.cutInside Sample.cutInside.joined := by
  refine ⟨by decide +kernel, fun h => ?_⟩
  have hcut : String.join (run takeAll (readStream Sample.eventCodec Sample.cutInside ()) ()).accepted
      = "\uFFFD\uFFFD" := by decide +kernel
  have hwhole : String.join
      (run takeAll (readStream Sample.eventCodec Sample.cutInside.joined ()) ()).accepted = "é" := by
    decide +kernel
  have hsame := (h Unit takeAll ()).1
  rw [hcut, hwhole] at hsame
  exact absurd hsame (by decide)

end Xiaomaolv
