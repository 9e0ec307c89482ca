import Xiaomaolv.Provider.Failover
import Xiaomaolv.Service.ToolProtocol

/-!
# Turns

A turn of a conversation, by what it does: provider requests, tool calls, the records of its agent run,
and the text that it hands to the channel.

* `TurnEvent`, `Turn`: the log of a turn; `MessageService`: what a turn is configured with.
* `completeProviderForRun`, `completeBufferedProviderForRun`: a provider's reply, in one piece or streamed
  into a buffer.
* `replayText`: a text, handed over in chunks; **`run_replayText`**: the chunks are the text.
* `verifyFinalAnswer`: the output exit, with its verifier and its one revision.
-/

namespace Xiaomaolv

open Emitter

/-! ## The log of a turn -/

inductive AgentRunExit where
  | finalAnswer (text : String)
  | maxIterations (text : String)
  | toolError (text : String)
  | timeout
  | internalError
  deriving DecidableEq, Repr

inductive TurnEvent where
  /-- `AgentRun::start`. -/
  | started
  /-- A provider request, and the output verifier's own. -/
  | asked (request : CompletionRequest)
  | revised (request : CompletionRequest)
  /-- `record_provider_call`. -/
  | framed (request : CompletionRequest) (reply : String)
  /-- `runtime.call_tool`. -/
  | executed (call : ParsedToolCall)
  | recorded (record : ToolCallRecord)
  /-- `verification_retry_used = true`. -/
  | granted
  | finished (exit : AgentRunExit)
  deriving DecidableEq

/-- A turn: the world, its log, and its agent run. -/
structure Turn (ω : Type) where
  world : ω
  events : List TurnEvent := []
  toolCalls : Nat := 0
  maxIterationSeen : Option Nat := none
  runFinished : Bool := false

inductive OutputVerificationMode where
  | off
  | observe
  | block
  | reviseOnce
  deriving DecidableEq, Repr

structure MessageService (ω : Type) where
  provider : ChatProvider ω
  json : SerdeJson
  /-- `McpRuntime::call_tool` within a time. -/
  callTool : ParsedToolCall → Nat → ω → ToolOutcome × ω
  maxIterations : Nat
  maxToolResultChars : Nat
  callTimeoutSecs : Nat
  toolVerifier : Option (ToolCallRecord → VerificationResult)
  toolVerificationMode : ToolVerificationMode
  /-- Whether there is a `DeterministicOutputVerifier`. -/
  outputVerifier : Bool
  outputVerificationMode : OutputVerificationMode
  outputVerificationLlmEnabled : Bool
  outputVerificationMaxPromptChars : Nat
  outputVerificationMaxResultChars : Nat

section Run

variable {ω α : Type}

def log (event : TurnEvent) : Call (Turn ω) Unit := fun t =>
  .done (.ok (), { t with events := t.events ++ [event] })

/-- An operation on the world of a turn. -/
def onTurn (call : Call ω α) : Call (Turn ω) α := fun t =>
  (call t.world).map fun r => (r.1, { t with world := r.2 })

/-- `AgentRun::start`. -/
def startRun : Call (Turn ω) Unit := fun t =>
  .done (.ok (), { world := t.world, events := t.events ++ [.started] })

/-- `AgentRun::finish`. -/
def finishRun (exit : AgentRunExit) : Call (Turn ω) Unit := fun t =>
  .done (.ok (), if t.runFinished then t
    else { t with runFinished := true, events := t.events ++ [.finished exit] })

/-- `AgentRun::observe_iteration`. -/
def observeIteration (iteration : Nat) : Call (Turn ω) Unit := fun t =>
  .done (.ok (), { t with maxIterationSeen := some (max iteration (t.maxIterationSeen.getD 0)) })

/-- `AgentRun::record_tool_call`. -/
def recordToolCall (record : ToolCallRecord) : Call (Turn ω) ToolCallRecord := fun t =>
  let record := { record with callIndex := t.toolCalls }
  .done (.ok record, { t with
    events := t.events ++ [.recorded record]
    toolCalls := min (t.toolCalls + 1) (2 ^ 64 - 1)
    maxIterationSeen := some (max record.iteration (t.maxIterationSeen.getD 0)) })

/-- The call, an error of which finishes the run: `Err(err) => { run.finish(..); return Err(err)… }`. -/
def orFinish (message : String) (call : Call (Turn ω) α) : Call (Turn ω) α := do
  let result ← attempt call
  match result with
  | .ok a => pure a
  | .error _ => do
    finishRun .internalError
    raise (.other message)

theorem emits_attempt {call : Call ω α} {w w' : ω} {items : List String}
    {r : Except Failure (Except ProviderError α)} (h : Op.Emits (attempt call) w items r w') :
    (∃ v, Op.Emits call w items (.ok v) w' ∧ r = .ok (.ok v)) ∨
      (∃ e, Op.Emits call w items (.error (.error e)) w' ∧ r = .ok (.error e)) ∨
      (Op.Emits call w items (.error .panicked) w' ∧ r = .error .panicked) := by
  obtain ⟨l, ⟨(e | _) | v, w₁⟩, l', hcall, hrest, rfl⟩ := Emitter.emits_bind.mp h
  · obtain ⟨rfl, he⟩ := emits_done.mp hrest
    cases he
    rw [List.append_nil]
    exact .inr (.inl ⟨e, hcall, rfl⟩)
  · obtain ⟨rfl, he⟩ := emits_done.mp hrest
    cases he
    rw [List.append_nil]
    exact .inr (.inr ⟨hcall, rfl⟩)
  · obtain ⟨rfl, he⟩ := emits_done.mp hrest
    cases he
    rw [List.append_nil]
    exact .inl ⟨v, hcall, rfl⟩

end Run

/-! ## Sinks -/

/-- `BufferedStreamSink`. -/
def bufferedStreamSink (delta : String) (deltas : List String) :
    Except ProviderError Unit × List String :=
  (.ok (), if delta.isEmpty then deltas else deltas ++ [delta])

/-- The call with its deltas put into a buffer. -/
def buffered {ω α : Type} (call : Call ω α) : Call ω (α × List String) := fun w =>
  let out := run bufferedStreamSink (call w) []
  .done (out.value.1.map fun a => (a, out.state), out.value.2)

/-- `resolve_provider_stream_reply`. -/
def resolveProviderStreamReply (providerReply : String) (deltas : List String) : String :=
  let streamedReply := String.join deltas
  if isBlank streamedReply then providerReply else streamedReply

def streamReplayChunkChars : Nat := 96

/-- The chunks of the characters, after those of the current one. -/
def replayChunks (limit : Nat) : List Char → List Char → List String
  | current, [] => if current.isEmpty then [] else [String.ofList current]
  | current, ch :: chars =>
    let current := current ++ [ch]
    if limit ≤ current.length then String.ofList current :: replayChunks limit [] chars
    else replayChunks limit current chars

def chunkTextForStreamReplay (text : String) (maxChars : Nat) : List String :=
  replayChunks (max maxChars 1) [] text.toList

/-- Hand the chunks over, one after the other. -/
def replayEach {ω : Type} : List String → Call ω Unit
  | [] => pure ()
  | chunk :: chunks => do
    onDelta chunk
    replayEach chunks

/-- `BufferedStreamSink::replay_text`. -/
def replayText {ω : Type} (text : String) : Call ω Unit :=
  replayEach (chunkTextForStreamReplay text streamReplayChunkChars)

/-- A sink that never fails. -/
def NeverFails {σ : Type} (listen : String → σ → Except ProviderError Unit × σ) : Prop :=
  ∀ delta s, ∃ s', listen delta s = (.ok (), s')

theorem join_replayChunks (limit : Nat) (current chars : List Char) :
    String.join (replayChunks limit current chars) = String.ofList (current ++ chars) := by
  induction chars generalizing current with
  | nil =>
    rw [replayChunks, List.append_nil]
    split_ifs with h
    · rw [List.isEmpty_iff.mp h]
      rfl
    · simp [String.join_cons]
  | cons ch chars ih =>
    rw [replayChunks]
    split_ifs with h
    · rw [String.join_cons, ih, ← String.ofList_append]
      simp
    · rw [ih, List.append_assoc]
      rfl

theorem join_chunkTextForStreamReplay (text : String) (maxChars : Nat) :
    String.join (chunkTextForStreamReplay text maxChars) = text := by
  rw [chunkTextForStreamReplay, join_replayChunks, List.nil_append, String.ofList_toList]

section Replay

variable {ω σ : Type} {listen : String → σ → Except ProviderError Unit × σ}

theorem run_replayEach (hlisten : NeverFails listen) (chunks : List String) (w : ω) (s : σ) :
    ∃ s', run listen (replayEach chunks w) s = ⟨(.ok (), w), chunks, s'⟩ := by
  induction chunks generalizing s with
  | nil => exact ⟨s, rfl⟩
  | cons chunk chunks ih =>
    obtain ⟨s₁, hs₁⟩ := hlisten chunk s
    obtain ⟨s₂, hs₂⟩ := ih s₁
    refine ⟨s₂, ?_⟩
    change run listen (.emit chunk _) s = _
    rw [run, hs₁]
    dsimp only [done_bind]
    rw [hs₂]

/-- **A replay hands over the text**, to a sink that never fails. -/
theorem run_replayText (hlisten : NeverFails listen) (text : String) (w : ω) (s : σ) :
    (run listen (replayText text w) s).value = (.ok (), w) ∧
      String.join (run listen (replayText text w) s).accepted = text := by
  obtain ⟨s', hs'⟩ := run_replayEach hlisten (chunkTextForStreamReplay text streamReplayChunkChars) w s
  rw [replayText, hs']
  exact ⟨rfl, join_chunkTextForStreamReplay text streamReplayChunkChars⟩

end Replay

/-! ## Provider calls -/

namespace MessageService

variable {ω : Type} (svc : MessageService ω)

def completeProviderForRun (request : CompletionRequest) : Call (Turn ω) String := do
  log (.asked request)
  let reply ← onTurn (svc.provider.complete request)
  log (.framed request reply)
  pure reply

def completeBufferedProviderForRun (request : CompletionRequest) : Call (Turn ω) String := do
  log (.asked request)
  let (providerReply, deltas) ← onTurn (buffered (svc.provider.completeStream request))
  let resolvedReply := resolveProviderStreamReply providerReply deltas
  log (.framed request resolvedReply)
  pure resolvedReply

end MessageService

/-! ## The output exit -/

structure OutputVerificationResult where
  passed : Bool
  confidence : String
  issues : List VerificationIssue
  suggestedRevision : Option String
  deriving DecidableEq, Repr

def looksLikeUnresolvedToolCall (json : SerdeJson) (answer : String) : Bool :=
  let trimmed := trim answer
  match json.fromStr trimmed with
  | .ok value =>
    (value.get "server").isSome && ((value.get "tool").isSome || (value.get "arguments").isSome)
  | .error _ =>
    contains trimmed "MCP_TOOL_CALL_JSON" || (contains trimmed "\"server\"" &&
      contains trimmed "\"tool\"" && contains trimmed "\"arguments\"")

def mentionsToolFailure (answer : String) : Bool :=
  let lower := toAsciiLowercase answer
  contains lower "tool" && (contains lower "fail" || contains lower "error" ||
    contains lower "unavailable")

/-- The record of a tool call that failed, or whose result was rejected. -/
def ToolCallRecord.failed (call : ToolCallRecord) : Bool :=
  !call.ok || (call.result.get "verification_failed").bind Value.asBool == some true

/-- `DeterministicOutputVerifier::verify`. -/
def verifyOutput (json : SerdeJson) (finalAnswer : String) (toolCalls : List ToolCallRecord)
    (requiredFormat : Option String) : OutputVerificationResult :=
  let answer := trim finalAnswer
  let empty := if answer.isEmpty then [⟨.error, "EMPTY_ANSWER", "Final answer is empty"⟩] else []
  let unresolved :=
    if looksLikeUnresolvedToolCall json answer then
      [⟨.error, "UNRESOLVED_TOOL_CALL", "Final answer appears to expose an unresolved MCP tool call"⟩]
    else []
  let hidden :=
    if toolCalls.any ToolCallRecord.failed && !mentionsToolFailure answer then
      [⟨.error, "HIDDEN_TOOL_ERROR", "Final answer does not disclose a failed tool result"⟩]
    else []
  let mismatch :=
    if requiredFormat = some "json" && !(json.fromStr answer).isOk then
      [⟨.error, "REQUIRED_FORMAT_MISMATCH", "Final answer is not valid JSON"⟩]
    else []
  let issues := empty ++ unresolved ++ hidden ++ mismatch
  if issues.isEmpty then ⟨true, "1.0", issues, none⟩
  else ⟨false, "0.95", issues,
    some "I could not produce a reliable final answer from the available tool results."⟩

/-- `truncate_output_verification_text`. -/
def truncateOutputVerificationText (input : String) (maxChars : Nat) : String :=
  let maxChars := max maxChars 1
  if input.length ≤ maxChars then input else takeChars maxChars input ++ "...(truncated)"

def outputVerificationResultJson (verification : OutputVerificationResult) : Value :=
  .json [("passed", .bool verification.passed), ("confidence", .float verification.confidence),
    ("issues", .array (.ofList (verification.issues.map fun issue =>
      .json [("severity", .string issue.severity.json), ("code", .string issue.code),
        ("message", .string issue.message)]))),
    ("suggested_revision", .ofOption verification.suggestedRevision)]

def outputRevisionPrompt (json : SerdeJson) (verification : OutputVerificationResult)
    (maxChars : Nat) : String :=
  "OUTPUT_VERIFICATION_FAILED_JSON:\n" ++
    truncateOutputVerificationText (json.toString (outputVerificationResultJson verification)) maxChars ++
    "\n\nRevise the previous assistant answer once. Return only the corrected final answer for the user. Do not expose tool-call JSON or verification internals."

/-- The text in place of a rejected one. -/
def OutputVerificationResult.replacement (verification : OutputVerificationResult) : String :=
  verification.suggestedRevision.getD "I could not produce a reliable final answer."

/-- The text of `OutputExit::finalize`, in `verify_final_answer`. -/
def MessageService.verifyFinalAnswer {ω : Type} (svc : MessageService ω) (history : List StoredMessage)
    (finalAnswer : String) (toolCalls : List ToolCallRecord) : Call (Turn ω) String :=
  if ¬ svc.outputVerifier then pure finalAnswer
  else
    let verification := verifyOutput svc.json finalAnswer toolCalls none
    if verification.passed then pure finalAnswer
    else
      match svc.outputVerificationMode with
      | .off | .observe => pure finalAnswer
      | .block => pure verification.replacement
      | .reviseOnce =>
        if ¬ svc.outputVerificationLlmEnabled then pure verification.replacement
        else do
          let request : CompletionRequest := { messages := history ++ [
            ⟨.assistant, truncateOutputVerificationText finalAnswer
              svc.outputVerificationMaxResultChars⟩,
            ⟨.system, outputRevisionPrompt svc.json verification
              svc.outputVerificationMaxPromptChars⟩] }
          log (.revised request)
          let revised ← onTurn (svc.provider.complete request)
          let revised := truncateOutputVerificationText (trim revised)
            svc.outputVerificationMaxResultChars
          let revisedVerification := verifyOutput svc.json revised toolCalls none
          if revisedVerification.passed then pure revised else pure revisedVerification.replacement

end Xiaomaolv
