import Xiaomaolv.Service.Turn

/-!
# The MCP loop

A model that calls tools: its replies are read as calls or as the answer, for a number of iterations.
There are two loops, one for a reply in one piece and one for a streamed reply.

* `completeWithMcpLoop`, `completeWithMcpLoopStream`: the two loops.
* `LoopKind`, `iterations`: one loop with what differs as parameters; **`mcpIterations_eq`**,
  **`mcpIterationsStream_eq`**: the two loops are its instances.
* `Same`, `Agree`: calls with the same effect on the turn; **`agree_iterations`**.
* `Adds`, `Spends`: what a call adds to the log of the turn; **`spends_iterations`**.
* **`mcp_loops_agree`**: the two loops do the same, and keep to their limits.
-/

namespace Xiaomaolv

open Emitter

/-- `build_mcp_system_prompt`. -/
def buildMcpSystemPrompt (json : SerdeJson) (tools : List McpToolInfo) : String :=
  let toolDefs := (tools.take 64).map fun t =>
    Value.json [("server", .string t.server), ("tool", .string t.name),
      ("description", .ofOption t.description), ("input_schema", t.inputSchema)]
  "You can use MCP tools.\nWhen a tool call is needed, reply with ONLY JSON (no markdown, no extra text): \x7b\"server\":\"<server>\",\"tool\":\"<tool>\",\"arguments\":\x7b...\x7d\x7d.\nTime rule: when user asks about current time/date/year/today/now/weekday/zodiac, ALWAYS call \x7b\"server\":\"xiaomaolv_builtin\",\"tool\":\"get_current_time\",\"arguments\":\x7b\x7d\x7d first (or pass timezone).\nAvailable tools: "
    ++ json.toString (.array (.ofList toolDefs)) ++
    "\nIf no tool is needed, reply with the final answer directly."

/-- The message with a tool's result. -/
def toolResultMessage (json : SerdeJson) (messageJson : Value) : StoredMessage :=
  ⟨.system, "MCP_TOOL_RESULT_JSON:\n" ++ json.toString messageJson⟩

def maxIterationsMessage : StoredMessage :=
  ⟨.system, "MCP tool loop reached max iterations. Give a final answer based on available context."⟩

namespace MessageService

variable {ω : Type} (svc : MessageService ω)

/-- The protocol of a turn with these tools. -/
def protocol (tools : List McpToolInfo) : ToolProtocol :=
  (⟨tools, svc.maxToolResultChars, 120⟩ : ToolProtocol).withCallTimeoutSecs svc.callTimeoutSecs

/-- `ToolProtocol::execute_validated`. -/
def executeValidated (protocol : ToolProtocol) (call : ParsedToolCall) (iteration : Nat) :
    Call (Turn ω) ToolExecutionEnvelope := do
  log (.executed call)
  let outcome ← onTurn fun w =>
    let r := svc.callTool call protocol.callTimeoutSecs w
    .done (.ok r.1, r.2)
  pure (protocol.envelope svc.json call iteration outcome)

/-! ## The plain loop -/

/-- The reply after a call that was rejected for good. -/
def blockedReply (history : List StoredMessage) (reply : String) (verification : VerificationResult)
    (toolCalls : List ToolCallRecord) (completionFailed verificationFailed : String) :
    Call (Turn ω) String := do
  let history := history ++
    [⟨.assistant, reply⟩, verificationFeedbackMessage svc.json verification .block]
  let finalReply ← orFinish completionFailed (svc.completeProviderForRun { messages := history })
  let finalReply ← orFinish verificationFailed (svc.verifyFinalAnswer history finalReply toolCalls)
  finishRun (.toolError finalReply)
  pure finalReply

/-- The loop of `complete_with_mcp_loop`, by the iterations that remain, and its end. -/
def mcpIterations (protocol : ToolProtocol) :
    Nat → Nat → List StoredMessage → Bool → List ToolCallRecord → Call (Turn ω) String
  | 0, _, history, _, toolCalls => do
    let history := history ++ [maxIterationsMessage]
    let finalReply ← orFinish "provider completion failed"
      (svc.completeProviderForRun { messages := history })
    let finalReply ← orFinish "output verification failed after max iterations"
      (svc.verifyFinalAnswer history finalReply toolCalls)
    finishRun (.maxIterations finalReply)
    pure finalReply
  | remaining + 1, iteration, history, verificationRetryUsed, toolCalls => do
    let reply ← orFinish "provider completion failed"
      (svc.completeProviderForRun { messages := history })
    observeIteration iteration
    match parseToolCallAttempt svc.json reply with
    | .finalAnswer => do
      let reply ← orFinish "output verification failed"
        (svc.verifyFinalAnswer history reply toolCalls)
      finishRun (.finalAnswer reply)
      pure reply
    | .parseError verification =>
      if verificationRetryUsed then
        svc.blockedReply history reply verification toolCalls
          "provider completion failed after mcp parse error"
          "output verification failed after mcp parse error"
      else do
        log .granted
        mcpIterations protocol remaining (iteration + 1) (history ++
          [⟨.assistant, reply⟩, verificationFeedbackMessage svc.json verification .retry]) true toolCalls
    | .tool toolCall =>
      match protocol.validateCall toolCall with
      | .error verification => do
        let record ← recordToolCall (verificationFailureRecord toolCall verification iteration)
        let toolCalls := toolCalls ++ [record]
        if verificationRetryUsed then
          svc.blockedReply history reply verification toolCalls
            "provider completion failed after mcp tool validation error"
            "output verification failed after mcp tool validation error"
        else do
          log .granted
          mcpIterations protocol remaining (iteration + 1) (history ++
            [⟨.assistant, reply⟩, verificationFeedbackMessage svc.json verification .retry]) true
            toolCalls
      | .ok _ => do
        let envelope ← orFinish "mcp tool execution envelope failed"
          (svc.executeValidated protocol toolCall iteration)
        let verification := svc.toolVerifier.map fun verify => verify envelope.record
        let rejection := verification.filter fun verification => !verification.passed
        let loggedRecord ← recordToolCall
          (rejection.elim envelope.record (annotateRecordWithVerificationFailure envelope.record))
        let toolCalls := toolCalls ++ [loggedRecord]
        let proceed := mcpIterations protocol remaining (iteration + 1) (history ++
          [⟨.assistant, reply⟩, toolResultMessage svc.json envelope.messageJson])
          verificationRetryUsed toolCalls
        match rejection with
        | none => proceed
        | some verification =>
          if svc.toolVerificationMode = .observe then proceed
          else if svc.toolVerificationMode = .retry ∧ ¬ verificationRetryUsed then do
            log .granted
            mcpIterations protocol remaining (iteration + 1) (history ++
              [⟨.assistant, reply⟩, verificationFeedbackMessage svc.json verification .retry]) true
              toolCalls
          else
            svc.blockedReply history reply verification toolCalls
              "provider completion failed after tool verification block"
              "output verification failed after tool verification block"

def completeWithMcpLoop (history : List StoredMessage) (tools : List McpToolInfo) :
    Call (Turn ω) String := do
  let mcpPrompt := buildMcpSystemPrompt svc.json tools
  startRun
  svc.mcpIterations (svc.protocol tools) (max svc.maxIterations 1) 0
    (history ++ [⟨.system, mcpPrompt⟩]) false []

/-! ## The streaming loop -/

/-- `replay_text_or_finish_internal_error`. -/
def replayTextOrFinishInternalError (text : String) : Call (Turn ω) Unit := do
  let result ← attempt (replayText text)
  match result with
  | .ok _ => pure ()
  | .error err => do
    finishRun .internalError
    raise err

/-- The reply after a call that was rejected for good, streamed. -/
def blockedReplyStream (history : List StoredMessage) (resolvedReply : String)
    (verification : VerificationResult) (toolCalls : List ToolCallRecord)
    (completionFailed verificationFailed : String) : Call (Turn ω) String := do
  let history := history ++
    [⟨.assistant, resolvedReply⟩, verificationFeedbackMessage svc.json verification .block]
  let resolvedFinal ← orFinish completionFailed
    (svc.completeBufferedProviderForRun { messages := history })
  let resolvedFinal ← orFinish verificationFailed
    (svc.verifyFinalAnswer history resolvedFinal toolCalls)
  replayTextOrFinishInternalError resolvedFinal
  finishRun (.toolError resolvedFinal)
  pure resolvedFinal

/-- The loop of `complete_with_mcp_loop_stream`, by the iterations that remain, and its end. -/
def mcpIterationsStream (protocol : ToolProtocol) :
    Nat → Nat → List StoredMessage → Bool → List ToolCallRecord → Call (Turn ω) String
  | 0, _, history, _, toolCalls => do
    let history := history ++ [maxIterationsMessage]
    let resolvedReply ← orFinish "provider stream completion failed"
      (svc.completeBufferedProviderForRun { messages := history })
    let resolvedReply ← orFinish "output verification failed after max iterations"
      (svc.verifyFinalAnswer history resolvedReply toolCalls)
    replayTextOrFinishInternalError resolvedReply
    finishRun (.maxIterations resolvedReply)
    pure resolvedReply
  | remaining + 1, iteration, history, verificationRetryUsed, toolCalls => do
    let resolvedReply ← orFinish "provider stream completion failed"
      (svc.completeBufferedProviderForRun { messages := history })
    observeIteration iteration
    match parseToolCallAttempt svc.json resolvedReply with
    | .finalAnswer => do
      let resolvedReply ← orFinish "output verification failed"
        (svc.verifyFinalAnswer history resolvedReply toolCalls)
      replayTextOrFinishInternalError resolvedReply
      finishRun (.finalAnswer resolvedReply)
      pure resolvedReply
    | .parseError verification =>
      if verificationRetryUsed then
        svc.blockedReplyStream history resolvedReply verification toolCalls
          "provider stream completion failed after mcp parse error"
          "output verification failed after mcp parse error"
      else do
        log .granted
        mcpIterationsStream protocol remaining (iteration + 1) (history ++
          [⟨.assistant, resolvedReply⟩, verificationFeedbackMessage svc.json verification .retry]) true
          toolCalls
    | .tool toolCall =>
      match protocol.validateCall toolCall with
      | .error verification => do
        let record ← recordToolCall (verificationFailureRecord toolCall verification iteration)
        let toolCalls := toolCalls ++ [record]
        if verificationRetryUsed then
          svc.blockedReplyStream history resolvedReply verification toolCalls
            "provider stream completion failed after mcp tool validation error"
            "output verification failed after mcp tool validation error"
        else do
          log .granted
          mcpIterationsStream protocol remaining (iteration + 1) (history ++
            [⟨.assistant, resolvedReply⟩, verificationFeedbackMessage svc.json verification .retry])
            true toolCalls
      | .ok _ => do
        let envelope ← orFinish "mcp tool execution envelope failed"
          (svc.executeValidated protocol toolCall iteration)
        let verification := svc.toolVerifier.map fun verify => verify envelope.record
        let rejection := verification.filter fun verification => !verification.passed
        let loggedRecord ← recordToolCall
          (rejection.elim envelope.record (annotateRecordWithVerificationFailure envelope.record))
        let toolCalls := toolCalls ++ [loggedRecord]
        let proceed := mcpIterationsStream protocol remaining (iteration + 1) (history ++
          [⟨.assistant, resolvedReply⟩, toolResultMessage svc.json envelope.messageJson])
          verificationRetryUsed toolCalls
        match rejection with
        | none => proceed
        | some verification =>
          if svc.toolVerificationMode = .observe then proceed
          else if svc.toolVerificationMode = .retry ∧ ¬ verificationRetryUsed then do
            log .granted
            mcpIterationsStream protocol remaining (iteration + 1) (history ++
              [⟨.assistant, resolvedReply⟩, verificationFeedbackMessage svc.json verification .retry])
              true toolCalls
          else
            svc.blockedReplyStream history resolvedReply verification toolCalls
              "provider stream completion failed after tool verification block"
              "output verification failed after tool verification block"

def completeWithMcpLoopStream (history : List StoredMessage) (tools : List McpToolInfo) :
    Call (Turn ω) String := do
  let mcpPrompt := buildMcpSystemPrompt svc.json tools
  startRun
  svc.mcpIterationsStream (svc.protocol tools) (max svc.maxIterations 1) 0
    (history ++ [⟨.system, mcpPrompt⟩]) false []

/-! ## One loop for both -/

/-- What differs between the two loops: how a reply is asked for and handed over, and what an error of
the provider is called. -/
structure LoopKind (ω : Type) where
  ask : CompletionRequest → Call (Turn ω) String
  deliver : String → Call (Turn ω) Unit
  completionFailed : String

/-- The plain loop: nothing is handed over. -/
def plainKind : LoopKind ω where
  ask := svc.completeProviderForRun
  deliver _ := pure ()
  completionFailed := "provider completion failed"

def streamKind : LoopKind ω where
  ask := svc.completeBufferedProviderForRun
  deliver := replayTextOrFinishInternalError
  completionFailed := "provider stream completion failed"

section Kind

variable (kind : LoopKind ω)

/-- Hand the text over and finish the run with it. -/
def conclude (exit : String → AgentRunExit) (text : String) : Call (Turn ω) String := do
  kind.deliver text
  finishRun (exit text)
  pure text

/-- Ask for a reply and conclude the turn with it. -/
def lastReply (exit : String → AgentRunExit) (history : List StoredMessage)
    (toolCalls : List ToolCallRecord) (circumstances : String) (verificationFailed : String) :
    Call (Turn ω) String := do
  let reply ← orFinish (kind.completionFailed ++ circumstances) (kind.ask { messages := history })
  let reply ← orFinish verificationFailed (svc.verifyFinalAnswer history reply toolCalls)
  conclude kind exit reply

/-- What follows a rejected call: the one retry, or the last reply. -/
def rejected (history : List StoredMessage) (reply : String) (verification : VerificationResult)
    (toolCalls : List ToolCallRecord) (retry : Bool) (circumstances : String)
    (next : List StoredMessage → Call (Turn ω) String) : Call (Turn ω) String :=
  if retry then do
    log .granted
    next (history ++ [⟨.assistant, reply⟩, verificationFeedbackMessage svc.json verification .retry])
  else
    svc.lastReply kind .toolError
      (history ++ [⟨.assistant, reply⟩, verificationFeedbackMessage svc.json verification .block])
      toolCalls circumstances ("output verification failed" ++ circumstances)

/-- The loop of either kind. -/
def iterations (protocol : ToolProtocol) :
    Nat → Nat → List StoredMessage → Bool → List ToolCallRecord → Call (Turn ω) String
  | 0, _, history, _, toolCalls =>
    svc.lastReply kind .maxIterations (history ++ [maxIterationsMessage]) toolCalls ""
      "output verification failed after max iterations"
  | remaining + 1, iteration, history, verificationRetryUsed, toolCalls => do
    let reply ← orFinish kind.completionFailed (kind.ask { messages := history })
    observeIteration iteration
    match parseToolCallAttempt svc.json reply with
    | .finalAnswer => do
      let reply ← orFinish "output verification failed"
        (svc.verifyFinalAnswer history reply toolCalls)
      conclude kind .finalAnswer reply
    | .parseError verification =>
      svc.rejected kind history reply verification toolCalls (!verificationRetryUsed)
        " after mcp parse error"
        fun history => iterations protocol remaining (iteration + 1) history true toolCalls
    | .tool toolCall =>
      match protocol.validateCall toolCall with
      | .error verification => do
        let record ← recordToolCall (verificationFailureRecord toolCall verification iteration)
        svc.rejected kind history reply verification (toolCalls ++ [record]) (!verificationRetryUsed)
          " after mcp tool validation error" fun history =>
            iterations protocol remaining (iteration + 1) history true (toolCalls ++ [record])
      | .ok _ => do
        let envelope ← orFinish "mcp tool execution envelope failed"
          (svc.executeValidated protocol toolCall iteration)
        let rejection := (svc.toolVerifier.map fun verify => verify envelope.record).filter
          fun verification => !verification.passed
        let record ← recordToolCall
          (rejection.elim envelope.record (annotateRecordWithVerificationFailure envelope.record))
        let proceed := iterations protocol remaining (iteration + 1) (history ++
          [⟨.assistant, reply⟩, toolResultMessage svc.json envelope.messageJson])
          verificationRetryUsed (toolCalls ++ [record])
        match rejection with
        | none => proceed
        | some verification =>
          if svc.toolVerificationMode = .observe then proceed
          else
            svc.rejected kind history reply verification (toolCalls ++ [record])
              (svc.toolVerificationMode = .retry ∧ ¬ verificationRetryUsed)
              " after tool verification block" fun history =>
                iterations protocol remaining (iteration + 1) history true (toolCalls ++ [record])

end Kind

/-! ## The two loops are of these kinds -/

variable (protocol : ToolProtocol)

/-- **The plain loop is the loop of the plain kind.** -/
theorem mcpIterations_eq (remaining iteration : Nat) (history : List StoredMessage) (retryUsed : Bool)
    (toolCalls : List ToolCallRecord) :
    svc.mcpIterations protocol remaining iteration history retryUsed toolCalls
      = svc.iterations svc.plainKind protocol remaining iteration history retryUsed toolCalls := by
  induction remaining generalizing iteration history retryUsed toolCalls with
  | zero => rfl
  | succ remaining ih =>
    rw [mcpIterations, iterations]
    refine bind_congr fun reply => bind_congr fun _ => ?_
    simp only [ih]
    cases parseToolCallAttempt svc.json reply with
    | finalAnswer => rfl
    | parseError verification => cases retryUsed <;> rfl
    | tool toolCall =>
      dsimp only
      cases protocol.validateCall toolCall with
      | error verification =>
        refine bind_congr fun record => ?_
        cases retryUsed <;> rfl
      | ok tool =>
        refine bind_congr fun envelope => bind_congr fun record => ?_
        cases (svc.toolVerifier.map fun verify => verify envelope.record).filter
            fun verification => !verification.passed with
        | none => rfl
        | some verification =>
          dsimp only
          split_ifs with hobserve hretry
          · rfl
          · simp [rejected, hretry]
          · simp only [rejected, hretry]
            rfl

/-- **The streaming loop is the loop of the streaming kind.** -/
theorem mcpIterationsStream_eq (remaining iteration : Nat) (history : List StoredMessage) (retryUsed : Bool)
    (toolCalls : List ToolCallRecord) :
    svc.mcpIterationsStream protocol remaining iteration history retryUsed toolCalls
      = svc.iterations svc.streamKind protocol remaining iteration history retryUsed toolCalls := by
  induction remaining generalizing iteration history retryUsed toolCalls with
  | zero => rfl
  | succ remaining ih =>
    rw [mcpIterationsStream, iterations]
    refine bind_congr fun reply => bind_congr fun _ => ?_
    simp only [ih]
    cases parseToolCallAttempt svc.json reply with
    | finalAnswer => rfl
    | parseError verification => cases retryUsed <;> rfl
    | tool toolCall =>
      dsimp only
      cases protocol.validateCall toolCall with
      | error verification =>
        refine bind_congr fun record => ?_
        cases retryUsed <;> rfl
      | ok tool =>
        refine bind_congr fun envelope => bind_congr fun record => ?_
        cases (svc.toolVerifier.map fun verify => verify envelope.record).filter
            fun verification => !verification.passed with
        | none => rfl
        | some verification =>
          dsimp only
          split_ifs with hobserve hretry
          · rfl
          · simp [rejected, hretry]
          · simp only [rejected, hretry]
            rfl

end MessageService

/-! ## Calls with the same effect -/

/-- Two outcomes that are alike: the same value, or two errors, or two panics. -/
inductive Alike {α : Type} : Except Failure α → Except Failure α → Prop
  | ok (a : α) : Alike (.ok a) (.ok a)
  | error (e e' : ProviderError) : Alike (.error (.error e)) (.error (.error e'))
  | panicked : Alike (.error .panicked) (.error .panicked)

theorem Alike.refl {α : Type} (r : Except Failure α) : Alike r r := by
  rcases r with (e | _) | a
  · exact .error e e
  · exact .panicked
  · exact .ok a

theorem Alike.toOption_eq {α : Type} {r r' : Except Failure α} (h : Alike r r') :
    r.toOption = r'.toOption := by
  cases h <;> rfl

/-- Both calls emit nothing, take the world to the same place and end alike. -/
def Same {ω α : Type} (x y : Call ω α) : Prop :=
  ∀ w, ∃ r r' w', x w = .done (r, w') ∧ y w = .done (r', w') ∧ Alike r r'

/-- The first call emits nothing; the second, to a sink that never fails, does the same and hands over the
text that it replies. -/
def Agree {ω : Type} (x y : Call ω String) : Prop :=
  ∀ w, ∃ r w', x w = .done (r, w') ∧
    ∀ (σ : Type) (listen : String → σ → Except ProviderError Unit × σ), NeverFails listen → ∀ s,
      ∃ r', (run listen (y w) s).value = (r', w') ∧ Alike r r' ∧
        String.join (run listen (y w) s).accepted = r.toOption.getD ""

section Same

variable {ω α β : Type}

theorem Same.of_done {x : Call ω α} (h : ∀ w, ∃ r, x w = .done r) : Same x x := by
  intro w
  obtain ⟨⟨r, w'⟩, hr⟩ := h w
  exact ⟨r, r, w', hr, hr, .refl r⟩

theorem Same.pure (a : α) : Same (pure a : Call ω α) (pure a) := Same.of_done fun _ => ⟨_, rfl⟩

theorem Same.ite {c : Prop} [Decidable c] {x x' y y' : Call ω α} (hx : Same x x') (hy : Same y y') :
    Same (if c then x else y) (if c then x' else y') := by
  by_cases h : c
  · rw [if_pos h, if_pos h]
    exact hx
  · rw [if_neg h, if_neg h]
    exact hy

theorem Same.bind {x y : Call ω α} {f g : α → Call ω β} (h : Same x y) (hf : ∀ a, Same (f a) (g a)) :
    Same (x >>= f) (y >>= g) := by
  intro w
  obtain ⟨r, r', w', hx, hy, hr⟩ := h w
  cases hr with
  | ok a =>
    obtain ⟨q, q', w'', hfa, hga, hq⟩ := hf a w'
    exact ⟨q, q', w'', (Op.bind_done_ok hx).trans hfa, (Op.bind_done_ok hy).trans hga, hq⟩
  | error e e' =>
    exact ⟨_, _, w', Op.bind_done_error hx, Op.bind_done_error hy, .error e e'⟩
  | panicked => exact ⟨_, _, w', Op.bind_done_error hx, Op.bind_done_error hy, .panicked⟩

theorem Same.agree {x y : Call ω α} {f g : α → Call ω String} (h : Same x y)
    (hf : ∀ a, Agree (f a) (g a)) : Agree (x >>= f) (y >>= g) := by
  intro w
  obtain ⟨r, r', w', hx, hy, hr⟩ := h w
  cases hr with
  | ok a =>
    obtain ⟨q, w'', hfa, hga⟩ := hf a w'
    refine ⟨q, w'', (Op.bind_done_ok hx).trans hfa, ?_⟩
    rw [Op.bind_done_ok hy]
    exact hga
  | error e e' =>
    refine ⟨_, w', Op.bind_done_error hx, ?_⟩
    rw [Op.bind_done_error hy]
    exact fun σ listen _ s => ⟨_, rfl, .error e e', rfl⟩
  | panicked =>
    refine ⟨_, w', Op.bind_done_error hx, ?_⟩
    rw [Op.bind_done_error hy]
    exact fun σ listen _ s => ⟨_, rfl, .panicked, rfl⟩

theorem Same.attempt {x y : Call ω α} (h : Same x y) :
    ∀ w, ∃ r r' w', attempt x w = .done (r, w') ∧ attempt y w = .done (r', w') ∧
      (r = .error .panicked ∧ r' = .error .panicked ∨ (∃ a, r = .ok (.ok a) ∧ r' = .ok (.ok a)) ∨
        ∃ e e', r = .ok (.error e) ∧ r' = .ok (.error e')) := by
  intro w
  obtain ⟨r, r', w', hx, hy, hr⟩ := h w
  unfold Xiaomaolv.attempt
  rw [hx, hy]
  cases hr with
  | ok a => exact ⟨_, _, w', rfl, rfl, .inr (.inl ⟨a, rfl, rfl⟩)⟩
  | error e e' => exact ⟨_, _, w', rfl, rfl, .inr (.inr ⟨e, e', rfl, rfl⟩)⟩
  | panicked => exact ⟨_, _, w', rfl, rfl, .inl ⟨rfl, rfl⟩⟩

theorem same_log (event : TurnEvent) : Same (log event : Call (Turn ω) Unit) (log event) :=
  Same.of_done fun _ => ⟨_, rfl⟩

theorem same_observeIteration (iteration : Nat) :
    Same (observeIteration iteration : Call (Turn ω) Unit) (observeIteration iteration) :=
  Same.of_done fun _ => ⟨_, rfl⟩

theorem same_recordToolCall (record : ToolCallRecord) :
    Same (recordToolCall record : Call (Turn ω) ToolCallRecord) (recordToolCall record) :=
  Same.of_done fun _ => ⟨_, rfl⟩

theorem Same.onTurn {x y : Call ω α} (h : Same x y) : Same (onTurn x) (onTurn y) := by
  intro t
  obtain ⟨r, r', w', hx, hy, hr⟩ := h t.world
  refine ⟨r, r', { t with world := w' }, ?_, ?_, hr⟩
  · rw [Xiaomaolv.onTurn, hx]
    rfl
  · rw [Xiaomaolv.onTurn, hy]
    rfl

theorem onTurn_bind (x : Call ω α) (f : α → Call ω β) :
    onTurn (x >>= f) = onTurn x >>= fun a => onTurn (f a) := by
  funext t
  change ((x t.world).bind _).map _ = ((x t.world).map _).bind _
  rw [map_bind, bind_map]
  congr 1
  funext ⟨r, w'⟩
  cases r <;> rfl

theorem Same.orFinish {message message' : String} {x y : Call (Turn ω) α} (h : Same x y) :
    Same (orFinish message x) (orFinish message' y) := by
  intro t
  obtain ⟨r, r', t', hx, hy, ⟨rfl, rfl⟩ | ⟨a, rfl, rfl⟩ | ⟨e, e', rfl, rfl⟩⟩ := h.attempt t
  · exact ⟨_, _, t', Op.bind_done_error hx, Op.bind_done_error hy, .panicked⟩
  · exact ⟨_, _, t', Op.bind_done_ok hx, Op.bind_done_ok hy, .ok a⟩
  · exact ⟨_, _, _, Op.bind_done_ok hx, Op.bind_done_ok hy, .error _ _⟩

end Same

/-! ## The two loops agree -/

/-- A streamed reply, from the buffer, is the reply in one piece. -/
def StreamsAlike {ω : Type} (provider : ChatProvider ω) : Prop :=
  ∀ req, Same (provider.complete req) (do
    let (reply, deltas) ← buffered (provider.completeStream req)
    pure (resolveProviderStreamReply reply deltas))

namespace MessageService

variable {ω : Type} {svc : MessageService ω}

theorem completeBuffered_eq (request : CompletionRequest) :
    svc.completeBufferedProviderForRun request = log (.asked request) >>= fun _ =>
      onTurn (do
        let (reply, deltas) ← buffered (svc.provider.completeStream request)
        pure (resolveProviderStreamReply reply deltas)) >>= fun reply =>
      log (.framed request reply) >>= fun _ => pure reply := by
  refine bind_congr fun _ => ?_
  rw [onTurn_bind, Op.bind_assoc]
  exact bind_congr fun _ => rfl

theorem same_ask (h : StreamsAlike svc.provider) (request : CompletionRequest) :
    Same (svc.completeProviderForRun request) (svc.completeBufferedProviderForRun request) := by
  rw [completeBuffered_eq]
  exact (same_log _).bind fun _ => (h request).onTurn.bind fun reply =>
    (same_log _).bind fun _ => .pure reply

theorem same_complete (h : StreamsAlike svc.provider) (request : CompletionRequest) :
    Same (svc.provider.complete request) (svc.provider.complete request) := by
  intro w
  obtain ⟨r, r', w', hx, hy, hr⟩ := h request w
  exact ⟨r, r, w', hx, hx, .refl r⟩

theorem same_verifyFinalAnswer (h : StreamsAlike svc.provider) (history : List StoredMessage)
    (finalAnswer : String) (toolCalls : List ToolCallRecord) :
    Same (svc.verifyFinalAnswer history finalAnswer toolCalls)
      (svc.verifyFinalAnswer history finalAnswer toolCalls) := by
  unfold verifyFinalAnswer
  refine Same.ite (.pure _) (Same.ite (.pure _) ?_)
  cases svc.outputVerificationMode with
  | off => exact .pure _
  | observe => exact .pure _
  | block => exact .pure _
  | reviseOnce =>
    refine Same.ite (.pure _) ?_
    refine (same_log _).bind fun _ => (same_complete h _).onTurn.bind fun revised => ?_
    exact Same.ite (.pure _) (.pure _)

theorem same_executeValidated (protocol : ToolProtocol) (call : ParsedToolCall) (iteration : Nat) :
    Same (svc.executeValidated protocol call iteration)
      (svc.executeValidated protocol call iteration) :=
  Same.of_done fun _ => ⟨_, rfl⟩

theorem run_replayTextOrFinish {σ : Type} {listen : String → σ → Except ProviderError Unit × σ}
    (hlisten : NeverFails listen) (text : String) (t : Turn ω) (s : σ) :
    (run listen (replayTextOrFinishInternalError text t) s).value = (.ok (), t) ∧
      String.join (run listen (replayTextOrFinishInternalError text t) s).accepted = text := by
  obtain ⟨hvalue, haccepted⟩ := run_replayText hlisten text t s
  have hattempt : (run listen (attempt (replayText text) t) s).value = (.ok (.ok ()), t) ∧
      (run listen (attempt (replayText text) t) s).accepted
        = (run listen (replayText text t) s).accepted := by
    unfold attempt
    rw [run_bind]
    dsimp only
    rw [hvalue]
    exact ⟨rfl, List.append_nil _⟩
  unfold replayTextOrFinishInternalError
  rw [Op.run_bind_ok hattempt.1]
  refine ⟨rfl, ?_⟩
  rw [hattempt.2]
  exact (congrArg String.join (List.append_nil _)).trans haccepted

theorem agree_conclude (exit : String → AgentRunExit) (text : String) :
    Agree (conclude svc.plainKind exit text) (conclude svc.streamKind exit text) := by
  intro t
  refine ⟨.ok text, _, rfl, fun σ listen hlisten s => ⟨.ok text, ?_⟩⟩
  obtain ⟨hvalue, haccepted⟩ : (run listen (svc.streamKind.deliver text t) s).value = (.ok (), t) ∧
      String.join (run listen (svc.streamKind.deliver text t) s).accepted = text :=
    run_replayTextOrFinish hlisten text t s
  unfold conclude
  rw [Op.run_bind_ok hvalue]
  exact ⟨rfl, .ok text, (congrArg String.join (List.append_nil _)).trans haccepted⟩

theorem agree_lastReply (h : StreamsAlike svc.provider) (exit : String → AgentRunExit)
    (history : List StoredMessage) (toolCalls : List ToolCallRecord)
    (circumstances verificationFailed : String) :
    Agree (svc.lastReply svc.plainKind exit history toolCalls circumstances verificationFailed)
      (svc.lastReply svc.streamKind exit history toolCalls circumstances verificationFailed) :=
  (same_ask h _).orFinish.agree fun reply =>
    (same_verifyFinalAnswer h history reply toolCalls).orFinish.agree fun reply =>
      agree_conclude exit reply

theorem agree_rejected (h : StreamsAlike svc.provider) (history : List StoredMessage) (reply : String)
    (verification : VerificationResult) (toolCalls : List ToolCallRecord) (retry : Bool)
    (circumstances : String) {next next' : List StoredMessage → Call (Turn ω) String}
    (hnext : ∀ history, Agree (next history) (next' history)) :
    Agree (svc.rejected svc.plainKind history reply verification toolCalls retry circumstances next)
      (svc.rejected svc.streamKind history reply verification toolCalls retry circumstances next') := by
  unfold rejected
  split_ifs
  · exact (same_log _).agree fun _ => hnext _
  · exact agree_lastReply h _ _ _ _ _

/-- **The loops of both kinds agree.** -/
theorem agree_iterations (h : StreamsAlike svc.provider) (protocol : ToolProtocol)
    (remaining iteration : Nat) (history : List StoredMessage) (retryUsed : Bool)
    (toolCalls : List ToolCallRecord) :
    Agree (svc.iterations svc.plainKind protocol remaining iteration history retryUsed toolCalls)
      (svc.iterations svc.streamKind protocol remaining iteration history retryUsed toolCalls) := by
  induction remaining generalizing iteration history retryUsed toolCalls with
  | zero => exact agree_lastReply h _ _ _ _ _
  | succ remaining ih =>
    rw [iterations, iterations]
    refine (same_ask h _).orFinish.agree fun reply => (same_observeIteration _).agree fun _ => ?_
    cases parseToolCallAttempt svc.json reply with
    | finalAnswer =>
      exact (same_verifyFinalAnswer h history reply toolCalls).orFinish.agree fun reply =>
        agree_conclude _ reply
    | parseError verification => exact agree_rejected h _ _ _ _ _ _ fun _ => ih _ _ _ _
    | tool toolCall =>
      dsimp only
      cases protocol.validateCall toolCall with
      | error verification =>
        exact (same_recordToolCall _).agree fun record =>
          agree_rejected h _ _ _ _ _ _ fun _ => ih _ _ _ _
      | ok tool =>
        refine (same_executeValidated protocol toolCall iteration).orFinish.agree fun envelope => ?_
        refine (same_recordToolCall _).agree fun record => ?_
        cases (svc.toolVerifier.map fun verify => verify envelope.record).filter
            fun verification => !verification.passed with
        | none => exact ih _ _ _ _
        | some verification =>
          dsimp only
          split_ifs
          · exact ih _ _ _ _
          · exact agree_rejected h _ _ _ _ _ _ fun _ => ih _ _ _ _

end MessageService

/-! ## What a turn spends -/

def TurnEvent.isAsked : TurnEvent → Bool
  | .asked _ => true
  | _ => false

def TurnEvent.isFinished : TurnEvent → Bool
  | .finished _ => true
  | _ => false

/-- The events ask the provider and grant a retry so many times at most, finish a run so many times, and
execute valid calls only. -/
structure Costs (valid : ParsedToolCall → Prop) (l : List TurnEvent) (asks grants finishes : Nat) :
    Prop where
  asks : l.countP TurnEvent.isAsked ≤ asks
  grants : l.count .granted ≤ grants
  validated : ∀ call, .executed call ∈ l → valid call
  finishes : l.countP TurnEvent.isFinished = finishes

section Costs

variable {valid : ParsedToolCall → Prop} {l l' : List TurnEvent} {a b g k f f' : Nat}

theorem Costs.nil : Costs valid [] 0 0 0 := ⟨Nat.le_refl 0, Nat.le_refl 0, nofun, rfl⟩

theorem Costs.append (h : Costs valid l a g f) (h' : Costs valid l' b k f') :
    Costs valid (l ++ l') (a + b) (g + k) (f + f') where
  asks := by
    rw [List.countP_append]
    exact Nat.add_le_add h.asks h'.asks
  grants := by
    rw [List.count_append]
    exact Nat.add_le_add h.grants h'.grants
  validated call hcall := by
    rcases List.mem_append.mp hcall with hcall | hcall
    · exact h.validated call hcall
    · exact h'.validated call hcall
  finishes := by rw [List.countP_append, h.finishes, h'.finishes]

theorem Costs.mono (h : Costs valid l a g f) (ha : a ≤ b) (hg : g ≤ k) : Costs valid l b k f :=
  ⟨Nat.le_trans h.asks ha, Nat.le_trans h.grants hg, h.validated, h.finishes⟩

theorem Costs.free {event : TurnEvent} (hasked : event.isAsked = false) (hgranted : event ≠ .granted)
    (hexecuted : ∀ call, event ≠ .executed call) (hfinished : event.isFinished = false) :
    Costs valid [event] 0 0 0 where
  asks := by simp [hasked]
  grants := by simp [hgranted]
  validated call hcall := absurd (List.mem_singleton.mp hcall).symm (hexecuted call)
  finishes := by simp [hfinished]

end Costs

section Spends

variable {ω α β : Type} {valid : ParsedToolCall → Prop} {a b g k : Nat} {ends : Bool}

/-- The call adds events within the costs, and leaves the run open or closed as it was. -/
def Adds (valid : ParsedToolCall → Prop) (x : Call (Turn ω) α) (asks grants : Nat) : Prop :=
  ∀ t items r t', Op.Emits x t items r t' → ∃ l, t'.events = t.events ++ l ∧
    t'.runFinished = t.runFinished ∧ Costs valid l asks grants 0

/-- How often a call finishes the run: at the end of the turn, and with an error, but not in a panic. -/
def finishesOf (ends : Bool) : Except Failure α → Nat
  | .ok _ => if ends then 1 else 0
  | .error (.error _) => 1
  | .error .panicked => 0

/-- The call of an open run adds events within the costs, and finishes the run with an error; `ends`, if
it finishes the run with a value too. -/
def Spends (valid : ParsedToolCall → Prop) (x : Call (Turn ω) α) (asks grants : Nat) (ends : Bool) :
    Prop :=
  ∀ t items r t', t.runFinished = false → Op.Emits x t items r t' → ∃ l, t'.events = t.events ++ l ∧
    (∀ v, r = .ok v → t'.runFinished = ends) ∧ Costs valid l asks grants (finishesOf ends r)

theorem Spends.mono {x : Call (Turn ω) α} (h : Spends valid x a g ends) (ha : a ≤ b) (hg : g ≤ k) :
    Spends valid x b k ends := by
  intro t items r t' ht hx
  obtain ⟨l, hl, hopen, hcosts⟩ := h t items r t' ht hx
  exact ⟨l, hl, hopen, hcosts.mono ha hg⟩

theorem Adds.bind {x : Call (Turn ω) α} {f : α → Call (Turn ω) β} (h : Adds valid x a g)
    (hf : ∀ v, Adds valid (f v) b k) : Adds valid (x >>= f) (a + b) (g + k) := by
  intro t items r t' hx
  rcases Op.emits_bind.mp hx with ⟨i, v, t₁, i', hfirst, hrest, rfl⟩ | ⟨e, hfirst, rfl⟩
  · obtain ⟨l, hl, hopen, hcosts⟩ := h _ _ _ _ hfirst
    obtain ⟨l', hl', hopen', hcosts'⟩ := hf v _ _ _ _ hrest
    refine ⟨l ++ l', ?_, hopen'.trans hopen, hcosts.append hcosts'⟩
    rw [hl', hl, List.append_assoc]
  · obtain ⟨l, hl, hopen, hcosts⟩ := h _ _ _ _ hfirst
    exact ⟨l, hl, hopen, hcosts.mono (Nat.le_add_right _ _) (Nat.le_add_right _ _)⟩

theorem adds_pure (v : α) : Adds valid (pure v : Call (Turn ω) α) 0 0 := by
  intro t items r t' h
  obtain ⟨-, -, rfl⟩ := Op.emits_pure.mp h
  exact ⟨[], (List.append_nil _).symm, rfl, .nil⟩

theorem Adds.ite {c : Prop} [Decidable c] {x y : Call (Turn ω) α} (hx : Adds valid x a g)
    (hy : Adds valid y a g) : Adds valid (if c then x else y) a g := by
  by_cases h : c
  · rw [if_pos h]
    exact hx
  · rw [if_neg h]
    exact hy

theorem adds_log {event : TurnEvent} (h : Costs valid [event] a g 0) :
    Adds valid (log event : Call (Turn ω) Unit) a g := by
  intro t items r t' hx
  cases (emits_done.mp hx).2
  exact ⟨[event], rfl, rfl, h⟩

theorem adds_onTurn (call : Call ω α) : Adds valid (onTurn call) 0 0 := by
  intro t items r t' hx
  obtain ⟨q, -, hq⟩ := emits_map.mp hx
  cases hq
  exact ⟨[], (List.append_nil _).symm, rfl, .nil⟩

theorem adds_onDelta (delta : String) : Adds valid (onDelta delta : Call (Turn ω) Unit) 0 0 := by
  intro t items r t' hx
  rcases hx with _ | hx | ⟨e, hx⟩
  · cases (emits_done.mp hx).2
    exact ⟨[], (List.append_nil _).symm, rfl, .nil⟩
  · cases (emits_done.mp hx).2
    exact ⟨[], (List.append_nil _).symm, rfl, .nil⟩

theorem adds_observeIteration (iteration : Nat) :
    Adds valid (observeIteration iteration : Call (Turn ω) Unit) 0 0 := by
  intro t items r t' hx
  cases (emits_done.mp hx).2
  exact ⟨[], (List.append_nil _).symm, rfl, .nil⟩

theorem adds_replayEach (chunks : List String) :
    Adds valid (replayEach chunks : Call (Turn ω) Unit) 0 0 := by
  induction chunks with
  | nil => exact adds_pure ()
  | cons chunk chunks ih => exact (adds_onDelta chunk).bind fun _ => ih

theorem adds_recordToolCall (record : ToolCallRecord) :
    Adds valid (recordToolCall record : Call (Turn ω) ToolCallRecord) 0 0 := by
  intro t items r t' hx
  cases (emits_done.mp hx).2
  exact ⟨[.recorded _], rfl, rfl, .free rfl nofun nofun rfl⟩

theorem Adds.spends {x : Call (Turn ω) α} (h : Adds valid x a g)
    (hok : ∀ t items r t', Op.Emits x t items r t' → ∃ v, r = .ok v) : Spends valid x a g false := by
  intro t items r t' ht hx
  obtain ⟨l, hl, hopen, hcosts⟩ := h t items r t' hx
  obtain ⟨v, rfl⟩ := hok t items r t' hx
  exact ⟨l, hl, fun _ _ => hopen.trans ht, hcosts⟩

theorem Spends.bind {x : Call (Turn ω) α} {f : α → Call (Turn ω) β} (h : Spends valid x a g false)
    (hf : ∀ v, Spends valid (f v) b k ends) : Spends valid (x >>= f) (a + b) (g + k) ends := by
  intro t items r t' ht hx
  rcases Op.emits_bind.mp hx with ⟨i, v, t₁, i', hfirst, hrest, rfl⟩ | ⟨e, hfirst, rfl⟩
  · obtain ⟨l, hl, hopen, hcosts⟩ := h _ _ _ _ ht hfirst
    obtain ⟨l', hl', hopen', hcosts'⟩ := hf v _ _ _ _ (hopen v rfl) hrest
    refine ⟨l ++ l', ?_, hopen', ?_⟩
    · rw [hl', hl, List.append_assoc]
    · have hsum := hcosts.append hcosts'
      rwa [finishesOf, if_neg Bool.false_ne_true, Nat.zero_add] at hsum
  · obtain ⟨l, hl, -, hcosts⟩ := h _ _ _ _ ht hfirst
    refine ⟨l, hl, nofun, ?_⟩
    have hmono := hcosts.mono (Nat.le_add_right a b) (Nat.le_add_right g k)
    cases e with
    | error e => exact hmono
    | panicked => exact hmono

theorem Spends.bind_free {x : Call (Turn ω) α} {f : α → Call (Turn ω) β}
    (h : Spends valid x 0 0 false) (hf : ∀ v, Spends valid (f v) b k ends) :
    Spends valid (x >>= f) b k ends := by
  have hbind := h.bind hf
  rwa [Nat.zero_add, Nat.zero_add] at hbind

theorem spends_finishRun (exit : AgentRunExit) :
    Spends valid (finishRun exit : Call (Turn ω) Unit) 0 0 true := by
  intro t items r t' ht hx
  cases (emits_done.mp hx).2
  rw [ht]
  exact ⟨[.finished exit], rfl, fun _ _ => rfl, Nat.zero_le 0, Nat.zero_le 0, nofun, rfl⟩

theorem spends_pure (v : α) : Spends valid (pure v : Call (Turn ω) α) 0 0 false :=
  (adds_pure v).spends fun _ _ _ _ hx => ⟨v, (Op.emits_pure.mp hx).2.1⟩

theorem spends_observeIteration (iteration : Nat) :
    Spends valid (observeIteration iteration : Call (Turn ω) Unit) 0 0 false :=
  (adds_observeIteration iteration).spends fun _ _ _ _ hx =>
    ⟨(), (Prod.mk.inj (emits_done.mp hx).2).1⟩

theorem spends_recordToolCall (record : ToolCallRecord) :
    Spends valid (recordToolCall record : Call (Turn ω) ToolCallRecord) 0 0 false :=
  (adds_recordToolCall record).spends fun _ _ _ _ hx => ⟨_, (Prod.mk.inj (emits_done.mp hx).2).1⟩

theorem spends_abort (exit : AgentRunExit) (e : ProviderError) : Spends valid (do
    finishRun exit
    raise e : Call (Turn ω) α) 0 0 ends := by
  intro t items r t' ht hx
  rcases Op.emits_bind.mp hx with ⟨i, v, t₁, i', hfinish, hraise, rfl⟩ | ⟨e, hfinish, rfl⟩
  · obtain ⟨-, rfl, rfl⟩ := Op.emits_fail.mp hraise
    obtain ⟨l, hl, -, hcosts⟩ := spends_finishRun exit t i _ t' ht hfinish
    exact ⟨l, hl, nofun, hcosts⟩
  · cases (emits_done.mp hfinish).2

theorem spends_finish (exit : AgentRunExit) (v : α) : Spends valid (do
    finishRun exit
    pure v : Call (Turn ω) α) 0 0 true := by
  intro t items r t' ht hx
  rcases Op.emits_bind.mp hx with ⟨i, u, t₁, i', hfinish, hpure, rfl⟩ | ⟨e, hfinish, rfl⟩
  · obtain ⟨-, rfl, rfl⟩ := Op.emits_pure.mp hpure
    obtain ⟨l, hl, hopen, hcosts⟩ := spends_finishRun exit t i _ t' ht hfinish
    exact ⟨l, hl, fun _ _ => hopen u rfl, hcosts⟩
  · cases (emits_done.mp hfinish).2

theorem Adds.attempt {x : Call (Turn ω) α} (h : Adds valid x a g) :
    Spends valid (attempt x) a g false := by
  intro t items r t' ht hx
  rcases emits_attempt hx with ⟨v, hv, rfl⟩ | ⟨e, he, rfl⟩ | ⟨hpanic, rfl⟩
  · obtain ⟨l, hl, hopen, hcosts⟩ := h _ _ _ _ hv
    exact ⟨l, hl, fun _ _ => hopen.trans ht, hcosts⟩
  · obtain ⟨l, hl, hopen, hcosts⟩ := h _ _ _ _ he
    exact ⟨l, hl, fun _ _ => hopen.trans ht, hcosts⟩
  · obtain ⟨l, hl, -, hcosts⟩ := h _ _ _ _ hpanic
    exact ⟨l, hl, nofun, hcosts⟩

theorem Adds.orFinish {message : String} {x : Call (Turn ω) α} (h : Adds valid x a g) :
    Spends valid (orFinish message x) a g false := by
  refine Spends.bind (b := 0) (k := 0) h.attempt fun result => ?_
  cases result with
  | ok v => exact spends_pure v
  | error e => exact spends_abort _ _

end Spends

/-! ## What the loops spend -/

namespace MessageService

variable {ω : Type} {svc : MessageService ω} {valid : ParsedToolCall → Prop}

theorem costs_revised (request : CompletionRequest) : Costs valid [.revised request] 0 0 0 :=
  .free rfl nofun nofun rfl

theorem adds_verifyFinalAnswer (history : List StoredMessage) (finalAnswer : String)
    (toolCalls : List ToolCallRecord) :
    Adds valid (svc.verifyFinalAnswer history finalAnswer toolCalls) 0 0 := by
  unfold verifyFinalAnswer
  refine Adds.ite (adds_pure _) (Adds.ite (adds_pure _) ?_)
  cases svc.outputVerificationMode with
  | off => exact adds_pure _
  | observe => exact adds_pure _
  | block => exact adds_pure _
  | reviseOnce =>
    refine Adds.ite (adds_pure _) ?_
    exact (adds_log (costs_revised _)).bind fun _ => (adds_onTurn _).bind fun revised =>
      Adds.ite (adds_pure _) (adds_pure _)

theorem adds_executeValidated (protocol : ToolProtocol) {call : ParsedToolCall} (iteration : Nat)
    (hcall : valid call) : Adds valid (svc.executeValidated protocol call iteration) 0 0 := by
  have hcosts : Costs valid [.executed call] 0 0 0 := by
    refine ⟨Nat.le_refl 0, Nat.le_refl 0, fun c hc => ?_, rfl⟩
    cases List.mem_singleton.mp hc
    exact hcall
  exact (adds_log hcosts).bind fun _ => (adds_onTurn _).bind fun _ => adds_pure _

theorem costs_framed (request : CompletionRequest) (reply : String) :
    Costs valid [.framed request reply] 0 0 0 := .free rfl nofun nofun rfl

theorem costs_asked (request : CompletionRequest) : Costs valid [.asked request] 1 0 0 :=
  ⟨Nat.le_refl 1, Nat.le_refl 0, by simp, rfl⟩

theorem costs_granted : Costs valid [.granted] 0 1 0 :=
  ⟨Nat.le_refl 0, Nat.le_refl 1, by simp, rfl⟩

theorem spends_granted : Spends valid (log .granted : Call (Turn ω) Unit) 0 1 false :=
  (adds_log costs_granted).spends fun _ _ _ _ hx => ⟨(), (Prod.mk.inj (emits_done.mp hx).2).1⟩

/-- What the loops take of their kind: one request for a reply, and a text handed over without a trace. -/
structure LoopKind.Frugal (kind : LoopKind ω) : Prop where
  ask : ∀ valid request, Adds valid (kind.ask request) 1 0
  deliver : ∀ valid text, Spends valid (kind.deliver text) 0 0 false

theorem frugal_plainKind : LoopKind.Frugal svc.plainKind where
  ask _ request := (adds_log (costs_asked request)).bind fun _ =>
    (adds_onTurn _).bind fun _ =>
      (adds_log (costs_framed _ _)).bind fun _ => adds_pure _
  deliver _ _ := spends_pure ()

theorem frugal_streamKind : LoopKind.Frugal svc.streamKind where
  ask _ request := (adds_log (costs_asked request)).bind fun _ =>
    (adds_onTurn _).bind fun _ =>
      (adds_log (costs_framed _ _)).bind fun _ => adds_pure _
  deliver _ text := by
    refine Spends.bind_free (adds_replayEach _).attempt fun result => ?_
    cases result with
    | ok _ => exact spends_pure ()
    | error err => exact spends_abort _ err

section Kind

variable {kind : LoopKind ω}

theorem spends_conclude (hkind : kind.Frugal) (exit : String → AgentRunExit) (text : String) :
    Spends valid (conclude kind exit text) 0 0 true :=
  (hkind.deliver valid text).bind fun _ => spends_finish (exit text) text

theorem spends_lastReply (hkind : kind.Frugal) (exit : String → AgentRunExit)
    (history : List StoredMessage) (toolCalls : List ToolCallRecord)
    (circumstances verificationFailed : String) :
    Spends valid (svc.lastReply kind exit history toolCalls circumstances verificationFailed) 1 0
      true :=
  (hkind.ask valid _).orFinish.bind fun reply =>
    (adds_verifyFinalAnswer history reply toolCalls).orFinish.bind fun reply =>
      spends_conclude hkind exit reply

theorem spends_rejected (hkind : kind.Frugal) (history : List StoredMessage) (reply : String)
    (verification : VerificationResult) (toolCalls : List ToolCallRecord) {retry retryUsed : Bool}
    (circumstances : String) {next : List StoredMessage → Call (Turn ω) String} {a : Nat}
    (hretry : retry = true → retryUsed = false) (ha : 1 ≤ a)
    (hnext : ∀ history, Spends valid (next history) a 0 true) :
    Spends valid (svc.rejected kind history reply verification toolCalls retry circumstances next) a
      (if retryUsed then 0 else 1) true := by
  unfold rejected
  by_cases h : retry = true
  · rw [if_pos h, hretry h]
    exact (spends_granted.bind fun _ => hnext _).mono (by omega) (by simp)
  · rw [if_neg h]
    exact (spends_lastReply hkind _ _ _ _ _).mono ha (Nat.zero_le _)

/-- **What the loop spends**: a request for each iteration and one for the end, a retry unless it has been
used, and one end of the run; it executes valid calls. -/
theorem spends_iterations (hkind : kind.Frugal) (protocol : ToolProtocol)
    (hvalid : ∀ call tool, protocol.validateCall call = .ok tool → valid call)
    (remaining iteration : Nat) (history : List StoredMessage) (retryUsed : Bool)
    (toolCalls : List ToolCallRecord) :
    Spends valid (svc.iterations kind protocol remaining iteration history retryUsed toolCalls)
      (remaining + 1) (if retryUsed then 0 else 1) true := by
  induction remaining generalizing iteration history retryUsed toolCalls with
  | zero => exact (spends_lastReply hkind _ _ _ _ _).mono (Nat.le_refl 1) (Nat.zero_le _)
  | succ remaining ih =>
    rw [iterations]
    refine ((hkind.ask valid _).orFinish.bind (b := remaining + 1) (k := if retryUsed then 0 else 1)
      fun reply => (spends_observeIteration _).bind_free fun _ => ?_).mono (by omega) (by omega)
    cases parseToolCallAttempt svc.json reply with
    | finalAnswer =>
      exact ((adds_verifyFinalAnswer history reply toolCalls).orFinish.bind fun reply =>
        spends_conclude hkind _ reply).mono (Nat.zero_le _) (Nat.zero_le _)
    | parseError verification =>
      exact spends_rejected hkind _ _ _ _ _ (by simp) (by omega) fun _ => ih _ _ true _
    | tool toolCall =>
      dsimp only
      cases hcall : protocol.validateCall toolCall with
      | error verification =>
        exact (spends_recordToolCall _).bind_free fun record =>
          spends_rejected hkind _ _ _ _ _ (by simp) (by omega) fun _ => ih _ _ true _
      | ok tool =>
        have hexecuted : Adds valid (svc.executeValidated protocol toolCall iteration) 0 0 :=
          adds_executeValidated protocol iteration (hvalid _ _ hcall)
        refine hexecuted.orFinish.bind_free fun envelope =>
          (spends_recordToolCall _).bind_free fun record => ?_
        cases (svc.toolVerifier.map fun verify => verify envelope.record).filter
            fun verification => !verification.passed with
        | none => exact ih _ _ _ _
        | some verification =>
          dsimp only
          by_cases hmode : svc.toolVerificationMode = .observe
          · rw [if_pos hmode]
            exact ih _ _ _ _
          · rw [if_neg hmode]
            exact spends_rejected hkind _ _ _ _ _ (by simp) (by omega) fun _ => ih _ _ true _

end Kind

/-! ## The two turns -/

theorem completeWithMcpLoop_eq (svc : MessageService ω) (history : List StoredMessage)
    (tools : List McpToolInfo) :
    svc.completeWithMcpLoop history tools = startRun >>= fun _ =>
      svc.iterations svc.plainKind (svc.protocol tools) (max svc.maxIterations 1) 0
        (history ++ [⟨.system, buildMcpSystemPrompt svc.json tools⟩]) false [] := by
  rw [← mcpIterations_eq]
  rfl

theorem completeWithMcpLoopStream_eq (svc : MessageService ω) (history : List StoredMessage)
    (tools : List McpToolInfo) :
    svc.completeWithMcpLoopStream history tools = startRun >>= fun _ =>
      svc.iterations svc.streamKind (svc.protocol tools) (max svc.maxIterations 1) 0
        (history ++ [⟨.system, buildMcpSystemPrompt svc.json tools⟩]) false [] := by
  rw [← mcpIterationsStream_eq]
  rfl

/-- What a turn of a loop keeps to: it executes calls that passed the check against the tools, grants one
retry at most, asks the provider once more than it iterates at most, and finishes its run once, unless it
panics. -/
structure KeepsLimits (svc : MessageService ω) (tools : List McpToolInfo)
    (result : Except Failure String) (events : List TurnEvent) : Prop where
  validated : ∀ call, .executed call ∈ events → ∃ tool, (svc.protocol tools).validateCall call = .ok tool
  retries : events.count .granted ≤ 1
  asks : events.countP TurnEvent.isAsked ≤ max svc.maxIterations 1 + 1
  finishes : result ≠ .error .panicked → events.countP TurnEvent.isFinished = 1

/-- **A loop keeps to its limits**, whatever its sink does. -/
theorem keepsLimits_of_emits {kind : LoopKind ω} (hkind : kind.Frugal) {tools : List McpToolInfo}
    {history : List StoredMessage} {t t' : Turn ω} {items : List String} {r : Except Failure String}
    (h : Op.Emits (startRun >>= fun _ => svc.iterations kind (svc.protocol tools)
      (max svc.maxIterations 1) 0 history false []) t items r t') :
    ∃ l, t'.events = t.events ++ .started :: l ∧ KeepsLimits svc tools r l := by
  have hspends : Spends (fun call => ∃ tool, (svc.protocol tools).validateCall call = .ok tool)
      (svc.iterations kind (svc.protocol tools) (max svc.maxIterations 1) 0 history false [])
      (max svc.maxIterations 1 + 1) 1 true :=
    spends_iterations hkind _ (fun call tool hcall => ⟨tool, hcall⟩) _ _ _ false _
  rcases Op.emits_bind.mp h with ⟨i, u, t₁, i', hstart, hrest, rfl⟩ | ⟨e, hstart, -⟩
  · cases (emits_done.mp hstart).2
    obtain ⟨l, hl, -, hcosts⟩ := hspends _ _ _ _ rfl hrest
    refine ⟨l, ?_, hcosts.validated, hcosts.grants, hcosts.asks, fun hr => ?_⟩
    · rw [hl, List.append_assoc]
      rfl
    · rw [hcosts.finishes]
      rcases r with (e | _) | text
      · rfl
      · exact absurd rfl hr
      · rfl
  · cases (emits_done.mp hstart).2

end MessageService

/-- **The two loops agree.** Where a streamed reply is the reply in one piece and the sink never fails,
the two loops do the same to the turn and end alike, and the text that the streaming one hands over is its
final text; and both keep to their limits. -/
theorem mcp_loops_agree {ω σ : Type} (svc : MessageService ω) (history : List StoredMessage)
    (tools : List McpToolInfo) (t : Turn ω) (hstream : StreamsAlike svc.provider)
    (listen : String → σ → Except ProviderError Unit × σ) (hlisten : NeverFails listen) (s : σ) :
    let plain := run listen (svc.completeWithMcpLoop history tools t) s
    let streamed := run listen (svc.completeWithMcpLoopStream history tools t) s
    plain.value.2 = streamed.value.2 ∧ Alike plain.value.1 streamed.value.1 ∧ plain.accepted = [] ∧
      String.join streamed.accepted = streamed.value.1.toOption.getD "" ∧
      (∃ l, plain.value.2.events = t.events ++ .started :: l ∧
        svc.KeepsLimits tools plain.value.1 l) ∧
      ∃ l, streamed.value.2.events = t.events ++ .started :: l ∧
        svc.KeepsLimits tools streamed.value.1 l := by
  dsimp only
  rw [svc.completeWithMcpLoop_eq, svc.completeWithMcpLoopStream_eq]
  have hstart : Same (startRun : Call (Turn ω) Unit) startRun := Same.of_done fun _ => ⟨_, rfl⟩
  obtain ⟨r, t', hplain, hstreamed⟩ := hstart.agree (fun _ => MessageService.agree_iterations hstream
    (svc.protocol tools) (max svc.maxIterations 1) 0
    (history ++ [⟨.system, buildMcpSystemPrompt svc.json tools⟩]) false []) t
  obtain ⟨r', hvalue, halike, haccepted⟩ := hstreamed σ listen hlisten s
  refine ⟨?_, ?_, ?_, ?_,
    MessageService.keepsLimits_of_emits MessageService.frugal_plainKind (emits_run _ s),
    MessageService.keepsLimits_of_emits MessageService.frugal_streamKind (emits_run _ s)⟩
  · rw [hplain, hvalue]
    rfl
  · rw [hplain, hvalue]
    exact halike
  · rw [hplain]
    rfl
  · rw [hvalue, haccepted, halike.toOption_eq]

namespace Sample

/-- A provider that replies from a list, in one piece or as one delta. -/
def scripted : ChatProvider (List String) where
  complete _ replies :=
    match replies with
    | [] => .done (.error (.error (.other "no reply")), [])
    | reply :: replies => .done (.ok reply, replies)
  completeStream _ replies :=
    match replies with
    | [] => .done (.error (.error (.other "no reply")), [])
    | reply :: replies => .emit reply fun
      | .ok () => .done (.ok reply, replies)
      | .error e => .done (.error (.error e), replies)
  streams _ replies items text replies' h := by
    cases replies with
    | nil => cases (emits_done.mp h).2
    | cons reply replies =>
      rcases h with _ | h | ⟨e, h⟩
      · obtain ⟨rfl, he⟩ := emits_done.mp h
        cases he
        simp [String.join_cons]
      · cases (emits_done.mp h).2

theorem streamsAlike_scripted : StreamsAlike scripted := by
  intro req replies
  cases replies with
  | nil => exact ⟨_, _, [], rfl, rfl, .error _ _⟩
  | cons reply replies =>
    refine ⟨.ok reply, .ok reply, replies, rfl, ?_, .ok reply⟩
    have hresolved : resolveProviderStreamReply reply (if reply.isEmpty then [] else [reply]) = reply := by
      unfold resolveProviderStreamReply
      by_cases hreply : reply.isEmpty = true
      · rw [if_pos hreply]
        rfl
      · rw [if_neg hreply]
        simp [String.join_cons]
    exact congrArg (fun text => Emitter.done (Except.ok text, replies)) hresolved

mutual

/-- The text of a value whose texts need no escapes. -/
def render : Value → String
  | .null => "null"
  | .bool b => if b then "true" else "false"
  | .int n => toString n
  | .float digits => digits
  | .string s => "\"" ++ s ++ "\""
  | .array values => "[" ++ renderValues values ++ "]"
  | .object fields => "\x7b" ++ renderFields fields ++ "\x7d"

def renderValues : Values → String
  | .nil => ""
  | .cons v .nil => render v
  | .cons v vs => render v ++ "," ++ renderValues vs

def renderFields : Fields → String
  | .nil => ""
  | .cons k v .nil => "\"" ++ k ++ "\":" ++ render v
  | .cons k v fs => "\"" ++ k ++ "\":" ++ render v ++ "," ++ renderFields fs

end

def clockCall : Value :=
  .json [("server", .string "clock"), ("tool", .string "now"), ("arguments", .json [])]

/-- A service with a clock to call. -/
def clockService : MessageService (List String) where
  provider := scripted
  json := ⟨fun text => if text = render clockCall then .ok clockCall else .error "expected value", render⟩
  callTool _ _ replies := (⟨some (.ok (.json [("time", .string "12:00")])), 1⟩, replies)
  maxIterations := 4
  maxToolResultChars := 4000
  callTimeoutSecs := 30
  toolVerifier := none
  toolVerificationMode := .observe
  outputVerifier := true
  outputVerificationMode := .block
  outputVerificationLlmEnabled := false
  outputVerificationMaxPromptChars := 4000
  outputVerificationMaxResultChars := 4000

def clockTools : List McpToolInfo := [⟨"clock", "now", none, .json [("type", .string "object")], none⟩]

/-- The turn before its two replies: a call, and the answer. -/
def clockTurn : Turn (List String) where
  world := [render clockCall, "It is noon."]

end Sample

/-- A turn with one tool call, in both loops: the channel sees the answer only. -/
theorem mcp_loops_agree_clock :
    String.join (run takeAll (Sample.clockService.completeWithMcpLoopStream [⟨.user, "What time is it?"⟩]
      Sample.clockTools Sample.clockTurn) ()).accepted = "It is noon." := by
  obtain ⟨-, halike, -, haccepted, -⟩ := mcp_loops_agree Sample.clockService
    [⟨.user, "What time is it?"⟩] Sample.clockTools Sample.clockTurn Sample.streamsAlike_scripted takeAll
    (fun _ _ => ⟨(), rfl⟩) ()
  have hplain : (run takeAll (Sample.clockService.completeWithMcpLoop [⟨.user, "What time is it?"⟩]
      Sample.clockTools Sample.clockTurn) ()).value.1 = .ok "It is noon." := by
    decide +kernel
  rw [haccepted, ← halike.toOption_eq, hplain]
  rfl

end Xiaomaolv
