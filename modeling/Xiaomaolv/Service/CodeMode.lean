import Xiaomaolv.Service.CodeModeExecutor
import Xiaomaolv.Service.McpLoop

/-!
# The code-mode path

A turn first tries to execute a plan of tool calls and to answer from the report on it; where that comes
to nothing it falls back to the MCP loop, which may call the same tools again.

* `TimeoutCircuit`: plans whose calls time out too often open it; then the path is only probed.
* `completeWithCodeMode`: the path; `completeWithOptionalMcp`, `completeWithOptionalMcpStream`: the turns.
* `CodeModeTrail`: what the path can leave on the log of a turn; **`trail_completeWithCodeMode`**.
* **`code_mode_falls_back`**: when a turn that has started a call falls back to the loop.
-/

namespace Xiaomaolv

open Emitter

/-! ## The circuit -/

inductive CodeModeAttempt where
  | normal
  | probe
  deriving DecidableEq, Repr

inductive CodeModeCircuitChange where
  | none
  | opened
  | closed
  deriving DecidableEq, Repr

/-- The atomics of the timeout circuit. -/
structure TimeoutCircuit where
  alertStreak : Nat := 0
  isOpen : Bool := false
  probeCounter : Nat := 0
  deriving DecidableEq, Repr

structure CodeModeAuditRecord where
  planner : String
  used : Bool
  fallback : Bool
  reason : Option String
  plannedCalls : Nat := 0
  executedCalls : Nat := 0
  failedCalls : Nat := 0
  timedOutCalls : Nat := 0
  deriving DecidableEq, Repr

/-- `CodeModeAuditRecord::fallback`. -/
def CodeModeAuditRecord.ofFallback (planner reason : String) : CodeModeAuditRecord :=
  ⟨planner, false, true, some reason, 0, 0, 0, 0⟩

/-- The record after a change of the circuit. -/
def CodeModeAuditRecord.onChange (record : CodeModeAuditRecord) (forceShadow : Bool) :
    CodeModeCircuitChange → CodeModeAuditRecord
  | .opened =>
    { record with used := false, fallback := true, reason := some "timeout auto shadow circuit opened" }
  | .closed =>
    if forceShadow then
      { record with reason := some "timeout circuit probe succeeded; circuit closed" }
    else record
  | .none => record

section Circuit

variable (ratioReached : Nat → Nat → Bool) (settings : AgentCodeModeSettings)

def shouldWarnCodeModeTimeouts (record : CodeModeAuditRecord) : Bool :=
  record.executedCalls ≠ 0 && 0 < record.timedOutCalls &&
    ratioReached record.timedOutCalls record.executedCalls

def nextCodeModeTimeoutStreak (current : Nat) (record : CodeModeAuditRecord) : Nat :=
  if shouldWarnCodeModeTimeouts ratioReached record then min (current + 1) (2 ^ 64 - 1) else 0

def shouldProbeCodeModeTimeoutCircuit (probeCount probeEvery : Nat) : Bool :=
  probeCount % max probeEvery 1 = 0

def shouldOpenCodeModeTimeoutCircuit (timeoutStreak : Nat) : Bool :=
  settings.timeoutAutoShadowEnabled && !settings.shadowMode &&
    max settings.timeoutAutoShadowStreak 1 ≤ timeoutStreak

/-- What the circuit lets a turn do. -/
def nextCodeModeAttempt (circuit : TimeoutCircuit) : Option CodeModeAttempt × TimeoutCircuit :=
  if !circuit.isOpen then (some .normal, circuit)
  else
    let probeCount := (circuit.probeCounter + 1) % 2 ^ 64
    (if shouldProbeCodeModeTimeoutCircuit probeCount settings.timeoutAutoShadowProbeEvery then some .probe
      else none, { circuit with probeCounter := probeCount })

def updateCodeModeTimeoutCircuit (record : CodeModeAuditRecord) (circuit : TimeoutCircuit) :
    CodeModeCircuitChange × TimeoutCircuit :=
  if !settings.timeoutAutoShadowEnabled || settings.shadowMode then (.none, circuit)
  else
    let next := nextCodeModeTimeoutStreak ratioReached circuit.alertStreak record
    let circuit := { circuit with alertStreak := next }
    if shouldOpenCodeModeTimeoutCircuit settings next then
      (if circuit.isOpen then .none else .opened, { circuit with isOpen := true })
    else if circuit.isOpen && !shouldWarnCodeModeTimeouts ratioReached record then
      (.closed, { alertStreak := 0, isOpen := false, probeCounter := 0 })
    else (.none, circuit)

end Circuit

/-! ## Turns with code mode -/

/-- What a turn leaves on its log on the way. -/
inductive PathEvent where
  | attempted (attempt : CodeModeAttempt)
  /-- The task of a call has been spawned. -/
  | spawned (call : CodeModeToolCall)
  | executed (plan : CodeModePlan) (result : Except ExecutionError CodeModeExecutionReport)
  /-- `emit_code_mode_audit`. -/
  | audited (record : CodeModeAuditRecord) (forceShadow : Bool) (change : CodeModeCircuitChange)
  /-- What the reply to a report has come to. -/
  | answered (report : CodeModeExecutionReport) (result : Except ProviderError String)
  /-- `complete_with_mcp_loop` is entered. -/
  | looped
  deriving DecidableEq

structure AgentTurn (ω : Type) where
  turn : Turn ω
  circuit : TimeoutCircuit := {}
  path : List PathEvent := []

structure AgentService (ω : Type) extends MessageService ω where
  /-- `is_mcp_agent_enabled`. -/
  mcpEnabled : Bool
  listTools : ω → Except String (List McpToolInfo) × ω
  agentCodeMode : AgentCodeModeSettings
  codeModePlanner : CodeModePlanner ω
  /-- Whether so many timeouts of so many calls reach the ratio of the settings, as floats. -/
  ratioReached : Nat → Nat → Bool
  runtime : CodeModeRuntime ω
  codeModeChild : Subprocess ω
  /-- What the other turns of the service have made of the circuit in the meantime. -/
  otherTurns : ω → TimeoutCircuit → TimeoutCircuit

inductive CodeModeCompletion where
  | finished (text : String)
  | pendingStream (text : String)
  deriving DecidableEq, Repr

def CodeModeCompletion.intoText : CodeModeCompletion → String
  | finished text => text
  | pendingStream text => text

structure CompletionOutcome where
  text : String
  outputVerified : Bool
  deriving DecidableEq, Repr

section Steps

variable {ω α : Type}

def note (event : PathEvent) : Call (AgentTurn ω) Unit := fun s =>
  .done (.ok (), { s with path := s.path ++ [event] })

/-- A call of the turn, which leaves the circuit alone. -/
def inTurn (call : Call (Turn ω) α) : Call (AgentTurn ω) α := fun s =>
  (call s.turn).map fun r => (r.1, { s with turn := r.2 })

/-- The circuit as it is after the other turns, through `f`. -/
def onCircuit (otherTurns : ω → TimeoutCircuit → TimeoutCircuit)
    (f : TimeoutCircuit → α × TimeoutCircuit) : Call (AgentTurn ω) α := fun s =>
  let r := f (otherTurns s.turn.world s.circuit)
  .done (.ok r.1, { s with circuit := r.2 })

end Steps

/-- The deltas of a call, passed on and recorded, whatever the sink answers: `RecordingStreamSink`. -/
def recording {α : Type} : Emitter String ProviderError α → Emitter String ProviderError (α × List String)
  | .done a => .done (a, [])
  | .emit delta next => .emit delta fun answer =>
    (recording (next answer)).map fun r => (r.1, if delta.isEmpty then r.2 else delta :: r.2)

def codeModeToolCallRecord (call : CodeModeCallResult) (iteration : Nat) : ToolCallRecord where
  callIndex := 0
  server := call.server
  tool := call.tool
  arguments := .json []
  result :=
    match call.result, call.error with
    | some result, _ => result
    | none, some error => .json [("error", .string error)]
    | none, none => .json [("error", .string "code mode call returned no result")]
  ok := call.ok
  durationMs := 0
  iteration := iteration

/-- A report, in JSON. -/
def CodeModeExecutionReport.json (report : CodeModeExecutionReport) : Value :=
  .json [("calls", .array (.ofList (report.calls.map fun call =>
      .json [("server", .string call.server), ("tool", .string call.tool), ("ok", .bool call.ok),
        ("result", call.result.getD .null), ("error", .ofOption call.error),
        ("truncated", .bool call.truncated)]))),
    ("failed_calls", .int report.failedCalls), ("timed_out_calls", .int report.timedOutCalls),
    ("truncated_outputs", .int report.truncatedOutputs), ("elapsed_ms", .int report.elapsedMs)]

namespace AgentService

variable {ω : Type} (svc : AgentService ω)

/-! ## The plain paths -/

def completePlainProvider (history : List StoredMessage) : Call (Turn ω) CompletionOutcome := do
  startRun
  let reply ← orFinish "provider completion failed"
    (svc.completeProviderForRun { messages := history })
  finishRun (.finalAnswer reply)
  pure ⟨reply, false⟩

def completePlainProviderStream (history : List StoredMessage) : Call (Turn ω) String := do
  startRun
  let request : CompletionRequest := { messages := history }
  if svc.outputVerificationMode = .off then do
    log (.asked request)
    let (providerReply, deltas) ← orFinish "provider stream completion failed" (onTurn fun w =>
      (recording (svc.provider.completeStream request w)).map fun r =>
        (r.1.1.map fun reply => (reply, r.2), r.1.2))
    let resolvedReply := resolveProviderStreamReply providerReply deltas
    log (.framed request resolvedReply)
    finishRun (.finalAnswer resolvedReply)
    pure resolvedReply
  else do
    let resolvedReply ← orFinish "provider stream completion failed"
      (svc.completeBufferedProviderForRun request)
    let resolvedReply ← orFinish "output verification failed"
      (svc.verifyFinalAnswer history resolvedReply [])
    MessageService.replayTextOrFinishInternalError resolvedReply
    finishRun (.finalAnswer resolvedReply)
    pure resolvedReply

/-! ## The code-mode path -/

/-- `emit_code_mode_audit` and `record_code_mode_counters`. -/
def audit (record : CodeModeAuditRecord) (forceShadow : Bool) (change : CodeModeCircuitChange) :
    Call (AgentTurn ω) Unit :=
  note (.audited record forceShadow change)

/-- `environment.execute(..)`, with its trace. -/
def executePlan (plan : CodeModePlan) (tools : List McpToolInfo) :
    Call (AgentTurn ω) (Except ExecutionError CodeModeExecutionReport) := fun s =>
  let run := executeInEnvironment svc.json svc.agentCodeMode svc.runtime svc.codeModeChild plan tools
    s.turn.world
  .done (.ok run.result, { s with
    turn := { s.turn with world := run.world }
    path := s.path ++ (run.spawned.map .spawned ++ [.executed plan run.result]) })

/-- The calls of a report, recorded in the run. -/
def recordReport : Nat → List CodeModeCallResult → Call (Turn ω) (List ToolCallRecord)
  | _, [] => pure []
  | iteration, call :: calls => do
    let record ← recordToolCall (codeModeToolCallRecord call iteration)
    let records ← recordReport (iteration + 1) calls
    pure (record :: records)

/-- The history with a report. -/
def reportHistory (history : List StoredMessage) (report : CodeModeExecutionReport) :
    List StoredMessage :=
  history ++ [⟨.system, "CODE_MODE_TOOL_RESULT_JSON:\n" ++ svc.json.toString report.json⟩]

/-- The reply to a report. -/
def answerFromReport (history : List StoredMessage) (report : CodeModeExecutionReport) :
    Call (Turn ω) String := do
  startRun
  let toolCalls ← recordReport 0 report.calls
  let nextHistory := svc.reportHistory history report
  let reply ← orFinish "provider completion failed after code mode execution"
    (svc.completeProviderForRun { messages := nextHistory })
  let reply ← orFinish "output verification failed after code mode execution"
    (svc.verifyFinalAnswer nextHistory reply toolCalls)
  observeIteration 0
  pure reply

/-- The audit record of a report. -/
def reportAudit (plan : CodeModePlan) (report : CodeModeExecutionReport) (forceShadow : Bool) :
    CodeModeAuditRecord where
  planner := svc.codeModePlanner.name
  used := !svc.agentCodeMode.shadowMode && !forceShadow
  fallback := svc.agentCodeMode.shadowMode || forceShadow
  reason :=
    if svc.agentCodeMode.shadowMode then some "shadow_mode enabled"
    else if forceShadow then some "timeout circuit probe"
    else none
  plannedCalls := plan.calls.length
  executedCalls := report.calls.length
  failedCalls := report.failedCalls
  timedOutCalls := report.timedOutCalls

def completeWithCodeMode (history : List StoredMessage) (tools : List McpToolInfo)
    (forceShadow deferSuccessFinish : Bool) : Call (AgentTurn ω) (Option CodeModeCompletion) := do
  let codeModeTools := tools.filter (CodeModePolicy.allowsTool svc.agentCodeMode)
  if codeModeTools.isEmpty then do
    audit (.ofFallback svc.codeModePlanner.name "no code mode tools allowed by capability policy")
      forceShadow .none
    pure none
  else do
    let plan ← inTurn (onTurn (svc.codeModePlanner.buildPlan history codeModeTools))
    match plan with
    | none => do
      audit (.ofFallback svc.codeModePlanner.name "planner returned no plan") forceShadow .none
      pure none
    | some plan => do
      let execution ← svc.executePlan plan codeModeTools
      match execution with
      | .error err => do
        let reason := s!"{err.message}; isolation={svc.agentCodeMode.executionMode.isolation.debug}"
        audit { CodeModeAuditRecord.ofFallback svc.codeModePlanner.name reason with
          plannedCalls := plan.calls.length } forceShadow .none
        pure none
      | .ok report => do
        let record := svc.reportAudit plan report forceShadow
        let change ← onCircuit svc.otherTurns
          (updateCodeModeTimeoutCircuit svc.ratioReached svc.agentCodeMode record)
        audit (record.onChange forceShadow change) forceShadow change
        if svc.agentCodeMode.shadowMode || forceShadow || change == .opened then pure none
        else do
          let result ← attempt (inTurn (svc.answerFromReport history report))
          match result with
          | .error err => do
            note (.answered report (.error err))
            raise err
          | .ok reply => do
            note (.answered report (.ok reply))
            if deferSuccessFinish then pure (some (.pendingStream reply))
            else do
              inTurn (finishRun (.finalAnswer reply))
              pure (some (.finished reply))

/-- The code-mode path, if the settings and the circuit let the turn take it; an error of it is logged
and counts as no completion. -/
def tryCodeMode (history : List StoredMessage) (tools : List McpToolInfo) (deferSuccessFinish : Bool) :
    Call (AgentTurn ω) (Option CodeModeCompletion) :=
  if !svc.agentCodeMode.enabled then pure none
  else do
    let attempted ← onCircuit svc.otherTurns (nextCodeModeAttempt svc.agentCodeMode)
    match attempted with
    | none => pure none
    | some attempted => do
      note (.attempted attempted)
      let result ← attempt
        (svc.completeWithCodeMode history tools (attempted == .probe) deferSuccessFinish)
      match result with
      | .ok completion => pure completion
      | .error _ => pure none

/-! ## The turns -/

/-- The tools of the turn; none where it takes the plain path. -/
def turnTools : Call (AgentTurn ω) (List McpToolInfo) :=
  if !svc.mcpEnabled then pure []
  else inTurn (onTurn fun w =>
    let r := svc.listTools w
    .done (.ok (r.1.toOption.getD []), r.2))

def completeWithOptionalMcp (history : List StoredMessage) : Call (AgentTurn ω) CompletionOutcome := do
  let tools ← svc.turnTools
  if tools.isEmpty then inTurn (svc.completePlainProvider history)
  else do
    let completion ← svc.tryCodeMode history tools false
    match completion with
    | some reply => pure ⟨reply.intoText, true⟩
    | none => do
      note .looped
      let text ← inTurn (svc.completeWithMcpLoop history tools)
      pure ⟨text, true⟩

def completeWithOptionalMcpStream (history : List StoredMessage) : Call (AgentTurn ω) String := do
  let tools ← svc.turnTools
  if tools.isEmpty then inTurn (svc.completePlainProviderStream history)
  else do
    let completion ← svc.tryCodeMode history tools true
    match completion with
    | some (.pendingStream text) => do
      inTurn (MessageService.replayTextOrFinishInternalError text)
      inTurn (finishRun (.finalAnswer text))
      pure text
    | some (.finished reply) => do
      inTurn (replayText reply)
      pure reply
    | none => do
      note .looped
      inTurn (svc.completeWithMcpLoopStream history tools)

end AgentService

/-! ## Ways through the steps -/

section Ways

variable {ω α β : Type} {s s' : AgentTurn ω} {items : List String}

theorem emits_note_bind {event : PathEvent} {f : Unit → Call (AgentTurn ω) β} {r : Except Failure β} :
    Op.Emits (note event >>= f) s items r s' ↔
      Op.Emits (f ()) { s with path := s.path ++ [event] } items r s' := Iff.rfl

theorem emits_onCircuit_bind {otherTurns : ω → TimeoutCircuit → TimeoutCircuit}
    {f : TimeoutCircuit → α × TimeoutCircuit} {g : α → Call (AgentTurn ω) β} {r : Except Failure β} :
    Op.Emits (onCircuit otherTurns f >>= g) s items r s' ↔
      Op.Emits (g (f (otherTurns s.turn.world s.circuit)).1)
        { s with circuit := (f (otherTurns s.turn.world s.circuit)).2 } items r s' := Iff.rfl

theorem emits_inTurn {call : Call (Turn ω) α} {r : Except Failure α} :
    Op.Emits (inTurn call) s items r s' ↔
      ∃ t', Op.Emits call s.turn items r t' ∧ s' = { s with turn := t' } := by
  refine emits_map.trans ⟨?_, ?_⟩
  · rintro ⟨⟨r', t'⟩, h, he⟩
    cases he
    exact ⟨t', h, rfl⟩
  · rintro ⟨t', h, rfl⟩
    exact ⟨(r, t'), h, rfl⟩

/-- The call only adds to the log of the turn. -/
def Appends (x : Call (Turn ω) α) : Prop :=
  ∀ t items r t', Op.Emits x t items r t' → ∃ l, t'.events = t.events ++ l

theorem Adds.appends {x : Call (Turn ω) α} {a g : Nat} (h : Adds (fun _ => True) x a g) :
    Appends x := by
  intro t items r t' hx
  obtain ⟨l, hl, -⟩ := h t items r t' hx
  exact ⟨l, hl⟩

theorem Appends.bind {x : Call (Turn ω) α} {f : α → Call (Turn ω) β} (h : Appends x)
    (hf : ∀ v, Appends (f v)) : Appends (x >>= f) := by
  intro t items r t' hx
  rcases Op.emits_bind.mp hx with ⟨i, v, t₁, i', hfirst, hrest, rfl⟩ | ⟨e, hfirst, rfl⟩
  · obtain ⟨l, hl⟩ := h _ _ _ _ hfirst
    obtain ⟨l', hl'⟩ := hf v _ _ _ _ hrest
    refine ⟨l ++ l', ?_⟩
    rw [hl', hl, List.append_assoc]
  · exact h _ _ _ _ hfirst

theorem appends_pure (v : α) : Appends (pure v : Call (Turn ω) α) :=
  (adds_pure v).appends

theorem appends_finishRun (exit : AgentRunExit) : Appends (finishRun exit : Call (Turn ω) Unit) := by
  intro t items r t' hx
  cases (emits_done.mp hx).2
  split_ifs
  · exact ⟨[], (List.append_nil _).symm⟩
  · exact ⟨[.finished exit], rfl⟩

theorem Appends.attempt {x : Call (Turn ω) α} (h : Appends x) : Appends (attempt x) := by
  intro t items r t' hx
  rcases emits_attempt hx with ⟨v, hv, -⟩ | ⟨e, he, -⟩ | ⟨hpanic, -⟩
  · exact h _ _ _ _ hv
  · exact h _ _ _ _ he
  · exact h _ _ _ _ hpanic

theorem appends_abort (exit : AgentRunExit) (e : ProviderError) : Appends (do
    finishRun exit
    raise e : Call (Turn ω) α) := by
  refine (appends_finishRun exit).bind fun _ => ?_
  intro t items r t' hx
  obtain ⟨-, -, rfl⟩ := Op.emits_fail.mp hx
  exact ⟨[], (List.append_nil _).symm⟩

theorem Appends.orFinish {message : String} {x : Call (Turn ω) α} (h : Appends x) :
    Appends (orFinish message x) := by
  refine h.attempt.bind fun result => ?_
  cases result with
  | ok v => exact appends_pure v
  | error e => exact appends_abort _ _

theorem appends_replayText (text : String) : Appends (replayText text : Call (Turn ω) Unit) :=
  (adds_replayEach _).appends

theorem appends_replayTextOrFinish (text : String) :
    Appends (MessageService.replayTextOrFinishInternalError text : Call (Turn ω) Unit) := by
  refine (appends_replayText text).attempt.bind fun result => ?_
  cases result with
  | ok v => exact appends_pure v
  | error e => exact appends_abort _ e

theorem emits_orFinish_ok {message : String} {x : Call (Turn ω) α} {t t' : Turn ω} {v : α}
    (h : Op.Emits (orFinish message x) t items (.ok v) t') : Op.Emits x t items (.ok v) t' := by
  rcases Op.emits_bind.mp h with ⟨i, result, t₁, i', hattempt, hrest, rfl⟩ | ⟨e, -, he⟩
  · rcases emits_attempt hattempt with ⟨u, hu, hr⟩ | ⟨e, -, hr⟩ | ⟨-, hr⟩
    · cases hr
      obtain ⟨rfl, hv, rfl⟩ := Op.emits_pure.mp hrest
      cases hv
      rw [List.append_nil]
      exact hu
    · cases hr
      rcases Op.emits_bind.mp hrest with ⟨_, _, _, _, -, hraise, -⟩ | ⟨_, hfinish, -⟩
      · cases (Op.emits_fail.mp hraise).2.1
      · cases (emits_done.mp hfinish).2
    · cases hr
  · cases he

end Ways

namespace AgentService

variable {ω : Type} {svc : AgentService ω}

theorem appends_recordReport (iteration : Nat) (calls : List CodeModeCallResult) :
    Appends (recordReport iteration calls : Call (Turn ω) (List ToolCallRecord)) := by
  induction calls generalizing iteration with
  | nil => exact appends_pure []
  | cons call calls ih =>
    refine (adds_recordToolCall _).appends.bind fun record => ?_
    exact (ih (iteration + 1)).bind fun records => appends_pure _

theorem asks_completeProviderForRun {request : CompletionRequest} {t t' : Turn ω} {items : List String}
    {r : Except Failure String}
    (h : Op.Emits (svc.completeProviderForRun request) t items r t') :
    ∃ l, t'.events = t.events ++ .asked request :: l := by
  have hrest : Appends (onTurn (svc.provider.complete request) >>= fun reply =>
      log (.framed request reply) >>= fun _ => pure reply) :=
    (adds_onTurn _).appends.bind fun reply =>
      (adds_log (MessageService.costs_framed request reply)).appends.bind
        fun _ => appends_pure reply
  obtain ⟨l, hl⟩ := hrest { t with events := t.events ++ [.asked request] } items r t' h
  refine ⟨l, ?_⟩
  rw [hl, List.append_assoc]
  rfl

/-- **A reply to a report asks the provider with the report.** -/
theorem asks_answerFromReport {history : List StoredMessage} {report : CodeModeExecutionReport}
    {t t' : Turn ω} {items : List String} {text : String}
    (h : Op.Emits (svc.answerFromReport history report) t items (.ok text) t') :
    ∃ l, t'.events = t.events ++ l ∧ .asked { messages := svc.reportHistory history report } ∈ l := by
  obtain ⟨_, _, t₁, _, hstart, hcalls, -⟩ := Op.emits_bind_ok h
  cases (emits_done.mp hstart).2
  obtain ⟨_, calls, t₂, _, hrecord, hreply, -⟩ := Op.emits_bind_ok hcalls
  obtain ⟨_, reply, t₃, _, hask, hverify, -⟩ := Op.emits_bind_ok hreply
  obtain ⟨l, hl⟩ := appends_recordReport 0 report.calls _ _ _ _ hrecord
  obtain ⟨l', hl'⟩ := asks_completeProviderForRun (emits_orFinish_ok hask)
  have hrest : Appends (orFinish "output verification failed after code mode execution"
      (svc.verifyFinalAnswer (svc.reportHistory history report) reply calls) >>= fun reply =>
      observeIteration 0 >>= fun _ => (pure reply : Call (Turn ω) String)) :=
    (MessageService.adds_verifyFinalAnswer _ _ _).appends.orFinish.bind
      fun reply => (adds_observeIteration 0).appends.bind fun _ =>
        appends_pure reply
  obtain ⟨l'', hl''⟩ := hrest _ _ _ _ hverify
  refine ⟨[.started] ++ l ++ .asked { messages := svc.reportHistory history report } :: l' ++ l'', ?_, ?_⟩
  · rw [hl'', hl', hl]
    simp
  · simp

end AgentService

/-! ## What the path leaves on the log -/

/-- What the code-mode path can leave on the log of a turn whose run has the events `before` and then
`after`, and what it comes to. -/
inductive CodeModeTrail {ω : Type} (svc : AgentService ω) (history : List StoredMessage)
    (forceShadow : Bool) (before after : List TurnEvent) :
    List PathEvent → Except Failure (Option CodeModeCompletion) → Prop
  /-- There is nothing to plan with, or no plan. -/
  | idle (record : CodeModeAuditRecord) :
      CodeModeTrail svc history forceShadow before after [.audited record forceShadow .none] (.ok none)
  | unplanned (failure : Failure) :
      CodeModeTrail svc history forceShadow before after [] (.error failure)
  | abandoned {plan : CodeModePlan} {err : ExecutionError} {spawned : List CodeModeToolCall}
      (record : CodeModeAuditRecord) (h : spawned ≠ [] → err.Abandons svc.agentCodeMode plan) :
      CodeModeTrail svc history forceShadow before after (spawned.map .spawned ++
        [.executed plan (.error err), .audited record forceShadow .none]) (.ok none)
  | withheld {plan : CodeModePlan} {report : CodeModeExecutionReport} {record : CodeModeAuditRecord}
      {change : CodeModeCircuitChange}
      (h : (svc.agentCodeMode.shadowMode || forceShadow || change == .opened) = true)
      (hopened : change = .opened →
        svc.agentCodeMode.timeoutAutoShadowEnabled = true ∧ 0 < record.timedOutCalls) :
      CodeModeTrail svc history forceShadow before after (plan.calls.map .spawned ++
        [.executed plan (.ok report), .audited record forceShadow change]) (.ok none)
  | panicked {plan : CodeModePlan} {report : CodeModeExecutionReport} (record : CodeModeAuditRecord)
      {change : CodeModeCircuitChange} (h : change ≠ .opened) :
      CodeModeTrail svc history forceShadow before after (plan.calls.map .spawned ++
        [.executed plan (.ok report), .audited record forceShadow change]) (.error .panicked)
  | unanswered {plan : CodeModePlan} {report : CodeModeExecutionReport} (record : CodeModeAuditRecord)
      {change : CodeModeCircuitChange} (h : change ≠ .opened) (err : ProviderError) :
      CodeModeTrail svc history forceShadow before after (plan.calls.map .spawned ++
        [.executed plan (.ok report), .audited record forceShadow change,
          .answered report (.error err)]) (.error (.error err))
  | answered {plan : CodeModePlan} {report : CodeModeExecutionReport} (record : CodeModeAuditRecord)
      {change : CodeModeCircuitChange} (h : change ≠ .opened) (completion : CodeModeCompletion)
      (hasked : ∃ l, after = before ++ l ∧
        .asked { messages := svc.reportHistory history report } ∈ l) :
      CodeModeTrail svc history forceShadow before after (plan.calls.map .spawned ++
        [.executed plan (.ok report), .audited record forceShadow change,
          .answered report (.ok completion.intoText)]) (.ok (some completion))

theorem opened_of_update {ratioReached : Nat → Nat → Bool} {settings : AgentCodeModeSettings}
    {record : CodeModeAuditRecord} {circuit : TimeoutCircuit}
    (h : (updateCodeModeTimeoutCircuit ratioReached settings record circuit).1 = .opened) :
    settings.timeoutAutoShadowEnabled = true ∧ 0 < record.timedOutCalls := by
  unfold updateCodeModeTimeoutCircuit at h
  dsimp only at h
  split_ifs at h with hoff hopen
  have henabled : settings.timeoutAutoShadowEnabled = true := by
    by_contra hdisabled
    exact hoff (by simp [hdisabled])
  refine ⟨henabled, ?_⟩
  by_contra htimed
  have hquiet : shouldWarnCodeModeTimeouts ratioReached record = false := by
    simp [shouldWarnCodeModeTimeouts, htimed]
  simp [shouldOpenCodeModeTimeoutCircuit, nextCodeModeTimeoutStreak, hquiet] at hopen

@[simp] theorem CodeModeAuditRecord.onChange_timedOutCalls (record : CodeModeAuditRecord)
    (forceShadow : Bool) (change : CodeModeCircuitChange) :
    (record.onChange forceShadow change).timedOutCalls = record.timedOutCalls := by
  cases change with
  | none => rfl
  | opened => rfl
  | closed =>
    unfold CodeModeAuditRecord.onChange
    split_ifs <;> rfl

namespace AgentService

variable {ω : Type} {svc : AgentService ω}

theorem emits_executePlan_bind {α : Type} {plan : CodeModePlan} {tools : List McpToolInfo}
    {f : Except ExecutionError CodeModeExecutionReport → Call (AgentTurn ω) α} {s s' : AgentTurn ω}
    {items : List String} {r : Except Failure α} :
    Op.Emits (svc.executePlan plan tools >>= f) s items r s' ↔
      let run := executeInEnvironment svc.json svc.agentCodeMode svc.runtime svc.codeModeChild plan tools
        s.turn.world
      Op.Emits (f run.result) { s with
        turn := { s.turn with world := run.world }
        path := s.path ++ (run.spawned.map .spawned ++ [.executed plan run.result]) } items r s' :=
  Iff.rfl

theorem emits_audit_pure {α : Type} {record : CodeModeAuditRecord} {forceShadow : Bool}
    {change : CodeModeCircuitChange} {a : α} {s s' : AgentTurn ω} {items : List String}
    {r : Except Failure α} :
    Op.Emits (do
      audit record forceShadow change
      pure a : Call (AgentTurn ω) α) s items r s' ↔
      items = [] ∧ r = .ok a ∧ s' = { s with path := s.path ++ [.audited record forceShadow change] } :=
  Op.emits_pure

theorem emits_audit_bind {α : Type} {record : CodeModeAuditRecord} {forceShadow : Bool}
    {change : CodeModeCircuitChange} {f : Unit → Call (AgentTurn ω) α} {s s' : AgentTurn ω}
    {items : List String} {r : Except Failure α} :
    Op.Emits (audit record forceShadow change >>= f) s items r s' ↔
      Op.Emits (f ()) { s with path := s.path ++ [.audited record forceShadow change] } items r s' :=
  Iff.rfl

theorem append_two {α : Type} (a b : List α) (x y : α) :
    a ++ (b ++ [x]) ++ [y] = a ++ (b ++ [x, y]) := by
  simp only [List.append_assoc, List.cons_append, List.nil_append]

theorem append_three {α : Type} (a b : List α) (x y z : α) :
    a ++ (b ++ [x]) ++ [y] ++ [z] = a ++ (b ++ [x, y, z]) := by
  simp only [List.append_assoc, List.cons_append, List.nil_append]

/-- **The code-mode path leaves such a trail.** -/
theorem trail_completeWithCodeMode {history : List StoredMessage} {tools : List McpToolInfo}
    {forceShadow deferSuccessFinish : Bool} {s s' : AgentTurn ω} {items : List String}
    {r : Except Failure (Option CodeModeCompletion)}
    (h : Op.Emits (svc.completeWithCodeMode history tools forceShadow deferSuccessFinish) s items r s') :
    ∃ l, s'.path = s.path ++ l ∧
      CodeModeTrail svc history forceShadow s.turn.events s'.turn.events l r := by
  unfold completeWithCodeMode at h
  dsimp only at h
  by_cases hempty : (tools.filter (CodeModePolicy.allowsTool svc.agentCodeMode)).isEmpty = true
  · rw [if_pos hempty] at h
    obtain ⟨-, rfl, rfl⟩ := emits_audit_pure.mp h
    exact ⟨_, rfl, .idle _⟩
  rw [if_neg hempty] at h
  rcases Op.emits_bind.mp h with ⟨_, plan, s₁, _, hplan, hrest, -⟩ | ⟨failure, hplan, rfl⟩
  swap
  · obtain ⟨t₁, -, rfl⟩ := emits_inTurn.mp hplan
    exact ⟨[], (List.append_nil _).symm, .unplanned failure⟩
  obtain ⟨t₁, hplanned, rfl⟩ := emits_inTurn.mp hplan
  obtain ⟨l₁, hl₁⟩ := (adds_onTurn _).appends _ _ _ _ hplanned
  cases plan with
  | none =>
    obtain ⟨-, rfl, rfl⟩ := emits_audit_pure.mp hrest
    exact ⟨_, rfl, .idle _⟩
  | some plan =>
    have hrun := emits_executePlan_bind.mp hrest
    clear hrest h hplan
    dsimp only at hrun
    generalize hrunning : executeInEnvironment svc.json svc.agentCodeMode svc.runtime svc.codeModeChild
      plan (tools.filter (CodeModePolicy.allowsTool svc.agentCodeMode)) t₁.world = running at hrun
    cases hresult : running.result with
    | error err =>
      rw [hresult] at hrun
      obtain ⟨-, rfl, rfl⟩ := emits_audit_pure.mp hrun
      refine ⟨_, append_two _ _ _ _, .abandoned _ fun hspawned => ?_⟩
      rw [← hrunning] at hresult hspawned
      exact environment_error hresult hspawned
    | ok report =>
      have hspawned : running.spawned = plan.calls := by
        rw [← hrunning] at hresult ⊢
        exact (environment_ok hresult).1
      rw [hresult] at hrun
      have hcircuit := emits_onCircuit_bind.mp hrun
      clear hrun
      dsimp only at hcircuit
      generalize hupdate : updateCodeModeTimeoutCircuit svc.ratioReached svc.agentCodeMode
        (svc.reportAudit plan report forceShadow) (svc.otherTurns running.world s.circuit) = update
        at hcircuit
      have haudit := emits_audit_bind.mp hcircuit
      clear hcircuit
      dsimp only at haudit
      rw [hspawned] at haudit
      by_cases hback :
          (svc.agentCodeMode.shadowMode || forceShadow || update.1 == .opened) = true
      · rw [if_pos hback] at haudit
        obtain ⟨-, rfl, rfl⟩ := Op.emits_pure.mp haudit
        refine ⟨_, append_two _ _ _ _, .withheld hback fun hopened => ?_⟩
        rw [← hupdate] at hopened
        rw [CodeModeAuditRecord.onChange_timedOutCalls]
        exact opened_of_update hopened
      · rw [if_neg hback] at haudit
        have hchange : update.1 ≠ .opened := by
          intro hopened
          exact hback (by simp [hopened])
        rcases Op.emits_bind.mp haudit with ⟨_, result, s₂, _, hattempt, hend, -⟩ | ⟨failure, hattempt, rfl⟩
        · rcases emits_attempt hattempt with ⟨text, hanswer, hr⟩ | ⟨err, hanswer, hr⟩ | ⟨-, hr⟩
          · cases hr
            obtain ⟨t₂, hanswered, rfl⟩ := emits_inTurn.mp hanswer
            obtain ⟨l₂, hl₂, hasked⟩ := asks_answerFromReport hanswered
            have hevents : t₂.events = s.turn.events ++ (l₁ ++ l₂) := by
              rw [hl₂, hl₁, List.append_assoc]
            have hnoted := emits_note_bind.mp hend
            by_cases hdefer : deferSuccessFinish = true
            · rw [if_pos hdefer] at hnoted
              obtain ⟨-, rfl, rfl⟩ := Op.emits_pure.mp hnoted
              exact ⟨_, append_three _ _ _ _ _, .answered _ hchange (.pendingStream text)
                ⟨l₁ ++ l₂, hevents, List.mem_append_right _ hasked⟩⟩
            · rw [if_neg hdefer] at hnoted
              rcases Op.emits_bind.mp hnoted with ⟨_, _, _, _, hfinish, hpure, -⟩ | ⟨_, hfinish, -⟩
              · obtain ⟨-, rfl, rfl⟩ := Op.emits_pure.mp hpure
                obtain ⟨t₃, hfinished, rfl⟩ := emits_inTurn.mp hfinish
                obtain ⟨l₃, hl₃⟩ : ∃ l, t₃.events = t₂.events ++ l :=
                  appends_finishRun _ _ _ _ _ hfinished
                have hfinal : t₃.events = s.turn.events ++ (l₁ ++ l₂ ++ l₃) := by
                  rw [hl₃, hevents, List.append_assoc]
                exact ⟨_, append_three _ _ _ _ _, .answered _ hchange (.finished text)
                  ⟨_, hfinal, List.mem_append_left _ (List.mem_append_right _ hasked)⟩⟩
              · obtain ⟨t₃, hfinished, -⟩ := emits_inTurn.mp hfinish
                cases (emits_done.mp hfinished).2
          · cases hr
            obtain ⟨t₂, -, rfl⟩ := emits_inTurn.mp hanswer
            obtain ⟨-, rfl, rfl⟩ := Op.emits_fail.mp (emits_note_bind.mp hend)
            exact ⟨_, append_three _ _ _ _ _, .unanswered _ hchange err⟩
          · cases hr
        · rcases emits_attempt hattempt with ⟨_, _, hr⟩ | ⟨_, _, hr⟩ | ⟨hpanic, hr⟩
          · cases hr
          · cases hr
          · cases hr
            obtain ⟨t₂, -, rfl⟩ := emits_inTurn.mp hpanic
            exact ⟨_, append_two _ _ _ _, .panicked _ hchange⟩

/-- The path, with its errors caught. -/
def caught {α : Type} : Except Failure (Option α) → Except Failure (Option α)
  | .ok completion => .ok completion
  | .error (.error _) => .ok none
  | .error .panicked => .error .panicked

theorem trail_tryCodeMode {history : List StoredMessage} {tools : List McpToolInfo}
    {deferSuccessFinish : Bool} {s s' : AgentTurn ω} {items : List String}
    {r : Except Failure (Option CodeModeCompletion)}
    (h : Op.Emits (svc.tryCodeMode history tools deferSuccessFinish) s items r s') :
    (s'.path = s.path ∧ r = .ok none) ∨ ∃ attempted l r', s'.path = s.path ++ .attempted attempted :: l ∧
      CodeModeTrail svc history (attempted == .probe) s.turn.events s'.turn.events l r' ∧
      r = caught r' := by
  unfold tryCodeMode at h
  by_cases henabled : (!svc.agentCodeMode.enabled) = true
  · rw [if_pos henabled] at h
    obtain ⟨-, rfl, rfl⟩ := Op.emits_pure.mp h
    exact .inl ⟨rfl, rfl⟩
  rw [if_neg henabled] at h
  have hattempted := emits_onCircuit_bind.mp h
  cases hattempt : (nextCodeModeAttempt svc.agentCodeMode
      (svc.otherTurns s.turn.world s.circuit)).1 with
  | none =>
    rw [hattempt] at hattempted
    obtain ⟨-, rfl, rfl⟩ := Op.emits_pure.mp hattempted
    exact .inl ⟨rfl, rfl⟩
  | some attempted =>
    rw [hattempt] at hattempted
    have hnoted := emits_note_bind.mp hattempted
    -- the path, behind the event of the attempt
    have hpath {items' : List String} {r' : Except Failure (Option CodeModeCompletion)} {s₁ : AgentTurn ω}
        (hmode : Op.Emits (svc.completeWithCodeMode history tools (attempted == .probe)
          deferSuccessFinish) { s with
            circuit := (nextCodeModeAttempt svc.agentCodeMode
              (svc.otherTurns s.turn.world s.circuit)).2
            path := s.path ++ [.attempted attempted] } items' r' s₁) :
        ∃ l, s₁.path = s.path ++ .attempted attempted :: l ∧
          CodeModeTrail svc history (attempted == .probe) s.turn.events s₁.turn.events l r' := by
      obtain ⟨l, hl, htrail⟩ := trail_completeWithCodeMode hmode
      refine ⟨l, ?_, htrail⟩
      rw [hl, List.append_assoc]
      rfl
    rcases Op.emits_bind.mp hnoted with ⟨_, result, s₁, _, hresult, hend, -⟩ | ⟨failure, hresult, rfl⟩
    · rcases emits_attempt hresult with ⟨completion, hmode, hr⟩ | ⟨err, hmode, hr⟩ | ⟨-, hr⟩
      · cases hr
        obtain ⟨-, rfl, rfl⟩ := Op.emits_pure.mp hend
        obtain ⟨l, hl, htrail⟩ := hpath hmode
        exact .inr ⟨attempted, l, _, hl, htrail, rfl⟩
      · cases hr
        obtain ⟨-, rfl, rfl⟩ := Op.emits_pure.mp hend
        obtain ⟨l, hl, htrail⟩ := hpath hmode
        exact .inr ⟨attempted, l, _, hl, htrail, rfl⟩
      · cases hr
    · rcases emits_attempt hresult with ⟨_, _, hr⟩ | ⟨_, _, hr⟩ | ⟨hmode, hr⟩
      · cases hr
      · cases hr
      · cases hr
        obtain ⟨l, hl, htrail⟩ := hpath hmode
        exact .inr ⟨attempted, l, _, hl, htrail, rfl⟩

end AgentService

/-! ## When a turn falls back -/

/-- What sends a turn that has started a call back to the loop: its execution was given up, its report has
opened the circuit, or the reply to its report failed. -/
inductive FallsBack {ω : Type} (svc : AgentService ω) (l : List PathEvent) : Prop
  | abandoned {plan : CodeModePlan} {err : ExecutionError} (h : .executed plan (.error err) ∈ l)
      (hwhy : err.Abandons svc.agentCodeMode plan)
  | opened {record : CodeModeAuditRecord} {forceShadow : Bool}
      (h : .audited record forceShadow .opened ∈ l)
      (henabled : svc.agentCodeMode.timeoutAutoShadowEnabled = true) (htimed : 0 < record.timedOutCalls)
  | unanswered {report : CodeModeExecutionReport} {err : ProviderError}
      (h : .answered report (.error err) ∈ l)

/-- The text is the reply to a report on an execution, with which the provider was asked. -/
def AnswersFrom {ω : Type} (svc : AgentService ω) (history : List StoredMessage)
    (before after : List TurnEvent) (l : List PathEvent) (text : String) : Prop :=
  ∃ plan report, .executed plan (.ok report) ∈ l ∧ .answered report (.ok text) ∈ l ∧
    ∃ events, after = before ++ events ∧ .asked { messages := svc.reportHistory history report } ∈ events

/-- What a turn that has started a call does: it enters the loop exactly in these cases, and otherwise
answers from the report or fails. -/
structure StartedOnce {ω : Type} (svc : AgentService ω) (history : List StoredMessage)
    (before after : List TurnEvent) (l : List PathEvent) (result : Except Failure String) : Prop where
  looped_iff : .looped ∈ l ↔ FallsBack svc l
  answers : .looped ∉ l → ∀ text, result = .ok text → AnswersFrom svc history before after l text

section StartedOnce

variable {ω α : Type} {svc : AgentService ω} {history : List StoredMessage}
  {before after after' : List TurnEvent} {l l' : List PathEvent}
  {r : Except Failure (Option CodeModeCompletion)}

theorem FallsBack.mono (h : FallsBack svc l) (hl : ∀ event ∈ l, event ∈ l') : FallsBack svc l' := by
  cases h with
  | abandoned h hwhy => exact .abandoned (hl _ h) hwhy
  | opened h henabled htimed => exact .opened (hl _ h) henabled htimed
  | unanswered h => exact .unanswered (hl _ h)

theorem FallsBack.of_cons_attempted {attempted : CodeModeAttempt}
    (h : FallsBack svc (.attempted attempted :: l)) : FallsBack svc l := by
  cases h with
  | abandoned h hwhy => exact .abandoned (by simpa using h) hwhy
  | opened h henabled htimed => exact .opened (by simpa using h) henabled htimed
  | unanswered h => exact .unanswered (by simpa using h)

theorem AnswersFrom.mono {text : String} (h : AnswersFrom svc history before after l text)
    (hl : ∀ event ∈ l, event ∈ l') (hafter : ∃ events, after' = after ++ events) :
    AnswersFrom svc history before after' l' text := by
  obtain ⟨plan, report, hexecuted, hanswered, events, rfl, hasked⟩ := h
  obtain ⟨events', rfl⟩ := hafter
  exact ⟨plan, report, hl _ hexecuted, hl _ hanswered, events ++ events', List.append_assoc _ _ _,
    List.mem_append_left _ hasked⟩

theorem looped_not_mem_of_trail {forceShadow : Bool}
    (h : CodeModeTrail svc history forceShadow before after l r) : .looped ∉ l := by
  cases h <;> simp

theorem fallsBack_of_trail (hshadow : svc.agentCodeMode.shadowMode = false)
    (h : CodeModeTrail svc history false before after l r) (hnone : AgentService.caught r = .ok none)
    (hstarted : ∃ call, .spawned call ∈ l) : FallsBack svc l := by
  obtain ⟨call, hcall⟩ := hstarted
  cases h with
  | idle record => simp at hcall
  | unplanned failure => simp at hcall
  | @abandoned plan err spawned record hwhy =>
    refine .abandoned (List.mem_append_right _ (List.mem_cons_self ..)) (hwhy ?_)
    rintro rfl
    simp at hcall
  | @withheld plan report record change hback hopened =>
    have hchange : change = .opened := by simpa [hshadow] using hback
    obtain ⟨henabled, htimed⟩ := hopened hchange
    subst hchange
    exact .opened (List.mem_append_right _ (List.mem_cons_of_mem _ (List.mem_singleton_self _)))
      henabled htimed
  | panicked record hchange => cases hnone
  | @unanswered plan report record change hchange err =>
    have hmem : PathEvent.answered report (.error err) ∈ [PathEvent.executed plan (.ok report),
        .audited record false change, .answered report (.error err)] := by
      simp
    exact .unanswered (List.mem_append_right _ hmem)
  | answered record hchange completion hasked => cases hnone

/-- A path that ends otherwise has no reason to, and its completion is the reply to its report. -/
theorem answersFrom_of_trail {forceShadow : Bool}
    (h : CodeModeTrail svc history forceShadow before after l r)
    (hnone : AgentService.caught r ≠ .ok none) (hstarted : ∃ call, .spawned call ∈ l) :
    ¬ FallsBack svc l ∧
      ∀ completion, r = .ok (some completion) →
        AnswersFrom svc history before after l completion.intoText := by
  obtain ⟨call, hcall⟩ := hstarted
  cases h with
  | idle record => exact absurd rfl hnone
  | unplanned failure => simp at hcall
  | abandoned record hwhy => exact absurd rfl hnone
  | withheld hback hopened => exact absurd rfl hnone
  | panicked record hchange =>
    refine ⟨fun h => ?_, nofun⟩
    cases h with
    | abandoned h hwhy => simp at h
    | opened h henabled htimed => simp [hchange.symm] at h
    | unanswered h => simp at h
  | unanswered record hchange err => exact absurd rfl hnone
  | @answered plan report record change hchange completion hasked =>
    refine ⟨fun h => ?_, fun completion' hc => ?_⟩
    · cases h with
      | abandoned h hwhy => simp at h
      | opened h henabled htimed => simp [hchange.symm] at h
      | unanswered h => simp at h
    · cases hc
      obtain ⟨events, hevents, hmem⟩ := hasked
      exact ⟨plan, report, by simp, by simp, events, hevents, hmem⟩

/-- A turn on the code-mode path, whatever it goes on with after it. -/
theorem startedOnce_tryCodeMode (hshadow : svc.agentCodeMode.shadowMode = false)
    {tools : List McpToolInfo} {deferSuccessFinish : Bool} (textOf : α → String)
    {finish : Option CodeModeCompletion → Call (AgentTurn ω) α}
    (hloop : ∀ s items r s', Op.Emits (finish none) s items r s' → s'.path = s.path ++ [.looped])
    (hsome : ∀ completion s items r s', Op.Emits (finish (some completion)) s items r s' →
      s'.path = s.path ∧ (∃ events, s'.turn.events = s.turn.events ++ events) ∧
        ∀ a, r = .ok a → textOf a = completion.intoText)
    {s s' : AgentTurn ω} {items : List String} {r : Except Failure α}
    (h : Op.Emits (svc.tryCodeMode history tools deferSuccessFinish >>= finish) s items r s') :
    ∃ l, s'.path = s.path ++ l ∧ (.attempted .probe ∉ l → (∃ call, .spawned call ∈ l) →
      StartedOnce svc history s.turn.events s'.turn.events l (r.map textOf)) := by
  rcases Op.emits_bind.mp h with ⟨_, completion, s₁, _, htry, hrest, -⟩ | ⟨failure, htry, rfl⟩
  · rcases AgentService.trail_tryCodeMode htry with ⟨hpath, hr⟩ | ⟨attempted, l, r', hpath, htrail, hr⟩
    · cases hr
      refine ⟨[.looped], ?_, fun _ ⟨call, hcall⟩ => ?_⟩
      · rw [hloop _ _ _ _ hrest, hpath]
      · simp at hcall
    · cases completion with
      | none =>
        refine ⟨.attempted attempted :: l ++ [.looped], ?_, fun hprobe ⟨call, hcall⟩ => ?_⟩
        · rw [hloop _ _ _ _ hrest, hpath, List.append_assoc]
        · have hnormal : attempted = .normal := by
            cases attempted with
            | normal => rfl
            | probe => simp at hprobe
          subst hnormal
          have hfalls := fallsBack_of_trail hshadow htrail hr.symm ⟨call, by simpa using hcall⟩
          refine ⟨⟨fun _ => hfalls.mono fun event hevent => ?_, fun _ => by simp⟩, fun hnot => ?_⟩
          · simp [hevent]
          · exact absurd (by simp) hnot
      | some completion =>
        obtain ⟨hsame, hevents, htext⟩ := hsome _ _ _ _ _ hrest
        refine ⟨.attempted attempted :: l, hsame.trans hpath, fun _ ⟨call, hcall⟩ => ?_⟩
        have hcompleted : r' = .ok (some completion) := by
          rcases r' with (e | _) | c
          · cases hr
          · cases hr
          · exact (congrArg Except.ok (Except.ok.inj hr)).symm
        obtain ⟨hnot, hanswers⟩ := answersFrom_of_trail htrail (by rw [← hr]; nofun)
          ⟨call, by simpa using hcall⟩
        refine ⟨⟨fun hmem => ?_, fun hfalls => absurd hfalls.of_cons_attempted hnot⟩,
          fun _ text hr' => ?_⟩
        · exact absurd (by simpa using hmem) (looped_not_mem_of_trail htrail)
        · have hanswer := (hanswers completion hcompleted).mono
            (fun event hevent => List.mem_cons_of_mem (.attempted attempted) hevent) hevents
          rcases r with _ | a
          · cases hr'
          · cases hr'
            rw [htext a rfl]
            exact hanswer
  · rcases AgentService.trail_tryCodeMode htry with ⟨-, hr⟩ | ⟨attempted, l, r', hpath, htrail, hr⟩
    · cases hr
    · refine ⟨.attempted attempted :: l, hpath, fun _ ⟨call, hcall⟩ => ?_⟩
      obtain ⟨hnot, -⟩ := answersFrom_of_trail htrail (by rw [← hr]; nofun) ⟨call, by simpa using hcall⟩
      refine ⟨⟨fun hmem => ?_, fun hfalls => absurd hfalls.of_cons_attempted hnot⟩, nofun⟩
      exact absurd (by simpa using hmem) (looped_not_mem_of_trail htrail)

end StartedOnce

namespace AgentService

variable {ω : Type} {svc : AgentService ω}

theorem emits_turnTools {s s' : AgentTurn ω} {items : List String}
    {r : Except Failure (List McpToolInfo)} (h : Op.Emits svc.turnTools s items r s') :
    s'.path = s.path ∧ s'.turn.events = s.turn.events := by
  unfold turnTools at h
  by_cases hmcp : (!svc.mcpEnabled) = true
  · rw [if_pos hmcp] at h
    obtain ⟨-, -, rfl⟩ := Op.emits_pure.mp h
    exact ⟨rfl, rfl⟩
  · rw [if_neg hmcp] at h
    obtain ⟨t', ht, rfl⟩ := emits_inTurn.mp h
    cases (emits_done.mp ht).2
    exact ⟨rfl, rfl⟩

theorem startedOnce_turn {α : Type} (hshadow : svc.agentCodeMode.shadowMode = false)
    {history : List StoredMessage} {deferSuccessFinish : Bool} (textOf : α → String)
    {plain : Call (Turn ω) α} {finish : List McpToolInfo → Option CodeModeCompletion →
      Call (AgentTurn ω) α}
    (hloop : ∀ tools s items r s', Op.Emits (finish tools none) s items r s' →
      s'.path = s.path ++ [.looped])
    (hsome : ∀ tools completion s items r s', Op.Emits (finish tools (some completion)) s items r s' →
      s'.path = s.path ∧ (∃ events, s'.turn.events = s.turn.events ++ events) ∧
        ∀ a, r = .ok a → textOf a = completion.intoText)
    {s s' : AgentTurn ω} {items : List String} {r : Except Failure α}
    (h : Op.Emits (svc.turnTools >>= fun tools =>
      if tools.isEmpty then inTurn plain
      else svc.tryCodeMode history tools deferSuccessFinish >>= finish tools) s items r s') :
    ∃ l, s'.path = s.path ++ l ∧ (.attempted .probe ∉ l → (∃ call, .spawned call ∈ l) →
      StartedOnce svc history s.turn.events s'.turn.events l (r.map textOf)) := by
  rcases Op.emits_bind.mp h with ⟨_, tools, s₁, _, htools, hrest, -⟩ | ⟨failure, htools, rfl⟩
  · obtain ⟨hpath, hevents⟩ := emits_turnTools htools
    by_cases hempty : tools.isEmpty = true
    · rw [if_pos hempty] at hrest
      obtain ⟨t', -, rfl⟩ := emits_inTurn.mp hrest
      exact ⟨[], by rw [hpath, List.append_nil], fun _ ⟨_, hcall⟩ => absurd hcall List.not_mem_nil⟩
    · rw [if_neg hempty] at hrest
      rw [← hpath, ← hevents]
      exact startedOnce_tryCodeMode hshadow textOf (hloop tools) (hsome tools) hrest
  · obtain ⟨hpath, -⟩ := emits_turnTools htools
    exact ⟨[], by rw [hpath, List.append_nil], fun _ ⟨_, hcall⟩ => absurd hcall List.not_mem_nil⟩

end AgentService

/-- **When a turn falls back.** A turn that is not in shadow mode and no probe, and has started a call,
enters the loop exactly if its execution was given up, its report opened the circuit, or the reply to its
report failed; otherwise it answers from its report or fails. -/
theorem code_mode_falls_back {ω : Type} (svc : AgentService ω) (history : List StoredMessage)
    (s : AgentTurn ω) (hshadow : svc.agentCodeMode.shadowMode = false) :
    (∀ items r s', Op.Emits (svc.completeWithOptionalMcp history) s items r s' →
      ∃ l, s'.path = s.path ++ l ∧ (.attempted .probe ∉ l → (∃ call, .spawned call ∈ l) →
        StartedOnce svc history s.turn.events s'.turn.events l (r.map CompletionOutcome.text))) ∧
    (∀ items r s', Op.Emits (svc.completeWithOptionalMcpStream history) s items r s' →
      ∃ l, s'.path = s.path ++ l ∧ (.attempted .probe ∉ l → (∃ call, .spawned call ∈ l) →
        StartedOnce svc history s.turn.events s'.turn.events l r)) := by
  constructor
  · intro items r s' h
    refine AgentService.startedOnce_turn hshadow CompletionOutcome.text ?_ ?_ h
    · intro tools s items r s' hfinish
      rcases Op.emits_bind.mp (emits_note_bind.mp hfinish) with
        ⟨_, text, s₁, _, hloop, hpure, -⟩ | ⟨failure, hloop, -⟩
      · obtain ⟨t', -, rfl⟩ := emits_inTurn.mp hloop
        obtain ⟨-, -, rfl⟩ := Op.emits_pure.mp hpure
        rfl
      · obtain ⟨t', -, rfl⟩ := emits_inTurn.mp hloop
        rfl
    · intro tools completion s items r s' hfinish
      obtain ⟨-, rfl, rfl⟩ := Op.emits_pure.mp hfinish
      refine ⟨rfl, ⟨[], (List.append_nil _).symm⟩, fun a ha => ?_⟩
      cases ha
      rfl
  · intro items r s' h
    have hturn := AgentService.startedOnce_turn hshadow id ?_ ?_ h
    · rwa [show r.map id = r by cases r <;> rfl] at hturn
    · intro tools s items r s' hfinish
      obtain ⟨t', -, rfl⟩ := emits_inTurn.mp (emits_note_bind.mp hfinish)
      rfl
    · intro tools completion s items r s' hfinish
      cases completion with
      | pendingStream text =>
        rcases Op.emits_bind.mp hfinish with ⟨_, _, s₁, _, hreplay, hend, -⟩ | ⟨failure, hreplay, rfl⟩
        · obtain ⟨t₁, hreplayed, rfl⟩ := emits_inTurn.mp hreplay
          obtain ⟨l, hl⟩ := appends_replayTextOrFinish _ _ _ _ _ hreplayed
          rcases Op.emits_bind.mp hend with ⟨_, _, s₂, _, hfinished, hpure, -⟩ | ⟨failure, hfinished, -⟩
          · obtain ⟨t₂, hrun, rfl⟩ := emits_inTurn.mp hfinished
            obtain ⟨-, rfl, rfl⟩ := Op.emits_pure.mp hpure
            obtain ⟨l', hl'⟩ : ∃ l', t₂.events = t₁.events ++ l' := appends_finishRun _ _ _ _ _ hrun
            refine ⟨rfl, ⟨l ++ l', ?_⟩, fun a ha => (Except.ok.inj ha).symm⟩
            rw [← List.append_assoc, ← hl]
            exact hl'
          · obtain ⟨t₂, hrun, -⟩ := emits_inTurn.mp hfinished
            cases (emits_done.mp hrun).2
        · obtain ⟨t₁, hreplayed, rfl⟩ := emits_inTurn.mp hreplay
          exact ⟨rfl, appends_replayTextOrFinish _ _ _ _ _ hreplayed, nofun⟩
      | finished text =>
        rcases Op.emits_bind.mp hfinish with ⟨_, _, s₁, _, hreplay, hpure, -⟩ | ⟨failure, hreplay, rfl⟩
        · obtain ⟨t₁, hreplayed, rfl⟩ := emits_inTurn.mp hreplay
          obtain ⟨-, rfl, rfl⟩ := Op.emits_pure.mp hpure
          exact ⟨rfl, appends_replayText _ _ _ _ _ hreplayed, fun a ha => (Except.ok.inj ha).symm⟩
        · obtain ⟨t₁, hreplayed, rfl⟩ := emits_inTurn.mp hreplay
          exact ⟨rfl, appends_replayText _ _ _ _ _ hreplayed, nofun⟩

namespace Sample

/-- A plan to look at the clock twice. -/
def clockPlan : Value := .json [("calls", .array (.ofList [clockCall, clockCall]))]

def clockJson : SerdeJson :=
  ⟨fun text => if text = render clockPlan then .ok clockPlan else clockService.json.fromStr text, render⟩

/-- A call takes one text off the world; with two texts left the budget is used up. -/
def clockRuntime : CodeModeRuntime (List String) where
  now replies := (if replies.length < 3 then 3000000000 else 0, replies)
  callTool _ _ replies := (.finished (.ok (.json [("time", .string "12:00")])), replies.tail)

/-- The service with code mode, and so many calls in a chunk. -/
def clockAgent (maxParallel : Nat) : AgentService (List String) where
  toMessageService := { clockService with json := clockJson }
  mcpEnabled := true
  listTools replies := (.ok (clockTools.map fun tool => { tool with codeModeCapabilities := some {} }),
    replies)
  agentCodeMode := { enabled := true, shadowMode := false, maxParallel := maxParallel }
  codeModePlanner := llmCodeModePlanner scripted clockJson 48 8
  ratioReached timedOut executed := 2 * executed ≤ 5 * timedOut
  runtime := clockRuntime
  codeModeChild := ⟨fun _ _ => 0, fun _ _ replies => (.notStarted "no child", replies), clockRuntime⟩
  otherTurns _ circuit := circuit

def clockQuestion : List StoredMessage := [⟨.user, "What time is it?"⟩]

/-- The turn with these texts. -/
def clockRun (maxParallel : Nat) (replies : List String) :
    Outcome String (Except Failure CompletionOutcome × AgentTurn (List String)) Unit :=
  run takeAll ((clockAgent maxParallel).completeWithOptionalMcp clockQuestion
    { turn := { world := replies } }) ()

theorem emits_clockRun (maxParallel : Nat) (replies : List String) :
    Op.Emits ((clockAgent maxParallel).completeWithOptionalMcp clockQuestion)
      { turn := { world := replies } } (clockRun maxParallel replies).accepted
      (clockRun maxParallel replies).value.1 (clockRun maxParallel replies).value.2 :=
  emits_run _ ()

end Sample

/-- With one call in a chunk the budget is used up after the first: the turn falls back to the loop, which
calls the same tool again. -/
theorem code_mode_calls_again :
    let s' := (Sample.clockRun 1 [Sample.render Sample.clockPlan, "tick",
      Sample.render Sample.clockCall, "It is noon."]).value.2
    (Sample.clockAgent 1).agentCodeMode.shadowMode = false ∧ .attempted .probe ∉ s'.path ∧
      .spawned ⟨"clock", "now", .json []⟩ ∈ s'.path ∧ .looped ∈ s'.path ∧
      .executed ⟨"clock", "now", .json []⟩ ∈ s'.turn.events := by
  decide +kernel

/-- With both calls in one chunk the turn answers from the report. -/
theorem code_mode_falls_back_clock :
    let s' := (Sample.clockRun 2 [Sample.render Sample.clockPlan, "tick", "tick", "It is noon."]).value.2
    AnswersFrom (Sample.clockAgent 2) Sample.clockQuestion [] s'.turn.events s'.path "It is noon." := by
  obtain ⟨l, hl, hstarted⟩ := (code_mode_falls_back (Sample.clockAgent 2) Sample.clockQuestion _ rfl).1
    _ _ _ (Sample.emits_clockRun 2 [Sample.render Sample.clockPlan, "tick", "tick", "It is noon."])
  have hpath : l = (Sample.clockRun 2 [Sample.render Sample.clockPlan, "tick", "tick",
      "It is noon."]).value.2.path := hl.symm
  rw [hpath] at hstarted
  have hprobe : PathEvent.attempted .probe ∉ (Sample.clockRun 2 [Sample.render Sample.clockPlan, "tick",
      "tick", "It is noon."]).value.2.path := by
    decide +kernel
  have hcall : PathEvent.spawned ⟨"clock", "now", .json []⟩ ∈ (Sample.clockRun 2
      [Sample.render Sample.clockPlan, "tick", "tick", "It is noon."]).value.2.path := by
    decide +kernel
  have hnot : PathEvent.looped ∉ (Sample.clockRun 2 [Sample.render Sample.clockPlan, "tick", "tick",
      "It is noon."]).value.2.path := by
    decide +kernel
  have hok : (Sample.clockRun 2 [Sample.render Sample.clockPlan, "tick", "tick",
      "It is noon."]).value.1.map CompletionOutcome.text = .ok "It is noon." := by
    decide +kernel
  exact (hstarted hprobe ⟨_, hcall⟩).answers hnot "It is noon." hok

end Xiaomaolv
