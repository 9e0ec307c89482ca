import Xiaomaolv.Service.Turn

/-!
# The code-mode executor

A plan of tool calls, checked against a policy and executed in chunks within a runtime budget, in this
process or in a child.

* `CodeModePolicy`: the check of a plan, the budget, and the output that is kept.
* `executeChunks`, `CodeModeExecutor.execute`: the chunks, and the report on them.
* `executePlanViaSubprocess`: the same in a child, with what can happen to it.
* `llmCodeModePlanner`: the plan that a provider replies with.
* **`execute_ok`**: a report is on the whole plan; **`execute_error`**: an execution that is given up after
  a call has been started; `environment_ok`, `environment_error`: the same in either environment.
-/

namespace Xiaomaolv

/-! ## Plans -/

/-- `local` or `subprocess`. -/
inductive CodeModeExecutionMode where
  | inProcess
  | subprocess
  deriving DecidableEq, Repr

structure AgentCodeModeSettings where
  enabled : Bool := false
  shadowMode : Bool := true
  maxCalls : Nat := 6
  maxParallel : Nat := 2
  maxRuntimeMs : Nat := 2500
  maxCallTimeoutMs : Nat := 1200
  timeoutAutoShadowEnabled : Bool := false
  timeoutAutoShadowProbeEvery : Nat := 5
  timeoutAutoShadowStreak : Nat := 3
  maxResultChars : Nat := 12000
  executionMode : CodeModeExecutionMode := .inProcess
  subprocessTimeoutSecs : Nat := 8
  allowNetwork : Bool := false
  allowFilesystem : Bool := false
  allowEnv : Bool := false
  deriving DecidableEq, Repr

structure CodeModeToolCall where
  server : String
  tool : String
  arguments : Value
  deriving DecidableEq

structure CodeModePlan where
  calls : List CodeModeToolCall
  deriving DecidableEq

structure CodeModeCallResult where
  server : String
  tool : String
  ok : Bool
  result : Option Value
  error : Option String
  truncated : Bool
  deriving DecidableEq

structure CodeModeExecutionReport where
  calls : List CodeModeCallResult := []
  failedCalls : Nat := 0
  timedOutCalls : Nat := 0
  truncatedOutputs : Nat := 0
  elapsedMs : Nat := 0
  deriving DecidableEq

/-! ## The policy -/

namespace CodeModePolicy

variable (settings : AgentCodeModeSettings)

def validateToolCapabilities (tool : McpToolInfo) : Except String Unit :=
  let key := s!"{tool.server}::{tool.name}"
  match tool.codeModeCapabilities with
  | none => .error s!"code mode tool capability metadata missing for {key}"
  | some capabilities => do
    ensure (!capabilities.network || settings.allowNetwork)
      s!"code mode tool {key} requires network access but allow_network=false"
    ensure (!capabilities.filesystem || settings.allowFilesystem)
      s!"code mode tool {key} requires filesystem access but allow_filesystem=false"
    ensure (!capabilities.env || settings.allowEnv)
      s!"code mode tool {key} requires environment access but allow_env=false"

def allowsTool (tool : McpToolInfo) : Bool := (validateToolCapabilities settings tool).isOk

/-- The check of one call of a plan. -/
def validateCall (tools : List McpToolInfo) (call : CodeModeToolCall) : Except String Unit := do
  ensure (!(isBlank call.server || isBlank call.tool)) "code mode plan contains empty server/tool name"
  ensure call.arguments.isObject
    s!"code mode arguments must be object for {call.server}::{call.tool}"
  match tools.find? fun tool => tool.server = call.server && tool.name = call.tool with
  | none => .error s!"code mode plan references unavailable tool: {call.server}::{call.tool}"
  | some tool => validateToolCapabilities settings tool

def validateCalls (tools : List McpToolInfo) : List CodeModeToolCall → Except String Unit
  | [] => .ok ()
  | call :: calls => do
    validateCall settings tools call
    validateCalls tools calls

def validatePlan (plan : CodeModePlan) (tools : List McpToolInfo) : Except String Unit := do
  ensure (settings.maxParallel ≠ 0) "code mode max_parallel must be >= 1"
  ensure (!plan.calls.isEmpty) "code mode plan must include at least one tool call"
  let maxCalls := max settings.maxCalls 1
  ensure (plan.calls.length ≤ maxCalls)
    s!"code mode plan exceeds max_calls: {plan.calls.length} > {maxCalls}"
  validateCalls settings tools plan.calls

/-- The runtime budget, in nanoseconds. -/
def budget : Nat := max settings.maxRuntimeMs 1 * 1000000

def maxParallel : Nat := max settings.maxParallel 1

def perCallTimeout (elapsed : Nat) : Nat :=
  let configured := max settings.maxCallTimeoutMs 1 * 1000000
  let remaining := budget settings - elapsed
  min configured (if remaining = 0 then 1000000 else remaining)

/-- The value as it is kept, whether it was truncated, and the characters used by then. -/
def truncateResult (json : SerdeJson) (value : Value) (usedChars : Nat) : (Value × Bool) × Nat :=
  let encoded := json.toString value
  if settings.maxResultChars ≤ usedChars then
    ((.json [("truncated", .string "(code mode output budget exhausted)")], true), usedChars)
  else
    let remain := settings.maxResultChars - usedChars
    if encoded.length ≤ remain then ((value, false), usedChars + encoded.length)
    else ((.json [("truncated", .string (takeChars remain encoded ++ "...(truncated)"))], true),
      settings.maxResultChars)

end CodeModePolicy

/-! ## Planners -/

structure CodeModePlanner (ω : Type) where
  name : String
  buildPlan : List StoredMessage → List McpToolInfo → Call ω (Option CodeModePlan)

/-- `DisabledCodeModePlanner`. -/
def disabledCodeModePlanner {ω : Type} : CodeModePlanner ω where
  name := "disabled"
  buildPlan _ _ := pure none

/-- `truncate_prompt_text`. -/
def truncatePromptText (input : String) (maxChars : Nat) : String :=
  if input.length ≤ maxChars then input else takeChars maxChars input ++ "...(truncated)"

/-- `str::trim_start_matches`, so many times at most. -/
def trimStartMatches (pattern : List Char) : Nat → List Char → List Char
  | 0, text => text
  | fuel + 1, text =>
    if pattern.isPrefixOf text then trimStartMatches pattern fuel (text.drop pattern.length) else text

/-- `text.strip_prefix(pattern).unwrap_or(text)`. -/
def stripStart (pattern : String) (text : List Char) : List Char :=
  if pattern.toList.isPrefixOf text then text.drop pattern.length else text

/-- `text.strip_suffix(pattern).unwrap_or(text)`. -/
def stripEnd (pattern : String) (text : List Char) : List Char :=
  if pattern.toList.isSuffixOf text then text.take (text.length - pattern.length) else text

/-- `extract_json_payload` of the planner: a fenced text without its fence. -/
def unfenced (text : String) : String :=
  if "```".toList.isPrefixOf text.toList then
    let stripped := trimStartMatches "```".toList text.length text.toList
    let stripped := trim (String.ofList (stripStart "json" stripped))
    trim (String.ofList (stripEnd "```" stripped.toList))
  else text

/-- One item of the calls of a plan. -/
def parseCall (item : Value) : Except String CodeModeToolCall :=
  match item.asObject with
  | none => .error "code mode call item must be object"
  | some obj =>
    match (obj.find "server").bind Value.asStr, (obj.find "tool").bind Value.asStr with
    | none, _ => .error "code mode call missing server"
    | some _, none => .error "code mode call missing tool"
    | some server, some tool => .ok ⟨server, tool, (obj.find "arguments").getD (.json [])⟩

def parseCalls : List Value → Except String (List CodeModeToolCall)
  | [] => .ok []
  | item :: items => do
    let call ← parseCall item
    let calls ← parseCalls items
    pure (call :: calls)

/-- The plan that the fields of an object state themselves. -/
def parsePlanFields (obj : Fields) : Except String CodeModePlan :=
  match (obj.find "calls").bind Value.asArray with
  | some calls => (parseCalls calls).map CodeModePlan.mk
  | none =>
    match (obj.find "server").bind Value.asStr, (obj.find "tool").bind Value.asStr with
    | some server, some tool =>
      .ok ⟨[⟨server, tool, (obj.find "arguments").getD (.json [])⟩]⟩
    | _, _ => .error "code mode planner JSON missing 'calls' field"

mutual

def parsePlanFromValue : Value → Except String CodeModePlan
  | .object fields =>
    match parsePlanIn "code_mode_plan" fields with
    | some plan => plan
    | none =>
      match parsePlanIn "plan" fields with
      | some plan => plan
      | none => parsePlanFields fields
  | .array items => (parseCalls items.toList).map CodeModePlan.mk
  | _ => .error "code mode planner JSON must be object or array"

/-- The plan in a field, if the field is there. -/
def parsePlanIn (key : String) : Fields → Option (Except String CodeModePlan)
  | .nil => none
  | .cons k v fields => if k = key then some (parsePlanFromValue v) else parsePlanIn key fields

end

/-- `parse_plan_from_reply`. -/
def parsePlanFromReply (json : SerdeJson) (reply : String) : Except String CodeModePlan := do
  let payload := unfenced (trim reply)
  match json.fromStr payload with
  | .ok value => parsePlanFromValue value
  | .error _ => .error s!"invalid code mode planner JSON: {payload}"

def plannerPrompt : String :=
  "You are a secure MCP tool planner.\nReturn ONLY a JSON object, no markdown, no explanations.\nOutput schema:\n\x7b\"calls\":[\x7b\"server\":\"<server>\",\"tool\":\"<tool>\",\"arguments\":\x7b...\x7d\x7d]\x7d\nRules:\n1) Use only tools listed in AVAILABLE_TOOLS_JSON.\n2) arguments must be a JSON object.\n3) Keep plan short and bounded.\n4) If no tool is required, return \x7b\"calls\":[]\x7d."

/-- The two messages that ask for a plan. -/
def plannerRequest (json : SerdeJson) (maxToolsInPrompt maxHistoryMessages : Nat)
    (history : List StoredMessage) (tools : List McpToolInfo) : CompletionRequest :=
  let historyView := (history.reverse.take maxHistoryMessages).reverse
  let serializedTools := json.toString (.array (.ofList ((tools.take maxToolsInPrompt).map fun t =>
    .json [("server", .string t.server), ("tool", .string t.name),
      ("description", .ofOption t.description), ("input_schema", t.inputSchema)])))
  let serializedHistory := json.toString (.array (.ofList (historyView.map fun m =>
    .json [("role", .string m.role.asStr), ("content", .string (truncatePromptText m.content 1200))])))
  { messages := [⟨.system, plannerPrompt⟩, ⟨.user,
      s!"AVAILABLE_TOOLS_JSON: {serializedTools}\nCONVERSATION_JSON: {serializedHistory}"⟩] }

/-- `LlmCodeModePlanner`. -/
def llmCodeModePlanner {ω : Type} (provider : ChatProvider ω) (json : SerdeJson)
    (maxToolsInPrompt maxHistoryMessages : Nat) : CodeModePlanner ω where
  name := "llm-plan-v1"
  buildPlan history tools :=
    if tools.isEmpty then pure none
    else do
      let result ← attempt (provider.complete
        (plannerRequest json maxToolsInPrompt maxHistoryMessages history tools))
      match result with
      | .error _ => raise (.other "code mode planner completion failed")
      | .ok reply =>
        match parsePlanFromReply json reply with
        | .error _ => raise (.other "failed to parse code mode plan")
        | .ok plan => if plan.calls.isEmpty then pure none else pure (some plan)

/-! ## The executor -/

/-- How the task of a call ends. -/
inductive JobOutcome where
  | finished (result : Except String Value)
  | timedOut
  | panicked

/-- What the executor has of its process: `Instant::now`, in nanoseconds, and `McpRuntime::call_tool`
within a time, as a task of its own. -/
structure CodeModeRuntime (ω : Type) where
  now : ω → Nat × ω
  callTool : CodeModeToolCall → Nat → ω → JobOutcome × ω

inductive ExecutionError where
  /-- The plan was rejected. -/
  | rejected (reason : String)
  | budgetExceeded
  | joinFailed
  | subprocess (reason : String)
  deriving DecidableEq, Repr

def ExecutionError.message : ExecutionError → String
  | rejected reason => reason
  | budgetExceeded => "code mode execution exceeded runtime budget"
  | joinFailed => "code mode execution task join failed"
  | subprocess reason => reason

/-- An execution: its result, the calls whose tasks it has spawned, and the world after it. -/
structure ExecutorRun (ω α : Type) where
  result : Except ExecutionError α
  spawned : List CodeModeToolCall
  world : ω

structure CollectedCall where
  call : CodeModeToolCall
  result : Except String Value
  timedOut : Bool

/-- What the executor collects of a task, within so many nanoseconds. -/
def JobOutcome.collect (call : CodeModeToolCall) (perCallTimeout : Nat) :
    JobOutcome → Except ExecutionError CollectedCall
  | finished result => .ok ⟨call, result, false⟩
  | timedOut => .ok ⟨call, .error s!"code mode tool call timeout after {perCallTimeout / 1000000}ms: {call.server}::{call.tool}", true⟩
  | panicked => .error .joinFailed

/-- `(start..len).step_by(step)`. -/
def stepBy (step len : Nat) : Nat → Nat → List Nat
  | 0, _ => []
  | fuel + 1, start => if start < len then start :: stepBy step len fuel (start + step) else []

/-- The result of a call, in the report. -/
def addResult (json : SerdeJson) (settings : AgentCodeModeSettings)
    (report : CodeModeExecutionReport × Nat) (item : CollectedCall) : CodeModeExecutionReport × Nat :=
  let (report, usedChars) := report
  match item.result with
  | .ok value =>
    let ((resultValue, truncated), usedChars) :=
      CodeModePolicy.truncateResult settings json value usedChars
    ({ report with
        calls := report.calls ++
          [⟨item.call.server, item.call.tool, true, some resultValue, none, truncated⟩]
        truncatedOutputs := report.truncatedOutputs + if truncated then 1 else 0 }, usedChars)
  | .error err =>
    ({ report with
        calls := report.calls ++ [⟨item.call.server, item.call.tool, false, none, some err, false⟩]
        failedCalls := report.failedCalls + 1
        timedOutCalls := report.timedOutCalls + if item.timedOut then 1 else 0 }, usedChars)

section Executor

variable {ω : Type} (settings : AgentCodeModeSettings) (runtime : CodeModeRuntime ω)

/-- The tasks of a chunk, until all have joined or one fails to. -/
def joinChunk (perCallTimeout : Nat) :
    List CodeModeToolCall → ω → Except ExecutionError (List CollectedCall) × ω
  | [], w => (.ok [], w)
  | call :: calls, w =>
    let (outcome, w) := runtime.callTool call perCallTimeout w
    match outcome.collect call perCallTimeout with
    | .error err => (.error err, w)
    | .ok item =>
      let (joined, w) := joinChunk perCallTimeout calls w
      (joined.map (item :: ·), w)

/-- The chunks that start at these places of the plan. -/
def executeChunks (startedAt : Nat) (calls : List CodeModeToolCall) :
    List Nat → ω → ExecutorRun ω (List CollectedCall)
  | [], w => ⟨.ok [], [], w⟩
  | chunkStart :: rest, w =>
    let (now, w) := runtime.now w
    if CodeModePolicy.budget settings < now - startedAt then ⟨.error .budgetExceeded, [], w⟩
    else
      let chunk := (calls.drop chunkStart).take (CodeModePolicy.maxParallel settings)
      let (now, w) := runtime.now w
      match joinChunk runtime (CodeModePolicy.perCallTimeout settings (now - startedAt)) chunk w with
      | (.error err, w) => ⟨.error err, chunk, w⟩
      | (.ok collected, w) =>
        let run := executeChunks startedAt calls rest w
        ⟨run.result.map (collected ++ ·), chunk ++ run.spawned, run.world⟩

/-- `CodeModeExecutor::execute`. -/
def CodeModeExecutor.execute (json : SerdeJson) (plan : CodeModePlan) (tools : List McpToolInfo) (w : ω) :
    ExecutorRun ω CodeModeExecutionReport :=
  match CodeModePolicy.validatePlan settings plan tools with
  | .error reason => ⟨.error (.rejected reason), [], w⟩
  | .ok () =>
    let (startedAt, w) := runtime.now w
    let chunkStarts := stepBy (CodeModePolicy.maxParallel settings) plan.calls.length
      plan.calls.length 0
    let run := executeChunks settings runtime startedAt plan.calls chunkStarts w
    match run.result with
    | .error err => ⟨.error err, run.spawned, run.world⟩
    | .ok collected =>
      let (now, w) := runtime.now run.world
      let report := (collected.foldl (addResult json settings) ({}, 0)).1
      ⟨.ok { report with elapsedMs := (now - startedAt) / 1000000 }, run.spawned, w⟩

end Executor

/-! ## The child -/

structure CodeModeAllowedTool where
  server : String
  tool : String
  codeModeCapabilities : Option McpToolCapabilities
  deriving DecidableEq

/-- `materialize_policy_tools`. -/
def materializePolicyTools (allowedTools : List CodeModeAllowedTool) : List McpToolInfo :=
  allowedTools.map fun tool =>
    ⟨tool.server, tool.tool, none, .json [("type", .string "object")], tool.codeModeCapabilities⟩

/-- What becomes of a child. -/
inductive ChildFate (ω : Type) where
  /-- It is not spawned, or the request does not get to it. -/
  | notStarted (reason : String)
  /-- It replies with an error before it executes anything. -/
  | refuses (reason : String)
  /-- It ends after it has started so many calls, killed after the timeout or by itself. -/
  | ends (reason : String) (calls : Nat) (w : ω)
  /-- It replies, and the reply cannot be read. -/
  | garbles (reason : String)
  | replies

structure Subprocess (ω : Type) where
  /-- The length of the encoded request. -/
  payloadLen : CodeModePlan → List CodeModeAllowedTool → Nat
  fate : CodeModePlan → Nat → ω → ChildFate ω × ω
  runtime : CodeModeRuntime ω

def codeModeSubprocessMaxPayloadBytes : Nat := 512 * 1024

def executePlanViaSubprocess {ω : Type} (json : SerdeJson) (subprocess : Subprocess ω)
    (plan : CodeModePlan) (tools : List McpToolInfo) (settings : AgentCodeModeSettings) (w : ω) :
    ExecutorRun ω CodeModeExecutionReport :=
  let allowedTools := (tools.filter (CodeModePolicy.allowsTool settings)).map fun tool =>
    ⟨tool.server, tool.name, tool.codeModeCapabilities⟩
  let len := subprocess.payloadLen plan allowedTools
  if codeModeSubprocessMaxPayloadBytes < len then
    ⟨.error (.subprocess s!"code mode subprocess request too large: {len} bytes > {codeModeSubprocessMaxPayloadBytes} bytes"), [], w⟩
  else
    let (fate, w) := subprocess.fate plan (max settings.subprocessTimeoutSecs 1) w
    -- `execute_subprocess_request`, in the child
    let run := CodeModeExecutor.execute { settings with executionMode := .inProcess } subprocess.runtime
      json plan (materializePolicyTools allowedTools) w
    match fate with
    | .notStarted reason => ⟨.error (.subprocess reason), [], w⟩
    | .refuses reason =>
      ⟨.error (.subprocess s!"code mode subprocess execution failed: {reason}"), [], w⟩
    | .ends reason calls w => ⟨.error (.subprocess reason), run.spawned.take calls, w⟩
    | .garbles reason => ⟨.error (.subprocess reason), run.spawned, run.world⟩
    | .replies =>
      match run.result with
      | .ok report => ⟨.ok report, run.spawned, run.world⟩
      | .error err => ⟨.error (.subprocess
          s!"code mode subprocess execution failed: {err.message}"), run.spawned, run.world⟩

inductive ExecutionIsolation where
  | inProcess
  | subprocessNoSandbox
  deriving DecidableEq, Repr

/-- The name of an isolation in a text. -/
def ExecutionIsolation.debug : ExecutionIsolation → String
  | inProcess => "InProcess"
  | subprocessNoSandbox => "SubprocessNoSandbox"

/-- The isolation of the environment of a mode. -/
def CodeModeExecutionMode.isolation : CodeModeExecutionMode → ExecutionIsolation
  | inProcess => .inProcess
  | subprocess => .subprocessNoSandbox

/-- `ExecutionEnvironment::execute`, of the environment that the settings choose. -/
def executeInEnvironment {ω : Type} (json : SerdeJson) (settings : AgentCodeModeSettings)
    (runtime : CodeModeRuntime ω) (subprocess : Subprocess ω) (plan : CodeModePlan)
    (tools : List McpToolInfo) (w : ω) : ExecutorRun ω CodeModeExecutionReport :=
  match settings.executionMode with
  | .inProcess => CodeModeExecutor.execute settings runtime json plan tools w
  | .subprocess => executePlanViaSubprocess json subprocess plan tools settings w

/-! ## What an execution comes to -/

theorem flatten_chunks {α : Type} {step : Nat} (hstep : 0 < step) (l : List α) {fuel start : Nat}
    (hfuel : l.length ≤ start + fuel) :
    ((stepBy step l.length fuel start).map fun s => (l.drop s).take step).flatten = l.drop start := by
  induction fuel generalizing start with
  | zero =>
    rw [List.drop_eq_nil_of_le (by omega)]
    rfl
  | succ fuel ih =>
    rw [stepBy]
    split_ifs with h
    · rw [List.map_cons, List.flatten_cons, ih (by omega), ← List.drop_drop]
      exact List.take_append_drop step (l.drop start)
    · rw [List.drop_eq_nil_of_le (by omega)]
      rfl

theorem lt_of_two_le_stepBy {step len fuel start : Nat}
    (h : 2 ≤ (stepBy step len fuel start).length) : start + step < len := by
  cases fuel with
  | zero => simp [stepBy] at h
  | succ fuel =>
    rw [stepBy] at h
    split_ifs at h
    · cases fuel with
      | zero => simp [stepBy] at h
      | succ fuel =>
        rw [stepBy] at h
        split_ifs at h with hlt
        · exact hlt
        · simp at h
    · simp at h

section Executor

variable {ω : Type} {settings : AgentCodeModeSettings} {runtime : CodeModeRuntime ω}

theorem collect_call {call : CodeModeToolCall} {timeout : Nat} {outcome : JobOutcome}
    {item : CollectedCall} (h : outcome.collect call timeout = .ok item) : item.call = call := by
  cases outcome with
  | finished result =>
    cases h
    rfl
  | timedOut =>
    cases h
    rfl
  | panicked => cases h

theorem collect_error {call : CodeModeToolCall} {timeout : Nat} {outcome : JobOutcome}
    {err : ExecutionError} (h : outcome.collect call timeout = .error err) : err = .joinFailed := by
  cases outcome with
  | finished result => cases h
  | timedOut => cases h
  | panicked =>
    cases h
    rfl

theorem joinChunk_cases (runtime : CodeModeRuntime ω) (timeout : Nat) (calls : List CodeModeToolCall) (w : ω) :
    (∃ collected, (joinChunk runtime timeout calls w).1 = .ok collected ∧
      collected.map CollectedCall.call = calls) ∨
    (joinChunk runtime timeout calls w).1 = .error .joinFailed := by
  induction calls generalizing w with
  | nil => exact .inl ⟨[], rfl, rfl⟩
  | cons call calls ih =>
    rw [joinChunk]
    dsimp only
    cases hitem : (runtime.callTool call timeout w).1.collect call timeout with
    | error err =>
      rw [collect_error hitem]
      exact .inr rfl
    | ok item =>
      dsimp only
      rcases ih (runtime.callTool call timeout w).2 with ⟨collected, hok, hcalls⟩ | herror
      · refine .inl ⟨item :: collected, ?_, ?_⟩
        · rw [hok]
          rfl
        · rw [List.map_cons, collect_call hitem, hcalls]
      · rw [herror]
        exact .inr rfl

theorem executeChunks_cons (startedAt : Nat) (calls : List CodeModeToolCall) (start : Nat)
    (starts : List Nat) (w : ω) : executeChunks settings runtime startedAt calls (start :: starts) w =
    if CodeModePolicy.budget settings < (runtime.now w).1 - startedAt then
      ⟨.error .budgetExceeded, [], (runtime.now w).2⟩
    else
      let chunk := (calls.drop start).take (CodeModePolicy.maxParallel settings)
      let clock := runtime.now (runtime.now w).2
      match joinChunk runtime (CodeModePolicy.perCallTimeout settings (clock.1 - startedAt)) chunk
        clock.2 with
      | (.error err, w) => ⟨.error err, chunk, w⟩
      | (.ok collected, w) =>
        let run := executeChunks settings runtime startedAt calls starts w
        ⟨run.result.map (collected ++ ·), chunk ++ run.spawned, run.world⟩ := rfl

/-- What the chunks come to: an item for each call of theirs, or an error of two kinds; a budget that is
exceeded after a call has been started takes two chunks. -/
theorem executeChunks_cases (settings : AgentCodeModeSettings) (runtime : CodeModeRuntime ω)
    (startedAt : Nat) (calls : List CodeModeToolCall) (starts : List Nat) (w : ω) :
    let run := executeChunks settings runtime startedAt calls starts w
    (∃ collected, run.result = .ok collected ∧ collected.map CollectedCall.call = run.spawned ∧
      run.spawned = (starts.map fun s =>
        (calls.drop s).take (CodeModePolicy.maxParallel settings)).flatten) ∨
    run.result = .error .joinFailed ∨
    (run.result = .error .budgetExceeded ∧ starts ≠ [] ∧ (run.spawned ≠ [] → 2 ≤ starts.length)) := by
  dsimp only
  induction starts generalizing w with
  | nil => exact .inl ⟨[], rfl, rfl, rfl⟩
  | cons start starts ih =>
    rw [executeChunks_cons]
    split_ifs with hbudget
    · exact .inr (.inr ⟨rfl, List.cons_ne_nil _ _, fun h => absurd rfl h⟩)
    · dsimp only
      generalize hchunk : (calls.drop start).take (CodeModePolicy.maxParallel settings) = chunk
      generalize runtime.now (runtime.now w).2 = clock
      generalize CodeModePolicy.perCallTimeout settings (clock.1 - startedAt) = timeout
      have hjoin := joinChunk_cases runtime timeout chunk clock.2
      rcases hjoined : joinChunk runtime timeout chunk clock.2 with ⟨err | collected, w'⟩
      · rcases hjoin with ⟨_, hok, -⟩ | herror
        · rw [hjoined] at hok
          cases hok
        · rw [hjoined] at herror
          cases herror
          exact .inr (.inl rfl)
      · rcases hjoin with ⟨_, hok, hcalls⟩ | herror
        · rw [hjoined] at hok
          cases hok
          dsimp only
          rcases ih w' with ⟨rest, hrest, hrestcalls, hspawned⟩ | hrest | ⟨hrest, hne, -⟩
          · refine .inl ⟨collected ++ rest, ?_, ?_, ?_⟩
            · rw [hrest]
              rfl
            · rw [List.map_append, hcalls, hrestcalls]
            · rw [List.map_cons, List.flatten_cons, ← hspawned, hchunk]
          · rw [hrest]
            exact .inr (.inl rfl)
          · rw [hrest]
            refine .inr (.inr ⟨rfl, List.cons_ne_nil _ _, fun _ => ?_⟩)
            have hlength := List.length_pos_of_ne_nil hne
            rw [List.length_cons]
            omega
        · rw [hjoined] at herror
          cases herror

/-! ## Reports -/

/-- The tool that an item of a report is on. -/
def CodeModeCallResult.key (result : CodeModeCallResult) : String × String := (result.server, result.tool)

def CodeModeToolCall.key (call : CodeModeToolCall) : String × String := (call.server, call.tool)

variable {json : SerdeJson}

theorem addResult_keys (report : CodeModeExecutionReport × Nat) (item : CollectedCall) :
    (addResult json settings report item).1.calls.map CodeModeCallResult.key
      = report.1.calls.map CodeModeCallResult.key ++ [item.call.key] := by
  unfold addResult
  cases item.result with
  | ok value =>
    rw [List.map_append]
    rfl
  | error err =>
    rw [List.map_append]
    rfl

theorem foldl_addResult_keys (json : SerdeJson) (settings : AgentCodeModeSettings)
    (collected : List CollectedCall) (report : CodeModeExecutionReport × Nat) :
    (collected.foldl (addResult json settings) report).1.calls.map CodeModeCallResult.key
      = report.1.calls.map CodeModeCallResult.key ++ collected.map fun item => item.call.key := by
  induction collected generalizing report with
  | nil => exact (List.append_nil _).symm
  | cons item collected ih =>
    rw [List.foldl_cons, ih, addResult_keys, List.append_assoc, List.map_cons]
    rfl

/-! ## Executions -/

variable {plan : CodeModePlan} {tools : List McpToolInfo} {w : ω}

/-- What an execution comes to. -/
theorem execute_cases (settings : AgentCodeModeSettings) (runtime : CodeModeRuntime ω) (json : SerdeJson)
    (plan : CodeModePlan) (tools : List McpToolInfo) (w : ω) :
    let run := CodeModeExecutor.execute settings runtime json plan tools w
    (∃ report, run.result = .ok report ∧ run.spawned = plan.calls ∧
      report.calls.map CodeModeCallResult.key = plan.calls.map CodeModeToolCall.key) ∨
    (∃ reason, run.result = .error (.rejected reason) ∧ run.spawned = []) ∨
    run.result = .error .joinFailed ∨
    (run.result = .error .budgetExceeded ∧
      (run.spawned ≠ [] → CodeModePolicy.maxParallel settings < plan.calls.length)) := by
  dsimp only
  unfold CodeModeExecutor.execute
  cases CodeModePolicy.validatePlan settings plan tools with
  | error reason => exact .inr (.inl ⟨reason, rfl, rfl⟩)
  | ok _ =>
    generalize runtime.now w = clock
    obtain ⟨startedAt, w'⟩ := clock
    dsimp only
    have hstep : 0 < CodeModePolicy.maxParallel settings := by
      unfold CodeModePolicy.maxParallel
      omega
    rcases executeChunks_cases settings runtime startedAt plan.calls
        (stepBy (CodeModePolicy.maxParallel settings) plan.calls.length plan.calls.length 0) w' with
      ⟨collected, hok, hcalls, hspawned⟩ | herror | ⟨herror, -, hchunks⟩
    · rw [flatten_chunks hstep plan.calls (by omega), List.drop_zero] at hspawned
      rw [hok]
      refine .inl ⟨_, rfl, hspawned, ?_⟩
      have hkeys := foldl_addResult_keys json settings collected ({}, 0)
      rw [← hspawned, ← hcalls, List.map_map]
      exact hkeys
    · rw [herror]
      exact .inr (.inr (.inl rfl))
    · rw [herror]
      refine .inr (.inr (.inr ⟨rfl, fun hne => ?_⟩))
      have hlt := lt_of_two_le_stepBy (hchunks hne)
      omega

/-- **A report is on the whole plan**, call by call. -/
theorem execute_ok {report : CodeModeExecutionReport}
    (h : (CodeModeExecutor.execute settings runtime json plan tools w).result = .ok report) :
    (CodeModeExecutor.execute settings runtime json plan tools w).spawned = plan.calls ∧
      report.calls.map CodeModeCallResult.key = plan.calls.map CodeModeToolCall.key := by
  rcases execute_cases settings runtime json plan tools w with
    ⟨report', hok, hspawned, hkeys⟩ | ⟨reason, herror, -⟩ | herror | ⟨herror, -⟩
  · rw [hok] at h
    cases h
    exact ⟨hspawned, hkeys⟩
  all_goals
    rw [herror] at h
    cases h

/-- **An execution that is given up after a call has been started**: a task has not joined, or the budget
was exceeded before a later chunk. -/
theorem execute_error {err : ExecutionError}
    (h : (CodeModeExecutor.execute settings runtime json plan tools w).result = .error err)
    (hspawned : (CodeModeExecutor.execute settings runtime json plan tools w).spawned ≠ []) :
    err = .joinFailed ∨
      (err = .budgetExceeded ∧ CodeModePolicy.maxParallel settings < plan.calls.length) := by
  rcases execute_cases settings runtime json plan tools w with
    ⟨report, hok, -⟩ | ⟨reason, -, hnone⟩ | herror | ⟨herror, hlt⟩
  · rw [hok] at h
    cases h
  · exact absurd hnone hspawned
  · rw [herror] at h
    cases h
    exact .inl rfl
  · rw [herror] at h
    cases h
    exact .inr ⟨rfl, hlt hspawned⟩

/-! ## Environments -/

variable {subprocess : Subprocess ω}

/-- Why an execution may be given up after a call has been started. -/
def ExecutionError.Abandons (settings : AgentCodeModeSettings) (plan : CodeModePlan)
    (err : ExecutionError) : Prop :=
  match settings.executionMode with
  | .inProcess => err = .joinFailed ∨
      (err = .budgetExceeded ∧ CodeModePolicy.maxParallel settings < plan.calls.length)
  | .subprocess => ∃ reason, err = .subprocess reason

theorem subprocess_of_error {err : ExecutionError}
    (h : (executePlanViaSubprocess json subprocess plan tools settings w).result = .error err) :
    ∃ reason, err = .subprocess reason := by
  unfold executePlanViaSubprocess at h
  dsimp only at h
  split_ifs at h
  · cases h
    exact ⟨_, rfl⟩
  · split at h
    · cases h
      exact ⟨_, rfl⟩
    · cases h
      exact ⟨_, rfl⟩
    · cases h
      exact ⟨_, rfl⟩
    · cases h
      exact ⟨_, rfl⟩
    · split at h
      · cases h
      · cases h
        exact ⟨_, rfl⟩

theorem subprocess_of_ok {report : CodeModeExecutionReport}
    (h : (executePlanViaSubprocess json subprocess plan tools settings w).result = .ok report) :
    (executePlanViaSubprocess json subprocess plan tools settings w).spawned = plan.calls ∧
      report.calls.map CodeModeCallResult.key = plan.calls.map CodeModeToolCall.key := by
  unfold executePlanViaSubprocess at h ⊢
  generalize subprocess.fate plan (max settings.subprocessTimeoutSecs 1) w = fate at h ⊢
  obtain ⟨fate, w'⟩ := fate
  dsimp only at h ⊢
  split_ifs at h ⊢
  cases fate with
  | replies =>
    dsimp only at h ⊢
    split at h
    · rename_i hrun
      cases h
      exact execute_ok hrun
    · cases h
  | notStarted => cases h
  | refuses => cases h
  | ends => cases h
  | garbles => cases h

theorem environment_ok {report : CodeModeExecutionReport}
    (h : (executeInEnvironment json settings runtime subprocess plan tools w).result = .ok report) :
    (executeInEnvironment json settings runtime subprocess plan tools w).spawned = plan.calls ∧
      report.calls.map CodeModeCallResult.key = plan.calls.map CodeModeToolCall.key := by
  unfold executeInEnvironment at h ⊢
  cases hmode : settings.executionMode with
  | inProcess =>
    rw [hmode] at h
    exact execute_ok h
  | subprocess =>
    rw [hmode] at h
    exact subprocess_of_ok h

theorem environment_error {err : ExecutionError}
    (h : (executeInEnvironment json settings runtime subprocess plan tools w).result = .error err)
    (hspawned : (executeInEnvironment json settings runtime subprocess plan tools w).spawned ≠ []) :
    err.Abandons settings plan := by
  unfold executeInEnvironment at h hspawned
  unfold ExecutionError.Abandons
  cases hmode : settings.executionMode with
  | inProcess =>
    rw [hmode] at h hspawned
    exact execute_error h hspawned
  | subprocess =>
    rw [hmode] at h
    exact subprocess_of_error h

end Executor

end Xiaomaolv
