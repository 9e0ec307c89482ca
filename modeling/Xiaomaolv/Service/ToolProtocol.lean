import Xiaomaolv.Loop.Data

/-!
# The tool protocol

What a model's reply says about a tool: a call, an answer, or a call that cannot be read; the check of a
call against the tools of the turn, its record and its envelope.

* `SerdeJson`: the parser and the printer of JSON.
* `extractJsonPayload`: the JSON in a reply.
* `parseToolCallAttempt`: the proposal that a reply is.
* `ToolProtocol.validateCall`: the check against the visible tools and their schemas.
* `ToolProtocol.executeValidated`: the envelope of a call; `verificationFeedbackMessage`: the feedback.
-/

namespace Xiaomaolv

/-- `serde_json`. -/
structure SerdeJson where
  fromStr : String → Except String Value
  toString : Value → String

namespace Value

/-- `Value::as_object`. -/
def asObject : Value → Option Fields
  | object fields => some fields
  | _ => none

def isObject (v : Value) : Bool := v.asObject.isSome

end Value

def Fields.toList : Fields → List (String × Value)
  | .nil => []
  | .cons k v fs => (k, v) :: fs.toList

def Fields.containsKey (key : String) (fields : Fields) : Bool := (fields.find key).isSome

/-! ## The JSON in a reply -/

/-- The number of characters up to the end of the first bracketed value; `none` where the brackets do
not match. -/
def findJsonSegmentEnd : List Char → List Char → Bool → Bool → Option Nat
  | [], _, _, _ => none
  | _ :: cs, stack, true, true => (findJsonSegmentEnd cs stack true false).map (· + 1)
  | ch :: cs, stack, true, false =>
    if ch = '\\' then (findJsonSegmentEnd cs stack true true).map (· + 1)
    else if ch = '"' then (findJsonSegmentEnd cs stack false false).map (· + 1)
    else (findJsonSegmentEnd cs stack true false).map (· + 1)
  | ch :: cs, stack, false, escaped =>
    if ch = '"' then (findJsonSegmentEnd cs stack true escaped).map (· + 1)
    else if ch = '{' ∨ ch = '[' then (findJsonSegmentEnd cs (ch :: stack) false escaped).map (· + 1)
    else if ch = '}' ∨ ch = ']' then
      let opening := if ch = '}' then '{' else '['
      match stack with
      | [] => none
      | top :: rest =>
        if top ≠ opening then none
        else if rest.isEmpty then some 1
        else (findJsonSegmentEnd cs rest false escaped).map (· + 1)
    else (findJsonSegmentEnd cs stack false escaped).map (· + 1)

section Extraction

variable (json : SerdeJson)

/-- The first bracketed part that is JSON. -/
def extractFirstJsonValueSegment : List Char → Option String
  | [] => none
  | ch :: cs =>
    if ch = '{' ∨ ch = '[' then
      match findJsonSegmentEnd (ch :: cs) [] false false with
      | none => extractFirstJsonValueSegment cs
      | some n =>
        let candidate := trim (String.ofList ((ch :: cs).take n))
        if (json.fromStr candidate).isOk then some candidate else extractFirstJsonValueSegment cs
    else extractFirstJsonValueSegment cs

def extractJsonPayload (text : String) : Option String :=
  let trimmed := trim text
  if trimmed.isEmpty then none
  else if (json.fromStr trimmed).isOk then some trimmed
  else extractFirstJsonValueSegment json trimmed.toList

end Extraction

/-! ## Verification results -/

inductive IssueSeverity where
  | warning
  | error
  | critical
  deriving DecidableEq, Repr

structure VerificationIssue where
  severity : IssueSeverity
  code : String
  message : String
  deriving DecidableEq, Repr

/-- The confidence is a float, by its digits. -/
structure VerificationResult where
  passed : Bool
  confidence : String
  issues : List VerificationIssue
  suggestion : Option String
  deriving DecidableEq, Repr

def verificationFailureResult (code message : String) : VerificationResult :=
  ⟨false, "1.0", [⟨.error, code, message⟩], none⟩

def failedResult (issues : List VerificationIssue) : VerificationResult := ⟨false, "1.0", issues, none⟩

/-- The name of a severity in JSON. -/
def IssueSeverity.json : IssueSeverity → String
  | warning => "Warning"
  | error => "Error"
  | critical => "Critical"

def verificationResultJson (verification : VerificationResult) : Value :=
  .json [("passed", .bool verification.passed), ("confidence", .float verification.confidence),
    ("issues", .array (.ofList (verification.issues.map fun issue =>
      .json [("severity", .string issue.severity.json), ("code", .string issue.code),
        ("message", .string issue.message)]))),
    ("suggestion", .ofOption verification.suggestion)]

/-! ## Tools and calls -/

structure McpToolCapabilities where
  network : Bool := false
  filesystem : Bool := false
  env : Bool := false
  deriving DecidableEq, Repr

structure McpToolInfo where
  server : String
  name : String
  description : Option String
  inputSchema : Value
  codeModeCapabilities : Option McpToolCapabilities
  deriving DecidableEq

structure ParsedToolCall where
  server : String
  tool : String
  arguments : Value
  deriving DecidableEq

inductive ToolProposal where
  | tool (call : ParsedToolCall)
  | finalAnswer
  | parseError (verification : VerificationResult)
  deriving DecidableEq

structure ToolCallRecord where
  callIndex : Nat
  server : String
  tool : String
  arguments : Value
  result : Value
  ok : Bool
  durationMs : Nat
  iteration : Nat
  deriving DecidableEq

/-! ## Reading a reply -/

/-- The call that the fields of an object state themselves. -/
def parseToolCallFields (fields : Fields) : Option ParsedToolCall :=
  let arguments := (fields.find "arguments").getD (.json [])
  match (fields.find "server").bind Value.asStr, (fields.find "tool").bind Value.asStr with
  | some server, some tool => some ⟨server, tool, arguments⟩
  | _, _ =>
    match (fields.find "name").bind Value.asStr with
    | none => none
    | some name =>
      ((splitOnce [':', ':'] name.toList).or (splitOnce ['/'] name.toList)).map fun r =>
        ⟨String.ofList r.1, String.ofList r.2, arguments⟩

mutual

def parseToolCallValue : Value → Option ParsedToolCall
  | .object fields =>
    match parseToolCallIn "tool_call" fields with
    | some inner => inner
    | none =>
      match parseToolCallIn "mcp_tool_call" fields with
      | some inner => inner
      | none => parseToolCallFields fields
  | .array values => parseToolCallFirst values
  | _ => none

/-- The call in a field, if the field is there. -/
def parseToolCallIn (key : String) : Fields → Option (Option ParsedToolCall)
  | .nil => none
  | .cons k v fields => if k = key then some (parseToolCallValue v) else parseToolCallIn key fields

/-- The call in the first item of an array. -/
def parseToolCallFirst : Values → Option ParsedToolCall
  | .nil => none
  | .cons v _ => parseToolCallValue v

end

theorem parseToolCallIn_eq (key : String) (fields : Fields) :
    parseToolCallIn key fields = (fields.find key).map parseToolCallValue := by
  induction fields using Fields.along with
  | nil => rfl
  | cons k v fields ih =>
    rw [parseToolCallIn, Fields.find]
    split_ifs with hk
    · rfl
    · exact ih

def looksLikeAttemptedMcpToolCall (reply : String) : Bool :=
  let lower := toAsciiLowercase reply
  contains lower "tool_call" || contains lower "mcp_tool_call" ||
    (contains lower "server" && contains lower "tool") ||
    (contains lower "arguments" && contains lower "tool")

/-- What a reply without a readable call is. -/
def unreadable (reply code message : String) : ToolProposal :=
  if looksLikeAttemptedMcpToolCall reply then .parseError (verificationFailureResult code message)
  else .finalAnswer

def parseToolCallAttempt (json : SerdeJson) (reply : String) : ToolProposal :=
  match extractJsonPayload json (trim reply) with
  | none => unreadable reply "MALFORMED_TOOL_CALL_JSON" "Tool call JSON could not be extracted"
  | some jsonText =>
    match json.fromStr jsonText with
    | .error err =>
      unreadable reply "MALFORMED_TOOL_CALL_JSON" s!"Tool call JSON is malformed: {err}"
    | .ok value =>
      match parseToolCallValue value with
      | some call => .tool call
      | none =>
        unreadable reply "INVALID_TOOL_CALL_SHAPE"
          "Tool call JSON is missing server/tool/arguments shape"

/-! ## The check of a call -/

/-- `json_type_matches`. -/
def jsonTypeMatches (value : Value) (expectedType : String) : Bool :=
  match expectedType, value with
  | "null", .null => true
  | "boolean", .bool _ => true
  | "integer", .int _ => true
  | "number", .int _ => true
  | "number", .float _ => true
  | "string", .string _ => true
  | "array", .array _ => true
  | "object", .object _ => true
  | "null", _ | "boolean", _ | "integer", _ | "number", _ | "string", _ | "array", _ | "object", _ =>
    false
  | _, _ => true

namespace ToolSchemaVerifier

/-- An issue of an argument of a tool. -/
def argumentIssue (code : String) (message : String) : VerificationIssue := ⟨.error, code, message⟩

/-- The required arguments that are missing. -/
def missing (tool : McpToolInfo) (args : Fields) : List VerificationIssue :=
  ((((tool.inputSchema.get "required").bind Value.asArray).getD []).filterMap Value.asStr).filterMap
    fun name =>
      if args.containsKey name then none
      else some (argumentIssue "MISSING_REQUIRED_ARGUMENT"
        s!"Missing required argument '{name}' for {tool.server}::{tool.name}")

/-- The arguments whose types do not match. -/
def mismatched (tool : McpToolInfo) (properties args : Fields) : List VerificationIssue :=
  args.toList.filterMap fun (name, value) =>
    match ((properties.find name).bind (·.get "type")).bind Value.asStr with
    | none => none
    | some expectedType =>
      if jsonTypeMatches value expectedType then none
      else some (argumentIssue "ARGUMENT_TYPE_MISMATCH"
        s!"Argument '{name}' for {tool.server}::{tool.name} must be {expectedType}")

/-- The arguments that the schema does not name. -/
def unknown (tool : McpToolInfo) (properties args : Fields) : List VerificationIssue :=
  args.toList.filterMap fun (name, _) =>
    if properties.containsKey name then none
    else some (argumentIssue "UNKNOWN_ARGUMENT"
      s!"Unknown argument '{name}' for {tool.server}::{tool.name}")

/-- A schema whose root is not an object is not checked. -/
def rootIssue (tool : McpToolInfo) : List VerificationIssue :=
  match (tool.inputSchema.get "type").bind Value.asStr with
  | none => []
  | some expectedType =>
    if expectedType = "object" then []
    else [⟨.warning, "UNSUPPORTED_SCHEMA_ROOT",
      s!"Only object input schemas are validated, got root type '{expectedType}'"⟩]

def verifyArguments (tool : McpToolInfo) (arguments : Value) : VerificationResult :=
  match arguments.asObject with
  | none => failedResult [argumentIssue "ARGUMENTS_NOT_OBJECT"
      s!"Arguments for {tool.server}::{tool.name} must be an object"]
  | some args =>
    let properties := (tool.inputSchema.get "properties").bind Value.asObject
    let closed := (tool.inputSchema.get "additionalProperties").bind Value.asBool == some false
    let issues := rootIssue tool ++ missing tool args ++
      properties.elim [] (mismatched tool · args) ++
      if closed then properties.elim [] (unknown tool · args) else []
    if issues.any fun issue => issue.severity != .warning then failedResult issues
    else ⟨true, if issues.isEmpty then "1.0" else "0.85", issues, none⟩

end ToolSchemaVerifier

structure ToolProtocol where
  tools : List McpToolInfo
  maxResultChars : Nat
  callTimeoutSecs : Nat := 120

namespace ToolProtocol

/-- `with_call_timeout_secs`. -/
def withCallTimeoutSecs (protocol : ToolProtocol) (secs : Nat) : ToolProtocol :=
  { protocol with callTimeoutSecs := max secs 1 }

/-- The check of a call against the tools. -/
def validateCall (protocol : ToolProtocol) (call : ParsedToolCall) :
    Except VerificationResult McpToolInfo :=
  match protocol.tools.find? fun tool => tool.server = call.server && tool.name = call.tool with
  | none => .error (verificationFailureResult "UNKNOWN_TOOL"
      s!"Requested MCP tool is not available: {call.server}::{call.tool}")
  | some tool =>
    let verification := ToolSchemaVerifier.verifyArguments tool call.arguments
    if verification.passed then .ok tool else .error verification

end ToolProtocol

/-! ## Records and envelopes -/

/-- `truncate_json_value`. -/
def truncateJsonValue (json : SerdeJson) (value : Value) (maxChars : Nat) : Value :=
  let encoded := json.toString value
  if encoded.length ≤ maxChars then value
  else .json [("truncated", .string (takeChars maxChars encoded ++ "...(truncated)"))]

structure ToolExecutionEnvelope where
  messageJson : Value
  record : ToolCallRecord
  deriving DecidableEq

/-- What the runtime gives for a call: its outcome, or nothing within the time, and how long it took. -/
structure ToolOutcome where
  result : Option (Except String Value)
  durationMs : Nat

/-- The envelope that `execute_validated` makes of an outcome. -/
def ToolProtocol.envelope (protocol : ToolProtocol) (json : SerdeJson) (call : ParsedToolCall)
    (iteration : Nat) (outcome : ToolOutcome) : ToolExecutionEnvelope :=
  let result := outcome.result.getD (.error
    s!"mcp tool call timed out after {protocol.callTimeoutSecs}s: {call.server}::{call.tool}")
  match result with
  | .ok value =>
    let result := truncateJsonValue json value protocol.maxResultChars
    ⟨.json [("server", .string call.server), ("tool", .string call.tool), ("ok", .bool true),
        ("result", result)],
      ⟨0, call.server, call.tool, call.arguments, result, true, outcome.durationMs, iteration⟩⟩
  | .error err =>
    ⟨.json [("server", .string call.server), ("tool", .string call.tool), ("ok", .bool false),
        ("error", .string err)],
      ⟨0, call.server, call.tool, call.arguments, .json [("error", .string err)], false,
        outcome.durationMs, iteration⟩⟩

/-- `annotate_record_with_verification_failure`. -/
def annotateRecordWithVerificationFailure (record : ToolCallRecord)
    (verification : VerificationResult) : ToolCallRecord :=
  { record with
    ok := false
    result := .json [("verification_failed", .bool true),
      ("verification", verificationResultJson verification), ("original_result", record.result)] }

/-- `verification_failure_record`. -/
def verificationFailureRecord (call : ParsedToolCall) (verification : VerificationResult)
    (iteration : Nat) : ToolCallRecord :=
  let unknownTool := verification.issues.any fun issue => issue.code = "UNKNOWN_TOOL"
  let fields := [("verification_failed", .bool true),
    ("verification", verificationResultJson verification)]
  let requested := [("requested_server", .string call.server), ("requested_tool", .string call.tool)]
  ⟨0, if unknownTool then "unknown" else call.server, if unknownTool then "invalid" else call.tool,
    call.arguments, .json (if unknownTool then fields ++ requested else fields), false, 0, iteration⟩

inductive ToolVerificationMode where
  | observe
  | retry
  | block
  deriving DecidableEq, Repr

def ToolVerificationMode.instruction : ToolVerificationMode → String
  | retry => "The previous MCP tool call failed verification before its result was accepted. Retry once with corrected arguments or provide a final answer without using that failed result."
  | block => "The previous MCP tool call failed verification. Do not call more tools. Provide a safe final answer that explains the tool failure briefly and avoids relying on the failed result."
  | observe => "The previous MCP tool call had verification issues. Continue normally."

def verificationFeedbackMessage (json : SerdeJson) (verification : VerificationResult)
    (mode : ToolVerificationMode) : StoredMessage where
  role := .system
  content := "MCP_TOOL_VERIFICATION_FAILED_JSON:\n" ++ json.toString (verificationResultJson verification)
    ++ "\n\n" ++ mode.instruction

end Xiaomaolv
