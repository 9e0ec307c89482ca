import Mathlib.Logic.Function.Basic
import Xiaomaolv.Loop.Data

/-!
# Requests to MCP servers

The client of the MCP servers: a tool call becomes a JSON-RPC request to a process over its pipes or to
a server over HTTP, in a session that is kept between calls.

* `Outside`: what the client finds around it; `Rpc`: a program of the client, with the log of the
  requests that it sends.
* `requestStdio`, `requestHttp`, `McpRuntime.callTool`: the client.
* `calls`: the `tools/call` requests of a log; `NoCall`: a program that sends none.
* **`calls_requestStdio`**, **`calls_requestHttp`**: the calls that a request makes.
* **`tool_call_at_most_once`**: when a tool call is received at most once.
-/

namespace Xiaomaolv

/-! ## Servers -/

inductive McpTransport where
  | stdio
  | http
  deriving DecidableEq, Repr

/-- What a server's configuration says of the way to it. -/
structure McpServerConfig where
  enabled : Bool := true
  transport : McpTransport := .stdio
  command : Option String := none
  args : List String := []
  cwd : Option String := none
  env : List (String × String) := []
  url : Option String := none
  headers : List (String × String) := []
  timeoutSecs : Nat := 20
  deriving DecidableEq, Repr

/-- A request over HTTP. -/
structure HttpPost where
  url : String
  timeoutSecs : Nat
  payload : Value
  sessionId : Option String
  headers : List (String × String)
  deriving DecidableEq

/-- What comes back for it; a body that cannot be read is `none`. -/
inductive HttpReply where
  | failed
  | response (status : Nat) (sessionId : Option String) (contentType : String) (body : Option String)
  deriving DecidableEq, Repr

/-- An exchange: whether the server has received the request, and what comes back. -/
structure Exchange where
  received : Bool
  reply : HttpReply
  deriving DecidableEq, Repr

/-- The sessions of all servers: the ids of those over HTTP, the processes, and the next request id of
each process. -/
structure McpSessionPool where
  http : String → Option String
  stdio : String → Option Nat
  nextId : Nat → Nat

/-- What the client finds around it: the servers, the parsers, and the calls that run at the same time. -/
structure Outside (ω : Type) where
  post : HttpPost → ω → Exchange × ω
  /-- `Command::spawn`. -/
  spawn : McpServerConfig → ω → Except String Nat × ω
  /-- `write_json_line`: whether the process has received the line, and the outcome. -/
  writeJsonLine : Nat → Value → ω → (Bool × Except String Unit) × ω
  /-- `read_jsonrpc_message_with_id`, within a time. -/
  readMessageWithId : Nat → Nat → Nat → ω → Except String Value × ω
  /-- `serde_json::from_str`. -/
  fromStr : String → Option Value
  /-- The text of a value. -/
  display : Value → String
  /-- The text of a status. -/
  showStatus : Nat → String
  validName : String → Bool
  validValue : String → Bool
  /-- The clock and the time zones. -/
  currentTime : Value → ω → Except String Value × ω
  /-- What other calls do while this one waits for a lock. -/
  meanwhile : ω → McpSessionPool → ω × McpSessionPool

/-- A request that was sent, and whether it has been received. -/
structure Sent where
  method : String
  received : Bool
  deriving DecidableEq, Repr

/-- What a program of the client works on; the log is its own. -/
structure Wire (ω : Type) where
  world : ω
  pool : McpSessionPool
  sent : List Sent := []

/-- A program of the client. -/
def Rpc (ω α : Type) := Wire ω → Except String α × Wire ω

namespace Rpc

variable {ω α β : Type}

def andThen (op : Rpc ω α) (f : α → Rpc ω β) : Rpc ω β := fun s =>
  match op s with
  | (.ok a, s') => f a s'
  | (.error e, s') => (.error e, s')

instance : Monad (Rpc ω) where
  pure a := fun s => (.ok a, s)
  bind := andThen

/-- `bail!`. -/
def bail (message : String) : Rpc ω α := fun s => (.error message, s)

/-- `value?`. -/
def ofExcept (value : Except String α) : Rpc ω α := fun s => (value, s)

/-- `op.await.with_context(message)`. -/
def withContext (message : String) (op : Rpc ω α) : Rpc ω α := fun s =>
  match op s with
  | (.ok a, s') => (.ok a, s')
  | (.error _, s') => (.error message, s')

/-- `match op.await { Ok(..) => .., Err(..) => .. }`. -/
def outcome (op : Rpc ω α) : Rpc ω (Except String α) := fun s =>
  let r := op s
  (.ok r.1, r.2)

end Rpc

/-- `env!("CARGO_PKG_VERSION")`. -/
def cargoPkgVersion : String := "0.3.1"

def jsonrpcRequest (id : Nat) (method : String) (params : Value) : Value :=
  .json [("jsonrpc", .string "2.0"), ("id", .int id), ("method", .string method), ("params", params)]

def initializeRequest : Value :=
  jsonrpcRequest 1 "initialize" (.json [("protocolVersion", .string "2025-06-18"),
    ("capabilities", .json []),
    ("clientInfo", .json [("name", .string "xiaomaolv"), ("version", .string cargoPkgVersion)])])

def initializedNotification : Value :=
  .json [("jsonrpc", .string "2.0"), ("method", .string "notifications/initialized"),
    ("params", .json [])]

/-- The method of a request. -/
def methodOf (payload : Value) : String := ((payload.get "method").bind Value.asStr).getD ""

/-! ## The session pool -/

section Client

variable {ω : Type} (o : Outside ω)

/-- Wait for a lock. -/
def lock : Rpc ω Unit := fun s =>
  let r := o.meanwhile s.world s.pool
  (.ok (), { s with world := r.1, pool := r.2 })

def getHttpSessionId (serverName : String) : Rpc ω (Option String) := do
  lock o
  fun s => (.ok (s.pool.http serverName), s)

def setHttpSessionId (serverName : String) (sessionId : Option String) : Rpc ω Unit := do
  lock o
  fun s => (.ok (), { s with pool.http := Function.update s.pool.http serverName sessionId })

def dropStdio (serverName : String) : Rpc ω Unit := do
  lock o
  fun s => (.ok (), { s with pool.stdio := Function.update s.pool.stdio serverName none })

/-- The id of the next request of a session; it saturates. -/
def allocateRequestId (session : Nat) : Rpc ω Nat := fun s =>
  let id := s.pool.nextId session
  let next := max (min (id + 1) (2 ^ 64 - 1)) 2
  (.ok id, { s with pool.nextId := Function.update s.pool.nextId session next })

/-! ## Sessions over pipes -/

def writeJsonLine (session : Nat) (value : Value) : Rpc ω Unit := fun s =>
  let r := o.writeJsonLine session value s.world
  (r.1.2, { s with world := r.2, sent := s.sent ++ [⟨methodOf value, r.1.1⟩] })

def readMessageWithId (session timeoutSecs requestId : Nat) : Rpc ω Value := fun s =>
  let r := o.readMessageWithId session timeoutSecs requestId s.world
  (r.1, { s with world := r.2 })

/-- `StdioSession::initialize`. -/
def initializeStdio (serverName : String) (cfg : McpServerConfig) (session : Nat) : Rpc ω Unit := do
  writeJsonLine o session initializeRequest
  let response ← Rpc.withContext s!"mcp server '{serverName}' initialize read failed"
    (readMessageWithId o session (max cfg.timeoutSecs 1) 1)
  if (response.get "error").isSome then
    Rpc.bail s!"mcp server '{serverName}' initialize returned error: {o.display response}"
  else writeJsonLine o session initializedNotification

/-- `StdioSession::connect`. -/
def connect (serverName : String) (cfg : McpServerConfig) : Rpc ω Nat := do
  let _ ← Rpc.ofExcept (context cfg.command s!"mcp server '{serverName}' command missing")
  let session ← fun s =>
    let r := o.spawn cfg s.world
    (r.1, { s with world := r.2 })
  fun s => (.ok (), { s with pool.nextId := Function.update s.pool.nextId session 2 })
  Rpc.withContext s!"mcp server '{serverName}' initialize failed"
    (initializeStdio o serverName cfg session)
  pure session

def getOrCreateStdio (serverName : String) (cfg : McpServerConfig) : Rpc ω Nat := do
  lock o
  let found ← fun s => (.ok (s.pool.stdio serverName), s)
  match found with
  | some session => pure session
  | none => do
    let created ← Rpc.withContext s!"failed to initialize stdio session for '{serverName}'"
      (connect o serverName cfg)
    fun s => (.ok created,
      { s with pool.stdio := Function.update s.pool.stdio serverName (some created) })

/-- `send` of `request_stdio`: one request in the session. -/
def sendStdio (serverName : String) (cfg : McpServerConfig) (method : String) (params : Value) :
    Rpc ω Value := do
  let session ← getOrCreateStdio o serverName cfg
  lock o
  let requestId ← allocateRequestId session
  writeJsonLine o session (jsonrpcRequest requestId method params)
  Rpc.withContext s!"mcp server '{serverName}' read failed"
    (readMessageWithId o session (max cfg.timeoutSecs 1) requestId)

def requestStdio (serverName : String) (cfg : McpServerConfig) (method : String) (params : Value) :
    Rpc ω Value := do
  let first ← Rpc.outcome (sendStdio o serverName cfg method params)
  match first with
  | .ok response => pure response
  | .error _ => do
    dropStdio o serverName
    if method = "tools/list" then
      Rpc.withContext s!"mcp server '{serverName}' retry after session reset failed"
        (sendStdio o serverName cfg method params)
    else Rpc.bail s!"mcp server '{serverName}' request failed; session reset, no auto-retry for non-idempotent method '{method}'"

/-! ## Sessions over HTTP -/

/-- `str::lines`. -/
def textLines (text : String) : List String :=
  let cut := takeLines text.toList
  cut.1.map chomp ++ if cut.2.isEmpty then [] else [String.ofList cut.2]

/-- `strip_prefix("data:")` of a line, trimmed. -/
def sseData? (line : String) : Option String :=
  if startsWith line "data:" then some (trim (String.ofList (line.toList.drop 5))) else none

def parseSseJsonrpc (body : String) : Except String Value :=
  let dataLines := (textLines body).filterMap sseData?
  if dataLines.isEmpty then .error "empty sse payload"
  else
    match dataLines.findSome? fun raw =>
      if raw.isEmpty || raw = "[DONE]" then none else o.fromStr raw with
    | some value => .ok value
    | none => .error "unable to parse sse jsonrpc payload"

/-- The value of a reply, and the session id after it. -/
def decodeReply (sessionId : Option String) : HttpReply → Except String (Value × Option String)
  | .failed => .error "mcp http request failed"
  | .response _ _ _ none => .error "mcp http read body failed"
  | .response status header contentType (some body) =>
    if ¬ (200 ≤ status ∧ status < 300) then
      .error s!"mcp http status {o.showStatus status}: {body}"
    else
      let sessionId := header.or sessionId
      if contains contentType "application/json" then do
        let value ← context (o.fromStr body) "mcp http json decode failed"
        .ok (value, sessionId)
      else if contains contentType "text/event-stream" then do
        let value ← parseSseJsonrpc o body
        .ok (value, sessionId)
      else .error s!"unsupported mcp http content type: {contentType}"

def buildHeaders : List (String × String) → Except String Unit
  | [] => .ok ()
  | (k, v) :: headers =>
    if ¬ o.validName k then .error s!"invalid header name '{k}'"
    else if ¬ o.validValue v then .error s!"invalid header value '{k}'"
    else buildHeaders headers

/-- The request that `http_jsonrpc` sends. -/
def httpPost (url : String) (cfg : McpServerConfig) (payload : Value) (sessionId : Option String) :
    HttpPost where
  url := url
  timeoutSecs := max cfg.timeoutSecs 1
  payload := payload
  sessionId := sessionId
  headers := cfg.headers

def httpJsonrpc (url : String) (cfg : McpServerConfig) (payload : Value) (sessionId : Option String) :
    Rpc ω (Value × Option String) := do
  Rpc.ofExcept (buildHeaders o cfg.headers)
  let reply ← fun s =>
    let r := o.post (httpPost url cfg payload sessionId) s.world
    (.ok r.1.reply, { s with world := r.2, sent := s.sent ++ [⟨methodOf payload, r.1.received⟩] })
  Rpc.ofExcept (decodeReply o sessionId reply)

def initializeHttpSession (url : String) (cfg : McpServerConfig) (sessionId : Option String) :
    Rpc ω (Option String) := do
  let (init, sessionId) ← httpJsonrpc o url cfg initializeRequest sessionId
  if (init.get "error").isSome then Rpc.bail s!"initialize returned error: {o.display init}"
  else do
    let (_, sessionId) ← httpJsonrpc o url cfg initializedNotification sessionId
    pure sessionId

/-- The start of `request_http`: the url, and the id of a session. -/
def openHttp (serverName : String) (cfg : McpServerConfig) : Rpc ω (String × Option String) := do
  let url ← Rpc.ofExcept (context cfg.url s!"mcp server '{serverName}' url missing")
  let sessionId ← getHttpSessionId o serverName
  if sessionId.isNone then do
    let sessionId ← Rpc.withContext s!"mcp server '{serverName}' initialize failed"
      (initializeHttpSession o url cfg sessionId)
    pure (url, sessionId)
  else pure (url, sessionId)

/-- A new session after a failure. -/
def reopenHttp (serverName : String) (cfg : McpServerConfig) (url : String) : Rpc ω (Option String) := do
  setHttpSessionId o serverName none
  Rpc.withContext s!"mcp server '{serverName}' reinitialize failed"
    (initializeHttpSession o url cfg none)

/-- What `request_http` does with the outcome of the first exchange. -/
def afterFirst (serverName : String) (cfg : McpServerConfig) (url : String) (request : Value) :
    Except String (Value × Option String) → Rpc ω Value
  | .ok (value, sessionId) => do
    setHttpSessionId o serverName sessionId
    pure value
  | .error firstErr => do
    let sessionId ← reopenHttp o serverName cfg url
    let retry ← Rpc.outcome (Rpc.withContext
      s!"mcp server '{serverName}' request failed after reinitialize"
      (httpJsonrpc o url cfg request sessionId))
    match retry with
    | .ok (value, sessionId) => do
      setHttpSessionId o serverName sessionId
      pure value
    | .error retryErr => Rpc.bail s!"mcp server '{serverName}' request failed before and after reinitialize; first error: {firstErr}; retry error: {retryErr}"

def requestHttp (serverName : String) (cfg : McpServerConfig) (method : String) (params : Value) :
    Rpc ω Value := do
  let (url, sessionId) ← openHttp o serverName cfg
  let request := jsonrpcRequest 2 method params
  let first ← Rpc.outcome (httpJsonrpc o url cfg request sessionId)
  afterFirst o serverName cfg url request first

/-! ## Tool calls -/

def requestServer (serverName : String) (cfg : McpServerConfig) (method : String) (params : Value) :
    Rpc ω Value :=
  match cfg.transport with
  | .stdio => requestStdio o serverName cfg method params
  | .http => requestHttp o serverName cfg method params

def builtinMcpServerName : String := "xiaomaolv_builtin"

def callBuiltinCurrentTime (args : Value) : Rpc ω Value := fun s =>
  let r := o.currentTime args s.world
  (r.1, { s with world := r.2 })

def callBuiltinTool (toolName : String) (args : Value) : Rpc ω Value :=
  if toolName = "get_current_time" then callBuiltinCurrentTime o args
  else Rpc.bail s!"builtin mcp tool '{toolName}' is not supported on server '{builtinMcpServerName}'"

structure McpRuntime where
  servers : String → Option McpServerConfig

/-- The parameters of a tool call. -/
def toolCallParams (toolName : String) (args : Value) : Value :=
  .json [("name", .string toolName), ("arguments", args)]

def McpRuntime.callTool (rt : McpRuntime) (serverName toolName : String) (args : Value) :
    Rpc ω Value :=
  if serverName = builtinMcpServerName then callBuiltinTool o toolName args
  else do
    let cfg ← Rpc.ofExcept (context (rt.servers serverName) s!"mcp server '{serverName}' not found")
    if ¬ cfg.enabled then Rpc.bail s!"mcp server '{serverName}' is disabled"
    else do
      let response ← requestServer o serverName cfg "tools/call" (toolCallParams toolName args)
      pure ((response.get "result").getD (.json []))

end Client

/-! ## The calls of a log -/

/-- The `tools/call` requests of a log, each by whether it has been received. -/
def calls (sent : List Sent) : List Bool :=
  (sent.filter fun m => m.method = "tools/call").map (·.received)

/-- A tool call of which this is the log has been received at most once, and was sent again only where
it had not been received. -/
def AtMostOnce (sent : List Sent) : Prop :=
  (calls sent).count true ≤ 1 ∧ (calls sent).Pairwise fun first _ => first = false

@[simp] theorem calls_append (l m : List Sent) : calls (l ++ m) = calls l ++ calls m := by
  simp [calls]

theorem calls_single {method : String} {received : Bool} :
    calls [⟨method, received⟩] = if method = "tools/call" then [received] else [] := by
  by_cases h : method = "tools/call" <;> simp [calls, h]

@[simp] theorem methodOf_jsonrpcRequest (id : Nat) (method : String) (params : Value) :
    methodOf (jsonrpcRequest id method params) = method := by
  simp [methodOf, jsonrpcRequest, Value.asStr]

section Calls

variable {ω α β : Type} {o : Outside ω}

/-- The program sends no tool call. -/
def NoCall (op : Rpc ω α) : Prop := ∀ s, calls (op s).2.sent = calls s.sent

theorem bind_apply (op : Rpc ω α) (f : α → Rpc ω β) (s : Wire ω) : (op >>= f) s =
    match op s with
    | (.ok a, s') => f a s'
    | (.error e, s') => (.error e, s') := rfl

theorem bind_ok {op : Rpc ω α} {f : α → Rpc ω β} {s s' : Wire ω} {a : α} (h : op s = (.ok a, s')) :
    (op >>= f) s = f a s' := by
  rw [bind_apply, h]

theorem bind_error {op : Rpc ω α} {f : α → Rpc ω β} {s s' : Wire ω} {e : String}
    (h : op s = (.error e, s')) : (op >>= f) s = (.error e, s') := by
  rw [bind_apply, h]

theorem ofExcept_context_some (a : α) (message : String) (f : α → Rpc ω β) :
    (Rpc.ofExcept (context (some a) message) >>= f) = f a := rfl

theorem NoCall.calls_bind {op : Rpc ω α} (hop : NoCall op) {f : α → Rpc ω β} {P : List Bool → Prop}
    (hnil : P []) (hf : ∀ a s, ∃ l, calls (f a s).2.sent = calls s.sent ++ l ∧ P l) (s : Wire ω) :
    ∃ l, calls ((op >>= f) s).2.sent = calls s.sent ++ l ∧ P l := by
  have hs := hop s
  rcases hr : op s with ⟨_ | a, s'⟩
  · rw [bind_error hr]
    rw [hr] at hs
    exact ⟨[], by rw [hs, List.append_nil], hnil⟩
  · rw [bind_ok hr]
    rw [hr] at hs
    rw [← hs]
    exact hf a s'

theorem NoCall.bind {op : Rpc ω α} (hop : NoCall op) {f : α → Rpc ω β} (hf : ∀ a, NoCall (f a)) :
    NoCall (op >>= f) := by
  intro s
  obtain ⟨l, hl, rfl⟩ := hop.calls_bind (P := (· = [])) rfl
    (fun a s => ⟨[], by rw [hf a s, List.append_nil], rfl⟩) s
  rw [hl, List.append_nil]

theorem calls_bind_noCall {op : Rpc ω α} {f : α → Rpc ω β} (hf : ∀ a, NoCall (f a)) (s : Wire ω) :
    calls ((op >>= f) s).2.sent = calls (op s).2.sent := by
  rcases hr : op s with ⟨_ | a, s'⟩
  · rw [bind_error hr]
  · rw [bind_ok hr, hf a s']

theorem noCall_pure (a : α) : NoCall (pure a : Rpc ω α) := fun _ => rfl

theorem noCall_bail (message : String) : NoCall (Rpc.bail message : Rpc ω α) := fun _ => rfl

theorem noCall_ofExcept (value : Except String α) : NoCall (Rpc.ofExcept value : Rpc ω α) :=
  fun _ => rfl

@[simp] theorem sent_withContext (message : String) (op : Rpc ω α) (s : Wire ω) :
    (Rpc.withContext message op s).2 = (op s).2 := by
  unfold Rpc.withContext
  rcases op s with ⟨_ | a, s'⟩ <;> rfl

@[simp] theorem sent_outcome (op : Rpc ω α) (s : Wire ω) : (Rpc.outcome op s).2 = (op s).2 := rfl

theorem NoCall.withContext {message : String} {op : Rpc ω α} (h : NoCall op) :
    NoCall (Rpc.withContext message op) := by
  intro s
  rw [sent_withContext]
  exact h s

theorem noCall_lock : NoCall (lock o) := fun _ => rfl

theorem noCall_getHttpSessionId (serverName : String) : NoCall (getHttpSessionId o serverName) :=
  noCall_lock.bind fun _ _ => rfl

theorem noCall_setHttpSessionId (serverName : String) (sessionId : Option String) :
    NoCall (setHttpSessionId o serverName sessionId) :=
  noCall_lock.bind fun _ _ => rfl

theorem noCall_dropStdio (serverName : String) : NoCall (dropStdio o serverName) :=
  noCall_lock.bind fun _ _ => rfl

theorem calls_writeJsonLine (session : Nat) (value : Value) (s : Wire ω) :
    calls (writeJsonLine o session value s).2.sent = calls s.sent ++
      if methodOf value = "tools/call" then [(o.writeJsonLine session value s.world).1.1] else [] := by
  rw [writeJsonLine, calls_append, calls_single]

theorem noCall_writeJsonLine (session : Nat) {value : Value} (h : methodOf value ≠ "tools/call") :
    NoCall (writeJsonLine o session value) := by
  intro s
  rw [calls_writeJsonLine, if_neg h, List.append_nil]

theorem methodOf_initializeRequest : methodOf initializeRequest ≠ "tools/call" := by
  rw [initializeRequest, methodOf_jsonrpcRequest]
  decide

theorem methodOf_initializedNotification : methodOf initializedNotification ≠ "tools/call" := by
  decide

/-! ## Calls over pipes -/

theorem noCall_initializeStdio (serverName : String) (cfg : McpServerConfig) (session : Nat) :
    NoCall (initializeStdio o serverName cfg session) := by
  refine (noCall_writeJsonLine session methodOf_initializeRequest).bind fun _ => ?_
  refine NoCall.bind (NoCall.withContext fun _ => rfl) fun response => ?_
  split_ifs
  · exact noCall_bail _
  · exact noCall_writeJsonLine session methodOf_initializedNotification

theorem noCall_connect (serverName : String) (cfg : McpServerConfig) :
    NoCall (connect o serverName cfg) := by
  refine (noCall_ofExcept _).bind fun _ => ?_
  refine NoCall.bind (fun _ => rfl) fun session => ?_
  refine NoCall.bind (fun _ => rfl) fun _ => ?_
  exact (noCall_initializeStdio serverName cfg session).withContext.bind fun _ => noCall_pure _

theorem noCall_getOrCreateStdio (serverName : String) (cfg : McpServerConfig) :
    NoCall (getOrCreateStdio o serverName cfg) := by
  refine noCall_lock.bind fun _ => ?_
  refine NoCall.bind (fun _ => rfl) fun found => ?_
  cases found with
  | some session => exact noCall_pure session
  | none => exact (noCall_connect serverName cfg).withContext.bind fun _ _ => rfl

theorem calls_sendStdio (serverName : String) (cfg : McpServerConfig) (method : String)
    (params : Value) (s : Wire ω) :
    ∃ l, calls (sendStdio o serverName cfg method params s).2.sent = calls s.sent ++ l ∧
      l.length ≤ 1 := by
  refine (noCall_getOrCreateStdio serverName cfg).calls_bind (Nat.zero_le 1) (fun session s => ?_) s
  refine noCall_lock.calls_bind (Nat.zero_le 1) (fun _ s => ?_) s
  refine NoCall.calls_bind (fun _ => rfl) (Nat.zero_le 1) (fun requestId s => ?_) s
  let line := jsonrpcRequest requestId method params
  refine ⟨if methodOf line = "tools/call" then [(o.writeJsonLine session line s.world).1.1] else [],
    ?_, ?_⟩
  · rw [calls_bind_noCall fun _ => NoCall.withContext fun _ => rfl, calls_writeJsonLine]
  · split_ifs
    · exact Nat.le_refl 1
    · exact Nat.zero_le 1

/-- **A request over pipes is sent once, unless it lists the tools.** -/
theorem calls_requestStdio (serverName : String) (cfg : McpServerConfig) {method : String}
    (params : Value) (hmethod : method ≠ "tools/list") (s : Wire ω) :
    ∃ l, calls (requestStdio o serverName cfg method params s).2.sent = calls s.sent ++ l ∧
      l.length ≤ 1 := by
  obtain ⟨l, hl, hlen⟩ := calls_sendStdio (o := o) serverName cfg method params s
  refine ⟨l, ?_, hlen⟩
  rw [← hl]
  refine (calls_bind_noCall (fun first => ?_) s).trans rfl
  cases first with
  | ok response => exact noCall_pure response
  | error e =>
    refine (noCall_dropStdio serverName).bind fun _ => ?_
    rw [if_neg hmethod]
    exact noCall_bail _

/-! ## Calls over HTTP -/

theorem httpJsonrpc_apply (url : String) (cfg : McpServerConfig) (payload : Value)
    (sessionId : Option String) (s : Wire ω) : httpJsonrpc o url cfg payload sessionId s =
      match buildHeaders o cfg.headers with
      | .error e => (.error e, s)
      | .ok () =>
        let r := o.post (httpPost url cfg payload sessionId) s.world
        (decodeReply o sessionId r.1.reply,
          { s with world := r.2, sent := s.sent ++ [⟨methodOf payload, r.1.received⟩] }) := by
  unfold httpJsonrpc
  cases h : buildHeaders o cfg.headers with
  | error e => rfl
  | ok u => rfl

/-- Whether the server receives a request over HTTP, if it is sent. -/
def receipt (o : Outside ω) (cfg : McpServerConfig) (post : HttpPost) (w : ω) : Option Bool :=
  match buildHeaders o cfg.headers with
  | .error _ => none
  | .ok () => some (o.post post w).1.received

theorem calls_httpJsonrpc (url : String) (cfg : McpServerConfig) (payload : Value)
    (sessionId : Option String) (s : Wire ω) :
    calls (httpJsonrpc o url cfg payload sessionId s).2.sent = calls s.sent ++
      if methodOf payload = "tools/call" then
        (receipt o cfg (httpPost url cfg payload sessionId) s.world).toList else [] := by
  rw [httpJsonrpc_apply, receipt]
  cases buildHeaders o cfg.headers with
  | error e => simp
  | ok u => simp [calls_single]

theorem noCall_httpJsonrpc (url : String) (cfg : McpServerConfig) {payload : Value}
    (sessionId : Option String) (h : methodOf payload ≠ "tools/call") :
    NoCall (httpJsonrpc o url cfg payload sessionId) := by
  intro s
  rw [calls_httpJsonrpc, if_neg h, List.append_nil]

theorem noCall_initializeHttpSession (url : String) (cfg : McpServerConfig)
    (sessionId : Option String) : NoCall (initializeHttpSession o url cfg sessionId) := by
  refine (noCall_httpJsonrpc url cfg sessionId methodOf_initializeRequest).bind fun ⟨init, sessionId⟩ => ?_
  dsimp only
  split_ifs
  · exact noCall_bail _
  · exact (noCall_httpJsonrpc url cfg sessionId methodOf_initializedNotification).bind fun _ => noCall_pure _

theorem noCall_openHttp (serverName : String) (cfg : McpServerConfig) :
    NoCall (openHttp o serverName cfg) := by
  refine (noCall_ofExcept _).bind fun url => ?_
  refine (noCall_getHttpSessionId serverName).bind fun sessionId => ?_
  split_ifs
  · exact (noCall_initializeHttpSession url cfg sessionId).withContext.bind fun _ => noCall_pure _
  · exact noCall_pure _

theorem noCall_reopenHttp (serverName : String) (cfg : McpServerConfig) (url : String) :
    NoCall (reopenHttp o serverName cfg url) :=
  (noCall_setHttpSessionId serverName none).bind fun _ =>
    (noCall_initializeHttpSession url cfg none).withContext

theorem noCall_callBuiltinTool (toolName : String) (args : Value) :
    NoCall (callBuiltinTool o toolName args) := by
  unfold callBuiltinTool
  by_cases h : toolName = "get_current_time"
  · rw [if_pos h]
    exact fun _ => rfl
  · rw [if_neg h]
    exact noCall_bail _

/-- The second sending of a tool call over HTTP, and the world that it is sent to: the first has
failed, and there is a new session. -/
def secondPost (o : Outside ω) (serverName : String) (cfg : McpServerConfig) (params : Value)
    (s : Wire ω) : Option (Bool × HttpPost × ω) :=
  match openHttp o serverName cfg s with
  | (.error _, _) => none
  | (.ok (url, sessionId), s₁) =>
    let request := jsonrpcRequest 2 "tools/call" params
    match receipt o cfg (httpPost url cfg request sessionId) s₁.world with
    | none => none
    | some received =>
      match httpJsonrpc o url cfg request sessionId s₁ with
      | (.ok _, _) => none
      | (.error _, s₂) =>
        match reopenHttp o serverName cfg url s₂ with
        | (.error _, _) => none
        | (.ok sessionId, s₃) => some (received, httpPost url cfg request sessionId, s₃.world)

/-- What follows the first exchange: no call, unless it has failed and a new session is there. -/
theorem calls_afterFirst (serverName : String) (cfg : McpServerConfig) (url : String)
    (request : Value) (first : Except String (Value × Option String)) (s : Wire ω) :
    calls (afterFirst o serverName cfg url request first s).2.sent = calls s.sent ++
      match first, reopenHttp o serverName cfg url s with
      | .error _, (.ok sessionId, s') =>
        if methodOf request = "tools/call" then
          (receipt o cfg (httpPost url cfg request sessionId) s'.world).toList else []
      | _, _ => [] := by
  cases first with
  | ok r =>
    rw [List.append_nil]
    exact ((noCall_setHttpSessionId serverName r.2).bind fun _ => noCall_pure r.1) s
  | error firstErr =>
    have hreopen := noCall_reopenHttp (o := o) serverName cfg url s
    unfold afterFirst
    rcases hs : reopenHttp o serverName cfg url s with ⟨_ | sessionId, s'⟩
    · dsimp only
      rw [bind_error hs, List.append_nil]
      rw [hs] at hreopen
      exact hreopen
    · dsimp only
      rw [bind_ok hs]
      rw [hs] at hreopen
      rw [← hreopen, ← calls_httpJsonrpc]
      refine (calls_bind_noCall (fun retry => ?_) s').trans ?_
      · cases retry with
        | ok r => exact (noCall_setHttpSessionId serverName r.2).bind fun _ => noCall_pure r.1
        | error retryErr => exact noCall_bail _
      · rw [sent_outcome, sent_withContext]

/-- **The calls of a request over HTTP**: at most one, unless the first has failed and a new session is
there. -/
theorem calls_requestHttp (serverName : String) (cfg : McpServerConfig) (params : Value)
    (s : Wire ω) : ∃ l, calls (requestHttp o serverName cfg "tools/call" params s).2.sent
      = calls s.sent ++ l ∧
        match secondPost o serverName cfg params s with
        | none => l.length ≤ 1
        | some (received, post, w) => l = [received, (o.post post w).1.received] := by
  have hopen := noCall_openHttp (o := o) serverName cfg s
  unfold requestHttp secondPost
  rcases hs₁ : openHttp o serverName cfg s with ⟨_ | ⟨url, sessionId⟩, s₁⟩
  · rw [bind_error hs₁]
    rw [hs₁] at hopen
    exact ⟨[], by rw [hopen, List.append_nil], Nat.zero_le 1⟩
  · rw [bind_ok hs₁]
    rw [hs₁] at hopen
    change calls s₁.sent = calls s.sent at hopen
    rw [← hopen]
    have hcalls := calls_httpJsonrpc (o := o) url cfg (jsonrpcRequest 2 "tools/call" params)
      sessionId s₁
    rw [methodOf_jsonrpcRequest, if_pos rfl] at hcalls
    dsimp only
    change ∃ l, calls (afterFirst o serverName cfg url _
      (httpJsonrpc o url cfg (jsonrpcRequest 2 "tools/call" params) sessionId s₁).1
      (httpJsonrpc o url cfg (jsonrpcRequest 2 "tools/call" params) sessionId s₁).2).2.sent = _ ∧ _
    rw [calls_afterFirst, hcalls, methodOf_jsonrpcRequest, List.append_assoc]
    simp only [↓reduceIte]
    refine ⟨_, rfl, ?_⟩
    unfold receipt
    cases buildHeaders o cfg.headers with
    | error e =>
      dsimp only [Option.toList_none]
      rw [List.nil_append]
      split <;> exact Nat.zero_le 1
    | ok u =>
      rcases httpJsonrpc o url cfg (jsonrpcRequest 2 "tools/call" params) sessionId s₁
        with ⟨_ | r, s₂⟩
      · dsimp only
        rcases reopenHttp o serverName cfg url s₂ with ⟨_ | sessionId', s₃⟩
        · exact Nat.le_refl 1
        · rfl
      · exact Nat.le_refl 1

end Calls

/-! ## Tool calls, at most once -/

/-- The second sending that a tool call makes after the server has received the first. -/
def resend {ω : Type} (o : Outside ω) (rt : McpRuntime) (serverName toolName : String) (args : Value)
    (s : Wire ω) : Option (HttpPost × ω) :=
  if serverName = builtinMcpServerName then none
  else
    match rt.servers serverName with
    | none => none
    | some cfg =>
      if cfg.enabled ∧ cfg.transport = .http then
        match secondPost o serverName cfg (toolCallParams toolName args) s with
        | some (true, post, w) => some (post, w)
        | _ => none
      else none

/-- The calls of a tool call, by whether one follows a received one. -/
theorem calls_callTool {ω : Type} (o : Outside ω) (rt : McpRuntime) (serverName toolName : String)
    (args : Value) (w : ω) (pool : McpSessionPool) :
    ∃ l, calls (rt.callTool o serverName toolName args ⟨w, pool, []⟩).2.sent = l ∧
      match resend o rt serverName toolName args ⟨w, pool, []⟩ with
      | none => l.length ≤ 1 ∨ ∃ received, l = [false, received]
      | some (post, w') => l = [true, (o.post post w').1.received] := by
  unfold McpRuntime.callTool resend
  by_cases hbuiltin : serverName = builtinMcpServerName
  · rw [if_pos hbuiltin, if_pos hbuiltin]
    exact ⟨[], noCall_callBuiltinTool toolName args _, .inl (Nat.zero_le 1)⟩
  · rw [if_neg hbuiltin, if_neg hbuiltin]
    cases hcfg : rt.servers serverName with
    | none => exact ⟨[], rfl, .inl (Nat.zero_le 1)⟩
    | some cfg =>
      rw [ofExcept_context_some]
      dsimp only
      by_cases henabled : cfg.enabled
      · rw [if_neg (not_not.mpr henabled), calls_bind_noCall fun _ => noCall_pure _]
        unfold requestServer
        cases htransport : cfg.transport with
        | stdio =>
          obtain ⟨l, hl, hlen⟩ := calls_requestStdio (o := o) serverName cfg
            (toolCallParams toolName args) (show "tools/call" ≠ "tools/list" by decide) ⟨w, pool, []⟩
          rw [if_neg nofun]
          exact ⟨l, hl, .inl hlen⟩
        | http =>
          obtain ⟨l, hl, hsecond⟩ := calls_requestHttp (o := o) serverName cfg
            (toolCallParams toolName args) ⟨w, pool, []⟩
          rw [if_pos ⟨henabled, rfl⟩]
          refine ⟨l, hl, ?_⟩
          rcases hs : secondPost o serverName cfg (toolCallParams toolName args) ⟨w, pool, []⟩ with
            _ | ⟨_ | _, post, w'⟩
          · rw [hs] at hsecond
            exact .inl hsecond
          · rw [hs] at hsecond
            exact .inr ⟨_, hsecond⟩
          · rw [hs] at hsecond
            exact hsecond
      · rw [if_pos henabled, if_neg fun h => henabled h.1]
        exact ⟨[], rfl, .inl (Nat.zero_le 1)⟩

/-- **When a tool call is received at most once.** It is, and it is sent again only where it had not
been received, exactly when no second sending follows a received one: over HTTP one does when the first
exchange has failed and a new session is there. -/
theorem tool_call_at_most_once {ω : Type} (o : Outside ω) (rt : McpRuntime)
    (serverName toolName : String) (args : Value) (w : ω) (pool : McpSessionPool) :
    (AtMostOnce (rt.callTool o serverName toolName args ⟨w, pool, []⟩).2.sent ↔
      resend o rt serverName toolName args ⟨w, pool, []⟩ = none) ∧
    ((calls (rt.callTool o serverName toolName args ⟨w, pool, []⟩).2.sent).count true ≤ 1 ↔
      ∀ post w', resend o rt serverName toolName args ⟨w, pool, []⟩ = some (post, w') →
        (o.post post w').1.received = false) := by
  obtain ⟨l, hl, hcalls⟩ := calls_callTool o rt serverName toolName args w pool
  unfold AtMostOnce
  rw [hl]
  rcases hr : resend o rt serverName toolName args ⟨w, pool, []⟩ with _ | ⟨post, w'⟩
  · rw [hr] at hcalls
    have honce : l.count true ≤ 1 ∧ l.Pairwise fun first _ => first = false := by
      rcases hcalls with hlen | ⟨received, rfl⟩
      · match l with
        | [] => exact ⟨Nat.zero_le 1, .nil⟩
        | [b] => exact ⟨List.count_le_length, List.pairwise_singleton _ _⟩
      · cases received <;> simp
    exact ⟨⟨fun _ => rfl, fun _ => honce⟩, fun _ _ _ => nofun, fun _ => honce.1⟩
  · rw [hr] at hcalls
    dsimp only at hcalls
    rw [hcalls]
    refine ⟨⟨fun h => ?_, nofun⟩, fun h post' w'' he => ?_, fun h => ?_⟩
    · exact absurd (List.rel_of_pairwise_cons h.2 List.mem_cons_self) (by decide)
    · cases he
      revert h
      cases (o.post post w').1.received <;> simp
    · rw [h post w' rfl]
      decide

namespace Sample

/-- A server that loses its reply to the first tool call; the world counts the tool calls. -/
def lossyServer : Outside Nat where
  post p n :=
    if methodOf p.payload = "tools/call" then
      (⟨true, if n = 0 then .failed else .response 200 none "application/json" (some "{}")⟩, n + 1)
    else (⟨true, .response 200 (some "session-1") "application/json" (some "{}")⟩, n)
  spawn _ n := (.error "no such program", n)
  writeJsonLine _ _ n := ((false, .error "failed to write jsonrpc message"), n)
  readMessageWithId _ _ _ n := (.error "mcp stdio closed", n)
  fromStr text := if text = "{}" then some (.json []) else none
  display _ := "{}"
  showStatus status := toString status
  validName _ := true
  validValue _ := true
  currentTime _ n := (.ok (.json []), n)
  meanwhile n pool := (n, pool)

def lossyRuntime : McpRuntime where
  servers name :=
    if name = "demo" then some { transport := .http, url := some "http://127.0.0.1:8787/mcp" } else none

end Sample

/-- A tool call whose first reply is lost is received twice. -/
theorem tool_call_received_twice :
    ¬ AtMostOnce (Sample.lossyRuntime.callTool Sample.lossyServer "demo" "echo" (.json [])
      ⟨0, ⟨fun _ => none, fun _ => none, fun _ => 2⟩, []⟩).2.sent := by
  have hcalls : calls (Sample.lossyRuntime.callTool Sample.lossyServer "demo" "echo" (.json [])
      ⟨0, ⟨fun _ => none, fun _ => none, fun _ => 2⟩, []⟩).2.sent = [true, true] := by
    decide +kernel
  intro h
  have hcount := h.1
  rw [hcalls] at hcount
  exact absurd hcount (by decide)

end Xiaomaolv
