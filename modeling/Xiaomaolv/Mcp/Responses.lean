import Xiaomaolv.Lib.EventStream
import Xiaomaolv.Loop.Text
import Xiaomaolv.Mcp.Requests

/-!
# What a tool call returns

A server answers a tool call among other messages: in the body of an HTTP reply, as JSON or as a stream of events, or
in the pipe of a process. The client takes one message for the response, and of it the result.

* `Pipes`, `readWithId`: what is read from a process, up to a message with the id of the request.
* `ServerReply`: what the server sends for a request; `ServerReply.answer`: the response in it.
* `answering`: the request that a tool call gets its value from; **`callTool_ok_iff`**: the value.
* `ServerReply.First`: the message that is taken for the response.
* **`call_tool_faithful_iff`**: the value is that of the response exactly if the response has a result, and the message
  that is taken has it too.
-/

namespace Xiaomaolv

/-! ## Pipes -/

/-- The pipes of the processes. -/
structure Pipes (ω : Type) where
  /-- What `read_jsonrpc_message` gives in a session, one call after another; then the pipe is closed. -/
  incoming : Nat → Nat → ω → List (Except String Value)
  /-- The world after the messages up to one with this id are read. -/
  after : Nat → Nat → Nat → ω → ω

/-- `read_jsonrpc_message_with_id`. -/
def readWithId (requestId : Nat) : List (Except String Value) → Except String Value
  | [] => .error "mcp stdio closed"
  | .error e :: _ => .error e
  | .ok msg :: rest =>
    match msg.get "id" with
    | none => readWithId requestId rest
    | some id => if id = .int requestId then .ok msg else readWithId requestId rest

/-- The client with these pipes. -/
def Outside.over {ω : Type} (o : Outside ω) (pipes : Pipes ω) : Outside ω :=
  { o with
    readMessageWithId := fun session timeoutSecs requestId w =>
      (readWithId requestId (pipes.incoming session timeoutSecs w), pipes.after session timeoutSecs requestId w) }

theorem readWithId_ok (requestId : Nat) (msg : Value) (rest : List (Except String Value)) :
    readWithId requestId (.ok msg :: rest) =
      if msg.get "id" = some (.int requestId) then .ok msg else readWithId requestId rest := by
  rw [readWithId]
  cases msg.get "id" with
  | none => rfl
  | some id => simp only [Option.some.injEq]

/-- The first message with the id is read, if only messages with other ids or none come before it. -/
theorem readWithId_eq_ok {requestId : Nat} {msg : Value} {incoming : List (Except String Value)} :
    readWithId requestId incoming = .ok msg ↔ ∃ before rest, incoming = before ++ .ok msg :: rest ∧
      msg.get "id" = some (.int requestId) ∧ ∀ r ∈ before, ∃ other, r = .ok other ∧
        other.get "id" ≠ some (.int requestId) := by
  induction incoming with
  | nil =>
    constructor
    · exact fun h => nomatch h
    · rintro ⟨before, rest, h, -⟩
      simp at h
  | cons r incoming ih =>
    cases r with
    | error e =>
      constructor
      · exact fun h => nomatch h
      · rintro ⟨before, rest, h, -, hbefore⟩
        cases before with
        | nil => cases h
        | cons r before =>
          obtain ⟨other, rfl, -⟩ := hbefore r List.mem_cons_self
          cases (List.cons.inj h).1
    | ok first =>
      rw [readWithId_ok]
      by_cases hid : first.get "id" = some (.int requestId)
      · rw [if_pos hid]
        constructor
        · intro h
          obtain rfl := Except.ok.inj h
          exact ⟨[], incoming, rfl, hid, fun _ h => nomatch h⟩
        · rintro ⟨before, rest, h, -, hbefore⟩
          cases before with
          | nil => rw [(List.cons.inj h).1]
          | cons r before =>
            obtain ⟨other, rfl, hother⟩ := hbefore r List.mem_cons_self
            rw [← Except.ok.inj (List.cons.inj h).1] at hother
            exact absurd hid hother
      · rw [if_neg hid, ih]
        constructor
        · rintro ⟨before, rest, rfl, hmsg, hbefore⟩
          exact ⟨.ok first :: before, rest, rfl, hmsg, List.forall_mem_cons.mpr ⟨⟨first, rfl, hid⟩, hbefore⟩⟩
        · rintro ⟨before, rest, h, hmsg, hbefore⟩
          cases before with
          | nil =>
            rw [Except.ok.inj (List.cons.inj h).1] at hid
            exact absurd hmsg hid
          | cons r before =>
            exact ⟨before, rest, (List.cons.inj h).2, hmsg, fun r hr => hbefore r (List.mem_cons_of_mem _ hr)⟩

/-! ## Answers -/

/-- What a response says. -/
inductive Answer where
  | result (value : Value)
  | error (value : Value)
  deriving DecidableEq

/-- What a message says to the request with this id, if it is a response to it. -/
def answer? (id : Nat) (msg : Value) : Option Answer :=
  if msg.get "id" = some (.int id) ∧ msg.get "method" = none then
    match msg.get "result", msg.get "error" with
    | some value, none => some (.result value)
    | none, some value => some (.error value)
    | _, _ => none
  else none

/-- What a server sends for a request: a reply over HTTP, or messages into the pipe. -/
inductive ServerReply where
  | http (reply : HttpReply)
  | pipe (incoming : List (Except String Value))
  deriving DecidableEq

/-- A data line of a stream that is JSON by itself. -/
def lineJson {ω : Type} (o : Outside ω) (raw : String) : Option Value :=
  if raw.isEmpty || raw = "[DONE]" then none else o.fromStr raw

namespace ServerReply

variable {ω : Type} (o : Outside ω)

/-- The messages that are sent. -/
def messages : ServerReply → List Value
  | http (.response status _ contentType (some body)) =>
    if ¬ (200 ≤ status ∧ status < 300) then []
    else if contains contentType "application/json" then (o.fromStr body).toList
    else if contains contentType "text/event-stream" then
      (EventStream.read body.toList).filterMap fun data => o.fromStr (String.ofList data)
    else []
  | http _ => []
  | pipe incoming => (incoming.takeWhile fun r => r.toOption.isSome).filterMap Except.toOption

/-- The response to the request. -/
def answer (id : Nat) (reply : ServerReply) : Option Answer := (reply.messages o).findSome? (answer? id)

/-- The message that the client takes for the response. -/
def taken (id : Nat) : ServerReply → Option Value
  | http reply => (decodeReply o none reply).toOption.map Prod.fst
  | pipe incoming => (readWithId id incoming).toOption

/-- This message comes first: it is the body, or the first data line that is JSON by itself, or the first one in the
pipe with the id of the request. -/
def First (id : Nat) (msg : Value) : ServerReply → Prop
  | http (.response _ _ contentType (some body)) =>
    if contains contentType "application/json" then o.fromStr body = some msg
    else ∃ before line rest, (textLines body).filterMap sseData? = before ++ line :: rest ∧
      lineJson o line = some msg ∧ ∀ l ∈ before, lineJson o l = none
  | http _ => False
  | pipe incoming => ∃ before rest, incoming = before ++ .ok msg :: rest ∧ msg.get "id" = some (.int id) ∧
      ∀ r ∈ before, ∃ other, r = .ok other ∧ other.get "id" ≠ some (.int id)

/-- What comes first conveys the answer: it has the result, or the result is empty and it has none. An error is conveyed
only where no message comes first. -/
def Conveys (id : Nat) : Answer → ServerReply → Prop
  | .result value, reply => ∃ msg, reply.First o id msg ∧
      (msg.get "result" = some value ∨ msg.get "result" = none ∧ value = .json [])
  | .error _, reply => ∀ msg, ¬ reply.First o id msg

theorem toOption_parseSseJsonrpc (body : String) : (parseSseJsonrpc o body).toOption =
    ((textLines body).filterMap sseData?).findSome? (lineJson o) := by
  rw [parseSseJsonrpc]
  split_ifs with hempty
  · rw [List.isEmpty_iff.mp hempty]
    rfl
  · split
    · rename_i value hfound
      exact hfound.symm
    · rename_i hnone
      exact hnone.symm

variable {o}

theorem taken_eq_some {id : Nat} {reply : ServerReply} {answer : Answer} (h : reply.answer o id = some answer)
    {msg : Value} : reply.taken o id = some msg ↔ reply.First o id msg := by
  match reply with
  | http .failed => cases h
  | http (.response _ _ _ none) => cases h
  | pipe incoming =>
    rw [taken, First, ← readWithId_eq_ok]
    cases readWithId id incoming <;> simp [Except.toOption]
  | http (.response status header contentType (some body)) =>
    rw [ServerReply.answer, messages] at h
    by_cases hstatus : ¬ (200 ≤ status ∧ status < 300)
    · rw [if_pos hstatus] at h
      cases h
    rw [if_neg hstatus] at h
    rw [taken, First, decodeReply, if_neg hstatus]
    by_cases hjson : contains contentType "application/json" = true
    · rw [if_pos hjson, if_pos hjson]
      cases o.fromStr body <;> simp [context, bind, Except.bind, Except.toOption]
    rw [if_neg hjson] at h
    by_cases hstream : contains contentType "text/event-stream" = true
    · rw [if_neg hjson, if_neg hjson, if_pos hstream, ← List.findSome?_eq_some_iff, ← toOption_parseSseJsonrpc]
      cases parseSseJsonrpc o body <;> simp [bind, Except.bind, Except.toOption]
    · rw [if_neg hstream] at h
      cases h

end ServerReply

/-! ## The request that a call gets its value from -/

section Calls

variable {ω : Type} (o : Outside ω) (pipes : Pipes ω)

/-- The request of a tool call to a process, and what is read after it. -/
def answeringStdio (serverName : String) (cfg : McpServerConfig) (params : Value) (s : Wire ω) :
    Option (Nat × ServerReply) :=
  match (do
      let session ← getOrCreateStdio (o.over pipes) serverName cfg
      lock (o.over pipes)
      let requestId ← allocateRequestId session
      writeJsonLine (o.over pipes) session (jsonrpcRequest requestId "tools/call" params)
      pure (session, requestId) : Rpc ω (Nat × Nat)) s with
  | (.error _, _) => none
  | (.ok (session, requestId), s') =>
    some (requestId, .pipe (pipes.incoming session (max cfg.timeoutSecs 1) s'.world))

/-- The reply to the last request of a tool call over HTTP. -/
def answeringHttp (serverName : String) (cfg : McpServerConfig) (params : Value) (s : Wire ω) : Option HttpReply :=
  let request := jsonrpcRequest 2 "tools/call" params
  match openHttp o serverName cfg s with
  | (.error _, _) => none
  | (.ok (url, sessionId), s₁) =>
    match buildHeaders o cfg.headers with
    | .error _ => none
    | .ok () =>
      let first := (o.post (httpPost url cfg request sessionId) s₁.world).1.reply
      match httpJsonrpc o url cfg request sessionId s₁ with
      | (.ok _, _) => some first
      | (.error _, s₂) =>
        -- Without a new session the first request stays the last one.
        match reopenHttp o serverName cfg url s₂ with
        | (.error _, _) => some first
        | (.ok sessionId, s₃) => some (o.post (httpPost url cfg request sessionId) s₃.world).1.reply

/-- The last request of a tool call, by its id, and what the server sends for it. -/
def answering (rt : McpRuntime) (serverName toolName : String) (args : Value) (s : Wire ω) :
    Option (Nat × ServerReply) :=
  if serverName = builtinMcpServerName then none
  else
    match rt.servers serverName with
    | none => none
    | some cfg =>
      if ¬ cfg.enabled then none
      else
        match cfg.transport with
        | .stdio => answeringStdio o pipes serverName cfg (toolCallParams toolName args) s
        | .http =>
          (answeringHttp (o.over pipes) serverName cfg (toolCallParams toolName args) s).map fun reply =>
            (2, .http reply)

variable {o pipes}

theorem rpcWithContext_eq_ok {α : Type} {message : String} {op : Rpc ω α} {s : Wire ω} {a : α} :
    (Rpc.withContext message op s).1 = .ok a ↔ (op s).1 = .ok a := by
  rw [Rpc.withContext]
  rcases op s with ⟨_ | b, s'⟩ <;> simp

theorem bind_eq_ok_iff {α β : Type} {op : Rpc ω α} {f : α → Rpc ω β} {s : Wire ω} {b : β} :
    ((op >>= f) s).1 = .ok b ↔ ∃ a s', op s = (.ok a, s') ∧ (f a s').1 = .ok b := by
  rw [bind_apply]
  rcases op s with ⟨_ | a, s'⟩ <;> simp

theorem sendStdio_eq_ok {serverName : String} {cfg : McpServerConfig} {params : Value} {s : Wire ω} {id : Nat}
    {reply : ServerReply} (h : answeringStdio o pipes serverName cfg params s = some (id, reply)) {msg : Value} :
    (sendStdio (o.over pipes) serverName cfg "tools/call" params s).1 = .ok msg ↔
      reply.taken (o.over pipes) id = some msg := by
  rw [answeringStdio] at h
  rw [sendStdio]
  rcases hget : getOrCreateStdio (o.over pipes) serverName cfg s with ⟨_ | session, s₁⟩
  · rw [bind_error hget] at h
    cases h
  rw [bind_ok hget] at h ⊢
  have hlock : ∃ s₂, lock (o.over pipes) s₁ = (.ok (), s₂) := ⟨_, rfl⟩
  obtain ⟨s₂, hlock⟩ := hlock
  rw [bind_ok hlock] at h ⊢
  have hallocate : ∃ requestId s₃, allocateRequestId (ω := ω) session s₂ = (.ok requestId, s₃) := ⟨_, _, rfl⟩
  obtain ⟨requestId, s₃, hallocate⟩ := hallocate
  rw [bind_ok hallocate] at h ⊢
  rcases hwrite : writeJsonLine (o.over pipes) session (jsonrpcRequest requestId "tools/call" params) s₃ with
    ⟨_ | _, s₄⟩
  · rw [bind_error hwrite] at h
    cases h
  rw [bind_ok hwrite] at h ⊢
  obtain ⟨rfl, rfl⟩ := Prod.mk.inj (Option.some.inj h)
  rw [rpcWithContext_eq_ok, ServerReply.taken]
  change readWithId requestId (pipes.incoming session (max cfg.timeoutSecs 1) s₄.world) = _ ↔ _
  cases readWithId requestId (pipes.incoming session (max cfg.timeoutSecs 1) s₄.world) <;> simp [Except.toOption]

theorem requestStdio_eq_ok {serverName : String} {cfg : McpServerConfig} {params : Value} {s : Wire ω} {msg : Value} :
    (requestStdio o serverName cfg "tools/call" params s).1 = .ok msg ↔
      (sendStdio o serverName cfg "tools/call" params s).1 = .ok msg := by
  have hlist : "tools/call" ≠ "tools/list" := by decide
  rw [requestStdio, bind_ok (show Rpc.outcome _ s = (.ok (sendStdio o serverName cfg "tools/call" params s).1,
    (sendStdio o serverName cfg "tools/call" params s).2) from rfl)]
  cases (sendStdio o serverName cfg "tools/call" params s).1 with
  | ok response => rfl
  | error e =>
    rw [if_neg hlist]
    exact iff_of_false nofun nofun

theorem decodeReply_fst (sessionId : Option String) (reply : HttpReply) :
    (decodeReply o sessionId reply).toOption.map Prod.fst = (ServerReply.http reply).taken o 2 := by
  rw [ServerReply.taken]
  match reply with
  | .failed => rfl
  | .response _ _ _ none => rfl
  | .response status header contentType (some body) =>
    rw [decodeReply, decodeReply]
    split_ifs
    · cases o.fromStr body <;> rfl
    · cases parseSseJsonrpc o body <;> rfl
    · rfl
    · rfl

theorem httpJsonrpc_fst {cfg : McpServerConfig} (hheaders : buildHeaders o cfg.headers = .ok ()) (url : String)
    (payload : Value) (sessionId : Option String) (s : Wire ω) :
    (httpJsonrpc o url cfg payload sessionId s).1 =
      decodeReply o sessionId (o.post (httpPost url cfg payload sessionId) s.world).1.reply := by
  rw [httpJsonrpc_apply, hheaders]

theorem taken_eq_of_decode {sessionId : Option String} {reply : HttpReply} {r : Except String (Value × Option String)}
    (h : decodeReply o sessionId reply = r) :
    (ServerReply.http reply).taken o 2 = r.toOption.map Prod.fst := by
  rw [← h, decodeReply_fst]

theorem fetched_eq_ok (serverName : String) (sessionId : Option String) (s : Wire ω) {value msg : Value} :
    ((setHttpSessionId o serverName sessionId >>= fun _ => pure value : Rpc ω Value) s).1 = .ok msg ↔ value = msg := by
  change (Except.ok value : Except String Value) = .ok msg ↔ _
  exact Except.ok.injEq value msg ▸ Iff.rfl

/-- A request over HTTP ends with what the last reply decodes to. -/
theorem requestHttp_eq_ok {serverName : String} {cfg : McpServerConfig} {params : Value} {s : Wire ω}
    {reply : HttpReply} (h : answeringHttp o serverName cfg params s = some reply) {msg : Value} :
    (requestHttp o serverName cfg "tools/call" params s).1 = .ok msg ↔
      (ServerReply.http reply).taken o 2 = some msg := by
  rw [answeringHttp] at h
  rw [requestHttp]
  dsimp only at h
  rcases hopen : openHttp o serverName cfg s with ⟨_ | ⟨url, sessionId⟩, s₁⟩
  · rw [hopen] at h
    cases h
  rw [hopen] at h
  rw [bind_ok hopen]
  dsimp only at h ⊢
  cases hheaders : buildHeaders o cfg.headers with
  | error e =>
    rw [hheaders] at h
    cases h
  | ok u =>
    rw [hheaders] at h
    dsimp only at h
    have hfirst := httpJsonrpc_fst hheaders url (jsonrpcRequest 2 "tools/call" params) sessionId s₁
    rcases hpost : httpJsonrpc o url cfg (jsonrpcRequest 2 "tools/call" params) sessionId s₁ with ⟨r, s₂⟩
    rw [hpost] at h hfirst
    have houtcome : Rpc.outcome (httpJsonrpc o url cfg (jsonrpcRequest 2 "tools/call" params) sessionId) s₁ =
        (.ok r, s₂) := by
      rw [Rpc.outcome, hpost]
    rw [bind_ok houtcome]
    cases r with
    | ok r =>
      obtain rfl := Option.some.inj h
      rw [taken_eq_of_decode hfirst.symm]
      exact (fetched_eq_ok serverName r.2 s₂).trans (by simp [Except.toOption])
    | error e =>
      dsimp only at h
      rw [afterFirst]
      rcases hreopen : reopenHttp o serverName cfg url s₂ with ⟨_ | sessionId', s₃⟩
      · rw [hreopen] at h
        obtain rfl := Option.some.inj h
        rw [taken_eq_of_decode hfirst.symm, bind_error hreopen]
        exact iff_of_false nofun nofun
      · rw [hreopen] at h
        obtain rfl := Option.some.inj h
        rw [bind_ok hreopen]
        rw [← decodeReply_fst sessionId', ← httpJsonrpc_fst hheaders]
        rcases hretry : httpJsonrpc o url cfg (jsonrpcRequest 2 "tools/call" params) sessionId' s₃ with ⟨_ | r, s₄⟩
        · have hfailed : Rpc.outcome (Rpc.withContext
              s!"mcp server '{serverName}' request failed after reinitialize"
              (httpJsonrpc o url cfg (jsonrpcRequest 2 "tools/call" params) sessionId')) s₃ =
              (.ok (.error s!"mcp server '{serverName}' request failed after reinitialize"), s₄) := by
            rw [Rpc.outcome, Rpc.withContext, hretry]
          rw [bind_ok hfailed]
          exact iff_of_false nofun nofun
        · have hdone : Rpc.outcome (Rpc.withContext
              s!"mcp server '{serverName}' request failed after reinitialize"
              (httpJsonrpc o url cfg (jsonrpcRequest 2 "tools/call" params) sessionId')) s₃ = (.ok (.ok r), s₄) := by
            rw [Rpc.outcome, Rpc.withContext, hretry]
          rw [bind_ok hdone]
          exact (fetched_eq_ok serverName r.2 s₄).trans (by simp [Except.toOption])

/-- **The value of a call**: the result of the message that is taken, or an empty object. -/
theorem callTool_ok_iff {rt : McpRuntime} {serverName toolName : String} {args : Value} {s : Wire ω} {id : Nat}
    {reply : ServerReply} (h : answering o pipes rt serverName toolName args s = some (id, reply)) {value : Value} :
    (rt.callTool (o.over pipes) serverName toolName args s).1 = .ok value ↔
      ∃ msg, reply.taken (o.over pipes) id = some msg ∧ (msg.get "result").getD (.json []) = value := by
  rw [answering] at h
  rw [McpRuntime.callTool]
  by_cases hbuiltin : serverName = builtinMcpServerName
  · rw [if_pos hbuiltin] at h
    cases h
  rw [if_neg hbuiltin] at h ⊢
  cases hcfg : rt.servers serverName with
  | none =>
    rw [hcfg] at h
    cases h
  | some cfg =>
    rw [hcfg] at h
    dsimp only at h
    rw [ofExcept_context_some]
    by_cases henabled : ¬ cfg.enabled
    · rw [if_pos henabled] at h
      cases h
    rw [if_neg henabled] at h ⊢
    have htaken : ∀ msg, (requestServer (o.over pipes) serverName cfg "tools/call" (toolCallParams toolName args) s).1 =
        .ok msg ↔ reply.taken (o.over pipes) id = some msg := by
      intro msg
      rw [requestServer]
      cases htransport : cfg.transport with
      | stdio =>
        rw [htransport] at h
        exact requestStdio_eq_ok.trans (sendStdio_eq_ok h)
      | http =>
        rw [htransport] at h
        obtain ⟨reply, hhttp, heq⟩ := Option.map_eq_some_iff.mp h
        obtain ⟨rfl, rfl⟩ := Prod.mk.inj heq
        exact requestHttp_eq_ok hhttp
    rw [bind_eq_ok_iff]
    constructor
    · rintro ⟨msg, s', hmsg, hvalue⟩
      exact ⟨msg, (htaken msg).mp (by rw [hmsg]), Except.ok.inj hvalue⟩
    · rintro ⟨msg, hmsg, rfl⟩
      exact ⟨msg, _, Prod.ext ((htaken msg).mpr hmsg) rfl, rfl⟩

end Calls

/-! ## Faithful calls -/

/-- The value of a call is that of the answer. -/
def Answer.Faithful (answer : Answer) (returned : Except String Value) : Prop :=
  (∀ value, returned = .ok value ↔ answer = .result value) ∧
    ((∃ value, answer = .error value) → ∃ e, returned = .error e)

/-- **A tool call returns what the server has answered** exactly if its answer is conveyed by the message that comes
first. -/
theorem call_tool_faithful_iff {ω : Type} (o : Outside ω) (pipes : Pipes ω) (rt : McpRuntime)
    (serverName toolName : String) (args : Value) (s : Wire ω) {id : Nat} {reply : ServerReply} {answer : Answer}
    (hreply : answering o pipes rt serverName toolName args s = some (id, reply))
    (hanswer : reply.answer (o.over pipes) id = some answer) :
    answer.Faithful (rt.callTool (o.over pipes) serverName toolName args s).1 ↔
      ServerReply.Conveys (o.over pipes) id answer reply := by
  have hok : ∀ value, (rt.callTool (o.over pipes) serverName toolName args s).1 = .ok value ↔
      ∃ msg, reply.First (o.over pipes) id msg ∧ (msg.get "result").getD (.json []) = value := by
    intro value
    simp only [callTool_ok_iff hreply, ServerReply.taken_eq_some hanswer]
  generalize (rt.callTool (o.over pipes) serverName toolName args s).1 = returned at hok ⊢
  rw [Answer.Faithful]
  cases answer with
  | result value =>
    rw [ServerReply.Conveys]
    constructor
    · rintro ⟨hvalue, -⟩
      obtain ⟨msg, hfirst, hget⟩ := (hok value).mp ((hvalue value).mpr rfl)
      refine ⟨msg, hfirst, ?_⟩
      cases hresult : msg.get "result" with
      | none => exact Or.inr ⟨rfl, by rw [← hget, hresult]; rfl⟩
      | some result => exact Or.inl (by rw [← hget, hresult]; rfl)
    · rintro ⟨msg, hfirst, hget⟩
      have hvalue : (msg.get "result").getD (.json []) = value := by
        rcases hget with hget | ⟨hget, rfl⟩ <;> rw [hget] <;> rfl
      have hreturned := (hok value).mpr ⟨msg, hfirst, hvalue⟩
      refine ⟨fun other => ?_, fun h => ?_⟩
      · rw [hreturned, Except.ok.injEq, Answer.result.injEq]
      · obtain ⟨_, h⟩ := h
        cases h
  | error value =>
    rw [ServerReply.Conveys]
    constructor
    · rintro ⟨hnone, -⟩ msg hfirst
      have hreturned := (hok _).mpr ⟨msg, hfirst, rfl⟩
      exact nomatch (hnone _).mp hreturned
    · intro hnone
      have herror : ∀ other, returned ≠ .ok other := by
        intro other h
        obtain ⟨msg, hfirst, -⟩ := (hok other).mp h
        exact hnone msg hfirst
      refine ⟨fun other => iff_of_false (herror other) nofun, fun _ => ?_⟩
      cases returned with
      | ok other => exact absurd rfl (herror other)
      | error e => exact ⟨e, rfl⟩

/-! ## Bodies -/

/-- A stream of events with one data line each. -/
def eventBody (texts : List String) : String := String.ofList (texts.flatMap fun text => EventStream.event text.toList)

namespace Sample

def failedText : String := "\x7b\"jsonrpc\":\"2.0\",\"id\":2,\"error\":\x7b\"code\":-32602,\"message\":\"unknown tool\"\x7d\x7d"

def unknownTool : Value := .json [("code", .int (-32602)), ("message", .string "unknown tool")]

def progressText : String := "\x7b\"jsonrpc\":\"2.0\",\"method\":\"notifications/progress\"\x7d"

def doneText : String := "\x7b\"jsonrpc\":\"2.0\",\"id\":2,\"result\":\"done\"\x7d"

/-- A server that gives every request this reply. -/
def repeatingServer (contentType body : String) : Outside Unit where
  post _ _ := (⟨true, .response 200 none contentType (some body)⟩, ())
  spawn _ _ := (.error "no such program", ())
  writeJsonLine _ _ _ := ((false, .error "failed to write jsonrpc message"), ())
  readMessageWithId _ _ _ _ := (.error "mcp stdio closed", ())
  fromStr text :=
    if text = failedText then some (.json [("jsonrpc", .string "2.0"), ("id", .int 2), ("error", unknownTool)])
    else if text = progressText then
      some (.json [("jsonrpc", .string "2.0"), ("method", .string "notifications/progress")])
    else if text = doneText then
      some (.json [("jsonrpc", .string "2.0"), ("id", .int 2), ("result", .string "done")])
    else none
  display _ := "\x7b\x7d"
  showStatus status := toString status
  validName _ := true
  validValue _ := true
  currentTime _ _ := (.ok (.json []), ())
  meanwhile _ pool := ((), pool)

def noPipes : Pipes Unit := ⟨fun _ _ _ => [], fun _ _ _ _ => ()⟩

/-- A session is open. -/
def openWire : Wire Unit := ⟨(), ⟨fun _ => some "session-1", fun _ => none, fun _ => 2⟩, []⟩

/-- The tool call, and what it returns. -/
def called (contentType body : String) : Except String Value :=
  (lossyRuntime.callTool ((repeatingServer contentType body).over noPipes) "demo" "echo" (.json []) openWire).1

/-- What the server sends for it. -/
def sent (contentType body : String) : ServerReply := .http (.response 200 none contentType (some body))

end Sample

/-- A response that comes first in the stream is returned. -/
theorem done_before_progress : (Answer.result (.string "done")).Faithful
    (Sample.called "text/event-stream" (eventBody [Sample.doneText, Sample.progressText])) :=
  (@call_tool_faithful_iff Unit
    (Sample.repeatingServer "text/event-stream" (eventBody [Sample.doneText, Sample.progressText])) Sample.noPipes
    Sample.lossyRuntime "demo" "echo" (.json []) Sample.openWire 2
    (Sample.sent "text/event-stream" (eventBody [Sample.doneText, Sample.progressText])) (.result (.string "done"))
    (by decide +kernel) (by decide +kernel)).mpr
    ⟨.json [("jsonrpc", .string "2.0"), ("id", .int 2), ("result", .string "done")],
      ⟨[], Sample.doneText, [Sample.progressText], by decide +kernel, by decide +kernel, fun _ h => nomatch h⟩,
      Or.inl rfl⟩

theorem Answer.not_faithful {answer : Answer} {value : Value} (h : answer ≠ .result value) :
    ¬ answer.Faithful (.ok value) := fun hfaithful => h ((hfaithful.1 value).mp rfl)

/-- An error is returned as an empty object, and so is a result that comes after a notification. -/
theorem answers_lost :
    (answering (Sample.repeatingServer "application/json" Sample.failedText) Sample.noPipes Sample.lossyRuntime "demo"
        "echo" (.json []) Sample.openWire = some (2, Sample.sent "application/json" Sample.failedText) ∧
      (Sample.sent "application/json" Sample.failedText).answer
        ((Sample.repeatingServer "application/json" Sample.failedText).over Sample.noPipes) 2 =
          some (.error Sample.unknownTool) ∧
      ¬ (Answer.error Sample.unknownTool).Faithful (Sample.called "application/json" Sample.failedText)) ∧
    (Sample.sent "text/event-stream" (eventBody [Sample.progressText, Sample.doneText])).answer
        ((Sample.repeatingServer "text/event-stream" (eventBody [Sample.progressText, Sample.doneText])).over
          Sample.noPipes) 2 = some (.result (.string "done")) ∧
      ¬ (Answer.result (.string "done")).Faithful
        (Sample.called "text/event-stream" (eventBody [Sample.progressText, Sample.doneText])) := by
  have hfailed : Sample.called "application/json" Sample.failedText = .ok (.json []) := by decide +kernel
  have hlate : Sample.called "text/event-stream" (eventBody [Sample.progressText, Sample.doneText]) =
      .ok (.json []) := by decide +kernel
  rw [hfailed, hlate]
  refine ⟨⟨by decide +kernel, by decide +kernel, ?_⟩, by decide +kernel, ?_⟩
  · exact Answer.not_faithful nofun
  · exact Answer.not_faithful (by decide)

end Xiaomaolv
