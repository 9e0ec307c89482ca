import Xiaomaolv.Lib.Machine
import Xiaomaolv.Lib.Utf8
import Xiaomaolv.Mcp.Requests

/-!
# A session over pipes that calls share

* `readUnit`: the next line, or message with a content length, of the bytes of a server.
* **`readUnit_append`**: what follows a whole unit does not change how it is read.
* `StdioSession.exec`: calls that take the lock, the server's bytes, reads, and calls that are given up at any byte.
* `Proper`: a server answers under an id that a call has used, its own messages have other ids, and a unit that is
  torn has no id of a later call.
* `Aligned`: the pipe holds whole units; `aligned_exec`.
* **`response_correlation`**: along such runs a caller receives the response to its own request.
-/

namespace Xiaomaolv

/-! ## Units -/

/-- A line with its end, and what follows it. -/
def cutLine : List UInt8 → Option (List UInt8 × List UInt8)
  | [] => none
  | b :: bytes => if b = 10 then some ([b], bytes) else (cutLine bytes).map fun r => (b :: r.1, r.2)

/-- `read_line`: at the end of the stream the rest is a line. -/
def readPipeLine (closed : Bool) (bytes : List UInt8) : Option (List UInt8 × List UInt8) :=
  (cutLine bytes).or (if closed then some (bytes, []) else none)

/-- Text in UTF-8, or nothing where the bytes are not. -/
def fromUtf8 (bytes : List UInt8) : Option String :=
  let text := Utf8.decodeLossy bytes
  if Utf8.encode text = bytes then some (String.ofList text) else none

/-- `str::parse::<usize>`. -/
def parseUsize (text : String) : Option Nat :=
  let digits := match text.toList with
    | '+' :: digits => digits
    | digits => digits
  if !digits.isEmpty && digits.all Char.isDigit then
    let n := digits.foldl (fun n c => 10 * n + (c.toNat - '0'.toNat)) 0
    if n < 2 ^ 64 then some n else none
  else none

def parseContentLength (line : String) : Option Nat :=
  if startsWith (toAsciiLowercase line) "content-length:" then
    let value := ((line.toList.dropWhile (· ≠ ':')).drop 1).takeWhile (· ≠ ':')
    parseUsize (trim (String.ofList value))
  else none

/-- What a unit is: a blank line, a message, or an error. -/
inductive StdioUnit where
  | blank
  | message (value : Value)
  | failed (error : String)
  deriving DecidableEq

section Read

variable (fromStr : String → Except String Value)

def parseBody (failure : String) : Option String → StdioUnit
  | some text =>
    match fromStr text with
    | .ok value => .message value
    | .error _ => .failed failure
  | none => .failed failure

/-- The blank line after a content length, and so many bytes. -/
def readBody (closed : Bool) (len : Nat) (bytes : List UInt8) : Option (StdioUnit × List UInt8) :=
  (readPipeLine closed bytes).bind fun (line, rest) =>
    if (fromUtf8 line).isNone then some (.failed "stream did not contain valid UTF-8", rest)
    else if len ≤ rest.length then
      some (parseBody fromStr "invalid content-length jsonrpc body" (fromUtf8 (rest.take len)), rest.drop len)
    else if closed then some (.failed "failed reading content-length body", [])
    else none

/-- The loop of `read_jsonrpc_message`, once: a unit and what follows it, or nothing while it is not complete. -/
def readUnit (closed : Bool) (bytes : List UInt8) : Option (StdioUnit × List UInt8) :=
  (readPipeLine closed bytes).bind fun (line, rest) =>
    if line.isEmpty then some (.failed "mcp stdio closed", rest)
    else
      match fromUtf8 line with
      | none => some (.failed "failed reading stdio line", rest)
      | some text =>
        if isBlank text then some (.blank, rest)
        else
          match parseContentLength (trim text) with
          | some len => readBody fromStr closed len rest
          | none => some (parseBody fromStr "invalid newline jsonrpc body" (some (trim text)), rest)

end Read

theorem cutLine_append {bytes line rest : List UInt8} (h : cutLine bytes = some (line, rest)) (more : List UInt8) :
    cutLine (bytes ++ more) = some (line, rest ++ more) := by
  induction bytes generalizing line with
  | nil => simp [cutLine] at h
  | cons b bytes ih =>
    rw [cutLine] at h
    rw [List.cons_append, cutLine]
    split_ifs at h ⊢ with hb
    · cases h
      rfl
    · obtain ⟨r, hr, heq⟩ := Option.map_eq_some_iff.mp h
      cases heq
      rw [ih hr]
      rfl

theorem readPipeLine_append {bytes line rest : List UInt8} (h : readPipeLine false bytes = some (line, rest)) (closed : Bool)
    (more : List UInt8) : readPipeLine closed (bytes ++ more) = some (line, rest ++ more) := by
  have hcut : cutLine bytes = some (line, rest) := by
    rw [readPipeLine] at h
    simpa using h
  rw [readPipeLine, cutLine_append hcut]
  rfl

section Append

variable {fromStr : String → Except String Value} {bytes rest : List UInt8} {u : StdioUnit}

theorem readBody_append {len : Nat} (h : readBody fromStr false len bytes = some (u, rest)) (closed : Bool)
    (more : List UInt8) : readBody fromStr closed len (bytes ++ more) = some (u, rest ++ more) := by
  rw [readBody] at h
  obtain ⟨⟨line, after⟩, hline, hbody⟩ := Option.bind_eq_some_iff.mp h
  rw [readBody, readPipeLine_append hline closed more, Option.bind_some]
  dsimp only at hbody ⊢
  split_ifs at hbody with hutf hlen hclosed
  · cases hbody
    rw [if_pos hutf]
  · cases hbody
    rw [if_neg hutf, if_pos (by rw [List.length_append]; omega), List.take_append_of_le_length hlen,
      List.drop_append_of_le_length hlen]
  · exact hclosed.elim

/-- **A whole unit is read as it is**, whatever follows it, and whether or not the stream ends there. -/
theorem readUnit_append (h : readUnit fromStr false bytes = some (u, rest)) (closed : Bool) (more : List UInt8) :
    readUnit fromStr closed (bytes ++ more) = some (u, rest ++ more) := by
  rw [readUnit] at h
  obtain ⟨⟨line, after⟩, hline, hunit⟩ := Option.bind_eq_some_iff.mp h
  rw [readUnit, readPipeLine_append hline closed more, Option.bind_some]
  dsimp only at hunit ⊢
  split_ifs at hunit ⊢ with hempty
  · cases hunit
    rfl
  · cases hutf : fromUtf8 line with
    | none =>
      rw [hutf] at hunit
      cases hunit
      rfl
    | some text =>
      rw [hutf] at hunit
      dsimp only at hunit ⊢
      split_ifs at hunit ⊢ with hblank
      · cases hunit
        rfl
      · cases hlen : parseContentLength (trim text) with
        | none =>
          rw [hlen] at hunit
          cases hunit
          rfl
        | some len =>
          rw [hlen] at hunit
          exact readBody_append hunit closed more

end Append

/-! ## The session -/

/-- Bytes that the server has written, and the next request id at that time. -/
structure Emission where
  bytes : List UInt8
  nextId : Nat
  deriving DecidableEq

/-- How far a call gets with writing its request. -/
inductive RequestWrite where
  | written
  | failed (error : String)
  | canceled
  deriving DecidableEq, Repr

/-- The session: the bytes of the server that nobody has read, and the request of the call that holds the lock; with
what the server has received and written, what the callers have received, and the requests they have given up. -/
structure StdioSession where
  nextId : Nat := 2
  pipe : List UInt8 := []
  closed : Bool := false
  holder : Option Nat := none
  requests : List Value := []
  emitted : List Emission := []
  received : List (Nat × Except String Value) := []
  abandoned : List Nat := []

/-- What happens in any order; a call that waits for the lock and is canceled leaves no trace. -/
inductive SessionStep where
  /-- A call gets the lock and writes its request. -/
  | call (method : String) (params : Value) (write : RequestWrite)
  | serve (bytes : List UInt8)
  | close
  /-- The call that holds the lock reads a unit, if there is a whole one. -/
  | poll
  /-- It is canceled, or its time is over, with so many bytes of a unit read: these are lost. -/
  | abandon (consumed : Nat) (timedOut : Bool)

namespace StdioSession

section Steps

variable (fromStr : String → Except String Value)

def call (s : StdioSession) (method : String) (params : Value) (write : RequestWrite) : StdioSession :=
  match s.holder with
  | some _ => s
  | none =>
    let id := s.nextId
    let s := { s with nextId := max (min (id + 1) (2 ^ 64 - 1)) 2 }
    match write with
    | .written => { s with holder := some id, requests := s.requests ++ [jsonrpcRequest id method params] }
    | .failed error => { s with received := s.received ++ [(id, .error error)] }
    | .canceled => { s with abandoned := id :: s.abandoned }

/-- The loops of `read_jsonrpc_message_with_id`, once. -/
def poll (s : StdioSession) : StdioSession :=
  match s.holder with
  | none => s
  | some id =>
    match readUnit fromStr s.closed s.pipe with
    | none => s
    | some (.blank, rest) => { s with pipe := rest }
    | some (.failed error, rest) =>
      { s with pipe := rest, holder := none, received := s.received ++ [(id, .error error)] }
    | some (.message msg, rest) =>
      if msg.get "id" = some (.int id) then
        { s with pipe := rest, holder := none, received := s.received ++ [(id, .ok msg)] }
      else { s with pipe := rest }

/-- The bytes of the next unit; all there are, while it is not complete. -/
def unitBytes (s : StdioSession) : List UInt8 :=
  match readUnit fromStr s.closed s.pipe with
  | some (_, rest) => s.pipe.take (s.pipe.length - rest.length)
  | none => s.pipe

/-- The bytes of the next unit that a call can have read when it is given up: not all of a whole one. -/
def lostBytes (s : StdioSession) (consumed : Nat) : Nat :=
  match readUnit fromStr s.closed s.pipe with
  | some _ => min consumed ((s.unitBytes fromStr).length - 1)
  | none => min consumed (s.unitBytes fromStr).length

def abandon (s : StdioSession) (consumed : Nat) (timedOut : Bool) : StdioSession :=
  match s.holder with
  | none => s
  | some id =>
    { s with
      pipe := s.pipe.drop (s.lostBytes fromStr consumed)
      holder := none
      received := if timedOut then s.received ++ [(id, .error "mcp stdio read timeout")] else s.received
      abandoned := id :: s.abandoned }

def exec (s : StdioSession) : SessionStep → StdioSession
  | .call method params write => s.call method params write
  | .serve bytes =>
    if s.closed then s
    else { s with pipe := s.pipe ++ bytes, emitted := s.emitted ++ [{ bytes, nextId := s.nextId }] }
  | .close => { s with closed := true }
  | .poll => s.poll fromStr
  | .abandon consumed timedOut => s.abandon fromStr consumed timedOut

end Steps

/-! ## What a server may do -/

/-- The id of a message that has a number for it. -/
def unitId : StdioUnit → Option Int
  | .message msg =>
    match msg.get "id" with
    | some (.int id) => some id
    | _ => none
  | _ => none

/-- A response: it has a result or an error, and no method. -/
def isResponse (msg : Value) : Bool :=
  ((msg.get "result").isSome || (msg.get "error").isSome) && (msg.get "method").isNone

/-- A response, as a unit. -/
def unitAnswers : StdioUnit → Bool
  | .message msg => isResponse msg
  | _ => false

section Proper

variable (fromStr : String → Except String Value)

/-- The bytes are one whole unit, and it satisfies `P`. -/
def OneUnit (bytes : List UInt8) (P : StdioUnit → Prop) : Prop :=
  match readUnit fromStr false bytes with
  | some (u, []) => P u
  | _ => False

instance (bytes : List UInt8) (P : StdioUnit → Prop) [DecidablePred P] : Decidable (OneUnit fromStr bytes P) := by
  unfold OneUnit
  split <;> infer_instance

/-- The server writes whole units. Under an id it writes only after a call has used it, and while that call waits only
its response. A unit that is torn has no id of a later call, and the ids are not used up. -/
def Proper (s : StdioSession) : SessionStep → Prop
  | .call .. => s.nextId + 1 < 2 ^ 64
  | .serve bytes => OneUnit fromStr bytes fun u => ∀ id ∈ unitId u,
      id < s.nextId ∧ (s.holder.map Int.ofNat = some id → unitAnswers u = true)
  | .abandon consumed _ => s.lostBytes fromStr consumed = 0 ∨
      OneUnit fromStr ((s.unitBytes fromStr).drop (s.lostBytes fromStr consumed)) fun u => ∀ id ∈ unitId u, id < s.nextId
  | .close | .poll => True

instance (s : StdioSession) : (step : SessionStep) → Decidable (s.Proper fromStr step)
  | .call .. => inferInstanceAs (Decidable (_ < _))
  | .serve bytes => inferInstanceAs (Decidable (OneUnit fromStr bytes fun u => ∀ id ∈ unitId u,
      id < s.nextId ∧ (s.holder.map Int.ofNat = some id → unitAnswers u = true)))
  | .abandon consumed _ => inferInstanceAs (Decidable (s.lostBytes fromStr consumed = 0 ∨
      OneUnit fromStr ((s.unitBytes fromStr).drop (s.lostBytes fromStr consumed)) fun u => ∀ id ∈ unitId u, id < s.nextId))
  | .close | .poll => isTrue trivial

/-- The server has written this response, after the call used the id. -/
def Answered (s : StdioSession) (id : Nat) (msg : Value) : Prop :=
  msg.get "id" = some (.int id) ∧ isResponse msg = true ∧
    ∃ e ∈ s.emitted, id < e.nextId ∧ readUnit fromStr false e.bytes = some (.message msg, [])

instance (s : StdioSession) (id : Nat) (msg : Value) : Decidable (s.Answered fromStr id msg) :=
  inferInstanceAs (Decidable (_ ∧ _))

end Proper

/-! ## Whole units in the pipe -/

section Aligned

variable {fromStr : String → Except String Value} {s : StdioSession}

/-- A unit in the pipe: it has the id of a call that is over, or it is the response to the call that waits. -/
def Expected (fromStr : String → Except String Value) (s : StdioSession) (frame : List UInt8) : Prop :=
  ∃ u, readUnit fromStr false frame = some (u, []) ∧ ∀ id ∈ unitId u, id < s.nextId ∧
    ∀ own, s.holder = some own → id = own → ∃ msg, u = .message msg ∧ s.Answered fromStr own msg

/-- What each step keeps: the pipe holds whole units that are expected, a received value is the response to its call,
and no id has two calls. -/
structure Aligned (fromStr : String → Except String Value) (s : StdioSession) : Prop where
  frames : ∃ frames : List (List UInt8), s.pipe = frames.flatten ∧ ∀ frame ∈ frames, s.Expected fromStr frame
  answered : ∀ p ∈ s.received, ∀ msg, p.2 = .ok msg → s.Answered fromStr p.1 msg ∧ p.1 ∉ s.abandoned
  distinct : (s.received.map (·.1)).Nodup
  used : 2 ≤ s.nextId ∧ (∀ p ∈ s.received, p.1 < s.nextId) ∧ ∀ id ∈ s.abandoned, id < s.nextId
  holder : ∀ own, s.holder = some own → own < s.nextId ∧ own ∉ s.abandoned ∧ own ∉ s.received.map (·.1)

theorem exists_of_oneUnit {bytes : List UInt8} {P : StdioUnit → Prop} (h : OneUnit fromStr bytes P) :
    ∃ u, readUnit fromStr false bytes = some (u, []) ∧ P u := by
  unfold OneUnit at h
  split at h
  · rename_i u hu
    exact ⟨u, hu, h⟩
  · exact h.elim

theorem readUnit_frames {frame : List UInt8} {frames : List (List UInt8)} (hpipe : s.pipe = (frame :: frames).flatten)
    {u : StdioUnit} (hu : readUnit fromStr false frame = some (u, [])) :
    readUnit fromStr s.closed s.pipe = some (u, frames.flatten) := by
  rw [hpipe, List.flatten_cons]
  exact readUnit_append hu s.closed frames.flatten

theorem Answered.mono {s' : StdioSession} {id : Nat} {msg : Value} (h : s.Answered fromStr id msg)
    (hemitted : ∀ e ∈ s.emitted, e ∈ s'.emitted) : s'.Answered fromStr id msg := by
  obtain ⟨hid, hresponse, e, he, hafter, hread⟩ := h
  exact ⟨hid, hresponse, e, hemitted e he, hafter, hread⟩

theorem Expected.mono {s' : StdioSession} {frame : List UInt8} (h : s.Expected fromStr frame)
    (hnext : s.nextId ≤ s'.nextId) (hemitted : ∀ e ∈ s.emitted, e ∈ s'.emitted)
    (hholder : ∀ own, s'.holder = some own → s.holder = some own ∨ s.nextId ≤ own) : s'.Expected fromStr frame := by
  obtain ⟨u, hread, hu⟩ := h
  refine ⟨u, hread, fun id hid => ⟨?_, fun own hown heq => ?_⟩⟩
  · have := (hu id hid).1
    omega
  · rcases hholder own hown with hsame | hnew
    · obtain ⟨msg, hmsg, hanswered⟩ := (hu id hid).2 own hsame heq
      exact ⟨msg, hmsg, hanswered.mono hemitted⟩
    · have := (hu id hid).1
      omega

theorem Aligned.allocate (h : s.Aligned fromStr) (requests : List Value) :
    Aligned fromStr { s with nextId := s.nextId + 1, holder := some s.nextId, requests } := by
  obtain ⟨frames, hpipe, hframes⟩ := h.frames
  obtain ⟨hused, hreceived, habandoned⟩ := h.used
  refine ⟨⟨frames, hpipe, fun frame hframe => ?_⟩, h.answered, h.distinct, ⟨Nat.le_succ_of_le hused, fun p hp => ?_, fun id hid => ?_⟩, ?_⟩
  · refine (hframes frame hframe).mono (Nat.le_succ _) (fun e he => he) fun own hown => .inr ?_
    cases hown
    exact Nat.le_refl _
  · exact Nat.lt_succ_of_lt (hreceived p hp)
  · exact Nat.lt_succ_of_lt (habandoned id hid)
  · intro own hown
    cases hown
    refine ⟨Nat.lt_succ_self _, fun hmem => Nat.lt_irrefl _ (habandoned _ hmem), fun hmem => ?_⟩
    obtain ⟨p, hp, heq⟩ := List.mem_map.mp hmem
    exact Nat.lt_irrefl _ (heq ▸ hreceived p hp)

theorem Expected.free {frame : List UInt8} (h : s.Expected fromStr frame) :
    Expected fromStr { s with holder := none } frame :=
  h.mono (Nat.le_refl _) (fun _ he => he) nofun

theorem Aligned.release (h : s.Aligned fromStr) {frames : List (List UInt8)}
    (hframes : ∀ frame ∈ frames, Expected fromStr { s with holder := none } frame) :
    Aligned fromStr { s with pipe := frames.flatten, holder := none } :=
  ⟨⟨frames, rfl, hframes⟩, h.answered, h.distinct, h.used, nofun⟩

theorem Aligned.finish (h : s.Aligned fromStr) {own : Nat} (hown : s.holder = some own)
    {result : Except String Value} (hresult : ∀ msg, result = .ok msg → s.Answered fromStr own msg)
    {frames : List (List UInt8)} (hframes : ∀ frame ∈ frames, Expected fromStr { s with holder := none } frame) :
    Aligned fromStr { s with
      pipe := frames.flatten
      holder := none
      received := s.received ++ [(own, result)] } := by
  obtain ⟨hused, hreceived, habandoned⟩ := h.used
  obtain ⟨hlt, hnot, hnew⟩ := h.holder own hown
  refine ⟨⟨frames, rfl, hframes⟩, fun p hp msg hmsg => ?_, ?_, ⟨hused, fun p hp => ?_, habandoned⟩, nofun⟩
  · rcases List.mem_append.mp hp with hold | hlast
    · exact h.answered p hold msg hmsg
    · rw [List.mem_singleton] at hlast
      subst hlast
      exact ⟨hresult msg hmsg, hnot⟩
  · show ((s.received ++ [(own, result)]).map (·.1)).Nodup
    rw [List.map_append, List.nodup_append]
    refine ⟨h.distinct, by simp, fun id hid id' hid' heq => ?_⟩
    rw [List.map_singleton, List.mem_singleton] at hid'
    subst hid' heq
    exact hnew hid
  · rcases List.mem_append.mp hp with hold | hlast
    · exact hreceived p hold
    · rw [List.mem_singleton] at hlast
      subst hlast
      exact hlt

theorem Aligned.forget (h : s.Aligned fromStr) (hholder : s.holder = none) {id : Nat} (hlt : id < s.nextId)
    (hid : ∀ p ∈ s.received, ∀ msg, p.2 = .ok msg → p.1 ≠ id) :
    Aligned fromStr { s with abandoned := id :: s.abandoned } := by
  obtain ⟨hused, hreceived, habandoned⟩ := h.used
  refine ⟨h.frames, fun p hp msg hmsg => ?_, h.distinct, ⟨hused, hreceived, fun id' hid' => ?_⟩, fun own hown => ?_⟩
  · obtain ⟨hanswered, hkept⟩ := h.answered p hp msg hmsg
    refine ⟨hanswered, fun hmem => ?_⟩
    rcases List.mem_cons.mp hmem with heq | hmem
    · exact hid p hp msg hmsg heq
    · exact hkept hmem
  · rcases List.mem_cons.mp hid' with rfl | hid'
    · exact hlt
    · exact habandoned id' hid'
  · exact absurd (hown.symm.trans hholder) (by simp)

theorem aligned_call (h : s.Aligned fromStr) (hid : s.nextId + 1 < 2 ^ 64) (method : String) (params : Value)
    (write : RequestWrite) : (s.call method params write).Aligned fromStr := by
  obtain ⟨frames, hpipe, hframes⟩ := h.frames
  have hused := h.used.1
  have hnext : max (min (s.nextId + 1) (2 ^ 64 - 1)) 2 = s.nextId + 1 := by omega
  have hnew : ∀ p ∈ s.received, p.1 ≠ s.nextId := fun p hp => Nat.ne_of_lt (h.used.2.1 p hp)
  have hfree : ∀ frame ∈ frames, Expected fromStr { s with nextId := s.nextId + 1, holder := none } frame :=
    fun frame hframe => (hframes frame hframe).mono (Nat.le_succ _) (fun _ he => he) nofun
  rw [call]
  cases hholder : s.holder with
  | some _ => exact h
  | none =>
    dsimp only
    rw [hnext, hpipe]
    cases write with
    | written =>
      rw [← hpipe]
      exact h.allocate _
    | failed error => exact (h.allocate s.requests).finish rfl (fun _ hmsg => by cases hmsg) hfree
    | canceled =>
      exact ((h.allocate s.requests).release hfree).forget rfl (Nat.lt_succ_self _) fun p hp _ _ => hnew p hp

theorem aligned_serve (h : s.Aligned fromStr) {bytes : List UInt8} (hserve : s.Proper fromStr (.serve bytes)) :
    (s.exec fromStr (.serve bytes)).Aligned fromStr := by
  obtain ⟨frames, hpipe, hframes⟩ := h.frames
  rw [exec]
  split_ifs
  · exact h
  · obtain ⟨u, hread, hu⟩ := exists_of_oneUnit hserve
    have hmono : ∀ e ∈ s.emitted, e ∈ s.emitted ++ [{ bytes, nextId := s.nextId }] := fun e he =>
      List.mem_append_left _ he
    refine ⟨⟨frames ++ [bytes], ?_, fun frame hframe => ?_⟩, fun p hp msg hmsg => ?_, h.distinct, h.used, h.holder⟩
    · show s.pipe ++ bytes = _
      rw [hpipe, List.flatten_append, List.flatten_singleton]
    · rcases List.mem_append.mp hframe with hold | hlast
      · exact (hframes frame hold).mono (Nat.le_refl _) hmono fun own hown => .inl hown
      · rw [List.mem_singleton] at hlast
        subst hlast
        refine ⟨u, hread, fun id hid => ⟨(hu id hid).1, fun own hown heq => ?_⟩⟩
        have hanswers := (hu id hid).2 (by rw [show s.holder = some own from hown, heq]; rfl)
        cases u with
        | blank => cases hid
        | failed error => cases hid
        | message msg =>
          refine ⟨msg, rfl, ?_, hanswers, _, List.mem_append_right _ List.mem_cons_self, (h.holder own hown).1, hread⟩
          subst heq
          simp only [unitId] at hid
          split at hid
          · rename_i id' hget
            cases hid
            exact hget
          · cases hid
    · obtain ⟨hanswered, hkept⟩ := h.answered p hp msg hmsg
      exact ⟨hanswered.mono hmono, hkept⟩

theorem Aligned.skip (h : s.Aligned fromStr) {own : Nat} (hown : s.holder = some own) {frames : List (List UInt8)}
    (hframes : ∀ frame ∈ frames, s.Expected fromStr frame) :
    Aligned fromStr { s with pipe := frames.flatten, holder := some own } := by
  rw [← hown]
  exact ⟨⟨frames, rfl, hframes⟩, h.answered, h.distinct, h.used, h.holder⟩

theorem aligned_poll (h : s.Aligned fromStr) : (s.poll fromStr).Aligned fromStr := by
  obtain ⟨frames, hpipe, hframes⟩ := h.frames
  rw [poll]
  cases hholder : s.holder with
  | none => exact h
  | some own =>
    dsimp only
    cases frames with
    | nil =>
      by_cases hclosed : s.closed = true
      · have hread : readUnit fromStr s.closed s.pipe = some (.failed "mcp stdio closed", [].flatten) := by
          rw [hclosed, hpipe]
          rfl
        rw [hread]
        exact h.finish hholder (fun _ hmsg => by cases hmsg) fun f hf => (List.not_mem_nil hf).elim
      · have hread : readUnit fromStr s.closed s.pipe = none := by
          rw [Bool.eq_false_iff.mpr hclosed, hpipe]
          rfl
        rw [hread]
        exact h
    | cons frame frames =>
      obtain ⟨u, hread, hu⟩ := hframes frame List.mem_cons_self
      have hrest : ∀ frame ∈ frames, s.Expected fromStr frame := fun f hf => hframes f (List.mem_cons_of_mem _ hf)
      rw [readUnit_frames hpipe hread]
      cases u with
      | blank => exact h.skip hholder hrest
      | failed error => exact h.finish hholder (fun _ hmsg => by cases hmsg) fun f hf => (hrest f hf).free
      | message msg =>
        dsimp only
        split_ifs with hget
        · refine h.finish hholder (fun msg' hmsg' => ?_) fun f hf => (hrest f hf).free
          cases hmsg'
          obtain ⟨msg', heq, hanswered⟩ := (hu own (by simp [unitId, hget])).2 own hholder rfl
          cases heq
          exact hanswered
        · exact h.skip hholder hrest

/-- The pipe of a call that is given up: as it was, or torn in the middle of its first unit. -/
theorem frames_abandon (h : s.Aligned fromStr) {consumed : Nat} {timedOut : Bool}
    (hstep : s.Proper fromStr (.abandon consumed timedOut)) :
    ∃ frames : List (List UInt8), s.pipe.drop (s.lostBytes fromStr consumed) = frames.flatten ∧
      ∀ frame ∈ frames, Expected fromStr { s with holder := none } frame := by
  obtain ⟨frames, hpipe, hframes⟩ := h.frames
  rcases hstep with hnone | htorn
  · rw [hnone, List.drop_zero]
    exact ⟨frames, hpipe, fun f hf => (hframes f hf).free⟩
  · obtain ⟨u', hread', hu'⟩ := exists_of_oneUnit htorn
    cases frames with
    | nil =>
      rw [hpipe, List.flatten_nil, List.drop_nil]
      exact ⟨[], rfl, fun f hf => (List.not_mem_nil hf).elim⟩
    | cons frame frames =>
      obtain ⟨u, hread, hu⟩ := hframes frame List.mem_cons_self
      have hunit : s.unitBytes fromStr = frame := by
        have hlen : s.pipe.length - frames.flatten.length = frame.length := by
          rw [hpipe, List.flatten_cons, List.length_append]
          omega
        rw [unitBytes, readUnit_frames hpipe hread]
        dsimp only
        rw [hlen, hpipe, List.flatten_cons, List.take_left]
      have hlost : s.lostBytes fromStr consumed ≤ frame.length := by
        rw [lostBytes, readUnit_frames hpipe hread, hunit]
        exact (Nat.min_le_right _ _).trans (Nat.sub_le _ _)
      rw [hunit] at hread'
      refine ⟨frame.drop (s.lostBytes fromStr consumed) :: frames, ?_, fun f hf => ?_⟩
      · rw [hpipe, List.flatten_cons, List.drop_append_of_le_length hlost, List.flatten_cons]
      · rcases List.mem_cons.mp hf with rfl | hf
        · exact ⟨u', hread', fun id hid => ⟨hu' id hid, nofun⟩⟩
        · exact (hframes f (List.mem_cons_of_mem _ hf)).free

theorem aligned_abandon (h : s.Aligned fromStr) {consumed : Nat} {timedOut : Bool}
    (hstep : s.Proper fromStr (.abandon consumed timedOut)) : (s.abandon fromStr consumed timedOut).Aligned fromStr := by
  obtain ⟨frames, hpipe, hframes⟩ := frames_abandon h hstep
  rw [abandon]
  cases hholder : s.holder with
  | none => exact h
  | some own =>
    obtain ⟨hlt, hnot, hnew⟩ := h.holder own hholder
    have hother : ∀ p ∈ s.received, p.1 ≠ own := fun p hp heq => hnew (List.mem_map.mpr ⟨p, hp, heq⟩)
    dsimp only
    rw [hpipe]
    cases timedOut with
    | false => exact (h.release hframes).forget rfl hlt fun p hp _ _ => hother p hp
    | true =>
      refine (h.finish hholder (fun _ hmsg => by cases hmsg) hframes).forget rfl hlt fun p hp msg hmsg => ?_
      rcases List.mem_append.mp hp with hold | hlast
      · exact hother p hold
      · rw [List.mem_singleton] at hlast
        subst hlast
        cases hmsg

theorem aligned_exec (step : SessionStep) (hstep : s.Proper fromStr step) (h : s.Aligned fromStr) :
    (s.exec fromStr step).Aligned fromStr := by
  cases step with
  | call method params write => exact aligned_call h hstep method params write
  | serve bytes => exact aligned_serve h hstep
  | close => exact ⟨h.frames, h.answered, h.distinct, h.used, h.holder⟩
  | poll => exact aligned_poll h
  | abandon consumed timedOut => exact aligned_abandon h hstep

theorem aligned_new : Aligned fromStr {} where
  frames := ⟨[], rfl, fun _ hf => (List.not_mem_nil hf).elim⟩
  answered _ hp := (List.not_mem_nil hp).elim
  distinct := List.nodup_nil
  used := ⟨Nat.le_refl _, fun _ hp => (List.not_mem_nil hp).elim, fun _ hid => (List.not_mem_nil hid).elim⟩
  holder := nofun

end Aligned

end StdioSession

/-- **A caller receives the response to its own request**, in every run of a session whose server keeps to the ids of
the calls and in which no call is given up in the middle of a unit that another could take for its own: the value is
a response that the server has written under the id of the call and after it, no request that was given up has a
value, and no id is that of two calls. -/
theorem response_correlation (fromStr : String → Except String Value) (steps : List SessionStep)
    (h : Machine.Along (StdioSession.exec fromStr) (StdioSession.Proper fromStr) {} steps) :
    let s := Machine.run (StdioSession.exec fromStr) {} steps
    (∀ p ∈ s.received, ∀ msg, p.2 = .ok msg → s.Answered fromStr p.1 msg ∧ p.1 ∉ s.abandoned) ∧
      (s.received.map (·.1)).Nodup := by
  intro s
  have haligned : s.Aligned fromStr := Machine.run_invariant
    (fun _ step hstep hs => StdioSession.aligned_exec step hstep hs) h StdioSession.aligned_new
  exact ⟨haligned.answered, haligned.distinct⟩

namespace Sample

/-- A line of the server, and what `serde_json` makes of it. -/
def pongText (id : Nat) : String := "\x7b\"id\":" ++ toString id ++ ",\"result\":\"done\"\x7d"

def pongValue (id : Nat) : Value := .json [("id", .int id), ("result", .string "done")]

def pingText (id : Nat) : String := "\x7b\"id\":" ++ toString id ++ ",\"method\":\"ping\"\x7d"

def pingValue (id : Nat) : Value := .json [("id", .int id), ("method", .string "ping")]

def parsed (text : String) : Except String Value :=
  if text = pongText 2 then .ok (pongValue 2)
  else if text = pongText 3 then .ok (pongValue 3)
  else if text = pingText 2 then .ok (pingValue 2)
  else .error "expected value"

def lineOf (text : String) : List UInt8 := Utf8.encode (text.toList ++ ['\n'])

/-- The first call runs out of time, and its response comes in the time of the second call. -/
def lateResponse : List SessionStep :=
  [.call "tools/call" .null .written, .abandon 0 true, .call "tools/call" .null .written, .serve (lineOf (pongText 2)),
    .serve (lineOf (pongText 3)), .poll, .poll]

/-- The server pings, under the id of the call that waits. -/
def pinged : List SessionStep := [.call "tools/call" .null .written, .serve (lineOf (pingText 2)), .poll]

end Sample

theorem response_correlation_late :
    (Machine.run (StdioSession.exec Sample.parsed) {} Sample.lateResponse).received =
        [(2, .error "mcp stdio read timeout"), (3, .ok (Sample.pongValue 3))] ∧
      (Machine.run (StdioSession.exec Sample.parsed) {} Sample.lateResponse).Answered Sample.parsed 3
        (Sample.pongValue 3) := by
  have hreceived : (Machine.run (StdioSession.exec Sample.parsed) {} Sample.lateResponse).received =
      [(2, .error "mcp stdio read timeout"), (3, .ok (Sample.pongValue 3))] := by decide +kernel
  have hcorrelated := response_correlation Sample.parsed Sample.lateResponse (by decide +kernel)
  exact ⟨hreceived, (hcorrelated.1 (3, .ok (Sample.pongValue 3)) (by rw [hreceived]; simp) _ rfl).1⟩

/-- The caller receives a request of the server as the response to its own. -/
theorem response_correlation_pinged :
    (Machine.run (StdioSession.exec Sample.parsed) {} Sample.pinged).received = [(2, .ok (Sample.pingValue 2))] ∧
      StdioSession.isResponse (Sample.pingValue 2) = false ∧
      ¬ (Machine.run (StdioSession.exec Sample.parsed) {} Sample.pinged).Answered Sample.parsed 2 (Sample.pingValue 2) := by
  decide +kernel

end Xiaomaolv
