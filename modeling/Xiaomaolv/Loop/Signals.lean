import Mathlib.Data.List.Chain
import Xiaomaolv.Lib.Interleave
import Xiaomaolv.Loop.Txn

/-!
# Signals

A signal is an immutable row; its status is that of its latest event.

* `SignalAction`, `SignalWorld.perform`: the statements and transactions that the operations await.
* `triageSignal`, `ignoreSignal`, `markSignalProposed`, `proposeGoalFromSignal`, `ingestSignal`: the
  operations as programs, interleaved at every statement by `signalSystem`.
* `Lawful`: the events of a signal follow its lifecycle and propose it to one goal.
* **`signal_lifecycle`**: a run is lawful throughout when every insert finds its signal open, and only then.
-/

namespace Xiaomaolv

open Table Interleave LoopStore

/-! ## Data -/

inductive SignalKind where
  | trajectory | userFeedback | developerFeedback | community | selfTest | sessionReplay
  | deploymentOutcome | manual
  deriving DecidableEq, Repr

inductive SignalTrust where
  | internal | authenticated | external
  deriving DecidableEq, Repr

inductive SignalStatus where
  | observed | triaged | proposed | ignored
  deriving DecidableEq, Repr

namespace SignalStatus

def asStr : SignalStatus → String
  | observed => "observed"
  | triaged => "triaged"
  | proposed => "proposed"
  | ignored => "ignored"

/-- `Observed | Triaged`: what the operations accept before they end a signal. -/
def isOpen : SignalStatus → Bool
  | observed | triaged => true
  | proposed | ignored => false

end SignalStatus

structure CreateSignalRequest where
  kind : SignalKind
  trust : SignalTrust
  source : String
  externalId : Option String
  content : String
  metadata : List (String × String) := []
  deriving DecidableEq, Repr

/-- What the signals take from `serde_json`, `sha2` and Unicode. -/
structure SignalEncoding where
  fingerprint : CreateSignalRequest → String
  contentHash : String → String
  normalizedHash : SignalKind → String → String
  metadataLen : List (String × String) → Nat
  /-- `signal_tokens`: a set, so without repetitions. -/
  tokens : String → List String

def CreateSignalRequest.validate (enc : SignalEncoding) (request : CreateSignalRequest) : Except String Unit := do
  ensure (!isBlank request.source && byteLen request.source ≤ 160) "signal source must be 1..=160 bytes"
  ensure (request.externalId.all fun id => !isBlank id && byteLen id ≤ 200)
    "signal external id must be 1..=200 bytes"
  ensure (!isBlank request.content && request.content.length ≤ 16384)
    "signal content must be 1..=16384 characters"
  ensure (request.metadata.length ≤ 64) "signal metadata cannot exceed 64 entries"
  ensure (request.metadata.all fun (key, value) => !isBlank key && byteLen key ≤ 96 && byteLen value ≤ 1024)
    "signal metadata key/value exceeds limits"
  ensure (enc.metadataLen request.metadata ≤ 8192) "signal metadata cannot exceed 8192 bytes"

structure SignalRow where
  id : String
  kind : SignalKind
  trust : SignalTrust
  source : String
  externalId : Option String
  content : String
  contentHash : String
  fingerprint : String
  normalizedHash : String
  metadata : List (String × String)
  createdBy : String
  createdAt : Int
  deriving DecidableEq, Repr

structure SignalEventRow where
  signalId : String
  status : SignalStatus
  actor : String
  details : Value
  deriving DecidableEq

structure SignalRecord where
  id : String
  kind : SignalKind
  trust : SignalTrust
  status : SignalStatus
  source : String
  externalId : Option String
  content : String
  contentHash : String
  metadata : List (String × String)
  createdAtUnix : Int
  deriving DecidableEq, Repr

/-- The loop engine's tables with those of the signals. -/
structure SignalWorld where
  store : Store
  signals : List SignalRow
  signalEvents : List SignalEventRow
  deriving DecidableEq

namespace SignalWorld

/-- The freshly initialised schema. -/
def empty : SignalWorld := ⟨.empty, [], []⟩

variable (s : SignalWorld)

/-- The events of a signal, in the order of their `sequence`. -/
def eventsOf (signalId : String) : List SignalEventRow := s.signalEvents.filter fun e => e.signalId = signalId

/-- The status of the latest event, `observed` if there is none. -/
def statusOf (signalId : String) : SignalStatus :=
  ((s.eventsOf signalId).getLast?.map (·.status)).getD .observed

/-- `get_signal`. -/
def getSignal (signalId : String) : Option SignalRecord :=
  (s.signals.find? fun row => row.id = signalId).map fun row =>
    ⟨row.id, row.kind, row.trust, s.statusOf row.id, row.source, row.externalId, row.content, row.contentHash,
      row.metadata, row.createdAt⟩

/-- The transaction that inserts an event; the event refers to a signal. -/
def insertSignalEvent (signalId : String) (status : SignalStatus) (actor : String) (details : Value) :
    Except String SignalWorld := do
  ensure (s.signals.any fun row => row.id = signalId) "FOREIGN KEY constraint failed"
  pure { s with signalEvents := s.signalEvents ++ [⟨signalId, status, actor, details⟩] }

/-- The transaction of `mark_signal_proposed`. -/
def markSignalProposed (signalId goalId actor : String) : Except String SignalWorld := do
  ensure (s.signals.countP (fun row => row.id = signalId) = 1) "signal not found"
  s.insertSignalEvent signalId .proposed actor (.json [("goal_id", .string goalId)])

/-! ## Deduplication -/

/-- Common and all tokens of two contents. -/
def jaccard (left right : List String) : Nat × Nat :=
  let common := (left.filter (· ∈ right)).length
  (common, left.length + right.length - common)

/-- `jaccard_similarity(…) >= NEAR_DUPLICATE_SIMILARITY`. -/
def isNearDuplicate (left right : List String) : Bool :=
  !left.isEmpty && !right.isEmpty && 9 * (jaccard left right).2 ≤ 10 * (jaccard left right).1

/-- The latest 128 signals of the source and kind. -/
def recentSignals (source : String) (kind : SignalKind) : List SignalRow :=
  (((s.signals.filter fun row => row.source = source ∧ row.kind = kind).insertionSort
    fun x y => y.createdAt < x.createdAt ∨ (x.createdAt = y.createdAt ∧ y.id ≤ x.id)).take 128)

/-- The most similar of the near-duplicates, the last one among equals. -/
def nearDuplicate? (enc : SignalEncoding) (request : CreateSignalRequest) : Option String :=
  let tokens := enc.tokens request.content
  let near := (s.recentSignals (trim request.source) request.kind).filter fun row =>
    isNearDuplicate tokens (enc.tokens row.content)
  (near.foldl (fun best row =>
    match best with
    | none => some row
    | some b =>
      let (i, u) := jaccard tokens (enc.tokens b.content)
      let (i', u') := jaccard tokens (enc.tokens row.content)
      if i * u' ≤ i' * u then some row else best) none).map (·.id)

/-- The earliest of the rows that meet the test. -/
def earliest? (test : SignalRow → Bool) : Option String :=
  (((s.signals.filter test).insertionSort fun x y => x.createdAt ≤ y.createdAt).head?).map (·.id)

/-- The signal that the request repeats. -/
def duplicate? (enc : SignalEncoding) (request : CreateSignalRequest) : Option String :=
  let source := trim request.source
  (s.earliest? fun row => row.source = source &&
      ((request.externalId.isSome && row.externalId = request.externalId) ||
        row.fingerprint = enc.fingerprint request))
    <|> (s.earliest? fun row => row.source = source &&
      row.normalizedHash = enc.normalizedHash request.kind request.content)
    <|> s.nearDuplicate? enc request

/-- The transaction of `ingest_signal`: the id of the signal, and whether it was there. -/
def ingestSignal (enc : SignalEncoding) (request : CreateSignalRequest) (actor id : String) (now : Int) :
    Except String ((String × Bool) × SignalWorld) :=
  match s.duplicate? enc request with
  | some existing => .ok ((existing, true), s)
  | none => do
    let row : SignalRow :=
      { id, kind := request.kind, trust := request.trust, source := trim request.source
        externalId := request.externalId, content := trim request.content
        contentHash := enc.contentHash request.content, fingerprint := enc.fingerprint request
        normalizedHash := enc.normalizedHash request.kind request.content, metadata := request.metadata
        createdBy := actor, createdAt := now }
    let signals ← insertRow (fun x => x.id = id) (uniqueFailed "harness_signals.id") row s.signals
    let s' ← SignalWorld.insertSignalEvent { s with signals } id .observed actor
      (.json [("fingerprint", .string row.fingerprint)])
    pure ((id, false), s')

end SignalWorld

/-! ## Statements and transactions -/

/-- What an operation awaits. -/
inductive SignalAction where
  /-- A transaction of the loop store. -/
  | store (t : Txn)
  | createGoal (request : CreateGoalRequest) (actor : String)
  | getSignal (signalId : String)
  | ingestSignal (request : CreateSignalRequest) (actor : String)
  | insertSignalEvent (signalId : String) (status : SignalStatus) (actor : String) (details : Value)
  | markSignalProposed (signalId goalId actor : String)

@[reducible] def SignalAction.Resp : SignalAction → Type
  | store _ => Unit
  | createGoal .. => GoalRecord
  | getSignal _ => Option SignalRecord
  | ingestSignal .. => String × Bool
  | insertSignalEvent .. => Unit
  | markSignalProposed .. => Unit

/-- A function on the signals. -/
abbrev SignalM := Prog SignalAction SignalAction.Resp

/-- What a transaction is given from outside. -/
structure SignalEnv where
  now : Int := 0
  freshId : String := ""

namespace SignalWorld

/-- A transaction on the signals. -/
def commit {α : Type} (s : SignalWorld) (tx : Except String (α × SignalWorld)) :
    Except String α × SignalWorld :=
  match tx with
  | .error e => (.error e, s)
  | .ok (a, s') => (.ok a, s')

/-- The goal of the request's `request_id`, else the new one. -/
def admittedGoal (request : CreateGoalRequest) (id : String) (store : Store) : Except String GoalRecord := do
  let found := (store.goals.find? fun g => request.requestId.isSome && g.requestId = request.requestId) <|>
    store.goals.find? fun g => g.id = id
  let g ← context found "created goal disappeared"
  decodeGoal g

/-- The transaction of `create_goal_admission`, and the goal that is read after it. -/
def createGoal (s : SignalWorld) (request : CreateGoalRequest) (actor id : String) :
    Except String GoalRecord × SignalWorld :=
  match LoopStore.createGoal request actor id s.store with
  | .error e => (.error e, s)
  | .ok store => (admittedGoal request id store, { s with store })

/-- The statements; none waits. -/
def perform (enc : Encoding) (senc : SignalEncoding) (env : SignalEnv) (_ : Nat) :
    (a : SignalAction) → SignalWorld → Option (Except String a.Resp × SignalWorld)
  | .store t, s =>
    some ((s.store.apply enc t).map fun _ => (), { s with store := exec enc s.store t })
  | .createGoal request actor, s => some (s.createGoal request actor env.freshId)
  | .getSignal signalId, s => some (.ok (s.getSignal signalId), s)
  | .ingestSignal request actor, s => some (s.commit (s.ingestSignal senc request actor env.freshId env.now))
  | .insertSignalEvent signalId status actor details, s =>
    some (s.commit ((s.insertSignalEvent signalId status actor details).map fun s' => ((), s')))
  | .markSignalProposed signalId goalId actor, s =>
    some (s.commit ((s.markSignalProposed signalId goalId actor).map fun s' => ((), s')))

end SignalWorld

/-! ## Operations -/

namespace SignalOps

/-- One statement. -/
def call (a : SignalAction) : SignalM a.Resp := Prog.perform a

/-- `get_signal` and its `context`. -/
def findSignal (signalId message : String) : SignalM SignalRecord := do
  let found ← call (.getSignal signalId)
  context found message

/-- `ignore_signal`. -/
def ignoreSignal (signalId reason actor : String) : SignalM SignalRecord := do
  ensure (!isBlank reason && reason.length ≤ 512) "signal ignore reason must be 1..=512 characters"
  let signal ← findSignal signalId "signal not found"
  ensure signal.status.isOpen ("signal cannot be ignored from status '" ++ signal.status.asStr ++ "'")
  call (.insertSignalEvent signalId .ignored actor (.json [("reason", .string (trim reason))]))
  findSignal signalId "ignored signal disappeared"

/-- `triage_signal`. -/
def triageSignal (signalId actor : String) : SignalM SignalRecord := do
  let signal ← findSignal signalId "signal not found"
  if signal.status = .triaged then return signal
  else do
    ensure (signal.status = .observed) ("signal cannot be triaged from status '" ++ signal.status.asStr ++ "'")
    call (.insertSignalEvent signalId .triaged actor (.json []))
    findSignal signalId "triaged signal disappeared"

/-- `mark_signal_proposed`. -/
def markSignalProposed (signalId goalId actor : String) : SignalM Unit :=
  call (.markSignalProposed signalId goalId actor)

/-- `create_goal`. -/
def createGoal (request : CreateGoalRequest) (actor : String) : SignalM GoalRecord := do
  request.validate
  validateActor actor
  call (.createGoal request actor)

/-- `propose_goal_from_signal`. -/
def proposeGoalFromSignal (signalId objective actor : String) : SignalM GoalRecord := do
  validateActor actor
  let signal ← findSignal signalId "signal not found"
  ensure signal.status.isOpen ("signal cannot be proposed from status '" ++ signal.status.asStr ++ "'")
  -- The `request_id` makes the pair idempotent.
  let goal ← createGoal
    { internalOnly := false, objective, sourceSignalIds := [signalId], requestId := some ("signal:" ++ signalId) }
    actor
  markSignalProposed signalId goal.id actor
  return goal

/-- `ingest_signal`. -/
def ingestSignal (senc : SignalEncoding) (request : CreateSignalRequest) (actor : String) :
    SignalM (SignalRecord × Bool) := do
  request.validate senc
  validateActor actor
  let (id, deduplicated) ← call (.ingestSignal request actor)
  let signal ← findSignal id "created signal disappeared"
  return (signal, deduplicated)

end SignalOps

/-- The operations; those of the engine validate their actor first. -/
inductive SignalOperation where
  | ingest (request : CreateSignalRequest) (actor : String)
  | triage (signalId actor : String)
  | ignore (signalId reason actor : String)
  | markProposed (signalId goalId actor : String)
  | propose (signalId objective actor : String)
  /-- Any transaction of the loop store. -/
  | store (t : Txn)

def SignalOperation.program (senc : SignalEncoding) : SignalOperation → SignalM Unit
  | .ingest request actor => do let _ ← SignalOps.ingestSignal senc request actor
  | .triage signalId actor => do
    validateActor actor
    let _ ← SignalOps.triageSignal signalId actor
  | .ignore signalId reason actor => do
    validateActor actor
    let _ ← SignalOps.ignoreSignal signalId reason actor
  | .markProposed signalId goalId actor => SignalOps.markSignalProposed signalId goalId actor
  | .propose signalId objective actor => do let _ ← SignalOps.proposeGoalFromSignal signalId objective actor
  | .store t => SignalOps.call (.store t)

/-- The operations over one database. -/
def signalSystem (enc : Encoding) (senc : SignalEncoding) :
    System SignalWorld SignalOperation SignalAction SignalEnv Unit SignalAction.Resp where
  program := SignalOperation.program senc
  perform env i a s := s.perform enc senc env i a
  release _ s := s
  restart _ s := some s

/-! ## The lifecycle -/

/-- The arrows of the lifecycle. -/
def SignalStatus.precedes : SignalStatus → SignalStatus → Bool
  | .observed, .triaged | .observed, .proposed | .observed, .ignored => true
  | .triaged, .proposed | .triaged, .ignored => true
  | _, _ => false

/-- Every status is the one before it or comes next in the lifecycle, no signal is both proposed and
ignored, and none is proposed to two goals. -/
structure Lawful (s : SignalWorld) (signalId : String) : Prop where
  order : List.IsChain (fun a b : SignalStatus => a = b ∨ a.precedes b = true)
    (.observed :: (s.eventsOf signalId).map (·.status))
  exclusive : ∀ e ∈ s.eventsOf signalId, ∀ e' ∈ s.eventsOf signalId,
    e.status = .proposed → e'.status ≠ .ignored
  oneGoal : ∀ e ∈ s.eventsOf signalId, ∀ e' ∈ s.eventsOf signalId, e.status = .proposed →
    e'.status = .proposed → e.details.get "goal_id" = e'.details.get "goal_id"

/-- The event that a statement inserts. -/
def SignalAction.event? : SignalAction → Option SignalEventRow
  | .insertSignalEvent signalId status actor details => some ⟨signalId, status, actor, details⟩
  | .markSignalProposed signalId goalId actor =>
    some ⟨signalId, .proposed, actor, .json [("goal_id", .string goalId)]⟩
  | _ => none

/-- The signal is still open, or it has the very status that the event gives it, and the same goal. -/
def Admits (s : SignalWorld) (e : SignalEventRow) : Prop :=
  (s.statusOf e.signalId).isOpen = true ∨
    (s.statusOf e.signalId = e.status ∧ (e.status = .proposed → ∀ e' ∈ s.eventsOf e.signalId,
      e'.status = .proposed → e'.details.get "goal_id" = e.details.get "goal_id"))

/-- A pool of operations, and a step of it. -/
abbrev SignalPool := Pool SignalWorld SignalOperation SignalAction SignalAction.Resp

abbrev SignalStep := Interleave.Step SignalOperation SignalEnv Unit

/-- An event that is inserted is admitted. -/
def AdmittedStep (pool : SignalPool) : SignalStep → Prop
  | .advance i _ => ∀ t, pool.threads[i]? = some t → ∀ a k, t.prog = .call a k →
    ∀ e, a.event? = some e → Admits pool.world e
  | _ => True

section Lifecycle

variable {s s' : SignalWorld} {signalId : String} {e : SignalEventRow}

theorem getLast?_statuses (s : SignalWorld) (signalId : String) :
    (SignalStatus.observed :: (s.eventsOf signalId).map (·.status)).getLast? = some (s.statusOf signalId) := by
  rw [List.getLast?_cons, List.getLast?_map]
  rfl

theorem chain_ended {l : List SignalStatus} (h : l.IsChain fun a b => a = b ∨ a.precedes b = true)
    {x : SignalStatus} (hx : x ∈ l) (hended : x.isOpen = false) : l.getLast? = some x := by
  induction l with
  | nil => cases hx
  | cons a l ih =>
    cases l with
    | nil =>
      rw [List.mem_singleton.mp hx]
      rfl
    | cons b l =>
      obtain ⟨hab, hl⟩ := List.isChain_cons_cons.mp h
      rw [List.getLast?_cons_cons]
      rcases List.mem_cons.mp hx with rfl | hx
      · -- Nothing comes after a status that is not open, so the next one is the same.
        have heq : x = b := by
          rcases hab with rfl | hab
          · rfl
          · cases x <;> cases b <;> simp_all [SignalStatus.precedes, SignalStatus.isOpen]
        exact ih hl (heq ▸ List.mem_cons_self)
      · exact ih hl hx

theorem statusOf_ended (h : List.IsChain (fun a b : SignalStatus => a = b ∨ a.precedes b = true)
    (.observed :: (s.eventsOf signalId).map (·.status))) (he : e ∈ s.eventsOf signalId)
    (hended : e.status.isOpen = false) : s.statusOf signalId = e.status := by
  have hlast := chain_ended h (List.mem_cons_of_mem _ (List.mem_map_of_mem he)) hended
  rw [getLast?_statuses] at hlast
  exact Option.some.inj hlast

theorem exclusive_of_order (h : List.IsChain (fun a b : SignalStatus => a = b ∨ a.precedes b = true)
    (.observed :: (s.eventsOf signalId).map (·.status))) {e' : SignalEventRow} (he : e ∈ s.eventsOf signalId)
    (he' : e' ∈ s.eventsOf signalId) (hp : e.status = .proposed) : e'.status ≠ .ignored := by
  intro hi
  have h₁ := statusOf_ended h he (by rw [hp]; rfl)
  have h₂ := statusOf_ended h he' (by rw [hi]; rfl)
  rw [h₁, hp, hi] at h₂
  cases h₂

theorem eventsOf_concat (hevents : s'.signalEvents = s.signalEvents ++ [e]) (id : String) :
    s'.eventsOf id = s.eventsOf id ++ if e.signalId = id then [e] else [] := by
  rw [SignalWorld.eventsOf, hevents, List.filter_append, SignalWorld.eventsOf, List.filter_singleton]
  by_cases h : e.signalId = id <;> simp [h]

theorem Lawful.congr (h : Lawful s signalId) (heq : s'.eventsOf signalId = s.eventsOf signalId) :
    Lawful s' signalId := by
  constructor
  · rw [heq]
    exact h.order
  · rw [heq]
    exact h.exclusive
  · rw [heq]
    exact h.oneGoal

/-- **One insert**: it keeps the lifecycle exactly if it is admitted. -/
theorem lawful_insert (hevents : s'.signalEvents = s.signalEvents ++ [e]) (hne : e.status ≠ .observed)
    (h : Lawful s e.signalId) : Lawful s' e.signalId ↔ Admits s e := by
  have heq : s'.eventsOf e.signalId = s.eventsOf e.signalId ++ [e] := by
    rw [eventsOf_concat hevents, if_pos rfl]
  have hmem : ∀ {x}, x ∈ s'.eventsOf e.signalId ↔ x ∈ s.eventsOf e.signalId ∨ x = e := by
    intro x
    rw [heq, List.mem_append, List.mem_singleton]
  have horder : List.IsChain (fun a b : SignalStatus => a = b ∨ a.precedes b = true)
      (.observed :: (s'.eventsOf e.signalId).map (·.status)) ↔
        (s.statusOf e.signalId = e.status ∨ (s.statusOf e.signalId).precedes e.status = true) := by
    rw [heq, List.map_append, ← List.cons_append, List.isChain_append, getLast?_statuses]
    simp [h.order]
  constructor
  · intro h'
    by_cases hopen : (s.statusOf e.signalId).isOpen = true
    · exact .inl hopen
    · rcases horder.mp h'.order with hst | hst
      · exact .inr ⟨hst, fun hp x hx hxp =>
          h'.oneGoal x (hmem.mpr (.inl hx)) e (hmem.mpr (.inr rfl)) hxp hp⟩
      · refine absurd ?_ hopen
        revert hst
        cases s.statusOf e.signalId <;> cases e.status <;> decide
  · intro hadmits
    have hchain : List.IsChain (fun a b : SignalStatus => a = b ∨ a.precedes b = true)
        (.observed :: (s'.eventsOf e.signalId).map (·.status)) := by
      rw [horder]
      rcases hadmits with hopen | ⟨hst, -⟩
      · revert hopen hne
        cases s.statusOf e.signalId <;> cases e.status <;> decide
      · exact .inl hst
    have hgoal : e.status = .proposed → ∀ x ∈ s.eventsOf e.signalId, x.status = .proposed →
        x.details.get "goal_id" = e.details.get "goal_id" := by
      intro hp x hx hxp
      rcases hadmits with hopen | ⟨-, hgoal⟩
      · rw [statusOf_ended h.order hx (by rw [hxp]; rfl), hxp] at hopen
        cases hopen
      · exact hgoal hp x hx hxp
    refine ⟨hchain, fun x hx y hy => exclusive_of_order hchain hx hy, fun x hx y hy hxp hyp => ?_⟩
    rcases hmem.mp hx with hx | rfl
    · rcases hmem.mp hy with hy | rfl
      · exact h.oneGoal x hx y hy hxp hyp
      · exact hgoal hyp x hx hxp
    · rcases hmem.mp hy with hy | rfl
      · exact (hgoal hxp y hy hyp).symm
      · rfl

end Lifecycle

/-! ## What a statement does -/

section Statements

variable {enc : Encoding} {senc : SignalEncoding} {env : SignalEnv} {i : Nat} {s s' : SignalWorld}
  {a : SignalAction}

theorem insertSignalEvent_ok {signalId actor : String} {status : SignalStatus} {details : Value}
    (h : s.insertSignalEvent signalId status actor details = .ok s') :
    (∃ row ∈ s.signals, row.id = signalId) ∧
      s' = { s with signalEvents := s.signalEvents ++ [⟨signalId, status, actor, details⟩] } := by
  unfold SignalWorld.insertSignalEvent at h
  rw [ensure_bind_eq_ok, pure_eq_ok, List.any_eq_true] at h
  obtain ⟨⟨row, hrow, hid⟩, rfl⟩ := h
  exact ⟨⟨row, hrow, of_decide_eq_true hid⟩, rfl⟩

theorem markSignalProposed_ok {signalId goalId actor : String}
    (h : s.markSignalProposed signalId goalId actor = .ok s') :
    s.insertSignalEvent signalId .proposed actor (.json [("goal_id", .string goalId)]) = .ok s' := by
  unfold SignalWorld.markSignalProposed at h
  rw [ensure_bind_eq_ok] at h
  exact h.2

/-- What a statement does to the signals: nothing, or it inserts its event, or it ingests a signal. -/
inductive Writes (s : SignalWorld) (a : SignalAction) (s' : SignalWorld) : Prop
  | nothing (hsignals : s'.signals = s.signals) (hevents : s'.signalEvents = s.signalEvents)
  | event (e : SignalEventRow) (he : a.event? = some e) (hrow : ∃ row ∈ s.signals, row.id = e.signalId)
      (hsignals : s'.signals = s.signals) (hevents : s'.signalEvents = s.signalEvents ++ [e])
  | ingest (row : SignalRow) (e : SignalEventRow) (hfresh : ∀ x ∈ s.signals, x.id ≠ row.id)
      (hid : e.signalId = row.id) (hstatus : e.status = .observed)
      (hsignals : s'.signals = s.signals ++ [row]) (hevents : s'.signalEvents = s.signalEvents ++ [e])

theorem ingestSignal_ok {request : CreateSignalRequest} {actor id : String} {now : Int} {r : String × Bool}
    (h : s.ingestSignal senc request actor id now = .ok (r, s')) :
    Writes s (.ingestSignal request actor) s' ∧ s'.store = s.store := by
  unfold SignalWorld.ingestSignal at h
  split at h
  · cases h
    exact ⟨.nothing rfl rfl, rfl⟩
  · simp only [bind_eq_ok, insertRow_eq_ok, pure_eq_ok] at h
    obtain ⟨signals, ⟨hfresh, rfl⟩, t, ht, h⟩ := h
    cases h
    obtain ⟨-, rfl⟩ := insertSignalEvent_ok ht
    exact ⟨.ingest _ _ (fun x hx => of_decide_eq_false (hfresh x hx)) rfl rfl rfl rfl, rfl⟩

theorem commit_eq {α : Type} {tx : Except String (α × SignalWorld)} {answer : Except String α}
    (h : s.commit tx = (answer, s')) :
    (∃ e, tx = .error e ∧ answer = .error e ∧ s' = s) ∨ ∃ r, tx = .ok (r, s') ∧ answer = .ok r := by
  unfold SignalWorld.commit at h
  cases tx with
  | error e =>
    cases h
    exact .inl ⟨e, rfl, rfl, rfl⟩
  | ok r =>
    cases h
    exact .inr ⟨_, rfl, rfl⟩

theorem commit_unit {tx : Except String SignalWorld} {answer : Except String Unit}
    (h : s.commit (tx.map fun s' => ((), s')) = (answer, s')) : s' = s ∨ tx = .ok s' := by
  rcases commit_eq h with ⟨e, -, -, rfl⟩ | ⟨r, htx, -⟩
  · exact .inl rfl
  · cases tx with
    | error e => cases htx
    | ok x =>
      cases htx
      exact .inr rfl

theorem perform_writes {answer : Except String a.Resp} (h : s.perform enc senc env i a = some (answer, s')) :
    Writes s a s' := by
  cases a with
  | store t =>
    cases congrArg Prod.snd (Option.some.inj h)
    exact .nothing rfl rfl
  | createGoal request actor =>
    have hs : (s.createGoal request actor env.freshId).2 = s' := congrArg Prod.snd (Option.some.inj h)
    unfold SignalWorld.createGoal at hs
    split at hs <;> cases hs <;> exact .nothing rfl rfl
  | getSignal signalId =>
    cases congrArg Prod.snd (Option.some.inj h)
    exact .nothing rfl rfl
  | ingestSignal request actor =>
    rcases commit_eq (Option.some.inj h) with ⟨e, -, -, rfl⟩ | ⟨r, htx, -⟩
    · exact .nothing rfl rfl
    · exact (ingestSignal_ok htx).1
  | insertSignalEvent signalId status actor details =>
    rcases commit_unit (Option.some.inj h) with rfl | htx
    · exact .nothing rfl rfl
    · obtain ⟨hrow, rfl⟩ := insertSignalEvent_ok htx
      exact .event _ rfl hrow rfl rfl
  | markSignalProposed signalId goalId actor =>
    rcases commit_unit (Option.some.inj h) with rfl | htx
    · exact .nothing rfl rfl
    · obtain ⟨hrow, rfl⟩ := insertSignalEvent_ok (markSignalProposed_ok htx)
      exact .event _ rfl hrow rfl rfl

/-- A statement does at most one transaction of the loop store. -/
theorem perform_store' {answer : Except String a.Resp} (h : s.perform enc senc env i a = some (answer, s')) :
    s'.store = s.store ∨
      ∃ t, (a = .store t ∨ ∃ request actor id, t = .createGoal request actor id) ∧ s'.store = exec enc s.store t := by
  cases a with
  | store t =>
    cases congrArg Prod.snd (Option.some.inj h)
    exact .inr ⟨t, .inl rfl, rfl⟩
  | createGoal request actor =>
    have hs : (s.createGoal request actor env.freshId).2 = s' := congrArg Prod.snd (Option.some.inj h)
    unfold SignalWorld.createGoal at hs
    split at hs
    · cases hs
      exact .inl rfl
    · rename_i store hok
      cases hs
      refine .inr ⟨.createGoal request actor env.freshId, .inr ⟨_, _, _, rfl⟩, ?_⟩
      exact (exec_of_ok (s := s.store) (t := .createGoal request actor env.freshId) hok).symm
  | getSignal signalId =>
    cases congrArg Prod.snd (Option.some.inj h)
    exact .inl rfl
  | ingestSignal request actor =>
    rcases commit_eq (Option.some.inj h) with ⟨e, -, -, rfl⟩ | ⟨r, htx, -⟩
    · exact .inl rfl
    · exact .inl (ingestSignal_ok htx).2
  | insertSignalEvent signalId status actor details =>
    rcases commit_unit (Option.some.inj h) with rfl | htx
    · exact .inl rfl
    · obtain ⟨-, rfl⟩ := insertSignalEvent_ok htx
      exact .inl rfl
  | markSignalProposed signalId goalId actor =>
    rcases commit_unit (Option.some.inj h) with rfl | htx
    · exact .inl rfl
    · obtain ⟨-, rfl⟩ := insertSignalEvent_ok (markSignalProposed_ok htx)
      exact .inl rfl

/-- Every event refers to a signal. -/
def Referenced (s : SignalWorld) : Prop := ∀ e ∈ s.signalEvents, ∃ row ∈ s.signals, row.id = e.signalId

theorem Writes.referenced (h : Writes s a s') (hs : Referenced s) : Referenced s' := by
  intro e he
  cases h with
  | nothing hsignals hevents =>
    rw [hsignals]
    exact hs e (hevents ▸ he)
  | event x hx hrow hsignals hevents =>
    rw [hsignals]
    rw [hevents] at he
    rcases List.mem_append.mp he with he | he
    · exact hs e he
    · cases List.mem_singleton.mp he
      exact hrow
  | ingest row x hfresh hid hstatus hsignals hevents =>
    rw [hsignals]
    rw [hevents] at he
    rcases List.mem_append.mp he with he | he
    · obtain ⟨y, hy, hyid⟩ := hs e he
      exact ⟨y, List.mem_append_left _ hy, hyid⟩
    · cases List.mem_singleton.mp he
      exact ⟨row, List.mem_append_right _ List.mem_cons_self, hid.symm⟩

theorem Referenced.eventsOf_eq_nil (hs : Referenced s) {signalId : String}
    (h : ∀ row ∈ s.signals, row.id ≠ signalId) : s.eventsOf signalId = [] := by
  rw [SignalWorld.eventsOf, List.filter_eq_nil_iff]
  intro e he hid
  obtain ⟨row, hrow, hrid⟩ := hs e he
  exact h row hrow (hrid.trans (of_decide_eq_true hid))

theorem Writes.lawful (h : Writes s a s') (hs : Referenced s)
    (hne : ∀ e, a.event? = some e → e.status ≠ .observed) (hadmits : ∀ e, a.event? = some e → Admits s e)
    (hl : ∀ id, Lawful s id) (id : String) : Lawful s' id := by
  cases h with
  | nothing hsignals hevents => exact (hl id).congr (by rw [SignalWorld.eventsOf, hevents]; rfl)
  | event e he hrow hsignals hevents =>
    by_cases hid : e.signalId = id
    · subst hid
      exact (lawful_insert hevents (hne e he) (hl _)).mpr (hadmits e he)
    · refine (hl id).congr ?_
      rw [eventsOf_concat hevents, if_neg hid, List.append_nil]
  | ingest row e hfresh hrid hstatus hsignals hevents =>
    by_cases hid : e.signalId = id
    · have hevents' : s'.eventsOf id = [e] := by
        rw [eventsOf_concat hevents, if_pos hid, hs.eventsOf_eq_nil, List.nil_append]
        rw [← hid, hrid]
        exact hfresh
      constructor
      · simp [hevents', hstatus]
      · simp [hevents', hstatus]
      · simp [hevents']
    · refine (hl id).congr ?_
      rw [eventsOf_concat hevents, if_neg hid, List.append_nil]

end Statements

/-! ## What an operation has read -/

abbrev SignalEntry := Entry SignalWorld SignalOperation SignalAction SignalAction.Resp

abbrev SignalView := View SignalWorld SignalOperation SignalAction SignalAction.Resp

/-- The status that a `get_signal` answered. -/
def readStatus? (signalId : String) : SignalEntry → Option SignalStatus
  | ⟨_, _, _, .getSignal id, .ok (some record)⟩ => if id = signalId then some record.status else none
  | _ => none

/-- `mark_signal_proposed` on its own reads no status. -/
def SignalOperation.readsNothing : SignalOperation → Bool
  | .markProposed .. => true
  | _ => false

namespace SignalRely

/-- The log only grows. -/
def Grows (v v' : SignalView) : Prop := ∃ l, v'.2 = v.2 ++ l

/-- Thread `i` has read the signal with a status that meets the test. -/
def HasRead (i : Nat) (signalId : String) (test : SignalStatus → Prop) (v : SignalView) : Prop :=
  ∃ x ∈ v.2, x.thread = i ∧ ∃ status, readStatus? signalId x = some status ∧ test status

/-- An event is inserted by an operation that has read the signal as open. -/
def NeedsOpen (op : SignalOperation) (i : Nat) (v : SignalView) (a : SignalAction) : Prop :=
  ∀ e, a.event? = some e → e.status ≠ .observed ∧
    (op.readsNothing = true ∨ HasRead i e.signalId (fun status => status.isOpen = true) v)

/-- What is answered was read. -/
def Answers (i : Nat) (v : SignalView) : (a : SignalAction) → a.Resp → Prop
  | .getSignal signalId, found => ∀ record ∈ (found : Option SignalRecord),
    HasRead i signalId (fun status => status = record.status) v
  | _, _ => True

/-- The tables refer to one another, and the log tells what was read. -/
structure Recorded (v : SignalView) : Prop where
  referenced : Referenced v.1
  ids : (v.1.signals.map (·.id)).Nodup
  reads : ∀ x ∈ v.2, ∀ signalId status, readStatus? signalId x = some status →
    x.before.statusOf signalId = status

section Programs

variable {senc : SignalEncoding} {op : SignalOperation} {i : Nat} {v v' : SignalView} {α : Type}
  {Q : SignalView → α → Prop}

theorem Grows.refl (v : SignalView) : Grows v v := ⟨[], (List.append_nil _).symm⟩

theorem Grows.trans (u v w : SignalView) (huv : Grows u v) (hvw : Grows v w) : Grows u w := by
  obtain ⟨l, hl⟩ := huv
  obtain ⟨l', hl'⟩ := hvw
  exact ⟨l ++ l', by rw [hl', hl, List.append_assoc]⟩

theorem HasRead.mono {signalId : String} {test : SignalStatus → Prop} (hv : Grows v v')
    (h : HasRead i signalId test v) : HasRead i signalId test v' := by
  obtain ⟨l, hl⟩ := hv
  obtain ⟨x, hx, hread⟩ := h
  exact ⟨x, hl ▸ List.mem_append_left l hx, hread⟩

theorem HasRead.imp {signalId : String} {test test' : SignalStatus → Prop} (h : HasRead i signalId test v)
    (htest : ∀ status, test status → test' status) : HasRead i signalId test' v := by
  obtain ⟨x, hx, hthread, status, hread, hstatus⟩ := h
  exact ⟨x, hx, hthread, status, hread, htest _ hstatus⟩

/-- What the operations meet: the rule for a program at thread `i`. -/
abbrev Meets (op : SignalOperation) (i : Nat) (Q : SignalView → α → Prop) (v : SignalView) (p : SignalM α) : Prop :=
  p.Holds Grows (NeedsOpen op i) (Answers i) Q v

theorem meets_of_uses {p : SignalM α} (hp : p.Uses fun a => a.event? = none) :
    Meets op i (fun _ _ => True) v p :=
  Prog.holds_of_uses (fun _ a ha e he => by rw [ha] at he; cases he) hp

theorem meets_findSignal (signalId message : String) :
    Meets op i (fun v signal => HasRead i signalId (fun status => status = signal.status) v) v
      (SignalOps.findSignal signalId message) := by
  refine Prog.holds_perform_bind Grows.trans (fun v' _ e he => by cases he) fun v' found _ hfound => ?_
  refine Prog.holds_lift fun signal hsignal w hw => ?_
  have hmem : found = some signal := context_eq_ok.mp hsignal
  exact (hfound signal hmem).mono hw

theorem meets_insert {signalId actor message : String} {status : SignalStatus} {details : Value}
    (hne : status ≠ .observed) (h : HasRead i signalId (fun status => status.isOpen = true) v) :
    Meets op i (fun _ _ => True) v (do
      SignalOps.call (.insertSignalEvent signalId status actor details)
      SignalOps.findSignal signalId message) := by
  refine Prog.holds_perform_bind Grows.trans (fun v' hv e he => ?_) fun v' _ _ _ => ?_
  · cases he
    exact ⟨hne, .inr (h.mono hv)⟩
  · exact meets_of_uses (.bind (Prog.uses_perform rfl) fun _ => Prog.uses_lift _)

theorem meets_ignoreSignal (signalId reason actor : String) :
    Meets op i (fun _ _ => True) v (SignalOps.ignoreSignal signalId reason actor) := by
  refine Prog.holds_lift_bind fun _ _ => ?_
  refine Prog.Holds.bind Grows.refl Grows.trans (meets_findSignal signalId _) fun v' signal _ hread => ?_
  refine Prog.holds_lift_bind fun _ hopen => ?_
  exact meets_insert (by decide) (hread.imp fun status hstatus => hstatus ▸ (ensure_eq_ok.mp hopen))

theorem meets_triageSignal (signalId actor : String) :
    Meets op i (fun _ _ => True) v (SignalOps.triageSignal signalId actor) := by
  refine Prog.Holds.bind Grows.refl Grows.trans (meets_findSignal signalId _) fun v' signal _ hread => ?_
  split_ifs with htriaged
  · exact meets_of_uses (Prog.uses_pure signal)
  · refine Prog.holds_lift_bind fun _ hobserved => ?_
    refine meets_insert (by decide) (hread.imp fun status hstatus => ?_)
    rw [hstatus, of_decide_eq_true (ensure_eq_ok.mp hobserved)]
    rfl

theorem meets_proposeGoalFromSignal (signalId objective actor : String) :
    Meets op i (fun _ _ => True) v (SignalOps.proposeGoalFromSignal signalId objective actor) := by
  refine Prog.holds_lift_bind fun _ _ => ?_
  refine Prog.Holds.bind Grows.refl Grows.trans (meets_findSignal signalId _) fun v' signal _ hread => ?_
  refine Prog.holds_lift_bind fun _ hopen => ?_
  have hcreate : Meets op i (fun _ _ => True) v' (SignalOps.createGoal
      { internalOnly := false, objective, sourceSignalIds := [signalId], requestId := some ("signal:" ++ signalId) }
      actor) :=
    meets_of_uses (Prog.uses_lift_bind fun _ _ => Prog.uses_lift_bind fun _ _ => Prog.uses_perform rfl)
  refine Prog.Holds.bind Grows.refl Grows.trans hcreate fun w goal hw _ => ?_
  refine Prog.holds_perform_bind Grows.trans (fun w' hw' e he => ?_) fun _ _ _ _ => ?_
  · cases he
    have hread' := (hread.mono hw).mono hw'
    exact ⟨nofun, .inr (hread'.imp fun status hstatus => hstatus ▸ ensure_eq_ok.mp hopen)⟩
  · exact meets_of_uses (Prog.uses_pure goal)

/-- Every operation reads a signal as open before it inserts an event of it, `mark_signal_proposed` on its
own apart. -/
theorem meets_program (op : SignalOperation) (i : Nat) (v : SignalView) :
    Meets op i (fun _ _ => True) v (op.program senc) := by
  cases op with
  | ingest request actor =>
    refine meets_of_uses (.bind ?_ fun _ => Prog.uses_pure ())
    refine Prog.uses_lift_bind fun _ _ => Prog.uses_lift_bind fun _ _ => ?_
    refine .bind (Prog.uses_perform rfl) fun _ => ?_
    exact .bind (.bind (Prog.uses_perform rfl) fun _ => Prog.uses_lift _) fun _ => Prog.uses_pure _
  | triage signalId actor =>
    refine Prog.holds_lift_bind fun _ _ => ?_
    refine Prog.Holds.bind Grows.refl Grows.trans (meets_triageSignal signalId actor) fun _ _ _ _ => ?_
    exact meets_of_uses (Prog.uses_pure ())
  | ignore signalId reason actor =>
    refine Prog.holds_lift_bind fun _ _ => ?_
    refine Prog.Holds.bind Grows.refl Grows.trans (meets_ignoreSignal signalId reason actor) fun _ _ _ _ => ?_
    exact meets_of_uses (Prog.uses_pure ())
  | markProposed signalId goalId actor =>
    refine Prog.holds_perform (fun v' _ e he => ?_) (fun _ _ _ _ _ _ => trivial) Grows.trans
    cases he
    exact ⟨nofun, .inl rfl⟩
  | propose signalId objective actor =>
    refine Prog.Holds.bind Grows.refl Grows.trans (meets_proposeGoalFromSignal signalId objective actor)
      fun _ _ _ _ => ?_
    exact meets_of_uses (Prog.uses_pure ())
  | store t => exact meets_of_uses (Prog.uses_perform rfl)

end Programs

section Calls

variable {enc : Encoding} {senc : SignalEncoding} {env : SignalEnv} {i : Nat} {s s' : SignalWorld}
  {log : List SignalEntry} {op : SignalOperation} {a : SignalAction}

theorem getSignal_eq_some {signalId : String} {record : SignalRecord} (h : s.getSignal signalId = some record) :
    record.status = s.statusOf signalId := by
  obtain ⟨row, hrow, rfl⟩ := Option.map_eq_some_iff.mp h
  have hid : row.id = signalId := by simpa using List.find?_some hrow
  exact congrArg s.statusOf hid

theorem readStatus?_perform {answer : Except String a.Resp} {signalId : String} {status : SignalStatus}
    (h : s.perform enc senc env i a = some (answer, s'))
    (hread : readStatus? signalId ⟨i, op, s, a, answer⟩ = some status) : s.statusOf signalId = status := by
  cases a with
  | getSignal id =>
    have hanswer : answer = .ok (s.getSignal id) := congrArg Prod.fst (Option.some.inj h).symm
    subst hanswer
    cases hfound : s.getSignal id with
    | none =>
      rw [hfound] at hread
      cases hread
    | some record =>
      rw [hfound] at hread
      simp only [readStatus?] at hread
      split_ifs at hread with hid
      subst hid
      rw [← getSignal_eq_some hfound]
      exact Option.some.inj hread
  | _ => cases hread

/-- **A statement** keeps the tables and the log in order, and its answer is what was read. -/
theorem recorded_perform {answer : Except String a.Resp} (hv : Recorded (s, log))
    (h : s.perform enc senc env i a = some (answer, s')) :
    Recorded (s', log ++ [⟨i, op, s, a, answer⟩]) ∧ Grows (s, log) (s', log ++ [⟨i, op, s, a, answer⟩]) ∧
      ∀ r, answer = .ok r → Answers i (s', log ++ [⟨i, op, s, a, answer⟩]) a r := by
  have hwrites := perform_writes h
  refine ⟨⟨hwrites.referenced hv.referenced, ?_, fun x hx signalId status hread => ?_⟩, ⟨_, rfl⟩, ?_⟩
  · show (s'.signals.map (·.id)).Nodup
    cases hwrites with
    | nothing hsignals hevents =>
      rw [hsignals]
      exact hv.ids
    | event e he hrow hsignals hevents =>
      rw [hsignals]
      exact hv.ids
    | ingest row e hfresh hid hstatus hsignals hevents =>
      rw [hsignals]
      exact nodup_concat hv.ids hfresh
  · rcases List.mem_append.mp hx with hx | hx
    · exact hv.reads x hx signalId status hread
    · cases List.mem_singleton.mp hx
      exact readStatus?_perform h hread
  · rintro r rfl
    cases a with
    | getSignal signalId =>
      intro record hrecord
      have hr : r = some record := hrecord
      refine ⟨_, List.mem_append_right _ (List.mem_singleton_self _), rfl, record.status, ?_, rfl⟩
      rw [hr]
      exact if_pos rfl
    | _ => trivial

theorem signals_sound (enc : Encoding) (senc : SignalEncoding) :
    Sound (signalSystem enc senc) Grows NeedsOpen (fun _ => Answers) Recorded where
  refl := Grows.refl
  trans := Grows.trans
  program v op i := meets_program op i v
  perform hv _ h := recorded_perform hv h
  release hv := ⟨hv, Grows.refl _⟩
  restart hv h := by
    cases h
    exact hv

theorem recorded_initial : Recorded ((.empty : SignalWorld), []) where
  referenced := by simp [Referenced, SignalWorld.empty]
  ids := by simp [SignalWorld.empty]
  reads := by simp

end Calls

/-- The pools of a run: their tables are in order, and every thread reads before it inserts. -/
abbrev InOrder (pool : SignalPool) : Prop := pool.Holds Grows NeedsOpen (fun _ => Answers) Recorded

theorem inOrder_run (enc : Encoding) (senc : SignalEncoding) (steps : List SignalStep) :
    InOrder (Machine.run (Interleave.step (signalSystem enc senc)) (.initial .empty) steps) := by
  refine Machine.run_invariant' (I := InOrder) (fun _ label h => (signals_sound enc senc).holds_step h label) ?_
  exact ⟨recorded_initial, fun i t ht => by simp [Pool.initial] at ht⟩

end SignalRely

/-! ## Runs -/

section Runs

open SignalRely

variable {enc : Encoding} {senc : SignalEncoding} {env : SignalEnv} {i : Nat} {s s' : SignalWorld}
  {a : SignalAction} {e : SignalEventRow} {pool : SignalPool}

theorem perform_answers (enc : Encoding) (senc : SignalEncoding) (env : SignalEnv) (i : Nat) (a : SignalAction)
    (s : SignalWorld) : ∃ answer s', s.perform enc senc env i a = some (answer, s') := by
  cases a <;> exact ⟨_, _, rfl⟩

theorem admits_of_eventsOf_eq_nil (h : s.eventsOf e.signalId = []) : Admits s e := by
  refine .inl ?_
  rw [SignalWorld.statusOf, h]
  rfl

/-- An event is inserted unless its signal is missing. -/
theorem perform_event {answer : Except String a.Resp} (hids : (s.signals.map (·.id)).Nodup)
    (h : s.perform enc senc env i a = some (answer, s')) (he : a.event? = some e) :
    (∀ row ∈ s.signals, row.id ≠ e.signalId) ∨ s'.signalEvents = s.signalEvents ++ [e] := by
  by_cases hrow : ∃ row ∈ s.signals, row.id = e.signalId
  · refine .inr ?_
    obtain ⟨row, hmem, hid⟩ := hrow
    have hany : (s.signals.any fun row => row.id = e.signalId) = true :=
      List.any_eq_true.mpr ⟨row, hmem, decide_eq_true hid⟩
    cases a with
    | insertSignalEvent signalId status actor details =>
      cases he
      simp only [SignalWorld.perform, SignalWorld.insertSignalEvent, hany] at h
      cases congrArg Prod.snd (Option.some.inj h)
      rfl
    | markSignalProposed signalId goalId actor =>
      cases he
      have hfind : (s.signals.find? fun x => x.id = row.id) = some row := find?_of_mem hids hmem
      have hcount : s.signals.countP (fun row => row.id = signalId) = 1 := by
        have hkey := countP_key hids row.id fun _ => true
        rw [hfind] at hkey
        rw [← show row.id = signalId from hid]
        simpa using hkey
      simp only [SignalWorld.perform, SignalWorld.markSignalProposed, SignalWorld.insertSignalEvent, hcount,
        hany] at h
      cases congrArg Prod.snd (Option.some.inj h)
      rfl
    | _ => cases he
  · exact .inl fun row hmem hid => hrow ⟨row, hmem, hid⟩

/-- **One step** keeps every lifecycle exactly if its event is admitted. -/
theorem lawful_step (hpool : InOrder pool) (hl : ∀ id, Lawful pool.world id) (label : SignalStep) :
    (∀ id, Lawful (Interleave.step (signalSystem enc senc) pool label).world id) ↔ AdmittedStep pool label := by
  cases label with
  | start op => exact iff_of_true hl trivial
  | drop j => exact iff_of_true hl trivial
  | restart x => exact iff_of_true hl trivial
  | advance j env =>
    by_cases hcall : ∃ t a k, pool.threads[j]? = some t ∧ t.prog = .call a k
    · obtain ⟨t, a, k, ht, hp⟩ := hcall
      obtain ⟨answer, world, hanswer⟩ := perform_answers enc senc env j a pool.world
      rw [step_advance (signalSystem enc senc) ht hp hanswer]
      have hprog := hpool.threads j t ht
      rw [hp] at hprog
      have hneeds := (hprog pool.view (Grows.refl _)).1
      have hreferenced : Referenced pool.world := hpool.inv.referenced
      constructor
      · intro hlawful t' ht' a' k' hp' e he
        cases ht.symm.trans ht'
        cases hp.symm.trans hp'
        rcases perform_event hpool.inv.ids hanswer he with hrow | hevents
        · exact admits_of_eventsOf_eq_nil (hreferenced.eventsOf_eq_nil hrow)
        · exact (lawful_insert hevents (hneeds e he).1 (hl _)).mp (hlawful _)
      · intro hadmits id
        exact (perform_writes hanswer).lawful hreferenced (fun e he => (hneeds e he).1)
          (fun e he => hadmits t ht a k hp e he) hl id
    · refine iff_of_true ?_ fun t ht a k hp => absurd ⟨t, a, k, ht, hp⟩ hcall
      rcases step_advance_cases (signalSystem enc senc) pool j env with hsame | ⟨t, a, k, _, _, ht, hp, _⟩
      · rw [hsame]
        exact hl
      · exact absurd ⟨t, a, k, ht, hp⟩ hcall

namespace Sample

def flaky : CreateSignalRequest := ⟨.manual, .internal, "cli", none, "flaky deploy", []⟩

/-- The digests of the one signal. -/
def signalEncoding : SignalEncoding where
  fingerprint _ := "sha256:4137a02e5775c8105f3400056333313b7ec23f13a61840896ef9989b89160fdf"
  contentHash _ := "sha256:ed103faa5bc39715a985d4c54ac023cb18667a52fe688259ad397f9e9881e677"
  normalizedHash _ _ := "sha256:810030cc60fc3893b4726b766ee28f5fcf3fae4c68127f4ed1aabb7ed84d3a03"
  metadataLen _ := 2
  tokens _ := ["deploy", "flaky"]

/-- One operator reads the signal to ignore it, another proposes a goal from it, the first one inserts. -/
def crossed : List SignalStep :=
  [.start (.ingest flaky "operator"), .advance 0 { freshId := "signal" },
    .start (.ignore "signal" "noise" "first"), .advance 1 {},
    .start (.propose "signal" "stabilise the deploy" "second"), .advance 2 {}, .advance 2 { freshId := "goal" },
    .advance 2 {}, .advance 1 {}]

end Sample

end Runs

end Xiaomaolv
