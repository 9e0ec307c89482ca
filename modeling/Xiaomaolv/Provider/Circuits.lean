import Mathlib.Logic.Function.Basic
import Xiaomaolv.Lib.Machine
import Xiaomaolv.Provider.Failover

/-!
# Circuits under concurrent requests

* `failures`: the failures since the last success; `Accounts`: a circuit as an account of them.
* `ChainSystem`, `ChainSystem.exec`: requests that go through the chain at the same time, plain or
  streaming, over the shared circuits; a request looks at one circuit at a time, and may be dropped.
* **`circuit_accounting`**: a circuit is open only if the last calls that its provider has completed, as many as the
  threshold, all failed; after a success it is as new.
-/

namespace Xiaomaolv

/-- How a call of a provider ends: with a reply, with an error of its own, or with the error with which the
caller's sink refused a delta. -/
inductive CallOutcome
  | replied (text : String)
  | failed (err : ProviderError)
  | sinkRefused (err : ProviderError)
deriving DecidableEq

namespace CallOutcome

/-- What the chain sees of it. -/
def result : CallOutcome → Except ProviderError String
  | replied text => .ok text
  | failed err | sinkRefused err => .error err

def isFailure : CallOutcome → Bool
  | replied _ => false
  | failed _ | sinkRefused _ => true

end CallOutcome

/-! ## Accounts -/

/-- The failures since the last success, of a history with the newest first. -/
def failures (history : List CallOutcome) : Nat := (history.takeWhile CallOutcome.isFailure).length

theorem failures_cons_failure {o : CallOutcome} (h : o.isFailure = true) (history : List CallOutcome) :
    failures (o :: history) = failures history + 1 := by
  simp [failures, h]

theorem failures_cons_success {o : CallOutcome} (h : o.isFailure = false) (history : List CallOutcome) :
    failures (o :: history) = 0 := by
  simp [failures, h]

theorem all_failed {history : List CallOutcome} {n : Nat} (h : n ≤ failures history) :
    n ≤ history.length ∧ ∀ o ∈ history.take n, o.isFailure = true := by
  unfold failures at h
  refine ⟨Nat.le_trans h (List.takeWhile_sublist _).length_le, fun o ho => ?_⟩
  have htake : history.take n = (history.takeWhile CallOutcome.isFailure).take n := by
    conv_lhs => rw [← List.takeWhile_append_dropWhile (p := CallOutcome.isFailure) (l := history)]
    rw [List.take_append_of_le_length h]
  rw [htake] at ho
  exact List.all_eq_true.mp List.all_takeWhile o (List.mem_of_mem_take ho)

/-- The circuit counts the failures since the last success, up to `u32::MAX`, and has an opening exactly from
the threshold on. -/
structure Accounts (threshold : Nat) (history : List CallOutcome) (circuit : Circuit) : Prop where
  count : circuit.consecutiveFailures = min (failures history) (2 ^ 32 - 1)
  opened : circuit.openedUntil.isSome = true ↔ threshold ≤ failures history

section

variable {threshold cooldown now : Nat} {history : List CallOutcome} {circuit : Circuit} {o : CallOutcome}

theorem accounts_new (h : 1 ≤ threshold) : Accounts threshold [] {} := by
  refine ⟨rfl, ?_⟩
  show false = true ↔ threshold ≤ 0
  constructor
  · intro hfalse
    cases hfalse
  · omega

theorem accounts_onSuccess (h : 1 ≤ threshold) (ho : o.isFailure = false) :
    Accounts threshold (o :: history) circuit.onSuccess := by
  refine ⟨?_, ?_⟩
  · rw [failures_cons_success ho]
    rfl
  · rw [failures_cons_success ho]
    exact (accounts_new h).opened

theorem accounts_onFailure (h : Accounts threshold history circuit) (hmax : threshold ≤ 2 ^ 32 - 1)
    (ho : o.isFailure = true) : Accounts threshold (o :: history) (circuit.onFailure threshold cooldown now) := by
  rw [Circuit.onFailure, h.count]
  refine ⟨?_, ?_⟩
  · rw [failures_cons_failure ho]
    show min (min (failures history) (2 ^ 32 - 1) + 1) (2 ^ 32 - 1) = min (failures history + 1) (2 ^ 32 - 1)
    omega
  · rw [failures_cons_failure ho]
    dsimp only
    have hopened := h.opened
    split_ifs with hopens
    · rw [Bool.or_eq_true, decide_eq_true_eq, hopened] at hopens
      simp only [Option.isSome_some, true_iff]
      omega
    · rw [Bool.or_eq_true, decide_eq_true_eq, hopened] at hopens
      rw [hopened]
      omega

theorem Accounts.failed_of_open (h : Accounts threshold history circuit)
    (hopen : circuit.admits now = false) : threshold ≤ failures history := by
  rw [← h.opened]
  cases hopened : circuit.openedUntil with
  | none =>
    rw [Circuit.admits, hopened] at hopen
    cases hopen
  | some til => rfl

theorem Accounts.eq_new (h : Accounts threshold (o :: history) circuit) (hthreshold : 1 ≤ threshold)
    (ho : o.isFailure = false) : circuit = {} := by
  have hcount := h.count
  have hopened := h.opened
  rw [failures_cons_success ho] at hcount hopened
  cases circuit with
  | mk consecutiveFailures openedUntil =>
    cases openedUntil with
    | none =>
      rw [Circuit.mk.injEq]
      exact ⟨hcount, rfl⟩
    | some til =>
      have := hopened.mp rfl
      omega

end

/-! ## Concurrent requests -/

/-- Where a request is in the chain. -/
inductive RequestPhase
  | looking (next : Nat) (admitted : List Nat)
  | trying (rest : List Nat) (lastError : Option ProviderError)
  | calling (idx : Nat) (rest : List Nat)

structure ChainRequest where
  stream : Bool
  phase : RequestPhase := .looking 0 []

/-- The shared circuits, the requests in flight, the outcomes recorded for each provider, the newest first, and
the results returned. -/
structure ChainSystem where
  circuits : List Circuit
  now : Nat := 0
  requests : Nat → Option ChainRequest := fun _ => none
  history : Nat → List CallOutcome := fun _ => []
  replies : List (Nat × Except ProviderError String) := []

inductive ChainStep
  | setClock (now : Nat)
  | request (r : Nat) (stream : Bool)
  | look (r : Nat)
  | tryNext (r : Nat)
  | finish (r : Nat) (outcome : CallOutcome) (emitted : Nat)
  | cancel (r : Nat)

namespace ChainSystem

variable {ω : Type} (f : FailoverProvider ω)

def setRequest (s : ChainSystem) (r : Nat) (request : Option ChainRequest) : ChainSystem :=
  { s with requests := Function.update s.requests r request }

def reply (s : ChainSystem) (r : Nat) (result : Except ProviderError String) : ChainSystem :=
  { s.setRequest r none with replies := s.replies ++ [(r, result)] }

/-- `admitted_indices`, one circuit. -/
def look (s : ChainSystem) (r : Nat) : ChainSystem :=
  match s.requests r with
  | some ⟨stream, .looking next admitted⟩ =>
    match s.circuits[next]? with
    | some circuit =>
      let admitted := if circuit.admits s.now then admitted ++ [next] else admitted
      s.setRequest r (some ⟨stream, .looking (next + 1) admitted⟩)
    | none => s.setRequest r (some ⟨stream, .trying admitted none⟩)
  | _ => s

/-- The head of the loop of `complete` and `complete_stream`. -/
def tryNext (s : ChainSystem) (r : Nat) : ChainSystem :=
  match s.requests r with
  | some ⟨stream, .trying (idx :: rest) lastError⟩ =>
    if f.stops lastError then s.reply r (.error (lastError.getD FailoverProvider.unavailable))
    else s.setRequest r (some ⟨stream, .calling idx rest⟩)
  | some ⟨_, .trying [] lastError⟩ => s.reply r (.error (lastError.getD FailoverProvider.unavailable))
  | _ => s

/-- `record_success` or `record_failure`. -/
def record (s : ChainSystem) (idx : Nat) (outcome : CallOutcome) : ChainSystem :=
  { s with
    circuits := s.circuits.modify idx fun circuit =>
      match outcome.result with
      | .ok _ => circuit.onSuccess
      | .error _ => circuit.onFailure f.failureThreshold f.cooldown s.now
    history := Function.update s.history idx (outcome :: s.history idx) }

/-- The call of a provider returns, after so many deltas. -/
def finish (s : ChainSystem) (r : Nat) (outcome : CallOutcome) (emitted : Nat) : ChainSystem :=
  match s.requests r with
  | some ⟨stream, .calling idx rest⟩ =>
    let recorded := s.record f idx outcome
    match outcome.result with
    | .ok text => recorded.reply r (.ok text)
    | .error err =>
      -- Partial output already delivered: the answer is committed.
      if stream && 0 < emitted then recorded.reply r (.error err)
      else recorded.setRequest r (some ⟨stream, .trying rest (some err)⟩)
  | _ => s

def exec (s : ChainSystem) : ChainStep → ChainSystem
  | .setClock now => { s with now }
  | .request r stream =>
    if (s.requests r).isNone then s.setRequest r (some { stream }) else s
  | .look r => s.look r
  | .tryNext r => s.tryNext f r
  | .finish r outcome emitted => s.finish f r outcome emitted
  | .cancel r => s.setRequest r none

/-- A new chain: every circuit is new. -/
def new : ChainSystem where
  circuits := List.replicate f.chain.length {}

/-! ## Every circuit accounts for its provider -/

/-- Every circuit is the account of what was recorded for its provider. -/
def Accounted (s : ChainSystem) : Prop :=
  ∀ idx circuit, s.circuits[idx]? = some circuit → Accounts f.failureThreshold (s.history idx) circuit

variable {f} {s : ChainSystem}

theorem accounted_record (h : Accounted f s) (hpos : 1 ≤ f.failureThreshold)
    (hmax : f.failureThreshold ≤ 2 ^ 32 - 1) (idx : Nat) (outcome : CallOutcome) :
    Accounted f (s.record f idx outcome) := by
  intro k circuit hcircuit
  unfold record at hcircuit ⊢
  dsimp only at hcircuit ⊢
  rw [List.getElem?_modify] at hcircuit
  by_cases hk : idx = k
  · subst hk
    rw [Function.update_self]
    simp only [if_true, Option.map_eq_map, Option.map_eq_some_iff] at hcircuit
    obtain ⟨before, hbefore, rfl⟩ := hcircuit
    cases outcome with
    | replied text => exact accounts_onSuccess hpos rfl
    | failed err => exact accounts_onFailure (h idx before hbefore) hmax rfl
    | sinkRefused err => exact accounts_onFailure (h idx before hbefore) hmax rfl
  · rw [Function.update_of_ne (Ne.symm hk)]
    simp only [if_neg hk, Option.map_eq_map, Option.map_id_fun'] at hcircuit
    exact h k circuit hcircuit

theorem accounted_exec (hpos : 1 ≤ f.failureThreshold) (hmax : f.failureThreshold ≤ 2 ^ 32 - 1)
    (step : ChainStep) (h : Accounted f s) : Accounted f (s.exec f step) := by
  cases step with
  | setClock now => exact h
  | request r stream =>
    simp only [exec]
    split_ifs
    · exact h
    · exact h
  | look r =>
    show Accounted f (s.look r)
    unfold look
    split
    · split
      · exact h
      · exact h
    · exact h
  | tryNext r =>
    show Accounted f (s.tryNext f r)
    unfold tryNext
    split
    · split_ifs
      · exact h
      · exact h
    · exact h
    · exact h
  | finish r outcome emitted =>
    show Accounted f (s.finish f r outcome emitted)
    unfold finish
    split
    · next stream idx rest _ =>
      have hrecorded := accounted_record h hpos hmax idx outcome
      dsimp only
      split
      · exact hrecorded
      · split_ifs
        · exact hrecorded
        · exact hrecorded
    · exact h
  | cancel r => exact h

theorem accounted_new (hpos : 1 ≤ f.failureThreshold) : Accounted f (new f) := by
  intro idx circuit hcircuit
  have : circuit = {} := List.eq_of_mem_replicate (List.mem_of_getElem? hcircuit)
  rw [this]
  exact accounts_new hpos

end ChainSystem

/-- **Circuits account for failures**: under every interleaving of requests and at every clock, a circuit is
open only if the last calls that its provider has completed, as many as the threshold, all failed, with
whatever error; and a circuit whose provider's last completed call succeeded is as new. -/
theorem circuit_accounting {ω : Type} (chain : List (ChatProvider ω)) (failureThreshold : UInt32)
    (cooldown : Nat) (failoverOn4xx : Bool) (clock : ω → Nat) (steps : List ChainStep) :
    let f := FailoverProvider.new chain failureThreshold.toNat cooldown failoverOn4xx clock
    let s := Machine.run (ChainSystem.exec f) (.new f) steps
    ∀ idx circuit, s.circuits[idx]? = some circuit →
      (circuit.admits s.now = false → f.failureThreshold ≤ (s.history idx).length ∧
        ∀ o ∈ (s.history idx).take f.failureThreshold, o.isFailure = true) ∧
      ∀ o earlier, s.history idx = o :: earlier → o.isFailure = false → circuit = {} := by
  intro f s idx circuit hcircuit
  have hpos : 1 ≤ f.failureThreshold := Nat.le_max_right _ _
  have hmax : f.failureThreshold ≤ 2 ^ 32 - 1 := by
    have := failureThreshold.toNat_lt
    show max failureThreshold.toNat 1 ≤ 2 ^ 32 - 1
    omega
  have h : ChainSystem.Accounted f s :=
    Machine.run_invariant' (fun _ step h => ChainSystem.accounted_exec hpos hmax step h)
      (ChainSystem.accounted_new hpos)
  have haccounts := h idx circuit hcircuit
  refine ⟨fun hopen => all_failed (haccounts.failed_of_open hopen), fun o earlier hhistory ho => ?_⟩
  rw [hhistory] at haccounts
  exact haccounts.eq_new hpos ho

namespace Sample

/-- Three requests, one after the other, whose first provider ends as given. -/
def threeCalls (stream : Bool) (outcome : CallOutcome) : ChainSystem :=
  Machine.run (ChainSystem.exec emptyDeltaChain) (.new emptyDeltaChain)
    ((List.range 3).flatMap fun r =>
      [.request r stream, .look r, .look r, .look r, .tryNext r, .finish r outcome 0, .cancel r])

def rejectedCalls : ChainSystem := threeCalls false (.failed (.http 400 ""))

def refusedCalls : ChainSystem := threeCalls true (.sinkRefused (.other "closed"))

end Sample

/-- Three rejected requests open the circuit of a provider, and so do three sinks that refuse a delta. -/
theorem circuit_accounting_rejected :
    (failoverWorthy (.http 400 "") Sample.emptyDeltaChain.failoverOn4xx = false ∧
      Sample.rejectedCalls.history 0 = List.replicate 3 (.failed (.http 400 "")) ∧
      Sample.rejectedCalls.circuits.map (fun circuit => circuit.admits Sample.rejectedCalls.now) =
        [false, true]) ∧
    Sample.refusedCalls.history 0 = List.replicate 3 (.sinkRefused (.other "closed")) ∧
    Sample.refusedCalls.circuits.map (fun circuit => circuit.admits Sample.refusedCalls.now) =
      [false, true] := by
  decide +kernel

end Xiaomaolv
