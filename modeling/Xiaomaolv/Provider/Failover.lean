import Xiaomaolv.Provider.Stream

/-!
# Failover across providers

A chain of providers, each behind a circuit: a call goes to the first one that its circuit admits, and
on to the next after a failure that is worth it.

* `ChatProvider`: a provider, with the proof that its streamed reply is what its sink has accepted.
* `FailoverProvider.completeStream`: the chain; `withGate`: the sink that counts deltas.
* `Attempted`, `observed`: the same chain with a record of its attempts;
  **`observed_completeStream`**: the record changes nothing.
* `Trail`: what the attempts of a call can be; **`trail_streamLoop`**: they are so.
* **`failover_transparent`**: a reply comes from one provider, and the next one is tried exactly while
  no delta has been accepted.
-/

namespace Xiaomaolv

open Emitter

/-! ## Providers -/

/-- A provider; a streamed reply is the text that its sink has accepted. -/
structure ChatProvider (ω : Type) where
  complete : CompletionRequest → Call ω String
  completeStream : CompletionRequest → Call ω String
  streams : ∀ req, Streams (completeStream req)

/-- The OpenAI-compatible provider over a server. -/
def OpenAiCompatibleProvider.chat {ω : Type} (web : Web ω) (codec : Codec)
    (p : OpenAiCompatibleProvider) : ChatProvider ω where
  complete := p.complete web codec
  completeStream := p.completeStream web codec
  streams := streams_completeStream

/-- `failover_worthy`: every provider would reject a request of the wrong shape. -/
def failoverWorthy (err : ProviderError) (failoverOn4xx : Bool) : Bool :=
  match err with
  | .http status _ => failoverOn4xx || !(status == 400 || status == 404 || status == 422)
  | .other _ => true

/-! ## Circuits -/

structure Circuit where
  consecutiveFailures : Nat := 0
  openedUntil : Option Nat := none
  deriving DecidableEq, Repr

/-- A closed or cooldown-elapsed circuit accepts calls. -/
def Circuit.admits (now : Nat) (circuit : Circuit) : Bool :=
  match circuit.openedUntil with
  | some til => til ≤ now
  | none => true

def Circuit.onSuccess (_ : Circuit) : Circuit := {}

def Circuit.onFailure (threshold cooldown now : Nat) (circuit : Circuit) : Circuit :=
  let failures := min (circuit.consecutiveFailures + 1) (2 ^ 32 - 1)
  { consecutiveFailures := failures
    openedUntil :=
      if threshold ≤ failures || circuit.openedUntil.isSome then some (now + cooldown)
      else circuit.openedUntil }

/-! ## The chain -/

structure FailoverProvider (ω : Type) where
  chain : List (ChatProvider ω)
  failureThreshold : Nat
  cooldown : Nat
  failoverOn4xx : Bool
  /-- `Instant::now`. -/
  clock : ω → Nat

/-- An operation that leaves the circuits alone. -/
def onWorld {ω α : Type} (call : Call ω α) : Call (ω × List Circuit) α := fun w =>
  (call w.1).map fun r => (r.1, (r.2, w.2))

/-- The call behind a `DeltaGateSink`: its result, and how many deltas the sink has accepted. -/
def withGate {ω α : Type} (call : Call ω α) : Call ω (Except ProviderError α × Nat) := fun w =>
  (tally (attempt call w)).map fun
    | ((.ok result, w'), accepted) => (.ok (result, accepted.length), w')
    | ((.error failure, w'), _) => (.error failure, w')

namespace FailoverProvider

variable {ω : Type} (f : FailoverProvider ω)

/-- `FailoverProvider::new`. -/
def new (chain : List (ChatProvider ω)) (failureThreshold cooldown : Nat) (failoverOn4xx : Bool)
    (clock : ω → Nat) : FailoverProvider ω :=
  ⟨chain, max failureThreshold 1, cooldown, failoverOn4xx, clock⟩

/-- The providers whose circuits admit a call. -/
def admittedIndices (w : ω) (circuits : List Circuit) : List Nat :=
  (List.range f.chain.length).filter fun i => (circuits[i]?).all (Circuit.admits (f.clock w))

def recordSuccess (idx : Nat) : Call (ω × List Circuit) Unit := fun w =>
  .done (.ok (), (w.1, w.2.modify idx Circuit.onSuccess))

def recordFailure (idx : Nat) : Call (ω × List Circuit) Unit := fun w =>
  .done (.ok (), (w.1, w.2.modify idx (Circuit.onFailure f.failureThreshold f.cooldown (f.clock w.1))))

/-- No provider has been tried. -/
def unavailable : ProviderError := .other "all failover providers circuit-open or unavailable"

/-- The last error rules out the next provider. -/
def stops (lastError : Option ProviderError) : Bool :=
  lastError.any fun err => !failoverWorthy err f.failoverOn4xx

/-- The loop of `complete` over the admitted providers. -/
def completeLoop (req : CompletionRequest) :
    List Nat → Option ProviderError → Call (ω × List Circuit) String
  | [], lastError => raise (lastError.getD unavailable)
  | idx :: rest, lastError =>
    if f.stops lastError then raise (lastError.getD unavailable)
    else
      match f.chain[idx]? with
      | none => Op.fail .panicked
      | some provider => do
        let result ← onWorld (attempt (provider.complete req))
        match result with
        | .ok text => do
          recordSuccess idx
          pure text
        | .error err => do
          f.recordFailure idx
          completeLoop req rest (some err)

def complete (req : CompletionRequest) : Call (ω × List Circuit) String := fun w =>
  f.completeLoop req (f.admittedIndices w.1 w.2) none w

/-- The loop of `complete_stream` over the admitted providers. -/
def streamLoop (req : CompletionRequest) :
    List Nat → Option ProviderError → Call (ω × List Circuit) String
  | [], lastError => raise (lastError.getD unavailable)
  | idx :: rest, lastError =>
    if f.stops lastError then raise (lastError.getD unavailable)
    else
      match f.chain[idx]? with
      | none => Op.fail .panicked
      | some provider => do
        let (result, emitted) ← onWorld (withGate (provider.completeStream req))
        match result with
        | .ok text => do
          recordSuccess idx
          pure text
        | .error err => do
          f.recordFailure idx
          -- Partial output already delivered: the answer is committed.
          if 0 < emitted then raise err
          else streamLoop req rest (some err)

def completeStream (req : CompletionRequest) : Call (ω × List Circuit) String := fun w =>
  f.streamLoop req (f.admittedIndices w.1 w.2) none w

end FailoverProvider

/-! ## The gate -/

/-- `DeltaGateSink`: the sink that counts the deltas that its inner sink accepts. -/
def deltaGateSink {σ : Type} (listen : String → σ → Except ProviderError Unit × σ) (delta : String)
    (s : σ × Nat) : Except ProviderError Unit × (σ × Nat) :=
  match listen delta s.1 with
  | (.ok (), s') => (.ok (), (s', s.2 + 1))
  | (.error e, s') => (.error e, (s', s.2))

/-! ## A record of the attempts -/

/-- One attempt of a call: the provider, the deltas that the sink has accepted of it, its result. -/
structure Attempted where
  idx : Nat
  accepted : List String
  result : Except Failure String
  deriving DecidableEq

/-- The provider, each of its streamed calls recorded. -/
def ChatProvider.observed {ω : Type} (idx : Nat) (p : ChatProvider ω) :
    ChatProvider (ω × List Attempted) where
  complete req w := (p.complete req w.1).map fun r => (r.1, (r.2, w.2))
  completeStream req w := (tally (p.completeStream req w.1)).map fun r =>
    (r.1.1, (r.1.2, w.2 ++ [⟨idx, r.2, r.1.1⟩]))
  streams req w items text w' h := by
    obtain ⟨⟨⟨r, w₁⟩, accepted⟩, ht, he⟩ := emits_map.mp h
    cases he
    exact p.streams req w.1 items text w₁ (emits_tally.mp ht).2

/-- The chain, each streamed call of a provider recorded. -/
def FailoverProvider.observed {ω : Type} (f : FailoverProvider ω) :
    FailoverProvider (ω × List Attempted) where
  chain := f.chain.mapIdx ChatProvider.observed
  failureThreshold := f.failureThreshold
  cooldown := f.cooldown
  failoverOn4xx := f.failoverOn4xx
  clock w := f.clock w.1

section Erasure

variable {ω ω' α : Type} {forget : ω' → ω}

theorem Erases.attempt {call : Call ω' α} {call' : Call ω α} (h : Op.Erases forget call call') :
    Op.Erases forget (attempt call) (attempt call') := by
  intro w
  show ((call w).bind _).map _ = (call' (forget w)).bind _
  rw [← h w, map_bind, bind_map]
  congr 1
  funext ⟨r, w₁⟩
  rcases r with (e | _) | a <;> rfl

theorem Erases.withGate {call : Call ω' α} {call' : Call ω α} (h : Op.Erases forget call call') :
    Op.Erases forget (withGate call) (withGate call') := by
  intro w
  show ((tally (Xiaomaolv.attempt call w)).map _).map _
    = (tally (Xiaomaolv.attempt call' (forget w))).map _
  rw [← Erases.attempt h w, tally_map]
  unfold Emitter.map
  rw [Emitter.bind_assoc, Emitter.bind_assoc]
  congr 1
  funext ⟨⟨r, w₁⟩, accepted⟩
  cases r <;> rfl

theorem Erases.onWorld {call : Call ω' α} {call' : Call ω α} (h : Op.Erases forget call call') :
    Op.Erases (fun w : ω' × List Circuit => (forget w.1, w.2)) (onWorld call) (onWorld call') := by
  intro w
  show ((call w.1).map _).map _ = (call' (forget w.1)).map _
  rw [← h w.1]
  unfold Emitter.map
  rw [Emitter.bind_assoc, Emitter.bind_assoc]
  rfl

theorem erases_observed {ω : Type} (idx : Nat) (p : ChatProvider ω) (req : CompletionRequest) :
    Op.Erases (fun w : ω × List Attempted => w.1) ((p.observed idx).completeStream req)
      (p.completeStream req) := by
  intro w
  show ((tally (p.completeStream req w.1)).map _).map _ = p.completeStream req w.1
  conv_rhs => rw [← map_tally (p.completeStream req w.1)]
  unfold Emitter.map
  rw [Emitter.bind_assoc]
  rfl

end Erasure

section Observed

variable {ω : Type} (f : FailoverProvider ω) (req : CompletionRequest)

/-- Forget the record. -/
def forgetAttempts (w : (ω × List Attempted) × List Circuit) : ω × List Circuit := (w.1.1, w.2)

theorem erases_streamLoop (idxs : List Nat) (lastError : Option ProviderError) :
    Op.Erases forgetAttempts (f.observed.streamLoop req idxs lastError)
      (f.streamLoop req idxs lastError) := by
  induction idxs generalizing lastError with
  | nil => exact Op.Erases.fail _
  | cons idx rest ih =>
    rw [FailoverProvider.streamLoop, FailoverProvider.streamLoop]
    show Op.Erases forgetAttempts (if f.stops lastError then _ else _) (if f.stops lastError then _ else _)
    split_ifs with hstop
    · exact Op.Erases.fail _
    · have hget : f.observed.chain[idx]? = (f.chain[idx]?).map (ChatProvider.observed idx) :=
        List.getElem?_mapIdx
      rw [hget]
      cases f.chain[idx]? with
      | none => exact Op.Erases.fail _
      | some provider =>
        have hcall := Erases.onWorld (Erases.withGate (erases_observed idx provider req))
        refine hcall.bind fun ⟨result, emitted⟩ => ?_
        cases result with
        | ok text => exact Op.Erases.bind (fun _ => rfl) fun _ => Op.Erases.pure _
        | error err =>
          refine Op.Erases.bind (fun _ => rfl) fun _ => ?_
          split_ifs with hemitted
          · exact Op.Erases.fail _
          · exact ih _

theorem observed_admittedIndices (w : ω) (log : List Attempted) (circuits : List Circuit) :
    f.observed.admittedIndices (w, log) circuits = f.admittedIndices w circuits := by
  unfold FailoverProvider.admittedIndices
  show (List.range (f.chain.mapIdx ChatProvider.observed).length).filter _ = _
  rw [List.length_mapIdx]
  rfl

/-- **The record changes nothing.** -/
theorem observed_completeStream (w : ω) (log : List Attempted) (circuits : List Circuit) :
    (f.observed.completeStream req ((w, log), circuits)).map (fun r => (r.1, forgetAttempts r.2))
      = f.completeStream req (w, circuits) := by
  show (f.observed.streamLoop req (f.observed.admittedIndices (w, log) circuits) none _).map _ = _
  rw [observed_admittedIndices]
  exact erases_streamLoop f req _ none _

end Observed

/-! ## What the attempts of a call can be -/

/-- The attempts of a call over the admitted providers, the text that they hand over, and the result. -/
inductive Trail (worthy : ProviderError → Bool) :
    List Nat → Option ProviderError → List Attempted → List String → Except Failure String → Prop
  /-- No provider is left, or the last error rules out the next. -/
  | stopped {idxs : List Nat} {lastError : Option ProviderError} (e : ProviderError)
      (h : idxs = [] ∨ ∃ e', lastError = some e' ∧ worthy e' = false) :
      Trail worthy idxs lastError [] [] (.error (.error e))
  /-- A provider replies, or fails after deltas; a reply is what it has handed over. -/
  | final {idx : Nat} {rest : List Nat} {lastError : Option ProviderError} {items : List String}
      {r : Except Failure String} (hreply : ∀ text, r = .ok text → String.join items = text)
      (hfail : ∀ e, r = .error (.error e) → items ≠ []) :
      Trail worthy (idx :: rest) lastError [⟨idx, items, r⟩] items r
  /-- A provider fails before its first delta. -/
  | next {idx : Nat} {rest : List Nat} {lastError : Option ProviderError} {e : ProviderError}
      {tried : List Attempted} {items : List String} {r : Except Failure String}
      (h : Trail worthy rest (some e) tried items r) :
      Trail worthy (idx :: rest) lastError (⟨idx, [], .error (.error e)⟩ :: tried) items r

namespace Trail

variable {worthy : ProviderError → Bool} {idxs : List Nat} {lastError : Option ProviderError}
  {tried : List Attempted} {items : List String} {r : Except Failure String}

theorem reply (h : Trail worthy idxs lastError tried items r) {text : String} (hr : r = .ok text) :
    String.join items = text ∧ ∃ before a, tried = before ++ [a] ∧ a.accepted = items ∧
      a.result = .ok text ∧ ∀ b ∈ before, b.accepted = [] := by
  induction h with
  | stopped e h => cases hr
  | final hreply hfail => exact ⟨hreply text hr, [], _, rfl, rfl, hr, by simp⟩
  | next h ih =>
    obtain ⟨hjoin, before, a, rfl, haccepted, hresult, hbefore⟩ := ih hr
    refine ⟨hjoin, _ :: before, a, rfl, haccepted, hresult, fun b hb => ?_⟩
    rcases List.mem_cons.mp hb with rfl | hb
    · rfl
    · exact hbefore b hb

theorem idxs_follow (h : Trail worthy idxs lastError tried items r) : tried.map (·.idx) <+: idxs := by
  induction h with
  | stopped e h => exact List.nil_prefix
  | final hreply hfail => exact List.cons_prefix_cons.mpr ⟨rfl, List.nil_prefix⟩
  | next h ih => exact List.cons_prefix_cons.mpr ⟨rfl, ih⟩

theorem tried_pos (h : Trail worthy idxs lastError tried items r)
    (hworthy : ∀ e, lastError = some e → worthy e = true) (hidxs : idxs ≠ []) : 0 < tried.length := by
  cases h with
  | stopped e h =>
    rcases h with h | ⟨e', he, hne⟩
    · exact absurd h hidxs
    · rw [hworthy e' he] at hne
      cases hne
  | final hreply hfail => exact Nat.succ_pos _
  | next h => exact Nat.succ_pos _

/-- After a worthy failure the next admitted provider is tried exactly when nothing was accepted. -/
theorem tried_next (h : Trail worthy idxs lastError tried items r) {k : Nat} {a : Attempted}
    (ha : tried[k]? = some a) {e : ProviderError} (hresult : a.result = .error (.error e))
    (hworthy : worthy e = true) (hk : k + 1 < idxs.length) :
    k + 1 < tried.length ↔ a.accepted = [] := by
  induction h generalizing k with
  | stopped e h => cases ha
  | @final idx rest _ items r hreply hfail =>
    cases k with
    | zero =>
      cases ha
      have hne := hfail e hresult
      constructor
      · intro hlt
        exact absurd hlt (Nat.lt_irrefl 1)
      · intro hnil
        exact absurd hnil hne
    | succ k => cases ha
  | @next idx rest _ e' tried items r h ih =>
    cases k with
    | zero =>
      cases ha
      cases hresult
      have hpos := h.tried_pos (fun e'' he => by cases he; exact hworthy)
        (List.ne_nil_of_length_pos (Nat.lt_of_succ_lt_succ hk))
      show 0 + 1 < tried.length + 1 ↔ ([] : List String) = []
      exact ⟨fun _ => rfl, fun _ => by omega⟩
    | succ k =>
      have hiff := ih ha (Nat.lt_of_succ_lt_succ hk)
      simp only [List.length_cons]
      rw [← hiff]
      omega

end Trail

section Loop

variable {ω : Type} (f : FailoverProvider ω) {req : CompletionRequest} {w w' : ω}
  {log log' : List Attempted} {circuits circuits' : List Circuit} {items : List String}

/-- A recorded provider behind the gate: one attempt, with the deltas that the gate has counted. -/
theorem emits_observed {idx : Nat} {p : ChatProvider ω}
    {r : Except Failure (Except ProviderError String × Nat)}
    (h : Op.Emits (onWorld (withGate ((p.observed idx).completeStream req))) ((w, log), circuits) items r
      ((w', log'), circuits')) :
    circuits' = circuits ∧ ∃ result, log' = log ++ [⟨idx, items, result⟩] ∧
      (∀ text, result = .ok text → String.join items = text) ∧
      ((result = .error .panicked ∧ r = .error .panicked) ∨
        (∃ e, result = .error (.error e) ∧ r = .ok (.error e, items.length)) ∨
        ∃ text, result = .ok text ∧ r = .ok (.ok text, items.length)) := by
  obtain ⟨⟨r₁, w₁⟩, hgate, he⟩ := emits_map.mp h
  cases he
  obtain ⟨⟨⟨r₂, w₂⟩, accepted⟩, htally, he₂⟩ := emits_map.mp hgate
  obtain ⟨rfl, hattempt⟩ := emits_tally.mp htally
  obtain ⟨l, ⟨r₃, w₃⟩, l', hcall, hend, rfl⟩ := Emitter.emits_bind.mp hattempt
  have hstreams := (p.observed idx).streams req (w, log) l
  obtain ⟨⟨⟨r₄, w₄⟩, taken⟩, hprovider, he₄⟩ := emits_map.mp hcall
  cases he₄
  obtain ⟨rfl, -⟩ := emits_tally.mp hprovider
  refine ⟨rfl, r₄, ?_⟩
  rcases r₄ with (e | _) | text
  · obtain ⟨rfl, he⟩ := emits_done.mp hend
    cases he
    cases he₂
    rw [List.append_nil]
    exact ⟨rfl, nofun, .inr (.inl ⟨e, rfl, rfl⟩)⟩
  · obtain ⟨rfl, he⟩ := emits_done.mp hend
    cases he
    cases he₂
    rw [List.append_nil]
    exact ⟨rfl, nofun, .inl ⟨rfl, rfl⟩⟩
  · obtain ⟨rfl, he⟩ := emits_done.mp hend
    cases he
    cases he₂
    rw [List.append_nil]
    refine ⟨rfl, fun text' htext => ?_, .inr (.inr ⟨text, rfl, rfl⟩)⟩
    cases htext
    exact hstreams text _ hcall

/-- **The attempts of the loop are such a trail.** -/
theorem trail_streamLoop {idxs : List Nat} {lastError : Option ProviderError}
    {r : Except Failure String} (hidxs : ∀ i ∈ idxs, i < f.chain.length)
    (h : Op.Emits (f.observed.streamLoop req idxs lastError) ((w, log), circuits) items r
      ((w', log'), circuits')) :
    ∃ tried, log' = log ++ tried ∧
      Trail (fun e => failoverWorthy e f.failoverOn4xx) idxs lastError tried items r := by
  induction idxs generalizing lastError w log circuits items with
  | nil =>
    obtain ⟨rfl, rfl, he⟩ := Op.emits_fail.mp h
    cases he
    exact ⟨[], (List.append_nil _).symm, .stopped _ (.inl rfl)⟩
  | cons idx rest ih =>
    rw [FailoverProvider.streamLoop] at h
    have hget : f.observed.chain[idx]? = (f.chain[idx]?).map (ChatProvider.observed idx) :=
      List.getElem?_mapIdx
    rw [hget, List.getElem?_eq_getElem (hidxs idx List.mem_cons_self)] at h
    have hstops : f.observed.stops lastError = f.stops lastError := rfl
    rw [hstops] at h
    split_ifs at h with hstop
    · obtain ⟨rfl, rfl, he⟩ := Op.emits_fail.mp h
      cases he
      have hunworthy : ∃ e, lastError = some e ∧ failoverWorthy e f.failoverOn4xx = false := by
        cases lastError with
        | none => cases hstop
        | some e => exact ⟨e, rfl, by simpa [FailoverProvider.stops] using hstop⟩
      exact ⟨[], (List.append_nil _).symm, .stopped _ (.inr hunworthy)⟩
    · rcases Op.emits_bind.mp h with ⟨l, ⟨result, emitted⟩, ⟨⟨w₁, log₁⟩, circuits₁⟩, l', hcall, hrest, rfl⟩ |
        ⟨failure, hcall, rfl⟩
      · obtain ⟨rfl, result', rfl, hjoin, ⟨-, he⟩ | ⟨e, rfl, he⟩ | ⟨text, rfl, he⟩⟩ := emits_observed hcall
        · cases he
        · -- The provider has failed: the gate decides.
          cases he
          rcases Op.emits_bind.mp hrest with ⟨l₁, u, w₂, l₂, hrecord, hnext, rfl⟩ | ⟨failure, hrecord, rfl⟩
          · obtain ⟨rfl, hw⟩ := emits_done.mp hrecord
            cases hw
            split_ifs at hnext with hemitted
            · obtain ⟨rfl, rfl, hw⟩ := Op.emits_fail.mp hnext
              cases hw
              rw [List.append_nil, List.append_nil]
              refine ⟨_, rfl, .final nofun fun e' he' => ?_⟩
              exact List.ne_nil_of_length_pos hemitted
            · have hnil : l = [] := List.eq_nil_of_length_eq_zero (by omega)
              obtain ⟨tried, htried, htrail⟩ := ih
                (fun i hi => hidxs i (List.mem_cons_of_mem _ hi)) hnext
              rw [hnil, List.nil_append, List.nil_append]
              refine ⟨⟨idx, [], .error (.error e)⟩ :: tried, ?_, .next htrail⟩
              rw [htried, hnil, List.append_assoc]
              rfl
          · cases (emits_done.mp hrecord).2
        · cases he
          rcases Op.emits_bind.mp hrest with ⟨l₁, u, w₂, l₂, hrecord, hnext, rfl⟩ | ⟨failure, hrecord, rfl⟩
          · obtain ⟨rfl, hw⟩ := emits_done.mp hrecord
            cases hw
            obtain ⟨rfl, rfl, hw⟩ := Op.emits_pure.mp hnext
            cases hw
            rw [List.append_nil, List.append_nil]
            exact ⟨_, rfl, .final hjoin nofun⟩
          · cases (emits_done.mp hrecord).2
      · obtain ⟨rfl, result', rfl, hjoin, ⟨rfl, he⟩ | ⟨e, -, he⟩ | ⟨text, -, he⟩⟩ := emits_observed hcall
        · cases he
          exact ⟨_, rfl, .final nofun nofun⟩
        · cases he
        · cases he

end Loop

theorem admittedIndices_lt {ω : Type} (f : FailoverProvider ω) (w : ω) (circuits : List Circuit) :
    ∀ i ∈ f.admittedIndices w circuits, i < f.chain.length :=
  fun _ hi => List.mem_range.mp (List.mem_of_mem_filter hi)

theorem trail_of_emits {ω : Type} (f : FailoverProvider ω) {req : CompletionRequest} {w w' : ω}
    {circuits circuits' : List Circuit} {log log' : List Attempted} {items : List String}
    {r : Except Failure String}
    (h : Op.Emits (f.observed.completeStream req) ((w, log), circuits) items r ((w', log'), circuits')) :
    ∃ tried, log' = log ++ tried ∧ Trail (fun e => failoverWorthy e f.failoverOn4xx)
      (f.admittedIndices w circuits) none tried items r := by
  change Op.Emits (f.observed.streamLoop req (f.observed.admittedIndices (w, log) circuits) none)
    ((w, log), circuits) items r ((w', log'), circuits') at h
  rw [observed_admittedIndices] at h
  exact trail_streamLoop f (admittedIndices_lt f w circuits) h

/-- The chain is a provider itself. -/
def FailoverProvider.chat {ω : Type} (f : FailoverProvider ω) : ChatProvider (ω × List Circuit) where
  complete := f.complete
  completeStream := f.completeStream
  streams req w items text w' h := by
    obtain ⟨w, circuits⟩ := w
    have hmap : Emitter.Emits (f.completeStream req (w, circuits)) items (.ok text, w') := h
    rw [← observed_completeStream f req w [] circuits] at hmap
    obtain ⟨⟨r, ⟨w₁, log⟩, circuits₁⟩, hemits, he⟩ := emits_map.mp hmap
    obtain ⟨tried, -, htrail⟩ := trail_of_emits f hemits
    exact (htrail.reply (Prod.mk.inj he).1.symm).1

/-- The attempts that a streamed call makes, with a listener of its sink. -/
def FailoverProvider.attempts {ω σ : Type} (f : FailoverProvider ω) (req : CompletionRequest) (w : ω)
    (circuits : List Circuit) (listen : String → σ → Except ProviderError Unit × σ) (s : σ) :
    List Attempted :=
  (run listen (f.observed.completeStream req ((w, []), circuits)) s).value.2.1.2

theorem trail_completeStream {ω σ : Type} (f : FailoverProvider ω) (req : CompletionRequest) (w : ω)
    (circuits : List Circuit) (listen : String → σ → Except ProviderError Unit × σ) (s : σ) :
    Trail (fun e => failoverWorthy e f.failoverOn4xx) (f.admittedIndices w circuits) none
      (f.attempts req w circuits listen s)
      (run listen (f.completeStream req (w, circuits)) s).accepted
      (run listen (f.completeStream req (w, circuits)) s).value.1 := by
  rw [← observed_completeStream f req w [] circuits, run_map]
  have hemits : Emitter.Emits (f.observed.completeStream req ((w, []), circuits))
      (run listen (f.observed.completeStream req ((w, []), circuits)) s).accepted
      (run listen (f.observed.completeStream req ((w, []), circuits)) s).value := emits_run _ s
  unfold FailoverProvider.attempts
  generalize run listen (f.observed.completeStream req ((w, []), circuits)) s = out at hemits
  obtain ⟨⟨r, ⟨w', log'⟩, circuits'⟩, items, s'⟩ := out
  obtain ⟨tried, htried, htrail⟩ := trail_of_emits f hemits
  rw [List.nil_append] at htried
  show Trail _ _ none log' items r
  rw [htried]
  exact htrail

/-- **Streaming failover is transparent**: a reply is the text that the sink has accepted, all of it from
the last provider tried; providers are tried in the order of the admitted ones; and after a failure that
is worth it the next admitted one is tried exactly when no delta, empty or not, has been accepted. -/
theorem failover_transparent {ω σ : Type} (f : FailoverProvider ω) (req : CompletionRequest) (w : ω)
    (circuits : List Circuit) (listen : String → σ → Except ProviderError Unit × σ) (s : σ) :
    (∀ text, (run listen (f.completeStream req (w, circuits)) s).value.1 = .ok text →
      String.join (run listen (f.completeStream req (w, circuits)) s).accepted = text ∧
      ∃ before a, f.attempts req w circuits listen s = before ++ [a] ∧
        a.accepted = (run listen (f.completeStream req (w, circuits)) s).accepted ∧
        a.result = .ok text ∧ ∀ b ∈ before, b.accepted = []) ∧
    (f.attempts req w circuits listen s).map (·.idx) <+: f.admittedIndices w circuits ∧
    ∀ k a e, (f.attempts req w circuits listen s)[k]? = some a → a.result = .error (.error e) →
      failoverWorthy e f.failoverOn4xx = true → k + 1 < (f.admittedIndices w circuits).length →
      (k + 1 < (f.attempts req w circuits listen s).length ↔ a.accepted = []) := by
  have htrail := trail_completeStream f req w circuits listen s
  exact ⟨fun text htext => htrail.reply htext, htrail.idxs_follow,
    fun k a e ha hresult hworthy hk => htrail.tried_next ha hresult hworthy hk⟩

namespace Sample

/-- A primary that breaks off after an empty delta, and a backup that replies. -/
def emptyDeltaWeb : Web Unit where
  send req _ :=
    if req.url = "primary/chat/completions" then
      (.response 200 ⟨[Utf8.encode "data: \x7b\"choices\":[\x7b\"delta\":\x7b\"content\":\"\"\x7d\x7d]\x7d\n".toList], true⟩, ())
    else
      (.response 200 ⟨[Utf8.encode "data: \x7b\"choices\":[\x7b\"delta\":\x7b\"content\":\"b\"\x7d\x7d]\x7d\n".toList], false⟩, ())

/-- `serde_json` on their events. -/
def emptyDeltaCodec : Codec where
  parseEvent payload :=
    if payload = "\x7b\"choices\":[\x7b\"delta\":\x7b\"content\":\"\"\x7d\x7d]\x7d" then some (contentEvent "")
    else if payload = "\x7b\"choices\":[\x7b\"delta\":\x7b\"content\":\"b\"\x7d\x7d]\x7d" then some (contentEvent "b")
    else none
  parseResponse _ := none
  bodyText _ := ""

/-- The two providers behind closed circuits. -/
def emptyDeltaChain : FailoverProvider Unit :=
  .new ([⟨"primary", "", "m", 30, 0⟩, ⟨"backup", "", "m", 30, 0⟩].map
    (OpenAiCompatibleProvider.chat emptyDeltaWeb emptyDeltaCodec)) 3 30 false fun _ => 0

/-- A user's message. -/
def hello : CompletionRequest where
  messages := [⟨.user, "hello"⟩]

end Sample

/-- An empty delta is an accepted one: the backup is not tried, though no text has been accepted. -/
theorem failover_transparent_empty_delta :
    ¬ ∀ k a e, (Sample.emptyDeltaChain.attempts Sample.hello () [{}, {}] takeAll ())[k]? = some a →
      a.result = .error (.error e) → failoverWorthy e Sample.emptyDeltaChain.failoverOn4xx = true →
      k + 1 < (Sample.emptyDeltaChain.admittedIndices () [{}, {}]).length →
      (k + 1 < (Sample.emptyDeltaChain.attempts Sample.hello () [{}, {}] takeAll ()).length ↔
        String.join a.accepted = "") := by
  intro h
  have hattempts : Sample.emptyDeltaChain.attempts Sample.hello () [{}, {}] takeAll ()
      = [⟨0, [""], .error (.error (.other "failed to read provider stream chunk"))⟩] := by
    decide +kernel
  rw [hattempts] at h
  have hiff := h 0 _ _ rfl rfl (by decide) (by decide)
  exact absurd (hiff.mpr (by decide)) (by decide)

end Xiaomaolv
