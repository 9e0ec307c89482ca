import Mathlib.Logic.Function.Basic
import Xiaomaolv.Http.EnvFile
import Xiaomaolv.Lib.Machine

/-!
# Saves of the configuration, side by side

A save reads the env file, writes it anew, builds a runtime from the saved values and puts it and its workers in the
place of the ones that run. Only the last of these steps is taken under a lock.

* `SavePhase`, `SaveEvent`, `advance`: how far a save is, what happens next, and what that does.
* `SaveWorld`, `SaveWorld.exec`: the server and its saves, and one event; `SaveMoves`: all that an event can do.
* `SavesSound`: what the saves are to keep; `Careful`: when an event does no harm.
* `SaveInv`, `SaveInv.step`: the invariant, and that a careful event keeps it.
* **`saves_sound`**: in every run of careful events no update is lost, a save that fails changes nothing, and
  the runtime and the key are those of the env file whenever no save is under way.
* `careful_serial`: saves one after the other are careful.
* `lost_update`: two saves that lose an update.
-/

namespace Xiaomaolv

/-! ## A save -/

/-- The values that a runtime is built from. -/
def envOverrides (known : EnvValues) : EnvValues := known.filter fun _ value => !value.isEmpty

/-- What a save takes from elsewhere: the environment of the process, and what is built from the configuration
file with some overrides. -/
structure ConfigHost (Runtime : Type) where
  environ : String → Option String
  buildRuntimeHandles : EnvValues → Runtime
  apiKey : EnvValues → Option String

/-- What the saves share. -/
structure ConfigServer (Runtime : Type) where
  envFile : Option String
  runtime : Runtime
  apiKey : Option String
  /-- The runtime that the running workers were started for. -/
  workers : Option Runtime
  deriving DecidableEq

/-- How far a save is. -/
inductive SavePhase (Runtime : Type) where
  | idle
  | reading
  /-- The request was accepted with these values. -/
  | writing (known extras : EnvValues)
  | building (known : EnvValues)
  /-- The new runtime is built, and the one that was installed then was read. -/
  | swapping (known : EnvValues) (previous : Runtime)
  | refreshing
  | saved
  | failed

inductive WriteOutcome where
  | noDirectory
  /-- The write failed and left this. -/
  | failed (left : Option String)
  | written

/-- What comes of the swap of the workers. -/
inductive SwapOutcome where
  | started
  | rolledBack
  | lost

/-- What happens next in a save; the outcome of what is not up to the save is part of it. -/
inductive SaveEvent where
  | start
  | read (readable : Bool)
  | write (outcome : WriteOutcome)
  | build (built : Bool)
  | swap (outcome : SwapOutcome)
  | refresh (refreshed : Bool)

section Saves

variable {Runtime : Type}

def verifyApiKey (expectedKey provided : Option String) : Bool :=
  match expectedKey with
  | none => true
  | some expectedKey => provided = some expectedKey

/-- One step of `post_config_ui_save` and `reload_runtime_from_config`. The supervisor is locked from the stop of its
workers to the end of the swap, which is one step. -/
def advance (host : ConfigHost Runtime) (request : ConfigUiSaveRequest) (token : Option String)
    (server : ConfigServer Runtime) : SavePhase Runtime → SaveEvent → ConfigServer Runtime × SavePhase Runtime
  | .idle, .start => (server, if verifyApiKey server.apiKey token then .reading else .failed)
  | .reading, .read false => (server, .failed)
  | .reading, .read true =>
    match acceptSave host.environ (readEnvFileValues server.envFile) request with
    | .ok (known, extras) => (server, .writing known extras)
    | .error _ => (server, .failed)
  | .writing _ _, .write .noDirectory => (server, .failed)
  | .writing _ _, .write (.failed left) => ({ server with envFile := left }, .failed)
  | .writing known extras, .write .written =>
    ({ server with envFile := some (renderEnvFile known extras) }, .building known)
  | .building known, .build built => (server, if built then .swapping known server.runtime else .failed)
  | .swapping known _, .swap .started =>
    let runtime := host.buildRuntimeHandles (envOverrides known)
    ({ server with runtime, apiKey := host.apiKey (envOverrides known), workers := some runtime }, .refreshing)
  | .swapping _ previous, .swap .rolledBack => ({ server with workers := some previous }, .failed)
  | .swapping _ _, .swap .lost => ({ server with workers := none }, .failed)
  | .refreshing, .refresh refreshed => (server, if refreshed then .saved else .failed)
  | phase, _ => (server, phase)

/-- Whether an event writes the env file. -/
def writes : SavePhase Runtime → SaveEvent → Bool
  | .writing _ _, .write .written => true
  | _, _ => false

/-- The server, and its saves by their numbers. -/
structure SaveWorld (Runtime : Type) where
  server : ConfigServer Runtime
  phase : Nat → SavePhase Runtime
  /-- The saves that have written the file, in their order. -/
  written : List Nat
  /-- Whether a save has changed anything. -/
  touched : Nat → Bool

variable (host : ConfigHost Runtime) (requests : Nat → ConfigUiSaveRequest)
  (tokens : Nat → Option String)

/-- An event of the save with the number. -/
def SaveWorld.exec [DecidableEq Runtime] (w : SaveWorld Runtime) (e : Nat × SaveEvent) : SaveWorld Runtime :=
  let next := advance host (requests e.1) (tokens e.1) w.server (w.phase e.1) e.2
  { server := next.1
    phase := Function.update w.phase e.1 next.2
    written := if writes (w.phase e.1) e.2 then w.written ++ [e.1] else w.written
    touched := Function.update w.touched e.1 (w.touched e.1 || next.1 ≠ w.server) }

/-! ## What saves are to keep -/

def SavePhase.inFlight : SavePhase Runtime → Bool
  | idle => false
  | saved => false
  | failed => false
  | _ => true

/-- The fields of the page that a request saves, with their values. -/
def ConfigUiSaveRequest.saves (req : ConfigUiSaveRequest) (key value : String) : Prop :=
  isKnown key = true ∧ ∃ raw, (key, raw) ∈ req.values ∧ value = normalizedValue key raw

/-- The values that the env file now gives for a runtime. -/
def fileOverrides (file : Option String) : EnvValues := envOverrides (knownValues (readEnvFileValues file))

/-- The runtime and the key are built from the values in the env file. -/
def ConfigServer.Current (server : ConfigServer Runtime) : Prop :=
  server.runtime = host.buildRuntimeHandles (fileOverrides server.envFile) ∧
    server.apiKey = host.apiKey (fileOverrides server.envFile)

structure SavesSound (w : SaveWorld Runtime) : Prop where
  /-- The values of a save that succeeded are in the file, until a later save changes their keys. -/
  kept : ∀ before i after, w.written = before ++ i :: after → w.phase i = .saved →
    ∀ key value, (requests i).saves key value → (readEnvFileValues w.server.envFile)[key]? = some value ∨
      ∃ j ∈ after, ∃ value', (requests j).saves key value'
  /-- A save that succeeded has written the file. -/
  wrote : ∀ i, w.phase i = .saved → i ∈ w.written
  /-- A save that failed has changed nothing. -/
  atomic : ∀ i, w.phase i = .failed → w.touched i = false
  settled : (∀ i, (w.phase i).inFlight = false) → w.server.Current host

/-! ## Careful events -/

/-- The save has written the file and has not failed. -/
def SavePhase.past : SavePhase Runtime → Bool
  | building _ => true
  | swapping _ _ => true
  | refreshing => true
  | saved => true
  | _ => false

/-- The values of a save that has written the file and not yet installed its runtime. -/
def SavePhase.pending : SavePhase Runtime → Option EnvValues
  | building known => some (envOverrides known)
  | swapping known _ => some (envOverrides known)
  | _ => none

/-- Another save will install the runtime of the file. -/
def SaveWorld.Awaited (w : SaveWorld Runtime) (i : Nat) : Prop :=
  ∃ j, j ≠ i ∧ (w.phase j).pending = some (fileOverrides w.server.envFile)

/-- The save can end without a change. -/
def SaveWorld.Harmless (w : SaveWorld Runtime) (i : Nat) : Prop :=
  w.touched i = false ∧ (w.server.Current host ∨ w.Awaited i)

/-- The fields of a request have no line break. -/
def ConfigUiSaveRequest.SingleLine (req : ConfigUiSaveRequest) : Prop :=
  ∀ entry ∈ req.values, isKnown entry.1 = true → entry.1 ≠ "XIAOMAOLV_LOCALE" → '\n' ∉ (trim entry.2).toList

/-- When an event does no harm. -/
def Careful (w : SaveWorld Runtime) (e : Nat × SaveEvent) : Prop :=
  match w.phase e.1, e.2 with
  | .writing known _, .write .written =>
    -- The file says what is saved, and no value of an earlier save is overwritten with an older one.
    (requests e.1).SingleLine ∧ ∀ j ∈ w.written, (w.phase j).past = true → ∀ key value,
      (requests j).saves key value → (∀ value', ¬ (requests e.1).saves key value') →
        (known[key]?).getD "" = ((readEnvFileValues w.server.envFile)[key]?).getD ""
  | .writing _ _, .write (.failed left) => left = w.server.envFile
  | .building _, .build false => w.Harmless host e.1
  | .swapping known _, .swap .started => envOverrides known = fileOverrides w.server.envFile ∨ w.Awaited e.1
  | .swapping _ previous, .swap .rolledBack => w.Harmless host e.1 ∧ w.server.workers = some previous
  | .swapping _ _, .swap .lost => w.Harmless host e.1 ∧ w.server.workers = none
  | .refreshing, .refresh false => w.touched e.1 = false
  | _, _ => True

/-! ## What an event can do -/

/-- The save has not come to the file. -/
def SavePhase.unwritten : SavePhase Runtime → Bool
  | idle => true
  | reading => true
  | writing _ _ => true
  | _ => false

/-- What an event does to a save and to the server. -/
inductive SaveMoves (host : ConfigHost Runtime) (request : ConfigUiSaveRequest) (server : ConfigServer Runtime) :
    SavePhase Runtime → SaveEvent → ConfigServer Runtime → SavePhase Runtime → Prop
  | stays (phase : SavePhase Runtime) (event : SaveEvent) : SaveMoves host request server phase event server phase
  | givesUp (phase : SavePhase Runtime) (event : SaveEvent) (h : phase.unwritten = true) :
    SaveMoves host request server phase event server .failed
  | starts : SaveMoves host request server .idle .start server .reading
  | accepts (known extras : EnvValues)
    (h : acceptSave host.environ (readEnvFileValues server.envFile) request = .ok (known, extras)) :
    SaveMoves host request server .reading (.read true) server (.writing known extras)
  | leaves (known extras : EnvValues) (left : Option String) :
    SaveMoves host request server (.writing known extras) (.write (.failed left)) { server with envFile := left } .failed
  | writes (known extras : EnvValues) :
    SaveMoves host request server (.writing known extras) (.write .written)
      { server with envFile := some (renderEnvFile known extras) } (.building known)
  | builds (known : EnvValues) :
    SaveMoves host request server (.building known) (.build true) server (.swapping known server.runtime)
  | rejects (known : EnvValues) : SaveMoves host request server (.building known) (.build false) server .failed
  | installs (known : EnvValues) (previous : Runtime) :
    SaveMoves host request server (.swapping known previous) (.swap .started)
      { server with
        runtime := host.buildRuntimeHandles (envOverrides known)
        apiKey := host.apiKey (envOverrides known)
        workers := some (host.buildRuntimeHandles (envOverrides known)) } .refreshing
  | rollsBack (known : EnvValues) (previous : Runtime) :
    SaveMoves host request server (.swapping known previous) (.swap .rolledBack)
      { server with workers := some previous } .failed
  | loses (known : EnvValues) (previous : Runtime) :
    SaveMoves host request server (.swapping known previous) (.swap .lost) { server with workers := none } .failed
  | answers : SaveMoves host request server .refreshing (.refresh true) server .saved
  | breaks : SaveMoves host request server .refreshing (.refresh false) server .failed

/-- **All that an event can do.** -/
theorem advance_moves (host : ConfigHost Runtime) (request : ConfigUiSaveRequest) (token : Option String)
    (server : ConfigServer Runtime) (phase : SavePhase Runtime) (event : SaveEvent) :
    SaveMoves host request server phase event (advance host request token server phase event).1
      (advance host request token server phase event).2 := by
  unfold advance
  split
  · split_ifs
    · exact .starts
    · exact .givesUp _ _ rfl
  · exact .givesUp _ _ rfl
  · split
    · exact .accepts _ _ (by assumption)
    · exact .givesUp _ _ rfl
  · exact .givesUp _ _ rfl
  · exact .leaves _ _ _
  · exact .writes _ _
  · rename_i known built
    cases built with
    | true => exact .builds known
    | false => exact .rejects known
  · exact .installs _ _
  · exact .rollsBack _ _
  · exact .loses _ _
  · rename_i refreshed
    cases refreshed with
    | true => exact .answers
    | false => exact .breaks
  · exact .stays _ _

/-! ## The file after a save -/

theorem getElem?_envOverrides (known : EnvValues) (key : String) :
    (envOverrides known)[key]? = (known[key]?).filter fun value => !value.isEmpty := by
  rw [envOverrides, Std.ExtTreeMap.getElem?_filter']

theorem fileOverrides_written {values : EnvValues} (h : Writable values) :
    fileOverrides (some (renderEnvFile (knownValues values) (extraValues values)))
      = envOverrides (knownValues values) := by
  refine Std.ExtTreeMap.ext_getElem? fun key => ?_
  rw [fileOverrides, readEnvFileValues, getElem?_envOverrides, getElem?_envOverrides, getElem?_knownValues,
    getElem?_knownValues, getElem?_written h]
  by_cases hkey : isKnown key = true
  · rw [if_pos hkey, if_pos hkey, if_pos hkey]
    cases values[key]? with
    | none => rfl
    | some value => rfl
  · rw [if_neg hkey, if_neg hkey]

theorem getElem?_of_saves {req : ConfigUiSaveRequest} {key value : String} (h : req.saves key value)
    (fileValues : EnvValues) : (insertAll fileValues req.accepted)[key]? = some value := by
  obtain ⟨hkey, raw, hraw, rfl⟩ := h
  exact getElem?_saved fileValues hraw hkey

/-! ## The invariant -/

variable {host requests tokens} {w : SaveWorld Runtime}

variable (host requests) in
/-- What careful events keep. -/
structure SaveInv (w : SaveWorld Runtime) : Prop where
  /-- The values of an accepted request come from a file. -/
  accepted : ∀ i known extras, w.phase i = .writing known extras → ∃ fileValues, Writable fileValues ∧
    known = knownValues (insertAll fileValues (requests i).accepted) ∧
    extras = extraValues (insertAll fileValues (requests i).accepted)
  /-- What was written is in the file, or was written over. -/
  kept : ∀ before i after, w.written = before ++ i :: after → (w.phase i).past = true → ∀ key value,
    (requests i).saves key value → (readEnvFileValues w.server.envFile)[key]? = some value ∨
      ∃ j ∈ after, ∃ value', (requests j).saves key value'
  wrote : ∀ i, (w.phase i).past = true → i ∈ w.written
  untouched : ∀ i, (w.phase i).past = false → w.touched i = false
  /-- The runtime of the file is installed, or a save is about to install it. -/
  covered : w.server.Current host ∨ ∃ j, (w.phase j).pending = some (fileOverrides w.server.envFile)

theorem SaveInv.sound (h : SaveInv host requests w) : SavesSound host requests w := by
  refine ⟨fun before i after hsplit hi => h.kept before i after hsplit (by rw [hi]; rfl),
    fun i hi => h.wrote i (by rw [hi]; rfl), fun i hi => h.untouched i (by rw [hi]; rfl), fun hidle => ?_⟩
  rcases h.covered with hcurrent | ⟨j, hj⟩
  · exact hcurrent
  · have hflight := hidle j
    cases hphase : w.phase j <;> rw [hphase] at hj hflight <;>
      simp [SavePhase.pending, SavePhase.inFlight] at hj hflight

/-- A save comes to a phase. -/
def SaveWorld.move (w : SaveWorld Runtime) (i : Nat) (phase : SavePhase Runtime) : SaveWorld Runtime :=
  { w with phase := Function.update w.phase i phase }

theorem SaveWorld.move_self (w : SaveWorld Runtime) (i : Nat) (phase : SavePhase Runtime) :
    (w.move i phase).phase i = phase := Function.update_self _ _ _

theorem SaveWorld.move_of_ne (w : SaveWorld Runtime) {i j : Nat} (hji : j ≠ i) (phase : SavePhase Runtime) :
    (w.move i phase).phase j = w.phase j := Function.update_of_ne hji _ _

/-- An event that changes the phase of its save only. -/
theorem SaveInv.quiet (h : SaveInv host requests w) (i : Nat) (phase : SavePhase Runtime)
    (haccepted : ∀ known extras, phase = .writing known extras → ∃ fileValues, Writable fileValues ∧
      known = knownValues (insertAll fileValues (requests i).accepted) ∧
      extras = extraValues (insertAll fileValues (requests i).accepted))
    (hpast : phase.past = true → (w.phase i).past = true) (huntouched : phase.past = false → w.touched i = false)
    (hcovered : (w.phase i).pending = some (fileOverrides w.server.envFile) →
      phase.pending = some (fileOverrides w.server.envFile) ∨ w.server.Current host ∨ w.Awaited i) :
    SaveInv host requests (w.move i phase) := by
  refine ⟨fun j known extras hj => ?_, fun before j after hsplit hj => h.kept before j after hsplit ?_,
    fun j hj => ?_, fun j hj => ?_, ?_⟩
  · by_cases hji : j = i
    · subst hji
      rw [w.move_self] at hj
      exact haccepted known extras hj
    · rw [w.move_of_ne hji] at hj
      exact h.accepted j known extras hj
  · by_cases hji : j = i
    · subst hji
      rw [w.move_self] at hj
      exact hpast hj
    · rwa [w.move_of_ne hji] at hj
  · by_cases hji : j = i
    · subst hji
      rw [w.move_self] at hj
      exact h.wrote j (hpast hj)
    · rw [w.move_of_ne hji] at hj
      exact h.wrote j hj
  · by_cases hji : j = i
    · subst hji
      rw [w.move_self] at hj
      exact huntouched hj
    · rw [w.move_of_ne hji] at hj
      exact h.untouched j hj
  · have hother : w.Awaited i →
        ∃ j, ((w.move i phase).phase j).pending = some (fileOverrides w.server.envFile) := by
      rintro ⟨j, hji, hj⟩
      exact ⟨j, by rwa [w.move_of_ne hji]⟩
    rcases h.covered with hcurrent | ⟨j, hj⟩
    · exact .inl hcurrent
    · by_cases hji : j = i
      · subst hji
        rcases hcovered hj with hphase | hcurrent | hawaited
        · exact .inr ⟨j, by rwa [w.move_self]⟩
        · exact .inl hcurrent
        · exact .inr (hother hawaited)
      · exact .inr (hother ⟨j, hji, hj⟩)

/-- Whether an event installs a runtime. -/
def installs : SavePhase Runtime → SaveEvent → Bool
  | .swapping _ _, .swap .started => true
  | _, _ => false

theorem Careful.server_eq {i : Nat} {event : SaveEvent} {server : ConfigServer Runtime} {phase : SavePhase Runtime}
    (hc : Careful host requests w (i, event))
    (hmoves : SaveMoves host (requests i) w.server (w.phase i) event server phase)
    (hwrites : writes (w.phase i) event = false) (hinstalls : installs (w.phase i) event = false) :
    server = w.server := by
  unfold Careful at hc
  dsimp only at hc
  cases hp : w.phase i <;> rw [hp] at hc hmoves hwrites hinstalls <;> cases hmoves <;> try rfl
  · rw [hc]
  · cases hwrites
  · cases hinstalls
  · rw [← hc.2]
  · rw [← hc.2]

/-- **An event that only moves its save** keeps the invariant, if it is careful. -/
theorem SaveInv.moved (h : SaveInv host requests w) {i : Nat} {event : SaveEvent} {server : ConfigServer Runtime}
    {phase : SavePhase Runtime} (hc : Careful host requests w (i, event))
    (hmoves : SaveMoves host (requests i) w.server (w.phase i) event server phase)
    (hwrites : writes (w.phase i) event = false) (hinstalls : installs (w.phase i) event = false) :
    SaveInv host requests (w.move i phase) := by
  have hfails : (w.phase i).unwritten = true → SaveInv host requests (w.move i .failed) := by
    intro hunwritten
    cases hp : w.phase i <;> rw [hp] at hunwritten <;> try cases hunwritten
    all_goals
      refine h.quiet i .failed (fun _ _ hf => by cases hf) (fun hf => by cases hf)
        (fun _ => h.untouched i (by rw [hp]; rfl)) fun hpending => ?_
      rw [hp] at hpending
      cases hpending
  unfold Careful at hc
  generalize hp : w.phase i = phase₀ at hmoves hwrites hinstalls
  rw [hp] at hfails
  dsimp only at hc
  rw [hp] at hc
  cases hmoves with
  | stays =>
    exact h.quiet i _ (fun known extras hw => h.accepted i known extras (hp.trans hw)) (fun hpast => by rwa [hp])
      (fun hpast => h.untouched i (by rwa [hp])) fun hpending => .inl (by rwa [hp] at hpending)
  | givesUp _ _ hunwritten => exact hfails hunwritten
  | starts =>
    exact h.quiet i _ (fun _ _ hw => by cases hw) (fun hpast => by cases hpast)
      (fun _ => h.untouched i (by rw [hp]; rfl)) fun hpending => by rw [hp] at hpending; cases hpending
  | accepts known extras haccept =>
    refine h.quiet i _ (fun known' extras' hw => ?_) (fun hpast => by cases hpast)
      (fun _ => h.untouched i (by rw [hp]; rfl)) fun hpending => by rw [hp] at hpending; cases hpending
    cases hw
    exact ⟨_, writable_readEnvFileValues w.server.envFile, acceptSave_eq_ok haccept⟩
  | leaves => exact hfails rfl
  | writes => cases hwrites
  | builds known =>
    exact h.quiet i _ (fun _ _ hw => by cases hw) (fun _ => by rw [hp]; rfl) (fun hpast => by cases hpast)
      fun hpending => .inl (by rwa [hp] at hpending)
  | rejects =>
    exact h.quiet i _ (fun _ _ hw => by cases hw) (fun hpast => by cases hpast) (fun _ => hc.1) fun _ => .inr hc.2
  | installs => cases hinstalls
  | rollsBack =>
    exact h.quiet i _ (fun _ _ hw => by cases hw) (fun hpast => by cases hpast) (fun _ => hc.1.1)
      fun _ => .inr hc.1.2
  | loses =>
    exact h.quiet i _ (fun _ _ hw => by cases hw) (fun hpast => by cases hpast) (fun _ => hc.1.1)
      fun _ => .inr hc.1.2
  | answers =>
    exact h.quiet i _ (fun _ _ hw => by cases hw) (fun _ => by rw [hp]; rfl) (fun hpast => by cases hpast)
      fun hpending => by rw [hp] at hpending; cases hpending
  | breaks =>
    exact h.quiet i _ (fun _ _ hw => by cases hw) (fun hpast => by cases hpast) (fun _ => hc)
      fun hpending => by rw [hp] at hpending; cases hpending

/-- A careful write. -/
theorem SaveInv.write [DecidableEq Runtime] (h : SaveInv host requests w) {i : Nat} {known extras : EnvValues}
    (hphase : w.phase i = .writing known extras) (hc : Careful host requests w (i, .write .written)) :
    SaveInv host requests (w.exec host requests tokens (i, .write .written)) := by
  unfold Careful at hc
  unfold SaveWorld.exec
  dsimp only at hc ⊢
  rw [hphase] at hc ⊢
  simp only [advance, writes, if_true]
  obtain ⟨hlines, hagree⟩ := hc
  obtain ⟨fileValues, hfile, rfl, rfl⟩ := h.accepted i known extras hphase
  have hvalues := writable_accepted hfile hlines
  generalize hall : insertAll fileValues (requests i).accepted = values at hvalues hagree ⊢
  have hread : ∀ key, isKnown key = true →
      (readEnvFileValues (some (renderEnvFile (knownValues values) (extraValues values))))[key]?
        = some ((values[key]?).getD "") := fun key hkey => by
    rw [readEnvFileValues, getElem?_written hvalues, if_pos hkey]
  refine ⟨fun j known extras hj => ?_, fun before j after hsplit hj key value hsaves => ?_, fun j hj => ?_,
    fun j hj => ?_, .inr ⟨i, ?_⟩⟩
  · dsimp only at hj
    by_cases hji : j = i
    · rw [hji, Function.update_self] at hj
      cases hj
    · rw [Function.update_of_ne hji] at hj
      exact h.accepted j known extras hj
  · rcases List.eq_nil_or_concat after with rfl | ⟨after, last, rfl⟩
    · obtain ⟨-, hlast⟩ := List.append_inj' hsplit rfl
      obtain rfl : i = j := (List.cons.inj hlast).1
      rw [hread key hsaves.1, ← hall, getElem?_of_saves hsaves]
      exact .inl rfl
    · rw [List.concat_eq_append, ← List.cons_append, ← List.append_assoc] at hsplit
      obtain ⟨hbefore, hlast⟩ := List.append_inj' hsplit rfl
      obtain rfl : i = last := (List.cons.inj hlast).1
      by_cases hagain : ∃ value', (requests i).saves key value'
      · exact .inr ⟨i, by simp, hagain⟩
      · have hji : j ≠ i := by
          rintro rfl
          exact hagain ⟨value, hsaves⟩
        have hpast : (w.phase j).past = true := by
          dsimp only at hj
          rwa [Function.update_of_ne hji] at hj
        rcases h.kept before j after hbefore hpast key value hsaves with hkept | ⟨k, hk, hk'⟩
        · have hmem : j ∈ w.written := hbefore ▸ List.mem_append_right _ List.mem_cons_self
          have hsame := hagree j hmem hpast key value hsaves (not_exists.mp hagain)
          rw [hkept, getElem?_knownValues, if_pos hsaves.1] at hsame
          rw [hread key hsaves.1, hsame]
          exact .inl rfl
        · exact .inr ⟨k, by simp [hk], hk'⟩
  · dsimp only at hj
    by_cases hji : j = i
    · exact List.mem_append_right _ (List.mem_singleton.mpr hji)
    · rw [Function.update_of_ne hji] at hj
      exact List.mem_append_left _ (h.wrote j hj)
  · dsimp only at hj
    by_cases hji : j = i
    · rw [hji, Function.update_self] at hj
      cases hj
    · rw [Function.update_of_ne hji] at hj
      change Function.update w.touched i _ j = false
      rw [Function.update_of_ne hji]
      exact h.untouched j hj
  · dsimp only
    rw [Function.update_self, fileOverrides_written hvalues]
    rfl

/-- A careful installation. -/
theorem SaveInv.install [DecidableEq Runtime] (h : SaveInv host requests w) {i : Nat} {known : EnvValues}
    {previous : Runtime} (hphase : w.phase i = .swapping known previous)
    (hc : Careful host requests w (i, .swap .started)) :
    SaveInv host requests (w.exec host requests tokens (i, .swap .started)) := by
  unfold Careful at hc
  unfold SaveWorld.exec
  dsimp only at hc ⊢
  rw [hphase] at hc ⊢
  simp only [advance, writes, Bool.false_eq_true, if_false]
  have hpast : ∀ j, (Function.update w.phase i .refreshing j).past = true → (w.phase j).past = true := by
    intro j hj
    by_cases hji : j = i
    · rw [hji, hphase]
      rfl
    · rwa [Function.update_of_ne hji] at hj
  refine ⟨fun j known extras hj => ?_, fun before j after hsplit hj => h.kept before j after hsplit (hpast j hj),
    fun j hj => h.wrote j (hpast j hj), fun j hj => ?_, ?_⟩
  · dsimp only at hj
    by_cases hji : j = i
    · rw [hji, Function.update_self] at hj
      cases hj
    · rw [Function.update_of_ne hji] at hj
      exact h.accepted j known extras hj
  · dsimp only at hj
    by_cases hji : j = i
    · rw [hji, Function.update_self] at hj
      cases hj
    · rw [Function.update_of_ne hji] at hj
      change Function.update w.touched i _ j = false
      rw [Function.update_of_ne hji]
      exact h.untouched j hj
  · rcases hc with hcurrent | ⟨j, hji, hj⟩
    · left
      rw [ConfigServer.Current, ← hcurrent]
      exact ⟨rfl, rfl⟩
    · refine .inr ⟨j, ?_⟩
      dsimp only
      rwa [Function.update_of_ne hji]

/-- **A careful event keeps the invariant.** -/
theorem SaveInv.step [DecidableEq Runtime] (h : SaveInv host requests w) {e : Nat × SaveEvent}
    (hc : Careful host requests w e) : SaveInv host requests (w.exec host requests tokens e) := by
  obtain ⟨i, event⟩ := e
  cases hwrites : writes (w.phase i) event with
  | true =>
    obtain ⟨known, extras, hp, rfl⟩ : ∃ known extras, w.phase i = .writing known extras ∧
        event = .write .written := by
      unfold writes at hwrites
      split at hwrites
      · exact ⟨_, _, by assumption, rfl⟩
      · cases hwrites
    exact h.write hp hc
  | false =>
    cases hinstalls : installs (w.phase i) event with
    | true =>
      obtain ⟨known, previous, hp, rfl⟩ : ∃ known previous, w.phase i = .swapping known previous ∧
          event = .swap .started := by
        unfold installs at hinstalls
        split at hinstalls
        · exact ⟨_, _, by assumption, rfl⟩
        · cases hinstalls
      exact h.install hp hc
    | false =>
      have hmoves := advance_moves host (requests i) (tokens i) w.server (w.phase i) event
      have hserver := hc.server_eq hmoves hwrites hinstalls
      have hexec : w.exec host requests tokens (i, event)
          = w.move i (advance host (requests i) (tokens i) w.server (w.phase i) event).2 := by
        unfold SaveWorld.exec SaveWorld.move
        dsimp only
        rw [hserver, hwrites]
        simp
      rw [hexec]
      exact h.moved hc hmoves hwrites hinstalls

/-- **Careful saves are sound.** The server starts with the runtime of the env file. In every run of careful events,
whatever their order, no update is lost, a save that fails has changed nothing, and between the saves the runtime and
the key are those of the env file. -/
theorem saves_sound [DecidableEq Runtime] {events : List (Nat × SaveEvent)} (hidle : ∀ i, w.phase i = .idle)
    (hwritten : w.written = []) (huntouched : ∀ i, w.touched i = false) (hcurrent : w.server.Current host)
    (hcareful : Machine.Along (SaveWorld.exec host requests tokens) (Careful host requests) w events) :
    SavesSound host requests (Machine.run (SaveWorld.exec host requests tokens) w events) := by
  have hstart : SaveInv host requests w := by
    refine ⟨fun i known extras hi => ?_, fun before i after hsplit => ?_, fun i hi => ?_, fun i _ => huntouched i,
      .inl hcurrent⟩
    · rw [hidle] at hi
      cases hi
    · rw [hwritten] at hsplit
      exact absurd hsplit (by simp)
    · rw [hidle] at hi
      cases hi
  exact (Machine.run_invariant (fun _ _ hc h => h.step hc) hcareful hstart).sound

end Saves

/-! ## Runs -/

section Runs

variable {Runtime : Type} [DecidableEq Runtime] {host : ConfigHost Runtime} {requests : Nat → ConfigUiSaveRequest}
  {tokens : Nat → Option String} {w : SaveWorld Runtime} {i j : Nat} {event : SaveEvent}

theorem SaveWorld.exec_phase_self : (w.exec host requests tokens (i, event)).phase i
    = (advance host (requests i) (tokens i) w.server (w.phase i) event).2 := Function.update_self _ _ _

theorem SaveWorld.exec_phase_of_ne (hji : j ≠ i) : (w.exec host requests tokens (i, event)).phase j = w.phase j :=
  Function.update_of_ne hji _ _

theorem SaveWorld.exec_server : (w.exec host requests tokens (i, event)).server
    = (advance host (requests i) (tokens i) w.server (w.phase i) event).1 := rfl

theorem SaveWorld.exec_written : (w.exec host requests tokens (i, event)).written
    = if writes (w.phase i) event then w.written ++ [i] else w.written := rfl

/-- The events of a save from its request to its answer. -/
def saveEvents (i : Nat) : List (Nat × SaveEvent) :=
  [(i, .start), (i, .read true), (i, .write .written), (i, .build true), (i, .swap .started), (i, .refresh true)]

/-- Two saves that read the same file. -/
def overlap : List (Nat × SaveEvent) :=
  [(0, .start), (1, .start), (0, .read true), (1, .read true), (0, .write .written), (1, .write .written),
    (0, .build true), (0, .swap .started), (0, .refresh true), (1, .build true), (1, .swap .started),
    (1, .refresh true)]

theorem run_overlap {known extras known' extras' : EnvValues} (hidle : ∀ i, w.phase i = .idle)
    (hkey : ∀ i, verifyApiKey w.server.apiKey (tokens i) = true)
    (h : acceptSave host.environ (readEnvFileValues w.server.envFile) (requests 0) = .ok (known, extras))
    (h' : acceptSave host.environ (readEnvFileValues w.server.envFile) (requests 1) = .ok (known', extras')) :
    (Machine.run (SaveWorld.exec host requests tokens) w overlap).phase 0 = .saved ∧
      (Machine.run (SaveWorld.exec host requests tokens) w overlap).written = w.written ++ [0, 1] ∧
      (Machine.run (SaveWorld.exec host requests tokens) w overlap).server.envFile
        = some (renderEnvFile known' extras') := by
  have h01 : (0 : Nat) ≠ 1 := by decide
  simp [overlap, Machine.run, SaveWorld.exec_phase_self, SaveWorld.exec_phase_of_ne, SaveWorld.exec_server,
    SaveWorld.exec_written, advance, writes, hidle, hkey, h, h', h01, h01.symm]

omit [DecidableEq Runtime] in
theorem unsaved_known {req : ConfigUiSaveRequest} {fileValues known extras : EnvValues}
    (h : acceptSave host.environ fileValues req = .ok (known, extras)) {key : String} (hkey : isKnown key = true)
    (hunsaved : ∀ value, ¬ req.saves key value) : known[key]? = fileValues[key]? := by
  obtain ⟨rfl, -⟩ := acceptSave_eq_ok h
  rw [getElem?_knownValues, if_pos hkey]
  refine getElem?_unsaved fileValues fun _ hin => ?_
  obtain ⟨⟨k, raw⟩, hraw, rfl⟩ := List.mem_map.mp hin
  exact hunsaved _ ⟨hkey, raw, hraw, rfl⟩

theorem careful_saveEvents (hidle : w.phase i = .idle) (hlines : (requests i).SingleLine) :
    Machine.Along (SaveWorld.exec host requests tokens) (Careful host requests) w (saveEvents i) := by
  by_cases hkey : verifyApiKey w.server.apiKey (tokens i) = true
  · cases hsave : acceptSave host.environ (readEnvFileValues w.server.envFile) (requests i) with
    | error e =>
      simp [saveEvents, Careful, SaveWorld.exec_phase_self, SaveWorld.exec_server, advance, hidle, hkey, hsave]
    | ok r =>
      obtain ⟨known, extras⟩ := r
      have hfile := writable_accepted (writable_readEnvFileValues w.server.envFile) hlines
      have hover : envOverrides known = fileOverrides (some (renderEnvFile known extras)) := by
        obtain ⟨rfl, rfl⟩ := acceptSave_eq_ok hsave
        rw [fileOverrides_written hfile]
      simp [saveEvents, Careful, SaveWorld.exec_phase_self, SaveWorld.exec_server, SaveWorld.exec_written, advance,
        hidle, hkey, hsave, hover]
      exact ⟨hlines, fun j _ _ key value hsaves hunsaved => by rw [unsaved_known hsave hsaves.1 hunsaved]⟩
  · simp [saveEvents, Careful, SaveWorld.exec_phase_self, SaveWorld.exec_server, advance, hidle, hkey]

theorem run_saveEvents_of_ne (hji : j ≠ i) :
    (Machine.run (SaveWorld.exec host requests tokens) w (saveEvents i)).phase j = w.phase j := by
  simp only [saveEvents, Machine.run_cons, Machine.run_nil, SaveWorld.exec_phase_of_ne hji]

/-- **One save after the other is careful.** -/
theorem careful_serial {saves : List Nat} (hdistinct : saves.Nodup) (hidle : ∀ i ∈ saves, w.phase i = .idle)
    (hlines : ∀ i ∈ saves, (requests i).SingleLine) :
    Machine.Along (SaveWorld.exec host requests tokens) (Careful host requests) w (saves.flatMap saveEvents) := by
  induction saves generalizing w with
  | nil => trivial
  | cons i saves ih =>
    obtain ⟨hi, hdistinct⟩ := List.nodup_cons.mp hdistinct
    obtain ⟨hidlei, hidle⟩ := List.forall_mem_cons.mp hidle
    obtain ⟨hlinesi, hlines⟩ := List.forall_mem_cons.mp hlines
    rw [List.flatMap_cons, Machine.along_append]
    refine ⟨careful_saveEvents hidlei hlinesi, ih hdistinct (fun j hj => ?_) hlines⟩
    have hji : j ≠ i := by
      rintro rfl
      exact hi hj
    rw [run_saveEvents_of_ne hji]
    exact hidle j hj

end Runs

namespace Sample

/-- A runtime of which only the model is seen. -/
def saveHost : ConfigHost (Option String) where
  environ := noEnviron
  buildRuntimeHandles overrides := overrides["MINIMAX_MODEL"]?
  apiKey overrides := overrides["XIAOMAOLV_APP_API_KEY"]?

/-- The required fields and the model. -/
def chosenModel : ConfigUiSaveRequest where
  values := [("MINIMAX_API_KEY", "key"), ("TELEGRAM_BOT_TOKEN", "token"), ("MINIMAX_MODEL", "M2")]
  mode := none
  distinct := by simp

/-- The first save chooses a model, and the others have the required fields only. -/
def saveRequests (i : Nat) : ConfigUiSaveRequest := if i = 0 then chosenModel else setup "key"

/-- A server that has been started without an env file. -/
def saveWorld : SaveWorld (Option String) where
  server := { envFile := none, runtime := none, apiKey := none, workers := some none }
  phase _ := .idle
  written := []
  touched _ := false

theorem saveWorld_current : saveWorld.server.Current saveHost := by
  have hnone : fileOverrides none = ∅ := by
    refine Std.ExtTreeMap.ext_getElem? fun key => ?_
    rw [fileOverrides, readEnvFileValues, getElem?_envOverrides, getElem?_knownValues, Std.ExtTreeMap.getElem?_empty]
    split_ifs <;> rfl
  rw [ConfigServer.Current, saveWorld, hnone]
  exact ⟨Std.ExtTreeMap.getElem?_empty.symm, Std.ExtTreeMap.getElem?_empty.symm⟩

end Sample

namespace Sample

/-- The saves after some events. -/
def savesAfter (events : List (Nat × SaveEvent)) : SaveWorld (Option String) :=
  Machine.run (SaveWorld.exec saveHost saveRequests fun _ => none) saveWorld events

end Sample

/-- Two saves, one after the other. -/
theorem saves_sound_serial :
    SavesSound Sample.saveHost Sample.saveRequests (Sample.savesAfter ([0, 1].flatMap saveEvents)) := by
  have hlines : ∀ i ∈ [0, 1], (Sample.saveRequests i).SingleLine := by
    unfold ConfigUiSaveRequest.SingleLine
    decide +kernel
  exact saves_sound (fun _ => rfl) rfl (fun _ => rfl) Sample.saveWorld_current
    (careful_serial (by decide) (fun _ _ => rfl) hlines)

/-- **Of two saves that read the same file the first is lost.** Both succeed, and the model that was chosen is not in
the file. -/
theorem lost_update : ¬ SavesSound Sample.saveHost Sample.saveRequests (Sample.savesAfter overlap) := by
  have hok : (acceptSave Sample.noEnviron (readEnvFileValues none) (Sample.saveRequests 0)).isOk = true := by
    decide +kernel
  have hok' : (acceptSave Sample.noEnviron (readEnvFileValues none) (Sample.saveRequests 1)).isOk = true := by
    decide +kernel
  have hlines : (Sample.saveRequests 1).SingleLine := by
    unfold ConfigUiSaveRequest.SingleLine
    decide +kernel
  have hunsaved : "MINIMAX_MODEL" ∉ (Sample.saveRequests 1).values.map (·.1) := by decide
  have hknown : isKnown "MINIMAX_MODEL" = true := by decide
  obtain ⟨known, extras, h⟩ := exists_of_isOk hok
  obtain ⟨known', extras', h'⟩ := exists_of_isOk hok'
  have hrun : (Sample.savesAfter overlap).phase 0 = .saved ∧ (Sample.savesAfter overlap).written = [0, 1] ∧
      (Sample.savesAfter overlap).server.envFile = some (renderEnvFile known' extras') :=
    run_overlap (fun _ => rfl) (fun _ => rfl) h h'
  obtain ⟨hsaved, hwritten, hfile⟩ := hrun
  obtain ⟨rfl, rfl⟩ := acceptSave_eq_ok h'
  have hread : (readEnvFileValues (Sample.savesAfter overlap).server.envFile)["MINIMAX_MODEL"]? = some "" := by
    rw [hfile]
    refine (getElem?_written (writable_accepted (writable_readEnvFileValues none) hlines) _).trans ?_
    rw [if_pos hknown, getElem?_unsaved _ fun _ => hunsaved, readEnvFileValues, Std.ExtTreeMap.getElem?_empty]
    rfl
  intro hsound
  have hsaves : (Sample.saveRequests 0).saves "MINIMAX_MODEL" "M2" := ⟨hknown, "M2", by decide, by decide⟩
  rcases hsound.kept [] 0 [1] hwritten hsaved _ _ hsaves with hkept | ⟨j, hj, value, -, raw, hraw, -⟩
  · rw [hread] at hkept
    exact absurd (Option.some.inj hkept) (by decide)
  · obtain rfl := List.mem_singleton.mp hj
    exact hunsaved (List.mem_map_of_mem hraw)

end Xiaomaolv
