import Xiaomaolv.Evolution.Cursors
import Xiaomaolv.Lib.Sequential

/-!
# Evaluations one after another

* `EvolutionEngine.serial`: calls on the engine one after another, each of them stopped between any two atomic
  calls, and new processes.
* `EvolutionEngine.Spares`: no candidate with a cursor is abandoned, and no call is stopped between the last
  transition of an evaluation and `clear_eval_run`.
* **`keepsSteady_program`**: a call that spares the cursors leaves them resumable, wherever it stops.
* **`steady_run`**: so does every run of such calls.
-/

namespace Xiaomaolv

open Interleave Table EvolutionStore EvolutionWorld

variable {R : Type}

/-! ## The engine's programs -/

section

variable [Host R] {env : Nat → EvolutionEnv} {s : Nat × EvolutionWorld R} {engine : EvolutionEngine R}
  {candidateId : String} {α : Type}

/-- What an atomic call finds: `clear_eval_run` alone finds the cursor of an evaluation that has ended. -/
def Finds (a : EvolutionAction R) (s : Nat × EvolutionWorld R) : Prop :=
  (∃ candidateId, a = .clearEvalRun candidateId) ∨ s.2.Steady

/-- The program leaves the world steady, wherever it stops but before `clear_eval_run`. -/
abbrev KeepsSteady (env : Nat → EvolutionEnv) (p : EngineM R α) (s : Nat × EvolutionWorld R) : Prop :=
  p.Keeps (serve env) Finds (fun _ s => s.2.Steady) s

theorem keeps_transition_bind {actor : String} {expected next : EvolutionCandidateStatus} {details : Value}
    {f : EvolutionCandidateRecord → EngineM R α} {Q : Except String α → Nat × EvolutionWorld R → Prop}
    (h : s.2.Steady)
    (hok : ∀ r store, s.2.store.apply (.transitionCandidate candidateId expected next actor details) = .ok store →
      (f r).Keeps (serve env) Finds Q (s.1 + 1, { s.2 with store }))
    (herr : ∀ e, Q (.error e) (s.1 + 1, s.2)) :
    Prog.Keeps (serve env) Finds Q (call (.transitionCandidate candidateId expected next actor details) >>= f) s := by
  rcases serve_transition h env candidateId expected next actor details with
    ⟨e, hserve, -⟩ | ⟨r, store, ht, hserve⟩
  · refine Prog.keeps_perform_bind (.inr h) (fun r hr => ?_) fun e' he => ?_
    · rw [hserve] at hr
      cases hr
    · rw [hserve]
      exact herr e'
  · refine Prog.keeps_perform_bind (.inr h) (fun r' hr => ?_) fun e he => ?_
    · rw [hserve]
      exact hok r' store ht
    · rw [hserve] at he
      cases he

theorem keeps_confined {p : EngineM R α} (h : Idle candidateId s.2) (hp : p.Uses (Confined candidateId)) :
    p.Keeps (serve env) Finds (fun _ s => Idle candidateId s.2) s :=
  Prog.keeps_of_uses (fun _ _ _ h => .inr h.steady) (fun _ _ ha h => h.serve ha) hp h

theorem keepsSteady_confined {p : EngineM R α} (h : Idle candidateId s.2) (hp : p.Uses (Confined candidateId)) :
    KeepsSteady env p s :=
  (keeps_confined h hp).imp fun _ _ h => h.steady

theorem keepsSteady_locked {p : EngineM R α} (h : s.2.Steady) (hp : ∀ s, s.2.Steady → KeepsSteady env p s) :
    KeepsSteady env (EvolutionEngine.locked p) s := by
  have hlock : (serve env .lockEvaluation s).2.2.Steady :=
    steady_serve h (fun _ ht => by cases ht) fun _ ha => by cases ha
  refine Prog.keeps_perform_bind (.inr h) (fun _ _ => ?_) fun _ _ => hlock
  refine (hp _ hlock).attempt fun r s hs => ⟨.inr hs, ?_⟩
  exact steady_serve (a := .unlockEvaluation) hs (fun _ ht => by cases ht) fun _ ha => by cases ha

/-! ### `evaluate_candidate` -/

theorem keepsSteady_evaluateCandidate (h : s.2.Steady) (maxResponseBytes : Nat) :
    KeepsSteady env (engine.evaluateCandidate candidateId maxResponseBytes) s := by
  refine keepsSteady_locked h fun s h => ?_
  refine Prog.keeps_perform_bind (.inr h) (fun found hfound => ?_) fun _ _ => h
  refine Prog.keeps_lift_bind (fun candidate hcandidate => ?_) fun _ _ => h
  refine Prog.keeps_lift_bind (fun _ hne => ?_) fun _ _ => h
  rw [context_eq_ok.mp hcandidate] at hfound
  obtain ⟨rfl, hstatus⟩ := getCandidate_eq_some hfound
  have hidle : Idle candidate.id s.2 := idle_of_status h hstatus (by simpa using ensure_eq_ok.mp hne)
  refine keepsSteady_confined hidle (.bind (Prog.uses_perform ?_) fun _ => .attempt ?_ fun r => ?_)
  · exact rfl
  · exact .bind (Prog.uses_perform trivial) fun _ => .bind (Prog.uses_perform trivial) fun _ =>
      .bind (Prog.uses_lift _) fun _ => .bind (Prog.uses_perform trivial) fun _ =>
        .bind (uses_shadowCases (fun _ => trivial) _ _ _ _ _ _ _) fun _ =>
          uses_finalize engine candidate trivial (fun _ => trivial) (fun _ => rfl) (fun _ => rfl) _ _ _ _ _
  · cases r with
    | ok evaluation => exact trivial
    | error e =>
      refine (Prog.uses_perform ?_).attempt fun _ => trivial
      exact rfl

/-! ### `run_evaluation_step` -/

/-- The cursor that a start writes. -/
def EvalStart.cursor (start : EvalStart R) (id candidateId : String) : EvolutionEvalRun R where
  id
  candidateId
  cases := start.all
  benchmarkTail := (suiteCases start.suite).length
  baseline := start.active.map policyTriple
  caseIndex := 0
  baselineOutputs := []
  candidateOutputs := []
  responseBytes := 0

/-- The cursor that the program has taken up or started. -/
def TakesUp (candidateId : String) (r : Except String (EvolutionEvalRun R)) (s : Nat × EvolutionWorld R) : Prop :=
  s.2.Steady ∧ ∀ run, r = .ok run → s.2.store.evalRun? candidateId = some run

omit [Host R] in
theorem takesUp_error {e : String} (h : s.2.Steady) : TakesUp candidateId (.error e) s :=
  ⟨h, fun _ he => by cases he⟩

theorem serve_upsertEvalRun (env : Nat → EvolutionEnv) (h : s.2.Steady) {run : EvolutionEvalRun R} (hrun : s.2.store.Underway run) :
    (serve env (.upsertEvalRun run) s).2.2.Steady ∧
      ((∃ u, (serve env (.upsertEvalRun run) s).1 = .ok u) →
        (serve env (.upsertEvalRun run) s).2.2.store.evalRun? run.candidateId = some run) := by
  refine ⟨steady_serve h (fun t ht => ?_) (fun _ ha => by cases ha), ?_⟩
  · cases Option.some.inj ht
    exact hrun
  · cases ht : s.2.store.upsertEvalRun run with
    | error e =>
      have hserve : serve env (.upsertEvalRun run) s = (.error e, (s.1 + 1, s.2)) :=
        serve_eq (by simp only [EvolutionWorld.perform, ht, commit])
      rw [hserve]
      rintro ⟨u, hu⟩
      cases hu
    | ok store =>
      have hserve : serve env (.upsertEvalRun run) s = (.ok (), (s.1 + 1, { s.2 with store })) :=
        serve_eq (by simp only [EvolutionWorld.perform, ht, commit])
      rw [hserve]
      exact fun _ => evalRun?_upsertEvalRun ht

/-- A start parks the candidate before its cursor is written. -/
theorem keeps_startEvalRun (h : Idle candidateId s.2) :
    (engine.startEvalRun candidateId).Keeps (serve env) Finds (TakesUp candidateId) s := by
  refine Prog.keeps_perform_bind (.inr h.steady) (fun found _ => ?_) fun e _ => takesUp_error h.steady
  refine Prog.keeps_lift_bind (fun candidate _ => ?_) fun e _ => takesUp_error h.steady
  refine Prog.Keeps.bind (Q := fun _ s => Idle candidateId s.2) (keeps_confined (s := (s.1 + 1, s.2)) h ?_)
    (fun candidate s h => ?_) fun e s h => takesUp_error h.steady
  · split_ifs
    · refine .bind (Prog.uses_perform ?_) fun _ => .bind (Prog.uses_perform trivial) fun _ => Prog.uses_lift _
      exact rfl
    · exact Prog.uses_pure _
  refine Prog.keeps_lift_bind (fun _ _ => ?_) fun e _ => takesUp_error h.steady
  refine Prog.keeps_perform_bind (.inr h.steady) (fun cases _ => ?_) fun e _ => takesUp_error h.steady
  refine Prog.keeps_perform_bind (.inr h.steady) (fun suite _ => ?_) fun e _ => takesUp_error h.steady
  refine Prog.keeps_lift_bind (fun _ _ => ?_) fun e _ => takesUp_error h.steady
  refine Prog.keeps_lift_bind (fun _ hcases => ?_) fun e _ => takesUp_error h.steady
  refine Prog.keeps_perform_bind (.inr h.steady) (fun active hactive => ?_) fun e _ => takesUp_error h.steady
  have hruntime : ∀ p ∈ active, Deployed s.2.store p := by
    rw [← Except.ok.inj hactive]
    exact h.steady.runtime
  refine keeps_transition_bind (s := (s.1 + 1 + 1 + 1, s.2)) h.steady (fun r store ht => ?_)
    fun e => takesUp_error h.steady
  have h' : Idle candidateId { s.2 with store } := h.transition ht
  refine Prog.keeps_perform_bind (.inr h'.steady) (fun id _ => ?_) fun e _ => takesUp_error h'.steady
  have hunderway : store.Underway (EvalStart.cursor ⟨cases, suite, active⟩ id candidateId) := by
    refine ⟨(status?_transition ht).2.1, ?_, fun c hc => by simp [EvalStart.cursor] at hc, fun b hb => ?_⟩
    · refine List.length_pos_iff.mpr fun hnil => ?_
      have hsome := ensure_eq_ok.mp hcases
      rw [show cases ++ suiteCases suite = [] from hnil] at hsome
      cases hsome
    · obtain ⟨p, hp, rfl⟩ := Option.mem_map.mp hb
      obtain ⟨-, c, hc, hid, -⟩ := (hruntime p hp).mono (frozen_apply ht)
      exact isSome_status?.mpr ⟨c, hc, hid⟩
  obtain ⟨hsteady, hstored⟩ := serve_upsertEvalRun (s := (s.1 + 1 + 1 + 1 + 1 + 1, { s.2 with store })) env h'.steady
    hunderway
  refine Prog.keeps_perform_bind (.inr h'.steady) (fun u hu => ⟨hsteady, fun run hrun => ?_⟩) fun e _ =>
    takesUp_error hsteady
  cases Except.ok.inj hrun
  exact hstored ⟨u, hu⟩

omit [Host R] in
theorem answered_next {run : EvolutionEvalRun R} (h : ∀ c ∈ run.cases.take run.caseIndex,
      (run.baselineOutputs.get c.id).isSome ∧ (run.candidateOutputs.get c.id).isSome)
    {c : EvolutionEvalCase R} (hc : run.cases[run.caseIndex]? = some c) (outputs : String × String × Nat) :
    ∀ c' ∈ run.cases.take (run.caseIndex + 1), ((run.next c outputs).baselineOutputs.get c'.id).isSome ∧
      ((run.next c outputs).candidateOutputs.get c'.id).isSome := by
  intro c' hc'
  rw [List.take_add_one, hc] at hc'
  by_cases hid : c.id = c'.id
  · simp [EvolutionEvalRun.next, ← hid]
  · rcases List.mem_append.mp hc' with hold | hlast
    · obtain ⟨hb, ho⟩ := h c' hold
      rw [← Outputs.get_insert_of_ne run.baselineOutputs outputs.1 hid] at hb
      rw [← Outputs.get_insert_of_ne run.candidateOutputs outputs.2.1 hid] at ho
      exact ⟨hb, ho⟩
    · have hsame : c' = c := by simpa using hlast
      exact absurd (congrArg (·.id) hsame).symm hid

omit [Host R] in
theorem EvolutionStore.Underway.next {store : EvolutionStore R} {run : EvolutionEvalRun R} (h : store.Underway run)
    {c : EvolutionEvalCase R} (hc : run.cases[run.caseIndex]? = some c) {outputs : String × String × Nat}
    (hmore : run.caseIndex + 1 < run.cases.length) : store.Underway (run.next c outputs) :=
  ⟨h.evaluating, hmore, answered_next h.answered hc outputs, h.baseline⟩

theorem keeps_shadowCase {I : EvolutionAction R → Nat × EvolutionWorld R → Prop} (hI : ∀ a t, t.2 = s.2 → I a t)
    (candidate : EvolutionCandidateRecord) (baseline : Option (String × String × PromptPatch))
    (maxResponseBytes : Nat) (c : EvolutionEvalCase R) (responseBytes : Nat) :
    (shadowCase candidate baseline maxResponseBytes c responseBytes).Keeps (serve env) I (fun _ t => t.2 = s.2) s := by
  have huses : (shadowCase candidate baseline maxResponseBytes c responseBytes).Uses
      fun a => ∃ messages, a = .complete messages := uses_shadowCase (fun messages => ⟨messages, rfl⟩) _ _ _ _ _
  refine Prog.keeps_of_uses (K := fun t : Nat × EvolutionWorld R => t.2 = s.2) (fun a t _ ht => hI a t ht)
    (fun a t ha ht => ?_) huses rfl
  obtain ⟨messages, rfl⟩ := ha
  exact ht

/-- The evaluation has ended and its cursor is left, or nothing has changed. -/
def Concludes (candidateId : String) (r : Except String α) (s : Nat × EvolutionWorld R) : Prop :=
  match r with
  | .ok _ => EvolutionWorld.Steady { s.2 with store := s.2.store.clearEvalRun candidateId }
  | .error _ => s.2.Steady

theorem keeps_finalize (h : s.2.Steady) (candidate : EvolutionCandidateRecord) (cases : List (EvolutionEvalCase R))
    (suite : Option (EvolutionBenchmarkSuite R)) (baselineOutputs candidateOutputs : Outputs)
    (baselineCandidateId : Option String) :
    (engine.finalizeShadowEvaluation candidate cases suite baselineOutputs candidateOutputs
      baselineCandidateId).Keeps (serve env) Finds (Concludes candidate.id) s := by
  refine Prog.keeps_lift_bind (fun scorecard _ => ?_) fun _ _ => h
  refine Prog.keeps_perform_bind (.inr h) (fun id _ => ?_) fun _ _ => h
  have hrecord : ∀ (draft : EvolutionEvaluationDraft R) (s : Nat × EvolutionWorld R), s.2.Steady →
      (serve env (.recordEvaluation draft) s).2.2.Steady := fun draft s h =>
    steady_serve h (fun t ht => by cases Option.some.inj ht; trivial) fun _ ha => by cases ha
  have hsettle : ∀ {s : Nat × EvolutionWorld R} {next : EvolutionCandidateStatus} {details : Value}
      {store : EvolutionStore R} (evaluation : EvolutionEvaluationRecord R), s.2.Steady →
      s.2.store.apply (.transitionCandidate candidate.id .evaluating next systemActor details) = .ok store →
      Concludes candidate.id (.ok evaluation) (s.1 + 1, { s.2 with store }) := fun _ h ht =>
    ⟨h.resumable.settle ht, fun p hp => (h.runtime p hp).mono (frozen_apply ht)⟩
  refine Prog.keeps_perform_bind (.inr h) (fun evaluation _ => ?_) fun _ _ => hrecord _ _ h
  have hsteady := hrecord
    { id
      candidateId := candidate.id
      baselineCandidateId
      scorecard
      decision := engine.gateConfig.decide scorecard
      gateConfig := engine.gateConfig } (s.1 + 1, s.2) h
  cases hdecision : engine.gateConfig.decide scorecard with
  | ready =>
    rw [hdecision] at hsteady
    exact keeps_transition_bind hsteady (fun _ _ ht => hsettle evaluation hsteady ht) fun _ => hsteady
  | rejected reasons =>
    rw [hdecision] at hsteady
    exact keeps_transition_bind hsteady (fun _ _ ht => hsettle evaluation hsteady ht) fun _ => hsteady

theorem keepsSteady_advanceEvalRun (h : s.2.Steady) {run : EvolutionEvalRun R}
    (hrun : s.2.store.evalRun? candidateId = some run) (maxResponseBytes : Nat) :
    KeepsSteady env (engine.advanceEvalRun candidateId maxResponseBytes run) s := by
  obtain ⟨hmem, hid⟩ := evalRun?_eq_some hrun
  have hunderway := h.resumable.cursors run hmem
  refine Prog.keeps_perform_bind (.inr h) (fun found hfound => ?_) fun _ _ => h
  refine Prog.keeps_lift_bind (fun candidate hcandidate => ?_) fun _ _ => h
  refine Prog.keeps_lift_bind (fun c hc => ?_) fun _ _ => h
  rw [context_eq_ok.mp hcandidate] at hfound
  obtain ⟨hcid, -⟩ := getCandidate_eq_some hfound
  refine Prog.Keeps.bind (keeps_shadowCase (s := (s.1 + 1, s.2)) (fun a t ht => .inr (ht ▸ h)) candidate run.baseline
    maxResponseBytes c run.responseBytes) (fun outputs t ht => ?_) fun e t ht => by rw [ht]; exact h
  obtain ⟨k, w⟩ := t
  subst ht
  change KeepsSteady env (if (run.next c outputs).caseIndex < (run.next c outputs).cases.length
    then _ else _) _
  split_ifs with hmore
  · have hnext : s.2.store.Underway (run.next c outputs) := hunderway.next (context_eq_ok.mp hc) hmore
    exact ⟨.inr h, (serve_upsertEvalRun (s := (k, s.2)) env h hnext).1⟩
  · refine Prog.keeps_perform_bind (.inr h) (fun suite _ => ?_) fun _ _ => h
    refine Prog.Keeps.bind (keeps_finalize (s := (k + 1, s.2)) h candidate _ _ _ _ _) (fun evaluation t ht => ?_)
      fun e t ht => ht
    rw [hcid] at ht
    exact ⟨.inl ⟨candidateId, rfl⟩, ht⟩

theorem keepsSteady_runEvaluationStep (h : s.2.Steady) (maxResponseBytes : Nat) :
    KeepsSteady env (engine.runEvaluationStep candidateId maxResponseBytes) s := by
  refine Prog.keeps_lift_bind (fun _ _ => keepsSteady_locked h fun s h => ?_) fun _ _ => h
  refine Prog.keeps_perform_bind (.inr h) (fun found hfound => ?_) fun _ _ => h
  have hfound' := Except.ok.inj hfound
  refine Prog.Keeps.bind (Q := TakesUp candidateId) ?_
    (fun run t ht => keepsSteady_advanceEvalRun ht.1 (ht.2 run rfl) maxResponseBytes) fun e t ht => ht.1
  cases found with
  | some run =>
    refine ⟨h, fun run' hrun' => ?_⟩
    cases Except.ok.inj hrun'
    exact hfound'
  | none => exact keeps_startEvalRun (s := (s.1 + 1, s.2)) ⟨h, hfound'⟩

/-! ### Operators' calls -/

/-- The calls that change no candidate but to `approved`, and write no cursor. -/
def Bystander : EvolutionAction R → Prop
  | .transitionCandidate _ _ next _ _ => next = .approved
  | .upsertEvalRun _ => False
  | _ => True

theorem resumable_serve {a : EvolutionAction R} (h : s.2.store.Resumable) (ha : Bystander a) :
    (serve env a s).2.2.store.Resumable := by
  rcases serve_cases env a s with ⟨hsame, -⟩ | hperform
  · rw [hsame]
    exact h
  · rw [perform_store hperform]
    cases ht : a.txn (env s.1) with
    | none => exact h
    | some t =>
      refine exec_keeps h fun store happly => resumable_apply h ?_ happly
      cases a with
      | transitionCandidate id expected next actor details =>
        cases Option.some.inj ht
        obtain ⟨hcan, -⟩ := transitionCandidate_ok happly
        rw [show next = .approved from ha, EvolutionCandidateStatus.canTransitionTo_approved] at hcan
        rw [hcan]
        trivial
      | upsertEvalRun run => exact ha.elim
      | createCandidate | upsertEvalCase | recordEvaluation | clearEvalRun | activateCandidate | rollbackActive =>
        cases Option.some.inj ht
        trivial
      | _ => cases ht

theorem deployed_stopped (h : s.2.Steady) (caller : EvolutionCall R) (n : Nat) :
    ∀ p ∈ ((engine.program caller).stopped (serve env) n s).2.policyRuntime,
      Deployed ((engine.program caller).stopped (serve env) n s).2.store p := by
  refine (Prog.stopped_of_holds
    (K := fun s : Nat × EvolutionWorld R => Stacked s.2.store ∧ ∀ p ∈ s.2.policyRuntime, Deployed s.2.store p)
    (fun s => ((s.2, []) : EvolutionView R)) persists_refl (fun a s hK hpre => ?_)
    (meets_program caller) n ⟨h.resumable.stacked, h.runtime⟩).2
  rcases serve_cases env a s with ⟨hsame, e, he⟩ | hperform
  · rw [hsame, he]
    exact ⟨hK, Frozen.refl _, fun r hr => by cases hr⟩
  · obtain ⟨hstacked, hfrozen⟩ := stacked_perform hK.1 hperform
    refine ⟨⟨hstacked, fun p hp => ?_⟩, hfrozen, fun r hr => ensures_perform hK.1 (hr ▸ hperform)⟩
    rcases policyRuntime_perform hperform with hsame | ⟨policy, rfl, hpolicy⟩
    · exact (hK.2 p (hsame ▸ hp)).mono hfrozen
    · exact (hpre p (hpolicy ▸ hp)).mono hfrozen

theorem keepsSteady_bystander (h : s.2.Steady) {caller : EvolutionCall R}
    (hcaller : (engine.program caller).Uses Bystander) : KeepsSteady env (engine.program caller) s := by
  refine Prog.keeps_of_stopped (fun _ _ h => .inr h) fun n => ⟨?_, deployed_stopped h caller n⟩
  have hresumable : ∀ a (s : Nat × EvolutionWorld R), Bystander a → s.2.store.Resumable →
      (serve env a s).2.2.store.Resumable := fun _ _ ha h => resumable_serve h ha
  exact Prog.stopped_of_uses (serve env) hresumable hcaller n h.resumable

end

/-! ## Calls one after another -/

/-- A call of the engine, run to its end or stopped after some of its atomic calls, or a new process. -/
inductive SerialStep (R : Type)
  | call (caller : EvolutionCall R) (env : Nat → EvolutionEnv) (stop : Option Nat)
  | restart (suite : Option (EvolutionBenchmarkSuite R))

def EvolutionAction.isClear : EvolutionAction R → Bool
  | .clearEvalRun _ => true
  | _ => false

namespace EvolutionEngine

/-- The checks that `abandon_evaluation` makes before its transition. -/
def acceptsAbandon (engine : EvolutionEngine R) (actor : EvolutionActor) (reason : String) : Bool :=
  (engine.requireHumanActor actor).toBool && (validateOperatorReason "abandon" reason).toBool &&
    actor.auditLabel.toBool

/-- No candidate with a cursor is abandoned or rejected over its evaluation. -/
def SparesCursor (engine : EvolutionEngine R) (s : EvolutionStore R) : EvolutionCall R → Prop
  | .abandon candidateId actor reason => engine.acceptsAbandon actor reason = true → s.evalRun? candidateId = none
  | .reject candidateId _ _ _ => s.evalRun? candidateId = none
  | _ => True

variable [Host R] (engine : EvolutionEngine R)

def serial (w : EvolutionWorld R) : SerialStep R → EvolutionWorld R
  | .call caller env none => ((engine.program caller).runs (serve env) (0, w)).2.2
  | .call caller env (some n) => ((engine.program caller).stopped (serve env) n (0, w)).2.release 0
  | .restart suite => (w.restart suite).getD w

/-- The call spares the cursors, and is not stopped between the last transition of an evaluation and
`clear_eval_run`. -/
def Spares (w : EvolutionWorld R) : SerialStep R → Prop
  | .call caller env stop => engine.SparesCursor w.store caller ∧
      ∀ n ∈ stop, ∀ a ∈ ((engine.program caller).rest (serve env) n (0, w)).next?, a.isClear = false
  | .restart _ => True

instance (s : EvolutionStore R) (caller : EvolutionCall R) :
    Decidable (engine.SparesCursor s caller) := by
  unfold SparesCursor
  split <;> infer_instance

instance (w : EvolutionWorld R) (label : SerialStep R) : Decidable (engine.Spares w label) := by
  unfold Spares
  split <;> infer_instance

end EvolutionEngine

section

variable [Host R] {env : Nat → EvolutionEnv} {s : Nat × EvolutionWorld R} {engine : EvolutionEngine R}

/-- **Every call that spares the cursors** leaves the world steady, wherever it stops but before
`clear_eval_run`. -/
theorem keepsSteady_program (h : s.2.Steady) {caller : EvolutionCall R}
    (hspares : engine.SparesCursor s.2.store caller) : KeepsSteady env (engine.program caller) s := by
  have hbystander : (∀ id expected next actor details,
      caller.MayCall (.transitionCandidate id expected next actor details) → next = .approved) →
      (∀ run, ¬ caller.MayCall (.upsertEvalRun run)) → KeepsSteady env (engine.program caller) s := by
    refine fun htransition hcursor => keepsSteady_bystander h ((uses_program engine caller).imp fun a ha => ?_)
    cases a with
    | transitionCandidate id expected next actor details => exact htransition _ _ _ _ _ ha
    | upsertEvalRun run => exact absurd ha (hcursor run)
    | _ => trivial
  cases caller with
  | evaluate candidateId maxResponseBytes =>
    exact Prog.Keeps.bind (keepsSteady_evaluateCandidate h maxResponseBytes) (fun _ _ h => h) fun _ _ h => h
  | evaluationStep candidateId maxResponseBytes => exact keepsSteady_runEvaluationStep h maxResponseBytes
  | abandon candidateId actor reason =>
    refine Prog.Keeps.bind (Q := fun _ s => s.2.Steady) ?_ (fun _ _ h => h) fun _ _ h => h
    refine Prog.keeps_lift_bind (fun _ hhuman => ?_) fun _ _ => h
    refine Prog.keeps_lift_bind (fun _ hreason => ?_) fun _ _ => h
    refine Prog.keeps_lift_bind (fun label hlabel => ?_) fun _ _ => h
    have hidle : Idle candidateId s.2 := ⟨h, hspares (by
      rw [EvolutionEngine.acceptsAbandon, hhuman, hreason, hlabel]
      rfl)⟩
    refine keepsSteady_confined hidle (Prog.uses_perform ?_)
    exact rfl
  | reject candidateId expected actor details =>
    have hidle : Idle candidateId s.2 := ⟨h, hspares⟩
    refine keepsSteady_confined hidle (.bind (Prog.uses_perform ?_) fun _ => Prog.uses_pure _)
    exact rfl
  | approve => exact hbystander (fun _ _ _ _ _ h => h) fun _ h => h
  | activate | rollback | create | upsertCase => exact hbystander (fun _ _ _ _ _ h => h.elim) fun _ h => h

/-! ### The lock -/

/-- Only the lock's own calls move it. -/
theorem lock_perform {e : EvolutionEnv} {i : Nat} {w w' : EvolutionWorld R} {a : EvolutionAction R}
    {answer : Except String a.Resp} (h : w.perform e i a = some (answer, w')) :
    w'.evaluationLock = w.evaluationLock ∨ a = .lockEvaluation ∧ w'.evaluationLock = some i ∨
      a = .unlockEvaluation ∧ w'.evaluationLock = none := by
  have hcommit : ∀ {α : Type} (tx : Except String (EvolutionStore R))
      (read : EvolutionStore R → Except String α), (w.commit tx read).2.evaluationLock = w.evaluationLock := by
    intro α tx read
    cases tx <;> rfl
  have hcommitWith : ∀ {α : Type} (tx : Except String (α × EvolutionStore R)),
      (w.commitWith tx).2.evaluationLock = w.evaluationLock := by
    intro α tx
    cases tx <;> rfl
  cases a with
  | lockEvaluation =>
    simp only [EvolutionWorld.perform] at h
    split_ifs at h
    cases Option.some.inj h
    exact .inr (.inl ⟨rfl, rfl⟩)
  | unlockEvaluation =>
    cases congrArg Prod.snd (Option.some.inj h)
    exact .inr (.inr ⟨rfl, rfl⟩)
  | activateCandidate candidateId actor reason =>
    cases congrArg Prod.snd (Option.some.inj h)
    exact .inl (hcommitWith _)
  | rollbackActive actor reason =>
    cases congrArg Prod.snd (Option.some.inj h)
    exact .inl (hcommitWith _)
  | createCandidate _ _ | transitionCandidate _ _ _ _ _ | upsertEvalCase _ _ | recordEvaluation _
    | upsertEvalRun _ =>
    cases congrArg Prod.snd (Option.some.inj h)
    exact .inl (hcommit _ _)
  | _ =>
    cases congrArg Prod.snd (Option.some.inj h)
    exact .inl rfl

theorem lock_stopped {α : Type} (p : EngineM R α) (n : Nat)
    (h : s.2.evaluationLock = none ∨ s.2.evaluationLock = some 0) :
    (p.stopped (serve env) n s).2.evaluationLock = none ∨ (p.stopped (serve env) n s).2.evaluationLock = some 0 := by
  have huses : p.Uses fun _ => True := by
    induction p with
    | ret r => trivial
    | call a k ih => exact ⟨trivial, ih⟩
  refine Prog.stopped_of_uses (serve env)
    (I := fun s : Nat × EvolutionWorld R => s.2.evaluationLock = none ∨ s.2.evaluationLock = some 0)
    (fun a s _ hs => ?_) huses n h
  rcases serve_cases env a s with ⟨hsame, -⟩ | hperform
  · rw [hsame]
    exact hs
  · rcases lock_perform hperform with hlock | ⟨-, hlock⟩ | ⟨-, hlock⟩
    · rw [hlock]
      exact hs
    · exact .inr hlock
    · exact .inl hlock

theorem unlocked_locked {α : Type} (p : EngineM R α) (h : s.2.evaluationLock = none) :
    ((EvolutionEngine.locked p).runs (serve env) s).2.2.evaluationLock = none := by
  have hlock : (call (.lockEvaluation : EvolutionAction R)).runs (serve env) s
      = (.ok (), (s.1 + 1, { s.2 with evaluationLock := some 0 })) :=
    serve_eq (by simp [EvolutionWorld.perform, h])
  rw [EvolutionEngine.locked, Prog.runs_bind_ok (serve env) hlock, Prog.runs_attempt, Prog.runs_attempt]
  rfl

theorem unlocked_program (caller : EvolutionCall R) (h : s.2.evaluationLock = none) :
    ((engine.program caller).runs (serve env) s).2.2.evaluationLock = none := by
  have hfree : (∀ a, caller.MayCall a → a ≠ .lockEvaluation ∧ a ≠ .unlockEvaluation) →
      ((engine.program caller).runs (serve env) s).2.2.evaluationLock = none := by
    intro hfree
    obtain ⟨n, hn⟩ := Prog.exists_stopped_eq (serve env) (engine.program caller) s
    rw [← hn]
    refine Prog.stopped_of_uses (serve env) (I := fun s : Nat × EvolutionWorld R => s.2.evaluationLock = none)
      (fun a s ha hs => ?_) (uses_program engine caller) n h
    rcases serve_cases env a s with ⟨hsame, -⟩ | hperform
    · rw [hsame]
      exact hs
    · rcases lock_perform hperform with hlock | ⟨hlock, -⟩ | ⟨hunlock, -⟩
      · rw [hlock]
        exact hs
      · exact absurd hlock (hfree a ha).1
      · exact absurd hunlock (hfree a ha).2
  cases caller with
  | evaluate candidateId maxResponseBytes =>
    rw [EvolutionEngine.program, Prog.runs_discard]
    exact unlocked_locked _ h
  | evaluationStep candidateId maxResponseBytes =>
    rw [EvolutionEngine.program, EvolutionEngine.runEvaluationStep]
    cases ensure (0 < maxResponseBytes) "evolution response byte budget must be positive" with
    | ok u => exact unlocked_locked _ h
    | error e => exact h
  | _ => exact hfree fun a ha => ⟨fun h => by subst h; exact ha, fun h => by subst h; exact ha⟩

/-! ### The run -/

omit [Host R] in
theorem release_eq (w : EvolutionWorld R) :
    (w.release 0).store = w.store ∧ (w.release 0).policyRuntime = w.policyRuntime ∧
      (w.evaluationLock = none ∨ w.evaluationLock = some 0 → (w.release 0).evaluationLock = none) := by
  unfold EvolutionWorld.release
  split_ifs with hlock
  · exact ⟨rfl, rfl, fun _ => rfl⟩
  · exact ⟨rfl, rfl, fun h => h.resolve_right hlock⟩

omit [Host R] in
theorem Steady.congr {w w' : EvolutionWorld R} (h : w.Steady) (hstore : w'.store = w.store)
    (hruntime : ∀ p ∈ w'.policyRuntime, Deployed w.store p) : w'.Steady :=
  ⟨hstore ▸ h.resumable, fun p hp => hstore ▸ hruntime p hp⟩

/-- **One call keeps the world steady.** -/
theorem steady_serial {w : EvolutionWorld R} (h : w.Steady) {label : SerialStep R}
    (hspares : engine.Spares w label) : (engine.serial w label).Steady := by
  cases label with
  | call caller env stop =>
    obtain ⟨hcaller, hstop⟩ := hspares
    have hkeeps : KeepsSteady env (engine.program caller) (0, w) := keepsSteady_program (s := (0, w)) h hcaller
    cases stop with
    | none => exact Prog.Keeps.runs hkeeps
    | some n =>
      have hsteady : ((engine.program caller).stopped (serve env) n (0, w)).2.Steady := by
        rcases Prog.Keeps.stopped hkeeps n with ⟨-, hend⟩ | ⟨a, hnext, ⟨candidateId, rfl⟩ | hfinds⟩
        · exact hend
        · exact absurd (hstop n rfl _ hnext) Bool.noConfusion
        · exact hfinds
      obtain ⟨hstore, hruntime, -⟩ := release_eq ((engine.program caller).stopped (serve env) n (0, w)).2
      exact Steady.congr hsteady hstore fun p hp => hsteady.runtime p (hruntime ▸ hp)
  | restart suite =>
    simp only [EvolutionEngine.serial, EvolutionWorld.restart]
    split
    · rename_i policy _ hpolicy _
      refine Steady.congr h rfl fun p hp => ?_
      have hsome : policy = some p := hp
      exact deployed_of_activePolicy h.resumable.stacked (by rw [hpolicy, hsome])
    · exact h

theorem unlocked_serial {w : EvolutionWorld R} (h : w.evaluationLock = none) (label : SerialStep R) :
    (engine.serial w label).evaluationLock = none := by
  cases label with
  | call caller env stop =>
    cases stop with
    | none => exact unlocked_program (s := (0, w)) caller h
    | some n => exact (release_eq _).2.2 (lock_stopped (s := (0, w)) (engine.program caller) n (.inl h))
  | restart suite =>
    simp only [EvolutionEngine.serial, EvolutionWorld.restart]
    split
    · rfl
    · exact h

omit [Host R] in
theorem steady_initial : (EvolutionWorld.initial : EvolutionWorld R).Steady :=
  ⟨resumable_empty, by simp [EvolutionWorld.initial]⟩

/-- **In a run that spares the cursors** every state is steady, and the lock is free. -/
theorem steady_run {labels : List (SerialStep R)}
    (h : Machine.Along engine.serial engine.Spares .initial labels) :
    (Machine.run engine.serial .initial labels).Steady ∧
      (Machine.run engine.serial .initial labels).evaluationLock = none :=
  Machine.run_invariant (I := fun w : EvolutionWorld R => w.Steady ∧ w.evaluationLock = none)
    (fun _ label hspares hw => ⟨steady_serial hw.1 hspares, unlocked_serial hw.2 label⟩) h ⟨steady_initial, rfl⟩

end

end Xiaomaolv
