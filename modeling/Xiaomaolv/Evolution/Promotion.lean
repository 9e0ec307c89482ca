import Mathlib.Data.Rat.Defs
import Xiaomaolv.Evolution.Approvals

/-!
# Human-gated promotion

* `EvolutionCall.MayCall`, **`uses_program`**: what a call on the engine awaits.
* `Requires`, `Ensures`, **`meets_program`**: what the engine's programs owe each other.
* **`promotion_gated`**: promotion is human-gated in every undisturbed interleaving;
  `promotion_takes_unapproved`: a stale evaluation cursor breaks it.
-/

namespace Xiaomaolv

open Interleave Table EvolutionStore

variable {R : Type}

/-! ## The programs -/

/-- The calls that neither approve nor change the policy in memory. -/
def Plain : EvolutionAction R → Prop
  | .transitionCandidate _ _ next _ _ => next ≠ .approved
  | .replacePolicy _ => False
  | _ => True

/-- What an evaluation awaits: it neither approves nor deploys. -/
def Assesses : EvolutionAction R → Prop
  | .transitionCandidate _ _ next _ _ => next ≠ .approved
  | .replacePolicy _ | .activateCandidate .. | .rollbackActive .. => False
  | _ => True

/-- What a call on the engine awaits. -/
def EvolutionCall.MayCall : EvolutionCall R → EvolutionAction R → Prop
  | .evaluate .., a | .evaluationStep .., a => Assesses a
  | .abandon .., .transitionCandidate _ _ next _ _ => next = .failed
  | .approve .., .latestEvaluation _ | .approve .., .activePolicy => True
  | .approve .., .transitionCandidate _ _ next _ _ => next = .approved
  | .reject .., .transitionCandidate _ _ next _ _ => next = .rejected
  | .activate .., .getCandidate _ | .activate .., .activateCandidate .. | .activate .., .replacePolicy _ => True
  | .rollback .., .rollbackActive .. | .rollback .., .replacePolicy _ => True
  | .create .., .activePolicy | .create .., .newEvolutionId _ | .create .., .createCandidate .. => True
  | .upsertCase .., .upsertEvalCase .. => True
  | _, _ => False

section

variable (engine : EvolutionEngine R)

theorem uses_locked {allowed : EvolutionAction R → Prop} {α : Type} {p : EngineM R α}
    (hlock : allowed .lockEvaluation) (hunlock : allowed .unlockEvaluation) (hp : p.Uses allowed) :
    (EvolutionEngine.locked p).Uses allowed :=
  .bind (Prog.uses_perform hlock) fun _ =>
    hp.attempt fun _ => (Prog.uses_perform hunlock).attempt fun _ => trivial

theorem uses_shadowCase {allowed : EvolutionAction R → Prop} (h : ∀ messages, allowed (.complete messages))
    (candidate : EvolutionCandidateRecord) (baseline : Option (String × String × PromptPatch))
    (maxResponseBytes : Nat) (c : EvolutionEvalCase R) (responseBytes : Nat) :
    (shadowCase candidate baseline maxResponseBytes c responseBytes).Uses allowed :=
  .bind (.context (Prog.uses_perform (h _))) fun _ =>
    .bind (Prog.uses_lift _) fun _ =>
      .bind (.context (Prog.uses_perform (h _))) fun _ =>
        .bind (Prog.uses_lift _) fun _ => Prog.uses_pure _

theorem uses_shadowCases {allowed : EvolutionAction R → Prop} (h : ∀ messages, allowed (.complete messages))
    (candidate : EvolutionCandidateRecord) (baseline : Option (String × String × PromptPatch))
    (maxResponseBytes : Nat) (cases : List (EvolutionEvalCase R)) (baselineOutputs candidateOutputs : Outputs)
    (responseBytes : Nat) :
    (shadowCases candidate baseline maxResponseBytes cases baselineOutputs candidateOutputs
      responseBytes).Uses allowed := by
  induction cases generalizing baselineOutputs candidateOutputs responseBytes with
  | nil => exact Prog.uses_pure _
  | cons c cases ih =>
    exact .bind (uses_shadowCase h candidate baseline maxResponseBytes c responseBytes) fun _ => ih _ _ _

theorem uses_finalize [Host R] {allowed : EvolutionAction R → Prop} (candidate : EvolutionCandidateRecord)
    (hid : allowed (.newEvolutionId "evaluation")) (hrecord : ∀ draft, allowed (.recordEvaluation draft))
    (hready : ∀ details, allowed (.transitionCandidate candidate.id .evaluating .ready systemActor details))
    (hrejected : ∀ details, allowed (.transitionCandidate candidate.id .evaluating .rejected systemActor details))
    (cases : List (EvolutionEvalCase R)) (suite : Option (EvolutionBenchmarkSuite R))
    (baselineOutputs candidateOutputs : Outputs) (baselineCandidateId : Option String) :
    (engine.finalizeShadowEvaluation candidate cases suite baselineOutputs candidateOutputs
      baselineCandidateId).Uses allowed := by
  unfold EvolutionEngine.finalizeShadowEvaluation
  refine .bind (Prog.uses_lift _) fun scorecard => .bind (Prog.uses_perform hid) fun id =>
    .bind (Prog.uses_perform (hrecord _)) fun evaluation => ?_
  cases engine.gateConfig.decide scorecard with
  | ready => exact .bind (Prog.uses_perform (hready _)) fun _ => Prog.uses_pure _
  | rejected reasons => exact .bind (Prog.uses_perform (hrejected _)) fun _ => Prog.uses_pure _

theorem assesses_finalize [Host R] (candidate : EvolutionCandidateRecord) (cases : List (EvolutionEvalCase R))
    (suite : Option (EvolutionBenchmarkSuite R)) (baselineOutputs candidateOutputs : Outputs)
    (baselineCandidateId : Option String) :
    (engine.finalizeShadowEvaluation candidate cases suite baselineOutputs candidateOutputs
      baselineCandidateId).Uses Assesses :=
  uses_finalize engine candidate trivial (fun _ => trivial) (fun _ => EvolutionCandidateStatus.noConfusion)
    (fun _ => EvolutionCandidateStatus.noConfusion) cases suite baselineOutputs candidateOutputs baselineCandidateId

theorem uses_evaluateCandidate [Host R] (candidateId : String) (maxResponseBytes : Nat) :
    (engine.evaluateCandidate candidateId maxResponseBytes).Uses Assesses := by
  refine uses_locked trivial trivial (.bind (Prog.uses_perform trivial) fun _ =>
    .bind (Prog.uses_lift _) fun candidate => .bind (Prog.uses_lift _) fun _ =>
      .bind (Prog.uses_perform EvolutionCandidateStatus.noConfusion) fun _ => .attempt ?_ fun r => ?_)
  · exact .bind (Prog.uses_perform trivial) fun _ => .bind (Prog.uses_perform trivial) fun _ =>
      .bind (Prog.uses_lift _) fun _ => .bind (Prog.uses_perform trivial) fun _ =>
        .bind (uses_shadowCases (fun _ => trivial) _ _ _ _ _ _ _) fun _ => assesses_finalize engine _ _ _ _ _ _
  · cases r with
    | ok evaluation => exact trivial
    | error e =>
      exact (Prog.uses_perform EvolutionCandidateStatus.noConfusion).attempt fun _ => trivial

theorem uses_startEvalRun (candidateId : String) : (engine.startEvalRun candidateId).Uses Assesses := by
  refine .bind (Prog.uses_perform trivial) fun _ => .bind (Prog.uses_lift _) fun candidate =>
    .bind ?_ fun candidate' => .bind (Prog.uses_lift _) fun _ => .bind (Prog.uses_perform trivial) fun _ =>
      .bind (Prog.uses_perform trivial) fun _ => .bind (Prog.uses_lift _) fun _ =>
        .bind (Prog.uses_lift _) fun _ => .bind (Prog.uses_perform trivial) fun _ =>
          .bind (Prog.uses_perform EvolutionCandidateStatus.noConfusion) fun _ =>
            .bind (Prog.uses_perform trivial) fun _ => .bind (Prog.uses_perform trivial) fun _ =>
              Prog.uses_pure _
  split_ifs
  · exact .bind (Prog.uses_perform EvolutionCandidateStatus.noConfusion) fun _ =>
      .bind (Prog.uses_perform trivial) fun _ => Prog.uses_lift _
  · exact Prog.uses_pure _

theorem uses_advanceEvalRun [Host R] (candidateId : String) (maxResponseBytes : Nat) (run : EvolutionEvalRun R) :
    (engine.advanceEvalRun candidateId maxResponseBytes run).Uses Assesses := by
  refine .bind (Prog.uses_perform trivial) fun _ => .bind (Prog.uses_lift _) fun _ =>
    .bind (Prog.uses_lift _) fun c => .bind (uses_shadowCase (fun _ => trivial) _ _ _ _ _) fun _ => ?_
  dsimp only
  split_ifs
  · exact Prog.uses_perform trivial
  · exact .bind (Prog.uses_perform trivial) fun _ => .bind (assesses_finalize engine _ _ _ _ _ _) fun _ =>
      Prog.uses_perform trivial

theorem uses_runEvaluationStep [Host R] (candidateId : String) (maxResponseBytes : Nat) :
    (engine.runEvaluationStep candidateId maxResponseBytes).Uses Assesses := by
  refine .bind (Prog.uses_lift _) fun _ => uses_locked trivial trivial
    (.bind (Prog.uses_perform trivial) fun found => .bind ?_ fun run => uses_advanceEvalRun engine _ _ _)
  cases found with
  | some run => exact Prog.uses_pure _
  | none => exact uses_startEvalRun engine candidateId

/-- **Every call awaits what it may.** -/
theorem uses_program [Host R] (call : EvolutionCall R) : (engine.program call).Uses call.MayCall := by
  cases call with
  | evaluate candidateId maxResponseBytes =>
    exact .bind (uses_evaluateCandidate engine _ _) fun _ => Prog.uses_pure _
  | evaluationStep candidateId maxResponseBytes => exact uses_runEvaluationStep engine _ _
  | abandon candidateId actor reason =>
    refine .bind ?_ fun _ => Prog.uses_pure _
    refine .bind (Prog.uses_lift _) fun _ => .bind (Prog.uses_lift _) fun _ => ?_
    exact .bind (Prog.uses_lift _) fun _ => Prog.uses_perform rfl
  | approve candidateId actor reason =>
    refine .bind ?_ fun _ => Prog.uses_pure _
    refine .bind (Prog.uses_lift _) fun _ => .bind (Prog.uses_lift _) fun _ => ?_
    refine .bind (Prog.uses_perform trivial) fun _ => .bind (Prog.uses_lift _) fun _ => ?_
    refine .bind (Prog.uses_lift _) fun _ => .bind (Prog.uses_perform trivial) fun _ => ?_
    exact .bind (Prog.uses_lift _) fun _ => .bind (Prog.uses_lift _) fun _ => Prog.uses_perform rfl
  | reject candidateId expected actor details =>
    exact .bind (Prog.uses_perform rfl) fun _ => Prog.uses_pure _
  | activate candidateId actor reason =>
    refine .bind ?_ fun _ => Prog.uses_pure _
    refine .bind (Prog.uses_lift _) fun _ => .bind (Prog.uses_perform trivial) fun _ => ?_
    refine .bind (Prog.uses_lift _) fun _ => .bind (Prog.uses_lift _) fun _ => ?_
    exact .bind (Prog.uses_perform trivial) fun _ => .bind (Prog.uses_perform trivial) fun _ => Prog.uses_pure _
  | rollback actor reason =>
    refine .bind ?_ fun _ => Prog.uses_pure _
    refine .bind (Prog.uses_lift _) fun _ => .bind (Prog.uses_lift _) fun _ => ?_
    exact .bind (Prog.uses_perform trivial) fun _ => .bind (Prog.uses_perform trivial) fun _ => Prog.uses_pure _
  | create promptPatch rationale sourceTrajectoryIds evidenceFingerprint actor =>
    refine .bind ?_ fun _ => Prog.uses_pure _
    refine .bind (Prog.uses_lift _) fun _ => .bind (Prog.uses_perform trivial) fun _ => ?_
    refine .bind (Prog.uses_lift _) fun _ => .bind (Prog.uses_perform trivial) fun _ => ?_
    exact .bind (Prog.uses_lift _) fun _ => Prog.uses_perform trivial
  | upsertCase evalCase actor => exact .bind (Prog.uses_lift _) fun _ => Prog.uses_perform trivial

end

/-! ## Rely and guarantee -/

/-- Candidates, deployments and their columns stay. -/
def Persists (v v' : View (EvolutionWorld R) (EvolutionCall R) (EvolutionAction R) EvolutionAction.Resp) : Prop :=
  Frozen v.1.store v'.1.store

/-- An approval is written under a human's label, and the policy in memory is a deployed one. -/
def Requires (engine : EvolutionEngine R) (s : EvolutionStore R) : EvolutionAction R → Prop
  | .transitionCandidate _ _ .approved actor _ =>
    engine.gateConfig.requireHumanApproval = true → startsWith actor "human:" = true
  | .replacePolicy policy => ∀ p ∈ policy, Deployed s p
  | _ => True

/-- What the engine goes on with: rows that are stored. -/
def Ensures (s : EvolutionStore R) : (a : EvolutionAction R) → a.Resp → Prop
  | .getCandidate candidateId, found => ∀ r ∈ found, r.id = candidateId ∧
      ∃ c ∈ s.candidates, c.id = candidateId ∧ c.promptPatch = r.promptPatch.text
  | .activateCandidate candidateId _ _, d => ∃ d' ∈ s.deployments, d'.id = d.id ∧ d'.candidateId = candidateId
  | .rollbackActive .., result => ∀ p ∈ result.restoredPolicy, Deployed s p
  | _, _ => True

theorem requires_of_plain {engine : EvolutionEngine R} {s : EvolutionStore R} {a : EvolutionAction R}
    (h : Plain a) : Requires engine s a := by
  cases a with
  | transitionCandidate candidateId expected next actor details =>
    cases next with
    | approved => exact absurd rfl h
    | _ => trivial
  | replacePolicy policy => exact h.elim
  | _ => trivial

/-- The invariant of the views. -/
structure Promoting (engine : EvolutionEngine R)
    (v : View (EvolutionWorld R) (EvolutionCall R) (EvolutionAction R) EvolutionAction.Resp) : Prop where
  stacked : Stacked v.1.store
  runtime : ∀ p ∈ v.1.policyRuntime, Deployed v.1.store p
  deployed : ∀ d ∈ v.1.store.deployments, ∃ x ∈ v.2, activated? x = some (d.candidateId, d.id)
  backed : (∀ x ∈ v.2, Undisturbed x) → Backed engine v.1.store
  promoted : (∀ x ∈ v.2, Undisturbed x) → ∀ x ∈ v.2, engine.Promotes x

section

variable {engine : EvolutionEngine R}

/-! ### The operators' programs -/

theorem startsWith_human {actor : EvolutionActor} {label : String} (ha : actor.isHuman = true)
    (h : actor.auditLabel = .ok label) : startsWith label "human:" = true := by
  cases actor with
  | system id => cases ha
  | human id =>
    simp only [EvolutionActor.auditLabel, bind_eq_ok, pure_eq_ok] at h
    obtain ⟨_, -, _, -, rfl⟩ := h
    simp [startsWith, EvolutionActor.kind, String.toList_append]

theorem isHuman_of_required {actor : EvolutionActor} {u : Unit}
    (h : engine.requireHumanActor actor = .ok u) (hrequire : engine.gateConfig.requireHumanApproval = true) :
    actor.isHuman = true := by
  have hcond := ensure_eq_ok.mp h
  simpa [hrequire] using hcond

theorem uses_approveCandidate (candidateId : String) (actor : EvolutionActor) (reason : String) :
    (engine.approveCandidate candidateId actor reason).Uses fun a => ∀ s, Requires engine s a := by
  refine Prog.uses_lift_bind fun _ hactor => .bind (Prog.uses_lift _) fun _ =>
    .bind (Prog.uses_perform fun _ => trivial) fun _ => .bind (Prog.uses_lift _) fun latest =>
      .bind (Prog.uses_lift _) fun _ => .bind (Prog.uses_perform fun _ => trivial) fun _ =>
        .bind (Prog.uses_lift _) fun _ => Prog.uses_lift_bind fun label hlabel => ?_
  exact Prog.uses_perform fun _ hrequire => startsWith_human (isHuman_of_required hactor hrequire) hlabel

section

variable {v : View (EvolutionWorld R) (EvolutionCall R) (EvolutionAction R) EvolutionAction.Resp}

/-- What a thread's program has to meet. -/
abbrev Meets {α : Type} (engine : EvolutionEngine R) (p : EngineM R α)
    (v : View (EvolutionWorld R) (EvolutionCall R) (EvolutionAction R) EvolutionAction.Resp) : Prop :=
  p.Holds Persists (fun v a => Requires engine v.1.store a) (fun v a r => Ensures v.1.store a r)
    (fun _ _ => True) v

theorem persists_trans (u v w : View (EvolutionWorld R) (EvolutionCall R) (EvolutionAction R) EvolutionAction.Resp)
    (h : Persists u v) (h' : Persists v w) : Persists u w := Frozen.trans h h'

theorem persists_refl (v : View (EvolutionWorld R) (EvolutionCall R) (EvolutionAction R) EvolutionAction.Resp) :
    Persists v v := Frozen.refl _

theorem meets_of_plain {α : Type} {p : EngineM R α} (h : p.Uses Plain) : Meets engine p v := by
  have hpre : ∀ (v : View (EvolutionWorld R) (EvolutionCall R) (EvolutionAction R) EvolutionAction.Resp) a,
      Plain a → Requires engine v.1.store a := fun _ _ => requires_of_plain
  exact Prog.holds_of_uses hpre h

theorem Meets.discard {α : Type} {p : EngineM R α} (h : Meets engine p v) :
    Meets engine (do let _ ← p) v :=
  Prog.Holds.bind persists_refl persists_trans h fun _ _ _ _ => fun _ _ => trivial

theorem meets_activateCandidate (candidateId : String) (actor : EvolutionActor) (reason : String) :
    Meets engine (engine.activateCandidate candidateId actor reason) v := by
  refine Prog.holds_lift_bind fun _ _ => ?_
  refine Prog.holds_perform_bind persists_trans (fun _ _ => trivial) fun v₁ found _ hfound => ?_
  refine Prog.holds_lift_bind fun candidate hcandidate => ?_
  obtain ⟨hid, c, hc, hcid, hp⟩ := hfound candidate (context_eq_ok.mp hcandidate)
  refine Prog.holds_lift_bind fun label _ => ?_
  refine Prog.holds_perform_bind persists_trans (fun _ _ => trivial) fun v₂ d hv₂ hd => ?_
  obtain ⟨d', hd', hdid, hdc⟩ := hd
  obtain ⟨c', hc', hcid', hp'⟩ := Frozen.candidate hv₂ hc
  have hdeployed : Deployed v₂.1.store ⟨d.id, candidate.id, candidate.promptPatch⟩ :=
    ⟨⟨d', hd', hdid, hdc.trans hid.symm⟩, c', hc', (hcid'.trans hcid).trans hid.symm, hp'.trans hp⟩
  refine Prog.holds_perform_bind persists_trans (fun v₃ hv₃ p hpm => ?_)
    fun _ _ _ _ => fun _ _ => trivial
  cases Option.mem_some_iff.mp hpm
  exact hdeployed.mono hv₃

theorem meets_rollbackActive (actor : EvolutionActor) (reason : String) :
    Meets engine (engine.rollbackActive actor reason) v := by
  refine Prog.holds_lift_bind fun _ _ => ?_
  refine Prog.holds_lift_bind fun label _ => ?_
  refine Prog.holds_perform_bind persists_trans (fun _ _ => trivial) fun v₁ result _ hresult => ?_
  refine Prog.holds_perform_bind persists_trans (fun v₂ hv₂ p hpm => (hresult p hpm).mono hv₂)
    fun _ _ _ _ => fun _ _ => trivial

/-- The calls that an operator decides by. -/
def EvolutionCall.decides : EvolutionCall R → Bool
  | .approve .. | .activate .. | .rollback .. => true
  | _ => false

theorem plain_of_mayCall {call : EvolutionCall R} (hc : call.decides = false) {a : EvolutionAction R}
    (ha : call.MayCall a) : Plain a := by
  cases a with
  | transitionCandidate candidateId expected next actor details =>
    rintro rfl
    cases call with
    | evaluate | evaluationStep => exact ha rfl
    | approve => cases hc
    | _ => cases ha
  | replacePolicy policy =>
    cases call with
    | activate | rollback => cases hc
    | _ => exact ha
  | _ => trivial

/-- **Every program of the engine meets its specification.** -/
theorem meets_program [Host R] (call : EvolutionCall R) : Meets engine (engine.program call) v := by
  cases call with
  | approve candidateId actor reason =>
    exact Prog.holds_of_uses (fun _ _ ha => ha _)
      (.bind (uses_approveCandidate candidateId actor reason) fun _ => Prog.uses_pure _)
  | activate candidateId actor reason =>
    exact Meets.discard (meets_activateCandidate candidateId actor reason)
  | rollback actor reason =>
    exact Meets.discard (meets_rollbackActive actor reason)
  | _ => exact meets_of_plain ((uses_program engine _).imp fun _ => plain_of_mayCall rfl)

end

end

/-! ## The invariant of a call -/

section

variable [Host R] {engine : EvolutionEngine R} {env : EvolutionEnv} {i : Nat} {w w' : EvolutionWorld R}

/-- Only `replacePolicy` writes the policy in memory. -/
theorem policyRuntime_perform {a : EvolutionAction R} {answer : Except String a.Resp}
    (h : w.perform env i a = some (answer, w')) :
    w'.policyRuntime = w.policyRuntime ∨ ∃ policy, a = .replacePolicy policy ∧ w'.policyRuntime = policy := by
  have hcommit : ∀ {α : Type} (tx : Except String (EvolutionStore R))
      (read : EvolutionStore R → Except String α), (w.commit tx read).2.policyRuntime = w.policyRuntime := by
    intro α tx read
    cases tx <;> rfl
  have hcommitWith : ∀ {α : Type} (tx : Except String (α × EvolutionStore R)),
      (w.commitWith tx).2.policyRuntime = w.policyRuntime := by
    intro α tx
    cases tx <;> rfl
  cases a with
  | lockEvaluation =>
    simp only [EvolutionWorld.perform] at h
    split_ifs at h
    cases Option.some.inj h
    exact .inl rfl
  | replacePolicy policy =>
    cases congrArg Prod.snd (Option.some.inj h)
    exact .inr ⟨policy, rfl, rfl⟩
  | activateCandidate candidateId actor reason =>
    cases congrArg Prod.snd (Option.some.inj h)
    exact .inl (hcommitWith _)
  | rollbackActive actor reason =>
    cases congrArg Prod.snd (Option.some.inj h)
    exact .inl (hcommitWith _)
  | createCandidate _ _ | transitionCandidate _ _ _ _ _ | upsertEvalCase _ _ | recordEvaluation _
    | upsertEvalRun _ =>
    cases congrArg Prod.snd (Option.some.inj h)
    exact .inl (hcommit _ _)
  | _ =>
    cases congrArg Prod.snd (Option.some.inj h)
    exact .inl rfl

theorem activateCandidate_of_activated? {c : EvolutionCall R} {a : EvolutionAction R}
    {answer : Except String a.Resp} {candidateId id : String}
    (h : w.perform env i a = some (answer, w')) (hx : activated? ⟨i, c, w, a, answer⟩ = some (candidateId, id)) :
    ∃ actor reason d, d.id = id ∧ w.store.activateCandidate candidateId actor reason env.freshId env.now
      = .ok (d, w'.store) := by
  cases a with
  | activateCandidate candidateId' actor reason =>
    simp only [EvolutionWorld.perform, EvolutionWorld.commitWith, Option.some.injEq] at h
    split at h
    · cases h
      cases hx
    · rename_i d store hd
      cases h
      cases hx
      exact ⟨actor, reason, d, rfl, hd⟩
  | _ => cases hx

/-- A new deployment is the one that the call activates. -/
theorem activated?_of_new {c : EvolutionCall R} {a : EvolutionAction R} {answer : Except String a.Resp}
    (h : w.perform env i a = some (answer, w')) {d : EvolutionDeploymentRecord}
    (hd : d ∈ w'.store.deployments) (hnew : ∀ x ∈ w.store.deployments, x.id ≠ d.id) :
    activated? ⟨i, c, w, a, answer⟩ = some (d.candidateId, d.id) := by
  have hstore := perform_store h
  cases ht : a.txn env with
  | none =>
    rw [ht] at hstore
    rw [show w'.store = w.store from hstore] at hd
    exact absurd rfl (hnew d hd)
  | some t =>
    rw [ht] at hstore
    rw [show w'.store = w.store.exec t from hstore] at hd
    have hnew' : ¬ ∀ x ∈ (w.store.exec t).deployments, x.id ≠ d.id := fun hall => hall d hd rfl
    obtain ⟨candidateId, actor, reason, now, d₀, rfl, hact⟩ := activation_of_new hnew hnew'
    cases a with
    | activateCandidate candidateId' actor' reason' =>
      simp only [EvolutionAction.txn, Option.some.injEq, EvolutionTxn.activateCandidate.injEq] at ht
      obtain ⟨rfl, rfl, rfl, hid, rfl⟩ := ht
      have hact' : w.store.activateCandidate candidateId' actor' reason' env.freshId env.now
          = .ok (d₀, w.store.exec (.activateCandidate candidateId' actor' reason' d.id env.now)) := hid ▸ hact
      simp only [EvolutionWorld.perform, EvolutionWorld.commitWith, hact', Option.some.injEq] at h
      cases h
      obtain ⟨hd₀, hfresh, -, -, event, hs⟩ := activateCandidate_ok hact
      rw [hs] at hd
      rcases List.mem_append.mp hd with hd | hd
      · exact absurd rfl (hnew d hd)
      · rw [List.mem_singleton.mp hd]
        simp [activated?, hd₀]
    | _ => cases ht

/-- What the answer of a call says about the store. -/
theorem ensures_perform (hs : Stacked w.store) {a : EvolutionAction R} {r : a.Resp}
    (h : w.perform env i a = some (.ok r, w')) : Ensures w'.store a r := by
  obtain ⟨-, hfrozen⟩ := stacked_perform hs h
  cases a with
  | getCandidate candidateId =>
    simp only [EvolutionWorld.perform, Option.some.injEq, Prod.mk.injEq] at h
    obtain ⟨hfound, rfl⟩ := h
    intro record hrecord
    rw [Option.mem_def.mp hrecord, getCandidate] at hfound
    split at hfound
    · cases hfound
    · rename_i c hc
      obtain ⟨record', hrec, he⟩ := fmap_eq_ok.mp hfound
      cases Option.some.inj he
      have hcm := List.mem_of_find?_eq_some hc
      have hcid : c.id = candidateId := by simpa using List.find?_some hc
      simp only [EvolutionCandidateRow.record, bind_eq_ok, pure_eq_ok] at hrec
      obtain ⟨p, hp, rfl⟩ := hrec
      exact ⟨hcid, c, hcm, hcid, promptPatch_eq hs hcm hp⟩
  | activateCandidate candidateId actor reason =>
    simp only [EvolutionWorld.perform, EvolutionWorld.commitWith, Option.some.injEq] at h
    split at h
    · cases h
    · rename_i d store hd
      cases h
      obtain ⟨rfl, -, -, -, event, rfl⟩ := activateCandidate_ok hd
      exact ⟨_, List.mem_append_right _ (List.mem_singleton_self _), rfl, rfl⟩
  | rollbackActive actor reason =>
    simp only [EvolutionWorld.perform, EvolutionWorld.commitWith, Option.some.injEq] at h
    split at h
    · cases h
    · rename_i result store hresult
      cases h
      intro p hp
      obtain ⟨d, event, -, -, -, -, hrestored, -⟩ := rollbackActive_ok hresult
      rw [Option.mem_def.mp hp] at hrestored
      exact (deployed_of_restored hs hrestored).mono hfrozen
  | _ => trivial

omit [Host R] in
theorem keepsBacked {c : EvolutionCall R} {a : EvolutionAction R} {answer : Except String a.Resp}
    (hpre : Requires engine w.store a) (hx : Undisturbed ⟨i, c, w, a, answer⟩) :
    KeepsBacked engine w.store a := by
  cases a with
  | recordEvaluation draft => exact hx
  | transitionCandidate candidateId expected next actor details =>
    intro hnext
    subst hnext
    exact ⟨hpre, hx⟩
  | _ => trivial

/-- **A call keeps the invariant.** -/
theorem promoting_perform {log : List (EvolutionEntry R)} {c : EvolutionCall R} {a : EvolutionAction R}
    {answer : Except String a.Resp} (hinv : Promoting engine (w, log)) (hpre : Requires engine w.store a)
    (h : w.perform env i a = some (answer, w')) :
    Promoting engine (w', log ++ [⟨i, c, w, a, answer⟩]) := by
  obtain ⟨hstacked, hfrozen⟩ := stacked_perform hinv.stacked h
  have hold : (∀ x ∈ log ++ [(⟨i, c, w, a, answer⟩ : EvolutionEntry R)], Undisturbed x) →
      Backed engine w.store ∧ KeepsBacked engine w.store a := by
    intro hall
    have hlast := hall _ (List.mem_append_right _ (List.mem_singleton_self _))
    exact ⟨hinv.backed fun x hx => hall x (List.mem_append_left _ hx), keepsBacked hpre hlast⟩
  refine ⟨hstacked, fun p hp => ?_, fun d hd => ?_, fun hall => ?_, fun hall x hx => ?_⟩
  · rcases policyRuntime_perform h with hsame | ⟨policy, rfl, hpolicy⟩
    · exact (hinv.runtime p (hsame ▸ hp)).mono hfrozen
    · exact (hpre p (hpolicy ▸ hp)).mono hfrozen
  · by_cases hex : ∃ d₀ ∈ w.store.deployments, d₀.id = d.id
    · obtain ⟨d₀, hd₀, hid⟩ := hex
      obtain ⟨d₁, hd₁, hid₁, hc₁, -⟩ := hfrozen.deployment hd₀
      have hdd : d₁ = d := eq_of_key_eq hstacked.deploymentIds hd₁ hd (hid₁.trans hid)
      obtain ⟨x, hx, hactivated⟩ := hinv.deployed d₀ hd₀
      refine ⟨x, List.mem_append_left _ hx, ?_⟩
      rw [hactivated, ← hdd, hc₁, hid₁]
    · have hnew : ∀ x ∈ w.store.deployments, x.id ≠ d.id := fun x hx he => hex ⟨x, hx, he⟩
      exact ⟨_, List.mem_append_right _ (List.mem_singleton_self _), activated?_of_new h hd hnew⟩
  · rw [perform_store h]
    exact (hold hall).1.call (hold hall).2 env
  · rcases List.mem_append.mp hx with hx | hx
    · exact hinv.promoted (fun y hy => hall y (List.mem_append_left _ hy)) x hx
    · rw [List.mem_singleton.mp hx]
      rintro ⟨candidateId, id⟩ hactivated
      obtain ⟨actor, reason, d, -, hd⟩ := activateCandidate_of_activated? h hactivated
      exact (hold hall).1.sanctions hd

omit [Host R] in
theorem Promoting.world {log : List (EvolutionEntry R)} (h : Promoting engine (w, log))
    (hstore : w'.store = w.store) (hruntime : ∀ p ∈ w'.policyRuntime, Deployed w.store p) :
    Promoting engine (w', log) := by
  obtain ⟨hstacked, -, hdeployed, hbacked, hpromoted⟩ := h
  dsimp only at hstacked hdeployed hbacked
  rw [← hstore] at hstacked hruntime hdeployed hbacked
  exact ⟨hstacked, hruntime, hdeployed, hbacked, hpromoted⟩

theorem sound (engine : EvolutionEngine R) :
    Sound engine.system Persists (fun _ _ v a => Requires engine v.1.store a)
      (fun _ _ v a r => Ensures v.1.store a r) (Promoting engine) where
  refl := persists_refl
  trans := persists_trans
  program v call _ := meets_program call
  perform hinv hpre h :=
    ⟨promoting_perform hinv hpre h, (stacked_perform hinv.stacked h).2, fun r hr => by
      subst hr
      exact ensures_perform hinv.stacked h⟩
  release {w log i} hinv := by
    have hrelease : (w.release i).store = w.store ∧ (w.release i).policyRuntime = w.policyRuntime := by
      unfold EvolutionWorld.release
      split_ifs <;> exact ⟨rfl, rfl⟩
    refine ⟨hinv.world hrelease.1 fun p hp => hinv.runtime p (hrelease.2 ▸ hp), ?_⟩
    exact (congrArg (Frozen w.store) hrelease.1).mpr (Frozen.refl _)
  restart {w log suite w'} hinv h := by
    simp only [EvolutionEngine.system, EvolutionWorld.restart] at h
    split at h
    · rename_i policy _ hpolicy _
      cases h
      refine hinv.world rfl fun p hp => ?_
      have hsome : policy = some p := hp
      rw [hsome] at hpolicy
      exact deployed_of_activePolicy hinv.stacked hpolicy
    · cases h

omit [Host R] in
theorem promoting_initial (engine : EvolutionEngine R) : Promoting engine ((.initial : EvolutionWorld R), []) where
  stacked := stacked_empty
  runtime := by simp [EvolutionWorld.initial]
  deployed := by simp [EvolutionWorld.initial, EvolutionStore.empty]
  backed _ := by simp [Backed, EvolutionWorld.initial, EvolutionStore.empty]
  promoted _ := by simp

/-! ## Promotion -/

/-- **Human-gated promotion.** In an interleaving in which no evaluation is recorded of an approved
candidate and every approval written finds its evaluation still the latest, every activation finds a latest
evaluation that is ready, was computed against the active policy and is the one a human approved; every
deployment is one of these activations, and the policy in memory is one of these deployments. -/
theorem promotion_gated (engine : EvolutionEngine R) (labels : List (EvolutionStep R))
    (h : ∀ x ∈ (Machine.run (step engine.system) (.initial .initial) labels).log, Undisturbed x) :
    (∀ x ∈ (Machine.run (step engine.system) (.initial .initial) labels).log, engine.Promotes x) ∧
    (∀ d ∈ (Machine.run (step engine.system) (.initial .initial) labels).world.store.deployments,
      ∃ x ∈ (Machine.run (step engine.system) (.initial .initial) labels).log,
        activated? x = some (d.candidateId, d.id)) ∧
    ∀ p ∈ (Machine.run (step engine.system) (.initial .initial) labels).world.policyRuntime,
      ∃ d ∈ (Machine.run (step engine.system) (.initial .initial) labels).world.store.deployments,
        d.id = p.deploymentId ∧ d.candidateId = p.candidateId := by
  have hrun := (sound engine).run (promoting_initial engine) labels
  refine ⟨hrun.promoted h, hrun.deployed, fun p hp => ?_⟩
  obtain ⟨hd, -⟩ := hrun.runtime p hp
  exact hd

end

/-! ## A sample -/

namespace EvolutionSample

/-- Exact arithmetic, and the digests of the sample's outputs. -/
instance : Host Rat where
  ofInt n := n
  add := (· + ·)
  sub := (· - ·)
  div := (· / ·)
  lt a b := decide (a < b)
  le a b := decide (a ≤ b)
  isFinite _ := true
  fixed6 q := toString q.num ++ "/" ++ toString q.den
  json q := toString q.num ++ "/" ++ toString q.den
  isJson _ := false
  sha256Hex output :=
    if output = "ok" then "2689367b205c16ce32ed4200942b8b8b1e262dfc70d9bc9fbc77c49699a4f1df"
    else "9390298f3fb0c5b160498935d79cb139aef28e1c47358b4bbba61862b9c26e59"

/-- A gate with the default thresholds, for a suite of any size. -/
def engine : EvolutionEngine Rat where
  gateConfig :=
    { minEvalCases := 1
      minCandidateScore := 4 / 5
      minScoreDelta := 1 / 20
      maxRegressions := 0
      maxPromptPatchChars := 4000
      requireHumanApproval := true }
  modelName := "model"

def evalCase (id : String) : EvolutionEvalCase Rat where
  id
  name := id
  input := "say ok"
  assertions := { requiredSubstrings := ["ok"] }
  weight := 1
  enabled := true

/-- The provider follows a policy and fails without one; every call has an id of its own. -/
def env (i : Nat) : EvolutionEnv where
  now := i
  freshId := "id-" ++ toString i
  reply messages := .ok (if messages.length = 2 then "ok" else "no")

/-- The call of thread `i`, from its start to its end. -/
def whole (i : Nat) (call : EvolutionCall Rat) : List (EvolutionStep Rat) :=
  .start call :: List.replicate 16 (.advance i (env i))

def ana : EvolutionActor := .human "ana"

/-- The operator abandons an evaluation whose cursor stays, evaluates again and approves; then the old
cursor is taken up. -/
def staleCursor : List (EvolutionStep Rat) :=
  whole 0 (.create "be brief" "shorter answers" [] none ana)
    ++ whole 1 (.upsertCase (evalCase "a") ana)
    ++ whole 2 (.upsertCase (evalCase "b") ana)
    ++ whole 3 (.evaluationStep "id-0" 1000)
    ++ whole 4 (.abandon "id-0" ana "stuck")
    ++ whole 5 (.evaluate "id-0" 1000)
    ++ whole 6 (.approve "id-0" ana "reviewed")
    ++ whole 7 (.evaluationStep "id-0" 1000)
    ++ whole 8 (.activate "id-0" ana "rollout")

/-- The usual order. -/
def reviewed : List (EvolutionStep Rat) :=
  whole 0 (.create "be brief" "shorter answers" [] none ana)
    ++ whole 1 (.upsertCase (evalCase "a") ana)
    ++ whole 2 (.evaluationStep "id-0" 1000)
    ++ whole 3 (.approve "id-0" ana "reviewed")
    ++ whole 4 (.activate "id-0" ana "rollout")
    ++ whole 5 (.rollback ana "regressed")

end EvolutionSample

open EvolutionSample

/-- A candidate is evaluated, approved and activated, and the activation rolled back. -/
theorem promotion_gated_reviewed :
    (∀ x ∈ (Machine.run (step engine.system) (.initial .initial) reviewed).log, Undisturbed x) ∧
    (∀ x ∈ (Machine.run (step engine.system) (.initial .initial) reviewed).log, engine.Promotes x) := by
  have h : ∀ x ∈ (Machine.run (step engine.system) (.initial .initial) reviewed).log, Undisturbed x := by
    decide +kernel
  exact ⟨h, (promotion_gated engine reviewed h).1⟩

/-- The activation takes an evaluation that no one approved. -/
theorem promotion_takes_unapproved :
    ¬ ∀ x ∈ (Machine.run (step engine.system) (.initial .initial) staleCursor).log, engine.Promotes x := by
  decide +kernel

end Xiaomaolv
