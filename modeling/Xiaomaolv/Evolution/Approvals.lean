import Xiaomaolv.Evolution.Deployments
import Xiaomaolv.Evolution.Engine

/-!
# Approvals of evaluations

* `EvolutionEngine.Sanctions`, `EvolutionEngine.Promotes`: what an activation has to find.
* `Deployed`: a policy that belongs to a stored deployment.
* `Backed`: approved candidates have a human's approval of their latest evaluation; **`Backed.call`**: an
  atomic call keeps it under `KeepsBacked`, which an `Undisturbed` entry grants.
* `stacked_perform`: an atomic call keeps the stack of deployments.
-/

namespace Xiaomaolv

open Interleave Table EvolutionStore

variable {R : Type}

/-- A call that was performed on the engine. -/
abbrev EvolutionEntry (R : Type) :=
  Entry (EvolutionWorld R) (EvolutionCall R) (EvolutionAction R) EvolutionAction.Resp

abbrev EvolutionPool (R : Type) :=
  Pool (EvolutionWorld R) (EvolutionCall R) (EvolutionAction R) EvolutionAction.Resp

abbrev EvolutionStep (R : Type) :=
  Step (EvolutionCall R) EvolutionEnv (Option (EvolutionBenchmarkSuite R))

/-! ## Sanctioned activations -/

/-- The event of an approval of the evaluation by a human. -/
def isApprovalOf (candidateId evaluationId : String) (event : EvolutionAuditEvent) : Bool :=
  event.candidateId = some candidateId && event.eventType = "candidate_approved" &&
    startsWith event.actor "human:" &&
    event.details.get "evaluation_id" = some (.string evaluationId)

namespace EvolutionEngine

/-- The candidate's latest evaluation is ready, was computed against the active policy and, where the gate
requires it, is the one that a human approved. -/
def Sanctions (engine : EvolutionEngine R) (s : EvolutionStore R) (candidateId : String) : Prop :=
  ∃ e, s.latestEvaluation? candidateId = some e ∧ e.decision = .ready ∧
    e.baselineCandidateId = s.activeCandidateId? ∧
    (engine.gateConfig.requireHumanApproval = true →
      s.auditEvents.any (isApprovalOf candidateId e.id) = true)

instance (engine : EvolutionEngine R) (s : EvolutionStore R) (candidateId : String) :
    Decidable (engine.Sanctions s candidateId) :=
  match h : s.latestEvaluation? candidateId with
  | none => isFalse fun ⟨_, he, _⟩ => Option.some_ne_none _ (he.symm.trans h)
  | some e =>
    decidable_of_iff (e.decision = .ready ∧ e.baselineCandidateId = s.activeCandidateId? ∧
        (engine.gateConfig.requireHumanApproval = true →
          s.auditEvents.any (isApprovalOf candidateId e.id) = true))
      ⟨fun hs => ⟨e, h, hs⟩, fun ⟨_, he, hs⟩ => Option.some.inj (h.symm.trans he) ▸ hs⟩

end EvolutionEngine

/-- The candidate and the deployment of a successful activation. -/
def activated? (x : EvolutionEntry R) : Option (String × String) :=
  match x.action, x.answer with
  | .activateCandidate candidateId _ _, .ok d => some (candidateId, d.id)
  | _, _ => none

/-- A successful activation is sanctioned by the state that it finds. -/
def EvolutionEngine.Promotes (engine : EvolutionEngine R) (x : EvolutionEntry R) : Prop :=
  ∀ activation ∈ activated? x, engine.Sanctions x.before.store activation.1

instance (engine : EvolutionEngine R) (x : EvolutionEntry R) : Decidable (engine.Promotes x) :=
  inferInstanceAs (Decidable (∀ activation ∈ activated? x, engine.Sanctions x.before.store activation.1))

/-- The evaluation recorded is of a candidate that is not approved, and the approval written finds the
evaluation that it read still the latest. -/
def Undisturbed (x : EvolutionEntry R) : Prop :=
  match x.action with
  | .recordEvaluation draft =>
    ∀ c ∈ x.before.store.candidates, c.id = draft.candidateId → c.status ≠ .approved
  | .transitionCandidate candidateId _ .approved _ details =>
    details.get "evaluation_id"
      = (x.before.store.latestEvaluation? candidateId).map fun e => .string e.id
  | _ => True

instance (x : EvolutionEntry R) : Decidable (Undisturbed x) := by
  unfold Undisturbed
  split <;> infer_instance

/-! ## The invariant -/

/-- A policy in memory is that of a stored deployment and of its candidate. -/
def Deployed (s : EvolutionStore R) (policy : ActiveEvolutionPolicy) : Prop :=
  (∃ d ∈ s.deployments, d.id = policy.deploymentId ∧ d.candidateId = policy.candidateId) ∧
    ∃ c ∈ s.candidates, c.id = policy.candidateId ∧ c.promptPatch = policy.promptPatch.text

theorem Deployed.mono {s s' : EvolutionStore R} (hf : Frozen s s') {policy : ActiveEvolutionPolicy}
    (h : Deployed s policy) : Deployed s' policy := by
  obtain ⟨⟨d, hd, hid, hcand⟩, c, hc, hcid, hp⟩ := h
  obtain ⟨d', hd', hid', hcand', -⟩ := hf.deployment hd
  obtain ⟨c', hc', hcid', hp'⟩ := hf.candidate hc
  exact ⟨⟨d', hd', hid'.trans hid, hcand'.trans hcand⟩, c', hc', hcid'.trans hcid, hp'.trans hp⟩

theorem promptPatch_eq {s : EvolutionStore R} (hs : Stacked s) {c : EvolutionCandidateRow}
    (hc : c ∈ s.candidates) {p : PromptPatch}
    (hp : PromptPatch.new c.promptPatch absoluteMaxPromptPatchChars = .ok p) : c.promptPatch = p.text := by
  obtain ⟨q, hq⟩ := hs.patches c hc
  rw [hq, PromptPatch.new_text] at hp
  rw [hq, Except.ok.inj hp]

theorem deployed_of_policy? {s : EvolutionStore R} (hs : Stacked s) {id : String}
    {policy : ActiveEvolutionPolicy} (h : s.policy? id = .ok (some policy)) : Deployed s policy := by
  unfold EvolutionStore.policy? at h
  split at h
  · cases h
  · rename_i d hd
    obtain ⟨hdm, -⟩ := deployment?_eq_some hd
    split_ifs at h
    · cases h
    · split at h
      · cases h
      · rename_i c hc
        have hcm := List.mem_of_find?_eq_some hc
        have hcid : c.id = d.candidateId := by simpa using List.find?_some hc
        obtain ⟨p, hp, he⟩ := bind_eq_ok.mp h
        cases Option.some.inj (Except.ok.inj he)
        exact ⟨⟨d, hdm, rfl, rfl⟩, c, hcm, hcid, promptPatch_eq hs hcm hp⟩

theorem deployed_of_restored {s : EvolutionStore R} (hs : Stacked s) {previous : Option String}
    {policy : ActiveEvolutionPolicy} (h : s.restoredPolicy previous = .ok (some policy)) :
    Deployed s policy := by
  cases previous with
  | none => cases h
  | some id =>
    simp only [restoredPolicy, bind_eq_ok, fmap_eq_ok, context_eq_ok] at h
    obtain ⟨found, hfound, p, rfl, hp⟩ := h
    cases Option.some.inj hp
    exact deployed_of_policy? hs hfound

theorem deployed_of_activePolicy {s : EvolutionStore R} (hs : Stacked s) {policy : ActiveEvolutionPolicy}
    (h : s.activePolicy = .ok (some policy)) : Deployed s policy := by
  unfold activePolicy at h
  split at h
  · cases h
  · exact deployed_of_policy? hs h

/-- Every approved candidate has a latest evaluation, approved by a human where the gate requires it. -/
def Backed (engine : EvolutionEngine R) (s : EvolutionStore R) : Prop :=
  ∀ c ∈ s.candidates, c.status = .approved → engine.gateConfig.requireHumanApproval = true →
    ∀ e ∈ s.latestEvaluation? c.id, s.auditEvents.any (isApprovalOf c.id e.id) = true

section

variable {engine : EvolutionEngine R} {s s' : EvolutionStore R}

theorem Backed.congr (h : Backed engine s)
    (hc : ∀ c ∈ s'.candidates, c.status = .approved → ∃ c₀ ∈ s.candidates, c₀.id = c.id ∧ c₀.status = .approved)
    (he : s'.evaluations = s.evaluations) (ha : s.auditEvents ⊆ s'.auditEvents) : Backed engine s' := by
  intro c hcm hstatus hrequire e hlatest
  obtain ⟨c₀, hc₀, hid, hstatus₀⟩ := hc c hcm hstatus
  have hlatest₀ : e ∈ s.latestEvaluation? c₀.id := by
    rw [hid]
    unfold latestEvaluation? at hlatest ⊢
    rwa [he] at hlatest
  obtain ⟨event, hevent, happroval⟩ := List.any_eq_true.mp (h c₀ hc₀ hstatus₀ hrequire e hlatest₀)
  exact List.any_eq_true.mpr ⟨event, ha hevent, hid ▸ happroval⟩

/-- What a transition to `approved` has to come with. -/
def ApprovesLatest (engine : EvolutionEngine R) (s : EvolutionStore R) (candidateId actor : String)
    (details : Value) : Prop :=
  (engine.gateConfig.requireHumanApproval = true → startsWith actor "human:" = true) ∧
    details.get "evaluation_id" = (s.latestEvaluation? candidateId).map fun e => .string e.id

theorem Backed.transition (h : Backed engine s) {candidateId actor : String}
    {expected next : EvolutionCandidateStatus} {details : Value}
    (hnext : next = .approved → ApprovesLatest engine s candidateId actor details)
    (ht : s.transitionCandidate candidateId expected next actor details = .ok s') : Backed engine s' := by
  obtain ⟨-, -, rfl⟩ := transitionCandidate_ok ht
  by_cases hne : next = .approved
  · obtain ⟨hactor, hdetails⟩ := hnext hne
    subst hne
    intro c hcm hstatus hrequire e hlatest
    have hlatest₀ : s.latestEvaluation? c.id = some e := hlatest
    by_cases hid : c.id = candidateId
    · -- The new event names the latest evaluation.
      subst hid
      rw [hlatest₀] at hdetails
      refine List.any_eq_true.mpr ⟨_, List.mem_append_right _ (List.mem_singleton_self _), ?_⟩
      simp [isApprovalOf, EvolutionCandidateStatus.transitionEventType, hactor hrequire, hdetails]
    · obtain ⟨c₀, hc₀, rfl⟩ := mem_updateWhere.mp hcm
      have hne : ¬ (c₀.id = candidateId ∧ c₀.status = expected) := by
        rintro ⟨hid', hst⟩
        refine hid ?_
        rw [if_pos (by simp [hid', hst])]
        exact hid'
      rw [if_neg (by simpa using hne)] at hstatus hlatest₀ ⊢
      obtain ⟨event, hevent, happroval⟩ :=
        List.any_eq_true.mp (h c₀ hc₀ hstatus hrequire e hlatest₀)
      exact List.any_eq_true.mpr ⟨event, List.mem_append_left _ hevent, happroval⟩
  · refine h.congr (fun c hcm hstatus => ?_) rfl (List.subset_append_left _ _)
    obtain ⟨c₀, hc₀, rfl⟩ := mem_updateWhere.mp hcm
    split_ifs at hstatus ⊢ with hif
    · exact absurd hstatus hne
    · exact ⟨c₀, hc₀, rfl, hstatus⟩

theorem latestEvaluation?_append {e : EvolutionEvaluationRecord R} {candidateId : String}
    (h : e.candidateId ≠ candidateId) (he : s'.evaluations = s.evaluations ++ [e]) :
    s'.latestEvaluation? candidateId = s.latestEvaluation? candidateId := by
  have hnil : [e].filter (fun x => x.candidateId = candidateId) = [] := by simp [h]
  unfold latestEvaluation?
  rw [he, List.filter_append, hnil, List.append_nil]

theorem Backed.recordEvaluation [Host R] (h : Backed engine s) {draft : EvolutionEvaluationDraft R} {now : Int}
    (hfree : ∀ c ∈ s.candidates, c.id = draft.candidateId → c.status ≠ .approved)
    (ht : s.recordEvaluation draft now = .ok s') : Backed engine s' := by
  obtain ⟨event, rfl⟩ := recordEvaluation_ok ht
  intro c hcm hstatus hrequire e hlatest
  have hother : draft.candidateId ≠ c.id := fun he => hfree c hcm he.symm hstatus
  rw [latestEvaluation?_append (e := { draft with createdAt := now }) hother rfl] at hlatest
  obtain ⟨event', hevent, happroval⟩ := List.any_eq_true.mp (h c hcm hstatus hrequire e hlatest)
  exact List.any_eq_true.mpr ⟨event', List.mem_append_left _ hevent, happroval⟩

/-- What the transaction of a call needs to keep approvals backed. -/
def KeepsBacked (engine : EvolutionEngine R) (s : EvolutionStore R) : EvolutionAction R → Prop
  | .recordEvaluation draft => ∀ c ∈ s.candidates, c.id = draft.candidateId → c.status ≠ .approved
  | .transitionCandidate candidateId _ next actor details =>
    next = .approved → ApprovesLatest engine s candidateId actor details
  | _ => True

/-- **A call keeps approvals backed.** -/
theorem Backed.call [Host R] (h : Backed engine s) {a : EvolutionAction R} (ha : KeepsBacked engine s a)
    (env : EvolutionEnv) : Backed engine ((a.txn env).elim s s.exec) := by
  cases a with
  | createCandidate draft actor =>
    refine exec_keeps h fun s' ht => ?_
    obtain ⟨row, event, -, -, hdraft, rfl⟩ := createCandidate_ok ht
    refine h.congr (fun c hcm hstatus => ?_) rfl (List.subset_append_left _ _)
    rcases List.mem_append.mp hcm with hcm | hcm
    · exact ⟨c, hcm, rfl, hstatus⟩
    · rw [List.mem_singleton.mp hcm, hdraft] at hstatus
      cases hstatus
  | transitionCandidate candidateId expected next actor details =>
    exact exec_keeps h fun s' ht => h.transition ha ht
  | upsertEvalCase evalCase actor =>
    refine exec_keeps h fun s' ht => ?_
    obtain ⟨_, _, rfl⟩ := upsertEvalCase_ok ht
    exact h.congr (fun c hcm hstatus => ⟨c, hcm, rfl, hstatus⟩) rfl (List.subset_append_left _ _)
  | recordEvaluation draft => exact exec_keeps h fun s' ht => h.recordEvaluation ha ht
  | upsertEvalRun run =>
    refine exec_keeps h fun s' ht => ?_
    cases upsertEvalRun_ok ht
    exact h.congr (fun c hcm hstatus => ⟨c, hcm, rfl, hstatus⟩) rfl (List.Subset.refl _)
  | clearEvalRun candidateId =>
    exact h.congr (fun c hcm hstatus => ⟨c, hcm, rfl, hstatus⟩) rfl (List.Subset.refl _)
  | activateCandidate candidateId actor reason =>
    refine exec_keeps h fun s' ht => ?_
    obtain ⟨⟨d, _⟩, hd, rfl⟩ := fmap_eq_ok.mp ht
    obtain ⟨-, -, -, -, _, rfl⟩ := activateCandidate_ok hd
    exact h.congr (fun c hcm hstatus => ⟨c, hcm, rfl, hstatus⟩) rfl (List.subset_append_left _ _)
  | rollbackActive actor reason =>
    refine exec_keeps h fun s' ht => ?_
    obtain ⟨⟨result, _⟩, hr, rfl⟩ := fmap_eq_ok.mp ht
    obtain ⟨_, _, -, -, -, -, -, rfl⟩ := rollbackActive_ok hr
    exact h.congr (fun c hcm hstatus => ⟨c, hcm, rfl, hstatus⟩) rfl (List.subset_append_left _ _)
  | _ => exact h

theorem Backed.sanctions [Host R] (h : Backed engine s) {candidateId actor reason deploymentId : String}
    {now : Int} {d : EvolutionDeploymentRecord}
    (ht : s.activateCandidate candidateId actor reason deploymentId now = .ok (d, s')) :
    engine.Sanctions s candidateId := by
  obtain ⟨-, -, ⟨c, hc, hstatus⟩, ⟨e, he, hready, hbase⟩, -⟩ := activateCandidate_ok ht
  refine ⟨e, he, hready, hbase, fun hrequire => ?_⟩
  have hid : c.id = candidateId := by simpa using List.find?_some hc
  subst hid
  exact h c (List.mem_of_find?_eq_some hc) hstatus hrequire e he

end

theorem stacked_perform [Host R] {env : EvolutionEnv} {i : Nat} {w w' : EvolutionWorld R} (hs : Stacked w.store) {a : EvolutionAction R} {answer : Except String a.Resp}
    (h : w.perform env i a = some (answer, w')) : Stacked w'.store ∧ Frozen w.store w'.store := by
  rw [perform_store h]
  cases a.txn env with
  | none => exact ⟨hs, Frozen.refl _⟩
  | some t => exact ⟨stacked_exec _ t hs, frozen_exec _ t⟩

end Xiaomaolv
