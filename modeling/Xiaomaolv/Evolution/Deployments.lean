import Xiaomaolv.Evolution.Store
import Xiaomaolv.Lib.Linked

/-!
# The stack of deployments

* `insertAuditEvent_ok` … `rollbackActive_ok`: what each transaction of the evolution store does.
* `EvolutionStore.Stacked`: the invariant; **`stacked_exec`**: every transaction keeps it.
* `Frozen`: what stays of deployments and patches; `exists_activation`: where a deployment comes from.
* **`deployment_stack`**: deployments are a stack, and a rollback restores the policy that its
  activation replaced.
-/

namespace Xiaomaolv

open Table

variable {R : Type} {s s' : EvolutionStore R}

namespace EvolutionStore

/-! ## What the transactions do -/

theorem insertAuditEvent_ok {event : EvolutionAuditEvent} (h : s.insertAuditEvent event = .ok s') :
    s' = { s with auditEvents := s.auditEvents ++ [event] } := by
  simp only [insertAuditEvent, bind_eq_ok, pure_eq_ok] at h
  obtain ⟨_, -, _, -, _, -, rfl⟩ := h
  rfl

theorem createCandidate_ok {draft : EvolutionCandidateDraft} {actor : String}
    (h : s.createCandidate draft actor = .ok s') :
    ∃ row event, (∀ c ∈ s.candidates, c.id ≠ row.id) ∧ row.promptPatch = draft.promptPatch.text ∧
      row.status = .draft ∧
      s' = { s with
        candidates := s.candidates ++ [row], auditEvents := s.auditEvents ++ [event] } := by
  simp only [createCandidate, bind_eq_ok, insertRow_eq_ok] at h
  obtain ⟨_, -, _, -, _, -, _, -, candidates, ⟨hfresh, rfl⟩, h⟩ := h
  refine ⟨_, _, fun c hc => ?_, rfl, rfl, insertAuditEvent_ok h⟩
  have hc' := hfresh c hc
  simp only [Bool.or_eq_false_iff, decide_eq_false_iff_not] at hc'
  exact hc'.1

theorem transitionCandidate_ok {candidateId actor : String} {expected next : EvolutionCandidateStatus}
    {details : Value} (h : s.transitionCandidate candidateId expected next actor details = .ok s') :
    expected.canTransitionTo next = true ∧
      (∃ c, s.candidate? candidateId = some c ∧ c.status = expected) ∧
      s' = { s with
        candidates := updateWhere (fun c => c.id = candidateId ∧ c.status = expected) (setStatus next)
          s.candidates
        auditEvents := s.auditEvents
          ++ [⟨some candidateId, none, next.transitionEventType, actor, details⟩] } := by
  simp only [transitionCandidate, bind_eq_ok, context_eq_ok, ensure_eq_ok] at h
  obtain ⟨_, -, _, hcan, c, hc, _, hstatus, h⟩ := h
  exact ⟨hcan, ⟨c, hc, by simpa using hstatus⟩, insertAuditEvent_ok h⟩

section

variable [Host R]

theorem upsertEvalCase_ok {evalCase : EvolutionEvalCase R} {actor : String}
    (h : s.upsertEvalCase evalCase actor = .ok s') :
    ∃ evalCases event, s' = { s with evalCases, auditEvents := s.auditEvents ++ [event] } := by
  simp only [upsertEvalCase, bind_eq_ok] at h
  obtain ⟨_, -, _, -, _, -, h⟩ := h
  have hs := insertAuditEvent_ok h
  exact ⟨_, _, hs⟩

theorem recordEvaluation_ok {draft : EvolutionEvaluationDraft R} {now : Int}
    (h : s.recordEvaluation draft now = .ok s') :
    ∃ event, s' = { s with
      evaluations := s.evaluations ++ [{ draft with createdAt := now }]
      auditEvents := s.auditEvents ++ [event] } := by
  simp only [recordEvaluation, bind_eq_ok, insertRow_eq_ok] at h
  obtain ⟨_, -, _, -, _, -, _, -, _, ⟨-, rfl⟩, h⟩ := h
  exact ⟨_, insertAuditEvent_ok h⟩

end

theorem upsertEvalRun_ok {run : EvolutionEvalRun R} (h : s.upsertEvalRun run = .ok s') :
    s' = { s with evalRuns := s.evalRuns.filter (fun r => r.candidateId ≠ run.candidateId) ++ [run] } := by
  simp only [upsertEvalRun, bind_eq_ok, pure_eq_ok] at h
  obtain ⟨_, -, rfl⟩ := h
  rfl

theorem activateCandidate_ok {candidateId actor reason deploymentId : String} {now : Int}
    {d : EvolutionDeploymentRecord}
    (h : s.activateCandidate candidateId actor reason deploymentId now = .ok (d, s')) :
    d = { id := deploymentId, candidateId, previousDeploymentId := s.activeDeploymentId,
          activatedBy := actor, reason := trim reason, activatedAt := now } ∧
      (∀ x ∈ s.deployments, x.id ≠ deploymentId) ∧
      (∃ c, s.candidate? candidateId = some c ∧ c.status = .approved) ∧
      (∃ e, s.latestEvaluation? candidateId = some e ∧ e.decision = .ready ∧
        e.baselineCandidateId = s.activeCandidateId?) ∧
      ∃ event, s' = { s with
        deployments := s.deployments ++ [d]
        activeDeploymentId := some deploymentId
        auditEvents := s.auditEvents ++ [event] } := by
  simp only [activateCandidate, bind_eq_ok, context_eq_ok, ensure_eq_ok, insertRow_eq_ok, pure_eq_ok,
    Prod.mk.injEq] at h
  obtain ⟨_, -, _, -, c, hc, _, hstatus, e, he, _, hready, _, hbase, _, ⟨hfresh, rfl⟩, _, hs, rfl, rfl⟩ :=
    h
  refine ⟨rfl, fun x hx => by simpa using hfresh x hx, ⟨c, hc, by simpa using hstatus⟩,
    ⟨e, he, by simpa using hready, by simpa using hbase⟩, _, insertAuditEvent_ok hs⟩

theorem rollbackActive_ok {actor reason : String} {now : Int} {result : EvolutionRollbackResult}
    (h : s.rollbackActive actor reason now = .ok (result, s')) :
    ∃ d event, s.activeDeploymentId.bind s.deployment? = some d ∧ d.rolledBackAt = none ∧
      result.rolledBackDeploymentId = d.id ∧ result.rolledBackCandidateId = d.candidateId ∧
      s.restoredPolicy d.previousDeploymentId = .ok result.restoredPolicy ∧
      s' = { s with
        deployments := updateWhere (fun x => x.id = d.id ∧ x.rolledBackAt = none)
          (markRolledBack actor reason now) s.deployments
        activeDeploymentId := d.previousDeploymentId
        auditEvents := s.auditEvents ++ [event] } := by
  simp only [rollbackActive, bind_eq_ok, context_eq_ok, ensure_eq_ok, pure_eq_ok, Prod.mk.injEq] at h
  obtain ⟨_, -, _, -, d, hd, _, hlive, restored, hrestored, _, hs, rfl, rfl⟩ := h
  exact ⟨d, _, hd, by simpa using hlive, rfl, rfl, hrestored, insertAuditEvent_ok hs⟩

/-! ## What stays -/

/-- Candidates keep their patches and deployments their candidate and their link; both only grow. -/
structure Frozen (s s' : EvolutionStore R) : Prop where
  patches : (s.candidates.map fun c => (c.id, c.promptPatch))
    <+: s'.candidates.map fun c => (c.id, c.promptPatch)
  links : (s.deployments.map fun d => (d.id, d.candidateId, d.previousDeploymentId))
    <+: s'.deployments.map fun d => (d.id, d.candidateId, d.previousDeploymentId)

theorem Frozen.refl (s : EvolutionStore R) : Frozen s s := ⟨List.prefix_rfl, List.prefix_rfl⟩

theorem Frozen.trans {s'' : EvolutionStore R} (h : Frozen s s') (h' : Frozen s' s'') : Frozen s s'' :=
  ⟨h.patches.trans h'.patches, h.links.trans h'.links⟩

theorem Frozen.candidate (h : Frozen s s') {c : EvolutionCandidateRow} (hc : c ∈ s.candidates) :
    ∃ c' ∈ s'.candidates, c'.id = c.id ∧ c'.promptPatch = c.promptPatch := by
  have hmem := h.patches.subset (List.mem_map_of_mem (f := fun c => (c.id, c.promptPatch)) hc)
  obtain ⟨c', hc', he⟩ := List.mem_map.mp hmem
  simp only [Prod.mk.injEq] at he
  exact ⟨c', hc', he⟩

theorem Frozen.deployment (h : Frozen s s') {d : EvolutionDeploymentRecord} (hd : d ∈ s.deployments) :
    ∃ d' ∈ s'.deployments, d'.id = d.id ∧ d'.candidateId = d.candidateId ∧
      d'.previousDeploymentId = d.previousDeploymentId := by
  have hmem := h.links.subset
    (List.mem_map_of_mem (f := fun d => (d.id, d.candidateId, d.previousDeploymentId)) hd)
  obtain ⟨d', hd', he⟩ := List.mem_map.mp hmem
  simp only [Prod.mk.injEq] at he
  exact ⟨d', hd', he⟩

theorem Frozen.deployed (h : Frozen s s') {d : EvolutionDeploymentRecord}
    (hd : ∃ c ∈ s.candidates, c.id = d.candidateId) : ∃ c ∈ s'.candidates, c.id = d.candidateId := by
  obtain ⟨c, hc, hid⟩ := hd
  obtain ⟨c', hc', hid', -⟩ := h.candidate hc
  exact ⟨c', hc', hid'.trans hid⟩

section

variable [Host R] {t : EvolutionTxn R}

theorem deployments_apply (h : s.apply t = .ok s') (ht : t.isDeploying = false) :
    s'.deployments = s.deployments ∧ s'.activeDeploymentId = s.activeDeploymentId := by
  cases t with
  | createCandidate draft actor =>
    obtain ⟨_, _, -, -, -, rfl⟩ := createCandidate_ok h
    exact ⟨rfl, rfl⟩
  | transitionCandidate candidateId expected next actor details =>
    obtain ⟨-, -, rfl⟩ := transitionCandidate_ok h
    exact ⟨rfl, rfl⟩
  | upsertEvalCase evalCase actor =>
    obtain ⟨_, _, rfl⟩ := upsertEvalCase_ok h
    exact ⟨rfl, rfl⟩
  | recordEvaluation draft now =>
    obtain ⟨_, rfl⟩ := recordEvaluation_ok h
    exact ⟨rfl, rfl⟩
  | upsertEvalRun run => exact upsertEvalRun_ok h ▸ ⟨rfl, rfl⟩
  | clearEvalRun candidateId => exact Except.ok.inj h ▸ ⟨rfl, rfl⟩
  | recordAuditEvent event => exact insertAuditEvent_ok h ▸ ⟨rfl, rfl⟩
  | activateCandidate candidateId actor reason deploymentId now => cases ht
  | rollbackActive actor reason now => cases ht

/-- A transaction adds at most one candidate, with a checked patch and a new id. -/
theorem patches_apply (h : s.apply t = .ok s') :
    (s'.candidates.map fun c => (c.id, c.promptPatch)) = (s.candidates.map fun c => (c.id, c.promptPatch))
      ∨ ∃ row, ∃ p : PromptPatch, (∀ c ∈ s.candidates, c.id ≠ row.id) ∧ row.promptPatch = p.text ∧
        s'.candidates = s.candidates ++ [row] := by
  cases t with
  | createCandidate draft actor =>
    obtain ⟨row, _, hfresh, hp, -, rfl⟩ := createCandidate_ok h
    exact .inr ⟨row, draft.promptPatch, hfresh, hp, rfl⟩
  | transitionCandidate candidateId expected next actor details =>
    obtain ⟨-, -, rfl⟩ := transitionCandidate_ok h
    exact .inl (map_updateWhere (f := setStatus next) (fun _ => rfl) s.candidates)
  | upsertEvalCase evalCase actor =>
    obtain ⟨_, _, rfl⟩ := upsertEvalCase_ok h
    exact .inl rfl
  | recordEvaluation draft now =>
    obtain ⟨_, rfl⟩ := recordEvaluation_ok h
    exact .inl rfl
  | upsertEvalRun run => exact .inl (upsertEvalRun_ok h ▸ rfl)
  | clearEvalRun candidateId => exact .inl (Except.ok.inj h ▸ rfl)
  | recordAuditEvent event => exact .inl (insertAuditEvent_ok h ▸ rfl)
  | activateCandidate candidateId actor reason deploymentId now =>
    obtain ⟨⟨d, _⟩, hd, rfl⟩ := fmap_eq_ok.mp h
    obtain ⟨-, -, -, -, _, rfl⟩ := activateCandidate_ok hd
    exact .inl rfl
  | rollbackActive actor reason now =>
    obtain ⟨⟨result, _⟩, hr, rfl⟩ := fmap_eq_ok.mp h
    obtain ⟨_, _, -, -, -, -, -, rfl⟩ := rollbackActive_ok hr
    exact .inl rfl

theorem frozen_apply (h : s.apply t = .ok s') : Frozen s s' := by
  constructor
  · rcases patches_apply h with he | ⟨row, p, -, -, he⟩
    · exact he ▸ List.prefix_rfl
    · rw [he, List.map_append]
      exact List.prefix_append _ _
  · by_cases ht : t.isDeploying = false
    · exact (deployments_apply h ht).1 ▸ List.prefix_rfl
    · cases t with
      | activateCandidate candidateId actor reason deploymentId now =>
        obtain ⟨⟨d, _⟩, hd, rfl⟩ := fmap_eq_ok.mp h
        obtain ⟨-, -, -, -, _, rfl⟩ := activateCandidate_ok hd
        rw [List.map_append]
        exact List.prefix_append _ _
      | rollbackActive actor reason now =>
        obtain ⟨⟨result, _⟩, hr, rfl⟩ := fmap_eq_ok.mp h
        obtain ⟨_, _, -, -, -, -, -, rfl⟩ := rollbackActive_ok hr
        refine ⟨[], ?_⟩
        rw [List.append_nil, map_updateWhere (f := markRolledBack actor reason now) fun _ => rfl]
      | _ => exact absurd rfl ht

theorem frozen_exec (s : EvolutionStore R) (t : EvolutionTxn R) : Frozen s (s.exec t) :=
  exec_keeps (Frozen.refl s) fun _ => frozen_apply

theorem frozen_run (s : EvolutionStore R) (ts : List (EvolutionTxn R)) :
    Frozen s (Machine.run exec s ts) := by
  induction ts generalizing s with
  | nil => exact Frozen.refl s
  | cons t ts ih => exact (frozen_exec s t).trans (ih (s.exec t))

end

/-! ## The stack -/

/-- From the active deployment the links lead through `rows`, all of them in force. -/
structure Stack (s : EvolutionStore R) (rows : List EvolutionDeploymentRecord) : Prop where
  path : Linked.Path s.deployment? (·.previousDeploymentId) s.activeDeploymentId rows
  nodup : rows.Nodup
  live : ∀ d ∈ rows, d.rolledBackAt = none

structure Stacked (s : EvolutionStore R) : Prop where
  candidateIds : (s.candidates.map (·.id)).Nodup
  patches : ∀ c ∈ s.candidates, ∃ p : PromptPatch, c.promptPatch = p.text
  deploymentIds : (s.deployments.map (·.id)).Nodup
  deployed : ∀ d ∈ s.deployments, ∃ c ∈ s.candidates, c.id = d.candidateId
  stack : ∃ rows, s.Stack rows

theorem stacked_empty : Stacked (empty : EvolutionStore R) :=
  ⟨List.nodup_nil, by simp [empty], List.nodup_nil, by simp [empty], [], rfl, List.nodup_nil, by simp⟩

theorem deployment?_eq_some {id : String} {d : EvolutionDeploymentRecord}
    (h : s.deployment? id = some d) : d ∈ s.deployments ∧ d.id = id :=
  ⟨List.mem_of_find?_eq_some h, by simpa using List.find?_some h⟩

theorem Stacked.deployment? (h : Stacked s) {d : EvolutionDeploymentRecord} (hd : d ∈ s.deployments) :
    s.deployment? d.id = some d :=
  find?_of_mem h.deploymentIds hd

theorem Stack.congr {rows : List EvolutionDeploymentRecord} (h : s.Stack rows)
    (hd : s'.deployments = s.deployments) (ha : s'.activeDeploymentId = s.activeDeploymentId) :
    s'.Stack rows := by
  refine ⟨?_, h.nodup, h.live⟩
  have hlookup : s'.deployment? = s.deployment? := by
    funext id
    rw [EvolutionStore.deployment?, hd]
    rfl
  rw [hlookup, ha]
  exact h.path

theorem Stack.activate {rows : List EvolutionDeploymentRecord} {d : EvolutionDeploymentRecord}
    (h : s.Stack rows) (hfresh : ∀ x ∈ s.deployments, x.id ≠ d.id) (hlive : d.rolledBackAt = none)
    (hprev : d.previousDeploymentId = s.activeDeploymentId)
    (hd : s'.deployments = s.deployments ++ [d]) (ha : s'.activeDeploymentId = some d.id) :
    s'.Stack (d :: rows) := by
  have hnew : s'.deployment? d.id = some d := by
    rw [EvolutionStore.deployment?, hd, List.find?_append, List.find?_eq_none.mpr (by simpa using hfresh)]
    simp
  have hold : ∀ id, ∀ r ∈ rows, s.deployment? id = some r → s'.deployment? id = some r := by
    intro id r _ hr
    rw [EvolutionStore.deployment?, hd, List.find?_append]
    rw [EvolutionStore.deployment?] at hr
    rw [hr]
    rfl
  refine ⟨?_, List.nodup_cons.mpr ⟨fun hmem => ?_, h.nodup⟩, ?_⟩
  · rw [ha]
    exact h.path.push hnew hprev hold
  · obtain ⟨id, hfound⟩ := h.path.found d hmem
    exact hfresh d (deployment?_eq_some hfound).1 rfl
  · intro r hr
    rcases List.mem_cons.mp hr with rfl | hr
    · exact hlive
    · exact h.live r hr

/-- A rollback pops the active deployment. -/
theorem Stack.rollback {rows : List EvolutionDeploymentRecord} {d : EvolutionDeploymentRecord}
    {f : EvolutionDeploymentRecord → EvolutionDeploymentRecord} (hids : (s.deployments.map (·.id)).Nodup)
    (h : s.Stack (d :: rows)) (hf : ∀ x, (f x).id = x.id)
    (hd : s'.deployments = updateWhere (fun x => x.id = d.id ∧ x.rolledBackAt = none) f s.deployments)
    (ha : s'.activeDeploymentId = d.previousDeploymentId) : s'.Stack rows := by
  obtain ⟨hnotin, hrows⟩ := List.nodup_cons.mp h.nodup
  have hold : ∀ id, ∀ r ∈ rows, s.deployment? id = some r → s'.deployment? id = some r := by
    intro id r hr hfound
    obtain ⟨hrm, rfl⟩ := deployment?_eq_some hfound
    obtain ⟨key, hdm⟩ := h.path.found d List.mem_cons_self
    have hne : r.id ≠ d.id := by
      intro he
      rw [eq_of_key_eq hids hrm (deployment?_eq_some hdm).1 he] at hr
      exact hnotin hr
    rw [EvolutionStore.deployment?, hd, find?_updateWhere fun x _ => by simp [hf]]
    rw [EvolutionStore.deployment?] at hfound
    rw [hfound]
    simp [hne]
  have hpath := h.path
  cases hactive : s.activeDeploymentId with
  | none =>
    rw [hactive] at hpath
    exact absurd (Linked.path_none.mp hpath) (List.cons_ne_nil d rows)
  | some id =>
    rw [hactive] at hpath
    refine ⟨?_, hrows, fun r hr => h.live r (List.mem_cons_of_mem d hr)⟩
    rw [ha]
    exact hpath.pop hold

theorem Stack.top {rows : List EvolutionDeploymentRecord} {d : EvolutionDeploymentRecord}
    (h : s.Stack rows) (hd : s.activeDeploymentId.bind s.deployment? = some d) :
    ∃ below, rows = d :: below := by
  have hpath := h.path
  cases hactive : s.activeDeploymentId with
  | none => rw [hactive] at hd; cases hd
  | some id =>
    rw [hactive] at hd hpath
    obtain ⟨r, below, rfl, hr, -⟩ := Linked.path_some.mp hpath
    exact ⟨below, by rw [Option.some.inj (hr.symm.trans hd)]⟩

section

variable [Host R] {t : EvolutionTxn R}

theorem Stacked.candidates_apply (h : Stacked s) (ht : s.apply t = .ok s') :
    (s'.candidates.map (·.id)).Nodup ∧ ∀ c ∈ s'.candidates, ∃ p : PromptPatch, c.promptPatch = p.text := by
  rcases patches_apply ht with he | ⟨row, p, hfresh, hp, he⟩
  · have hids := congrArg (List.map Prod.fst) he
    simp only [List.map_map] at hids
    refine ⟨(hids : s'.candidates.map (·.id) = s.candidates.map (·.id)) ▸ h.candidateIds, fun c hc => ?_⟩
    have hmem := List.mem_map_of_mem (f := fun c : EvolutionCandidateRow => (c.id, c.promptPatch)) hc
    rw [he] at hmem
    obtain ⟨c₀, hc₀, heq⟩ := List.mem_map.mp hmem
    obtain ⟨p, hp⟩ := h.patches c₀ hc₀
    exact ⟨p, (congrArg Prod.snd heq).symm.trans hp⟩
  · rw [he]
    refine ⟨nodup_concat h.candidateIds hfresh, fun c hc => ?_⟩
    rcases List.mem_append.mp hc with hc | hc
    · exact h.patches c hc
    · exact ⟨p, List.mem_singleton.mp hc ▸ hp⟩

theorem stacked_apply (h : Stacked s) (ht : s.apply t = .ok s') : Stacked s' := by
  obtain ⟨hcandidates, hpatches⟩ := h.candidates_apply ht
  obtain ⟨rows, hstack⟩ := h.stack
  by_cases hkeep : t.isDeploying = false
  · obtain ⟨hd, ha⟩ := deployments_apply ht hkeep
    refine ⟨hcandidates, hpatches, hd ▸ h.deploymentIds, fun d hmem => ?_, rows, hstack.congr hd ha⟩
    exact (frozen_apply ht).deployed (h.deployed d (hd ▸ hmem))
  · have hdeployed : ∀ d ∈ s.deployments, ∃ c ∈ s'.candidates, c.id = d.candidateId := fun d hd =>
      (frozen_apply ht).deployed (h.deployed d hd)
    cases t with
    | activateCandidate candidateId actor reason deploymentId now =>
      obtain ⟨⟨d, _⟩, hd, rfl⟩ := fmap_eq_ok.mp ht
      obtain ⟨rfl, hfresh, ⟨c, hc, -⟩, -, _, rfl⟩ := activateCandidate_ok hd
      refine ⟨hcandidates, hpatches, nodup_concat h.deploymentIds hfresh, fun d hmem => ?_, _,
        hstack.activate hfresh rfl rfl rfl rfl⟩
      rcases List.mem_append.mp hmem with hmem | hmem
      · exact hdeployed d hmem
      · rw [List.mem_singleton.mp hmem]
        exact ⟨c, List.mem_of_find?_eq_some hc, by simpa using List.find?_some hc⟩
    | rollbackActive actor reason now =>
      obtain ⟨⟨result, _⟩, hr, rfl⟩ := fmap_eq_ok.mp ht
      obtain ⟨d, _, hd, -, -, -, -, rfl⟩ := rollbackActive_ok hr
      obtain ⟨below, rfl⟩ := hstack.top hd
      have hids : ∀ x, (markRolledBack actor reason now x).id = x.id := fun _ => rfl
      refine ⟨hcandidates, hpatches, ?_, fun x hx => ?_, below,
        hstack.rollback h.deploymentIds hids rfl rfl⟩
      · exact (map_updateWhere hids s.deployments).symm ▸ h.deploymentIds
      · obtain ⟨x₀, hx₀, rfl⟩ := mem_updateWhere.mp hx
        obtain ⟨c, hc, hid⟩ := hdeployed x₀ hx₀
        refine ⟨c, hc, hid.trans ?_⟩
        split_ifs <;> rfl
    | _ => exact absurd rfl hkeep

/-- **Every transaction keeps the stack.** -/
theorem stacked_exec (s : EvolutionStore R) (t : EvolutionTxn R) (h : Stacked s) : Stacked (s.exec t) :=
  exec_keeps h fun _ => stacked_apply h

theorem stacked_run (ts : List (EvolutionTxn R)) : Stacked (Machine.run exec (empty : EvolutionStore R) ts) :=
  Machine.run_invariant' stacked_exec stacked_empty

end

/-! ## Policies -/

theorem Stacked.policy? (h : Stacked s) {d : EvolutionDeploymentRecord} (hd : d ∈ s.deployments)
    (hlive : d.rolledBackAt = none) : ∃ p : PromptPatch,
      (∃ c ∈ s.candidates, c.id = d.candidateId ∧ c.promptPatch = p.text) ∧
        s.policy? d.id = .ok (some ⟨d.id, d.candidateId, p⟩) := by
  obtain ⟨c, hc, hid⟩ := h.deployed d hd
  obtain ⟨p, hp⟩ := h.patches c hc
  refine ⟨p, ⟨c, hc, hid, hp⟩, ?_⟩
  have hfound : s.candidate? d.candidateId = some c := hid ▸ find?_of_mem h.candidateIds hc
  simp only [EvolutionStore.policy?, h.deployment? hd, hlive, hfound, hp, PromptPatch.new_text]
  rfl

/-- The deployment that `top` names, if any, is in force. -/
def Live (s : EvolutionStore R) (top : Option String) : Prop :=
  ∀ id ∈ top, ∃ d ∈ s.deployments, d.id = id ∧ d.rolledBackAt = none

theorem live_of_path {top : Option String} {rows : List EvolutionDeploymentRecord}
    (h : Linked.Path s.deployment? (·.previousDeploymentId) top rows)
    (hlive : ∀ d ∈ rows, d.rolledBackAt = none) : s.Live top := by
  intro id hid
  rw [Option.mem_def.mp hid] at h
  obtain ⟨d, below, rfl, hd, -⟩ := Linked.path_some.mp h
  obtain ⟨hdm, hdid⟩ := deployment?_eq_some hd
  exact ⟨d, hdm, hdid, hlive d List.mem_cons_self⟩

theorem Stacked.live (h : Stacked s) : s.Live s.activeDeploymentId := by
  obtain ⟨rows, hpath, -, hlive⟩ := h.stack
  exact live_of_path hpath hlive

theorem Stacked.live_previous (h : Stacked s) {d : EvolutionDeploymentRecord}
    (hd : s.activeDeploymentId.bind s.deployment? = some d) : s.Live d.previousDeploymentId := by
  obtain ⟨rows, hstack⟩ := h.stack
  obtain ⟨below, rfl⟩ := hstack.top hd
  have hpath := hstack.path
  cases hactive : s.activeDeploymentId with
  | none => rw [hactive] at hd; cases hd
  | some id =>
    rw [hactive] at hpath
    exact live_of_path hpath.2 fun x hx => hstack.live x (List.mem_cons_of_mem d hx)

theorem Stacked.restoredPolicy (h : Stacked s) {top : Option String} (hlive : s.Live top) :
    ∃ policy, s.restoredPolicy top = .ok policy := by
  cases top with
  | none => exact ⟨none, rfl⟩
  | some id =>
    obtain ⟨d, hd, rfl, hd'⟩ := hlive id rfl
    obtain ⟨p, -, hp⟩ := h.policy? hd hd'
    refine ⟨some ⟨d.id, d.candidateId, p⟩, ?_⟩
    simp only [EvolutionStore.restoredPolicy, hp]
    rfl

theorem Stacked.activePolicy (h : Stacked s) :
    s.activePolicy = s.restoredPolicy s.activeDeploymentId := by
  have hlive := h.live
  rw [EvolutionStore.activePolicy]
  cases hactive : s.activeDeploymentId with
  | none => rfl
  | some id =>
    obtain ⟨d, hd, rfl, hd'⟩ := hlive id hactive
    obtain ⟨p, -, hp⟩ := h.policy? hd hd'
    simp only [EvolutionStore.restoredPolicy, hp]
    rfl

theorem Frozen.restoredPolicy (hf : Frozen s s') (h : Stacked s) (h' : Stacked s') {top : Option String}
    (hlive : s.Live top) (hlive' : s'.Live top) : s'.restoredPolicy top = s.restoredPolicy top := by
  cases top with
  | none => rfl
  | some id =>
    obtain ⟨d, hd, rfl, hdl⟩ := hlive id rfl
    obtain ⟨d', hd', hid, hdl'⟩ := hlive' d.id rfl
    obtain ⟨p, ⟨c, hc, hcid, hp⟩, hpolicy⟩ := h.policy? hd hdl
    obtain ⟨p', ⟨c', hc', hcid', hp'⟩, hpolicy'⟩ := h'.policy? hd' hdl'
    -- The row and its candidate's row are found again with the same columns.
    obtain ⟨d₂, hd₂, hid₂, hcand₂, -⟩ := hf.deployment hd
    obtain ⟨c₂, hc₂, hcid₂, hp₂⟩ := hf.candidate hc
    have hdd : d₂ = d' := eq_of_key_eq h'.deploymentIds hd₂ hd' (hid₂.trans hid.symm)
    subst hdd
    have hcc : c₂ = c' := eq_of_key_eq h'.candidateIds hc₂ hc'
      (hcid₂.trans (hcid.trans (hcand₂.symm.trans hcid'.symm)))
    have hpp : p' = p := PromptPatch.ext (hp'.symm.trans ((hcc ▸ hp₂).trans hp))
    rw [hid, hcand₂, hpp] at hpolicy'
    simp only [EvolutionStore.restoredPolicy, hpolicy, hpolicy']

/-! ## Where a deployment comes from -/

section

variable [Host R] {ts : List (EvolutionTxn R)}

/-- Only an activation adds a deployment, the one that it names. -/
theorem activation_of_new {t : EvolutionTxn R} {id : String} (h : ∀ d ∈ s.deployments, d.id ≠ id)
    (h' : ¬ ∀ d ∈ (s.exec t).deployments, d.id ≠ id) :
    ∃ candidateId actor reason now d, t = .activateCandidate candidateId actor reason id now ∧
      s.activateCandidate candidateId actor reason id now = .ok (d, s.exec t) := by
  cases ht : s.apply t with
  | error e =>
    rw [exec, ht] at h'
    exact absurd h h'
  | ok s' =>
    rw [exec_of_ok ht] at h' ⊢
    by_cases hkeep : t.isDeploying = false
    · rw [(deployments_apply ht hkeep).1] at h'
      exact absurd h h'
    · cases t with
      | activateCandidate candidateId actor reason deploymentId now =>
        obtain ⟨⟨d, _⟩, hd, rfl⟩ := fmap_eq_ok.mp ht
        obtain ⟨rfl, -, -, -, _, rfl⟩ := activateCandidate_ok hd
        simp only [List.forall_mem_append, List.forall_mem_singleton, not_and, not_not] at h'
        cases h' h
        exact ⟨candidateId, actor, reason, now, _, rfl, hd⟩
      | rollbackActive actor reason now =>
        obtain ⟨⟨result, _⟩, hr, rfl⟩ := fmap_eq_ok.mp ht
        obtain ⟨_, _, -, -, -, -, -, rfl⟩ := rollbackActive_ok hr
        refine absurd (fun d hd => ?_) h'
        obtain ⟨d₀, hd₀, rfl⟩ := mem_updateWhere.mp hd
        have hid := h d₀ hd₀
        split_ifs <;> exact hid
      | _ => exact absurd rfl hkeep

theorem exists_activation {d : EvolutionDeploymentRecord} (hd : d ∈ (Machine.run exec empty ts).deployments) :
    ∃ l candidateId actor reason now r d₀,
      ts = l ++ EvolutionTxn.activateCandidate candidateId actor reason d.id now :: r ∧
      (Machine.run exec empty l).activateCandidate candidateId actor reason d.id now
        = .ok (d₀, Machine.run exec empty (l ++ [.activateCandidate candidateId actor reason d.id now])) ∧
      (Machine.run exec (empty : EvolutionStore R) l).activeDeploymentId = d.previousDeploymentId := by
  have hexit : ¬ ∀ x ∈ (Machine.run exec (empty : EvolutionStore R) ts).deployments, x.id ≠ d.id :=
    fun h => h d hd rfl
  obtain ⟨l, t, r, rfl, hl, hr⟩ := Machine.exists_exit
    (P := fun s : EvolutionStore R => ∀ x ∈ s.deployments, x.id ≠ d.id) (by simp [empty]) hexit
  rw [Machine.run_concat] at hr
  obtain ⟨candidateId, actor, reason, now, d₀, rfl, hact⟩ := activation_of_new hl hr
  rw [← Machine.run_concat exec] at hact
  refine ⟨l, candidateId, actor, reason, now, r, d₀, rfl, hact, ?_⟩
  obtain ⟨hd₀, -, -, -, event, hs⟩ := activateCandidate_ok hact
  have hmem : d₀ ∈ (Machine.run exec (empty : EvolutionStore R)
      (l ++ [.activateCandidate candidateId actor reason d.id now])).deployments := by
    rw [hs]
    exact List.mem_append_right _ (List.mem_singleton_self d₀)
  rw [List.append_cons, Machine.run_append] at hd
  obtain ⟨d₁, hd₁, hid, -, hprev⟩ := (frozen_run _ r).deployment hmem
  have hstacked := stacked_run (l ++ [EvolutionTxn.activateCandidate candidateId actor reason d.id now] ++ r)
  rw [Machine.run_append] at hstacked
  have hd₁d : d₁ = d := eq_of_key_eq hstacked.deploymentIds hd₁ hd (hid.trans (by rw [hd₀]))
  rw [← hd₁d, hprev, hd₀]

end

/-! ## Rollbacks -/

/-- The errors of the check on an actor. -/
def actorErrors : List String :=
  ["evolution actor cannot be empty",
    "evolution actor cannot exceed 160 bytes or contain control characters"]

theorem validateEvolutionActor_error {actor e : String} (h : validateEvolutionActor actor = .error e) :
    e ∈ actorErrors := by
  simp only [validateEvolutionActor, bind_eq_error, ensure_eq_error] at h
  rcases h with ⟨-, rfl⟩ | ⟨_, -, -, rfl⟩ <;> simp [actorErrors]

/-- The errors of the check on a reason. -/
def reasonErrors : List String :=
  ["evolution reason cannot be empty", "evolution reason cannot exceed 2000 characters"]

theorem validateReason_error {reason e : String} (h : validateReason reason = .error e) :
    e ∈ reasonErrors := by
  simp only [validateReason, bind_eq_error, ensure_eq_error] at h
  rcases h with ⟨-, rfl⟩ | ⟨_, -, -, rfl⟩ <;> simp [reasonErrors]

/-- The errors of an insert into the audit table. -/
def auditErrors : List String :=
  actorErrors ++ ["evolution audit event type must contain between 1 and 128 bytes",
    "evolution audit details cannot exceed 65536 bytes", "failed to insert evolution audit event"]

theorem insertAuditEvent_error {event : EvolutionAuditEvent} {e : String}
    (h : s.insertAuditEvent event = .error e) : e ∈ auditErrors := by
  simp only [insertAuditEvent, validateAuditFields, bind_eq_error, ensure_eq_error] at h
  rcases h with (h | ⟨_, -, -, rfl⟩) | ⟨_, -, ⟨-, rfl⟩ | ⟨_, -, ⟨-, rfl⟩ | ⟨_, -, h⟩⟩⟩
  · exact List.mem_append_left _ (validateEvolutionActor_error h)
  · simp [auditErrors]
  · simp [auditErrors]
  · simp [auditErrors]
  · cases h

theorem Stacked.rollbackActive_ne_unavailable (h : Stacked s) (actor reason : String) (now : Int) :
    s.rollbackActive actor reason now
      ≠ .error "previous evolution deployment is unavailable for rollback" := by
  intro herr
  simp only [rollbackActive, bind_eq_error, context_eq_error, context_eq_ok, ensure_eq_error] at herr
  rcases herr with herr | ⟨_, -, herr | ⟨_, -, ⟨-, herr⟩ | ⟨d, hd, herr⟩⟩⟩
  · exact absurd (validateEvolutionActor_error herr) (by decide)
  · exact absurd (validateReason_error herr) (by decide)
  · exact absurd herr (by decide)
  · obtain ⟨rows, hstack⟩ := h.stack
    obtain ⟨below, rfl⟩ := hstack.top hd
    have hlive := hstack.live d List.mem_cons_self
    obtain ⟨policy, hpolicy⟩ := h.restoredPolicy (h.live_previous hd)
    rcases herr with ⟨hnone, -⟩ | ⟨_, -, herr | ⟨_, -, herr | ⟨_, -, herr⟩⟩⟩
    · simp [hlive] at hnone
    · rw [hpolicy] at herr
      cases herr
    · exact absurd (insertAuditEvent_error herr) (by decide)
    · cases herr

/-- A rollback restores the policy in force before the activation that it undoes. -/
theorem rollbackActive_restores [Host R] {ts : List (EvolutionTxn R)} {actor reason : String} {now : Int}
    {result : EvolutionRollbackResult}
    (h : (Machine.run exec empty ts).rollbackActive actor reason now = .ok (result, s')) :
    ∃ l candidateId actor' reason' now' r d,
      ts = l ++ .activateCandidate candidateId actor' reason' result.rolledBackDeploymentId now' :: r ∧
      (Machine.run exec empty l).activateCandidate candidateId actor' reason'
          result.rolledBackDeploymentId now'
        = .ok (d, Machine.run exec empty
            (l ++ [.activateCandidate candidateId actor' reason' result.rolledBackDeploymentId now'])) ∧
      (Machine.run exec (empty : EvolutionStore R) l).activePolicy = .ok result.restoredPolicy ∧
      s'.activePolicy = .ok result.restoredPolicy := by
  have hrun := stacked_run ts
  have happly : (Machine.run exec empty ts).apply (.rollbackActive actor reason now) = .ok s' :=
    fmap_eq_ok.mpr ⟨_, h, rfl⟩
  have hstacked' := stacked_apply hrun happly
  obtain ⟨d, event, hd, hlive, hid, -, hrestored, hs'⟩ := rollbackActive_ok h
  have hdm : d ∈ (Machine.run exec empty ts).deployments := by
    obtain ⟨id, -, hfound⟩ := Option.bind_eq_some_iff.mp hd
    exact (deployment?_eq_some hfound).1
  obtain ⟨l, candidateId, actor', reason', now', r, d₀, rfl, hact, hprev⟩ := exists_activation hdm
  have hbefore := stacked_run (R := R) l
  have hfrozen : Frozen (Machine.run exec empty l) (Machine.run exec empty
      (l ++ EvolutionTxn.activateCandidate candidateId actor' reason' d.id now' :: r)) := by
    rw [Machine.run_append]
    exact frozen_run _ _
  have hlive₀ := hprev ▸ hbefore.live
  have hlive₁ := hrun.live_previous hd
  have hactive' : s'.activeDeploymentId = d.previousDeploymentId := by rw [hs']
  rw [hid]
  refine ⟨l, candidateId, actor', reason', now', r, d₀, rfl, hact, ?_, ?_⟩
  · rw [hbefore.activePolicy, hprev, ← hrestored]
    exact (hfrozen.restoredPolicy hbefore hrun hlive₀ hlive₁).symm
  · rw [hstacked'.activePolicy, hactive', ← hrestored]
    exact (frozen_apply happly).restoredPolicy hrun hstacked' hlive₁ (hactive' ▸ hstacked'.live)

end EvolutionStore

open EvolutionStore in
/-- **Deployments are a stack.** In every run of the store's transactions the links from the active
deployment visit distinct deployments in force and end; a rollback never misses the previous one, and it
makes active the policy that was active just before the activation that it undoes. -/
theorem deployment_stack [Host R] (ts : List (EvolutionTxn R)) :
    (∃ rows, Linked.Path (Machine.run exec (empty : EvolutionStore R) ts).deployment?
        (·.previousDeploymentId) (Machine.run exec (empty : EvolutionStore R) ts).activeDeploymentId rows ∧
      rows.Nodup ∧ ∀ d ∈ rows, d.rolledBackAt = none) ∧
    ∀ actor reason now,
      (Machine.run exec (empty : EvolutionStore R) ts).rollbackActive actor reason now
        ≠ .error "previous evolution deployment is unavailable for rollback" ∧
      ∀ result s', (Machine.run exec (empty : EvolutionStore R) ts).rollbackActive actor reason now
          = .ok (result, s') →
        ∃ l candidateId actor' reason' now' r d,
          ts = l ++ .activateCandidate candidateId actor' reason' result.rolledBackDeploymentId now' :: r ∧
          (Machine.run exec (empty : EvolutionStore R) l).activateCandidate candidateId actor' reason'
              result.rolledBackDeploymentId now'
            = .ok (d, Machine.run exec empty
                (l ++ [.activateCandidate candidateId actor' reason' result.rolledBackDeploymentId now'])) ∧
          (Machine.run exec (empty : EvolutionStore R) l).activePolicy = .ok result.restoredPolicy ∧
          s'.activePolicy = .ok result.restoredPolicy := by
  have hrun := stacked_run ts
  refine ⟨?_, fun actor reason now => ⟨?_, fun result s' h => ?_⟩⟩
  · obtain ⟨rows, hpath, hnodup, hlive⟩ := hrun.stack
    exact ⟨rows, hpath, hnodup, hlive⟩
  · exact hrun.rollbackActive_ne_unavailable actor reason now
  · exact rollbackActive_restores h

end Xiaomaolv
