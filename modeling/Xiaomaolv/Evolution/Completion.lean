import Xiaomaolv.Evolution.Serial

/-!
# Evaluations come to an end

* `EvolutionWorld.pending`, `EvolutionWorld.stepsLeft`: the cursor that a step goes on with, and how many steps it
  is from its end.
* `EvolutionEngine.Serves`: what further steps are given: replies within the budget, fresh ids, a scorer that
  succeeds.
* `step_served`: one such step is one case of the cursor, and the last one the end of the evaluation.
* **`evaluation_completes`**: in a run that spares the cursors a cursor belongs to a candidate that is being
  evaluated, and from every state the steps that are left end with one more evaluation and a ready or rejected
  candidate; `evaluation_wedges`: an abandoned cursor breaks both.
-/

namespace Xiaomaolv

open Interleave Table EvolutionStore EvolutionWorld

variable {R : Type}

/-! ## Transactions that succeed -/

namespace EvolutionStore

variable {s s' : EvolutionStore R}

theorem insertAuditEvent_succeeds (event : EvolutionAuditEvent)
    (hfields : validateAuditFields event.eventType event.actor = .ok ()) (hsize : event.details.jsonLen ≤ 65536)
    (hcandidate : ∀ id ∈ event.candidateId, (s.status? id).isSome) (hdeployment : event.deploymentId = none) :
    s.insertAuditEvent event = .ok { s with auditEvents := s.auditEvents ++ [event] } := by
  simp only [insertAuditEvent, bind_eq_ok, ensure_eq_ok, pure_eq_ok]
  refine ⟨(), hfields, (), by simpa using hsize, (), ?_, trivial⟩
  rw [hdeployment, Option.all_none, Bool.and_true, Option.all_eq_true]
  intro id hid
  have hsome := hcandidate id hid
  rwa [status?, Option.isSome_map] at hsome

theorem transitionCandidate_succeeds {candidateId : String} {expected next : EvolutionCandidateStatus}
    {details : Value} (hcan : expected.canTransitionTo next = true) (hstatus : s.status? candidateId = some expected)
    (hsize : details.jsonLen ≤ 65536) :
    ∃ s', s.transitionCandidate candidateId expected next systemActor details = .ok s' := by
  have hactor : validateEvolutionActor systemActor = .ok () := by decide +kernel
  have hfields : validateAuditFields next.transitionEventType systemActor = .ok () := by
    cases next <;> decide +kernel
  obtain ⟨c, hc, hexpected⟩ := Option.map_eq_some_iff.mp hstatus
  have hkeys := map_updateWhere (p := fun c => c.id = candidateId ∧ c.status = expected) (f := setStatus next)
    (g := (·.id)) (fun _ => rfl) s.candidates
  have hstored : candidateId ∈ s.candidates.map (·.id) := by
    have hid : c.id = candidateId := by simpa using List.find?_some hc
    exact hid ▸ List.mem_map_of_mem (List.mem_of_find?_eq_some hc)
  have hevent := insertAuditEvent_succeeds
    (s := { s with
      candidates := updateWhere (fun c => c.id = candidateId ∧ c.status = expected) (setStatus next) s.candidates })
    ⟨some candidateId, none, next.transitionEventType, systemActor, details⟩ hfields hsize
    (fun id hid => by
      cases Option.mem_some_iff.mp hid
      rw [← hkeys] at hstored
      obtain ⟨c', hc', hid'⟩ := List.mem_map.mp hstored
      exact isSome_status?.mpr ⟨c', hc', hid'⟩) rfl
  refine Exists.intro
    { s with
      candidates := updateWhere (fun c => c.id = candidateId ∧ c.status = expected) (setStatus next) s.candidates
      auditEvents := s.auditEvents
        ++ [⟨some candidateId, none, next.transitionEventType, systemActor, details⟩] } ?_
  simp only [transitionCandidate, bind_eq_ok, ensure_eq_ok, context_eq_ok]
  exact ⟨(), hactor, (), hcan, c, hc, (), by simpa using hexpected, hevent⟩

theorem recordEvaluation_succeeds [Host R] (draft : EvolutionEvaluationDraft R) (now : Int)
    (hid : isBlank draft.id = false) (hcandidate : isBlank draft.candidateId = false)
    (hgate : draft.gateConfig.validate = .ok ()) (hstored : (s.status? draft.candidateId).isSome)
    (hbaseline : ∀ id ∈ draft.baselineCandidateId, (s.status? id).isSome)
    (hfresh : ∀ e ∈ s.evaluations, e.id ≠ draft.id)
    (hsize : (Value.json [("evaluation_id", .string draft.id), ("decision", draft.decision.toValue)]).jsonLen
      ≤ 65536) :
    ∃ s', s.recordEvaluation draft now = .ok s' := by
  have hfields : validateAuditFields "evaluation_recorded" "system:evolution-engine" = .ok () := by decide +kernel
  have hstored' : (s.candidate? draft.candidateId).isSome = true := by
    rwa [status?, Option.isSome_map] at hstored
  have hevent := insertAuditEvent_succeeds
    (s := { s with evaluations := s.evaluations ++ [{ draft with createdAt := now }] })
    ⟨some draft.candidateId, none, "evaluation_recorded", "system:evolution-engine",
      .json [("evaluation_id", .string draft.id), ("decision", draft.decision.toValue)]⟩ hfields hsize
    (fun id hid => by
      cases Option.mem_some_iff.mp hid
      exact hstored) rfl
  refine Exists.intro
    { s with
      evaluations := s.evaluations ++ [{ draft with createdAt := now }]
      auditEvents := s.auditEvents
        ++ [⟨some draft.candidateId, none, "evaluation_recorded", "system:evolution-engine",
          .json [("evaluation_id", .string draft.id), ("decision", draft.decision.toValue)]⟩] } ?_
  simp only [recordEvaluation, bind_eq_ok, ensure_eq_ok, insertRow_eq_ok]
  refine ⟨(), by simp [hid, hcandidate], (), hgate, (), hstored', (), ?_, _, ⟨fun e he => ?_, rfl⟩, hevent⟩
  · rw [Option.all_eq_true]
    intro id hid
    have hsome := hbaseline id hid
    rwa [status?, Option.isSome_map] at hsome
  · simpa using hfresh e he

theorem upsertEvalRun_succeeds (run : EvolutionEvalRun R)
    (h : ∀ r ∈ s.evalRuns, r.id = run.id → r.candidateId = run.candidateId) :
    ∃ s', s.upsertEvalRun run = .ok s' := by
  refine Exists.intro
    { s with evalRuns := s.evalRuns.filter (fun r => r.candidateId ≠ run.candidateId) ++ [run] } ?_
  simp only [upsertEvalRun, bind_eq_ok, ensure_eq_ok, pure_eq_ok]
  refine ⟨(), ?_, trivial⟩
  rw [Bool.not_eq_true', List.any_eq_false]
  intro r hr
  have hr' := h r hr
  simpa using hr'

end EvolutionStore

/-! ## Programs that succeed -/

section

variable [Host R] {env : Nat → EvolutionEnv} {s : Nat × EvolutionWorld R} {α β : Type}

/-- The program returns a result with `Q`. -/
def Succeeds (env : Nat → EvolutionEnv) (p : EngineM R α) (Q : α → EvolutionWorld R → Prop)
    (s : Nat × EvolutionWorld R) : Prop :=
  p.Keeps (serve env) (fun _ _ => True) (fun r t => ∃ a, r = .ok a ∧ Q a t.2) s

variable {Q : β → EvolutionWorld R → Prop}

theorem Succeeds.bind {p : EngineM R α} {f : α → EngineM R β} {Q' : α → EvolutionWorld R → Prop}
    (hp : Succeeds env p Q' s) (hf : ∀ a t, Q' a t.2 → Succeeds env (f a) Q t) : Succeeds env (p >>= f) Q s := by
  refine Prog.Keeps.bind hp (fun a t ht => ?_) fun e t ht => ?_
  · obtain ⟨a', ha, hQ⟩ := ht
    cases ha
    exact hf a t hQ
  · obtain ⟨_, ha, -⟩ := ht
    cases ha

theorem Succeeds.context {p : EngineM R β} {message : String} (hp : Succeeds env p Q s) :
    Succeeds env (p.context message) Q s :=
  Prog.Keeps.context hp fun _ _ ht => by
    obtain ⟨_, ha, -⟩ := ht
    cases ha

theorem succeeds_pure {b : β} (h : Q b s.2) : Succeeds env (pure b) Q s := ⟨b, rfl, h⟩

theorem succeeds_call {a : EvolutionAction R} {r : a.Resp} {w : EvolutionWorld R} {Q : a.Resp → EvolutionWorld R → Prop}
    (h : s.2.perform (env s.1) 0 a = some (.ok r, w)) (hQ : Q r w) : Succeeds env (call a) Q s := by
  refine ⟨trivial, ?_⟩
  rw [serve_eq h]
  exact ⟨r, rfl, hQ⟩

theorem succeeds_call_bind {a : EvolutionAction R} {f : a.Resp → EngineM R β} {r : a.Resp} {w : EvolutionWorld R}
    (h : s.2.perform (env s.1) 0 a = some (.ok r, w)) (hf : Succeeds env (f r) Q (s.1 + 1, w)) :
    Succeeds env (call a >>= f) Q s := by
  refine ⟨trivial, ?_⟩
  rw [serve_eq h]
  exact hf

theorem succeeds_lift_bind {x : Except String α} {f : α → EngineM R β} {a : α} (h : x = .ok a)
    (hf : Succeeds env (f a) Q s) : Succeeds env ((liftM x : EngineM R α) >>= f) Q s := by
  subst h
  exact hf

theorem Succeeds.imp {p : EngineM R β} {Q' : β → EvolutionWorld R → Prop} (hp : Succeeds env p Q s)
    (h : ∀ b w, Q b w → Q' b w) : Succeeds env p Q' s :=
  Prog.Keeps.imp hp fun _ _ ⟨b, hb, hQ⟩ => ⟨b, hb, h b _ hQ⟩

theorem succeeds_locked {p : EngineM R β} (h : s.2.evaluationLock = none)
    (hp : Succeeds env p Q (s.1 + 1, { s.2 with evaluationLock := some 0 })) :
    Succeeds env (EvolutionEngine.locked p) (fun b w => ∃ w', Q b w' ∧ w = { w' with evaluationLock := none }) s := by
  have hlock : s.2.perform (env s.1) 0 .lockEvaluation = some (.ok (), { s.2 with evaluationLock := some 0 }) := by
    simp [EvolutionWorld.perform, h]
  refine succeeds_call_bind hlock ?_
  refine Prog.Keeps.attempt hp fun r t ht => ⟨trivial, ?_⟩
  obtain ⟨b, rfl, hQ⟩ := ht
  exact ⟨b, rfl, t.2, hQ, rfl⟩

theorem succeeds_transition_bind {candidateId : String} {expected next : EvolutionCandidateStatus} {details : Value}
    {f : EvolutionCandidateRecord → EngineM R β} (h : s.2.Steady) (hcan : expected.canTransitionTo next = true)
    (hstatus : s.2.store.status? candidateId = some expected) (hsize : details.jsonLen ≤ 65536)
    (hf : ∀ r store, s.2.store.transitionCandidate candidateId expected next systemActor details = .ok store →
      Succeeds env (f r) Q (s.1 + 1, { s.2 with store })) :
    Succeeds env (call (.transitionCandidate candidateId expected next systemActor details) >>= f) Q s := by
  obtain ⟨store, ht⟩ := transitionCandidate_succeeds hcan hstatus hsize
  rcases serve_transition h env candidateId expected next systemActor details with ⟨e, -, he⟩ | ⟨r, store', ht', hserve⟩
  · rw [ht] at he
    cases he
  · refine ⟨trivial, ?_⟩
    rw [hserve]
    exact hf r store' ht'

/-! ### A start -/

variable {engine : EvolutionEngine R} {candidateId : String}

theorem perform_upsertEvalRun {w : EvolutionWorld R} {store : EvolutionStore R} {e : EvolutionEnv} {i : Nat}
    {run : EvolutionEvalRun R} (h : w.store.upsertEvalRun run = .ok store) :
    w.perform e i (.upsertEvalRun run) = some (.ok (), { w with store }) := by
  simp only [EvolutionWorld.perform, commit, h]

/-- What a start reads. -/
def EvolutionWorld.start (w : EvolutionWorld R) : EvalStart R :=
  ⟨w.store.enabledEvalCases, w.benchmarkSuite, w.policyRuntime⟩

/-- A start finds cases, with ids of their own, and the model's name fits into the audit table. -/
structure Startable (engine : EvolutionEngine R) (w : EvolutionWorld R) : Prop where
  collision : ensureNoCollision w.start.cases (suiteCases w.start.suite) = .ok ()
  nonempty : w.start.all ≠ []
  model : engine.modelDetails.jsonLen ≤ 65536

theorem canTransitionTo_evaluating {status : EvolutionCandidateStatus} (h : status ≠ .evaluating) :
    status.canTransitionTo .evaluating = true := by
  cases status with
  | evaluating => exact absurd rfl h
  | _ => rfl

/-- What the candidates' statuses do not touch. -/
structure SameTables (w w' : EvolutionWorld R) : Prop where
  evaluations : w'.store.evaluations = w.store.evaluations
  evalCases : w'.store.evalCases = w.store.evalCases
  evalRuns : w'.store.evalRuns = w.store.evalRuns
  policyRuntime : w'.policyRuntime = w.policyRuntime
  suite : w'.benchmarkSuite = w.benchmarkSuite

omit [Host R] in
theorem sameTables_transition {w : EvolutionWorld R} {store : EvolutionStore R} {actor : String}
    {expected next : EvolutionCandidateStatus} {details : Value}
    (h : w.store.transitionCandidate candidateId expected next actor details = .ok store) :
    SameTables w { w with store } := by
  obtain ⟨-, -, rfl⟩ := transitionCandidate_ok h
  exact ⟨rfl, rfl, rfl, rfl, rfl⟩

omit [Host R] in
theorem SameTables.start {w w' : EvolutionWorld R} (h : SameTables w w') : w'.start = w.start := by
  have hcases : w'.store.enabledEvalCases = w.store.enabledEvalCases := by
    rw [enabledEvalCases, h.evalCases]
    rfl
  rw [EvolutionWorld.start, EvolutionWorld.start, hcases, h.suite, h.policyRuntime]

/-- A stored candidate without a cursor: the start succeeds. -/
theorem succeeds_startEvalRun (h : Idle candidateId s.2) (hstored : (s.2.store.status? candidateId).isSome)
    (hstart : Startable engine s.2) (hfresh : ∀ k, ∀ run ∈ s.2.store.evalRuns, run.id ≠ (env k).freshId) :
    Succeeds env (engine.startEvalRun candidateId) (fun run w => ∃ id, run = s.2.start.cursor id candidateId ∧
      w.store.evaluations = s.2.store.evaluations ∧ w.benchmarkSuite = s.2.benchmarkSuite) s := by
  obtain ⟨r, hr⟩ := exists_getCandidate h.steady.resumable.stacked candidateId hstored
  obtain ⟨-, hstatus⟩ := getCandidate_eq_some hr
  refine succeeds_call_bind (a := .getCandidate candidateId) (congrArg (fun x => some (x, s.2)) hr) ?_
  refine succeeds_lift_bind rfl ?_
  -- After the reset the candidate has a status from which it can be evaluated.
  have hreset : Succeeds env (if r.status = .evaluating then do
      let _ ← call (.transitionCandidate candidateId .evaluating .failed systemActor
        (.json [("error", .string "stale evaluation reset")]))
      let found ← call (.getCandidate candidateId)
      context found "candidate disappeared mid-reset"
    else pure r : EngineM R EvolutionCandidateRecord) (fun r w => Idle candidateId w ∧
      w.store.status? candidateId = some r.status ∧ r.status ≠ .evaluating ∧ SameTables s.2 w) (s.1 + 1, s.2) := by
    split_ifs with hevaluating
    · rw [hevaluating] at hstatus
      refine succeeds_transition_bind h.steady rfl hstatus (by decide +kernel) fun _ store ht => ?_
      have hidle : Idle candidateId { s.2 with store } := h.transition ht
      have hfailed := (status?_transition ht).2.1
      obtain ⟨r', hr'⟩ := exists_getCandidate hidle.steady.resumable.stacked candidateId (by rw [hfailed]; rfl)
      obtain ⟨-, hstatus'⟩ := getCandidate_eq_some hr'
      refine succeeds_call_bind (a := .getCandidate candidateId) (congrArg (fun x => some (x, _)) hr') ?_
      refine ⟨r', rfl, hidle, hstatus', fun he => ?_, sameTables_transition ht⟩
      rw [hfailed, he] at hstatus'
      cases hstatus'
    · exact succeeds_pure ⟨h, hstatus, hevaluating, ⟨rfl, rfl, rfl, rfl, rfl⟩⟩
  refine hreset.bind fun r t ht => ?_
  obtain ⟨hidle, hstatus, hne, hsame⟩ := ht
  have hread := hsame.start
  refine succeeds_lift_bind (a := ()) (ensure_eq_ok.mpr (by simpa using hne)) ?_
  refine succeeds_call_bind (a := .listEvalCases) rfl ?_
  refine succeeds_call_bind (a := .benchmarkSuite) rfl ?_
  refine succeeds_lift_bind (a := ()) ?_ ?_
  · have hcollision := hstart.collision
    rw [← hread] at hcollision
    exact hcollision
  refine succeeds_lift_bind (a := ()) (ensure_eq_ok.mpr ?_) ?_
  · have hnonempty := hstart.nonempty
    rw [← hread] at hnonempty
    change (!t.2.start.all.isEmpty) = true
    simpa using hnonempty
  refine succeeds_call_bind (a := .activePolicy) rfl ?_
  refine succeeds_transition_bind (s := (t.1 + 1 + 1 + 1, t.2)) hidle.steady (canTransitionTo_evaluating hne) hstatus
    hstart.model fun _ store hstore => ?_
  have hmade := sameTables_transition (w := t.2) hstore
  refine succeeds_call_bind (a := .newEvolutionId "evalrun") rfl ?_
  change Succeeds env (call (.upsertEvalRun (t.2.start.cursor _ candidateId)) >>= fun _ => pure _) _ _
  obtain ⟨store', hupsert⟩ := upsertEvalRun_succeeds (s := store)
    (t.2.start.cursor (env (t.1 + 1 + 1 + 1 + 1)).freshId candidateId) fun run hrun hid => by
      rw [hmade.evalRuns, hsame.evalRuns] at hrun
      exact absurd hid (hfresh _ run hrun)
  refine succeeds_call_bind (perform_upsertEvalRun (w := { t.2 with store }) hupsert) (succeeds_pure ?_)
  cases upsertEvalRun_ok hupsert
  exact ⟨_, congrArg (fun start => start.cursor (env (t.1 + 1 + 1 + 1 + 1)).freshId candidateId) hread,
    hmade.evaluations.trans hsame.evaluations, hsame.suite⟩

/-! ### A case -/

/-- Every request is answered with at most `bound` bytes. -/
def RepliesWithin (env : Nat → EvolutionEnv) (bound : Nat) : Prop :=
  ∀ k messages, ∃ output, (env k).reply messages = .ok output ∧ byteLen output ≤ bound

omit [Host R] in
theorem addResponse_succeeds {maxResponseBytes responseBytes : Nat} {output : String}
    (h : responseBytes + byteLen output ≤ maxResponseBytes) (hmax : maxResponseBytes < 2 ^ 64) :
    addResponse maxResponseBytes responseBytes output = .ok (responseBytes + byteLen output) := by
  have hword : responseBytes + byteLen output < 2 ^ 64 := by omega
  simp only [addResponse, bind_eq_ok, ensure_eq_ok, pure_eq_ok]
  exact ⟨(), by simpa using hword, (), by simpa using h, trivial⟩

theorem succeeds_shadowComplete {bound : Nat} (h : RepliesWithin env bound) (c : EvolutionEvalCase R)
    (policy : Option (String × String × PromptPatch)) (message : String) :
    Succeeds env ((shadowComplete c policy).context message)
      (fun output w => w = s.2 ∧ byteLen output ≤ bound) s := by
  obtain ⟨output, hreply, hlen⟩ := h s.1 (shadowMessages c policy)
  refine Succeeds.context (succeeds_call (r := output) (w := s.2) ?_ ⟨rfl, hlen⟩)
  rw [EvolutionWorld.perform, hreply]

theorem succeeds_shadowCase {bound maxResponseBytes responseBytes : Nat} (h : RepliesWithin env bound)
    (hbudget : responseBytes + 2 * bound ≤ maxResponseBytes) (hmax : maxResponseBytes < 2 ^ 64)
    (candidate : EvolutionCandidateRecord) (baseline : Option (String × String × PromptPatch))
    (c : EvolutionEvalCase R) :
    Succeeds env (shadowCase candidate baseline maxResponseBytes c responseBytes)
      (fun outputs w => w = s.2 ∧ outputs.2.2 ≤ responseBytes + 2 * bound) s := by
  refine (succeeds_shadowComplete h c baseline _).bind fun b t ht => ?_
  obtain ⟨hsame, hb⟩ := ht
  refine succeeds_lift_bind (addResponse_succeeds (by omega) hmax) ?_
  refine (succeeds_shadowComplete h c _ _).bind fun o t' ht' => ?_
  obtain ⟨hsame', ho⟩ := ht'
  refine succeeds_lift_bind (addResponse_succeeds (by omega) hmax) (succeeds_pure ⟨hsame'.trans hsame, ?_⟩)
  change responseBytes + byteLen b + byteLen o ≤ _
  omega

/-! ### The end of an evaluation -/

/-- The events of the evaluation and of its last transition fit into the audit table. -/
def EvolutionEngine.Auditable (engine : EvolutionEngine R) (scorecard : EvolutionScorecard R) (id : String) : Prop :=
  (Value.json [("evaluation_id", .string id), ("decision", (engine.gateConfig.decide scorecard).toValue)]).jsonLen
      ≤ 65536 ∧
    match engine.gateConfig.decide scorecard with
    | .ready => (Value.json [("evaluation_id", .string id),
        ("candidate_score", .float (Host.json scorecard.candidateScore)),
        ("score_delta", .float (Host.json scorecard.scoreDelta))]).jsonLen ≤ 65536
    | .rejected reasons => (Value.json [("evaluation_id", .string id), ("reasons", .strings reasons)]).jsonLen ≤ 65536

instance (engine : EvolutionEngine R) (scorecard : EvolutionScorecard R) (id : String) :
    Decidable (engine.Auditable scorecard id) := by
  unfold EvolutionEngine.Auditable
  cases engine.gateConfig.decide scorecard <;> infer_instance

theorem perform_recordEvaluation {w : EvolutionWorld R} {store : EvolutionStore R} {e : EvolutionEnv}
    {draft : EvolutionEvaluationDraft R} (hfresh : ∀ e ∈ w.store.evaluations, e.id ≠ draft.id)
    (h : w.store.recordEvaluation draft e.now = .ok store) :
    w.perform e 0 (.recordEvaluation draft) = some (.ok { draft with createdAt := e.now }, { w with store }) := by
  have hnone : w.store.evaluations.find? (fun e => e.id = draft.id) = none :=
    List.find?_eq_none.mpr fun e he => by simpa using hfresh e he
  obtain ⟨event, rfl⟩ := recordEvaluation_ok h
  simp only [EvolutionWorld.perform, h, commit]
  rw [List.find?_append, hnone]
  simp [context]

/-- The candidate is decided, and one evaluation of it has been recorded. -/
structure Decided (s s' : EvolutionStore R) (candidateId : String) : Prop where
  recorded : ∃ e, s'.evaluations = s.evaluations ++ [e] ∧ e.candidateId = candidateId
  decided : s'.status? candidateId = some .ready ∨ s'.status? candidateId = some .rejected

theorem succeeds_finalize (h : s.2.Steady) (hgate : engine.gateConfig.validate = .ok ())
    {candidate : EvolutionCandidateRecord} (hevaluating : s.2.store.status? candidate.id = some .evaluating)
    {cases : List (EvolutionEvalCase R)} {suite : Option (EvolutionBenchmarkSuite R)}
    {baselineOutputs candidateOutputs : Outputs} {scorecard : EvolutionScorecard R}
    (hscore : scoreWithBenchmark cases suite baselineOutputs candidateOutputs = .ok scorecard)
    (haudit : ∀ k, engine.Auditable scorecard (env k).freshId)
    (hfresh : ∀ k, isBlank (env k).freshId = false ∧ ∀ e ∈ s.2.store.evaluations, e.id ≠ (env k).freshId)
    {baselineCandidateId : Option String} (hbaseline : ∀ id ∈ baselineCandidateId, (s.2.store.status? id).isSome) :
    Succeeds env (engine.finalizeShadowEvaluation candidate cases suite baselineOutputs candidateOutputs
      baselineCandidateId) (fun _ w => Decided s.2.store w.store candidate.id) s := by
  refine succeeds_lift_bind hscore (succeeds_call_bind (a := .newEvolutionId "evaluation") rfl ?_)
  obtain ⟨hblank, hnew⟩ := hfresh s.1
  obtain ⟨hrecord, hevent⟩ := haudit s.1
  have hstored : (s.2.store.status? candidate.id).isSome := by rw [hevaluating]; rfl
  obtain ⟨store, hstore⟩ := recordEvaluation_succeeds (s := s.2.store)
    { id := (env s.1).freshId
      candidateId := candidate.id
      baselineCandidateId
      scorecard
      decision := engine.gateConfig.decide scorecard
      gateConfig := engine.gateConfig }
    (env (s.1 + 1)).now hblank (h.resumable.named _ hstored) hgate hstored hbaseline hnew hrecord
  refine succeeds_call_bind (perform_recordEvaluation (e := env (s.1 + 1)) hnew hstore) ?_
  have hsteady : EvolutionWorld.Steady { s.2 with store } := h.apply (t := .recordEvaluation _ _) trivial hstore
  obtain ⟨event, hrows⟩ := recordEvaluation_ok hstore
  have hstatus : store.status? candidate.id = some .evaluating := by
    rw [status?_congr (s := s.2.store) (by rw [hrows])]
    exact hevaluating
  have hdone : ∀ {next : EvolutionCandidateStatus} {details : Value} {store' : EvolutionStore R},
      next = .ready ∨ next = .rejected →
      store.transitionCandidate candidate.id .evaluating next systemActor details = .ok store' →
      Decided s.2.store store' candidate.id := by
    intro next details store' hnext ht
    have hevaluations := (sameTables_transition (w := { s.2 with store }) ht).evaluations
    refine ⟨⟨_, hevaluations.trans (congrArg EvolutionStore.evaluations hrows), rfl⟩, ?_⟩
    rw [(status?_transition ht).2.1]
    exact hnext.imp (congrArg some) (congrArg some)
  cases hdecision : engine.gateConfig.decide scorecard with
  | ready =>
    rw [hdecision] at hevent
    exact succeeds_transition_bind hsteady rfl hstatus hevent fun _ _ ht => succeeds_pure (hdone (.inl rfl) ht)
  | rejected reasons =>
    rw [hdecision] at hevent
    exact succeeds_transition_bind hsteady rfl hstatus hevent fun _ _ ht => succeeds_pure (hdone (.inr rfl) ht)

/-! ### A step -/

/-- What the scorer makes of any outputs for the cases of the cursor. -/
def Scores (engine : EvolutionEngine R) (suite : Option (EvolutionBenchmarkSuite R)) (run : EvolutionEvalRun R)
    (env : Nat → EvolutionEnv) : Prop :=
  ∀ baselineOutputs candidateOutputs : Outputs,
    (∀ c ∈ run.cases, (baselineOutputs.get c.id).isSome ∧ (candidateOutputs.get c.id).isSome) →
    ∃ scorecard, scoreWithBenchmark (run.cases.take (run.cases.length - run.benchmarkTail))
        (EvolutionEngine.resumedSuite run suite) baselineOutputs candidateOutputs = .ok scorecard ∧
      ∀ k, engine.Auditable scorecard (env k).freshId

/-- The cursor has moved on by a case. -/
structure Moved (run : EvolutionEvalRun R) (bound : Nat) (s s' : EvolutionStore R) (candidateId : String) : Prop where
  cursor : ∃ run', s'.evalRun? candidateId = some run' ∧ run'.cases = run.cases ∧
    run'.benchmarkTail = run.benchmarkTail ∧ run'.caseIndex = run.caseIndex + 1 ∧
    run'.responseBytes ≤ run.responseBytes + 2 * bound
  evaluations : s'.evaluations = s.evaluations

/-- One case of the cursor, or the end of the evaluation. -/
def GoesOn (run : EvolutionEvalRun R) (bound : Nat) (w w' : EvolutionWorld R) (candidateId : String) : Prop :=
  if run.caseIndex + 1 < run.cases.length then
    Moved run bound w.store w'.store candidateId ∧ w'.benchmarkSuite = w.benchmarkSuite
  else Decided w.store w'.store candidateId ∧ w'.store.evalRun? candidateId = none

theorem succeeds_advanceEvalRun (h : s.2.Steady) (hgate : engine.gateConfig.validate = .ok ())
    {run : EvolutionEvalRun R} (hrun : s.2.store.evalRun? candidateId = some run) {bound maxResponseBytes : Nat}
    (hreplies : RepliesWithin env bound) (hbudget : run.responseBytes + 2 * bound ≤ maxResponseBytes)
    (hmax : maxResponseBytes < 2 ^ 64) (hscores : Scores engine s.2.benchmarkSuite run env)
    (hfresh : ∀ k, isBlank (env k).freshId = false ∧ ∀ e ∈ s.2.store.evaluations, e.id ≠ (env k).freshId) :
    Succeeds env (engine.advanceEvalRun candidateId maxResponseBytes run)
      (fun _ w => GoesOn run bound s.2 w candidateId) s := by
  obtain ⟨hmem, hid⟩ := evalRun?_eq_some hrun
  have hunderway := h.resumable.cursors run hmem
  have hevaluating : s.2.store.status? candidateId = some .evaluating := hid ▸ hunderway.evaluating
  obtain ⟨candidate, hcandidate⟩ := exists_getCandidate h.resumable.stacked candidateId
    (by rw [hevaluating]; rfl)
  obtain ⟨hcid, -⟩ := getCandidate_eq_some hcandidate
  obtain ⟨c, hcase⟩ : ∃ c, run.cases[run.caseIndex]? = some c := ⟨_, List.getElem?_eq_getElem hunderway.more⟩
  refine succeeds_call_bind (a := .getCandidate candidateId) (congrArg (fun x => some (x, s.2)) hcandidate) ?_
  refine succeeds_lift_bind rfl (succeeds_lift_bind (context_eq_ok.mpr hcase) ?_)
  refine (succeeds_shadowCase hreplies hbudget hmax candidate run.baseline c).bind fun outputs t ht => ?_
  obtain ⟨hsame, hbytes⟩ := ht
  obtain ⟨k, w⟩ := t
  subst hsame
  change Succeeds env (if (run.next c outputs).caseIndex < (run.next c outputs).cases.length
    then _ else _) _ _
  split_ifs with hmore
  · obtain ⟨store, hstore⟩ := upsertEvalRun_succeeds (s := s.2.store) (run.next c outputs)
      fun r hr hrid => congrArg (·.candidateId) (eq_of_key_eq h.resumable.runIds hr hmem hrid)
    refine succeeds_call (perform_upsertEvalRun hstore) ?_
    have hfound := evalRun?_upsertEvalRun hstore
    cases upsertEvalRun_ok hstore
    rw [GoesOn, if_pos (show run.caseIndex + 1 < run.cases.length from hmore)]
    exact ⟨⟨⟨run.next c outputs, hid ▸ hfound, rfl, rfl, rfl, hbytes⟩, rfl⟩, rfl⟩
  · refine succeeds_call_bind (a := .benchmarkSuite) rfl ?_
    have hall : run.cases.take (run.caseIndex + 1) = run.cases :=
      List.take_of_length_le (Nat.le_of_not_lt hmore)
    have hanswered := answered_next hunderway.answered hcase outputs
    rw [hall] at hanswered
    obtain ⟨scorecard, hscore, haudit⟩ := hscores _ _ hanswered
    rw [← hcid] at hevaluating
    refine (succeeds_finalize (s := (k + 1, s.2)) h hgate hevaluating hscore haudit hfresh fun id hbase => ?_).bind
      fun _ t ht => ?_
    · obtain ⟨b, hb, rfl⟩ := Option.map_eq_some_iff.mp hbase
      exact hunderway.baseline b hb
    · rw [hcid] at ht
      refine succeeds_call (a := .clearEvalRun candidateId) rfl ?_
      rw [GoesOn, if_neg (show ¬ run.caseIndex + 1 < run.cases.length from hmore)]
      refine ⟨⟨ht.recorded, ht.decided⟩, ?_⟩
      exact evalRun?_eq_none.mpr fun r hr => by simpa using (List.mem_filter.mp hr).2

/-- What a step goes on with: the cursor of the candidate, or the one that it starts. -/
def EvolutionWorld.pending (w : EvolutionWorld R) (candidateId : String) : EvolutionEvalRun R :=
  (w.store.evalRun? candidateId).getD (w.start.cursor "" candidateId)

/-- The cases that are left. -/
def EvolutionWorld.stepsLeft (w : EvolutionWorld R) (candidateId : String) : Nat :=
  (w.pending candidateId).cases.length - (w.pending candidateId).caseIndex

/-- What a call of `run_evaluation_step` is given. -/
structure StepCall where
  maxResponseBytes : Nat
  env : Nat → EvolutionEnv

def StepCall.label (c : StepCall) (candidateId : String) : SerialStep R :=
  .call (.evaluationStep candidateId c.maxResponseBytes) c.env none

/-- What the calls are given for a whole evaluation: cases to start from, replies that the budget holds, ids that
are not taken, and a scorer that succeeds. -/
structure Serves (engine : EvolutionEngine R) (w : EvolutionWorld R) (candidateId : String) (bound : Nat)
    (calls : List StepCall) : Prop where
  startable : w.store.evalRun? candidateId = none → Startable engine w ∧
    ∀ c ∈ calls, ∀ k, ∀ run ∈ w.store.evalRuns, run.id ≠ (c.env k).freshId
  replies : ∀ c ∈ calls, RepliesWithin c.env bound
  budget : ∀ c ∈ calls, (w.pending candidateId).responseBytes + 2 * bound * calls.length ≤ c.maxResponseBytes ∧
    0 < c.maxResponseBytes ∧ c.maxResponseBytes < 2 ^ 64
  fresh : ∀ c ∈ calls, ∀ k, isBlank (c.env k).freshId = false ∧
    ∀ e ∈ w.store.evaluations, e.id ≠ (c.env k).freshId
  scores : ∀ c ∈ calls, Scores engine w.benchmarkSuite (w.pending candidateId) c.env

omit [Host R] in
theorem GoesOn.of_start {start : EvalStart R} {id id' : String} {bound : Nat} {w w' w'' : EvolutionWorld R}
    (h : GoesOn (start.cursor id candidateId) bound w' w'' candidateId)
    (hevaluations : w'.store.evaluations = w.store.evaluations) (hsuite : w'.benchmarkSuite = w.benchmarkSuite) :
    GoesOn (start.cursor id' candidateId) bound w w'' candidateId := by
  by_cases hmore : (start.cursor id candidateId).caseIndex + 1 < (start.cursor id candidateId).cases.length
  · have hmore' : (start.cursor id' candidateId).caseIndex + 1 < (start.cursor id' candidateId).cases.length := hmore
    rw [GoesOn, if_pos hmore] at h
    rw [GoesOn, if_pos hmore']
    exact ⟨⟨h.1.cursor, h.1.evaluations.trans hevaluations⟩, h.2.trans hsuite⟩
  · have hlast : ¬ (start.cursor id' candidateId).caseIndex + 1 < (start.cursor id' candidateId).cases.length := hmore
    rw [GoesOn, if_neg hmore] at h
    rw [GoesOn, if_neg hlast]
    obtain ⟨e, he, hid⟩ := h.1.recorded
    exact ⟨⟨⟨e, hevaluations ▸ he, hid⟩, h.1.decided⟩, h.2⟩

/-- **A step is one case of the cursor, or the end of the evaluation.** -/
theorem step_served {w : EvolutionWorld R} (hgate : engine.gateConfig.validate = .ok ()) (h : w.Steady)
    (hlock : w.evaluationLock = none) (hstored : (w.store.status? candidateId).isSome) {bound : Nat} {c : StepCall}
    {calls : List StepCall} (hs : Serves engine w candidateId bound (c :: calls)) :
    GoesOn (w.pending candidateId) bound w (engine.serial w (c.label candidateId)) candidateId := by
  have hc : c ∈ c :: calls := List.mem_cons_self
  obtain ⟨hbudget, hpos, hmax⟩ := hs.budget c hc
  have hbound : (w.pending candidateId).responseBytes + 2 * bound ≤ c.maxResponseBytes := by
    have hone : 2 * bound * 1 ≤ 2 * bound * (c :: calls).length := Nat.mul_le_mul_left _ (by simp)
    omega
  have hrun : Succeeds c.env (engine.runEvaluationStep candidateId c.maxResponseBytes)
      (fun _ w' => ∃ w₁, GoesOn (w.pending candidateId) bound w w₁ candidateId ∧
        w' = { w₁ with evaluationLock := none }) (0, w) := by
    refine succeeds_lift_bind (a := ()) (ensure_eq_ok.mpr (by simpa using hpos)) (succeeds_locked hlock ?_)
    have hheld : EvolutionWorld.Steady { w with evaluationLock := some 0 } := Steady.congr h rfl h.runtime
    have hfresh := hs.fresh c hc
    have hscores := hs.scores c hc
    have hpending : w.pending candidateId = (w.store.evalRun? candidateId).getD (w.start.cursor "" candidateId) := rfl
    refine succeeds_call_bind (a := .getEvalRun candidateId) (r := w.store.evalRun? candidateId)
      (w := { w with evaluationLock := some 0 }) rfl ?_
    cases hfound : w.store.evalRun? candidateId with
    | some run =>
      rw [hfound, Option.getD_some] at hpending
      rw [hpending] at hbound hscores ⊢
      exact succeeds_advanceEvalRun (s := (2, { w with evaluationLock := some 0 })) hheld hgate hfound
        (hs.replies c hc) hbound hmax hscores hfresh
    | none =>
      rw [hfound, Option.getD_none] at hpending
      rw [hpending] at hbound hscores ⊢
      obtain ⟨hstart, hunused⟩ := hs.startable hfound
      have hidle : Idle candidateId { w with evaluationLock := some 0 } := ⟨hheld, hfound⟩
      have hstarted : Succeeds c.env (engine.startEvalRun candidateId) _ (2, { w with evaluationLock := some 0 }) :=
        succeeds_startEvalRun hidle hstored ⟨hstart.collision, hstart.nonempty, hstart.model⟩ (hunused c hc)
      refine Prog.Keeps.bind (hstarted.and (keeps_startEvalRun hidle)) (fun run t ht => ?_) fun e t ht => ?_
      · obtain ⟨⟨run', hrun, id, rfl, hevaluations, hsuite⟩, hsteady, hcursor⟩ := ht
        cases hrun
        have hadvance : Succeeds c.env (engine.advanceEvalRun candidateId _ _) _ t :=
          succeeds_advanceEvalRun hsteady hgate (hcursor _ rfl)
          (hs.replies c hc) hbound hmax (by rw [hsuite]; exact hscores) (by rw [hevaluations]; exact hfresh)
        exact hadvance.imp fun _ w' hw' => hw'.of_start hevaluations hsuite
      · obtain ⟨⟨_, he, -⟩, -⟩ := ht
        cases he
  obtain ⟨_, -, w₁, hadvance, hw₁⟩ := Prog.Keeps.runs hrun
  change GoesOn _ bound w ((engine.runEvaluationStep candidateId c.maxResponseBytes).runs (serve c.env) (0, w)).2.2 _
  rw [hw₁]
  exact hadvance

/-! ## The end of an evaluation -/

theorem Serves.next {w w' : EvolutionWorld R} {bound : Nat} {c : StepCall} {calls : List StepCall}
    (hs : Serves engine w candidateId bound (c :: calls))
    (h : Moved (w.pending candidateId) bound w.store w'.store candidateId)
    (hsuite : w'.benchmarkSuite = w.benchmarkSuite) : Serves engine w' candidateId bound calls := by
  obtain ⟨⟨run, hrun, hcases, htail, -, hbytes⟩, hevaluations⟩ := h
  have hpending : w'.pending candidateId = run := by rw [EvolutionWorld.pending, hrun, Option.getD_some]
  have hmem : ∀ c' ∈ calls, c' ∈ c :: calls := fun c' hc' => List.mem_cons_of_mem c hc'
  refine ⟨fun hnone => ?_, fun c' hc' => hs.replies c' (hmem c' hc'), fun c' hc' => ?_, fun c' hc' => ?_,
    fun c' hc' => ?_⟩
  · rw [hrun] at hnone
    cases hnone
  · obtain ⟨hbudget, hrest⟩ := hs.budget c' (hmem c' hc')
    rw [List.length_cons, Nat.mul_add, Nat.mul_one] at hbudget
    rw [hpending]
    exact ⟨by omega, hrest⟩
  · rw [hevaluations]
    exact hs.fresh c' (hmem c' hc')
  · intro baselineOutputs candidateOutputs hanswered
    have hscores := hs.scores c' (hmem c' hc') baselineOutputs candidateOutputs
    rw [hpending] at hanswered ⊢
    rw [hsuite]
    unfold EvolutionEngine.resumedSuite at hscores ⊢
    rw [hcases] at hanswered ⊢
    rw [htail]
    exact hscores hanswered

omit [Host R] in
theorem stepsLeft_pos [Host R] {w : EvolutionWorld R} (h : w.Steady) {bound : Nat} {calls : List StepCall}
    (hs : Serves engine w candidateId bound calls) : 0 < w.stepsLeft candidateId := by
  unfold EvolutionWorld.stepsLeft EvolutionWorld.pending
  cases hfound : w.store.evalRun? candidateId with
  | some run =>
    have hmore := (h.resumable.cursors run (evalRun?_eq_some hfound).1).more
    rw [Option.getD_some]
    omega
  | none =>
    have hnonempty := List.length_pos_iff.mpr (hs.startable hfound).1.nonempty
    rw [Option.getD_none]
    exact hnonempty

/-- **The steps that are left decide the candidate** and record one evaluation of it. -/
theorem steps_served {w : EvolutionWorld R} (hgate : engine.gateConfig.validate = .ok ()) (h : w.Steady)
    (hlock : w.evaluationLock = none) (hstored : (w.store.status? candidateId).isSome) {bound : Nat}
    {calls : List StepCall} (hs : Serves engine w candidateId bound calls)
    (hlength : calls.length = w.stepsLeft candidateId) :
    Decided w.store (Machine.run engine.serial w (calls.map (·.label candidateId))).store candidateId ∧
      (Machine.run engine.serial w (calls.map (·.label candidateId))).store.evalRun? candidateId = none := by
  induction calls generalizing w with
  | nil =>
    have hpos := stepsLeft_pos h hs
    rw [← hlength] at hpos
    exact absurd hpos (Nat.lt_irrefl 0)
  | cons c calls ih =>
    have hadvance := step_served hgate h hlock hstored hs
    have hspares : engine.Spares w (c.label candidateId) := ⟨trivial, nofun⟩
    have hsteady := steady_serial h hspares
    rw [List.map_cons, Machine.run_cons]
    rw [List.length_cons, EvolutionWorld.stepsLeft] at hlength
    by_cases hmore : (w.pending candidateId).caseIndex + 1 < (w.pending candidateId).cases.length
    · rw [GoesOn, if_pos hmore] at hadvance
      obtain ⟨hmoved, hsuite⟩ := hadvance
      obtain ⟨run, hrun, hcases, -, hindex, -⟩ := hmoved.cursor
      have hleft : (engine.serial w (c.label candidateId)).stepsLeft candidateId = calls.length := by
        rw [EvolutionWorld.stepsLeft, EvolutionWorld.pending, hrun, Option.getD_some, hcases, hindex]
        omega
      have hevaluating := (hsteady.resumable.cursors run (evalRun?_eq_some hrun).1).evaluating
      rw [(evalRun?_eq_some hrun).2] at hevaluating
      have hrest := ih hsteady (unlocked_serial hlock _) (by rw [hevaluating]; rfl) (hs.next hmoved hsuite) hleft.symm
      obtain ⟨⟨⟨e, he, hid⟩, hdecided⟩, hnone⟩ := hrest
      rw [hmoved.evaluations] at he
      exact ⟨⟨⟨e, he, hid⟩, hdecided⟩, hnone⟩
    · rw [GoesOn, if_neg hmore] at hadvance
      have hnil : calls = [] := List.length_eq_zero_iff.mp (by omega)
      subst hnil
      exact hadvance

/-- **Evaluations complete.** In a run of calls, stopped between any two atomic calls, in which no candidate with a
cursor is abandoned and no call is stopped between the last transition of an evaluation and `clear_eval_run`: every
cursor belongs to a candidate that is being evaluated, and from every state the steps that are left, given a scorer
that succeeds, record one more evaluation, leave the candidate ready or rejected, and no cursor. -/
theorem evaluation_completes (engine : EvolutionEngine R) (hgate : engine.gateConfig.validate = .ok ())
    (labels : List (SerialStep R)) (h : Machine.Along engine.serial engine.Spares .initial labels) :
    (∀ run ∈ (Machine.run engine.serial .initial labels).store.evalRuns,
      (Machine.run engine.serial .initial labels).store.status? run.candidateId = some .evaluating) ∧
    ∀ candidateId bound calls, ((Machine.run engine.serial .initial labels).store.status? candidateId).isSome →
      Serves engine (Machine.run engine.serial .initial labels) candidateId bound calls →
      calls.length = (Machine.run engine.serial .initial labels).stepsLeft candidateId →
      Decided (Machine.run engine.serial .initial labels).store
          (Machine.run engine.serial .initial (labels ++ calls.map (·.label candidateId))).store candidateId ∧
        (Machine.run engine.serial .initial (labels ++ calls.map (·.label candidateId))).store.evalRun? candidateId
          = none := by
  obtain ⟨hsteady, hlock⟩ := steady_run h
  refine ⟨fun run hrun => (hsteady.resumable.cursors run hrun).evaluating,
    fun candidateId bound calls hstored hs hlength => ?_⟩
  rw [Machine.run_append]
  exact steps_served hgate hsteady hlock hstored hs hlength

/-! ## Abandoned cursors -/

/-- The candidate has a cursor and the status, which is not `evaluating`. -/
structure Wedged (candidateId : String) (status : EvolutionCandidateStatus) (s : EvolutionStore R) : Prop where
  cursor : (s.evalRun? candidateId).isSome
  status : s.status? candidateId = some status

/-- The last transition of an evaluation does not find the candidate as it expects it. -/
theorem keeps_finalize_wedged {status : EvolutionCandidateStatus} (hne : status ≠ .evaluating)
    {candidate : EvolutionCandidateRecord} (h : Wedged candidate.id status s.2.store)
    (cases : List (EvolutionEvalCase R)) (suite : Option (EvolutionBenchmarkSuite R))
    (baselineOutputs candidateOutputs : Outputs) (baselineCandidateId : Option String) :
    (engine.finalizeShadowEvaluation candidate cases suite baselineOutputs candidateOutputs
      baselineCandidateId).Keeps (serve env) (fun _ t => Wedged candidate.id status t.2.store)
        (fun r t => Wedged candidate.id status t.2.store ∧ ∃ e, r = .error e) s := by
  have hrecord : ∀ (draft : EvolutionEvaluationDraft R) {s : Nat × EvolutionWorld R},
      Wedged candidate.id status s.2.store →
      Wedged candidate.id status (serve env (.recordEvaluation draft) s).2.2.store := by
    intro draft s h
    rcases serve_cases env (.recordEvaluation draft) s with ⟨hsame, -⟩ | hperform
    · rw [hsame]
      exact h
    · rw [perform_store hperform]
      refine exec_keeps h fun store ht => ?_
      obtain ⟨event, rfl⟩ := recordEvaluation_ok ht
      exact ⟨h.cursor, h.status⟩
  have htransition : ∀ {s : Nat × EvolutionWorld R} {next : EvolutionCandidateStatus} {details : Value}
      {f : EvolutionCandidateRecord → EngineM R (EvolutionEvaluationRecord R)},
      Wedged candidate.id status s.2.store →
      Prog.Keeps (serve env) (fun _ t => Wedged candidate.id status t.2.store)
        (fun r t => Wedged candidate.id status t.2.store ∧ ∃ e, r = .error e)
        (call (.transitionCandidate candidate.id .evaluating next systemActor details) >>= f) s := by
    intro s next details f h
    cases ht : s.2.store.transitionCandidate candidate.id .evaluating next systemActor details with
    | ok store =>
      have hevaluating := (status?_transition ht).1
      rw [h.status] at hevaluating
      exact absurd (Option.some.inj hevaluating) hne
    | error e =>
      have hserve : serve env (.transitionCandidate candidate.id .evaluating next systemActor details) s
          = (.error e, (s.1 + 1, s.2)) := serve_eq (by simp only [EvolutionWorld.perform, commit, ht])
      refine ⟨h, ?_⟩
      rw [hserve]
      exact ⟨h, e, rfl⟩
  refine Prog.keeps_lift_bind (fun scorecard _ => ?_) fun e _ => ⟨h, e, rfl⟩
  refine Prog.keeps_perform_bind h (fun id _ => ?_) fun e _ => ⟨h, e, rfl⟩
  refine Prog.keeps_perform_bind h (fun evaluation _ => ?_) fun e _ => ⟨hrecord _ h, e, rfl⟩
  cases engine.gateConfig.decide scorecard with
  | ready => exact htransition (hrecord _ h)
  | rejected reasons => exact htransition (hrecord _ h)

/-- The program leaves the candidate wedged, wherever it stops. -/
abbrev KeepsWedged (env : Nat → EvolutionEnv) (candidateId : String) (status : EvolutionCandidateStatus)
    (p : EngineM R α) (s : Nat × EvolutionWorld R) : Prop :=
  p.Keeps (serve env) (fun _ t => Wedged candidateId status t.2.store) (fun _ t => Wedged candidateId status t.2.store) s

theorem keepsWedged_advanceEvalRun {status : EvolutionCandidateStatus} (hne : status ≠ .evaluating)
    (h : Wedged candidateId status s.2.store) {run : EvolutionEvalRun R} (hid : run.candidateId = candidateId)
    (maxResponseBytes : Nat) :
    KeepsWedged env candidateId status (engine.advanceEvalRun candidateId maxResponseBytes run) s := by
  refine Prog.keeps_perform_bind h (fun found hfound => ?_) fun _ _ => h
  refine Prog.keeps_lift_bind (fun candidate hcandidate => ?_) fun _ _ => h
  refine Prog.keeps_lift_bind (fun c hc => ?_) fun _ _ => h
  rw [context_eq_ok.mp hcandidate] at hfound
  obtain ⟨rfl, -⟩ := getCandidate_eq_some hfound
  refine Prog.Keeps.bind (keeps_shadowCase (s := (s.1 + 1, s.2)) (fun a t ht => by rw [ht]; exact h) candidate
    run.baseline maxResponseBytes c run.responseBytes) (fun outputs t ht => ?_) fun e t ht => by rw [ht]; exact h
  obtain ⟨k, w⟩ := t
  subst ht
  change KeepsWedged env candidate.id status
    (if (run.next c outputs).caseIndex < (run.next c outputs).cases.length then _ else _) _
  split_ifs with hmore
  · refine ⟨h, ?_⟩
    rcases serve_cases env (.upsertEvalRun (run.next c outputs)) (k, s.2) with ⟨hsame, -⟩ | hperform
    · change Wedged candidate.id status (serve env (.upsertEvalRun (run.next c outputs)) (k, s.2)).2.2.store
      rw [hsame]
      exact h
    · change Wedged candidate.id status (serve env (.upsertEvalRun (run.next c outputs)) (k, s.2)).2.2.store
      rw [perform_store hperform]
      refine exec_keeps h fun store ht => ⟨?_, ?_⟩
      · have hfound := evalRun?_upsertEvalRun ht
        rw [show (run.next c outputs).candidateId = candidate.id from hid] at hfound
        rw [hfound]
        rfl
      · cases upsertEvalRun_ok ht
        exact h.status
  · refine Prog.keeps_perform_bind h (fun suite _ => ?_) fun _ _ => h
    refine Prog.Keeps.bind (keeps_finalize_wedged (s := (k + 1, s.2)) hne h _ _ _ _ _) (fun evaluation t ht => ?_)
      fun e t ht => ht.1
    obtain ⟨-, e, he⟩ := ht
    cases he

theorem keepsWedged_runEvaluationStep {status : EvolutionCandidateStatus} (hne : status ≠ .evaluating)
    (h : Wedged candidateId status s.2.store) (maxResponseBytes : Nat) :
    KeepsWedged env candidateId status (engine.runEvaluationStep candidateId maxResponseBytes) s := by
  have hlock : ∀ {a : EvolutionAction R} {s : Nat × EvolutionWorld R}, a.txn (env s.1) = none →
      Wedged candidateId status s.2.store → Wedged candidateId status (serve env a s).2.2.store := by
    intro a s ha h
    rcases serve_cases env a s with ⟨hsame, -⟩ | hperform
    · rw [hsame]
      exact h
    · rw [perform_store hperform, ha]
      exact h
  refine Prog.keeps_lift_bind (fun _ _ => ?_) fun _ _ => h
  refine Prog.keeps_perform_bind h (fun _ _ => ?_) fun _ _ => hlock rfl h
  refine Prog.Keeps.attempt (Q := fun _ t => Wedged candidateId status t.2.store) ?_ fun r t ht =>
    ⟨ht, hlock (a := .unlockEvaluation) rfl ht⟩
  have h' : Wedged candidateId status (serve env .lockEvaluation s).2.2.store := hlock rfl h
  refine Prog.keeps_perform_bind h' (fun found hfound => ?_) fun _ _ => h'
  have hcursor := h'.cursor
  rw [show (serve env .lockEvaluation s).2.2.store.evalRun? candidateId = found from Except.ok.inj hfound] at hcursor
  obtain ⟨run, rfl⟩ := Option.isSome_iff_exists.mp hcursor
  have hid := (evalRun?_eq_some (Except.ok.inj hfound)).2
  exact keepsWedged_advanceEvalRun (s := ((serve env .lockEvaluation s).2.1 + 1, (serve env .lockEvaluation s).2.2))
    hne h' hid maxResponseBytes

/-- **A wedged candidate stays wedged**, whatever the steps are given and wherever they stop. -/
theorem wedged_steps {w : EvolutionWorld R} {status : EvolutionCandidateStatus} (hne : status ≠ .evaluating)
    (h : Wedged candidateId status w.store) (steps : List (Nat × (Nat → EvolutionEnv) × Option Nat)) :
    Wedged candidateId status (Machine.run engine.serial w (steps.map fun step =>
      .call (.evaluationStep candidateId step.1) step.2.1 step.2.2)).store := by
  induction steps generalizing w with
  | nil => exact h
  | cons step steps ih =>
    obtain ⟨maxResponseBytes, env, stop⟩ := step
    refine ih (w := engine.serial w (.call (.evaluationStep candidateId maxResponseBytes) env stop)) ?_
    have hkeeps : KeepsWedged env candidateId status (engine.runEvaluationStep candidateId maxResponseBytes) (0, w) :=
      keepsWedged_runEvaluationStep (s := (0, w)) hne h maxResponseBytes
    cases stop with
    | none => exact Prog.Keeps.runs hkeeps
    | some n =>
      have hstore := (release_eq
        ((engine.runEvaluationStep candidateId maxResponseBytes).stopped (serve env) n (0, w)).2).1
      change Wedged candidateId status
        (((engine.runEvaluationStep candidateId maxResponseBytes).stopped (serve env) n (0, w)).2.release 0).store
      rw [hstore]
      rcases Prog.Keeps.stopped hkeeps n with ⟨-, hend⟩ | ⟨_, -, hfinds⟩
      · exact hend
      · exact hfinds

end

/-! ## A sample -/

namespace EvolutionSample

/-- A call that runs to its end, with ids of its own. -/
def serially (i : Nat) (call : EvolutionCall Rat) : SerialStep Rat := .call call (fun k => env (100 * i + k)) none

/-- The first of two cases is answered. -/
def halfway : List (SerialStep Rat) :=
  [serially 0 (.create "be brief" "shorter answers" [] none ana), serially 1 (.upsertCase (evalCase "a") ana),
    serially 2 (.upsertCase (evalCase "b") ana), serially 3 (.evaluationStep "id-1" 1000)]

/-- The operator abandons the evaluation, whose cursor stays. -/
def abandoned : List (SerialStep Rat) := halfway ++ [serially 4 (.abandon "id-1" ana "stuck")]

/-- A step crashes before its cursor is written, and the operator abandons it. -/
def parked : List (SerialStep Rat) :=
  [serially 0 (.create "be brief" "shorter answers" [] none ana), serially 1 (.upsertCase (evalCase "a") ana),
    .call (.evaluationStep "id-1" 1000) (fun k => env (200 + k)) (some 8), serially 3 (.abandon "id-1" ana "stuck")]

/-- The provider answers, and no id is taken. -/
def served : StepCall := ⟨1000, fun _ => ⟨9, "final", fun _ => .ok "ok"⟩⟩

/-- The scorecard of case `a`, by which of its outputs pass. -/
def scorecard (baselinePassed candidatePassed : Bool) (caseResults : List (EvolutionCaseResult Rat)) :
    EvolutionScorecard Rat :=
  let score (passed : Bool) : Rat :=
    Host.div (if passed then Host.add (Host.ofInt 0) 1 else Host.ofInt 0) (Host.add (Host.ofInt 0) 1)
  { baselineScore := score baselinePassed
    candidateScore := score candidatePassed
    scoreDelta := Host.sub (score candidatePassed) (score baselinePassed)
    regressions := (baselinePassed && !candidatePassed).toNat
    benchmarkRegressions := 0
    benchmarkSuite := none
    baselinePassedCases := baselinePassed.toNat
    candidatePassedCases := candidatePassed.toNat
    totalCases := 1
    caseResults }

theorem scores_evalCase {b o : Outputs}
    (h : ∀ c ∈ [evalCase "a"], (b.get c.id).isSome ∧ (o.get c.id).isSome) :
    ∃ scorecard, scoreWithBenchmark [evalCase "a"] none b o = .ok scorecard ∧
      engine.Auditable scorecard "final" := by
  obtain ⟨hb, ho⟩ := h (evalCase "a") List.mem_cons_self
  obtain ⟨x, hb⟩ := Option.isSome_iff_exists.mp hb
  obtain ⟨y, ho⟩ := Option.isSome_iff_exists.mp ho
  have hvalid : (evalCase "a").validate = .ok () := by decide +kernel
  have hcases : ∀ tally, scoreCases b o tally [(evalCase "a", false)]
      = .ok (tally.add (evalCase "a") false x y) := fun tally => by
    simp only [scoreCases, hvalid, hb, ho, withContext, context]
    rfl
  have hissues : ∀ z, (evaluateAssertions Rat (evalCase "a").assertions z).isEmpty = contains z "ok" := by
    intro z
    by_cases hc : contains z "ok" = true
    · simp [evaluateAssertions, evalCase, hc]
    · simp [evaluateAssertions, evalCase, hc]
  have hscore : ∃ results, scoreWithBenchmark [evalCase "a"] none b o
      = .ok (scorecard (contains x "ok") (contains y "ok") results) := by
    refine ⟨((⟨0, 0, 0, 0, 0, 0, 0, []⟩ : ScoreTally Rat).add (evalCase "a") false x y).caseResults, ?_⟩
    simp only [scoreWithBenchmark]
    change (scoreCases b o _ [(evalCase "a", false)] >>= _) = _
    rw [hcases]
    simp only [ScoreTally.add, hissues]
    generalize contains x "ok" = p
    generalize contains y "ok" = q
    cases p <;> cases q <;> rfl
  obtain ⟨results, hscore⟩ := hscore
  have haudit : ∀ p q, engine.Auditable (scorecard p q []) "final" := by decide +kernel
  exact ⟨_, hscore, haudit (contains x "ok") (contains y "ok")⟩
end EvolutionSample

open EvolutionSample

/-- After the abandoned evaluation a fresh one completes. -/
theorem evaluation_completes_abandoned :
    Decided (Machine.run engine.serial .initial parked).store
      (Machine.run engine.serial .initial (parked ++ [served.label "id-1"])).store "id-1" := by
  have hnone : (Machine.run engine.serial .initial parked).store.evalRun? "id-1" = none := by decide +kernel
  have hcases : (Machine.run engine.serial .initial parked).start.all = [evalCase "a"] := by decide +kernel
  have hsuite : (Machine.run engine.serial .initial parked).benchmarkSuite = none := by decide +kernel
  have hpending : (Machine.run engine.serial .initial parked).pending "id-1"
      = (Machine.run engine.serial .initial parked).start.cursor "" "id-1" := by
    rw [EvolutionWorld.pending, hnone, Option.getD_none]
  have htail : ((Machine.run engine.serial .initial parked).start.cursor "" "id-1").benchmarkTail = 0 := by
    decide +kernel
  refine ((evaluation_completes engine (by decide +kernel) parked (by decide +kernel)).2 "id-1" 2 [served]
    (by decide +kernel) ⟨fun _ => ⟨⟨by decide +kernel, ?_, by decide +kernel⟩, ?_⟩, ?_, ?_, ?_, ?_⟩
    (by decide +kernel)).1
  · rw [hcases]
    exact List.cons_ne_nil _ _
  · intro c hc k
    rw [List.mem_singleton.mp hc, show (served.env k).freshId = "final" from rfl]
    decide +kernel
  · intro c hc k messages
    rw [List.mem_singleton.mp hc]
    exact ⟨"ok", rfl, by decide⟩
  · intro c hc
    rw [List.mem_singleton.mp hc, hpending]
    decide
  · intro c hc k
    rw [List.mem_singleton.mp hc, show (served.env k).freshId = "final" from rfl]
    exact ⟨by decide +kernel, by decide +kernel⟩
  · intro c hc b o hanswered
    rw [List.mem_singleton.mp hc]
    rw [hpending] at hanswered ⊢
    have hanswered' : ∀ c ∈ [evalCase "a"], (b.get c.id).isSome ∧ (o.get c.id).isSome := by
      rw [← hcases]
      exact hanswered
    obtain ⟨scorecard, hscore, haudit⟩ := scores_evalCase hanswered'
    refine ⟨scorecard, ?_, fun _ => haudit⟩
    rw [EvolutionEngine.resumedSuite, htail, if_neg (Nat.lt_irrefl 0), Nat.sub_zero, List.take_length]
    rw [show ((Machine.run engine.serial .initial parked).start.cursor "" "id-1").cases = _ from hcases]
    exact hscore

/-- After an abandoned evaluation the cursor outlives `evaluating`, and no sequence of steps decides the
candidate. -/
theorem evaluation_wedges :
    (∃ run ∈ (Machine.run engine.serial .initial abandoned).store.evalRuns,
      (Machine.run engine.serial .initial abandoned).store.status? run.candidateId ≠ some .evaluating) ∧
    ∀ steps : List (Nat × (Nat → EvolutionEnv) × Option Nat),
      ¬ Decided (Machine.run engine.serial .initial abandoned).store
        (Machine.run engine.serial .initial (abandoned ++ steps.map fun step =>
          .call (.evaluationStep "id-1" step.1) step.2.1 step.2.2)).store "id-1" := by
  have hwedged : Wedged "id-1" .failed (Machine.run engine.serial .initial abandoned).store :=
    ⟨by decide +kernel, by decide +kernel⟩
  refine ⟨?_, fun steps hdecided => ?_⟩
  · obtain ⟨run, hrun⟩ := Option.isSome_iff_exists.mp hwedged.cursor
    obtain ⟨hmem, hid⟩ := evalRun?_eq_some hrun
    refine ⟨run, hmem, ?_⟩
    rw [hid, hwedged.status]
    decide
  · have hstays : Wedged "id-1" .failed (Machine.run engine.serial _ _).store :=
      wedged_steps (by decide) hwedged steps
    have hstatus := hstays.status
    rw [← Machine.run_append] at hstatus
    rcases hdecided.decided with hready | hrejected
    · rw [hready] at hstatus
      cases hstatus
    · rw [hrejected] at hstatus
      cases hstatus

end Xiaomaolv
