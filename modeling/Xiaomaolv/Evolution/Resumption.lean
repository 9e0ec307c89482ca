import Xiaomaolv.Evolution.Evaluation
import Xiaomaolv.Evolution.Promotion

/-!
# Resumed evaluations

* `Asked`, `Collected`: what a call was answered, and outputs that the provider gave.
* `Cursor`: a cursor holds what its start read and the outputs of the cases before its index.
* `Records`: what is recorded by `evaluate_candidate`, and by the last `run_evaluation_step`.
* **`resumption_sound`**: what the engine's programs owe each other.
* **`resumed_evaluation`**: a resumed evaluation agrees with its start exactly when the suite is stable;
  `resumed_evaluation_drifts`: a new version of the suite breaks it.
-/

namespace Xiaomaolv

open Interleave Table EvolutionStore

variable {R : Type}

/-! ## What was answered -/

abbrev EvolutionLog (R : Type) := List (EvolutionEntry R)

abbrev EvolutionView (R : Type) :=
  View (EvolutionWorld R) (EvolutionCall R) (EvolutionAction R) EvolutionAction.Resp

/-- Thread `i` made the call and was answered `r`. -/
def Asked (log : EvolutionLog R) (i : Nat) (caller : EvolutionCall R) (a : EvolutionAction R) (r : a.Resp) :
    Prop :=
  ∃ w, (⟨i, caller, w, a, .ok r⟩ : EvolutionEntry R) ∈ log

/-- The start is what thread `i` read. -/
def EvalStart.ReadBy (start : EvalStart R) (log : EvolutionLog R) (i : Nat) (caller : EvolutionCall R) :
    Prop :=
  Asked log i caller .listEvalCases start.cases ∧ Asked log i caller .benchmarkSuite start.suite ∧
    Asked log i caller .activePolicy start.active

/-- The outputs of the cases under a policy are answers to calls of `own`. -/
def Collected (log : EvolutionLog R) (own : Nat → EvolutionCall R → Prop) (cases : List (EvolutionEvalCase R))
    (policy : Option (String × String × PromptPatch)) (outputs : Outputs) : Prop :=
  ∀ c ∈ cases, ∃ output i caller, outputs.get c.id = some output ∧ own i caller ∧
    Asked log i caller (.complete (shadowMessages c policy)) output

/-- The patch of the stored candidate. -/
def Patch (s : EvolutionStore R) (candidateId : String) (patch : PromptPatch) : Prop :=
  ∃ c ∈ s.candidates, c.id = candidateId ∧ c.promptPatch = patch.text

/-- Both outputs of every case: under the baseline of the start and under the candidate. -/
def Shadowed (s : EvolutionStore R) (log : EvolutionLog R) (own : Nat → EvolutionCall R → Prop)
    (cases : List (EvolutionEvalCase R)) (active : Option ActiveEvolutionPolicy) (candidateId : String)
    (baselineOutputs candidateOutputs : Outputs) : Prop :=
  Collected log own cases (active.map policyTriple) baselineOutputs ∧
    ∃ patch, Patch s candidateId patch ∧
      Collected log own cases (some (candidateId, "shadow-evaluation", patch)) candidateOutputs

/-- The calls that advance an evaluation of the candidate. -/
def IsStep (candidateId : String) (_ : Nat) (caller : EvolutionCall R) : Prop :=
  ∃ maxResponseBytes, caller = .evaluationStep candidateId maxResponseBytes

/-- The cursor was started from what a step of its candidate read. -/
def StartedFrom (log : EvolutionLog R) (candidateId runId : String) (start : EvalStart R) : Prop :=
  ∃ j caller, IsStep candidateId j caller ∧ start.ReadBy log j caller ∧
    Asked log j caller (.newEvolutionId "evalrun") runId

/-- A cursor holds what its start read and the outputs of the cases before its index. -/
structure Cursor [Host R] (s : EvolutionStore R) (log : EvolutionLog R) (run : EvolutionEvalRun R)
    (start : EvalStart R) : Prop where
  started : StartedFrom log run.candidateId run.id start
  checked : start.Checked
  cases : run.cases = start.all
  tail : run.benchmarkTail = (suiteCases start.suite).length
  baseline : run.baseline = start.active.map policyTriple
  outputs : Shadowed s log (IsStep run.candidateId) (run.cases.take run.caseIndex) start.active
    run.candidateId run.baselineOutputs run.candidateOutputs

/-- Thread `i` took up the cursor, or started it. -/
def TookUp (log : EvolutionLog R) (i : Nat) (caller : EvolutionCall R) (candidateId runId : String) : Prop :=
  (∃ run, run.id = runId ∧ Asked log i caller (.getEvalRun candidateId) (some run)) ∨
    Asked log i caller (.newEvolutionId "evalrun") runId

/-- A resumed evaluation: the start of the cursor that the call took up, and the outputs of all its cases,
which steps of the candidate were answered. -/
def Resumes [Host R] (s : EvolutionStore R) (log : EvolutionLog R) (i : Nat) (caller : EvolutionCall R)
    (candidateId : String) (start : EvalStart R) (baselineOutputs candidateOutputs : Outputs) : Prop :=
  start.Checked ∧
  (∃ runId, TookUp log i caller candidateId runId ∧ StartedFrom log candidateId runId start) ∧
  Shadowed s log (IsStep candidateId) start.all start.active candidateId baselineOutputs candidateOutputs

/-- A whole evaluation: its start, and the outputs of all its cases, which the call itself was answered. -/
def Evaluates (s : EvolutionStore R) (log : EvolutionLog R) (i : Nat) (caller : EvolutionCall R)
    (candidateId : String) (start : EvalStart R) (baselineOutputs candidateOutputs : Outputs) : Prop :=
  start.ReadBy log i caller ∧
  Shadowed s log (fun j c => j = i ∧ c = caller) start.all start.active candidateId baselineOutputs
    candidateOutputs

/-- What each call records while the engine has `suite`. -/
def Records [Host R] (engine : EvolutionEngine R) (s : EvolutionStore R) (log : EvolutionLog R) (i : Nat)
    (suite : Option (EvolutionBenchmarkSuite R)) (caller : EvolutionCall R) (draft : EvolutionEvaluationDraft R) :
    Prop :=
  match caller with
  | .evaluate candidateId _ => draft.candidateId = candidateId ∧ ∃ start baselineOutputs candidateOutputs,
      Evaluates s log i caller candidateId start baselineOutputs candidateOutputs ∧
      engine.shadowEvaluation draft.id draft.candidateId start baselineOutputs candidateOutputs = .ok draft
  | .evaluationStep candidateId _ => draft.candidateId = candidateId ∧
      (∀ s ∈ suite, s.validate = .ok ()) ∧ ∃ start baselineOutputs candidateOutputs,
        Resumes s log i caller candidateId start baselineOutputs candidateOutputs ∧
        engine.shadowEvaluation draft.id draft.candidateId { start with suite := start.resumed suite }
          baselineOutputs candidateOutputs = .ok draft
  | _ => False

/-! ## Later views -/

section

variable {s s' : EvolutionStore R} {log log' : EvolutionLog R} {i : Nat} {caller : EvolutionCall R}
  {own : Nat → EvolutionCall R → Prop} {cases : List (EvolutionEvalCase R)} {candidateId runId : String}
  {baselineOutputs candidateOutputs : Outputs} {start : EvalStart R}

theorem Asked.mono (hlog : log ⊆ log') {a : EvolutionAction R} {r : a.Resp} (h : Asked log i caller a r) :
    Asked log' i caller a r := by
  obtain ⟨w, hx⟩ := h
  exact ⟨w, hlog hx⟩

theorem EvalStart.ReadBy.mono (hlog : log ⊆ log') (h : start.ReadBy log i caller) :
    start.ReadBy log' i caller :=
  ⟨h.1.mono hlog, h.2.1.mono hlog, h.2.2.mono hlog⟩

theorem Collected.mono (hlog : log ⊆ log') {policy : Option (String × String × PromptPatch)} {outputs : Outputs}
    (h : Collected log own cases policy outputs) : Collected log' own cases policy outputs := by
  intro c hc
  obtain ⟨output, j, caller, hget, hown, hasked⟩ := h c hc
  exact ⟨output, j, caller, hget, hown, hasked.mono hlog⟩

theorem Patch.mono (hf : Frozen s s') {patch : PromptPatch} (h : Patch s candidateId patch) :
    Patch s' candidateId patch := by
  obtain ⟨c, hc, hid, hpatch⟩ := h
  obtain ⟨c', hc', hid', hpatch'⟩ := hf.candidate hc
  exact ⟨c', hc', hid'.trans hid, hpatch'.trans hpatch⟩

theorem Patch.unique (hs : Stacked s) {p q : PromptPatch} (hp : Patch s candidateId p)
    (hq : Patch s candidateId q) : p = q := by
  obtain ⟨c, hc, hid, hpatch⟩ := hp
  obtain ⟨c', hc', hid', hpatch'⟩ := hq
  have hcc : c = c' := eq_of_key_eq hs.candidateIds hc hc' (hid.trans hid'.symm)
  subst hcc
  exact PromptPatch.ext (hpatch.symm.trans hpatch')

theorem Shadowed.mono (hf : Frozen s s') (hlog : log ⊆ log') {active : Option ActiveEvolutionPolicy}
    (h : Shadowed s log own cases active candidateId baselineOutputs candidateOutputs) :
    Shadowed s' log' own cases active candidateId baselineOutputs candidateOutputs := by
  obtain ⟨hbase, patch, hpatch, hcand⟩ := h
  exact ⟨hbase.mono hlog, patch, hpatch.mono hf, hcand.mono hlog⟩

theorem StartedFrom.mono (hlog : log ⊆ log') (h : StartedFrom log candidateId runId start) :
    StartedFrom log' candidateId runId start := by
  obtain ⟨j, caller, hstep, hread, hid⟩ := h
  exact ⟨j, caller, hstep, hread.mono hlog, hid.mono hlog⟩

theorem TookUp.mono (hlog : log ⊆ log') (h : TookUp log i caller candidateId runId) :
    TookUp log' i caller candidateId runId := by
  rcases h with ⟨run, hid, hasked⟩ | hasked
  · exact .inl ⟨run, hid, hasked.mono hlog⟩
  · exact .inr (hasked.mono hlog)

theorem Cursor.mono [Host R] (hf : Frozen s s') (hlog : log ⊆ log') {run : EvolutionEvalRun R}
    (h : Cursor s log run start) : Cursor s' log' run start :=
  { h with
    started := h.started.mono hlog
    outputs := h.outputs.mono hf hlog }

theorem Records.mono [Host R] (hf : Frozen s s') (hlog : log ⊆ log') {engine : EvolutionEngine R}
    {suite : Option (EvolutionBenchmarkSuite R)} {draft : EvolutionEvaluationDraft R}
    (h : Records engine s log i suite caller draft) : Records engine s' log' i suite caller draft := by
  cases caller with
  | evaluate candidateId maxResponseBytes =>
    obtain ⟨hid, start, b, c, ⟨hread, hshadowed⟩, hscore⟩ := h
    exact ⟨hid, start, b, c, ⟨hread.mono hlog, hshadowed.mono hf hlog⟩, hscore⟩
  | evaluationStep candidateId maxResponseBytes =>
    obtain ⟨hid, hvalid, start, b, c, ⟨hchecked, ⟨runId, htook, hstarted⟩, hshadowed⟩, hscore⟩ := h
    exact ⟨hid, hvalid, start, b, c, ⟨hchecked, ⟨runId, htook.mono hlog, hstarted.mono hlog⟩,
      hshadowed.mono hf hlog⟩, hscore⟩
  | _ => exact h.elim

end

/-! ## Rely and guarantee -/

/-- Stored rows stay, the log grows, and a process keeps its suite. -/
structure Proceeds (v v' : EvolutionView R) : Prop where
  store : Frozen v.1.store v'.1.store
  log : v.2 <+: v'.2
  suite : v'.1.benchmarkSuite = v.1.benchmarkSuite

theorem Proceeds.refl (v : EvolutionView R) : Proceeds v v := ⟨Frozen.refl _, List.prefix_rfl, rfl⟩

theorem Proceeds.trans (u v w : EvolutionView R) (h : Proceeds u v) (h' : Proceeds v w) : Proceeds u w :=
  ⟨h.store.trans h'.store, h.log.trans h'.log, h'.suite.trans h.suite⟩

/-- What a call has to show before it records an evaluation or stores a cursor. -/
def Owes [Host R] (engine : EvolutionEngine R) (caller : EvolutionCall R) (i : Nat) (v : EvolutionView R) :
    EvolutionAction R → Prop
  | .recordEvaluation draft => Records engine v.1.store v.2 i v.1.benchmarkSuite caller draft
  | .upsertEvalRun run => ∃ start, Cursor v.1.store v.2 run start
  | _ => True

/-- What a call learns from an answer. -/
def Learns [Host R] (v : EvolutionView R) : (a : EvolutionAction R) → a.Resp → Prop
  | .listEvalCases, cases => (cases.map (·.id)).Nodup ∧ ∀ c ∈ cases, c.enabled = true
  | .benchmarkSuite, suite => suite = v.1.benchmarkSuite ∧ ∀ s ∈ suite, s.validate = .ok ()
  | .getEvalRun candidateId, found =>
    ∀ run ∈ found, run.candidateId = candidateId ∧ ∃ start, Cursor v.1.store v.2 run start
  | .getCandidate candidateId, found => ∀ r ∈ found, r.id = candidateId ∧
      Patch v.1.store candidateId r.promptPatch ∧
      ∀ patch, Patch v.1.store candidateId patch → patch = r.promptPatch
  | _, _ => True

/-- The answer is logged, and what it says holds. -/
def Answered [Host R] (caller : EvolutionCall R) (i : Nat) (v : EvolutionView R) (a : EvolutionAction R)
    (r : a.Resp) : Prop :=
  Asked v.2 i caller a r ∧ Learns v a r

/-- The invariant of the views. -/
structure Resuming [Host R] (engine : EvolutionEngine R) (v : EvolutionView R) : Prop where
  stacked : Stacked v.1.store
  suite : ∀ s ∈ v.1.benchmarkSuite, s.validate = .ok ()
  caseIds : (v.1.store.evalCases.map (·.id)).Nodup
  cursors : ∀ run ∈ v.1.store.evalRuns, ∃ start, Cursor v.1.store v.2 run start
  recorded : ∀ x ∈ v.2, ∀ draft, x.action = .recordEvaluation draft →
    Records engine v.1.store v.2 x.thread x.before.benchmarkSuite x.caller draft

/-! ## The invariant of a call -/

section

variable [Host R] {s s' : EvolutionStore R} {t : EvolutionTxn R}

/-- Cursors come from `upsert_eval_run`, and the cases keep distinct ids. -/
theorem tables_apply (h : s.apply t = .ok s') :
    (∀ run ∈ s'.evalRuns, run ∈ s.evalRuns ∨ t = .upsertEvalRun run) ∧
      ((s.evalCases.map (·.id)).Nodup → (s'.evalCases.map (·.id)).Nodup) := by
  cases t with
  | createCandidate draft actor =>
    obtain ⟨row, event, -, -, -, rfl⟩ := createCandidate_ok h
    exact ⟨fun run hrun => .inl hrun, id⟩
  | transitionCandidate candidateId expected next actor details =>
    obtain ⟨-, -, rfl⟩ := transitionCandidate_ok h
    exact ⟨fun run hrun => .inl hrun, id⟩
  | upsertEvalCase evalCase actor =>
    simp only [apply, upsertEvalCase, bind_eq_ok] at h
    obtain ⟨_, -, _, -, _, -, h⟩ := h
    cases insertAuditEvent_ok h
    refine ⟨fun run hrun => .inl hrun, fun hids => ?_⟩
    dsimp only
    split_ifs with hany
    · rw [updateWhere, List.map_map]
      have hsame : ((fun c : EvolutionEvalCase R => c.id) ∘
          fun c => if decide (c.id = evalCase.id) = true then evalCase else c) = fun c => c.id := by
        funext c
        by_cases hc : c.id = evalCase.id
        · simp [hc]
        · simp [hc]
      rw [hsame]
      exact hids
    · refine nodup_concat hids fun c hc he => hany ?_
      exact List.any_eq_true.mpr ⟨c, hc, by simpa using he⟩
  | recordEvaluation draft now =>
    obtain ⟨event, rfl⟩ := recordEvaluation_ok h
    exact ⟨fun run hrun => .inl hrun, id⟩
  | upsertEvalRun run =>
    cases upsertEvalRun_ok h
    refine ⟨fun run' hrun => ?_, id⟩
    rcases List.mem_append.mp hrun with hrun | hrun
    · exact .inl (List.mem_filter.mp hrun).1
    · exact .inr (by rw [List.mem_singleton.mp hrun])
  | clearEvalRun candidateId =>
    cases Except.ok.inj h
    exact ⟨fun run hrun => .inl (List.mem_filter.mp hrun).1, id⟩
  | activateCandidate candidateId actor reason deploymentId now =>
    obtain ⟨⟨d, _⟩, hd, rfl⟩ := fmap_eq_ok.mp h
    obtain ⟨-, -, -, -, event, rfl⟩ := activateCandidate_ok hd
    exact ⟨fun run hrun => .inl hrun, id⟩
  | rollbackActive actor reason now =>
    obtain ⟨⟨result, _⟩, hr, rfl⟩ := fmap_eq_ok.mp h
    obtain ⟨d, event, -, -, -, -, -, rfl⟩ := rollbackActive_ok hr
    exact ⟨fun run hrun => .inl hrun, id⟩
  | recordAuditEvent event =>
    cases insertAuditEvent_ok h
    exact ⟨fun run hrun => .inl hrun, id⟩

variable {env : EvolutionEnv} {i : Nat} {w w' : EvolutionWorld R}

theorem tables_perform {a : EvolutionAction R} {answer : Except String a.Resp}
    (h : w.perform env i a = some (answer, w')) :
    (∀ run ∈ w'.store.evalRuns, run ∈ w.store.evalRuns ∨ a = .upsertEvalRun run) ∧
      ((w.store.evalCases.map (·.id)).Nodup → (w'.store.evalCases.map (·.id)).Nodup) := by
  rw [perform_store h]
  cases ht : a.txn env with
  | none => exact ⟨fun run hrun => .inl hrun, id⟩
  | some t =>
    have hkeep : (∀ run ∈ (w.store.exec t).evalRuns, run ∈ w.store.evalRuns ∨ t = .upsertEvalRun run) ∧
        ((w.store.evalCases.map (·.id)).Nodup → ((w.store.exec t).evalCases.map (·.id)).Nodup) := by
      unfold exec
      split
      · exact tables_apply ‹_›
      · exact ⟨fun run hrun => .inl hrun, id⟩
    refine ⟨fun run hrun => ?_, hkeep.2⟩
    rcases hkeep.1 run hrun with hold | rfl
    · exact .inl hold
    · refine .inr ?_
      cases a with
      | upsertEvalRun run' => rw [EvolutionTxn.upsertEvalRun.inj (Option.some.inj ht)]
      | _ => cases ht

/-- A process keeps its suite. -/
theorem suite_perform {a : EvolutionAction R} {answer : Except String a.Resp}
    (h : w.perform env i a = some (answer, w')) : w'.benchmarkSuite = w.benchmarkSuite := by
  have hcommit : ∀ {α : Type} (tx : Except String (EvolutionStore R))
      (read : EvolutionStore R → Except String α), (w.commit tx read).2.benchmarkSuite = w.benchmarkSuite := by
    intro α tx read
    cases tx <;> rfl
  have hcommitWith : ∀ {α : Type} (tx : Except String (α × EvolutionStore R)),
      (w.commitWith tx).2.benchmarkSuite = w.benchmarkSuite := by
    intro α tx
    cases tx <;> rfl
  cases a with
  | lockEvaluation =>
    simp only [EvolutionWorld.perform] at h
    split_ifs at h
    cases Option.some.inj h
    rfl
  | activateCandidate candidateId actor reason =>
    cases congrArg Prod.snd (Option.some.inj h)
    exact hcommitWith _
  | rollbackActive actor reason =>
    cases congrArg Prod.snd (Option.some.inj h)
    exact hcommitWith _
  | createCandidate _ _ | transitionCandidate _ _ _ _ _ | upsertEvalCase _ _ | recordEvaluation _
    | upsertEvalRun _ =>
    cases congrArg Prod.snd (Option.some.inj h)
    exact hcommit _ _
  | _ =>
    cases congrArg Prod.snd (Option.some.inj h)
    rfl

theorem learns_perform {engine : EvolutionEngine R} {log : EvolutionLog R} (hinv : Resuming engine (w, log))
    {a : EvolutionAction R} {r : a.Resp} (h : w.perform env i a = some (.ok r, w')) {log' : EvolutionLog R}
    (hlog : log ⊆ log') : Learns (w', log') a r := by
  have hensures := ensures_perform hinv.stacked h
  obtain ⟨hstacked, -⟩ := stacked_perform hinv.stacked h
  cases a with
  | listEvalCases =>
    simp only [EvolutionWorld.perform, Option.some.injEq, Prod.mk.injEq, Except.ok.injEq] at h
    obtain ⟨rfl, rfl⟩ := h
    exact ⟨enabledEvalCases_nodup hinv.caseIds, fun c hc => enabledEvalCases_enabled hc⟩
  | benchmarkSuite =>
    simp only [EvolutionWorld.perform, Option.some.injEq, Prod.mk.injEq, Except.ok.injEq] at h
    obtain ⟨rfl, rfl⟩ := h
    exact ⟨rfl, hinv.suite⟩
  | getEvalRun candidateId =>
    simp only [EvolutionWorld.perform, Option.some.injEq, Prod.mk.injEq, Except.ok.injEq] at h
    obtain ⟨rfl, rfl⟩ := h
    intro run hrun
    have hmem := List.mem_of_find?_eq_some (Option.mem_def.mp hrun)
    have hid : run.candidateId = candidateId := by simpa using List.find?_some (Option.mem_def.mp hrun)
    obtain ⟨start, hcursor⟩ := hinv.cursors run hmem
    exact ⟨hid, start, hcursor.mono (Frozen.refl _) hlog⟩
  | getCandidate candidateId =>
    intro record hrecord
    obtain ⟨hid, hpatch⟩ := hensures record hrecord
    exact ⟨hid, hpatch, fun patch hp => hp.unique hstacked hpatch⟩
  | _ => trivial

/-- **A call keeps the invariant, and its answer says what it is taken to say.** -/
theorem resuming_perform {engine : EvolutionEngine R} {log : EvolutionLog R} {c : EvolutionCall R}
    {a : EvolutionAction R} {answer : Except String a.Resp} (hinv : Resuming engine (w, log))
    (howes : Owes engine c i (w, log) a) (h : w.perform env i a = some (answer, w')) :
    Resuming engine (w', log ++ [⟨i, c, w, a, answer⟩]) ∧
      Proceeds (w, log) (w', log ++ [⟨i, c, w, a, answer⟩]) ∧
      ∀ r, answer = .ok r → Answered c i (w', log ++ [⟨i, c, w, a, answer⟩]) a r := by
  obtain ⟨hstacked, hfrozen⟩ := stacked_perform hinv.stacked h
  obtain ⟨hcursors, hcases⟩ := tables_perform h
  have hsuite := suite_perform h
  have hlog : log ⊆ log ++ [(⟨i, c, w, a, answer⟩ : EvolutionEntry R)] := List.subset_append_left _ _
  refine ⟨⟨hstacked, ?_, hcases hinv.caseIds, fun run hrun => ?_, fun x hx draft hdraft => ?_⟩,
    ⟨hfrozen, List.prefix_append _ _, hsuite⟩, fun r hr => ?_⟩
  · rw [hsuite]
    exact hinv.suite
  · rcases hcursors run hrun with hold | rfl
    · obtain ⟨start, hcursor⟩ := hinv.cursors run hold
      exact ⟨start, hcursor.mono hfrozen hlog⟩
    · obtain ⟨start, hcursor⟩ := howes
      exact ⟨start, hcursor.mono hfrozen hlog⟩
  · rcases List.mem_append.mp hx with hx | hx
    · exact (hinv.recorded x hx draft hdraft).mono hfrozen hlog
    · rw [List.mem_singleton.mp hx] at hdraft ⊢
      have ha : a = .recordEvaluation draft := hdraft
      subst ha
      exact Records.mono hfrozen hlog howes
  · subst hr
    exact ⟨⟨w, List.mem_append_right _ (List.mem_singleton_self _)⟩, learns_perform hinv h hlog⟩

end

/-! ## The programs -/

section

variable [Host R] {engine : EvolutionEngine R} {caller : EvolutionCall R} {i : Nat} {v : EvolutionView R}

/-- What a program of the call owes, and what it returns. -/
abbrev Follows {α : Type} (engine : EvolutionEngine R) (caller : EvolutionCall R) (i : Nat) (p : EngineM R α)
    (Q : EvolutionView R → α → Prop) (v : EvolutionView R) : Prop :=
  p.Holds Proceeds (Owes engine caller i) (Answered caller i) Q v

/-- The calls that neither record an evaluation nor store a cursor. -/
def Quiet : EvolutionAction R → Prop
  | .recordEvaluation _ | .upsertEvalRun _ => False
  | _ => True

theorem follows_of_quiet {α : Type} {p : EngineM R α} (h : p.Uses Quiet) :
    Follows engine caller i p (fun _ _ => True) v := by
  refine Prog.holds_of_uses (fun v a ha => ?_) h
  cases a with
  | recordEvaluation draft => exact ha.elim
  | upsertEvalRun run => exact ha.elim
  | _ => trivial

theorem follows_locked {α : Type} {p : EngineM R α}
    (hp : ∀ v', Proceeds v v' → Follows engine caller i p (fun _ _ => True) v') :
    Follows engine caller i (EvolutionEngine.locked p) (fun _ _ => True) v := by
  have hunlock : ∀ (r : Except String α) v',
      Follows engine caller i ((call .unlockEvaluation).attempt fun _ => Prog.ret r) (fun _ _ => True) v' := by
    intro r v'
    refine follows_of_quiet ((Prog.uses_perform trivial).attempt fun _ => ?_)
    trivial
  refine Prog.holds_perform_bind Proceeds.trans (fun _ _ => trivial) fun v₁ _ hv₁ _ => ?_
  exact (hp v₁ hv₁).attempt Proceeds.refl Proceeds.trans (fun v₂ a _ _ => hunlock _ v₂)
    fun v₂ e _ => hunlock _ v₂

/-! ### Cases -/

theorem follows_complete (message : String) (c : EvolutionEvalCase R)
    (policy : Option (String × String × PromptPatch)) :
    Follows engine caller i ((shadowComplete c policy).context message)
      (fun v output => Asked v.2 i caller (.complete (shadowMessages c policy)) output) v := by
  refine Prog.Holds.context Proceeds.refl Proceeds.trans ?_ fun v v' output hv h => h.mono hv.log.subset
  refine Prog.holds_perform (fun _ _ => trivial) (fun v' output w _ hanswer hw => ?_) Proceeds.trans
  exact hanswer.1.mono hw.log.subset

theorem follows_shadowCase (candidate : EvolutionCandidateRecord)
    (baseline : Option (String × String × PromptPatch)) (maxResponseBytes : Nat) (c : EvolutionEvalCase R)
    (responseBytes : Nat) :
    Follows engine caller i (shadowCase candidate baseline maxResponseBytes c responseBytes)
      (fun v outputs => Asked v.2 i caller (.complete (shadowMessages c baseline)) outputs.1 ∧
        Asked v.2 i caller (.complete (shadowMessages c (some (shadowPolicy candidate)))) outputs.2.1) v := by
  refine Prog.Holds.bind Proceeds.refl Proceeds.trans (follows_complete _ _ _) fun v₁ b _ hb => ?_
  refine Prog.holds_lift_bind fun n₁ _ => ?_
  refine Prog.Holds.bind Proceeds.refl Proceeds.trans (follows_complete _ _ _) fun v₂ o hv₂ ho => ?_
  refine Prog.holds_lift_bind fun n₂ _ => ?_
  intro v₃ hv₃
  exact ⟨hb.mono (Proceeds.trans _ _ _ hv₂ hv₃).log.subset, ho.mono hv₃.log.subset⟩

omit [Host R] in
theorem Collected.insert {log : EvolutionLog R} {own : Nat → EvolutionCall R → Prop}
    {cases : List (EvolutionEvalCase R)} {policy : Option (String × String × PromptPatch)} {outputs : Outputs}
    {c : EvolutionEvalCase R} {output : String} (h : Collected log own cases policy outputs)
    (hnodup : ((cases ++ [c]).map (·.id)).Nodup) (hown : own i caller)
    (hasked : Asked log i caller (.complete (shadowMessages c policy)) output) :
    Collected log own (cases ++ [c]) policy (outputs.insert c.id output) := by
  rw [List.map_append, List.nodup_append] at hnodup
  intro c' hc'
  rcases List.mem_append.mp hc' with hc' | hc'
  · obtain ⟨output', j, caller', hget, hown', hasked'⟩ := h c' hc'
    have hne : c.id ≠ c'.id := fun he =>
      hnodup.2.2 c'.id (List.mem_map_of_mem hc') c.id (by simp) he.symm
    exact ⟨output', j, caller', (Outputs.get_insert_of_ne _ _ hne).trans hget, hown', hasked'⟩
  · rw [List.mem_singleton.mp hc']
    exact ⟨output, i, caller, Outputs.get_insert_self _ _ _, hown, hasked⟩

theorem follows_shadowCases (own : Nat → EvolutionCall R → Prop) (hown : own i caller)
    (candidate : EvolutionCandidateRecord) (baseline : Option (String × String × PromptPatch))
    (maxResponseBytes : Nat) (done cases : List (EvolutionEvalCase R)) (baselineOutputs candidateOutputs : Outputs)
    (responseBytes : Nat) (hnodup : ((done ++ cases).map (·.id)).Nodup)
    (hbase : Collected v.2 own done baseline baselineOutputs)
    (hcand : Collected v.2 own done (some (shadowPolicy candidate)) candidateOutputs) :
    Follows engine caller i
      (shadowCases candidate baseline maxResponseBytes cases baselineOutputs candidateOutputs responseBytes)
      (fun v outputs => Collected v.2 own (done ++ cases) baseline outputs.1 ∧
        Collected v.2 own (done ++ cases) (some (shadowPolicy candidate)) outputs.2.1) v := by
  induction cases generalizing v done baselineOutputs candidateOutputs responseBytes with
  | nil =>
    intro v' hv'
    rw [List.append_nil]
    exact ⟨hbase.mono hv'.log.subset, hcand.mono hv'.log.subset⟩
  | cons c cases ih =>
    have hsplit : done ++ c :: cases = (done ++ [c]) ++ cases := by simp
    rw [hsplit] at hnodup ⊢
    have hone : ((done ++ [c]).map (·.id)).Nodup := by
      rw [List.map_append] at hnodup
      exact (List.nodup_append.mp hnodup).1
    refine Prog.Holds.bind Proceeds.refl Proceeds.trans (follows_shadowCase _ _ _ _ _)
      fun v₁ outputs hv₁ houtputs => ?_
    exact ih _ _ _ _ hnodup ((hbase.mono hv₁.log.subset).insert hone hown houtputs.1)
      ((hcand.mono hv₁.log.subset).insert hone hown houtputs.2)

/-! ### The end of an evaluation -/

theorem follows_finalize {candidate : EvolutionCandidateRecord} (start : EvalStart R)
    {baselineOutputs candidateOutputs : Outputs}
    (h : ∀ draft, draft.candidateId = candidate.id →
      engine.shadowEvaluation draft.id draft.candidateId start baselineOutputs candidateOutputs = .ok draft →
      Records engine v.1.store v.2 i v.1.benchmarkSuite caller draft) :
    Follows engine caller i (engine.finalizeShadowEvaluation candidate start.cases start.suite baselineOutputs
      candidateOutputs (start.active.map (·.candidateId))) (fun _ _ => True) v := by
  refine Prog.holds_lift_bind fun scorecard hscore => ?_
  refine Prog.holds_perform_bind Proceeds.trans (fun _ _ => trivial) fun v₁ id hv₁ _ => ?_
  refine Prog.holds_perform_bind Proceeds.trans (fun v₂ hv₂ => ?_) fun v₃ evaluation _ _ => ?_
  · have hv := Proceeds.trans _ _ _ hv₁ hv₂
    have hrecords := h
      { id, candidateId := candidate.id, baselineCandidateId := start.active.map (·.candidateId), scorecard,
        decision := engine.gateConfig.decide scorecard, gateConfig := engine.gateConfig } rfl
      (by simp only [EvolutionEngine.shadowEvaluation, hscore]; rfl)
    rw [← hv.suite] at hrecords
    exact hrecords.mono hv.store hv.log.subset
  · refine follows_of_quiet ?_
    cases engine.gateConfig.decide scorecard with
    | ready => exact .bind (Prog.uses_perform trivial) fun _ => Prog.uses_pure _
    | rejected reasons => exact .bind (Prog.uses_perform trivial) fun _ => Prog.uses_pure _

/-! ### Whole evaluations -/

theorem follows_evaluateCandidateInner {candidateId : String} {maxResponseBytes : Nat}
    {candidate : EvolutionCandidateRecord} (hid : candidate.id = candidateId)
    (hpatch : Patch v.1.store candidateId candidate.promptPatch) :
    Follows engine (.evaluate candidateId maxResponseBytes) i
      (engine.evaluateCandidateInner candidate maxResponseBytes) (fun _ _ => True) v := by
  subst hid
  refine Prog.holds_perform_bind Proceeds.trans (fun _ _ => trivial) fun v₁ cases hv₁ ⟨hcases, hids, _⟩ => ?_
  refine Prog.holds_perform_bind Proceeds.trans (fun _ _ => trivial)
    fun v₂ suite hv₂ ⟨hsuite, _, hvalid⟩ => ?_
  refine Prog.holds_lift_bind fun _ hcollision => ?_
  refine Prog.holds_perform_bind Proceeds.trans (fun _ _ => trivial) fun v₃ active hv₃ ⟨hactive, _⟩ => ?_
  have hnodup := EvalStart.nodup_all ⟨cases, suite, active⟩ hids hvalid hcollision
  refine Prog.Holds.bind Proceeds.refl Proceeds.trans
    (follows_shadowCases (fun j c => j = i ∧ c = .evaluate candidate.id maxResponseBytes) ⟨rfl, rfl⟩
      candidate (active.map policyTriple) maxResponseBytes [] _ [] [] 0 hnodup (by simp [Collected])
      (by simp [Collected])) fun v₄ outputs hv₄ ⟨hbase, hcand⟩ => ?_
  refine follows_finalize ⟨cases, suite, active⟩ fun draft hdraft hscore => ?_
  have h₃₄ := hv₄.log.subset
  have h₂₄ := (Proceeds.trans _ _ _ hv₃ hv₄).log.subset
  have h₁₄ := (Proceeds.trans _ _ _ hv₂ (Proceeds.trans _ _ _ hv₃ hv₄)).log.subset
  have hpatch₄ := hpatch.mono (Proceeds.trans _ _ _ hv₁
    (Proceeds.trans _ _ _ hv₂ (Proceeds.trans _ _ _ hv₃ hv₄))).store
  exact ⟨hdraft, ⟨cases, suite, active⟩, _, _,
    ⟨⟨hcases.mono h₁₄, hsuite.mono h₂₄, hactive.mono h₃₄⟩, hbase, candidate.promptPatch, hpatch₄, hcand⟩,
    hscore⟩

theorem follows_evaluateCandidate (candidateId : String) (maxResponseBytes : Nat) :
    Follows engine (.evaluate candidateId maxResponseBytes) i
      (engine.evaluateCandidate candidateId maxResponseBytes) (fun _ _ => True) v := by
  refine follows_locked fun v₀ _ => ?_
  refine Prog.holds_perform_bind Proceeds.trans (fun _ _ => trivial) fun v₁ found _ ⟨_, hfound⟩ => ?_
  refine Prog.holds_lift_bind fun candidate hcandidate => ?_
  obtain ⟨hid, hpatch, -⟩ := hfound candidate (context_eq_ok.mp hcandidate)
  refine Prog.holds_lift_bind fun _ _ => ?_
  refine Prog.holds_perform_bind Proceeds.trans (fun _ _ => trivial) fun v₂ _ hv₂ _ => ?_
  refine Prog.Holds.attempt Proceeds.refl Proceeds.trans
    (follows_evaluateCandidateInner hid (hpatch.mono hv₂.store)) (fun v₃ evaluation _ _ => ?_)
    fun v₃ e _ => ?_
  · exact fun _ _ => trivial
  · refine follows_of_quiet ((Prog.uses_perform trivial).attempt fun _ => ?_)
    trivial

/-! ### Steps of an evaluation -/

/-- A cursor of the candidate, which the thread took up or started. -/
def Holding (caller : EvolutionCall R) (i : Nat) (candidateId : String) (v : EvolutionView R)
    (run : EvolutionEvalRun R) : Prop :=
  run.candidateId = candidateId ∧ TookUp v.2 i caller candidateId run.id ∧
    ∃ start, Cursor v.1.store v.2 run start

theorem Holding.mono {candidateId : String} {run : EvolutionEvalRun R} {v' : EvolutionView R}
    (hv : Proceeds v v') (h : Holding caller i candidateId v run) : Holding caller i candidateId v' run := by
  obtain ⟨hid, htook, start, hcursor⟩ := h
  exact ⟨hid, htook.mono hv.log.subset, start, hcursor.mono hv.store hv.log.subset⟩

/-- The first step freezes what it read. -/
theorem follows_startEvalRun {candidateId : String} (hstep : IsStep candidateId i caller) :
    Follows engine caller i (engine.startEvalRun candidateId) (Holding caller i candidateId) v := by
  refine Prog.holds_perform_bind Proceeds.trans (fun _ _ => trivial) fun v₁ found _ ⟨_, hfound⟩ => ?_
  refine Prog.holds_lift_bind fun candidate hcandidate => ?_
  obtain ⟨-, hpatch, -⟩ := hfound candidate (context_eq_ok.mp hcandidate)
  refine Prog.Holds.bind (Q := fun _ _ => True) Proceeds.refl Proceeds.trans (follows_of_quiet ?_)
    fun v₂ candidate' hv₂ _ => ?_
  · split_ifs
    · exact .bind (Prog.uses_perform trivial) fun _ => .bind (Prog.uses_perform trivial) fun _ =>
        Prog.uses_lift _
    · exact Prog.uses_pure _
  refine Prog.holds_lift_bind fun _ _ => ?_
  refine Prog.holds_perform_bind Proceeds.trans (fun _ _ => trivial)
    fun v₃ cases hv₃ ⟨hcases, hids, henabled⟩ => ?_
  refine Prog.holds_perform_bind Proceeds.trans (fun _ _ => trivial)
    fun v₄ suite hv₄ ⟨hsuite, _, hvalid⟩ => ?_
  refine Prog.holds_lift_bind fun _ hcollision => ?_
  refine Prog.holds_lift_bind fun _ _ => ?_
  refine Prog.holds_perform_bind Proceeds.trans (fun _ _ => trivial) fun v₅ active hv₅ ⟨hactive, _⟩ => ?_
  refine Prog.holds_perform_bind Proceeds.trans (fun _ _ => trivial) fun v₆ _ hv₆ _ => ?_
  refine Prog.holds_perform_bind Proceeds.trans (fun _ _ => trivial) fun v₇ id hv₇ ⟨hasked, _⟩ => ?_
  have h₅₇ := Proceeds.trans _ _ _ hv₆ hv₇
  have h₄₇ := Proceeds.trans _ _ _ hv₅ h₅₇
  have h₃₇ := Proceeds.trans _ _ _ hv₄ h₄₇
  have h₁₇ := Proceeds.trans _ _ _ hv₂ (Proceeds.trans _ _ _ hv₃ h₃₇)
  have hread : EvalStart.ReadBy ⟨cases, suite, active⟩ v₇.2 i caller :=
    ⟨hcases.mono h₃₇.log.subset, hsuite.mono h₄₇.log.subset, hactive.mono h₅₇.log.subset⟩
  have hrun : Holding caller i candidateId v₇
      { id, candidateId, cases := cases ++ suiteCases suite, benchmarkTail := (suiteCases suite).length,
        baseline := active.map policyTriple, caseIndex := 0, baselineOutputs := [], candidateOutputs := [],
        responseBytes := 0 } := by
    refine ⟨rfl, .inr hasked, ⟨cases, suite, active⟩, ?_⟩
    exact
      { started := ⟨i, caller, hstep, hread, hasked⟩
        checked := ⟨henabled, hvalid, EvalStart.nodup_all _ hids hvalid hcollision⟩
        cases := rfl
        tail := rfl
        baseline := rfl
        outputs := ⟨by simp [Collected], candidate.promptPatch, hpatch.mono h₁₇.store, by simp [Collected]⟩ }
  refine Prog.holds_perform_bind Proceeds.trans (fun v₈ hv₈ => ?_) fun v₈ _ hv₈ _ => ?_
  · obtain ⟨-, -, start, hcursor⟩ := hrun.mono hv₈
    exact ⟨start, hcursor⟩
  · exact fun v₉ hv₉ => hrun.mono (Proceeds.trans _ _ _ hv₈ hv₉)

theorem Cursor.resumedSuite {s : EvolutionStore R} {log : EvolutionLog R} {run : EvolutionEvalRun R}
    {start : EvalStart R} (h : Cursor s log run start) (suite : Option (EvolutionBenchmarkSuite R)) :
    EvolutionEngine.resumedSuite run suite = start.resumed suite := by
  rw [EvolutionEngine.resumedSuite, h.cases, h.tail]
  cases hs : start.suite with
  | none => simp [EvalStart.resumed, suiteCases, hs]
  | some frozen =>
    have hpos : 0 < frozen.cases.length :=
      List.length_pos_of_ne_nil (suite_cases (h.checked.valid frozen hs)).1
    simp [EvalStart.resumed, EvalStart.all, suiteCases, hs, hpos]

/-- The cursor after one more case. -/
def EvolutionEvalRun.next (run : EvolutionEvalRun R) (c : EvolutionEvalCase R)
    (outputs : String × String × Nat) : EvolutionEvalRun R :=
  { run with
    responseBytes := outputs.2.2
    baselineOutputs := run.baselineOutputs.insert c.id outputs.1
    candidateOutputs := run.candidateOutputs.insert c.id outputs.2.1
    caseIndex := run.caseIndex + 1 }

/-- **A case more**: the cursor holds the outputs of the case that it was at. -/
theorem Cursor.next {s : EvolutionStore R} {log : EvolutionLog R} {run : EvolutionEvalRun R}
    {start : EvalStart R} (h : Cursor s log run start) {c : EvolutionEvalCase R}
    (hc : run.cases[run.caseIndex]? = some c) {outputs : String × String × Nat}
    (hstep : IsStep run.candidateId i caller)
    (hbase : Asked log i caller (.complete (shadowMessages c run.baseline)) outputs.1)
    {patch : PromptPatch} (hpatch : ∀ q, Patch s run.candidateId q → q = patch)
    (hcand : Asked log i caller
      (.complete (shadowMessages c (some (run.candidateId, "shadow-evaluation", patch)))) outputs.2.1) :
    Cursor s log (run.next c outputs) start := by
  have htake : run.cases.take (run.caseIndex + 1) = run.cases.take run.caseIndex ++ [c] := by
    rw [List.take_add_one, hc]
    rfl
  have hnodup : ((run.cases.take run.caseIndex ++ [c]).map (·.id)).Nodup := by
    rw [← htake, h.cases]
    exact h.checked.nodup.sublist ((List.take_sublist _ _).map _)
  obtain ⟨hb, q, hq, hd⟩ := h.outputs
  have hqp := hpatch q hq
  rw [hqp] at hq hd
  rw [h.baseline] at hbase
  have houtputs : Shadowed s log (IsStep run.candidateId) (run.cases.take run.caseIndex ++ [c]) start.active
      run.candidateId (run.baselineOutputs.insert c.id outputs.1)
      (run.candidateOutputs.insert c.id outputs.2.1) :=
    ⟨hb.insert hnodup hstep hbase, patch, hq, hd.insert hnodup hstep hcand⟩
  rw [← htake] at houtputs
  exact { h with outputs := houtputs }

theorem follows_advanceEvalRun {candidateId : String} {maxResponseBytes : Nat} {run : EvolutionEvalRun R}
    (h : Holding (.evaluationStep candidateId maxResponseBytes) i candidateId v run) :
    Follows engine (.evaluationStep candidateId maxResponseBytes) i
      (engine.advanceEvalRun candidateId maxResponseBytes run) (fun _ _ => True) v := by
  refine Prog.holds_perform_bind Proceeds.trans (fun _ _ => trivial) fun v₁ found hv₁ ⟨_, hfound⟩ => ?_
  refine Prog.holds_lift_bind fun candidate hcandidate => ?_
  obtain ⟨hid, hpatch, hunique⟩ := hfound candidate (context_eq_ok.mp hcandidate)
  refine Prog.holds_lift_bind fun c hc => ?_
  have hcase := context_eq_ok.mp hc
  refine Prog.Holds.bind Proceeds.refl Proceeds.trans (follows_shadowCase _ _ _ _ _)
    fun v₂ outputs hv₂ ⟨hbase, hcand⟩ => ?_
  obtain ⟨rfl, htook, start, hcursor⟩ := h.mono hv₁
  have hnext : Cursor v₂.1.store v₂.2 (run.next c outputs) start := by
    have hcand' : Asked v₂.2 i (.evaluationStep run.candidateId maxResponseBytes) (.complete (shadowMessages c
        (some (run.candidateId, "shadow-evaluation", candidate.promptPatch)))) outputs.2.1 := by
      rw [← hid] at hcand ⊢
      exact hcand
    have hstep : IsStep run.candidateId i
        (.evaluationStep run.candidateId maxResponseBytes : EvolutionCall R) := ⟨maxResponseBytes, rfl⟩
    exact ((hcursor.mono (Frozen.refl _) hv₂.log.subset).next hcase hstep hbase hunique hcand').mono hv₂.store
      (List.Subset.refl _)
  change Follows engine _ i (if (run.next c outputs).caseIndex < (run.next c outputs).cases.length
    then _ else _) _ v₂
  split_ifs with hlt
  · refine Prog.holds_perform (fun v₃ hv₃ => ?_) (fun _ _ _ _ _ _ => trivial) Proceeds.trans
    exact ⟨start, hnext.mono hv₃.store hv₃.log.subset⟩
  · refine Prog.holds_perform_bind Proceeds.trans (fun _ _ => trivial)
      fun v₃ suite hv₃ ⟨_, hsuite, hvalid⟩ => ?_
    refine Prog.Holds.bind (Q := fun _ _ => True) Proceeds.refl Proceeds.trans ?_
      fun v₄ _ _ _ => follows_of_quiet (Prog.uses_perform trivial)
    have hlast := hnext.mono hv₃.store hv₃.log.subset
    have hcases : (run.next c outputs).cases.take
        ((run.next c outputs).cases.length - (run.next c outputs).benchmarkTail) = start.cases := by
      rw [hlast.cases, hlast.tail, EvalStart.all, List.length_append, Nat.add_sub_cancel, List.take_left]
    have hbaseline : (run.next c outputs).baseline.map (·.1) = start.active.map (·.candidateId) := by
      rw [hlast.baseline, Option.map_map]
      rfl
    have hall : (run.next c outputs).cases.take (run.next c outputs).caseIndex = start.all := by
      rw [List.take_of_length_le (Nat.le_of_not_lt hlt), hlast.cases]
    have houtputs := hlast.outputs
    rw [hall] at houtputs
    change Follows engine _ i (engine.finalizeShadowEvaluation candidate
      ((run.next c outputs).cases.take ((run.next c outputs).cases.length - (run.next c outputs).benchmarkTail))
      (EvolutionEngine.resumedSuite (run.next c outputs) suite) (run.next c outputs).baselineOutputs
      (run.next c outputs).candidateOutputs ((run.next c outputs).baseline.map (·.1))) _ v₃
    rw [hcases, hbaseline, hlast.resumedSuite]
    refine follows_finalize { start with suite := start.resumed suite } fun draft hdraft hscore => ?_
    rw [hsuite] at hscore hvalid
    have hresumes : Resumes v₃.1.store v₃.2 i (.evaluationStep run.candidateId maxResponseBytes)
        run.candidateId start (run.next c outputs).baselineOutputs (run.next c outputs).candidateOutputs :=
      ⟨hlast.checked, ⟨run.id, htook.mono (Proceeds.trans _ _ _ hv₂ hv₃).log.subset, hlast.started⟩, houtputs⟩
    exact ⟨hdraft.trans hid, hvalid, start, _, _, hresumes, hscore⟩

theorem follows_runEvaluationStep (candidateId : String) (maxResponseBytes : Nat) :
    Follows engine (.evaluationStep candidateId maxResponseBytes) i
      (engine.runEvaluationStep candidateId maxResponseBytes) (fun _ _ => True) v := by
  refine Prog.holds_lift_bind fun _ _ => follows_locked fun v₀ _ => ?_
  refine Prog.holds_perform_bind Proceeds.trans (fun _ _ => trivial) fun v₁ found _ ⟨hasked, hfound⟩ => ?_
  refine Prog.Holds.bind (Q := Holding (.evaluationStep candidateId maxResponseBytes) i candidateId)
    Proceeds.refl Proceeds.trans ?_ fun v₂ run _ hrun => follows_advanceEvalRun hrun
  cases found with
  | none => exact follows_startEvalRun ⟨maxResponseBytes, rfl⟩
  | some run =>
    obtain ⟨hid, start, hcursor⟩ := hfound run rfl
    have hrun : Holding (.evaluationStep candidateId maxResponseBytes) i candidateId v₁ run :=
      ⟨hid, .inl ⟨run, rfl, hasked⟩, start, hcursor⟩
    exact fun v₂ hv₂ => hrun.mono hv₂

theorem quiet_program (engine : EvolutionEngine R) (call : EvolutionCall R) :
    (∃ candidateId maxResponseBytes, call = .evaluate candidateId maxResponseBytes
      ∨ call = .evaluationStep candidateId maxResponseBytes) ∨ (engine.program call).Uses Quiet := by
  have hquiet : (∀ draft, ¬ call.MayCall (.recordEvaluation draft)) → (∀ run, ¬ call.MayCall (.upsertEvalRun run)) →
      (engine.program call).Uses Quiet := fun hrecord hcursor => (uses_program engine call).imp fun a ha => by
    cases a with
    | recordEvaluation draft => exact hrecord draft ha
    | upsertEvalRun run => exact hcursor run ha
    | _ => trivial
  cases call with
  | evaluate candidateId maxResponseBytes => exact .inl ⟨_, _, .inl rfl⟩
  | evaluationStep candidateId maxResponseBytes => exact .inl ⟨_, _, .inr rfl⟩
  | _ => exact .inr (hquiet (fun _ h => h) fun _ h => h)

/-- **Every program of the engine meets its specification.** -/
theorem follows_program (call : EvolutionCall R) :
    Follows engine call i (engine.program call) (fun _ _ => True) v := by
  rcases quiet_program engine call with ⟨candidateId, maxResponseBytes, rfl | rfl⟩ | hquiet
  · exact Prog.Holds.bind Proceeds.refl Proceeds.trans (follows_evaluateCandidate _ _)
      fun _ _ _ _ => fun _ _ => trivial
  · exact follows_runEvaluationStep _ _
  · exact follows_of_quiet hquiet

omit [Host R] in
theorem Resuming.world [Host R] {engine : EvolutionEngine R} {w w' : EvolutionWorld R} {log : EvolutionLog R}
    (h : Resuming engine (w, log)) (hstore : w'.store = w.store)
    (hsuite : ∀ s ∈ w'.benchmarkSuite, s.validate = .ok ()) : Resuming engine (w', log) := by
  obtain ⟨hstacked, -, hids, hcursors, hrecorded⟩ := h
  dsimp only at hstacked hids hcursors hrecorded
  rw [← hstore] at hstacked hids hcursors hrecorded
  exact ⟨hstacked, hsuite, hids, hcursors, hrecorded⟩

theorem resumption_sound (engine : EvolutionEngine R) :
    Sound engine.system Proceeds (Owes engine) (Answered (R := R)) (Resuming engine) where
  refl := Proceeds.refl
  trans := Proceeds.trans
  program _ call _ := follows_program call
  perform hinv howes h := resuming_perform hinv howes h
  release {w log i} hinv := by
    have hrelease : (w.release i).store = w.store ∧ (w.release i).benchmarkSuite = w.benchmarkSuite := by
      unfold EvolutionWorld.release
      split_ifs <;> exact ⟨rfl, rfl⟩
    have hstore : (engine.system.release i w).store = w.store := hrelease.1
    refine ⟨hinv.world hstore fun s hs => hinv.suite s (hrelease.2 ▸ hs), ?_, List.prefix_rfl, hrelease.2⟩
    exact (congrArg (Frozen w.store) hstore).mpr (Frozen.refl _)
  restart {w log suite w'} hinv h := by
    simp only [EvolutionEngine.system, EvolutionWorld.restart] at h
    split at h
    · rename_i policy u hpolicy hsuite
      cases h
      refine hinv.world rfl fun s hs => ?_
      have hsome : suite = some s := hs
      rw [hsome] at hsuite
      exact hsuite
    · cases h

omit [Host R] in
theorem resuming_initial [Host R] (engine : EvolutionEngine R) :
    Resuming engine ((.initial : EvolutionWorld R), []) where
  stacked := stacked_empty
  suite := by simp [EvolutionWorld.initial]
  caseIds := by simp [EvolutionWorld.initial, EvolutionStore.empty]
  cursors := by simp [EvolutionWorld.initial, EvolutionStore.empty]
  recorded := by simp

/-! ## Resumed and whole evaluations -/

/-- **Resumed evaluations.** In every interleaving, with crashes and reconfigurations between any two calls:
what `evaluate_candidate` records is the evaluation of what it read, from the outputs that it was answered;
what the last step of a cursor records, from the outputs that the steps of its candidate were answered, is the
evaluation of what the cursor's first step read, with every case scored once, exactly when the engine still
has the suite of that first step by its label and the suite's cases are enabled. -/
theorem resumed_evaluation (engine : EvolutionEngine R) (labels : List (EvolutionStep R)) :
    (∀ x ∈ (Machine.run (step engine.system) (.initial .initial) labels).log,
      ∀ draft candidateId maxResponseBytes, x.caller = .evaluate candidateId maxResponseBytes →
        x.action = .recordEvaluation draft → ∃ start baselineOutputs candidateOutputs,
        Evaluates (Machine.run (step engine.system) (.initial .initial) labels).world.store
          (Machine.run (step engine.system) (.initial .initial) labels).log x.thread x.caller candidateId start
          baselineOutputs candidateOutputs ∧
        engine.shadowEvaluation draft.id candidateId start baselineOutputs candidateOutputs = .ok draft) ∧
    ∀ x ∈ (Machine.run (step engine.system) (.initial .initial) labels).log,
      ∀ draft candidateId maxResponseBytes, x.caller = .evaluationStep candidateId maxResponseBytes →
        x.action = .recordEvaluation draft → ∃ start baselineOutputs candidateOutputs,
        Resumes (Machine.run (step engine.system) (.initial .initial) labels).world.store
          (Machine.run (step engine.system) (.initial .initial) labels).log x.thread x.caller candidateId start
          baselineOutputs candidateOutputs ∧
        (engine.Agrees start baselineOutputs candidateOutputs draft ↔ start.Stable x.before.benchmarkSuite) := by
  have hrun := (resumption_sound engine).run (resuming_initial engine) labels
  refine ⟨fun x hx draft candidateId maxResponseBytes hcaller hdraft => ?_,
    fun x hx draft candidateId maxResponseBytes hcaller hdraft => ?_⟩
  · have hrecorded := hrun.recorded x hx draft hdraft
    rw [hcaller] at hrecorded ⊢
    obtain ⟨rfl, start, b, c, hevaluates, hscore⟩ := hrecorded
    exact ⟨start, b, c, hevaluates, hscore⟩
  · have hrecorded := hrun.recorded x hx draft hdraft
    rw [hcaller] at hrecorded ⊢
    obtain ⟨rfl, hvalid, start, b, c, hresumes, hscore⟩ := hrecorded
    exact ⟨start, b, c, hresumes, shadowEvaluation_iff hresumes.1 hvalid hscore⟩

end

namespace EvolutionSample

def suite (version : String) : EvolutionBenchmarkSuite Rat where
  id := "core"
  version
  cases := [evalCase "bench"]

/-- An evaluation of two steps; the process of the second one has the suite under `version`. -/
def resumed (version : String) : List (EvolutionStep Rat) :=
  whole 0 (.create "be brief" "shorter answers" [] none ana)
    ++ whole 1 (.upsertCase (evalCase "a") ana)
    ++ .restart (some (suite "1")) :: whole 2 (.evaluationStep "id-0" 1000)
    ++ .restart (some (suite version)) :: whole 3 (.evaluationStep "id-0" 1000)

def resumedLog (version : String) : EvolutionLog Rat :=
  (Machine.run (step engine.system) (.initial .initial) (resumed version)).log

/-- The entry records an evaluation for a step of the candidate. -/
def recordsStep (x : EvolutionEntry Rat) : Bool :=
  match x.caller, x.action with
  | .evaluationStep candidateId _, .recordEvaluation _ => candidateId = "id-0"
  | _, _ => false

/-- The thread started a cursor. -/
def startsRun (x : EvolutionEntry Rat) : Bool :=
  match x.action with
  | .newEvolutionId kind => kind = "evalrun"
  | _ => false

def readSuite (x : EvolutionEntry Rat) : Option (Option (EvolutionBenchmarkSuite Rat)) :=
  match x.action, x.answer with
  | .benchmarkSuite, .ok suite => some suite
  | _, _ => none

/-- The label of the scorecard that the entry records. -/
def recordedLabel (x : EvolutionEntry Rat) : Option String :=
  match x.action with
  | .recordEvaluation draft => draft.scorecard.benchmarkSuite
  | _ => none

theorem of_recordsStep {x : EvolutionEntry Rat} (h : recordsStep x = true) :
    ∃ maxResponseBytes draft, x.caller = .evaluationStep "id-0" maxResponseBytes ∧
      x.action = .recordEvaluation draft := by
  unfold recordsStep at h
  split at h
  · rename_i candidateId maxResponseBytes draft hcaller haction
    exact ⟨maxResponseBytes, draft, by rw [hcaller, of_decide_eq_true h], haction⟩
  · cases h

theorem suite_of_started {version runId : String} {start : EvalStart Rat}
    (hreads : ∀ x ∈ resumedLog version, startsRun x = true → ∀ y ∈ resumedLog version, y.thread = x.thread →
      ∀ s ∈ readSuite y, s = some (suite "1"))
    (h : StartedFrom (resumedLog version) "id-0" runId start) : start.suite = some (suite "1") := by
  obtain ⟨j, caller, -, ⟨-, ⟨w, hread⟩, -⟩, w', hstarted⟩ := h
  exact hreads _ hstarted rfl _ hread rfl start.suite rfl

end EvolutionSample

open EvolutionSample

/-- The process keeps its suite, and the resumed evaluation agrees with its start. -/
theorem resumed_evaluation_same :
    ∃ x ∈ resumedLog "1", ∃ draft start baselineOutputs candidateOutputs, x.action = .recordEvaluation draft ∧
      engine.Agrees start baselineOutputs candidateOutputs draft := by
  have hrecords : ∃ x ∈ resumedLog "1", recordsStep x = true := List.any_eq_true.mp (by decide +kernel)
  have hsuite : ∀ x ∈ resumedLog "1", recordsStep x = true → x.before.benchmarkSuite = some (suite "1") := by
    decide +kernel
  have hreads : ∀ x ∈ resumedLog "1", startsRun x = true → ∀ y ∈ resumedLog "1", y.thread = x.thread →
      ∀ s ∈ readSuite y, s = some (suite "1") := by
    decide +kernel
  obtain ⟨x, hx, hrecord⟩ := hrecords
  obtain ⟨maxResponseBytes, draft, hcaller, hdraft⟩ := of_recordsStep hrecord
  obtain ⟨start, b, c, ⟨-, ⟨runId, -, hstarted⟩, -⟩, hagrees⟩ :=
    (resumed_evaluation engine (resumed "1")).2 x hx draft "id-0" maxResponseBytes hcaller hdraft
  refine ⟨x, hx, draft, start, b, c, hdraft, hagrees.mpr fun frozen hfrozen => ?_⟩
  rw [suite_of_started hreads hstarted, Option.mem_some_iff] at hfrozen
  rw [hsuite x hx hrecord, ← hfrozen]
  exact ⟨rfl, by decide⟩

/-- A new version of the suite between two steps is recorded for the cases of the old one. -/
theorem resumed_evaluation_drifts :
    ¬ ∀ x ∈ resumedLog "2", ∀ draft maxResponseBytes, x.caller = .evaluationStep "id-0" maxResponseBytes →
      x.action = .recordEvaluation draft → ∃ start baselineOutputs candidateOutputs runId,
        StartedFrom (resumedLog "2") "id-0" runId start ∧
        engine.Agrees start baselineOutputs candidateOutputs draft := by
  have hrecords : ∃ x ∈ resumedLog "2", recordsStep x = true := List.any_eq_true.mp (by decide +kernel)
  have hlabel : ∀ x ∈ resumedLog "2", recordsStep x = true → recordedLabel x = some "core@2" := by
    decide +kernel
  have hreads : ∀ x ∈ resumedLog "2", startsRun x = true → ∀ y ∈ resumedLog "2", y.thread = x.thread →
      ∀ s ∈ readSuite y, s = some (suite "1") := by
    decide +kernel
  intro h
  obtain ⟨x, hx, hrecord⟩ := hrecords
  obtain ⟨maxResponseBytes, draft, hcaller, hdraft⟩ := of_recordsStep hrecord
  obtain ⟨start, b, c, runId, hstarted, hagrees, -⟩ := h x hx draft maxResponseBytes hcaller hdraft
  have hrecorded : draft.scorecard.benchmarkSuite = some "core@2" := by
    rw [← hlabel x hx hrecord, recordedLabel, hdraft]
  have hscored : draft.scorecard.benchmarkSuite = some "core@1" := by
    simp only [EvolutionEngine.shadowEvaluation, bind_eq_ok, pure_eq_ok] at hagrees
    obtain ⟨scorecard, hscore, hd⟩ := hagrees
    rw [← hd, scoreWithBenchmark_label hscore, suite_of_started hreads hstarted]
    rfl
  rw [hrecorded] at hscored
  exact absurd hscored (by decide)

end Xiaomaolv
