import Xiaomaolv.Evolution.Approvals

/-!
# Evaluations of a frozen suite

* `EvalStart`: the cases, the suite and the policy that an evaluation starts from.
* `EvolutionEngine.shadowEvaluation`: the evaluation of a start, from the outputs of its cases.
* **`scoreWithBenchmark_relabel`**: a scorecard depends on its suite by the cases and the label.
* **`shadowEvaluation_iff`**: what a resumed evaluation is scored with agrees with the start exactly when
  the label stays.
-/

namespace Xiaomaolv

open Interleave Table EvolutionStore

variable {R : Type}

/-! ## Ids -/

theorem enabledEvalCases_nodup {s : EvolutionStore R} (h : (s.evalCases.map (·.id)).Nodup) :
    (s.enabledEvalCases.map (·.id)).Nodup := by
  have hperm := (List.perm_insertionSort (fun c c' : EvolutionEvalCase R => c.id ≤ c'.id)
    (s.evalCases.filter (·.enabled))).map (·.id)
  rw [enabledEvalCases, hperm.nodup_iff]
  exact h.sublist (List.filter_sublist.map _)

theorem enabledEvalCases_enabled {s : EvolutionStore R} {c : EvolutionEvalCase R}
    (h : c ∈ s.enabledEvalCases) : c.enabled = true := by
  rw [enabledEvalCases, List.mem_insertionSort] at h
  exact (List.mem_filter.mp h).2

section

variable [Host R]

theorem validateCases_nodup {ids : List String} {cases : List (EvolutionEvalCase R)} {u : Unit}
    (h : EvolutionBenchmarkSuite.validateCases ids cases = .ok u) :
    (cases.map (·.id)).Nodup ∧ ∀ c ∈ cases, c.id ∉ ids := by
  induction cases generalizing ids with
  | nil => simp
  | cons c cases ih =>
    simp only [EvolutionBenchmarkSuite.validateCases, bind_eq_ok, ensure_eq_ok] at h
    obtain ⟨_, -, _, hfresh, h⟩ := h
    obtain ⟨hnodup, hids⟩ := ih h
    have hc : c.id ∉ cases.map (·.id) := by
      intro hmem
      obtain ⟨c', hc', he⟩ := List.mem_map.mp hmem
      exact hids c' hc' (he ▸ List.mem_cons_self)
    refine ⟨List.nodup_cons.mpr ⟨hc, hnodup⟩, fun c' hc' => ?_⟩
    rcases List.mem_cons.mp hc' with rfl | hc'
    · simpa using hfresh
    · exact fun hmem => hids c' hc' (List.mem_cons_of_mem _ hmem)

theorem suite_cases {suite : EvolutionBenchmarkSuite R} {u : Unit} (h : suite.validate = .ok u) :
    suite.cases ≠ [] ∧ (suite.cases.map (·.id)).Nodup := by
  simp only [EvolutionBenchmarkSuite.validate, bind_eq_ok, ensure_eq_ok] at h
  obtain ⟨_, -, _, -, _, hcases, h⟩ := h
  exact ⟨by simp at hcases; exact hcases.1, (validateCases_nodup h).1⟩

end

theorem ensureNoCollision_ok {cases suite : List (EvolutionEvalCase R)} {u : Unit}
    (h : ensureNoCollision cases suite = .ok u) : ∀ b ∈ suite, b.id ∉ cases.map (·.id) := by
  induction suite with
  | nil => simp
  | cons b suite ih =>
    simp only [ensureNoCollision, bind_eq_ok, ensure_eq_ok] at h
    obtain ⟨_, hb, h⟩ := h
    intro b' hb'
    rcases List.mem_cons.mp hb' with rfl | hb'
    · simp only [Bool.not_eq_true', List.any_eq_false, decide_eq_true_eq] at hb
      intro hmem
      obtain ⟨c, hc, he⟩ := List.mem_map.mp hmem
      exact hb c hc he
    · exact ih h b' hb'

/-! ## Starts -/

/-- What an evaluation reads before its first case. -/
structure EvalStart (R : Type) where
  cases : List (EvolutionEvalCase R)
  suite : Option (EvolutionBenchmarkSuite R)
  active : Option ActiveEvolutionPolicy

namespace EvalStart

/-- Every case of the start, the operator's first. -/
def all (start : EvalStart R) : List (EvolutionEvalCase R) := start.cases ++ suiteCases start.suite

/-- The checks that the store, the engine's constructor and the start made. -/
structure Checked [Host R] (start : EvalStart R) : Prop where
  enabled : ∀ c ∈ start.cases, c.enabled = true
  valid : ∀ suite ∈ start.suite, suite.validate = .ok ()
  nodup : (start.all.map (·.id)).Nodup

theorem nodup_all [Host R] (start : EvalStart R) {u : Unit} (hcases : (start.cases.map (·.id)).Nodup)
    (hvalid : ∀ suite ∈ start.suite, suite.validate = .ok ())
    (h : ensureNoCollision start.cases (suiteCases start.suite) = .ok u) :
    (start.all.map (·.id)).Nodup := by
  have hsuite : ((suiteCases start.suite).map (·.id)).Nodup := by
    cases hs : start.suite with
    | none => exact List.nodup_nil
    | some suite => exact (suite_cases (hvalid suite hs)).2
  rw [all, List.map_append, List.nodup_append]
  refine ⟨hcases, hsuite, fun id hid id' hid' => ?_⟩
  obtain ⟨b, hb, rfl⟩ := List.mem_map.mp hid'
  exact fun he => ensureNoCollision_ok h b hb (he ▸ hid)

end EvalStart

/-! ## The evaluation of a start -/

/-- The evaluation of a start, from the outputs of its cases. -/
def EvolutionEngine.shadowEvaluation [Host R] (engine : EvolutionEngine R) (id candidateId : String)
    (start : EvalStart R) (baselineOutputs candidateOutputs : Outputs) :
    Except String (EvolutionEvaluationDraft R) := do
  let scorecard ← scoreWithBenchmark start.cases start.suite baselineOutputs candidateOutputs
  return {
    id
    candidateId
    baselineCandidateId := start.active.map (·.candidateId)
    scorecard
    decision := engine.gateConfig.decide scorecard
    gateConfig := engine.gateConfig }

section

variable [Host R] {baselineOutputs candidateOutputs : Outputs}

/-- **A scorecard depends on its suite by the cases and the label.** -/
theorem scoreWithBenchmark_relabel {cases : List (EvolutionEvalCase R)}
    {suite suite' : EvolutionBenchmarkSuite R} (h : suite.validate = .ok ())
    (h' : suite'.validate = .ok ()) (hcases : suite'.cases = suite.cases) (hlabel : suite'.label = suite.label) :
    scoreWithBenchmark cases (some suite') baselineOutputs candidateOutputs
      = scoreWithBenchmark cases (some suite) baselineOutputs candidateOutputs := by
  have hbench : benchmarkCases (some suite') = benchmarkCases (some suite) := by
    simp only [benchmarkCases, h, h', hcases]
  simp only [scoreWithBenchmark, hbench, Option.map_some, hlabel]

theorem validate_of_cases {suite suite' : EvolutionBenchmarkSuite R} (h : suite.validate = .ok ())
    (h' : suite'.validate = .ok ()) : ({ suite' with cases := suite.cases } : EvolutionBenchmarkSuite R).validate = .ok () := by
  simp only [EvolutionBenchmarkSuite.validate, bind_eq_ok, ensure_eq_ok] at h h' ⊢
  obtain ⟨_, -, _, -, _, hcases, hvalid⟩ := h
  obtain ⟨u, hid, v, hversion, -⟩ := h'
  exact ⟨u, hid, v, hversion, (), hcases, hvalid⟩

/-- The suite that a cursor of the start is scored with while the engine has `suite`. -/
def EvalStart.resumed (start : EvalStart R) (suite : Option (EvolutionBenchmarkSuite R)) :
    Option (EvolutionBenchmarkSuite R) :=
  start.suite.bind fun frozen => suite.map fun suite => { suite with cases := frozen.cases }

omit [Host R] in
theorem EvalStart.resumed_label (start : EvalStart R) (suite : Option (EvolutionBenchmarkSuite R)) :
    (start.resumed suite).map (·.label) = start.suite.bind fun _ => suite.map (·.label) := by
  unfold EvalStart.resumed
  cases start.suite <;> cases suite <;> rfl

/-- The suite of the start still has its label, and all its cases are enabled. -/
def EvalStart.Stable (start : EvalStart R) (suite : Option (EvolutionBenchmarkSuite R)) : Prop :=
  ∀ frozen ∈ start.suite, suite.map (·.label) = some frozen.label ∧ ∀ c ∈ frozen.cases, c.enabled = true

/-- The recorded evaluation is the one of the start, and every case of the start is scored once. -/
def EvolutionEngine.Agrees (engine : EvolutionEngine R) (start : EvalStart R)
    (baselineOutputs candidateOutputs : Outputs) (draft : EvolutionEvaluationDraft R) : Prop :=
  engine.shadowEvaluation draft.id draft.candidateId start baselineOutputs candidateOutputs = .ok draft ∧
    draft.scorecard.caseResults.map (·.caseId) = start.all.map (·.id) ∧ (start.all.map (·.id)).Nodup

theorem EvalStart.Checked.filter_enabled {start : EvalStart R} (h : start.Checked) :
    start.cases.filter (·.enabled) ++ (suiteCases start.suite).filter (·.enabled) = start.all ↔
      ∀ c ∈ suiteCases start.suite, c.enabled = true := by
  have hcases : start.cases.filter (·.enabled) = start.cases := List.filter_eq_self.mpr h.enabled
  rw [hcases, EvalStart.all, List.append_cancel_left_eq, List.filter_eq_self]

/-- **A resumed evaluation agrees with its start exactly when the suite is stable.** -/
theorem shadowEvaluation_iff {engine : EvolutionEngine R} {start : EvalStart R}
    {suite : Option (EvolutionBenchmarkSuite R)} {draft : EvolutionEvaluationDraft R}
    (hstart : start.Checked) (hsuite : ∀ s ∈ suite, s.validate = .ok ())
    (h : engine.shadowEvaluation draft.id draft.candidateId { start with suite := start.resumed suite }
      baselineOutputs candidateOutputs = .ok draft) :
    engine.Agrees start baselineOutputs candidateOutputs draft ↔ start.Stable suite := by
  have hscore : scoreWithBenchmark start.cases (start.resumed suite) baselineOutputs candidateOutputs
      = .ok draft.scorecard := by
    simp only [EvolutionEngine.shadowEvaluation, bind_eq_ok, pure_eq_ok] at h
    obtain ⟨scorecard, hscore, hd⟩ := h
    rw [hscore, ← hd]
  have hlabel := scoreWithBenchmark_label hscore
  have hids : ∀ {s}, scoreWithBenchmark start.cases s baselineOutputs candidateOutputs = .ok draft.scorecard →
      s = start.suite → draft.scorecard.caseResults.map (·.caseId)
        = (start.cases.filter (·.enabled) ++ (suiteCases start.suite).filter (·.enabled)).map (·.id) := by
    rintro s hs rfl
    exact scoreWithBenchmark_cases hs
  constructor
  · rintro ⟨hagree, hscored, hnodup⟩
    have hscore' : scoreWithBenchmark start.cases start.suite baselineOutputs candidateOutputs
        = .ok draft.scorecard := by
      simp only [EvolutionEngine.shadowEvaluation, bind_eq_ok, pure_eq_ok] at hagree
      obtain ⟨scorecard, hscore', hd⟩ := hagree
      rw [hscore', ← hd]
    have hlabel' := scoreWithBenchmark_label hscore'
    rw [hlabel', start.resumed_label] at hlabel
    rw [hids hscore' rfl] at hscored
    have hlength : (start.cases.filter (·.enabled) ++ (suiteCases start.suite).filter (·.enabled)).length
        = start.all.length := by
      simpa using congrArg List.length hscored
    have hall : start.cases.filter (·.enabled) ++ (suiteCases start.suite).filter (·.enabled) = start.all :=
      (List.filter_sublist.append List.filter_sublist).eq_of_length hlength
    intro frozen hfrozen
    rw [Option.mem_def.mp hfrozen] at hlabel
    refine ⟨hlabel.symm, fun c hc => hstart.filter_enabled.mp hall c ?_⟩
    rw [Option.mem_def.mp hfrozen]
    exact hc
  · intro hstable
    have hsame : scoreWithBenchmark start.cases start.suite baselineOutputs candidateOutputs
        = .ok draft.scorecard := by
      rw [← hscore]
      cases hs : start.suite with
      | none => simp [EvalStart.resumed, hs]
      | some frozen =>
        obtain ⟨hmap, -⟩ := hstable frozen hs
        obtain ⟨current, rfl, hl⟩ := Option.map_eq_some_iff.mp hmap
        simp only [EvalStart.resumed, hs, Option.bind_some, Option.map_some]
        exact (scoreWithBenchmark_relabel (hstart.valid frozen hs)
          (validate_of_cases (hstart.valid frozen hs) (hsuite current rfl)) rfl hl).symm
    have henabled : ∀ c ∈ suiteCases start.suite, c.enabled = true := by
      intro c hc
      cases hs : start.suite with
      | none => simp [suiteCases, hs] at hc
      | some frozen =>
        rw [hs] at hc
        exact (hstable frozen hs).2 c hc
    refine ⟨?_, ?_, hstart.nodup⟩
    · simp only [EvolutionEngine.shadowEvaluation, hscore, hsame] at h ⊢
      exact h
    · rw [hids hsame rfl, hstart.filter_enabled.mpr henabled]

end

end Xiaomaolv
