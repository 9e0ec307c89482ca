import Xiaomaolv.Evolution.Store

/-!
# Scoring an evaluation

* `evaluateAssertions`, `scoreWithBenchmark`: the scorer, case after case.
* **`scoreWithBenchmark_cases`**: the case results are the enabled cases in their order.
* `scoreWithBenchmark_label`: a scorecard carries the label of its suite.
-/

namespace Xiaomaolv

variable {R : Type}

/-! ## Outputs -/

namespace Outputs

/-- `BTreeMap::get`. -/
def get (outputs : Outputs) (id : String) : Option String :=
  (outputs.find? fun entry => entry.1 = id).map Prod.snd

/-- `BTreeMap::insert`. -/
def insert (outputs : Outputs) (id output : String) : Outputs :=
  (id, output) :: outputs.filter fun entry => entry.1 ≠ id

@[simp] theorem get_insert_self (outputs : Outputs) (id output : String) :
    (outputs.insert id output).get id = some output := by
  simp [get, insert]

theorem get_insert_of_ne (outputs : Outputs) {id id' : String} (output : String) (h : id ≠ id') :
    (outputs.insert id output).get id' = outputs.get id' := by
  have hfind : (outputs.filter fun entry => entry.1 ≠ id).find? (fun entry => entry.1 = id')
      = outputs.find? fun entry => entry.1 = id' := by
    rw [List.find?_filter]
    congr 1
    funext entry
    by_cases he : entry.1 = id'
    · simp [he, h.symm]
    · simp [he]
  rw [get, insert, List.find?_cons_of_neg (by simpa using h), hfind, get]

end Outputs

/-! ## The scorer -/

section

variable [Host R]

/-- `evaluate_assertions`. -/
def evaluateAssertions (R : Type) [Host R] (assertions : EvolutionCaseAssertions) (output : String) :
    List String :=
  (assertions.requiredSubstrings.filter fun required => !contains output required).map
      (fun required => "missing required substring '" ++ required ++ "'")
    ++ (assertions.forbiddenSubstrings.filter fun forbidden => contains output forbidden).map
      (fun forbidden => "contains forbidden substring '" ++ forbidden ++ "'")
    ++ (if assertions.requireJson && !Host.isJson R output then ["output is not valid JSON"] else [])
    ++ match assertions.maxOutputChars with
      | some maxChars =>
        if maxChars < charCount output then ["output exceeds " ++ toString maxChars ++ " characters"] else []
      | none => []

/-- The accumulators of the loop. -/
structure ScoreTally (R : Type) where
  baselinePassedWeight : R
  candidatePassedWeight : R
  totalWeight : R
  baselinePassedCases : Nat := 0
  candidatePassedCases : Nat := 0
  regressions : Nat := 0
  benchmarkRegressions : Nat := 0
  caseResults : List (EvolutionCaseResult R) := []

/-- What one case adds to the accumulators. -/
def ScoreTally.add (tally : ScoreTally R) (c : EvolutionEvalCase R) (benchmark : Bool)
    (baselineOutput candidateOutput : String) : ScoreTally R :=
  let baselineIssues := evaluateAssertions R c.assertions baselineOutput
  let candidateIssues := evaluateAssertions R c.assertions candidateOutput
  let baselinePassed := baselineIssues.isEmpty
  let candidatePassed := candidateIssues.isEmpty
  let regressed := baselinePassed && !candidatePassed
  { totalWeight := Host.add tally.totalWeight c.weight
    baselinePassedWeight :=
      if baselinePassed then Host.add tally.baselinePassedWeight c.weight else tally.baselinePassedWeight
    baselinePassedCases := tally.baselinePassedCases + baselinePassed.toNat
    candidatePassedWeight :=
      if candidatePassed then Host.add tally.candidatePassedWeight c.weight else tally.candidatePassedWeight
    candidatePassedCases := tally.candidatePassedCases + candidatePassed.toNat
    regressions := tally.regressions + regressed.toNat
    benchmarkRegressions := tally.benchmarkRegressions + (regressed && benchmark).toNat
    caseResults := tally.caseResults ++
      [{ caseId := c.id
         caseName := c.name
         input := c.input
         weight := c.weight
         assertions := c.assertions
         baselinePassed
         candidatePassed
         baselineIssues
         candidateIssues
         baselineOutputExcerpt := truncateChars baselineOutput maxEvalOutputExcerptChars
         candidateOutputExcerpt := truncateChars candidateOutput maxEvalOutputExcerptChars
         baselineOutputSha256 := Host.sha256Hex R baselineOutput
         candidateOutputSha256 := Host.sha256Hex R candidateOutput
         benchmark }] }

/-- The loop over the cases. -/
def scoreCases (baselineOutputs candidateOutputs : Outputs) :
    ScoreTally R → List (EvolutionEvalCase R × Bool) → Except String (ScoreTally R)
  | tally, [] => .ok tally
  | tally, (c, benchmark) :: cases => do
    withContext ("invalid eval case '" ++ c.id ++ "'") c.validate
    let baselineOutput ← context (baselineOutputs.get c.id)
      ("missing baseline output for eval case '" ++ c.id ++ "'")
    let candidateOutput ← context (candidateOutputs.get c.id)
      ("missing candidate output for eval case '" ++ c.id ++ "'")
    scoreCases baselineOutputs candidateOutputs
      (tally.add c benchmark baselineOutput candidateOutput) cases

/-- The enabled cases of a suite that passes its checks. -/
def benchmarkCases : Option (EvolutionBenchmarkSuite R) → Except String (List (EvolutionEvalCase R))
  | none => .ok []
  | some suite => do
    suite.validate
    return suite.cases.filter (·.enabled)

/-- `EvolutionScorer::score_with_benchmark`. -/
def scoreWithBenchmark (cases : List (EvolutionEvalCase R))
    (benchmarkSuite : Option (EvolutionBenchmarkSuite R)) (baselineOutputs candidateOutputs : Outputs) :
    Except String (EvolutionScorecard R) := do
  let enabledCases := cases.filter (·.enabled)
  let benchmark ← benchmarkCases benchmarkSuite
  ensure (!(enabledCases.isEmpty && benchmark.isEmpty)) "at least one enabled eval case is required"
  ensure (enabledCases.length ≤ maxEnabledEvolutionEvalCases)
    ("enabled eval cases exceed the maximum of " ++ toString maxEnabledEvolutionEvalCases)
  let tally ← scoreCases baselineOutputs candidateOutputs
    { baselinePassedWeight := Host.ofInt 0, candidatePassedWeight := Host.ofInt 0,
      totalWeight := Host.ofInt 0 }
    (enabledCases.map (·, false) ++ benchmark.map (·, true))
  let baselineScore := Host.div tally.baselinePassedWeight tally.totalWeight
  let candidateScore := Host.div tally.candidatePassedWeight tally.totalWeight
  return {
    baselineScore
    candidateScore
    scoreDelta := Host.sub candidateScore baselineScore
    regressions := tally.regressions
    benchmarkRegressions := tally.benchmarkRegressions
    benchmarkSuite := benchmarkSuite.map (·.label)
    baselinePassedCases := tally.baselinePassedCases
    candidatePassedCases := tally.candidatePassedCases
    totalCases := tally.caseResults.length
    caseResults := tally.caseResults }

/-! ## What a scorecard says -/

variable {baselineOutputs candidateOutputs : Outputs}

theorem scoreCases_ids {tally tally' : ScoreTally R} {cases : List (EvolutionEvalCase R × Bool)}
    (h : scoreCases baselineOutputs candidateOutputs tally cases = .ok tally') :
    tally'.caseResults.map (·.caseId) = tally.caseResults.map (·.caseId) ++ cases.map (·.1.id) := by
  induction cases generalizing tally with
  | nil =>
    cases Except.ok.inj h
    simp
  | cons entry cases ih =>
    simp only [scoreCases, bind_eq_ok] at h
    obtain ⟨_, -, _, -, _, -, h⟩ := h
    rw [ih h]
    simp [ScoreTally.add]

/-- **The case results are the enabled cases, each once and in order.** -/
theorem scoreWithBenchmark_cases {cases : List (EvolutionEvalCase R)}
    {suite : Option (EvolutionBenchmarkSuite R)} {scorecard : EvolutionScorecard R}
    (h : scoreWithBenchmark cases suite baselineOutputs candidateOutputs = .ok scorecard) :
    scorecard.caseResults.map (·.caseId)
      = (cases.filter (·.enabled) ++ (suite.elim [] (·.cases)).filter (·.enabled)).map (·.id) := by
  simp only [scoreWithBenchmark, bind_eq_ok, pure_eq_ok] at h
  obtain ⟨benchmark, hb, _, -, _, -, tally, htally, rfl⟩ := h
  have hbench : benchmark = (suite.elim [] (·.cases)).filter (·.enabled) := by
    cases suite with
    | none => exact (Except.ok.inj hb).symm
    | some suite =>
      simp only [benchmarkCases, bind_eq_ok, pure_eq_ok] at hb
      obtain ⟨_, -, rfl⟩ := hb
      rfl
  rw [scoreCases_ids htally, hbench]
  simp [Function.comp_def]

theorem scoreWithBenchmark_label {cases : List (EvolutionEvalCase R)}
    {suite : Option (EvolutionBenchmarkSuite R)} {scorecard : EvolutionScorecard R}
    (h : scoreWithBenchmark cases suite baselineOutputs candidateOutputs = .ok scorecard) :
    scorecard.benchmarkSuite = suite.map (·.label) := by
  simp only [scoreWithBenchmark, bind_eq_ok, pure_eq_ok] at h
  obtain ⟨_, -, _, -, _, -, _, -, rfl⟩ := h
  rfl

end

end Xiaomaolv
