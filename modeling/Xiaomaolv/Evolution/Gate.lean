import Mathlib.Algebra.BigOperators.Group.List.Basic
import Mathlib.Algebra.Order.BigOperators.Group.List
import Mathlib.Algebra.Order.Field.Rat
import Mathlib.Data.List.Forall2
import Mathlib.Tactic.Linarith
import Xiaomaolv.Evolution.Promotion

/-!
# The promotion gate

Over exact rationals a scorecard is a function of its case results, and the gate is monotone in them.

* `Host.Exact`: the arithmetic of the host is that of `ℚ`.
* `passedWeight`, `EvolutionScorecard.Derived`: the scores and counts of a scorecard, from its case results;
  **`scoreWithBenchmark_derived`**: every scorecard is derived.
* `decide_eq_ready`: the conjuncts of the gate.
* **`gate_monotone`**: a candidate that passes more cases is no further from promotion.
-/

namespace Xiaomaolv

/-- The arithmetic of the host is exact. -/
structure Host.Exact [Host ℚ] : Prop where
  ofInt : ∀ n : Int, (Host.ofInt n : ℚ) = n
  add : ∀ a b : ℚ, Host.add a b = a + b
  sub : ∀ a b : ℚ, Host.sub a b = a - b
  div : ∀ a b : ℚ, Host.div a b = a / b
  lt : ∀ a b : ℚ, Host.lt a b = decide (a < b)
  le : ∀ a b : ℚ, Host.le a b = decide (a ≤ b)

/-! ## Weights of case results -/

abbrev CaseResults := List (EvolutionCaseResult ℚ)

/-- The weight of the results that meet `p`. -/
def passedWeight (p : EvolutionCaseResult ℚ → Bool) (results : CaseResults) : ℚ :=
  (results.map fun r => if p r then r.weight else 0).sum

/-- The baseline passed the case, and the candidate failed it. -/
def EvolutionCaseResult.isRegression (r : EvolutionCaseResult ℚ) : Bool := r.baselinePassed && !r.candidatePassed

/-- The second result is that of the same case, and the candidate passes it if it passed it in the first. -/
structure EvolutionCaseResult.Improves (r r' : EvolutionCaseResult ℚ) : Prop where
  weight : r'.weight = r.weight
  benchmark : r'.benchmark = r.benchmark
  baselinePassed : r'.baselinePassed = r.baselinePassed
  candidatePassed : r.candidatePassed = true → r'.candidatePassed = true

section Weights

variable {p q : EvolutionCaseResult ℚ → Bool} {results results' : CaseResults}

theorem passedWeight_concat (p : EvolutionCaseResult ℚ → Bool) (results : CaseResults) (r : EvolutionCaseResult ℚ) :
    passedWeight p (results ++ [r]) = passedWeight p results + if p r then r.weight else 0 := by
  simp [passedWeight]

theorem passedWeight_le {Q : EvolutionCaseResult ℚ → EvolutionCaseResult ℚ → Prop}
    (h : List.Forall₂ Q results results') (hpos : ∀ r ∈ results', 0 ≤ r.weight)
    (hweight : ∀ r r', Q r r' → r'.weight = r.weight) (hmore : ∀ r r', Q r r' → p r = true → q r' = true) :
    passedWeight p results ≤ passedWeight q results' := by
  induction h with
  | nil => exact le_refl _
  | @cons r r' results results' hr _ ih =>
    have hrest := ih fun r hr => hpos r (List.mem_cons_of_mem _ hr)
    have hpos' := hpos r' List.mem_cons_self
    have hle : (if p r then r.weight else 0) ≤ if q r' then r'.weight else 0 := by
      by_cases hp : p r = true
      · rw [if_pos hp, if_pos (hmore r r' hr hp), hweight r r' hr]
      · rw [if_neg hp]
        split_ifs
        · exact hpos'
        · exact le_refl 0
    simp only [passedWeight, List.map_cons, List.sum_cons] at hrest ⊢
    exact add_le_add hle hrest

theorem passedWeight_pos (hne : results ≠ []) (hpos : ∀ r ∈ results, 0 < r.weight) :
    0 < passedWeight (fun _ => true) results := by
  cases results with
  | nil => exact absurd rfl hne
  | cons r results =>
    have hr := hpos r List.mem_cons_self
    have hrest : 0 ≤ passedWeight (fun _ => true) results := by
      refine List.sum_nonneg fun x hx => ?_
      obtain ⟨r', hr', rfl⟩ := List.mem_map.mp hx
      exact le_of_lt (hpos r' (List.mem_cons_of_mem _ hr'))
    simp only [passedWeight, List.map_cons, List.sum_cons, if_true] at hrest ⊢
    exact add_pos_of_pos_of_nonneg hr hrest

theorem countP_le_of_forall₂ {Q : EvolutionCaseResult ℚ → EvolutionCaseResult ℚ → Prop}
    (h : List.Forall₂ Q results results') (hless : ∀ r r', Q r r' → q r' = true → p r = true) :
    results'.countP q ≤ results.countP p := by
  induction h with
  | nil => exact le_refl _
  | @cons r r' results results' hr _ ih =>
    rw [List.countP_cons, List.countP_cons]
    by_cases hq : q r' = true
    · rw [if_pos hq, if_pos (hless r r' hr hq)]
      omega
    · rw [if_neg hq]
      omega

end Weights

/-! ## Scorecards from case results -/

/-- What a tally has counted of its case results. -/
structure ScoreTally.Counted (tally : ScoreTally ℚ) : Prop where
  weights : ∀ r ∈ tally.caseResults, 0 < r.weight
  total : tally.totalWeight = passedWeight (fun _ => true) tally.caseResults
  baseline : tally.baselinePassedWeight = passedWeight (·.baselinePassed) tally.caseResults
  candidate : tally.candidatePassedWeight = passedWeight (·.candidatePassed) tally.caseResults
  regressions : tally.regressions = tally.caseResults.countP (·.isRegression)
  benchmarkRegressions :
    tally.benchmarkRegressions = tally.caseResults.countP fun r => r.isRegression && r.benchmark

/-- A scorecard whose scores and counts follow from its case results. -/
structure EvolutionScorecard.Derived (card : EvolutionScorecard ℚ) : Prop where
  nonempty : card.caseResults ≠ []
  weights : ∀ r ∈ card.caseResults, 0 < r.weight
  baselineScore : card.baselineScore =
    passedWeight (·.baselinePassed) card.caseResults / passedWeight (fun _ => true) card.caseResults
  candidateScore : card.candidateScore =
    passedWeight (·.candidatePassed) card.caseResults / passedWeight (fun _ => true) card.caseResults
  scoreDelta : card.scoreDelta = card.candidateScore - card.baselineScore
  regressions : card.regressions = card.caseResults.countP (·.isRegression)
  benchmarkRegressions :
    card.benchmarkRegressions = card.caseResults.countP fun r => r.isRegression && r.benchmark
  totalCases : card.totalCases = card.caseResults.length

section Scorecards

variable [Host ℚ] (hexact : Host.Exact)

include hexact

theorem weight_pos {c : EvolutionEvalCase ℚ} {u : Unit} (h : c.validate = .ok u) : 0 < c.weight := by
  simp only [EvolutionEvalCase.validate, bind_eq_ok, ensure_eq_ok, Bool.and_eq_true, Bool.not_eq_true'] at h
  obtain ⟨_, -, _, -, _, -, _, -, _, -, _, -, _, ⟨⟨-, hpos⟩, -⟩, -⟩ := h
  rw [hexact.le, hexact.ofInt, decide_eq_false_iff_not, not_le, Int.cast_zero] at hpos
  exact hpos

/-- One more case is counted. -/
theorem ScoreTally.Counted.add {tally : ScoreTally ℚ} (h : tally.Counted) {c : EvolutionEvalCase ℚ}
    (hpos : 0 < c.weight) (benchmark : Bool) (baselineOutput candidateOutput : String) :
    (tally.add c benchmark baselineOutput candidateOutput).Counted := by
  obtain ⟨r, hresults, hweight, hbaseline, hcandidate, hbenchmark⟩ :
      ∃ r, (tally.add c benchmark baselineOutput candidateOutput).caseResults = tally.caseResults ++ [r] ∧
        r.weight = c.weight ∧
        r.baselinePassed = (evaluateAssertions ℚ c.assertions baselineOutput).isEmpty ∧
        r.candidatePassed = (evaluateAssertions ℚ c.assertions candidateOutput).isEmpty ∧
        r.benchmark = benchmark := ⟨_, rfl, rfl, rfl, rfl, rfl⟩
  have hgrow : ∀ (b : Bool) (x : ℚ),
      (if b then Host.add x c.weight else x) = x + if b then r.weight else 0 := by
    intro b x
    cases b with
    | true => rw [if_pos rfl, if_pos rfl, hexact.add, hweight]
    | false => rw [if_neg Bool.false_ne_true, if_neg Bool.false_ne_true, add_zero]
  have hreg : r.isRegression = ((evaluateAssertions ℚ c.assertions baselineOutput).isEmpty &&
      !(evaluateAssertions ℚ c.assertions candidateOutput).isEmpty) := by
    rw [EvolutionCaseResult.isRegression, hbaseline, hcandidate]
  have hcount : ∀ b : Bool, b.toNat = if b = true then 1 else 0 := by decide
  constructor
  · intro r' hr'
    rw [hresults] at hr'
    rcases List.mem_append.mp hr' with hr' | hr'
    · exact h.weights r' hr'
    · rw [List.mem_singleton.mp hr', hweight]
      exact hpos
  · rw [hresults, passedWeight_concat, ← h.total]
    exact hgrow true tally.totalWeight
  · rw [hresults, passedWeight_concat, ← h.baseline, hbaseline]
    exact hgrow _ tally.baselinePassedWeight
  · rw [hresults, passedWeight_concat, ← h.candidate, hcandidate]
    exact hgrow _ tally.candidatePassedWeight
  · rw [hresults, List.countP_append, List.countP_singleton, ← h.regressions, ← hcount, hreg]
    rfl
  · rw [hresults, List.countP_append, List.countP_singleton, ← h.benchmarkRegressions, ← hcount, hreg, hbenchmark]
    rfl

theorem scoreCases_counted {baselineOutputs candidateOutputs : Outputs} {tally tally' : ScoreTally ℚ}
    {cases : List (EvolutionEvalCase ℚ × Bool)} (h : tally.Counted)
    (hscore : scoreCases baselineOutputs candidateOutputs tally cases = .ok tally') : tally'.Counted := by
  induction cases generalizing tally with
  | nil =>
    cases Except.ok.inj hscore
    exact h
  | cons entry cases ih =>
    simp only [scoreCases, bind_eq_ok] at hscore
    obtain ⟨_, hvalid, _, -, _, -, hscore⟩ := hscore
    exact ih (h.add hexact (weight_pos hexact (withContext_eq_ok.mp hvalid)) _ _ _) hscore

/-- **Every scorecard is derived from its case results.** -/
theorem scoreWithBenchmark_derived {cases : List (EvolutionEvalCase ℚ)} {suite : Option (EvolutionBenchmarkSuite ℚ)}
    {baselineOutputs candidateOutputs : Outputs} {card : EvolutionScorecard ℚ}
    (h : scoreWithBenchmark cases suite baselineOutputs candidateOutputs = .ok card) : card.Derived := by
  have hids := scoreWithBenchmark_cases h
  simp only [scoreWithBenchmark, bind_eq_ok, pure_eq_ok, ensure_eq_ok] at h
  obtain ⟨benchmark, hb, _, hsome, _, -, tally, htally, rfl⟩ := h
  have hzero : (Host.ofInt 0 : ℚ) = 0 := by rw [hexact.ofInt, Int.cast_zero]
  have hcounted : tally.Counted := by
    refine scoreCases_counted hexact ?_ htally
    constructor <;> simp [passedWeight, hzero]
  have hlength := scoreCases_ids htally
  refine ⟨?_, hcounted.weights, ?_, ?_, hexact.sub _ _, hcounted.regressions, hcounted.benchmarkRegressions, rfl⟩
  · -- Some case is enabled, so there is a result.
    intro hnil
    have hcases : (cases.filter (·.enabled)).map (·, false) ++ benchmark.map (·, true) = [] := by
      rw [show tally.caseResults = [] from hnil] at hlength
      simpa using hlength.symm
    obtain ⟨hcases, hbench⟩ := List.append_eq_nil_iff.mp hcases
    rw [List.map_eq_nil_iff.mp hcases, List.map_eq_nil_iff.mp hbench] at hsome
    cases hsome
  · change Host.div tally.baselinePassedWeight tally.totalWeight = _
    rw [hexact.div, hcounted.baseline, hcounted.total]
  · change Host.div tally.candidatePassedWeight tally.totalWeight = _
    rw [hexact.div, hcounted.candidate, hcounted.total]

/-! ## The gate -/

theorem decide_eq_ready (gate : EvolutionGateConfig ℚ) (card : EvolutionScorecard ℚ) :
    gate.decide card = .ready ↔
      gate.minEvalCases ≤ card.totalCases ∧ gate.minCandidateScore ≤ card.candidateScore ∧
        gate.minScoreDelta ≤ card.scoreDelta ∧ card.regressions ≤ gate.maxRegressions ∧
        card.benchmarkRegressions = 0 := by
  have hreason : ∀ (c : Prop) [Decidable c] (text : List String), text ≠ [] →
      ((if c then text else []) = [] ↔ ¬ c) := by
    intro c _ text htext
    split_ifs with hc
    · exact ⟨fun h => absurd h htext, fun h => absurd hc h⟩
    · exact ⟨fun _ => hc, fun _ => rfl⟩
  unfold EvolutionGateConfig.decide
  dsimp only
  rw [ite_eq_left_iff]
  simp only [hexact.lt, decide_eq_true_eq, reduceCtorEq, imp_false, List.isEmpty_iff, List.append_eq_nil_iff]
  rw [hreason _ _ (List.cons_ne_nil _ _), hreason _ _ (List.cons_ne_nil _ _), hreason _ _ (List.cons_ne_nil _ _),
    hreason _ _ (List.cons_ne_nil _ _), hreason _ _ (List.cons_ne_nil _ _)]
  simp only [not_lt, not_not, Nat.le_zero, and_assoc]

end Scorecards

section Monotone

variable {card card' : EvolutionScorecard ℚ}

theorem EvolutionScorecard.Derived.weights_nonneg (h : card.Derived) : ∀ r ∈ card.caseResults, 0 ≤ r.weight :=
  fun r hr => le_of_lt (h.weights r hr)

theorem passedWeight_eq {p q : EvolutionCaseResult ℚ → Bool} {results results' : CaseResults}
    (h : List.Forall₂ EvolutionCaseResult.Improves results results')
    (hsame : ∀ r r', r.Improves r' → q r' = p r) : passedWeight q results' = passedWeight p results := by
  induction h with
  | nil => rfl
  | cons hr _ ih =>
    simp only [passedWeight, List.map_cons, List.sum_cons] at ih ⊢
    rw [ih, hsame _ _ hr, hr.weight]

theorem scores_le (h : card.Derived) (h' : card'.Derived)
    (himproves : List.Forall₂ EvolutionCaseResult.Improves card.caseResults card'.caseResults) :
    card'.baselineScore = card.baselineScore ∧ card.candidateScore ≤ card'.candidateScore := by
  have htotal : passedWeight (fun _ => true) card'.caseResults = passedWeight (fun _ => true) card.caseResults :=
    passedWeight_eq himproves fun _ _ _ => rfl
  have hbaseline := passedWeight_eq (p := (·.baselinePassed)) (q := (·.baselinePassed)) himproves
    fun _ _ hr => hr.baselinePassed
  have hcandidate := passedWeight_le (p := (·.candidatePassed)) (q := (·.candidatePassed)) himproves
    h'.weights_nonneg (fun _ _ hr => hr.weight) fun _ _ hr => hr.candidatePassed
  rw [h.baselineScore, h'.baselineScore, h.candidateScore, h'.candidateScore, htotal, hbaseline]
  exact ⟨rfl, div_le_div_of_nonneg_right hcandidate (le_of_lt (passedWeight_pos h.nonempty h.weights))⟩

theorem regressions_le (h : card.Derived) (h' : card'.Derived)
    (himproves : List.Forall₂ EvolutionCaseResult.Improves card.caseResults card'.caseResults) :
    card'.regressions ≤ card.regressions ∧ card'.benchmarkRegressions ≤ card.benchmarkRegressions := by
  have hreg : ∀ r r' : EvolutionCaseResult ℚ, r.Improves r' → r'.isRegression = true → r.isRegression = true := by
    intro r r' hr hreg
    rw [EvolutionCaseResult.isRegression, Bool.and_eq_true, Bool.not_eq_true'] at hreg ⊢
    refine ⟨hr.baselinePassed.symm.trans hreg.1, ?_⟩
    by_contra hpassed
    rw [hr.candidatePassed (Bool.not_eq_false _ |>.mp hpassed)] at hreg
    exact Bool.noConfusion hreg.2
  rw [h.regressions, h'.regressions, h.benchmarkRegressions, h'.benchmarkRegressions]
  refine ⟨countP_le_of_forall₂ himproves hreg, countP_le_of_forall₂ himproves fun r r' hr hboth => ?_⟩
  rw [Bool.and_eq_true] at hboth ⊢
  exact ⟨hreg r r' hr hboth.1, hr.benchmark.symm.trans hboth.2⟩

theorem candidatePassed_of_regressions {p : EvolutionCaseResult ℚ → Bool} {results : CaseResults}
    (h : results.countP (fun r => r.isRegression && p r) = 0) :
    ∀ r ∈ results, p r = true → r.baselinePassed = true → r.candidatePassed = true := by
  intro r hr hp hbaseline
  have hno := List.countP_eq_zero.mp h r hr
  by_contra hfailed
  rw [Bool.not_eq_true] at hfailed
  exact hno (by rw [EvolutionCaseResult.isRegression, hbaseline, hfailed, hp]; rfl)

theorem score_le_of_regressions (h : card.Derived) (hzero : card.regressions = 0) :
    card.baselineScore ≤ card.candidateScore := by
  have hpassed : ∀ r ∈ card.caseResults, r.baselinePassed = true → r.candidatePassed = true := by
    intro r hr
    refine candidatePassed_of_regressions (p := fun _ => true) ?_ r hr rfl
    rw [← hzero, h.regressions]
    exact List.countP_congr fun r _ => by rw [Bool.and_true]
  have hsame : List.Forall₂ (fun r r' => r' = r ∧ r ∈ card.caseResults) card.caseResults card.caseResults :=
    List.forall₂_same.mpr fun r hr => ⟨rfl, hr⟩
  have hle := passedWeight_le (p := (·.baselinePassed)) (q := (·.candidatePassed)) hsame h.weights_nonneg
    (fun _ _ hr => by rw [hr.1]) (fun r r' hr hp => by rw [hr.1]; exact hpassed r hr.2 hp)
  rw [h.baselineScore, h.candidateScore]
  exact div_le_div_of_nonneg_right hle (le_of_lt (passedWeight_pos h.nonempty h.weights))

end Monotone

/-- **The gate is monotone.** Over exact rationals: if two evaluations differ only in that the candidate passes
more cases in the second, the second is ready where the first is; a candidate that is ready fails no benchmark
case that the baseline passes; and one without regressions scores no less than the baseline. -/
theorem gate_monotone [Host ℚ] (hexact : Host.Exact) (gate : EvolutionGateConfig ℚ)
    {cases cases' : List (EvolutionEvalCase ℚ)} {suite suite' : Option (EvolutionBenchmarkSuite ℚ)}
    {baselineOutputs candidateOutputs baselineOutputs' candidateOutputs' : Outputs}
    {card card' : EvolutionScorecard ℚ}
    (hcard : scoreWithBenchmark cases suite baselineOutputs candidateOutputs = .ok card)
    (hcard' : scoreWithBenchmark cases' suite' baselineOutputs' candidateOutputs' = .ok card') :
    (List.Forall₂ EvolutionCaseResult.Improves card.caseResults card'.caseResults →
      gate.decide card = .ready → gate.decide card' = .ready) ∧
    (gate.decide card = .ready →
      ∀ r ∈ card.caseResults, r.benchmark = true → r.baselinePassed = true → r.candidatePassed = true) ∧
    (card.regressions = 0 → card.baselineScore ≤ card.candidateScore) := by
  have h := scoreWithBenchmark_derived hexact hcard
  have h' := scoreWithBenchmark_derived hexact hcard'
  refine ⟨fun himproves hready => ?_, fun hready => ?_, score_le_of_regressions h⟩
  · obtain ⟨hcases, hscore, hdelta, hregressions, hbenchmark⟩ := (decide_eq_ready hexact gate card).mp hready
    obtain ⟨hbaseline, hcandidate⟩ := scores_le h h' himproves
    obtain ⟨hreg, hbench⟩ := regressions_le h h' himproves
    refine (decide_eq_ready hexact gate card').mpr ⟨?_, hscore.trans hcandidate, ?_, hreg.trans hregressions, ?_⟩
    · rw [h'.totalCases, ← himproves.length_eq, ← h.totalCases]
      exact hcases
    · rw [h.scoreDelta] at hdelta
      rw [h'.scoreDelta, hbaseline]
      linarith
    · omega
  · obtain ⟨-, -, -, -, hbenchmark⟩ := (decide_eq_ready hexact gate card).mp hready
    rw [h.benchmarkRegressions] at hbenchmark
    exact candidatePassed_of_regressions hbenchmark

namespace EvolutionSample

theorem exact_rat : Host.Exact := ⟨fun _ => rfl, fun _ _ => rfl, fun _ _ => rfl, fun _ _ => rfl, fun _ _ => rfl,
  fun _ _ => rfl⟩

/-- The benchmark has one case, which the baseline passes. -/
def floor : EvolutionBenchmarkSuite Rat where
  id := "floor"
  version := "1"
  cases := [evalCase "c"]

/-- The candidate passes "a" and "c"; the second time `b` is its output for "b". -/
def gateScore (b : String) : Except String (EvolutionScorecard Rat) :=
  scoreWithBenchmark [evalCase "a", evalCase "b"] (some floor) [("a", "no"), ("b", "no"), ("c", "ok")]
    [("a", "ok"), ("b", b), ("c", "ok")]

def halfGate : EvolutionGateConfig Rat := { engine.gateConfig with minCandidateScore := 1 / 2 }

end EvolutionSample

open EvolutionSample in
theorem gate_monotone_floor :
    ∃ card card', gateScore "no" = .ok card ∧ gateScore "ok" = .ok card' ∧
      halfGate.decide card = .ready ∧ halfGate.decide card' = .ready := by
  have hready : ((gateScore "no").map halfGate.decide).toOption = some .ready := by decide +kernel
  have hok : (gateScore "ok").isOk = true := by decide +kernel
  have himproves : ∀ card card', gateScore "no" = .ok card → gateScore "ok" = .ok card' →
      List.Forall₂ EvolutionCaseResult.Improves card.caseResults card'.caseResults := by
    intro card card' hcard hcard'
    cases hcard
    cases hcard'
    exact .cons ⟨rfl, rfl, rfl, id⟩ (.cons ⟨rfl, rfl, rfl, fun h => by cases h⟩ (.cons ⟨rfl, rfl, rfl, id⟩ .nil))
  cases hcard : gateScore "no" with
  | error e =>
    rw [hcard] at hready
    cases hready
  | ok card =>
    cases hcard' : gateScore "ok" with
    | error e =>
      rw [hcard'] at hok
      cases hok
    | ok card' =>
      rw [hcard] at hready
      have hcardReady : halfGate.decide card = .ready := Option.some.inj hready
      have hmonotone := gate_monotone exact_rat halfGate hcard hcard'
      exact ⟨card, card', rfl, rfl, hcardReady, hmonotone.1 (himproves card card' hcard hcard') hcardReady⟩

end Xiaomaolv
