import Xiaomaolv.Loop.Data

/-!
# Evolution candidates, eval cases and gates

* `Host`: the `f64` operations and the library functions that scoring calls.
* `PromptPatch`: a trimmed text that carries its own checks; **`PromptPatch.new_text`**: a patch read back
  from its row passes them again.
* `EvolutionEvalCase.validate`, `EvolutionBenchmarkSuite.validate`, `EvolutionGateConfig.validate`.
* `EvolutionCandidateStatus.canTransitionTo`.
-/

namespace Xiaomaolv

/-- The `f64` arithmetic, `serde_json` and `sha2` as scoring uses them. -/
class Host (R : Type) where
  ofInt : Int → R
  add : R → R → R
  sub : R → R → R
  div : R → R → R
  lt : R → R → Bool
  le : R → R → Bool
  isFinite : R → Bool
  /-- `{:.6}`. -/
  fixed6 : R → String
  /-- The number in JSON. -/
  json : R → String
  /-- `serde_json::from_str::<Value>(text).is_ok()`. -/
  isJson : String → Bool
  sha256Hex : String → String

/-! ## Texts -/

/-- `char::is_control`. -/
def isControl (c : Char) : Bool := c.toNat < 0x20 || (0x7F ≤ c.toNat && c.toNat ≤ 0x9F)

/-- `u8::is_ascii_hexdigit`. -/
def isHexDigit (c : Char) : Bool :=
  c.isDigit || ('a' ≤ c && c ≤ 'f') || ('A' ≤ c && c ≤ 'F')

/-- `truncate_chars`. -/
def truncateChars (value : String) (maxChars : Nat) : String :=
  if charCount value ≤ maxChars then value else takeChars maxChars value ++ "…"

/-! ## Prompt patches -/

def absoluteMaxPromptPatchChars : Nat := 16000

def reservedHarnessMarkers : List String :=
  ["MCP_TOOL_RESULT_JSON", "MCP_TOOL_VERIFICATION_FAILED_JSON", "CODE_MODE_TOOL_RESULT_JSON",
    "MCP_TOOLS_JSON"]

/-- `PromptPatch`: a text that its constructor took. -/
structure PromptPatch where
  text : String
  trimmed : trim text = text
  nonempty : text ≠ ""
  bounded : charCount text ≤ absoluteMaxPromptPatchChars
  unmarked : reservedHarnessMarkers.find? (fun marker => contains text marker) = none

namespace PromptPatch

@[ext] theorem ext {p q : PromptPatch} (h : p.text = q.text) : p = q := by
  cases p; cases q; cases h; rfl

instance : DecidableEq PromptPatch :=
  fun p q => decidable_of_iff (p.text = q.text) ⟨ext, congrArg text⟩

/-- `PromptPatch::new`. -/
def new (value : String) (maxChars : Nat) : Except String PromptPatch :=
  if hempty : trim value = "" then .error "prompt patch cannot be empty"
  else if hlong : min maxChars absoluteMaxPromptPatchChars < charCount (trim value) then
    .error ("prompt patch exceeds the configured limit of "
      ++ toString (min maxChars absoluteMaxPromptPatchChars) ++ " characters")
  else
    match hmark : reservedHarnessMarkers.find? fun marker => contains (trim value) marker with
    | some marker => .error ("prompt patch contains reserved harness marker '" ++ marker ++ "'")
    | none =>
      .ok
        { text := trim value
          trimmed := trim_trim value
          nonempty := hempty
          bounded := Nat.le_trans (Nat.le_of_not_lt hlong) (Nat.min_le_right _ _)
          unmarked := hmark }

/-- **A stored patch is read back as it is.** -/
theorem new_text (p : PromptPatch) : new p.text absoluteMaxPromptPatchChars = .ok p := by
  have hempty : trim p.text ≠ "" := by
    rw [p.trimmed]
    exact p.nonempty
  have hlong : ¬ min absoluteMaxPromptPatchChars absoluteMaxPromptPatchChars
      < charCount (trim p.text) := by
    rw [Nat.min_self, p.trimmed]
    exact Nat.not_lt.mpr p.bounded
  unfold new
  rw [dif_neg hempty, dif_neg hlong]
  split
  · rename_i marker hmark
    rw [p.trimmed, p.unmarked] at hmark
    cases hmark
  · exact congrArg Except.ok (ext p.trimmed)

end PromptPatch

/-! ## Eval cases -/

def maxEnabledEvolutionEvalCases : Nat := 50
def maxEvalOutputExcerptChars : Nat := 2000
def maxEvalCaseInputChars : Nat := 8000
def maxCandidateRationaleChars : Nat := 4000

structure EvolutionCaseAssertions where
  requiredSubstrings : List String := []
  forbiddenSubstrings : List String := []
  requireJson : Bool := false
  maxOutputChars : Option Nat := none
deriving DecidableEq, Repr

structure EvolutionEvalCase (R : Type) where
  id : String
  name : String
  input : String
  assertions : EvolutionCaseAssertions
  weight : R
  enabled : Bool
deriving DecidableEq, Repr

variable {R : Type}

/-- `EvolutionEvalCase::validate`. -/
def EvolutionEvalCase.validate [Host R] (c : EvolutionEvalCase R) : Except String Unit := do
  ensure (!isBlank c.id) "eval case id cannot be empty"
  ensure (byteLen c.id ≤ 128) "eval case id cannot exceed 128 bytes"
  ensure (!isBlank c.name) "eval case name cannot be empty"
  ensure (charCount c.name ≤ 256) "eval case name cannot exceed 256 characters"
  ensure (!isBlank c.input) "eval case input cannot be empty"
  ensure (charCount c.input ≤ maxEvalCaseInputChars)
    ("eval case input cannot exceed " ++ toString maxEvalCaseInputChars ++ " characters")
  ensure (Host.isFinite c.weight && !Host.le c.weight (Host.ofInt 0)
      && !Host.lt (Host.ofInt 100) c.weight)
    "eval case weight must be finite, greater than zero, and at most 100"
  ensure (!c.assertions.requiredSubstrings.isEmpty || !c.assertions.forbiddenSubstrings.isEmpty
      || c.assertions.requireJson || c.assertions.maxOutputChars.isSome)
    "eval case must define at least one assertion"
  ensure (c.assertions.maxOutputChars.all fun n => 1 ≤ n ∧ n ≤ 1048576)
    "eval case max_output_chars must be 1..=1048576"
  ensure (c.assertions.requiredSubstrings.length + c.assertions.forbiddenSubstrings.length ≤ 64)
    "eval case cannot define more than 64 substring assertions"
  ensure ((c.assertions.requiredSubstrings ++ c.assertions.forbiddenSubstrings).all
      fun value => !isBlank value && charCount value ≤ 512)
    "eval case substrings must contain between 1 and 512 characters"

/-- `with_context`: the error shown is the outer one. -/
def withContext {α : Type} (message : String) : Except String α → Except String α
  | .ok a => .ok a
  | .error _ => .error message

theorem withContext_eq_ok {α : Type} {message : String} {x : Except String α} {a : α} :
    withContext message x = .ok a ↔ x = .ok a := by
  cases x <;> simp [withContext]

structure EvolutionBenchmarkSuite (R : Type) where
  id : String
  version : String
  cases : List (EvolutionEvalCase R)
deriving DecidableEq, Repr

namespace EvolutionBenchmarkSuite

def label (suite : EvolutionBenchmarkSuite R) : String := suite.id ++ "@" ++ suite.version

/-- The cases one after another, no id taken twice. -/
def validateCases [Host R] : List String → List (EvolutionEvalCase R) → Except String Unit
  | _, [] => .ok ()
  | ids, c :: cases => do
    withContext ("invalid benchmark case '" ++ c.id ++ "'") c.validate
    ensure (!ids.contains c.id) "duplicate benchmark case id"
    validateCases (c.id :: ids) cases

/-- `EvolutionBenchmarkSuite::validate`. -/
def validate [Host R] (suite : EvolutionBenchmarkSuite R) : Except String Unit := do
  ensure (!isBlank suite.id && byteLen suite.id ≤ 64) "benchmark suite id must be 1..=64 bytes"
  ensure (!isBlank suite.version && byteLen suite.version ≤ 64)
    "benchmark suite version must be 1..=64 bytes"
  ensure (!suite.cases.isEmpty && suite.cases.length ≤ 16)
    "benchmark suite must contain 1..=16 cases"
  validateCases [] suite.cases

end EvolutionBenchmarkSuite

/-! ## Scorecards, gates and decisions -/

structure EvolutionCaseResult (R : Type) where
  caseId : String
  caseName : String
  input : String
  weight : R
  assertions : EvolutionCaseAssertions
  baselinePassed : Bool
  candidatePassed : Bool
  baselineIssues : List String
  candidateIssues : List String
  baselineOutputExcerpt : String
  candidateOutputExcerpt : String
  baselineOutputSha256 : String
  candidateOutputSha256 : String
  benchmark : Bool
deriving DecidableEq, Repr

structure EvolutionScorecard (R : Type) where
  baselineScore : R
  candidateScore : R
  scoreDelta : R
  regressions : Nat
  benchmarkRegressions : Nat
  benchmarkSuite : Option String
  baselinePassedCases : Nat
  candidatePassedCases : Nat
  totalCases : Nat
  caseResults : List (EvolutionCaseResult R)
deriving DecidableEq, Repr

structure EvolutionGateConfig (R : Type) where
  minEvalCases : Nat
  minCandidateScore : R
  minScoreDelta : R
  maxRegressions : Nat
  maxPromptPatchChars : Nat
  requireHumanApproval : Bool
deriving DecidableEq, Repr

inductive EvolutionPromotionDecision
  | ready
  | rejected (reasons : List String)
deriving DecidableEq, Repr

namespace EvolutionGateConfig

/-- `value.is_finite() && (low..=high).contains(&value)`. -/
def inInterval [Host R] (low high : Int) (value : R) : Bool :=
  Host.isFinite value && Host.le (Host.ofInt low) value && Host.le value (Host.ofInt high)

/-- `EvolutionGateConfig::validate`. -/
def validate [Host R] (gate : EvolutionGateConfig R) : Except String Unit := do
  ensure (gate.minEvalCases ≠ 0) "min_eval_cases must be greater than zero"
  ensure (gate.minEvalCases ≤ maxEnabledEvolutionEvalCases)
    ("min_eval_cases cannot exceed " ++ toString maxEnabledEvolutionEvalCases)
  ensure (inInterval 0 1 gate.minCandidateScore)
    "min_candidate_score must be finite and between 0 and 1"
  ensure (inInterval (-1) 1 gate.minScoreDelta)
    "min_score_delta must be finite and between -1 and 1"
  ensure (gate.maxPromptPatchChars ≠ 0 && gate.maxPromptPatchChars ≤ absoluteMaxPromptPatchChars)
    ("max_prompt_patch_chars must be between 1 and " ++ toString absoluteMaxPromptPatchChars)

/-- `EvolutionGateConfig::decide`. -/
def decide [Host R] (gate : EvolutionGateConfig R) (scorecard : EvolutionScorecard R) :
    EvolutionPromotionDecision :=
  let reasons :=
    (if scorecard.totalCases < gate.minEvalCases then
      ["minimum eval cases not met: " ++ toString scorecard.totalCases ++ " < "
        ++ toString gate.minEvalCases] else [])
    ++ (if Host.lt scorecard.candidateScore gate.minCandidateScore then
      ["candidate score " ++ Host.fixed6 scorecard.candidateScore ++ " is below minimum "
        ++ Host.fixed6 gate.minCandidateScore] else [])
    ++ (if Host.lt scorecard.scoreDelta gate.minScoreDelta then
      ["score delta " ++ Host.fixed6 scorecard.scoreDelta ++ " is below minimum "
        ++ Host.fixed6 gate.minScoreDelta] else [])
    ++ (if gate.maxRegressions < scorecard.regressions then
      ["regressions " ++ toString scorecard.regressions ++ " exceed maximum "
        ++ toString gate.maxRegressions] else [])
    -- A benchmark regression is fatal whatever the operator's budget.
    ++ (if 0 < scorecard.benchmarkRegressions then
      ["benchmark scenario regressions are not tolerated: "
        ++ toString scorecard.benchmarkRegressions] else [])
  if reasons.isEmpty then .ready else .rejected reasons

end EvolutionGateConfig

/-! ## Candidates -/

inductive EvolutionCandidateStatus
  | draft
  | evaluating
  | ready
  | rejected
  | approved
  | failed
deriving DecidableEq, Repr

namespace EvolutionCandidateStatus

def asStr : EvolutionCandidateStatus → String
  | draft => "draft"
  | evaluating => "evaluating"
  | ready => "ready"
  | rejected => "rejected"
  | approved => "approved"
  | failed => "failed"

/-- `can_transition_to`. -/
def canTransitionTo : EvolutionCandidateStatus → EvolutionCandidateStatus → Bool
  | draft, evaluating | draft, rejected | draft, failed => true
  | evaluating, ready | evaluating, rejected | evaluating, failed => true
  | ready, approved | ready, rejected | ready, evaluating => true
  | rejected, evaluating | failed, evaluating | approved, evaluating => true
  | _, _ => false

/-- `transition_event_type`. -/
def transitionEventType : EvolutionCandidateStatus → String
  | evaluating => "evaluation_started"
  | ready => "candidate_ready"
  | rejected => "candidate_rejected"
  | approved => "candidate_approved"
  | failed => "candidate_failed"
  | draft => "candidate_drafted"

theorem canTransitionTo_approved {status : EvolutionCandidateStatus} :
    status.canTransitionTo approved = true ↔ status = ready := by
  cases status <;> simp [canTransitionTo]

end EvolutionCandidateStatus

structure EvolutionCandidateDraft where
  id : String
  parentCandidateId : Option String
  evidenceFingerprint : Option String
  promptPatch : PromptPatch
  rationale : String
  sourceTrajectoryIds : List String
deriving DecidableEq

/-- `EvolutionCandidateDraft::validate`. -/
def EvolutionCandidateDraft.validate (draft : EvolutionCandidateDraft) : Except String Unit := do
  ensure (!isBlank draft.id) "candidate id cannot be empty"
  ensure (!isBlank draft.rationale) "candidate rationale cannot be empty"
  ensure (charCount (trim draft.rationale) ≤ maxCandidateRationaleChars)
    ("candidate rationale cannot exceed " ++ toString maxCandidateRationaleChars ++ " characters")
  ensure (draft.parentCandidateId.all fun id => !isBlank id) "parent candidate id cannot be empty"
  ensure (draft.evidenceFingerprint.all fun value => byteLen value = 64 && value.toList.all isHexDigit)
    "evidence fingerprint must be a 64-character SHA-256 hex digest"
  ensure (draft.sourceTrajectoryIds.all fun id => !isBlank id)
    "source trajectory ids cannot contain empty values"
  ensure (draft.sourceTrajectoryIds.length ≤ 100)
    "candidate cannot reference more than 100 source trajectories"
  ensure (draft.sourceTrajectoryIds.all fun id => byteLen id ≤ 256)
    "source trajectory ids cannot exceed 256 bytes"

/-- A policy in force: a deployment, its candidate and the candidate's patch. -/
structure ActiveEvolutionPolicy where
  deploymentId : String
  candidateId : String
  promptPatch : PromptPatch
deriving DecidableEq

end Xiaomaolv
