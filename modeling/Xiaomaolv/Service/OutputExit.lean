import Xiaomaolv.Service.ToolReplies

/-!
# The output exit

A final answer leaves through the output exit. A verifier reads it; a rejected one is observed, blocked or revised once
by the provider, as the mode says. The text in place of a rejected one is fixed, and is not read again.

* `OutputExit.finalize`: the exit; **`verifyFinalAnswer_eq_finalize`**: the turn's exit is this one.
* **`verifyOutput_passed_iff`**: what the verifier asks of an answer; `replacement_passed_iff`: of the fixed text.
* **`finalize_passes_iff`**: when the exit emits only what its verifier accepts.
-/

namespace Xiaomaolv

/-! ## The exit -/

/-- `OutputExit`, over the programs of its provider. -/
structure OutputExit (m : Type → Type) where
  /-- `provider.complete`, with the context of its errors. -/
  complete : CompletionRequest → m String
  json : SerdeJson
  /-- Whether there is a `DeterministicOutputVerifier`. -/
  verifier : Bool
  mode : OutputVerificationMode
  llmEnabled : Bool
  maxPromptChars : Nat
  maxResultChars : Nat

structure OutputExitRequest where
  history : List StoredMessage
  finalAnswer : String
  toolCalls : List ToolCallRecord
  requiredFormat : Option String

structure OutputExitResult where
  text : String
  verified : Bool
  blockedOrRevised : Bool
  issueCodes : List String
  deriving DecidableEq, Repr

namespace OutputExit

variable {m : Type → Type} (exit : OutputExit m) (req : OutputExitRequest)

/-- The verifier, on a text in place of the answer. -/
def verify (text : String) : OutputVerificationResult := verifyOutput exit.json text req.toolCalls req.requiredFormat

/-- The provider request for a revision. -/
def revisionRequest : CompletionRequest where
  messages := req.history ++ [
    ⟨.assistant, truncateOutputVerificationText req.finalAnswer exit.maxResultChars⟩,
    ⟨.system, outputRevisionPrompt exit.json (exit.verify req req.finalAnswer) exit.maxPromptChars⟩]

/-- The provider's answer as a revision. -/
def revision (answer : String) : String := truncateOutputVerificationText (trim answer) exit.maxResultChars

def finalize [Monad m] : m OutputExitResult :=
  if ¬ exit.verifier then pure ⟨req.finalAnswer, false, false, []⟩
  else
    let verification := exit.verify req req.finalAnswer
    if verification.passed then pure ⟨req.finalAnswer, true, false, []⟩
    else
      let issueCodes := verification.issues.map VerificationIssue.code
      match exit.mode with
      | .off | .observe => pure ⟨req.finalAnswer, true, false, issueCodes⟩
      | .block => pure ⟨verification.replacement, true, true, issueCodes⟩
      | .reviseOnce =>
        if ¬ exit.llmEnabled then pure ⟨verification.replacement, true, true, issueCodes⟩
        else do
          let revised ← exit.complete (exit.revisionRequest req)
          let revised := exit.revision revised
          let revisedVerification := exit.verify req revised
          if revisedVerification.passed then pure ⟨revised, true, true, issueCodes⟩
          else pure ⟨revisedVerification.replacement, true, true, issueCodes⟩

end OutputExit

/-- The text that leaves through the exit. -/
theorem text_finalize {m : Type → Type} [Monad m] [LawfulMonad m] (exit : OutputExit m) (req : OutputExitRequest) :
    (exit.finalize req >>= fun result => pure result.text) =
      if ¬ exit.verifier then pure req.finalAnswer
      else if (exit.verify req req.finalAnswer).passed then pure req.finalAnswer
      else
        match exit.mode with
        | .off | .observe => pure req.finalAnswer
        | .block => pure (exit.verify req req.finalAnswer).replacement
        | .reviseOnce =>
          if ¬ exit.llmEnabled then pure (exit.verify req req.finalAnswer).replacement
          else exit.complete (exit.revisionRequest req) >>= fun revised =>
            if (exit.verify req (exit.revision revised)).passed then pure (exit.revision revised)
            else pure (exit.verify req (exit.revision revised)).replacement := by
  rw [OutputExit.finalize]
  by_cases hverifier : exit.verifier = true
  · simp only [hverifier, not_true_eq_false, if_false]
    by_cases hpassed : (exit.verify req req.finalAnswer).passed = true
    · simp only [hpassed, if_true, pure_bind]
    · simp only [hpassed, Bool.false_eq_true, if_false]
      cases exit.mode with
      | off => simp only [pure_bind]
      | observe => simp only [pure_bind]
      | block => simp only [pure_bind]
      | reviseOnce =>
        by_cases hllm : exit.llmEnabled = true
        · simp only [hllm, not_true_eq_false, if_false, bind_assoc]
          refine congrArg (exit.complete (exit.revisionRequest req) >>= ·) (funext fun revised => ?_)
          by_cases hrevised : (exit.verify req (exit.revision revised)).passed = true
          · simp only [hrevised, if_true, pure_bind]
          · simp only [hrevised, Bool.false_eq_true, if_false, pure_bind]
        · simp only [hllm, Bool.false_eq_true, not_false_eq_true, if_true, pure_bind]
  · simp only [hverifier, Bool.false_eq_true, not_false_eq_true, if_true, pure_bind]

/-- The output exit of a service. -/
def MessageService.outputExit {ω : Type} (svc : MessageService ω) : OutputExit (Call (Turn ω)) where
  complete request := do
    log (.revised request)
    onTurn (svc.provider.complete request)
  json := svc.json
  verifier := svc.outputVerifier
  mode := svc.outputVerificationMode
  llmEnabled := svc.outputVerificationLlmEnabled
  maxPromptChars := svc.outputVerificationMaxPromptChars
  maxResultChars := svc.outputVerificationMaxResultChars

/-- **The exit of a turn is the output exit**, for an answer of any format. -/
theorem verifyFinalAnswer_eq_finalize {ω : Type} (svc : MessageService ω) (history : List StoredMessage)
    (finalAnswer : String) (toolCalls : List ToolCallRecord) :
    svc.verifyFinalAnswer history finalAnswer toolCalls =
      (svc.outputExit.finalize ⟨history, finalAnswer, toolCalls, none⟩ >>= fun result => pure result.text) := by
  rw [text_finalize]
  rfl

/-! ## The verifier -/

/-- **What the verifier asks of an answer**: it is not empty, is no call, discloses a failed tool, and has its
format. -/
theorem verifyOutput_passed_iff (json : SerdeJson) (answer : String) (toolCalls : List ToolCallRecord)
    (requiredFormat : Option String) : (verifyOutput json answer toolCalls requiredFormat).passed ↔
      (trim answer).isEmpty = false ∧ looksLikeUnresolvedToolCall json (trim answer) = false ∧
        (toolCalls.any ToolCallRecord.failed → mentionsToolFailure (trim answer)) ∧
        (requiredFormat = some "json" → (json.fromStr (trim answer)).isOk) := by
  rw [verifyOutput]
  generalize looksLikeUnresolvedToolCall json (trim answer) = unresolved
  generalize mentionsToolFailure (trim answer) = mentioned
  generalize (json.fromStr (trim answer)).isOk = formatted
  generalize (trim answer).isEmpty = empty
  generalize toolCalls.any ToolCallRecord.failed = failed
  by_cases hformat : requiredFormat = some "json"
  · cases empty <;> cases unresolved <;> cases failed <;> cases mentioned <;> cases formatted <;> simp [hformat]
  · cases empty <;> cases unresolved <;> cases failed <;> cases mentioned <;> simp [hformat]

/-- The fixed text in place of a rejected answer. -/
def fixedAnswer : String := "I could not produce a reliable final answer from the available tool results."

theorem replacement_of_rejected {json : SerdeJson} {answer : String} {toolCalls : List ToolCallRecord}
    {requiredFormat : Option String} (h : ¬ (verifyOutput json answer toolCalls requiredFormat).passed) :
    (verifyOutput json answer toolCalls requiredFormat).replacement = fixedAnswer := by
  have hissues : ∀ (issues : List VerificationIssue) (result : OutputVerificationResult),
      result = (if issues.isEmpty then ⟨true, "1.0", issues, none⟩ else ⟨false, "0.95", issues, some fixedAnswer⟩) →
      ¬ result.passed → result.suggestedRevision = some fixedAnswer := by
    rintro issues result rfl hrejected
    split_ifs at hrejected ⊢
    · exact absurd rfl hrejected
    · rfl
  have hsuggested := hissues _ (verifyOutput json answer toolCalls requiredFormat) rfl h
  rw [OutputVerificationResult.replacement, hsuggested]
  rfl

theorem trim_fixedAnswer : trim fixedAnswer = fixedAnswer := by decide +kernel

/-- **The fixed text is accepted** where no tool has failed and no JSON is asked for. -/
theorem fixedAnswer_passed_iff {json : SerdeJson} (hprose : ¬ (json.fromStr fixedAnswer).isOk)
    (toolCalls : List ToolCallRecord) (requiredFormat : Option String) :
    (verifyOutput json fixedAnswer toolCalls requiredFormat).passed ↔
      (∀ call ∈ toolCalls, ¬ call.failed) ∧ requiredFormat ≠ some "json" := by
  have hunresolved : looksLikeUnresolvedToolCall json fixedAnswer = false := by
    rw [looksLikeUnresolvedToolCall, trim_fixedAnswer]
    cases hparse : json.fromStr fixedAnswer with
    | ok value => exact absurd (by rw [hparse]; rfl) hprose
    | error err =>
      change (contains fixedAnswer _ || (contains fixedAnswer _ && contains fixedAnswer _ && contains fixedAnswer _)) = _
      decide +kernel
  have hempty : fixedAnswer.isEmpty = false := by decide +kernel
  have hmentions : mentionsToolFailure fixedAnswer = false := by decide +kernel
  rw [verifyOutput_passed_iff, trim_fixedAnswer, hunresolved, hempty, hmentions]
  simp only [hprose, List.any_eq_true, true_and, imp_false, Bool.false_eq_true, not_exists, not_and, ne_eq]

/-! ## What leaves through the exit -/

namespace OutputExit

section Outcomes

variable {exit : OutputExit (Except String)} {req : OutputExitRequest}

theorem ok_bind {α β : Type} (a : α) (f : α → Except String β) : (Except.ok a >>= f) = f a := rfl

theorem error_bind {α β : Type} (err : String) (f : α → Except String β) : (Except.error err >>= f) = .error err := rfl

/-- Everything that the exit emits is accepted. -/
def Sound (exit : OutputExit (Except String)) (req : OutputExitRequest) : Prop :=
  ∀ result, exit.finalize req = .ok result → result.verified ∧ (exit.verify req result.text).passed

theorem sound_of_eq {text : String} {revised : Bool} {issueCodes : List String}
    (h : exit.finalize req = .ok ⟨text, true, revised, issueCodes⟩) : exit.Sound req ↔ (exit.verify req text).passed := by
  constructor
  · intro hsound
    exact (hsound _ h).2
  · intro hpassed result hresult
    rw [h] at hresult
    obtain rfl := Except.ok.inj hresult
    exact ⟨rfl, hpassed⟩

theorem finalize_accepted (hverifier : exit.verifier) (h : (exit.verify req req.finalAnswer).passed) :
    exit.finalize req = .ok ⟨req.finalAnswer, true, false, []⟩ := by
  rw [finalize, if_neg (not_not_intro hverifier)]
  exact if_pos h

theorem finalize_fixed (hverifier : exit.verifier) (h : ¬ (exit.verify req req.finalAnswer).passed)
    (hmode : exit.mode = .block ∨ exit.mode = .reviseOnce ∧ ¬ exit.llmEnabled) :
    ∃ issueCodes, exit.finalize req = .ok ⟨fixedAnswer, true, true, issueCodes⟩ := by
  refine ⟨(exit.verify req req.finalAnswer).issues.map VerificationIssue.code, ?_⟩
  have hreplacement : (exit.verify req req.finalAnswer).replacement = fixedAnswer := replacement_of_rejected h
  rw [finalize, if_neg (not_not_intro hverifier), ← hreplacement]
  refine (if_neg h).trans ?_
  rcases hmode with hmode | ⟨hmode, hllm⟩
  · rw [hmode]
    rfl
  · rw [hmode]
    exact if_pos hllm

theorem finalize_revised (hverifier : exit.verifier) (h : ¬ (exit.verify req req.finalAnswer).passed)
    (hmode : exit.mode = .reviseOnce) (hllm : exit.llmEnabled) :
    exit.finalize req = exit.complete (exit.revisionRequest req) >>= fun answer =>
      let issueCodes := (exit.verify req req.finalAnswer).issues.map VerificationIssue.code
      if (exit.verify req (exit.revision answer)).passed then .ok ⟨exit.revision answer, true, true, issueCodes⟩
      else .ok ⟨(exit.verify req (exit.revision answer)).replacement, true, true, issueCodes⟩ := by
  rw [finalize, if_neg (not_not_intro hverifier)]
  refine (if_neg h).trans ?_
  rw [hmode]
  exact if_neg (not_not_intro hllm)

end Outcomes

/-- **What the exit emits is accepted** if and only if the answer is, or the revision is, or the fixed text is: where
it is used, no tool has failed and no JSON is asked for. -/
theorem finalize_passes_iff (exit : OutputExit (Except String)) (hverifier : exit.verifier)
    (hmode : exit.mode = .block ∨ exit.mode = .reviseOnce) (hprose : ¬ (exit.json.fromStr fixedAnswer).isOk)
    (req : OutputExitRequest) :
    (∀ result, exit.finalize req = .ok result → result.verified ∧ (exit.verify req result.text).passed) ↔
      (exit.verify req req.finalAnswer).passed ∨
      (exit.mode = .reviseOnce ∧ exit.llmEnabled ∧ ∀ answer, exit.complete (exit.revisionRequest req) = .ok answer →
        (exit.verify req (exit.revision answer)).passed) ∨
      (∀ call ∈ req.toolCalls, ¬ call.failed) ∧ req.requiredFormat ≠ some "json" := by
  rw [← fixedAnswer_passed_iff hprose]
  change exit.Sound req ↔ _ ∨ _ ∨ (exit.verify req fixedAnswer).passed
  by_cases hfirst : (exit.verify req req.finalAnswer).passed
  · exact iff_of_true ((sound_of_eq (finalize_accepted hverifier hfirst)).mpr hfirst) (Or.inl hfirst)
  rw [or_iff_right hfirst]
  by_cases hask : exit.mode = .reviseOnce ∧ exit.llmEnabled
  · obtain ⟨hrevise, hllm⟩ := hask
    have heq := finalize_revised hverifier hfirst hrevise hllm
    cases hanswer : exit.complete (exit.revisionRequest req) with
    | error err =>
      rw [hanswer, error_bind] at heq
      refine iff_of_true (fun result hresult => ?_) (Or.inl ⟨hrevise, hllm, fun answer h => (by cases h)⟩)
      rw [heq] at hresult
      cases hresult
    | ok answer =>
      rw [hanswer, ok_bind] at heq
      by_cases hrevised : (exit.verify req (exit.revision answer)).passed
      · rw [if_pos hrevised] at heq
        refine iff_of_true ((sound_of_eq heq).mpr hrevised) (Or.inl ⟨hrevise, hllm, fun answer' h => ?_⟩)
        rw [← Except.ok.inj h]
        exact hrevised
      · rw [if_neg hrevised, show (exit.verify req (exit.revision answer)).replacement = fixedAnswer from
          replacement_of_rejected hrevised] at heq
        rw [sound_of_eq heq, or_iff_right]
        rintro ⟨-, -, h⟩
        exact hrevised (h answer rfl)
  · have hfixed : exit.mode = .block ∨ exit.mode = .reviseOnce ∧ ¬ exit.llmEnabled :=
      hmode.imp_right fun h => ⟨h, fun hllm => hask ⟨h, hllm⟩⟩
    obtain ⟨issueCodes, heq⟩ := finalize_fixed hverifier hfirst hfixed
    rw [sound_of_eq heq, or_iff_right]
    rintro ⟨hrevise, hllm, -⟩
    exact hask ⟨hrevise, hllm⟩

end OutputExit

namespace Sample

/-- An exit that blocks, and an answer that is silent about a failed tool. -/
def blockingExit : OutputExit (Except String) where
  complete _ := .error "unavailable"
  json := ⟨fun _ => .error "expected value", fun _ => ""⟩
  verifier := true
  mode := .block
  llmEnabled := false
  maxPromptChars := 4000
  maxResultChars := 4000

def silentAnswer : OutputExitRequest := ⟨[], "All files are listed.", [⟨0, "files", "list", .json [], .null, false, 3, 0⟩], none⟩

end Sample

/-- The fixed text does not disclose the failed tool. -/
theorem blocked_answer_rejected : ¬ ∀ result, Sample.blockingExit.finalize Sample.silentAnswer = .ok result →
    result.verified ∧ (Sample.blockingExit.verify Sample.silentAnswer result.text).passed := by
  intro h
  have hpassed := (h ⟨fixedAnswer, true, true, ["HIDDEN_TOOL_ERROR"]⟩ (by decide +kernel)).2
  revert hpassed
  decide +kernel

theorem blocked_answer_iff : (∀ result, Sample.blockingExit.finalize Sample.silentAnswer = .ok result →
      result.verified ∧ (Sample.blockingExit.verify Sample.silentAnswer result.text).passed) ↔
    (Sample.blockingExit.verify Sample.silentAnswer Sample.silentAnswer.finalAnswer).passed ∨
    (Sample.blockingExit.mode = .reviseOnce ∧ Sample.blockingExit.llmEnabled ∧ ∀ answer,
      Sample.blockingExit.complete (Sample.blockingExit.revisionRequest Sample.silentAnswer) = .ok answer →
        (Sample.blockingExit.verify Sample.silentAnswer (Sample.blockingExit.revision answer)).passed) ∨
    (∀ call ∈ Sample.silentAnswer.toolCalls, ¬ call.failed) ∧ Sample.silentAnswer.requiredFormat ≠ some "json" :=
  OutputExit.finalize_passes_iff Sample.blockingExit rfl (Or.inl rfl) (by decide) Sample.silentAnswer

end Xiaomaolv
