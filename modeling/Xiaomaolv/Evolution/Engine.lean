import Xiaomaolv.Evolution.Scoring
import Xiaomaolv.Lib.Interleave

/-!
# The evolution engine

* `EvolutionAction`: the atomic calls of the engine, on the store, the provider and the policy in memory.
* `runEvaluationStep`, `evaluateCandidate`, `approveCandidate`, …: the engine's functions as programs.
* `EvolutionWorld`, `EvolutionEngine.system`: the calls of one engine, interleaved at every await.
* **`perform_store`**: an atomic call is one transaction of the store, or leaves it.
-/

namespace Xiaomaolv

open Interleave

/-! ## Actors -/

inductive EvolutionActor
  | human (id : String)
  | system (id : String)
deriving DecidableEq, Repr

namespace EvolutionActor

def isHuman : EvolutionActor → Bool
  | human _ => true
  | system _ => false

def id : EvolutionActor → String
  | human id => id
  | system id => id

def kind : EvolutionActor → String
  | human _ => "human"
  | system _ => "system"

/-- `audit_label`. -/
def auditLabel (actor : EvolutionActor) : Except String String := do
  ensure (trim actor.id ≠ "") "evolution actor id cannot be empty"
  ensure (byteLen (trim actor.id) ≤ 128 && !(trim actor.id).toList.any isControl)
    "evolution actor id cannot exceed 128 bytes or contain control characters"
  return actor.kind ++ ":" ++ trim actor.id

end EvolutionActor

/-! ## Atomic calls -/

variable {R : Type}

/-- What a function of the engine awaits. -/
inductive EvolutionAction (R : Type)
  | newEvolutionId (kind : String)
  | lockEvaluation
  | unlockEvaluation
  | benchmarkSuite
  | activePolicy
  | replacePolicy (policy : Option ActiveEvolutionPolicy)
  | complete (messages : List StoredMessage)
  | getCandidate (candidateId : String)
  | createCandidate (draft : EvolutionCandidateDraft) (actor : String)
  | transitionCandidate (candidateId : String) (expected next : EvolutionCandidateStatus)
      (actor : String) (details : Value)
  | listEvalCases
  | upsertEvalCase (evalCase : EvolutionEvalCase R) (actor : String)
  | recordEvaluation (draft : EvolutionEvaluationDraft R)
  | latestEvaluation (candidateId : String)
  | getEvalRun (candidateId : String)
  | upsertEvalRun (run : EvolutionEvalRun R)
  | clearEvalRun (candidateId : String)
  | activateCandidate (candidateId actor reason : String)
  | rollbackActive (actor reason : String)

namespace EvolutionAction

/-- What a call returns. -/
@[reducible] def Resp : EvolutionAction R → Type
  | newEvolutionId _ => String
  | lockEvaluation => Unit
  | unlockEvaluation => Unit
  | benchmarkSuite => Option (EvolutionBenchmarkSuite R)
  | activePolicy => Option ActiveEvolutionPolicy
  | replacePolicy _ => Unit
  | complete _ => String
  | getCandidate _ => Option EvolutionCandidateRecord
  | createCandidate .. => EvolutionCandidateRecord
  | transitionCandidate .. => EvolutionCandidateRecord
  | listEvalCases => List (EvolutionEvalCase R)
  | upsertEvalCase .. => Unit
  | recordEvaluation _ => EvolutionEvaluationRecord R
  | latestEvaluation _ => Option (EvolutionEvaluationRecord R)
  | getEvalRun _ => Option (EvolutionEvalRun R)
  | upsertEvalRun _ => Unit
  | clearEvalRun _ => Unit
  | activateCandidate .. => EvolutionDeploymentRecord
  | rollbackActive .. => EvolutionRollbackResult

end EvolutionAction

/-- A function of the engine. -/
abbrev EngineM (R : Type) := Prog (EvolutionAction R) EvolutionAction.Resp

/-- One atomic call. -/
def call (a : EvolutionAction R) : EngineM R a.Resp := Prog.perform a

/-- What an engine is built with and never changes; `modelName` is the provider's `model_name()`. -/
structure EvolutionEngine (R : Type) where
  gateConfig : EvolutionGateConfig R
  maxSourceTrajectories : Nat := 20
  modelName : String

/-! ## Shadow evaluation -/

def systemActor : String := "system:evolution-engine"

/-- `render_evolution_policy_message`. -/
def renderEvolutionPolicyMessage (candidateId deploymentId : String) (promptPatch : PromptPatch) : String :=
  "ACTIVE_EVOLUTION_POLICY\ncandidate_id=" ++ candidateId ++ "\ndeployment_id=" ++ deploymentId
    ++ "\nInstructions:\n" ++ promptPatch.text

/-- The messages of `shadow_complete`. -/
def shadowMessages (evalCase : EvolutionEvalCase R) (policy : Option (String × String × PromptPatch)) :
    List StoredMessage :=
  (policy.elim [] fun (candidateId, deploymentId, promptPatch) =>
    [⟨.system, renderEvolutionPolicyMessage candidateId deploymentId promptPatch⟩])
    ++ [⟨.user, evalCase.input⟩]

/-- `shadow_complete`. -/
def shadowComplete (evalCase : EvolutionEvalCase R) (policy : Option (String × String × PromptPatch)) :
    EngineM R String :=
  call (.complete (shadowMessages evalCase policy))

/-- The policy that a candidate is shadowed with. -/
def shadowPolicy (candidate : EvolutionCandidateRecord) : String × String × PromptPatch :=
  (candidate.id, "shadow-evaluation", candidate.promptPatch)

/-- `response_bytes.checked_add(output.len())` and the budget. -/
def addResponse (maxResponseBytes responseBytes : Nat) (output : String) : Except String Nat := do
  ensure (responseBytes + byteLen output < 2 ^ 64) "evolution response byte count overflowed"
  ensure (responseBytes + byteLen output ≤ maxResponseBytes) "evolution response byte budget exceeded"
  return responseBytes + byteLen output

/-- The two completions of a case. -/
def shadowCase (candidate : EvolutionCandidateRecord) (baseline : Option (String × String × PromptPatch))
    (maxResponseBytes : Nat) (evalCase : EvolutionEvalCase R) (responseBytes : Nat) :
    EngineM R (String × String × Nat) := do
  let baselineOutput ← (shadowComplete evalCase baseline).context
    ("baseline eval case '" ++ evalCase.id ++ "' failed")
  let responseBytes ← addResponse maxResponseBytes responseBytes baselineOutput
  let candidateOutput ← (shadowComplete evalCase (some (shadowPolicy candidate))).context
    ("candidate eval case '" ++ evalCase.id ++ "' failed")
  let responseBytes ← addResponse maxResponseBytes responseBytes candidateOutput
  return (baselineOutput, candidateOutput, responseBytes)

/-- The loop of `evaluate_candidate_inner`. -/
def shadowCases (candidate : EvolutionCandidateRecord) (baseline : Option (String × String × PromptPatch))
    (maxResponseBytes : Nat) : List (EvolutionEvalCase R) → Outputs → Outputs → Nat →
      EngineM R (Outputs × Outputs × Nat)
  | [], baselineOutputs, candidateOutputs, responseBytes =>
    return (baselineOutputs, candidateOutputs, responseBytes)
  | c :: cases, baselineOutputs, candidateOutputs, responseBytes => do
    let (baselineOutput, candidateOutput, responseBytes) ←
      shadowCase candidate baseline maxResponseBytes c responseBytes
    shadowCases candidate baseline maxResponseBytes cases (baselineOutputs.insert c.id baselineOutput)
      (candidateOutputs.insert c.id candidateOutput) responseBytes

/-- No case of the suite has the id of an operator's case. -/
def ensureNoCollision (cases : List (EvolutionEvalCase R)) :
    List (EvolutionEvalCase R) → Except String Unit
  | [] => .ok ()
  | bench :: suite => do
    ensure (!cases.any fun c => c.id = bench.id)
      ("benchmark case id '" ++ bench.id ++ "' collides with an operator eval case")
    ensureNoCollision cases suite

def suiteCases (suite : Option (EvolutionBenchmarkSuite R)) : List (EvolutionEvalCase R) :=
  suite.elim [] (·.cases)

def policyTriple (policy : ActiveEvolutionPolicy) : String × String × PromptPatch :=
  (policy.candidateId, policy.deploymentId, policy.promptPatch)

/-- The status that an evaluation can start from. -/
def ensureEvaluable (candidateId : String) (status : EvolutionCandidateStatus) : Except String Unit :=
  ensure (status ≠ .evaluating)
    ("candidate '" ++ candidateId ++ "' cannot be evaluated from status '" ++ status.asStr ++ "'")

namespace EvolutionEngine

variable (engine : EvolutionEngine R)

/-- The details of the transition that starts an evaluation. -/
def modelDetails : Value := .json [("model", .string engine.modelName)]

/-- `finalize_shadow_evaluation`. -/
def finalizeShadowEvaluation [Host R] (candidate : EvolutionCandidateRecord)
    (cases : List (EvolutionEvalCase R)) (suite : Option (EvolutionBenchmarkSuite R))
    (baselineOutputs candidateOutputs : Outputs) (baselineCandidateId : Option String) :
    EngineM R (EvolutionEvaluationRecord R) := do
  let scorecard ← scoreWithBenchmark cases suite baselineOutputs candidateOutputs
  let decision := engine.gateConfig.decide scorecard
  let id ← call (.newEvolutionId "evaluation")
  let evaluation ← call (.recordEvaluation
    { id, candidateId := candidate.id, baselineCandidateId, scorecard, decision,
      gateConfig := engine.gateConfig })
  let (next, details) : EvolutionCandidateStatus × Value :=
    match decision with
    | .ready => (.ready, .json
        [("evaluation_id", .string evaluation.id),
          ("candidate_score", .float (Host.json evaluation.scorecard.candidateScore)),
          ("score_delta", .float (Host.json evaluation.scorecard.scoreDelta))])
    | .rejected reasons => (.rejected, .json
        [("evaluation_id", .string evaluation.id), ("reasons", .strings reasons)])
  let _ ← call (.transitionCandidate candidate.id .evaluating next systemActor details)
  return evaluation

/-- `evaluate_candidate_inner`. -/
def evaluateCandidateInner [Host R] (candidate : EvolutionCandidateRecord) (maxResponseBytes : Nat) :
    EngineM R (EvolutionEvaluationRecord R) := do
  let cases ← call .listEvalCases
  let suite ← call .benchmarkSuite
  ensureNoCollision cases (suiteCases suite)
  let active ← call .activePolicy
  let (baselineOutputs, candidateOutputs, _) ←
    shadowCases candidate (active.map policyTriple) maxResponseBytes (cases ++ suiteCases suite) [] [] 0
  engine.finalizeShadowEvaluation candidate cases suite baselineOutputs candidateOutputs
    (active.map (·.candidateId))

/-- A call under `evaluation_lock`, which is released when the call returns. -/
def locked {α : Type} (p : EngineM R α) : EngineM R α := do
  call .lockEvaluation
  p.attempt fun r => (call .unlockEvaluation).attempt fun _ => .ret r

/-- `evaluate_candidate_with_limit`. -/
def evaluateCandidate [Host R] (candidateId : String) (maxResponseBytes : Nat) :
    EngineM R (EvolutionEvaluationRecord R) := locked do
  let found ← call (.getCandidate candidateId)
  let candidate ← context found ("evolution candidate '" ++ candidateId ++ "' does not exist")
  ensureEvaluable candidateId candidate.status
  let _ ← call (.transitionCandidate candidateId candidate.status .evaluating systemActor
    engine.modelDetails)
  (engine.evaluateCandidateInner candidate maxResponseBytes).attempt fun
    | .ok evaluation => .ret (.ok evaluation)
    | .error e =>
      (call (.transitionCandidate candidateId .evaluating .failed systemActor (.json
        [("error", .string "shadow_evaluation_failed"), ("retryable", .bool true)]))).attempt
        fun _ => .ret (.error e)

/-- The part of `run_evaluation_step` that freezes the suite and the baseline. -/
def startEvalRun (candidateId : String) : EngineM R (EvolutionEvalRun R) := do
  let found ← call (.getCandidate candidateId)
  let candidate ← context found ("evolution candidate '" ++ candidateId ++ "' does not exist")
  -- A crashed evaluation left the candidate parked without a cursor.
  let candidate ← (if candidate.status = .evaluating then do
      let _ ← call (.transitionCandidate candidateId .evaluating .failed systemActor
        (.json [("error", .string "stale evaluation reset")]))
      let found ← call (.getCandidate candidateId)
      context found "candidate disappeared mid-reset"
    else return candidate : EngineM R EvolutionCandidateRecord)
  ensureEvaluable candidateId candidate.status
  let cases ← call .listEvalCases
  let suite ← call .benchmarkSuite
  ensureNoCollision cases (suiteCases suite)
  ensure (!(cases ++ suiteCases suite).isEmpty) "evolution eval suite is empty"
  let active ← call .activePolicy
  let _ ← call (.transitionCandidate candidateId candidate.status .evaluating systemActor
    engine.modelDetails)
  let id ← call (.newEvolutionId "evalrun")
  let run : EvolutionEvalRun R :=
    { id
      candidateId
      cases := cases ++ suiteCases suite
      benchmarkTail := (suiteCases suite).length
      baseline := active.map policyTriple
      caseIndex := 0
      baselineOutputs := []
      candidateOutputs := []
      responseBytes := 0 }
  call (.upsertEvalRun run)
  return run

/-- The suite that a finished cursor is scored with: the frozen cases under the id and version that the
engine has now. -/
def resumedSuite (run : EvolutionEvalRun R) (suite : Option (EvolutionBenchmarkSuite R)) :
    Option (EvolutionBenchmarkSuite R) :=
  if 0 < run.benchmarkTail then
    suite.map fun suite =>
      { suite with cases := run.cases.drop (run.cases.length - run.benchmarkTail) }
  else none

/-- The next case of a cursor, and the end of the evaluation after the last one. -/
def advanceEvalRun [Host R] (candidateId : String) (maxResponseBytes : Nat) (run : EvolutionEvalRun R) :
    EngineM R Unit := do
  let found ← call (.getCandidate candidateId)
  let candidate ← context found ("evolution candidate '" ++ candidateId ++ "' does not exist")
  let c ← context run.cases[run.caseIndex]? "eval run case index out of range"
  let (baselineOutput, candidateOutput, responseBytes) ←
    shadowCase candidate run.baseline maxResponseBytes c run.responseBytes
  let run : EvolutionEvalRun R :=
    { run with
      responseBytes
      baselineOutputs := run.baselineOutputs.insert c.id baselineOutput
      candidateOutputs := run.candidateOutputs.insert c.id candidateOutput
      caseIndex := run.caseIndex + 1 }
  if run.caseIndex < run.cases.length then
    call (.upsertEvalRun run)
  else do
    let suite ← call .benchmarkSuite
    let _ ← engine.finalizeShadowEvaluation candidate
      (run.cases.take (run.cases.length - run.benchmarkTail)) (resumedSuite run suite)
      run.baselineOutputs run.candidateOutputs (run.baseline.map (·.1))
    call (.clearEvalRun candidateId)

/-- `run_evaluation_step`. -/
def runEvaluationStep [Host R] (candidateId : String) (maxResponseBytes : Nat) : EngineM R Unit := do
  ensure (0 < maxResponseBytes) "evolution response byte budget must be positive"
  locked do
    let found ← call (.getEvalRun candidateId)
    let run ← (match found with
      | some run => return run
      | none => engine.startEvalRun candidateId : EngineM R (EvolutionEvalRun R))
    engine.advanceEvalRun candidateId maxResponseBytes run

/-! ## Operators' calls -/

/-- `require_human_actor`. -/
def requireHumanActor (actor : EvolutionActor) : Except String Unit :=
  ensure (!(engine.gateConfig.requireHumanApproval && !actor.isHuman))
    "a human actor is required by the evolution promotion policy"

/-- `validate_operator_reason`. -/
def validateOperatorReason (action reason : String) : Except String Unit := do
  ensure (!isBlank reason) (action ++ " reason cannot be empty")
  ensure (charCount (trim reason) ≤ 2000) (action ++ " reason cannot exceed 2000 characters")

/-- `approve_candidate`. -/
def approveCandidate (candidateId : String) (actor : EvolutionActor) (reason : String) :
    EngineM R EvolutionCandidateRecord := do
  engine.requireHumanActor actor
  validateOperatorReason "approval" reason
  let found ← call (.latestEvaluation candidateId)
  let latest ← context found ("candidate '" ++ candidateId ++ "' has no evaluation")
  ensure (latest.decision = .ready) ("candidate '" ++ candidateId ++ "' latest evaluation is not ready")
  let active ← call .activePolicy
  ensure (latest.baselineCandidateId = active.map (·.candidateId))
    ("candidate '" ++ candidateId
      ++ "' was evaluated against a stale baseline; re-evaluate it before approval")
  let label ← actor.auditLabel
  call (.transitionCandidate candidateId .ready .approved label
    (.json [("reason", .string (trim reason)), ("evaluation_id", .string latest.id)]))

/-- `abandon_evaluation`. -/
def abandonEvaluation (candidateId : String) (actor : EvolutionActor) (reason : String) :
    EngineM R EvolutionCandidateRecord := do
  engine.requireHumanActor actor
  validateOperatorReason "abandon" reason
  let label ← actor.auditLabel
  call (.transitionCandidate candidateId .evaluating .failed label
    (.json [("reason", .string (trim reason)),
      ("recovery", .string "operator_abandoned_stale_evaluation")]))

/-- `activate_candidate`: the transaction, then the policy in memory. -/
def activateCandidate (candidateId : String) (actor : EvolutionActor) (reason : String) :
    EngineM R EvolutionDeploymentRecord := do
  engine.requireHumanActor actor
  let found ← call (.getCandidate candidateId)
  let candidate ← context found ("evolution candidate '" ++ candidateId ++ "' does not exist")
  let label ← actor.auditLabel
  let deployment ← call (.activateCandidate candidateId label reason)
  call (.replacePolicy (some ⟨deployment.id, candidate.id, candidate.promptPatch⟩))
  return deployment

/-- `rollback_active`: the transaction, then the policy in memory. -/
def rollbackActive (actor : EvolutionActor) (reason : String) : EngineM R EvolutionRollbackResult := do
  engine.requireHumanActor actor
  let label ← actor.auditLabel
  let rollback ← call (.rollbackActive label reason)
  call (.replacePolicy rollback.restoredPolicy)
  return rollback

/-- The ids trimmed, sorted and without repetitions. -/
def cleanSourceIds (ids : List String) : List String :=
  (((ids.map trim).filter (· ≠ "")).insertionSort (· ≤ ·)).eraseReps

/-- `create_candidate_with_fingerprint`. -/
def createCandidate (promptPatch rationale : String) (sourceTrajectoryIds : List String)
    (evidenceFingerprint : Option String) (actor : EvolutionActor) :
    EngineM R EvolutionCandidateRecord := do
  let label ← actor.auditLabel
  let active ← call .activePolicy
  ensure ((cleanSourceIds sourceTrajectoryIds).length ≤ engine.maxSourceTrajectories)
    ("candidate source trajectories exceed the configured limit of "
      ++ toString engine.maxSourceTrajectories)
  let id ← call (.newEvolutionId "candidate")
  let promptPatch ← PromptPatch.new promptPatch engine.gateConfig.maxPromptPatchChars
  call (.createCandidate
    { id
      parentCandidateId := active.map (·.candidateId)
      evidenceFingerprint
      promptPatch
      rationale
      sourceTrajectoryIds := cleanSourceIds sourceTrajectoryIds } label)

/-- `upsert_eval_case`. -/
def upsertEvalCase (evalCase : EvolutionEvalCase R) (actor : EvolutionActor) : EngineM R Unit := do
  let label ← actor.auditLabel
  call (.upsertEvalCase evalCase label)

/-- The store's own transition to `rejected`, which no function of the engine but the gate makes. -/
def rejectCandidate (candidateId : String) (expected : EvolutionCandidateStatus) (actor : String)
    (details : Value) : EngineM R EvolutionCandidateRecord :=
  call (.transitionCandidate candidateId expected .rejected actor details)

end EvolutionEngine

/-! ## The system -/

/-- The calls on an engine. -/
inductive EvolutionCall (R : Type)
  | evaluate (candidateId : String) (maxResponseBytes : Nat)
  | evaluationStep (candidateId : String) (maxResponseBytes : Nat)
  | abandon (candidateId : String) (actor : EvolutionActor) (reason : String)
  | approve (candidateId : String) (actor : EvolutionActor) (reason : String)
  | reject (candidateId : String) (expected : EvolutionCandidateStatus) (actor : String) (details : Value)
  | activate (candidateId : String) (actor : EvolutionActor) (reason : String)
  | rollback (actor : EvolutionActor) (reason : String)
  | create (promptPatch rationale : String) (sourceTrajectoryIds : List String)
      (evidenceFingerprint : Option String) (actor : EvolutionActor)
  | upsertCase (evalCase : EvolutionEvalCase R) (actor : EvolutionActor)

/-- What the threads share: the database, and the engine's policy, suite and evaluation lock. -/
structure EvolutionWorld (R : Type) where
  store : EvolutionStore R
  policyRuntime : Option ActiveEvolutionPolicy
  benchmarkSuite : Option (EvolutionBenchmarkSuite R)
  evaluationLock : Option Nat

/-- What a call is given from outside: the clock, a fresh id and the provider's reply. -/
structure EvolutionEnv where
  now : Int
  freshId : String
  reply : List StoredMessage → Except String String

namespace EvolutionWorld

def initial : EvolutionWorld R := ⟨.empty, none, none, none⟩

variable (w : EvolutionWorld R)

/-- A transaction, and what is read from the store after it. -/
def commit {α : Type} (tx : Except String (EvolutionStore R))
    (read : EvolutionStore R → Except String α) : Except String α × EvolutionWorld R :=
  match tx with
  | .error e => (.error e, w)
  | .ok store => (read store, { w with store })

/-- A transaction that returns its result. -/
def commitWith {α : Type} (tx : Except String (α × EvolutionStore R)) :
    Except String α × EvolutionWorld R :=
  match tx with
  | .error e => (.error e, w)
  | .ok (a, store) => (.ok a, { w with store })

/-- The candidate as it is read back. -/
def readBack (candidateId message : String) (store : EvolutionStore R) :
    Except String EvolutionCandidateRecord := do
  let found ← store.getCandidate candidateId
  context found message

/-- The calls; only the evaluation lock makes a thread wait. -/
def perform [Host R] (env : EvolutionEnv) (i : Nat) (w : EvolutionWorld R) :
    (a : EvolutionAction R) → Option (Except String a.Resp × EvolutionWorld R)
  | .newEvolutionId _ => some (.ok env.freshId, w)
  | .lockEvaluation =>
    if w.evaluationLock.isSome then none else some (.ok (), { w with evaluationLock := some i })
  | .unlockEvaluation => some (.ok (), { w with evaluationLock := none })
  | .benchmarkSuite => some (.ok w.benchmarkSuite, w)
  | .activePolicy => some (.ok w.policyRuntime, w)
  | .replacePolicy policy => some (.ok (), { w with policyRuntime := policy })
  | .complete messages => some (env.reply messages, w)
  | .getCandidate candidateId => some (w.store.getCandidate candidateId, w)
  | .createCandidate draft actor =>
    some (w.commit (w.store.createCandidate draft actor)
      (readBack draft.id "created evolution candidate is missing"))
  | .transitionCandidate candidateId expected next actor details =>
    some (w.commit (w.store.transitionCandidate candidateId expected next actor details)
      (readBack candidateId "transitioned evolution candidate is missing"))
  | .listEvalCases => some (.ok w.store.enabledEvalCases, w)
  | .upsertEvalCase evalCase actor =>
    some (w.commit (w.store.upsertEvalCase evalCase actor) fun _ => .ok ())
  | .recordEvaluation draft =>
    some (w.commit (w.store.recordEvaluation draft env.now) fun store =>
      context (store.evaluations.find? fun e => e.id = draft.id) "recorded evolution evaluation is missing")
  | .latestEvaluation candidateId => some (.ok (w.store.latestEvaluation? candidateId), w)
  | .getEvalRun candidateId => some (.ok (w.store.evalRun? candidateId), w)
  | .upsertEvalRun run => some (w.commit (w.store.upsertEvalRun run) fun _ => .ok ())
  | .clearEvalRun candidateId => some (w.commit (.ok (w.store.clearEvalRun candidateId)) fun _ => .ok ())
  | .activateCandidate candidateId actor reason =>
    some (w.commitWith (w.store.activateCandidate candidateId actor reason env.freshId env.now))
  | .rollbackActive actor reason => some (w.commitWith (w.store.rollbackActive actor reason env.now))

/-- The guard of a dropped call is dropped with it. -/
def release (i : Nat) : EvolutionWorld R :=
  if w.evaluationLock = some i then { w with evaluationLock := none } else w

/-- `EvolutionEngine::new` and `with_benchmark_suite` of a new process. -/
def restart [Host R] (suite : Option (EvolutionBenchmarkSuite R)) : Option (EvolutionWorld R) :=
  match w.store.activePolicy, suite.elim (.ok ()) (·.validate) with
  | .ok policy, .ok _ => some ⟨w.store, policy, suite, none⟩
  | _, _ => none

end EvolutionWorld

namespace EvolutionEngine

variable [Host R] (engine : EvolutionEngine R)

/-- The program of a call; what it returns goes to the caller. -/
def program : EvolutionCall R → EngineM R Unit
  | .evaluate candidateId maxResponseBytes => do
    let _ ← engine.evaluateCandidate candidateId maxResponseBytes
  | .evaluationStep candidateId maxResponseBytes => engine.runEvaluationStep candidateId maxResponseBytes
  | .abandon candidateId actor reason => do let _ ← engine.abandonEvaluation candidateId actor reason
  | .approve candidateId actor reason => do let _ ← engine.approveCandidate candidateId actor reason
  | .reject candidateId expected actor details => do
    let _ ← rejectCandidate candidateId expected actor details
  | .activate candidateId actor reason => do let _ ← engine.activateCandidate candidateId actor reason
  | .rollback actor reason => do let _ ← engine.rollbackActive actor reason
  | .create promptPatch rationale sourceTrajectoryIds evidenceFingerprint actor => do
    let _ ← engine.createCandidate promptPatch rationale sourceTrajectoryIds evidenceFingerprint actor
  | .upsertCase evalCase actor => EvolutionEngine.upsertEvalCase evalCase actor

/-- The engine's calls over one database. -/
def system : System (EvolutionWorld R) (EvolutionCall R) (EvolutionAction R) EvolutionEnv
    (Option (EvolutionBenchmarkSuite R)) EvolutionAction.Resp where
  program := engine.program
  perform env i a w := w.perform env i a
  release i w := w.release i
  restart suite w := w.restart suite

end EvolutionEngine

/-! ## Calls and transactions -/

/-- The transaction of a call. -/
def EvolutionAction.txn (env : EvolutionEnv) : EvolutionAction R → Option (EvolutionTxn R)
  | createCandidate draft actor => some (.createCandidate draft actor)
  | transitionCandidate candidateId expected next actor details =>
    some (.transitionCandidate candidateId expected next actor details)
  | upsertEvalCase evalCase actor => some (.upsertEvalCase evalCase actor)
  | recordEvaluation draft => some (.recordEvaluation draft env.now)
  | upsertEvalRun run => some (.upsertEvalRun run)
  | clearEvalRun candidateId => some (.clearEvalRun candidateId)
  | activateCandidate candidateId actor reason =>
    some (.activateCandidate candidateId actor reason env.freshId env.now)
  | rollbackActive actor reason => some (.rollbackActive actor reason env.now)
  | _ => none

section

variable [Host R] {env : EvolutionEnv} {i : Nat} {w w' : EvolutionWorld R}

theorem commit_store {α : Type} {tx : Except String (EvolutionStore R)}
    {read : EvolutionStore R → Except String α} {t : EvolutionTxn R} (h : w.store.apply t = tx) :
    (w.commit tx read).2.store = w.store.exec t := by
  rw [EvolutionStore.exec, h]
  cases tx <;> rfl

theorem commitWith_store {α : Type} {tx : Except String (α × EvolutionStore R)} {t : EvolutionTxn R}
    (h : w.store.apply t = Prod.snd <$> tx) : (w.commitWith tx).2.store = w.store.exec t := by
  rw [EvolutionStore.exec, h]
  cases tx <;> rfl

/-- A call changes the store by its transaction. -/
theorem perform_store {a : EvolutionAction R} {answer : Except String a.Resp}
    (h : w.perform env i a = some (answer, w')) :
    w'.store = (a.txn env).elim w.store w.store.exec := by
  cases a with
  | lockEvaluation =>
    simp only [EvolutionWorld.perform] at h
    split_ifs at h
    cases Option.some.inj h
    rfl
  | createCandidate draft actor =>
    cases congrArg Prod.snd (Option.some.inj h)
    exact commit_store rfl
  | transitionCandidate candidateId expected next actor details =>
    cases congrArg Prod.snd (Option.some.inj h)
    exact commit_store rfl
  | upsertEvalCase evalCase actor =>
    cases congrArg Prod.snd (Option.some.inj h)
    exact commit_store rfl
  | recordEvaluation draft =>
    cases congrArg Prod.snd (Option.some.inj h)
    exact commit_store rfl
  | upsertEvalRun run =>
    cases congrArg Prod.snd (Option.some.inj h)
    exact commit_store rfl
  | activateCandidate candidateId actor reason =>
    cases congrArg Prod.snd (Option.some.inj h)
    exact commitWith_store rfl
  | rollbackActive actor reason =>
    cases congrArg Prod.snd (Option.some.inj h)
    exact commitWith_store rfl
  | _ =>
    cases congrArg Prod.snd (Option.some.inj h)
    rfl

end

end Xiaomaolv
