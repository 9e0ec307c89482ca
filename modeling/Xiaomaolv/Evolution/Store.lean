import Mathlib.Data.List.Sort
import Mathlib.Data.String.Basic
import Xiaomaolv.Evolution.Data
import Xiaomaolv.Lib.Machine
import Xiaomaolv.Lib.Table
import Xiaomaolv.Loop.Json

/-!
# The evolution store

* `EvolutionStore`: the tables of candidates, eval cases, evaluations, evaluation cursors, deployments
  and audit events, and the pointer of `evolution_runtime_state`.
* The transactions of `SqliteEvolutionStore`, each a function to a new store or an error.
* `EvolutionTxn`, `EvolutionStore.exec`: one transaction, an error rolled back.
-/

namespace Xiaomaolv

open Table

def EvolutionPromotionDecision.toValue : EvolutionPromotionDecision → Value
  | .ready => .json [("decision", .string "ready")]
  | .rejected reasons => .json [("decision", .string "rejected"), ("reasons", .strings reasons)]

/-! ## The tables -/

/-- A row of `evolution_candidates`. -/
structure EvolutionCandidateRow where
  id : String
  parentCandidateId : Option String
  evidenceFingerprint : Option String
  promptPatch : String
  rationale : String
  sourceTrajectoryIds : List String
  status : EvolutionCandidateStatus
deriving DecidableEq

/-- What `candidate_from_row` returns. -/
structure EvolutionCandidateRecord where
  id : String
  parentCandidateId : Option String
  evidenceFingerprint : Option String
  promptPatch : PromptPatch
  rationale : String
  sourceTrajectoryIds : List String
  status : EvolutionCandidateStatus
deriving DecidableEq

variable {R : Type}

structure EvolutionEvaluationDraft (R : Type) where
  id : String
  candidateId : String
  baselineCandidateId : Option String
  scorecard : EvolutionScorecard R
  decision : EvolutionPromotionDecision
  gateConfig : EvolutionGateConfig R
deriving DecidableEq

/-- A row of `evolution_evaluations`. -/
structure EvolutionEvaluationRecord (R : Type) extends EvolutionEvaluationDraft R where
  createdAt : Int
deriving DecidableEq

/-- The outputs of an evaluation by case id, a `BTreeMap<String, String>`. -/
abbrev Outputs := List (String × String)

/-- A row of `evolution_eval_runs`: the frozen suite and baseline and what was answered so far. -/
structure EvolutionEvalRun (R : Type) where
  id : String
  candidateId : String
  cases : List (EvolutionEvalCase R)
  benchmarkTail : Nat
  baseline : Option (String × String × PromptPatch)
  caseIndex : Nat
  baselineOutputs : Outputs
  candidateOutputs : Outputs
  responseBytes : Nat
deriving DecidableEq

/-- A row of `evolution_deployments`. -/
structure EvolutionDeploymentRecord where
  id : String
  candidateId : String
  previousDeploymentId : Option String
  activatedBy : String
  reason : String
  activatedAt : Int
  rolledBackAt : Option Int := none
  rolledBackBy : Option String := none
  rollbackReason : Option String := none
deriving DecidableEq, Repr

/-- A row of `evolution_audit_events`. -/
structure EvolutionAuditEvent where
  candidateId : Option String
  deploymentId : Option String
  eventType : String
  actor : String
  details : Value
deriving DecidableEq

structure EvolutionRollbackResult where
  rolledBackDeploymentId : String
  rolledBackCandidateId : String
  restoredPolicy : Option ActiveEvolutionPolicy
deriving DecidableEq

structure EvolutionStore (R : Type) where
  candidates : List EvolutionCandidateRow
  evalCases : List (EvolutionEvalCase R)
  evaluations : List (EvolutionEvaluationRecord R)
  evalRuns : List (EvolutionEvalRun R)
  deployments : List EvolutionDeploymentRecord
  activeDeploymentId : Option String
  auditEvents : List EvolutionAuditEvent
deriving DecidableEq

/-! ## Checks -/

/-- `validate_actor`. -/
def validateEvolutionActor (actor : String) : Except String Unit := do
  ensure (!isBlank actor) "evolution actor cannot be empty"
  ensure (byteLen (trim actor) ≤ 160 && !(trim actor).toList.any isControl)
    "evolution actor cannot exceed 160 bytes or contain control characters"

/-- `validate_reason`. -/
def validateReason (reason : String) : Except String Unit := do
  ensure (!isBlank reason) "evolution reason cannot be empty"
  ensure (charCount (trim reason) ≤ 2000) "evolution reason cannot exceed 2000 characters"

/-- `validate_audit_fields`. -/
def validateAuditFields (eventType actor : String) : Except String Unit := do
  validateEvolutionActor actor
  ensure (!isBlank eventType && byteLen (trim eventType) ≤ 128)
    "evolution audit event type must contain between 1 and 128 bytes"

/-- `candidate_from_row`: the patch is checked again. -/
def EvolutionCandidateRow.record (row : EvolutionCandidateRow) : Except String EvolutionCandidateRecord := do
  let promptPatch ← PromptPatch.new row.promptPatch absoluteMaxPromptPatchChars
  return { row with promptPatch }

namespace EvolutionStore

def empty : EvolutionStore R := ⟨[], [], [], [], [], none, []⟩

variable (s : EvolutionStore R)

/-! ## Lookups -/

def candidate? (id : String) : Option EvolutionCandidateRow := s.candidates.find? fun c => c.id = id

def deployment? (id : String) : Option EvolutionDeploymentRecord :=
  s.deployments.find? fun d => d.id = id

/-- `get_candidate`. -/
def getCandidate (id : String) : Except String (Option EvolutionCandidateRecord) :=
  match s.candidate? id with
  | none => .ok none
  | some row => some <$> row.record

/-- The later of two evaluations: `ORDER BY created_at DESC, rowid DESC`, `e'` stored after `e`. -/
def laterEvaluation (e e' : EvolutionEvaluationRecord R) : EvolutionEvaluationRecord R :=
  if e.createdAt ≤ e'.createdAt then e' else e

/-- `latest_evaluation`. -/
def latestEvaluation? (candidateId : String) : Option (EvolutionEvaluationRecord R) :=
  match s.evaluations.filter fun e => e.candidateId = candidateId with
  | [] => none
  | e :: rest => some (rest.foldl laterEvaluation e)

/-- `list_eval_cases(true)`: `ORDER BY id ASC`. -/
def enabledEvalCases : List (EvolutionEvalCase R) :=
  (s.evalCases.filter (·.enabled)).insertionSort fun c c' => c.id ≤ c'.id

def evalRun? (candidateId : String) : Option (EvolutionEvalRun R) :=
  s.evalRuns.find? fun run => run.candidateId = candidateId

/-- The policy of a deployment that was not rolled back: `JOIN evolution_candidates … WHERE
rolled_back_at IS NULL`. -/
def policy? (deploymentId : String) : Except String (Option ActiveEvolutionPolicy) :=
  match s.deployment? deploymentId with
  | none => .ok none
  | some d =>
    if d.rolledBackAt.isSome then .ok none
    else
      match s.candidate? d.candidateId with
      | none => .ok none
      | some c => do
        let promptPatch ← PromptPatch.new c.promptPatch absoluteMaxPromptPatchChars
        return some ⟨d.id, d.candidateId, promptPatch⟩

/-- `active_policy`. -/
def activePolicy : Except String (Option ActiveEvolutionPolicy) :=
  match s.activeDeploymentId with
  | none => .ok none
  | some id => s.policy? id

/-- The candidate of the active deployment, rolled back or not: `LEFT JOIN evolution_deployments`. -/
def activeCandidateId? : Option String :=
  (s.activeDeploymentId.bind s.deployment?).map (·.candidateId)

/-! ## The transactions -/

/-- `insert_audit_event`, with the foreign keys of its row. -/
def insertAuditEvent (event : EvolutionAuditEvent) : Except String (EvolutionStore R) := do
  validateAuditFields event.eventType event.actor
  ensure (event.details.jsonLen ≤ 65536) "evolution audit details cannot exceed 65536 bytes"
  ensure ((event.candidateId.all fun id => (s.candidate? id).isSome)
      && event.deploymentId.all fun id => (s.deployment? id).isSome)
    "failed to insert evolution audit event"
  return { s with auditEvents := s.auditEvents ++ [event] }

/-- The transaction of `create_candidate`. -/
def createCandidate (draft : EvolutionCandidateDraft) (actor : String) :
    Except String (EvolutionStore R) := do
  draft.validate
  validateEvolutionActor actor
  ensure (draft.parentCandidateId ≠ some draft.id) "candidate cannot be its own parent"
  ensure (draft.parentCandidateId.all fun id => (s.candidate? id).isSome)
    ("parent evolution candidate '" ++ draft.parentCandidateId.getD "" ++ "' does not exist")
  let row : EvolutionCandidateRow :=
    { draft with
      promptPatch := draft.promptPatch.text
      rationale := trim draft.rationale
      status := .draft }
  let candidates ← insertRow
    (fun c => c.id = row.id || (row.evidenceFingerprint.isSome && c.evidenceFingerprint = row.evidenceFingerprint))
    ("failed to insert evolution candidate '" ++ draft.id ++ "'") row s.candidates
  insertAuditEvent { s with candidates }
    { candidateId := some draft.id
      deploymentId := none
      eventType := "candidate_created"
      actor
      details := .json
        [("parent_candidate_id", .ofOption draft.parentCandidateId),
          ("evidence_fingerprint", .ofOption draft.evidenceFingerprint),
          ("source_trajectory_ids", .strings draft.sourceTrajectoryIds)] }

/-- `SET status = ?`. -/
def setStatus (status : EvolutionCandidateStatus) (c : EvolutionCandidateRow) : EvolutionCandidateRow :=
  { c with status }

/-- The transaction of `transition_candidate`. -/
def transitionCandidate (candidateId : String) (expected next : EvolutionCandidateStatus)
    (actor : String) (details : Value) : Except String (EvolutionStore R) := do
  validateEvolutionActor actor
  ensure (expected.canTransitionTo next)
    ("invalid evolution candidate transition '" ++ expected.asStr ++ " -> " ++ next.asStr ++ "'")
  let c ← context (s.candidate? candidateId)
    ("evolution candidate '" ++ candidateId ++ "' does not exist")
  ensure (c.status = expected)
    ("candidate '" ++ candidateId ++ "' expected status '" ++ expected.asStr ++ "' but is '"
      ++ c.status.asStr ++ "'")
  insertAuditEvent
    { s with
      candidates := updateWhere (fun c => c.id = candidateId ∧ c.status = expected) (setStatus next)
        s.candidates }
    { candidateId := some candidateId
      deploymentId := none
      eventType := next.transitionEventType
      actor
      details }

/-- The transaction of `upsert_eval_case`. -/
def upsertEvalCase [Host R] (evalCase : EvolutionEvalCase R) (actor : String) :
    Except String (EvolutionStore R) := do
  evalCase.validate
  validateEvolutionActor actor
  ensure (!evalCase.enabled
      || s.evalCases.countP (fun c => c.enabled && c.id ≠ evalCase.id) < maxEnabledEvolutionEvalCases)
    ("enabled eval cases cannot exceed " ++ toString maxEnabledEvolutionEvalCases)
  let evalCases :=
    if s.evalCases.any (fun c => c.id = evalCase.id) then
      updateWhere (fun c => c.id = evalCase.id) (fun _ => evalCase) s.evalCases
    else s.evalCases ++ [evalCase]
  insertAuditEvent { s with evalCases }
    { candidateId := none
      deploymentId := none
      eventType := "eval_case_upserted"
      actor
      details := .json [("eval_case_id", .string evalCase.id)] }

/-- The transaction of `record_evaluation`: the candidate's status is not looked at. -/
def recordEvaluation [Host R] (draft : EvolutionEvaluationDraft R) (now : Int) :
    Except String (EvolutionStore R) := do
  ensure (!isBlank draft.id && !isBlank draft.candidateId)
    "evaluation id and candidate id cannot be empty"
  draft.gateConfig.validate
  ensure (s.candidate? draft.candidateId).isSome
    ("evolution candidate '" ++ draft.candidateId ++ "' does not exist")
  ensure (draft.baselineCandidateId.all fun id => (s.candidate? id).isSome)
    "failed to record evolution evaluation"
  let evaluations ← insertRow (fun e => e.id = draft.id) "failed to record evolution evaluation"
    { draft with createdAt := now } s.evaluations
  insertAuditEvent { s with evaluations }
    { candidateId := some draft.candidateId
      deploymentId := none
      eventType := "evaluation_recorded"
      actor := "system:evolution-engine"
      details := .json
        [("evaluation_id", .string draft.id), ("decision", draft.decision.toValue)] }

/-- `upsert_eval_run`: one cursor a candidate. -/
def upsertEvalRun (run : EvolutionEvalRun R) : Except String (EvolutionStore R) := do
  ensure (!s.evalRuns.any fun r => r.id = run.id && r.candidateId ≠ run.candidateId)
    "failed to persist evolution eval run"
  return { s with evalRuns := s.evalRuns.filter (fun r => r.candidateId ≠ run.candidateId) ++ [run] }

/-- `clear_eval_run`. -/
def clearEvalRun (candidateId : String) : EvolutionStore R :=
  { s with evalRuns := s.evalRuns.filter fun r => r.candidateId ≠ candidateId }

/-- The transaction of `activate_candidate`. -/
def activateCandidate (candidateId actor reason deploymentId : String) (now : Int) :
    Except String (EvolutionDeploymentRecord × EvolutionStore R) := do
  validateEvolutionActor actor
  validateReason reason
  let c ← context (s.candidate? candidateId)
    ("evolution candidate '" ++ candidateId ++ "' does not exist")
  ensure (c.status = .approved)
    ("candidate '" ++ candidateId ++ "' must be approved before activation; current status is '"
      ++ c.status.asStr ++ "'")
  let latest ← context (s.latestEvaluation? candidateId) "approved candidate has no evaluation"
  ensure (latest.decision = .ready) "approved candidate latest evaluation is not ready"
  ensure (latest.baselineCandidateId = s.activeCandidateId?)
    ("candidate '" ++ candidateId
      ++ "' was evaluated against a stale baseline and must be re-evaluated and re-approved")
  let deployment : EvolutionDeploymentRecord :=
    { id := deploymentId
      candidateId
      previousDeploymentId := s.activeDeploymentId
      activatedBy := actor
      reason := trim reason
      activatedAt := now }
  let deployments ← insertRow (fun d => d.id = deploymentId) "failed to insert evolution deployment"
    deployment s.deployments
  let s' ← insertAuditEvent { s with deployments, activeDeploymentId := some deploymentId }
    { candidateId := some candidateId
      deploymentId := some deploymentId
      eventType := "candidate_activated"
      actor
      details := .json
        [("reason", .string (trim reason)), ("previous_deployment_id", .ofOption s.activeDeploymentId)] }
  return (deployment, s')

/-- The policy that a rollback restores. -/
def restoredPolicy : Option String → Except String (Option ActiveEvolutionPolicy)
  | none => .ok none
  | some previousId => do
    let policy ← s.policy? previousId
    some <$> context policy "previous evolution deployment is unavailable for rollback"

/-- `SET rolled_back_at = ?, rolled_back_by = ?, rollback_reason = ?`. -/
def markRolledBack (actor reason : String) (now : Int) (d : EvolutionDeploymentRecord) :
    EvolutionDeploymentRecord :=
  { d with rolledBackAt := some now, rolledBackBy := some actor, rollbackReason := some (trim reason) }

/-- The transaction of `rollback_active`. -/
def rollbackActive (actor reason : String) (now : Int) :
    Except String (EvolutionRollbackResult × EvolutionStore R) := do
  validateEvolutionActor actor
  validateReason reason
  let active ← context (s.activeDeploymentId.bind s.deployment?)
    "there is no active evolution deployment to roll back"
  ensure active.rolledBackAt.isNone
    ("active evolution deployment '" ++ active.id ++ "' is already rolled back")
  let restored ← s.restoredPolicy active.previousDeploymentId
  let s' ← insertAuditEvent
    { s with
      deployments := updateWhere (fun d => d.id = active.id ∧ d.rolledBackAt = none)
        (markRolledBack actor reason now) s.deployments
      activeDeploymentId := active.previousDeploymentId }
    { candidateId := some active.candidateId
      deploymentId := some active.id
      eventType := "deployment_rolled_back"
      actor
      details := .json
        [("reason", .string (trim reason)),
          ("restored_deployment_id", .ofOption active.previousDeploymentId)] }
  return (⟨active.id, active.candidateId, restored⟩, s')

end EvolutionStore

/-! ## Runs -/

/-- A transaction, with the clock and the fresh id that it uses. -/
inductive EvolutionTxn (R : Type)
  | createCandidate (draft : EvolutionCandidateDraft) (actor : String)
  | transitionCandidate (candidateId : String) (expected next : EvolutionCandidateStatus)
      (actor : String) (details : Value)
  | upsertEvalCase (evalCase : EvolutionEvalCase R) (actor : String)
  | recordEvaluation (draft : EvolutionEvaluationDraft R) (now : Int)
  | upsertEvalRun (run : EvolutionEvalRun R)
  | clearEvalRun (candidateId : String)
  | activateCandidate (candidateId actor reason deploymentId : String) (now : Int)
  | rollbackActive (actor reason : String) (now : Int)
  | recordAuditEvent (event : EvolutionAuditEvent)

/-- The transactions that move the active deployment. -/
def EvolutionTxn.isDeploying : EvolutionTxn R → Bool
  | .activateCandidate .. | .rollbackActive .. => true
  | _ => false

namespace EvolutionStore

def apply [Host R] (s : EvolutionStore R) : EvolutionTxn R → Except String (EvolutionStore R)
  | .createCandidate draft actor => s.createCandidate draft actor
  | .transitionCandidate candidateId expected next actor details =>
    s.transitionCandidate candidateId expected next actor details
  | .upsertEvalCase evalCase actor => s.upsertEvalCase evalCase actor
  | .recordEvaluation draft now => s.recordEvaluation draft now
  | .upsertEvalRun run => s.upsertEvalRun run
  | .clearEvalRun candidateId => .ok (s.clearEvalRun candidateId)
  | .activateCandidate candidateId actor reason deploymentId now =>
    Prod.snd <$> s.activateCandidate candidateId actor reason deploymentId now
  | .rollbackActive actor reason now => Prod.snd <$> s.rollbackActive actor reason now
  | .recordAuditEvent event => s.insertAuditEvent event

/-- One transaction; an error rolls it back. -/
def exec [Host R] (s : EvolutionStore R) (t : EvolutionTxn R) : EvolutionStore R :=
  match s.apply t with
  | .ok s' => s'
  | .error _ => s

theorem exec_of_ok [Host R] {s s' : EvolutionStore R} {t : EvolutionTxn R} (h : s.apply t = .ok s') :
    s.exec t = s' := by
  simp [exec, h]

theorem exec_keeps [Host R] {P : EvolutionStore R → Prop} {s : EvolutionStore R} {t : EvolutionTxn R}
    (h : P s) (ht : ∀ s', s.apply t = .ok s' → P s') : P (s.exec t) := by
  unfold exec
  split
  · exact ht _ ‹_›
  · exact h

end EvolutionStore

end Xiaomaolv
