import Xiaomaolv.Lib.Sequential
import Xiaomaolv.Loop.Commits
import Xiaomaolv.Loop.Extension
import Xiaomaolv.Loop.Gate
import Xiaomaolv.Loop.Json
import Xiaomaolv.Swarm.Delegation

/-!
# A swarm node that is tried again

An attempt of a node reserves its model calls, extends the workflow and publishes its report, each in a
transaction of its own, before its worker commits the outcome. It may stop between any two of them; the next
attempt starts over, on what the stopped ones have left.

* `SwarmWorld`: the store and the artifact registry; `SwarmWorld.publish`: `publish_artifact`.
* `Node.execute`: `execute_inner` as a program of transactions; `Node.outcome`: what it returns;
  `Node.outcome_executeInner`: that is what `executeInner` returns on what the node hears.
* `Node.leave`: the world after attempts that stopped; `Node.Left`: what they can have left.
* `Node.Transparent`: whatever the model replies, the next attempt returns what it would have without them,
  and a node with children returns that it has delegated.
* **`crash_retry_transparent`**: exactly if they have left no children, no report and enough of the budget.
* `crash_retry_lost`: a node that delegated answers itself, and a terminal node has no report.
-/

namespace Xiaomaolv

open Table LoopStore Interleave

/-! ## The artifact registry -/

/-- A row of `harness_artifacts`. -/
structure ArtifactRecord where
  id : String
  kind : String
  name : String
  version : String
  contentHash : String
  deriving DecidableEq

structure PublishArtifactRequest where
  kind : String
  name : String
  version : String
  content : Value
  sourceGoalId : Option String
  parentArtifactId : Option String

/-- The keys of an object. -/
def Fields.keys : Fields → List String
  | .nil => []
  | .cons k _ fs => k :: fs.keys

/-- An id under a label, if there is one. -/
def checkReference (label : String) : Option String → Except String Unit
  | none => .ok ()
  | some value => ensure (!isBlank value && byteLen value ≤ 160) (label ++ " must be 1..=160 bytes")

/-- What a reference to an evolution policy may contain. -/
def checkPromptPolicyRef : Value → Except String Unit
  | .object fields => do
    ensure (fields.keys.all fun key => key = "evolution_candidate_id" || key = "deployment_id")
      "prompt_policy_ref may only contain evolution lifecycle references"
    let candidateId := ((fields.find "evolution_candidate_id").bind Value.asStr).getD ""
    ensure (!isBlank candidateId && byteLen candidateId ≤ 160)
      "prompt_policy_ref requires evolution_candidate_id"
    match (fields.find "deployment_id").bind Value.asStr with
    | some deploymentId =>
      ensure (!isBlank deploymentId && byteLen deploymentId ≤ 160) "deployment_id must be 1..=160 bytes"
    | none => .ok ()
  | _ => .error "prompt_policy_ref content must be an object"

def PublishArtifactRequest.validate (request : PublishArtifactRequest) : Except String Unit := do
  ensure (!isBlank request.name && byteLen request.name ≤ 160) "artifact name must be 1..=160 bytes"
  ensure (!isBlank request.version && byteLen request.version ≤ 80) "artifact version must be 1..=80 bytes"
  ensure (request.content.jsonLen ≤ 32768) "artifact content cannot exceed 32768 bytes"
  checkReference "source goal id" request.sourceGoalId
  checkReference "parent artifact id" request.parentArtifactId
  if request.kind = "prompt_policy_ref" then checkPromptPolicyRef request.content else .ok ()

structure SwarmWorld where
  store : Store
  registry : List ArtifactRecord

namespace SwarmWorld

/-- `artifact_identity_query`. -/
def find? (w : SwarmWorld) (kind name version : String) : Option ArtifactRecord :=
  w.registry.find? fun a => a.kind = kind ∧ a.name = trim name ∧ a.version = trim version

/-- `publish_artifact`: the id of the artifact. A version that exists is the one published before, if its
content has the same digest. -/
def publish (digest : Value → String) (request : PublishArtifactRequest) (actor id : String) (w : SwarmWorld) :
    Except String (String × SwarmWorld) := do
  request.validate
  validateActor actor
  match request.sourceGoalId with
  | some goalId => ensure ((w.store.goals.filter fun g => g.id = goalId).length = 1) "source goal not found"
  | none => .ok ()
  match request.parentArtifactId with
  | some parentId => ensure ((w.registry.filter fun a => a.id = parentId).length = 1) "parent artifact not found"
  | none => .ok ()
  match w.find? request.kind request.name request.version with
  | some existing =>
    ensure (existing.contentHash = digest request.content) "artifact version already exists with different content"
    pure (existing.id, w)
  | none =>
    let store ← publishArtifact id request.kind w.store
    let row := ⟨id, request.kind, trim request.name, trim request.version, digest request.content⟩
    pure (id, { store, registry := w.registry ++ [row] })

end SwarmWorld

/-- Verification finds the artifacts of the registry. -/
def SwarmWorld.Registered (w : SwarmWorld) : Prop :=
  ∀ row ∈ w.registry, w.store.artifacts.find? (fun a => a.id = row.id) = some ⟨row.id, row.kind⟩

/-! ## The attempt as a program -/

/-- A transaction of an attempt. -/
inductive NodeCall where
  | reserve (now : Int)
  | extend (steps : List WorkflowStep)
  | publish (request : PublishArtifactRequest)

/-- What a transaction returns: the id of an artifact, or nothing. -/
abbrev NodeCall.Resp : NodeCall → Type
  | reserve _ => Unit
  | extend _ => Unit
  | publish _ => String

abbrev NodeProg := Prog NodeCall NodeCall.Resp

/-- A node as its attempts find it: its item, its input and the outcomes it depends on. -/
structure Node where
  goalId : String
  own : String
  input : SwarmNodeInput
  upstream : Upstream

/-- What an attempt does not choose: the clock at its model calls, and the ids of its rows. -/
structure Ambient where
  clock : ModelCall → Int
  workId : Nat → String
  artifactId : String

namespace Node

variable (cfg : AgentSwarmSettings) (node : Node)

/-- The request of `maybe_publish_terminal_artifact`. -/
def report (answer : String) : PublishArtifactRequest where
  kind := "analysis_report"
  name := "swarm-" ++ node.input.swarmRunId.getD "unknown"
  version := "1"
  content := .json
    [("swarm_run_id", .string (node.input.swarmRunId.getD "unknown")),
     ("answer", .string (truncateSwarmText answer 4096))]
  sourceGoalId := some node.goalId
  parentArtifactId := none

def isTerminal : Bool := node.input.swarmRoot || node.input.swarmTerminal

def isAggregate : Bool := node.input.mode = some "aggregate"

/-- The node may ask a planner: it is no aggregate and above the last depth. -/
def mayDelegate : Bool := !node.isAggregate && decide (node.input.depth < max cfg.maxDepth 1)

/-- A model call and its reservation; without the reservation it fails. -/
def ask {α : Type} (now : Int) (failure reply : α) : NodeProg α :=
  (Prog.perform (.reserve now)).attempt fun
    | .ok _ => pure reply
    | .error _ => pure failure

/-- `maybe_publish_terminal_artifact`. -/
def publishTerminal (outcome : WorkOutcome) : NodeProg WorkOutcome :=
  let answer := ((outcome.evidence.get "answer").bind Value.asStr).getD ""
  if !node.isTerminal || isBlank answer then pure outcome
  else
    (Prog.perform (NodeCall.publish (node.report answer)) : NodeProg String).attempt fun
      | .ok id => pure { outcome with artifactIds := outcome.artifactIds ++ [id] }
      | .error _ => pure outcome

variable (clock : ModelCall → Int) (replies : Replies)

/-- `answer_outcome`. -/
def answerLeg (directAnswer : Option String) : NodeProg WorkOutcome :=
  match directAnswer.filter fun answer => !isBlank answer with
  | some answer => node.publishTerminal (swarmNodeOutcome node.input answer "success")
  | none =>
    (ask (clock .answer) ModelReply.failure replies.answer).attempt fun
      | .ok (.text answer) => node.publishTerminal (swarmNodeOutcome node.input answer "success")
      | .ok .timeout => node.publishTerminal (swarmNodeOutcome node.input "" "timeout")
      | _ => node.publishTerminal (swarmNodeOutcome node.input "" "failed")

/-- The status of a merge. -/
def mergedStatus : String :=
  if node.upstream.any fun child => upstreamStatus child.2 = "failed" || upstreamStatus child.2 = "timeout"
    then "partial" else "success"

/-- `aggregate_outcome`. -/
def aggregateLeg : NodeProg WorkOutcome :=
  (ask (clock .merge) ModelReply.failure
      (replies.merge (node.upstream.map fun child => childJson child.1 child.2))).attempt fun
    | .ok (.text merged) => node.publishTerminal (swarmNodeOutcome node.input merged node.mergedStatus)
    | _ => node.publishTerminal (swarmNodeOutcome node.input (joinedAnswers node.upstream) node.mergedStatus)

/-- The delegation of `execute_inner`: a rejected extension is tried once more before the node answers itself. -/
def delegateLeg (children : List SwarmChildPlan) : NodeProg WorkOutcome :=
  let steps := delegationSteps node.own node.input (orDefault node.input.roleName "general") children
  let delegated := delegatedOutcome node.own node.input children.length
  (Prog.perform (.extend steps)).attempt fun
    | .ok _ => pure delegated
    | .error _ =>
      (Prog.perform (.extend steps)).attempt fun
        | .ok _ => pure delegated
        | .error _ => node.answerLeg clock replies none

/-- `execute_inner`. -/
def execute : NodeProg WorkOutcome :=
  if node.isAggregate then node.aggregateLeg clock replies
  else if max cfg.maxDepth 1 ≤ node.input.depth then node.answerLeg clock replies (some "")
  else
    (ask (clock .planner) PlannerReply.failure replies.planner).attempt fun
      | .ok .timeout => pure (swarmNodeOutcome node.input "" "timeout")
      | .ok (.answer text) => node.answerLeg clock replies (some text)
      | .ok (.delegate children) =>
        let children := (children.filter fun child => !isBlank child.task).take 4
        if children.isEmpty then node.answerLeg clock replies none
        else node.delegateLeg clock replies children
      | _ => node.answerLeg clock replies (some "")

/-! ## Runs -/

section Runs

variable (enc : Encoding) (digest : Value → String) (externalWrite : ExternalWritePolicy) (ambient : Ambient)

/-- A transaction: an error changes nothing. -/
def transact {α : Type} (w : SwarmWorld) : Except String (α × SwarmWorld) → Except String α × SwarmWorld
  | .ok (a, w') => (.ok a, w')
  | .error e => (.error e, w)

/-- A transaction of the loop store. -/
def onStore (w : SwarmWorld) (store : Except String Store) : Except String Unit × SwarmWorld :=
  transact w (store.map fun store => ((), { w with store }))

/-- What the engine does on a call. -/
def exec : (a : NodeCall) → SwarmWorld → Except String a.Resp × SwarmWorld
  | .reserve now, w => onStore w (reserveProviderCall node.goalId now w.store)
  | .extend steps, w =>
    onStore w (extendWorkflow enc node.goalId steps externalWrite "internal:swarm" ambient.workId w.store)
  | .publish request, w => transact w (w.publish digest request "internal:swarm" ambient.artifactId)

/-- An attempt that is not stopped: what the handler returns. -/
def outcome (replies : Replies) (w : SwarmWorld) : WorkOutcome :=
  match ((node.execute cfg ambient.clock replies).runs (node.exec enc digest externalWrite ambient) w).1 with
  | .ok outcome => outcome
  | .error _ => swarmNodeOutcome node.input "" "failed"

end Runs

end Node

/-- An attempt that stops after some of its transactions. -/
structure StoppedAttempt where
  ambient : Ambient
  replies : Replies
  calls : Nat

namespace Node

variable (enc : Encoding) (digest : Value → String) (externalWrite : ExternalWritePolicy) (cfg : AgentSwarmSettings)
  (node : Node)

/-- What an attempt leaves that stops. -/
def leave (w : SwarmWorld) (attempt : StoppedAttempt) : SwarmWorld :=
  (node.execute cfg attempt.ambient.clock attempt.replies).stopped
    (node.exec enc digest externalWrite attempt.ambient) attempt.calls w

/-- The goal counts an aggregate of the node: its children have been scheduled. -/
def HasChildren (w : SwarmWorld) : Prop :=
  ∃ item ∈ keptItems node.goalId w.store, item.stepId = aggregateStepId node.own

/-- The report of the run, if it has been published. -/
def report? (w : SwarmWorld) : Option ArtifactRecord :=
  w.find? "analysis_report" ("swarm-" ++ node.input.swarmRunId.getD "unknown") "1"

/-- The first model call of an attempt. -/
def firstCall : ModelCall :=
  if node.isAggregate then .merge else if max cfg.maxDepth 1 ≤ node.input.depth then .answer else .planner

/-- The budget grants a call. -/
def grants (now : Int) (w : SwarmWorld) : Bool := (reserveProviderCall node.goalId now w.store).isOk

variable (clock : ModelCall → Int)

/-- The world after a call has been asked for. -/
def charged (now : Int) (w : SwarmWorld) : SwarmWorld :=
  match reserveProviderCall node.goalId now w.store with
  | .ok store => { w with store }
  | .error _ => w

/-- The budget grants the call of an answer after a planner. -/
def grantsAnswer (w : SwarmWorld) : Bool := node.grants (clock .answer) (node.charged (clock .planner) w)

/-- The budget grants some call whose reply becomes the answer. -/
def isHeard (w : SwarmWorld) : Bool :=
  node.grants (clock (node.firstCall cfg)) w || (node.mayDelegate cfg && node.grantsAnswer clock w)

/-! ## What is compared -/

/-- The outcome says that the node has delegated. -/
def IsDelegated (outcome : WorkOutcome) : Prop := (outcome.evidence.get "delegated").bind Value.asBool = some true

/-- The same outcome, but for the ids of its artifacts. -/
def Same (o o' : WorkOutcome) : Prop :=
  { o with artifactIds := [] } = { o' with artifactIds := [] } ∧ (o.artifactIds = [] ↔ o'.artifactIds = [])

variable (ambient : Ambient)

/-- Whatever the model replies, the attempt on `w` returns what it would on `start`, and that it has delegated
if the node has children. -/
def Transparent (start w : SwarmWorld) : Prop :=
  ∀ replies,
    Same (node.outcome cfg enc digest externalWrite ambient replies w)
      (node.outcome cfg enc digest externalWrite ambient replies start) ∧
    (node.mayDelegate cfg = true → node.HasChildren w →
      IsDelegated (node.outcome cfg enc digest externalWrite ambient replies w))

/-- The report is as it was at the start; else no reply becomes the answer, and the aggregate falls back on
nothing, or on what has been published. -/
def ReportUnchanged (start w : SwarmWorld) : Prop :=
  node.report? w = node.report? start ∨
    (node.isHeard cfg ambient.clock w = false ∧
      (node.isAggregate = true → isBlank (joinedAnswers node.upstream) = true ∨
        ∃ row, node.report? w = some row ∧
          row.contentHash = digest (node.report (joinedAnswers node.upstream)).content))

/-- What stopped attempts must not have left: children, a report, or less of the budget than the calls need. -/
structure NothingLeft (start w : SwarmWorld) : Prop where
  firstCall : node.grants (ambient.clock (node.firstCall cfg)) w =
    node.grants (ambient.clock (node.firstCall cfg)) start
  answer : node.mayDelegate cfg = true →
    node.grantsAnswer ambient.clock w = node.grantsAnswer ambient.clock start
  childless : node.mayDelegate cfg = true → ¬ node.HasChildren w
  report : node.isTerminal = true → node.ReportUnchanged digest cfg ambient start w

/-! ## The outcome of an attempt -/

/-- What an attempt comes to. -/
inductive Verdict where
  | delegates (count : Nat)
  | answers (answer status : String)

/-- The answer to `answer_outcome` when the node has none of its own. -/
def asked (heard : Bool) : ModelReply → Verdict
  | .text answer => if heard then .answers answer "success" else .answers "" "failed"
  | .timeout => if heard then .answers "" "timeout" else .answers "" "failed"
  | .failure => .answers "" "failed"

/-- The merged answer. -/
def merged (heard : Bool) : ModelReply → String
  | .text text => if heard then text else joinedAnswers node.upstream
  | .timeout | .failure => joinedAnswers node.upstream

/-- What the planner's reply comes to, if the call for an answer is granted and the extension accepted or not. -/
def planned (answerHeard : Bool) (accepts : List SwarmChildPlan → Bool) (answer : ModelReply) :
    PlannerReply → Verdict
  | .timeout => .answers "" "timeout"
  | .answer text => if isBlank text then asked answerHeard answer else .answers text "success"
  | .delegate children =>
    let children := (children.filter fun child => !isBlank child.task).take 4
    if children.isEmpty then asked answerHeard answer
    else if accepts children then .delegates children.length else asked answerHeard answer
  | .unparsed | .failure => asked answerHeard answer

/-- `execute_inner`, from what the budget grants and what the store accepts. -/
def verdict (heard answerHeard : Bool) (accepts : List SwarmChildPlan → Bool) (replies : Replies) : Verdict :=
  match node.firstCall cfg with
  | .merge =>
    .answers (node.merged heard (replies.merge (node.upstream.map fun child => childJson child.1 child.2)))
      node.mergedStatus
  | .answer => asked heard replies.answer
  | .planner => planned answerHeard accepts replies.answer (if heard then replies.planner else .failure)

/-- The registry takes a report of the node, whatever its answer, unless there is another one. -/
def isPublishable (w : SwarmWorld) : Bool :=
  byteLen ("swarm-" ++ node.input.swarmRunId.getD "unknown") ≤ 160 &&
    (!isBlank node.goalId && byteLen node.goalId ≤ 160) &&
    (w.store.goals.filter fun g => g.id = node.goalId).length = 1

/-- The ids that `maybe_publish_terminal_artifact` adds. -/
def published (w : SwarmWorld) (answer : String) : List String :=
  if !node.isTerminal || isBlank answer then []
  else
    match w.publish digest (node.report answer) "internal:swarm" ambient.artifactId with
    | .ok (id, _) => [id]
    | .error _ => []

/-- The store accepts the delegation. -/
def accepts (w : SwarmWorld) (children : List SwarmChildPlan) : Bool :=
  (extendWorkflow enc node.goalId
    (delegationSteps node.own node.input (orDefault node.input.roleName "general") children) externalWrite
    "internal:swarm" ambient.workId w.store).isOk

/-- The outcome of a verdict. -/
def outcomeOf (w : SwarmWorld) : Verdict → WorkOutcome
  | .delegates count => delegatedOutcome node.own node.input count
  | .answers answer status =>
    { swarmNodeOutcome node.input answer status with artifactIds := node.published digest ambient w answer }

/-- What the node hears: a call that the budget does not grant fails. -/
def heard (clock : ModelCall → Int) (w : SwarmWorld) (replies : Replies) (published : Option String) : Replies where
  planner := if node.grants (clock (node.firstCall cfg)) w then replies.planner else .failure
  answer :=
    if (if node.mayDelegate cfg then node.grantsAnswer clock w else node.grants (clock (node.firstCall cfg)) w)
      then replies.answer else .failure
  merge := if node.grants (clock (node.firstCall cfg)) w then replies.merge else fun _ => .failure
  published

/-- The outcome of what the handler does. -/
def outcomeOfPlan (w : SwarmWorld) : NodePlan → WorkOutcome
  | .done outcome => outcome
  | .delegate steps delegated otherwise =>
    if (extendWorkflow enc node.goalId steps externalWrite "internal:swarm" ambient.workId w.store).isOk
      then delegated else otherwise

/-! ### Transactions -/

section Transactions

variable {enc digest externalWrite cfg node ambient} {w : SwarmWorld}

variable (node) in
theorem charged_eq (now : Int) (w : SwarmWorld) :
    ∃ budgets, node.charged now w = { w with store := { w.store with budgets } } := by
  unfold charged
  cases hres : reserveProviderCall node.goalId now w.store with
  | error e => exact ⟨w.store.budgets, rfl⟩
  | ok store =>
    unfold reserveProviderCall at hres
    simp only [bind_eq_ok, context_eq_ok, ensure_eq_ok, pure_eq_ok] at hres
    obtain ⟨_, -, budget, -, _, -, _, -, rfl⟩ := hres
    exact ⟨_, rfl⟩

variable (enc digest externalWrite node ambient) in
theorem exec_reserve (now : Int) (w : SwarmWorld) :
    (∃ e, node.grants now w = false ∧ node.exec enc digest externalWrite ambient (.reserve now) w =
      (.error e, node.charged now w)) ∨
    (node.grants now w = true ∧ node.exec enc digest externalWrite ambient (.reserve now) w =
      (.ok (), node.charged now w)) := by
  have hexec : node.exec enc digest externalWrite ambient (.reserve now) w =
    onStore w (reserveProviderCall node.goalId now w.store) := rfl
  rw [hexec]
  unfold grants charged
  cases reserveProviderCall node.goalId now w.store with
  | error e => exact .inl ⟨e, rfl, rfl⟩
  | ok store => exact .inr ⟨rfl, rfl⟩

theorem runs_ask {α : Type} (now : Int) (failure reply : α) (w : SwarmWorld) :
    (ask now failure reply).runs (node.exec enc digest externalWrite ambient) w =
      (.ok (if node.grants now w then reply else failure), node.charged now w) := by
  unfold ask
  rw [Prog.runs_attempt, Prog.runs_perform]
  rcases exec_reserve enc digest externalWrite node ambient now w with ⟨e, hg, he⟩ | ⟨hg, he⟩
  · rw [he, hg]
    rfl
  · rw [he, hg]
    rfl

theorem runs_publishTerminal (o : WorkOutcome) (w : SwarmWorld) :
    ((node.publishTerminal o).runs (node.exec enc digest externalWrite ambient) w).1 =
      .ok { o with artifactIds := o.artifactIds ++
        node.published digest ambient w (((o.evidence.get "answer").bind Value.asStr).getD "") } := by
  unfold publishTerminal published
  generalize ((o.evidence.get "answer").bind Value.asStr).getD "" = answer
  by_cases hskip : (!node.isTerminal || isBlank answer) = true
  · simp only [if_pos hskip, Prog.runs_pure, List.append_nil]
  · have hexec : node.exec enc digest externalWrite ambient (.publish (node.report answer)) w =
      transact w (w.publish digest (node.report answer) "internal:swarm" ambient.artifactId) := rfl
    simp only [if_neg hskip]
    rw [Prog.runs_attempt, Prog.runs_perform, hexec]
    cases w.publish digest (node.report answer) "internal:swarm" ambient.artifactId with
    | error e => simp only [transact, Prog.runs_pure, List.append_nil]
    | ok r => simp only [transact, Prog.runs_pure]

theorem runs_answers (answer status : String) (w : SwarmWorld) :
    ((node.publishTerminal (swarmNodeOutcome node.input answer status)).runs
      (node.exec enc digest externalWrite ambient) w).1 =
        .ok (node.outcomeOf digest ambient w (.answers answer status)) := by
  have hanswer : (((swarmNodeOutcome node.input answer status).evidence.get "answer").bind Value.asStr).getD "" =
      answer := rfl
  have hnone : (swarmNodeOutcome node.input answer status).artifactIds = [] := rfl
  rw [runs_publishTerminal, hanswer, hnone, List.nil_append, outcomeOf]

theorem runs_asked (clock : ModelCall → Int) (replies : Replies) {direct : Option String}
    (hdirect : direct.filter (fun answer => !isBlank answer) = none) (w : SwarmWorld) :
    ((node.answerLeg clock replies direct).runs (node.exec enc digest externalWrite ambient) w).1 =
      .ok (node.outcomeOf digest ambient (node.charged (clock .answer) w)
        (asked (node.grants (clock .answer) w) replies.answer)) := by
  unfold answerLeg asked
  simp only [hdirect]
  rw [Prog.runs_attempt, runs_ask]
  cases node.grants (clock .answer) w with
  | false => cases replies.answer <;> exact runs_answers _ _ _
  | true => cases replies.answer <;> exact runs_answers _ _ _

theorem jsonLen_report (hname : byteLen ("swarm-" ++ node.input.swarmRunId.getD "unknown") ≤ 160) (answer : String) :
    (node.report answer).content.jsonLen ≤ 32768 := by
  have hcut : charCount (truncateSwarmText answer 4096) ≤ 4110 := by
    unfold truncateSwarmText charCount
    simp only
    split_ifs
    · omega
    · have hmark : "...(truncated)".toList.length = 14 := by decide
      rw [String.toList_append, List.length_append, takeChars, String.toList_ofList, List.length_take, hmark]
      omega
  have hrun := charCount_le_byteLen (node.input.swarmRunId.getD "unknown")
  have hkeys : jsonStringLen "swarm_run_id" = 14 ∧ jsonStringLen "answer" = 8 := by decide
  have hrunLen := jsonStringLen_le (node.input.swarmRunId.getD "unknown")
  have hanswer := jsonStringLen_le (truncateSwarmText answer 4096)
  unfold byteLen at hname hrun
  rw [String.utf8ByteSize_append] at hname
  unfold report
  simp only [Value.jsonLen_json, List.map_cons, List.map_nil, List.sum_cons, List.sum_nil, Value.jsonLen_string]
  omega

theorem report_validate (answer : String) :
    (node.report answer).validate = .ok () ↔
      byteLen ("swarm-" ++ node.input.swarmRunId.getD "unknown") ≤ 160 ∧
        isBlank node.goalId = false ∧ byteLen node.goalId ≤ 160 := by
  have hblank : isBlank ("swarm-" ++ node.input.swarmRunId.getD "unknown") = false := by
    unfold isBlank
    rw [String.toList_append, List.all_append]
    exact Bool.and_eq_false_imp.mpr fun h => absurd h (by decide)
  have hversion : isBlank "1" = false ∧ byteLen "1" ≤ 80 := by decide
  have hkind : "analysis_report" ≠ "prompt_policy_ref" := by decide
  have hname : (node.report answer).name = "swarm-" ++ node.input.swarmRunId.getD "unknown" := rfl
  have hrest : (node.report answer).version = "1" ∧ (node.report answer).kind = "analysis_report" ∧
      (node.report answer).sourceGoalId = some node.goalId ∧ (node.report answer).parentArtifactId = none :=
    ⟨rfl, rfl, rfl, rfl⟩
  unfold PublishArtifactRequest.validate
  rw [hname, hrest.1, hrest.2.1, hrest.2.2.1, hrest.2.2.2, if_neg hkind]
  simp only [bind_eq_ok, checkReference, ensure_eq_ok, hblank, hversion, Bool.not_false,
    Bool.true_and, Bool.and_eq_true, Bool.not_eq_true', decide_eq_true_eq]
  constructor
  · rintro ⟨_, hlen, _, -, _, -, _, hgoal, -⟩
    exact ⟨hlen, hgoal⟩
  · rintro ⟨hlen, hgoal⟩
    exact ⟨(), hlen, (), trivial, (), jsonLen_report hlen answer, (), hgoal, (), trivial, trivial⟩

/-- What the publication of a report comes to. -/
theorem publish_report {answer : String} {r : String × SwarmWorld} :
    w.publish digest (node.report answer) "internal:swarm" ambient.artifactId = .ok r ↔
      node.isPublishable w = true ∧
        ((∃ row, node.report? w = some row ∧ row.contentHash = digest (node.report answer).content ∧
            r = (row.id, w)) ∨
          (node.report? w = none ∧ ∃ store, publishArtifact ambient.artifactId "analysis_report" w.store = .ok store ∧
            r = (ambient.artifactId, { store, registry := w.registry ++ [⟨ambient.artifactId, "analysis_report",
              trim (node.report answer).name, "1", digest (node.report answer).content⟩] }))) := by
  have hactor : validateActor "internal:swarm" = .ok () := by decide
  have hversion : trim (node.report answer).version = "1" := by
    have hone : trim "1" = "1" := by decide
    exact hone
  have hfind : w.find? (node.report answer).kind (node.report answer).name (node.report answer).version =
    node.report? w := rfl
  have hsource : (node.report answer).sourceGoalId = some node.goalId := rfl
  have hparent : (node.report answer).parentArtifactId = none := rfl
  have hkind : (node.report answer).kind = "analysis_report" := rfl
  have hvalid : node.isPublishable w = true ↔ (node.report answer).validate = .ok () ∧
      (w.store.goals.filter fun g => g.id = node.goalId).length = 1 := by
    rw [report_validate, isPublishable]
    simp [and_assoc]
  unfold SwarmWorld.publish
  rw [hfind]
  simp only [hsource, hparent, hactor, hversion, hkind, hvalid, bind_eq_ok, ensure_eq_ok, decide_eq_true_eq]
  constructor
  · rintro ⟨_, hvalid, _, -, _, hgoal, _, -, h⟩
    refine ⟨⟨hvalid, hgoal⟩, ?_⟩
    cases hreport : node.report? w with
    | some row =>
      simp only [hreport, bind_eq_ok, ensure_eq_ok, decide_eq_true_eq, pure_eq_ok] at h
      obtain ⟨_, hsame, rfl⟩ := h
      exact .inl ⟨row, rfl, hsame, rfl⟩
    | none =>
      simp only [hreport, bind_eq_ok, pure_eq_ok] at h
      obtain ⟨store, hstore, rfl⟩ := h
      exact .inr ⟨rfl, store, hstore, rfl⟩
  · rintro ⟨⟨hvalid, hgoal⟩, h⟩
    refine ⟨(), hvalid, (), trivial, (), hgoal, (), trivial, ?_⟩
    rcases h with ⟨row, hreport, hsame, rfl⟩ | ⟨hreport, store, hstore, rfl⟩
    · simp only [hreport, bind_eq_ok, ensure_eq_ok, decide_eq_true_eq, pure_eq_ok]
      exact ⟨(), hsame, trivial⟩
    · simp only [hreport, bind_eq_ok, pure_eq_ok]
      exact ⟨store, hstore, rfl⟩

theorem publishes_iff {answer id : String} :
    (∃ w', w.publish digest (node.report answer) "internal:swarm" ambient.artifactId = .ok (id, w')) ↔
      node.isPublishable w = true ∧
        ((∃ row, node.report? w = some row ∧ row.contentHash = digest (node.report answer).content ∧ id = row.id) ∨
          (node.report? w = none ∧ (∀ a ∈ w.store.artifacts, a.id ≠ ambient.artifactId) ∧ id = ambient.artifactId)) := by
  have hinsert : (∃ store, publishArtifact ambient.artifactId "analysis_report" w.store = .ok store) ↔
      ∀ a ∈ w.store.artifacts, a.id ≠ ambient.artifactId := by
    unfold publishArtifact
    simp only [bind_eq_ok, insertRow_eq_ok, pure_eq_ok, decide_eq_false_iff_not]
    constructor
    · rintro ⟨_, _, h, -⟩
      exact h.1
    · exact fun h => ⟨_, _, ⟨h, rfl⟩, rfl⟩
  constructor
  · rintro ⟨w', h⟩
    obtain ⟨hpublishable, ⟨row, hrow, hsame, he⟩ | ⟨hnone, store, hstore, he⟩⟩ := publish_report.mp h
    · exact ⟨hpublishable, .inl ⟨row, hrow, hsame, congrArg Prod.fst he⟩⟩
    · exact ⟨hpublishable, .inr ⟨hnone, hinsert.mp ⟨store, hstore⟩, congrArg Prod.fst he⟩⟩
  · rintro ⟨hpublishable, ⟨row, hrow, hsame, rfl⟩ | ⟨hnone, hfresh, rfl⟩⟩
    · exact ⟨w, publish_report.mpr ⟨hpublishable, .inl ⟨row, hrow, hsame, rfl⟩⟩⟩
    · obtain ⟨store, hstore⟩ := hinsert.mpr hfresh
      exact ⟨_, publish_report.mpr ⟨hpublishable, .inr ⟨hnone, store, hstore, rfl⟩⟩⟩

theorem mem_published {answer id : String} :
    id ∈ node.published digest ambient w answer ↔ node.isTerminal = true ∧ isBlank answer = false ∧
      ∃ w', w.publish digest (node.report answer) "internal:swarm" ambient.artifactId = .ok (id, w') := by
  unfold published
  cases node.isTerminal <;> cases isBlank answer <;>
    simp only [Bool.not_true, Bool.not_false, Bool.or_false, Bool.or_true, if_true, if_false, List.not_mem_nil,
      Bool.false_eq_true, false_and, true_and, and_false, reduceCtorEq]
  cases w.publish digest (node.report answer) "internal:swarm" ambient.artifactId with
  | error e => simp
  | ok r => simp [Prod.ext_iff, eq_comm]

theorem published_eq_nil_iff {answer : String} : node.published digest ambient w answer = [] ↔
    ¬ (node.isTerminal = true ∧ isBlank answer = false ∧ node.isPublishable w = true ∧
      ((∃ row, node.report? w = some row ∧ row.contentHash = digest (node.report answer).content) ∨
        (node.report? w = none ∧ ∀ a ∈ w.store.artifacts, a.id ≠ ambient.artifactId))) := by
  rw [List.eq_nil_iff_forall_not_mem]
  simp only [mem_published, publishes_iff]
  constructor
  · rintro h ⟨hterminal, hblank, hpublishable, ⟨row, hrow, hsame⟩ | ⟨hnone, hfresh⟩⟩
    · exact h row.id ⟨hterminal, hblank, hpublishable, .inl ⟨row, hrow, hsame, rfl⟩⟩
    · exact h ambient.artifactId ⟨hterminal, hblank, hpublishable, .inr ⟨hnone, hfresh, rfl⟩⟩
  · rintro h id ⟨hterminal, hblank, hpublishable, ⟨row, hrow, hsame, -⟩ | ⟨hnone, hfresh, -⟩⟩
    · exact h ⟨hterminal, hblank, hpublishable, .inl ⟨row, hrow, hsame⟩⟩
    · exact h ⟨hterminal, hblank, hpublishable, .inr ⟨hnone, hfresh⟩⟩

theorem published_eq_nil_congr {w' : SwarmWorld} (hgoals : w.store.goals = w'.store.goals)
    (hartifacts : w.store.artifacts = w'.store.artifacts) (hreport : node.report? w = node.report? w')
    (answer : String) :
    node.published digest ambient w answer = [] ↔ node.published digest ambient w' answer = [] := by
  have hpublishable : node.isPublishable w = node.isPublishable w' := by
    unfold isPublishable
    rw [hgoals]
  rw [published_eq_nil_iff, published_eq_nil_iff, hpublishable, hreport, hartifacts]

variable (node) in
theorem charged_store (now : Int) (w : SwarmWorld) :
    (node.charged now w).store.goals = w.store.goals ∧ (node.charged now w).store.artifacts = w.store.artifacts ∧
      node.report? (node.charged now w) = node.report? w := by
  obtain ⟨budgets, he⟩ := charged_eq node now w
  rw [he]
  exact ⟨rfl, rfl, rfl⟩

/-! ### Extensions -/

theorem isOk_bind_congr {α β γ : Type} (x : Except String α) {f : α → Except String β} {g : α → Except String γ}
    (h : ∀ a, (f a).isOk = (g a).isOk) : (x >>= f).isOk = (x >>= g).isOk := by
  cases x with
  | error e => rfl
  | ok a => exact h a

theorem extendWorkflow_isOk (s : Store) (budgets : List BudgetUsageRow) (artifacts : List ArtifactRow)
    (goalId : String) (steps : List WorkflowStep) (actor : String) (workId : Nat → String) :
    (extendWorkflow enc goalId steps externalWrite actor workId { s with budgets, artifacts }).isOk =
      (extendWorkflow enc goalId steps externalWrite actor workId s).isOk := by
  unfold extendWorkflow
  refine isOk_bind_congr _ fun _ => isOk_bind_congr _ fun _ => isOk_bind_congr _ fun _ => isOk_bind_congr _ fun _ => ?_
  refine isOk_bind_congr _ fun _ => isOk_bind_congr _ fun _ => isOk_bind_congr _ fun _ => isOk_bind_congr _ fun _ => ?_
  refine isOk_bind_congr _ fun _ => isOk_bind_congr _ fun _ => isOk_bind_congr _ fun _ => isOk_bind_congr _ fun _ => ?_
  refine isOk_bind_congr _ fun _ => isOk_bind_congr _ fun _ => isOk_bind_congr _ fun _ => isOk_bind_congr _ fun _ => ?_
  rfl

theorem accepts_charged (now : Int) (w : SwarmWorld) :
    node.accepts enc externalWrite ambient (node.charged now w) = node.accepts enc externalWrite ambient w := by
  obtain ⟨budgets, he⟩ := charged_eq node now w
  rw [he]
  exact funext fun children => extendWorkflow_isOk w.store budgets w.store.artifacts ..

variable (node) in
theorem aggregate_mem (roleName : String) (children : List SwarmChildPlan) :
    aggregateStep node.own node.input roleName children.length ∈
      delegationSteps node.own node.input roleName children :=
  List.mem_append_right _ (List.mem_singleton.mpr rfl)

theorem hasChildren_extended {roleName : String} {children : List SwarmChildPlan} {workId : Nat → String}
    {actor : String} {store : Store} (h : extendWorkflow enc node.goalId
      (delegationSteps node.own node.input roleName children) externalWrite actor workId w.store = .ok store) :
    node.HasChildren { w with store } := by
  obtain ⟨goal, plan, -, -, -, -, hitems⟩ := extendWorkflow_items h
  obtain ⟨i, hi⟩ := List.getElem?_of_mem (aggregate_mem node roleName children)
  have hnew : extendedItem node.goalId plan.id workId (nextOrdinal node.goalId w.store) (0 + i)
      (aggregateStep node.own node.input roleName children.length) ∈ store.workItems := by
    rw [hitems]
    exact List.mem_append_right _ (mem_newItems.mpr ⟨i, _, hi, rfl⟩)
  refine ⟨_, mem_keptItems.mpr ⟨hnew, rfl, ?_⟩, rfl⟩
  unfold extendedItem
  simp only
  split_ifs <;> simp

variable (enc externalWrite ambient) in
theorem accepts_hasChildren (h : node.HasChildren w) (children : List SwarmChildPlan) :
    node.accepts enc externalWrite ambient w children = false := by
  obtain ⟨item, hitem, hstep⟩ := h
  rw [← Bool.not_eq_true]
  intro hok
  unfold accepts at hok
  cases hext : extendWorkflow enc node.goalId
      (delegationSteps node.own node.input (orDefault node.input.roleName "general") children) externalWrite
      "internal:swarm" ambient.workId w.store with
  | error e =>
    rw [hext] at hok
    cases hok
  | ok store =>
    obtain ⟨goal, plan, -, -, -, -, -, -, -, -, hcheck, -⟩ := extendWorkflow_ok hext
    refine checkExtension_fresh hcheck _ (aggregate_mem node _ children) ?_
    exact List.mem_map.mpr ⟨item, hitem, hstep⟩

/-! ### Runs -/

theorem Same.refl (o : WorkOutcome) : Same o o := ⟨rfl, Iff.rfl⟩

theorem Same.symm {o o' : WorkOutcome} (h : Same o o') : Same o' o := ⟨h.1.symm, h.2.symm⟩

theorem Same.trans {o o' o'' : WorkOutcome} (h : Same o o') (h' : Same o' o'') : Same o o'' :=
  ⟨h.1.trans h'.1, h.2.trans h'.2⟩

theorem outcomeOf_same {w' : SwarmWorld} (hgoals : w.store.goals = w'.store.goals)
    (hartifacts : w.store.artifacts = w'.store.artifacts) (hreport : node.report? w = node.report? w')
    (v : Verdict) : Same (node.outcomeOf digest ambient w v) (node.outcomeOf digest ambient w' v) := by
  cases v with
  | delegates count => exact Same.refl _
  | answers answer status => exact ⟨rfl, published_eq_nil_congr hgoals hartifacts hreport answer⟩

variable (digest node ambient) in
theorem outcomeOf_charged (now : Int) (w : SwarmWorld) (v : Verdict) :
    Same (node.outcomeOf digest ambient (node.charged now w) v) (node.outcomeOf digest ambient w v) := by
  obtain ⟨hgoals, hartifacts, hreport⟩ := charged_store node now w
  exact outcomeOf_same hgoals hartifacts hreport v

theorem outcomeOf_silent (status : String) (w : SwarmWorld) :
    node.outcomeOf digest ambient w (.answers "" status) = swarmNodeOutcome node.input "" status := by
  have hnone : node.published digest ambient w "" = [] :=
    published_eq_nil_iff.mpr fun h => absurd h.2.1 (by decide)
  change { swarmNodeOutcome node.input "" status with artifactIds := node.published digest ambient w "" } = _
  rw [hnone]
  rfl

variable (enc digest externalWrite node ambient) in
theorem runs_delegateLeg (clock : ModelCall → Int) (replies : Replies) (children : List SwarmChildPlan)
    (w : SwarmWorld) :
    ∃ w', (w' = w ∨ w' = node.charged (clock .answer) w) ∧
      ((node.delegateLeg clock replies children).runs (node.exec enc digest externalWrite ambient) w).1 =
        .ok (node.outcomeOf digest ambient w'
          (if node.accepts enc externalWrite ambient w children then .delegates children.length
            else asked (node.grants (clock .answer) w) replies.answer)) := by
  unfold delegateLeg accepts
  simp only
  have hexec : ∀ steps, node.exec enc digest externalWrite ambient (.extend steps) w =
    onStore w (extendWorkflow enc node.goalId steps externalWrite "internal:swarm" ambient.workId w.store) :=
    fun _ => rfl
  rw [Prog.runs_attempt, Prog.runs_perform, hexec]
  cases hext : extendWorkflow enc node.goalId
      (delegationSteps node.own node.input (orDefault node.input.roleName "general") children) externalWrite
      "internal:swarm" ambient.workId w.store with
  | ok store => exact ⟨w, .inl rfl, rfl⟩
  | error e =>
    refine ⟨_, .inr rfl, ?_⟩
    simp only [onStore, transact, Except.map]
    rw [Prog.runs_attempt, Prog.runs_perform, hexec, hext]
    exact runs_asked clock replies rfl w

variable (enc digest externalWrite ambient) in
/-- The attempt of a node that asks a planner. -/
theorem runs_planner (clock : ModelCall → Int) (replies : Replies) (hplanner : node.firstCall cfg = .planner)
    (w : SwarmWorld) :
    ∃ o, ((node.execute cfg clock replies).runs (node.exec enc digest externalWrite ambient) w).1 = .ok o ∧
      Same o (node.outcomeOf digest ambient w (planned (node.grantsAnswer clock w)
        (node.accepts enc externalWrite ambient w) replies.answer
        (if node.grants (clock .planner) w then replies.planner else .failure))) := by
  have hkind : node.isAggregate = false ∧ ¬ max cfg.maxDepth 1 ≤ node.input.depth := by
    unfold firstCall at hplanner
    split_ifs at hplanner with hagg hdepth
    exact ⟨by simpa using hagg, hdepth⟩
  have hcharged := outcomeOf_charged digest node ambient
  have hasked : ∀ direct : Option String, direct.filter (fun answer => !isBlank answer) = none →
      ∃ o, ((node.answerLeg clock replies direct).runs (node.exec enc digest externalWrite ambient)
        (node.charged (clock .planner) w)).1 = .ok o ∧
          Same o (node.outcomeOf digest ambient w (asked (node.grantsAnswer clock w) replies.answer)) :=
    fun direct hdirect => ⟨_, runs_asked clock replies hdirect _, (hcharged _ _ _).trans (hcharged _ _ _)⟩
  unfold execute
  rw [if_neg (by rw [hkind.1]; exact Bool.false_ne_true), if_neg hkind.2, Prog.runs_attempt, runs_ask]
  cases hreply : (if node.grants (clock .planner) w then replies.planner else .failure) with
  | timeout =>
    refine ⟨_, rfl, ?_⟩
    unfold planned
    rw [outcomeOf_silent]
    exact Same.refl _
  | failure => exact hasked (some "") rfl
  | unparsed => exact hasked (some "") rfl
  | answer text =>
    by_cases hblank : isBlank text = true
    · have hplanned : planned (node.grantsAnswer clock w) (node.accepts enc externalWrite ambient w) replies.answer
          (.answer text) = asked (node.grantsAnswer clock w) replies.answer := if_pos hblank
      rw [hplanned]
      exact hasked (some text) (by simp [Option.filter, hblank])
    · have hplanned : planned (node.grantsAnswer clock w) (node.accepts enc externalWrite ambient w) replies.answer
          (.answer text) = .answers text "success" := if_neg hblank
      have hdirect : (some text).filter (fun answer => !isBlank answer) = some text := by simp [Option.filter, hblank]
      rw [hplanned]
      refine ⟨_, ?_, hcharged (clock .planner) w _⟩
      simp only [answerLeg, hdirect]
      exact runs_answers text "success" _
  | delegate children =>
    simp only [planned]
    generalize (children.filter fun child => !isBlank child.task).take 4 = scheduled
    by_cases hnone : scheduled.isEmpty = true
    · simp only [if_pos hnone]
      exact hasked none rfl
    · simp only [if_neg hnone]
      obtain ⟨w', hw', hruns⟩ := runs_delegateLeg enc digest externalWrite node ambient clock
        replies scheduled (node.charged (clock .planner) w)
      rw [accepts_charged] at hruns
      refine ⟨_, hruns, ?_⟩
      rcases hw' with rfl | rfl
      · exact hcharged _ _ _
      · exact (hcharged _ _ _).trans (hcharged _ _ _)

theorem runs_last (clock : ModelCall → Int) (replies : Replies) (hanswer : node.firstCall cfg = .answer)
    (w : SwarmWorld) :
    ((node.execute cfg clock replies).runs (node.exec enc digest externalWrite ambient) w).1 =
      .ok (node.outcomeOf digest ambient (node.charged (clock .answer) w)
        (asked (node.grants (clock .answer) w) replies.answer)) := by
  have hkind : node.isAggregate = false ∧ max cfg.maxDepth 1 ≤ node.input.depth := by
    unfold firstCall at hanswer
    split_ifs at hanswer with hagg hdepth
    exact ⟨by simpa using hagg, hdepth⟩
  unfold execute
  rw [if_neg (by rw [hkind.1]; exact Bool.false_ne_true), if_pos hkind.2]
  exact runs_asked clock replies rfl w

theorem runs_merge (clock : ModelCall → Int) (replies : Replies) (hmerge : node.firstCall cfg = .merge)
    (w : SwarmWorld) :
    ((node.execute cfg clock replies).runs (node.exec enc digest externalWrite ambient) w).1 =
      .ok (node.outcomeOf digest ambient (node.charged (clock .merge) w)
        (.answers (node.merged (node.grants (clock .merge) w)
          (replies.merge (node.upstream.map fun child => childJson child.1 child.2))) node.mergedStatus)) := by
  have hagg : node.isAggregate = true := by
    unfold firstCall at hmerge
    split_ifs at hmerge with hagg
    exact hagg
  unfold execute aggregateLeg
  rw [if_pos hagg, Prog.runs_attempt, runs_ask]
  generalize replies.merge (node.upstream.map fun child => childJson child.1 child.2) = reply
  cases node.grants (clock .merge) w with
  | false => cases reply <;> exact runs_answers _ _ _
  | true => cases reply <;> exact runs_answers _ _ _

variable (enc digest externalWrite cfg node ambient) in
theorem outcome_same (replies : Replies) (w : SwarmWorld) :
    Same (node.outcome cfg enc digest externalWrite ambient replies w)
      (node.outcomeOf digest ambient w (node.verdict cfg (node.grants (ambient.clock (node.firstCall cfg)) w)
        (node.grantsAnswer ambient.clock w) (node.accepts enc externalWrite ambient w) replies)) := by
  have hresult : ∀ {o : WorkOutcome}, ((node.execute cfg ambient.clock replies).runs
      (node.exec enc digest externalWrite ambient) w).1 = .ok o →
        node.outcome cfg enc digest externalWrite ambient replies w = o := by
    intro o ho
    unfold outcome
    rw [ho]
  unfold verdict
  cases hfirst : node.firstCall cfg with
  | planner =>
    obtain ⟨o, ho, hsame⟩ := runs_planner enc digest externalWrite ambient ambient.clock replies hfirst w
    rw [hresult ho]
    exact hsame
  | answer =>
    rw [hresult (runs_last ambient.clock replies hfirst w)]
    exact outcomeOf_charged ..
  | merge =>
    rw [hresult (runs_merge ambient.clock replies hfirst w)]
    exact outcomeOf_charged ..

theorem asked_answers (heard : Bool) (reply : ModelReply) : ∃ answer status, asked heard reply = .answers answer status := by
  cases reply <;> cases heard <;> exact ⟨_, _, rfl⟩

/-- Verification finds what a node has published. -/
theorem publish_named {answer id : String} {w' : SwarmWorld} (hw : w.Registered)
    (h : w.publish digest (node.report answer) "internal:swarm" ambient.artifactId = .ok (id, w')) :
    w'.Registered ∧
      ∀ outcome : WorkOutcome, id ∈ outcome.artifactIds →
        namesArtifact w'.store "analysis_report" outcome = true := by
  have hnames : ∀ {w : SwarmWorld}, w.store.artifacts.find? (fun a => a.id = id) = some ⟨id, "analysis_report"⟩ →
      ∀ outcome : WorkOutcome, id ∈ outcome.artifactIds →
        namesArtifact w.store "analysis_report" outcome = true := by
    intro w hfind outcome hid
    refine List.any_eq_true.mpr ⟨id, hid, ?_⟩
    rw [hfind]
    rfl
  obtain ⟨-, ⟨row, hrow, -, he⟩ | ⟨-, store, hstore, he⟩⟩ := publish_report.mp h
  · cases he
    have hkind : row.kind = "analysis_report" := by
      have hkey := List.find?_some hrow
      simp only [decide_eq_true_eq] at hkey
      exact hkey.1
    refine ⟨hw, hnames ?_⟩
    rw [hw row (List.mem_of_find?_eq_some hrow), hkind]
  · cases he
    unfold publishArtifact at hstore
    simp only [bind_eq_ok, insertRow_eq_ok, pure_eq_ok, decide_eq_false_iff_not] at hstore
    obtain ⟨_, ⟨hfresh, rfl⟩, rfl⟩ := hstore
    have hnew : (w.store.artifacts ++ [(⟨ambient.artifactId, "analysis_report"⟩ : ArtifactRow)]).find?
        (fun a => a.id = ambient.artifactId) = some ⟨ambient.artifactId, "analysis_report"⟩ := by
      rw [List.find?_append, List.find?_eq_none.mpr fun a ha => by simpa using hfresh a ha, Option.none_or]
      exact List.find?_cons_of_pos (by simp)
    refine ⟨fun row hrow => ?_, hnames hnew⟩
    rcases List.mem_append.mp hrow with hold | hnewRow
    · have hfind := hw row hold
      simp only [List.find?_append, hfind, Option.some_or]
    · cases List.mem_singleton.mp hnewRow
      exact hnew

theorem published_toList (answer : String) :
    (node.published digest ambient w answer).head?.toList = node.published digest ambient w answer := by
  unfold published
  split_ifs
  · rfl
  · cases w.publish digest (node.report answer) "internal:swarm" ambient.artifactId <;> rfl

theorem outcomeOf_answers {answer : String} {replies : Replies}
    (hpublished : replies.published = (node.published digest ambient w answer).head?) (status : String) :
    maybePublishTerminalArtifact node.input replies (swarmNodeOutcome node.input answer status) =
      node.outcomeOf digest ambient w (.answers answer status) := by
  have hanswer : (((swarmNodeOutcome node.input answer status).evidence.get "answer").bind Value.asStr).getD "" =
      answer := rfl
  have hnone : (swarmNodeOutcome node.input answer status).artifactIds = [] := rfl
  have hverdict : node.outcomeOf digest ambient w (.answers answer status) =
    { swarmNodeOutcome node.input answer status with artifactIds := node.published digest ambient w answer } := rfl
  unfold maybePublishTerminalArtifact
  simp only [hanswer, hnone, List.nil_append, hpublished, published_toList, hverdict]
  by_cases hskip : (!(node.input.swarmRoot || node.input.swarmTerminal) || isBlank answer) = true
  · have hempty : node.published digest ambient w answer = [] := by
      unfold published isTerminal
      rw [if_pos hskip]
    rw [if_pos hskip, hempty, ← hnone]
  · rw [if_neg hskip]

/-- An answer that is asked for. -/
theorem answerOutcome_asked {direct : Option String} (hdirect : direct.filter (fun answer => !isBlank answer) = none)
    (answerHeard : Bool) (reply : ModelReply) (planner : PlannerReply) (merge : List Value → ModelReply) :
    ∃ published, answerOutcome node.input
        { planner, answer := if answerHeard then reply else .failure, merge, published } direct =
      node.outcomeOf digest ambient w (asked answerHeard reply) := by
  have hsays : ∀ {answer status : String} {replies : Replies},
      replies.published = (node.published digest ambient w answer).head? →
      answerOutcome node.input replies direct =
        maybePublishTerminalArtifact node.input replies (swarmNodeOutcome node.input answer status) →
      answerOutcome node.input replies direct = node.outcomeOf digest ambient w (.answers answer status) :=
    fun hpublished h => h.trans (outcomeOf_answers hpublished _)
  have hfailed : ∃ published, answerOutcome node.input { planner, answer := .failure, merge, published } direct =
      node.outcomeOf digest ambient w (.answers "" "failed") := by
    refine ⟨(node.published digest ambient w "").head?, hsays rfl ?_⟩
    unfold answerOutcome
    rw [hdirect]
  cases answerHeard with
  | false => cases reply <;> exact hfailed
  | true =>
    cases reply with
    | text answer =>
      refine ⟨(node.published digest ambient w answer).head?, hsays rfl ?_⟩
      unfold answerOutcome
      rw [hdirect]
      rfl
    | timeout =>
      refine ⟨(node.published digest ambient w "").head?, hsays rfl ?_⟩
      unfold answerOutcome
      rw [hdirect]
      rfl
    | failure => exact hfailed

theorem mayDelegate_iff : node.mayDelegate cfg = true ↔ node.firstCall cfg = .planner := by
  unfold mayDelegate firstCall
  cases hagg : node.isAggregate with
  | true => simp
  | false =>
    by_cases hdepth : max cfg.maxDepth 1 ≤ node.input.depth
    · simp only [Bool.not_false, Bool.true_and, decide_eq_true_eq, Bool.false_eq_true, if_false, if_pos hdepth]
      exact iff_of_false (Nat.not_lt.mpr hdepth) (by decide)
    · simp only [Bool.not_false, Bool.true_and, decide_eq_true_eq, Bool.false_eq_true, if_false, if_neg hdepth]
      exact iff_of_true (Nat.lt_of_not_le hdepth) trivial

/-- A merged answer. -/
theorem aggregateOutcome_merged (heard : Bool) (merge : List Value → ModelReply) (planner : PlannerReply)
    (answer : ModelReply) :
    ∃ published, aggregateOutcome node.input
        { planner, answer, merge := if heard then merge else fun _ => .failure, published } node.upstream =
      node.outcomeOf digest ambient w (.answers (node.merged heard
        (merge (node.upstream.map fun child => childJson child.1 child.2))) node.mergedStatus) := by
  have hsays : ∀ {text : String} {replies : Replies},
      replies.published = (node.published digest ambient w text).head? →
      aggregateOutcome node.input replies node.upstream =
        maybePublishTerminalArtifact node.input replies (swarmNodeOutcome node.input text node.mergedStatus) →
      aggregateOutcome node.input replies node.upstream =
        node.outcomeOf digest ambient w (.answers text node.mergedStatus) :=
    fun hpublished h => h.trans (outcomeOf_answers hpublished _)
  have hjoined : ∀ {reply : List Value → ModelReply} {published : Option String},
      published = (node.published digest ambient w (joinedAnswers node.upstream)).head? →
      (reply (node.upstream.map fun child => childJson child.1 child.2) = .timeout ∨
        reply (node.upstream.map fun child => childJson child.1 child.2) = .failure) →
      aggregateOutcome node.input { planner, answer, merge := reply, published } node.upstream =
        node.outcomeOf digest ambient w (.answers (joinedAnswers node.upstream) node.mergedStatus) := by
    intro reply published hpublished h
    refine hsays hpublished ?_
    unfold aggregateOutcome mergedStatus
    rcases h with h | h <;> simp only [h]
  cases heard with
  | false =>
    have hmerged : node.merged false (merge (node.upstream.map fun child => childJson child.1 child.2)) =
        joinedAnswers node.upstream := by
      cases merge (node.upstream.map fun child => childJson child.1 child.2) <;> simp [merged]
    rw [hmerged]
    exact ⟨_, hjoined rfl (.inr rfl)⟩
  | true =>
    cases hreply : merge (node.upstream.map fun child => childJson child.1 child.2) with
    | timeout =>
      simp only [merged]
      exact ⟨_, hjoined rfl (.inl hreply)⟩
    | failure =>
      simp only [merged]
      exact ⟨_, hjoined rfl (.inr hreply)⟩
    | text text =>
      simp only [merged, if_true]
      refine ⟨(node.published digest ambient w text).head?, hsays rfl ?_⟩
      unfold aggregateOutcome mergedStatus
      simp only [hreply]

variable (enc digest externalWrite cfg node ambient) in
/-- The verdict of an attempt is what `executeInner` does on the replies that the node hears. -/
theorem outcomeOf_verdict (replies : Replies) (w : SwarmWorld) :
    ∃ published, node.outcomeOfPlan enc externalWrite ambient w
        (executeInner node.input (node.heard cfg ambient.clock w replies published) cfg node.own node.upstream) =
      node.outcomeOf digest ambient w (node.verdict cfg (node.grants (ambient.clock (node.firstCall cfg)) w)
        (node.grantsAnswer ambient.clock w) (node.accepts enc externalWrite ambient w) replies) := by
  unfold verdict heard
  generalize node.grants (ambient.clock (node.firstCall cfg)) w = g
  cases hfirst : node.firstCall cfg with
  | merge =>
    have hagg : node.isAggregate = true := by
      unfold firstCall at hfirst
      split_ifs at hfirst with hagg
      exact hagg
    have hplan : ∀ replies, executeInner node.input replies cfg node.own node.upstream =
      .done (aggregateOutcome node.input replies node.upstream) := fun _ => if_pos (of_decide_eq_true hagg)
    simp only [hplan, outcomeOfPlan]
    exact aggregateOutcome_merged g replies.merge _ _
  | answer =>
    have hmay : node.mayDelegate cfg = false := by
      rw [← Bool.not_eq_true, mayDelegate_iff, hfirst]
      decide
    unfold firstCall at hfirst
    split_ifs at hfirst with hagg hdepth
    have hplan : ∀ replies, executeInner node.input replies cfg node.own node.upstream =
      .done (answerOutcome node.input replies (some "")) := fun _ => by
        unfold executeInner
        exact (if_neg (by simpa [isAggregate] using hagg)).trans (if_pos hdepth)
    have hblank : (some "").filter (fun answer => !isBlank answer) = none := rfl
    simp only [hplan, hmay, Bool.false_eq_true, if_false, outcomeOfPlan]
    exact answerOutcome_asked hblank g replies.answer _ _
  | planner =>
    have hmay := mayDelegate_iff.mpr hfirst
    unfold firstCall at hfirst
    split_ifs at hfirst with hagg hdepth
    simp only [hmay, if_true]
    have hblank : (some "").filter (fun answer => !isBlank answer) = none := rfl
    have hnothing : Option.filter (fun answer => !isBlank answer) none = none := rfl
    have hmode : ¬ node.input.mode = some "aggregate" := by simpa [isAggregate] using hagg
    unfold executeInner
    simp only [if_neg hmode, if_neg hdepth]
    generalize (if g then replies.planner else .failure) = planner
    cases planner with
    | timeout =>
      simp only [planned, outcomeOfPlan, outcomeOf_silent]
      exact ⟨none, trivial⟩
    | failure | unparsed =>
      simp only [planned, outcomeOfPlan]
      exact answerOutcome_asked hblank _ _ _ _
    | answer text =>
      by_cases hempty : isBlank text = true
      · simp only [planned, outcomeOfPlan, if_pos hempty]
        exact answerOutcome_asked (by simp [Option.filter, hempty]) _ _ _ _
      · have hdirect : (some text).filter (fun answer => !isBlank answer) = some text := by
          simp [Option.filter, hempty]
        simp only [planned, outcomeOfPlan, if_neg hempty]
        refine ⟨(node.published digest ambient w text).head?, ?_⟩
        unfold answerOutcome
        rw [hdirect]
        exact outcomeOf_answers rfl "success"
    | delegate children =>
      simp only [planned]
      generalize (children.filter fun child => !isBlank child.task).take 4 = scheduled
      by_cases hnone : scheduled.isEmpty = true
      · simp only [if_pos hnone, outcomeOfPlan]
        exact answerOutcome_asked hnothing _ _ _ _
      · have hextended : ∀ delegated otherwise, node.outcomeOfPlan enc externalWrite ambient w
            (.delegate (delegationSteps node.own node.input (orDefault node.input.roleName "general") scheduled)
              delegated otherwise) =
            if node.accepts enc externalWrite ambient w scheduled then delegated else otherwise := fun _ _ => rfl
        simp only [if_neg hnone, hextended]
        cases node.accepts enc externalWrite ambient w scheduled with
        | true =>
          simp only [if_true]
          exact ⟨none, rfl⟩
        | false =>
          simp only [Bool.false_eq_true, if_false]
          exact answerOutcome_asked hnothing _ _ _ _

variable (enc digest externalWrite cfg node ambient) in
/-- **An attempt returns what `executeInner` does on the replies that the node hears.** -/
theorem outcome_executeInner (replies : Replies) (w : SwarmWorld) :
    ∃ published, Same (node.outcome cfg enc digest externalWrite ambient replies w)
      (node.outcomeOfPlan enc externalWrite ambient w
        (executeInner node.input (node.heard cfg ambient.clock w replies published) cfg node.own node.upstream)) := by
  obtain ⟨published, hplan⟩ := outcomeOf_verdict enc digest externalWrite cfg node ambient replies w
  exact ⟨published, hplan ▸ outcome_same enc digest externalWrite cfg node ambient replies w⟩

/-! ### What stopped attempts leave -/

/-- The transactions of an attempt. -/
def Calls (cfg : AgentSwarmSettings) (node : Node) : NodeCall → Prop
  | .reserve _ => True
  | .extend steps => node.mayDelegate cfg = true ∧
    ∃ roleName children, steps = delegationSteps node.own node.input roleName children
  | .publish request => ∃ answer, request = node.report answer

theorem uses_ask {α : Type} (now : Int) (failure reply : α) : (ask now failure reply).Uses (node.Calls cfg) :=
  (Prog.uses_perform trivial).attempt fun
    | .ok _ => trivial
    | .error _ => trivial

theorem uses_publishTerminal (o : WorkOutcome) : (node.publishTerminal o).Uses (node.Calls cfg) := by
  unfold publishTerminal
  simp only
  split_ifs
  · trivial
  · exact (Prog.uses_perform ⟨_, rfl⟩).attempt fun
      | .ok _ => trivial
      | .error _ => trivial

theorem uses_answerLeg (clock : ModelCall → Int) (replies : Replies) (direct : Option String) :
    (node.answerLeg clock replies direct).Uses (node.Calls cfg) := by
  unfold answerLeg
  split
  · exact uses_publishTerminal _
  · refine (uses_ask ..).attempt fun r => ?_
    split <;> exact uses_publishTerminal _

theorem uses_execute (clock : ModelCall → Int) (replies : Replies) :
    (node.execute cfg clock replies).Uses (node.Calls cfg) := by
  unfold execute
  split_ifs with hagg hdepth
  · unfold aggregateLeg
    refine (uses_ask ..).attempt fun r => ?_
    split <;> exact uses_publishTerminal _
  · exact uses_answerLeg ..
  · refine (uses_ask ..).attempt fun r => ?_
    split
    · trivial
    · exact uses_answerLeg ..
    · simp only
      split_ifs
      · exact uses_answerLeg ..
      · have hmay : node.mayDelegate cfg = true := by
          unfold mayDelegate
          simp only [Bool.and_eq_true, Bool.not_eq_true', decide_eq_true_eq]
          exact ⟨by simpa using hagg, Nat.lt_of_not_le hdepth⟩
        refine (Prog.uses_perform ⟨hmay, _, _, rfl⟩).attempt fun
          | .ok _ => trivial
          | .error _ => (Prog.uses_perform ⟨hmay, _, _, rfl⟩).attempt fun
            | .ok _ => trivial
            | .error _ => uses_answerLeg ..
    · exact uses_answerLeg ..

/-- Stopped attempts have charged the budget, and may have published the report; nothing else has changed. -/
def Untouched (node : Node) (start w : SwarmWorld) : Prop :=
  ∃ budgets artifacts, w.store = { start.store with budgets, artifacts } ∧
    ((artifacts = start.store.artifacts ∧ w.registry = start.registry) ∨
      (node.report? start = none ∧ (∃ row, node.report? w = some row) ∧ node.isPublishable start = true))

/-- What stopped attempts can have left: children, or next to nothing. -/
def Left (cfg : AgentSwarmSettings) (node : Node) (start w : SwarmWorld) : Prop :=
  (node.mayDelegate cfg = true ∧ node.HasChildren w) ∨ node.Untouched start w

theorem left_exec {start : SwarmWorld} {a : NodeCall} (ha : node.Calls cfg a) (h : node.Left cfg start w) :
    node.Left cfg start (node.exec enc digest externalWrite ambient a w).2 := by
  cases a with
  | reserve now =>
    have hexec : (node.exec enc digest externalWrite ambient (.reserve now) w).2 = node.charged now w := by
      rcases exec_reserve enc digest externalWrite node ambient now w with ⟨e, -, he⟩ | ⟨-, he⟩ <;> rw [he]
    obtain ⟨budgets, he⟩ := charged_eq node now w
    rw [hexec, he]
    rcases h with h | ⟨b, artifacts, hstore, hreport⟩
    · exact .inl h
    · exact .inr ⟨budgets, artifacts, by rw [hstore], hreport⟩
  | extend steps =>
    obtain ⟨hmay, roleName, children, rfl⟩ := ha
    have hexec : (node.exec enc digest externalWrite ambient (.extend _) w).2 = (onStore w (extendWorkflow enc
      node.goalId (delegationSteps node.own node.input roleName children) externalWrite "internal:swarm"
        ambient.workId w.store)).2 := rfl
    rw [hexec]
    cases hext : extendWorkflow enc node.goalId (delegationSteps node.own node.input roleName children) externalWrite
        "internal:swarm" ambient.workId w.store with
    | error e => exact h
    | ok store => exact .inl ⟨hmay, hasChildren_extended hext⟩
  | publish request =>
    obtain ⟨answer, rfl⟩ := ha
    have hexec : (node.exec enc digest externalWrite ambient (.publish (node.report answer)) w).2 =
      (transact w (w.publish digest (node.report answer) "internal:swarm" ambient.artifactId)).2 := rfl
    rw [hexec]
    cases hpub : w.publish digest (node.report answer) "internal:swarm" ambient.artifactId with
    | error e => exact h
    | ok r =>
      obtain ⟨hpublishable, ⟨row, hrow, -, rfl⟩ | ⟨hnone, store, hinsert, rfl⟩⟩ := publish_report.mp hpub
      · exact h
      · obtain ⟨artifacts, hartifacts⟩ : ∃ artifacts, store = { w.store with artifacts } := by
          unfold publishArtifact at hinsert
          simp only [bind_eq_ok, pure_eq_ok] at hinsert
          obtain ⟨artifacts, -, rfl⟩ := hinsert
          exact ⟨artifacts, rfl⟩
        rcases h with h | ⟨budgets, old, hstore, hreport⟩
        · rw [hartifacts]
          exact .inl h
        · have hnow : store = { start.store with budgets, artifacts } := by rw [hartifacts, hstore]
          refine .inr ⟨budgets, artifacts, hnow, .inr ⟨?_, ?_, ?_⟩⟩
          · rcases hreport with ⟨-, hregistry⟩ | ⟨-, ⟨row, hrow⟩, -⟩
            · unfold report? SwarmWorld.find? at hnone ⊢
              rw [← hregistry]
              exact hnone
            · rw [hnone] at hrow
              cases hrow
          · have hversion : trim "1" = "1" := by decide
            unfold report? SwarmWorld.find? at hnone ⊢
            simp only [transact, List.find?_append, hnone, Option.none_or]
            refine ⟨_, List.find?_cons_of_pos ?_⟩
            simp [report, hversion]
          · unfold isPublishable at hpublishable ⊢
            rw [hstore] at hpublishable
            exact hpublishable

theorem left_refl (cfg : AgentSwarmSettings) (node : Node) (start : SwarmWorld) : node.Left cfg start start :=
  .inr ⟨start.store.budgets, start.store.artifacts, rfl, .inl ⟨rfl, rfl⟩⟩

theorem left_leave {start : SwarmWorld} (h : node.Left cfg start w) (attempt : StoppedAttempt) :
    node.Left cfg start (node.leave enc digest externalWrite cfg w attempt) :=
  have hcalls : (node.execute cfg attempt.ambient.clock attempt.replies).Uses (node.Calls cfg) := uses_execute ..
  have hstep : ∀ a w, node.Calls cfg a → node.Left cfg start w →
      node.Left cfg start (node.exec enc digest externalWrite attempt.ambient a w).2 := fun _ _ => left_exec
  Prog.stopped_of_uses _ hstep hcalls attempt.calls h

variable (enc digest externalWrite cfg node) in
/-- **Wherever attempts stop, they leave children, or charges and a report at most.** -/
theorem left_attempts (start : SwarmWorld) (attempts : List StoppedAttempt) :
    node.Left cfg start (attempts.foldl (node.leave enc digest externalWrite cfg) start) := by
  refine List.foldlRecOn attempts _ (left_refl cfg node start) fun w h attempt _ => left_leave h attempt

/-! ### Differences -/

theorem answer_of_same {w' : SwarmWorld} {answer status answer' status' : String}
    (h : Same (node.outcomeOf digest ambient w (.answers answer status))
      (node.outcomeOf digest ambient w' (.answers answer' status'))) :
    answer = answer' ∧
      (node.published digest ambient w answer = [] ↔ node.published digest ambient w' answer' = []) := by
  have hanswer : ∀ (w : SwarmWorld) (answer status : String),
      ((node.outcomeOf digest ambient w (.answers answer status)).evidence.get "answer").bind Value.asStr =
        some answer := fun _ _ _ => rfl
  have hevidence := congrArg (fun o : WorkOutcome => (o.evidence.get "answer").bind Value.asStr) h.1
  simp only [hanswer] at hevidence
  exact ⟨Option.some.inj hevidence, h.2⟩

theorem not_isDelegated {o : WorkOutcome} {answer status : String}
    (h : Same o (node.outcomeOf digest ambient w (.answers answer status))) : ¬ IsDelegated o := by
  have hnone : ((node.outcomeOf digest ambient w (.answers answer status)).evidence.get "delegated").bind
    Value.asBool = none := rfl
  have hevidence := congrArg (fun o : WorkOutcome => (o.evidence.get "delegated").bind Value.asBool) h.1
  simp only [hnone] at hevidence
  unfold IsDelegated
  rw [hevidence]
  simp

variable (cfg node) in
theorem verdict_answers (heard answerHeard : Bool) {accepts : List SwarmChildPlan → Bool}
    (h : ∀ children, accepts children = false) (replies : Replies) :
    ∃ answer status, node.verdict cfg heard answerHeard accepts replies = .answers answer status := by
  unfold verdict
  cases node.firstCall cfg with
  | merge => exact ⟨_, _, rfl⟩
  | answer => exact asked_answers ..
  | planner =>
    cases (if heard then replies.planner else .failure) with
    | timeout => exact ⟨_, _, rfl⟩
    | failure | unparsed => exact asked_answers ..
    | answer text =>
      simp only [planned]
      split_ifs
      · exact asked_answers ..
      · exact ⟨_, _, rfl⟩
    | delegate children =>
      simp only [planned, h, Bool.false_eq_true, if_false, ite_self]
      exact asked_answers ..

/-- **A node with children never returns again that it has delegated.** -/
theorem children_lost (h : node.HasChildren w) (replies : Replies) :
    ¬ IsDelegated (node.outcome cfg enc digest externalWrite ambient replies w) := by
  obtain ⟨answer, status, hverdict⟩ := verdict_answers cfg node (node.grants (ambient.clock (node.firstCall cfg)) w)
    (node.grantsAnswer ambient.clock w) (accepts_hasChildren enc externalWrite ambient h) replies
  have hsame := outcome_same enc digest externalWrite cfg node ambient replies w
  rw [hverdict] at hsame
  exact not_isDelegated hsame

theorem same_iff {start : SwarmWorld} (replies : Replies) :
    Same (node.outcome cfg enc digest externalWrite ambient replies w)
      (node.outcome cfg enc digest externalWrite ambient replies start) ↔
    Same (node.outcomeOf digest ambient w (node.verdict cfg (node.grants (ambient.clock (node.firstCall cfg)) w)
        (node.grantsAnswer ambient.clock w) (node.accepts enc externalWrite ambient w) replies))
      (node.outcomeOf digest ambient start (node.verdict cfg
        (node.grants (ambient.clock (node.firstCall cfg)) start) (node.grantsAnswer ambient.clock start)
        (node.accepts enc externalWrite ambient start) replies)) := by
  have hw := outcome_same enc digest externalWrite cfg node ambient replies w
  have hstart := outcome_same enc digest externalWrite cfg node ambient replies start
  exact ⟨fun h => (hw.symm.trans h).trans hstart, fun h => (hw.trans h).trans hstart.symm⟩

/-- A reply that every model call gives as the answer. -/
def saying (text : String) : Replies where
  planner := .answer text
  answer := .text text
  merge := fun _ => .text text

theorem joined_ne (node : Node) : joinedAnswers node.upstream ++ "x" ≠ joinedAnswers node.upstream := by
  intro h
  have hlen := congrArg (fun s : String => s.toList.length) h
  have hx : "x".toList.length = 1 := by decide
  simp only [String.toList_append, List.length_append, hx] at hlen
  omega

/-- A first call that is granted on one side only makes a difference. -/
theorem grants_of_transparent {start : SwarmWorld}
    (h : node.Transparent enc digest externalWrite cfg ambient start w) :
    node.grants (ambient.clock (node.firstCall cfg)) w =
      node.grants (ambient.clock (node.firstCall cfg)) start := by
  -- the reply of the first call is told from what the node says without it
  have hsame := fun replies => (same_iff replies).mp (h replies).1
  generalize hw : node.grants (ambient.clock (node.firstCall cfg)) w = g at hsame ⊢
  generalize hstart : node.grants (ambient.clock (node.firstCall cfg)) start = g' at hsame ⊢
  cases hfirst : node.firstCall cfg with
  | planner =>
    have hx := hsame { planner := .answer "x" }
    unfold verdict at hx
    rw [hfirst] at hx
    cases g <;> cases g' <;> first
      | rfl
      | exact absurd (answer_of_same hx).1 (by decide)
  | answer =>
    have hx := hsame { answer := .text "x" }
    unfold verdict at hx
    rw [hfirst] at hx
    cases g <;> cases g' <;> first
      | rfl
      | exact absurd (answer_of_same hx).1 (by decide)
  | merge =>
    have hx := hsame { merge := fun _ => .text (joinedAnswers node.upstream ++ "x") }
    unfold verdict at hx
    rw [hfirst] at hx
    cases g <;> cases g'
    · rfl
    · exact absurd (answer_of_same hx).1.symm (joined_ne node)
    · exact absurd (answer_of_same hx).1 (joined_ne node)
    · rfl

theorem grantsAnswer_of_transparent {start : SwarmWorld} (hmay : node.mayDelegate cfg = true)
    (h : node.Transparent enc digest externalWrite cfg ambient start w) :
    node.grantsAnswer ambient.clock w = node.grantsAnswer ambient.clock start := by
  have hx := (same_iff { planner := .unparsed, answer := .text "x" }).mp
    (h { planner := .unparsed, answer := .text "x" }).1
  have hverdict : ∀ heard answerHeard accepts,
      node.verdict cfg heard answerHeard accepts { planner := .unparsed, answer := .text "x" } =
        asked answerHeard (.text "x") := by
    intro heard answerHeard accepts
    unfold verdict
    rw [mayDelegate_iff.mp hmay]
    cases heard <;> rfl
  rw [hverdict, hverdict] at hx
  cases hw : node.grantsAnswer ambient.clock w <;> cases hstart : node.grantsAnswer ambient.clock start
  · rfl
  · rw [hw, hstart] at hx
    exact absurd (answer_of_same hx).1 (by decide)
  · rw [hw, hstart] at hx
    exact absurd (answer_of_same hx).1 (by decide)
  · rfl

theorem verdict_congr {answerHeard answerHeard' : Bool}
    (h : node.mayDelegate cfg = true → answerHeard = answerHeard') (heard : Bool)
    (accepts : List SwarmChildPlan → Bool) (replies : Replies) :
    node.verdict cfg heard answerHeard accepts replies = node.verdict cfg heard answerHeard' accepts replies := by
  unfold verdict
  cases hfirst : node.firstCall cfg with
  | planner => rw [h (mayDelegate_iff.mpr hfirst)]
  | answer | merge => rfl

theorem accepts_untouched {start : SwarmWorld} (h : node.Untouched start w) :
    node.accepts enc externalWrite ambient w = node.accepts enc externalWrite ambient start := by
  obtain ⟨budgets, artifacts, hstore, -⟩ := h
  unfold accepts
  rw [hstore]
  exact funext fun children => extendWorkflow_isOk start.store budgets artifacts ..

theorem verdict_saying {text : String} (hblank : isBlank text = false) {heard answerHeard : Bool}
    (hheard : (heard || (node.mayDelegate cfg && answerHeard)) = true) (accepts : List SwarmChildPlan → Bool) :
    ∃ status, node.verdict cfg heard answerHeard accepts (saying text) = .answers text status := by
  unfold verdict
  cases hfirst : node.firstCall cfg with
  | planner =>
    cases heard with
    | true => exact ⟨"success", if_neg (by rw [hblank]; exact Bool.false_ne_true)⟩
    | false =>
      rw [Bool.false_or, Bool.and_eq_true] at hheard
      rw [hheard.2]
      exact ⟨"success", rfl⟩
  | answer =>
    have hmay : node.mayDelegate cfg = false := by
      rw [← Bool.not_eq_true, mayDelegate_iff, hfirst]
      decide
    rw [hmay, Bool.false_and, Bool.or_false] at hheard
    rw [hheard]
    exact ⟨"success", rfl⟩
  | merge =>
    have hmay : node.mayDelegate cfg = false := by
      rw [← Bool.not_eq_true, mayDelegate_iff, hfirst]
      decide
    rw [hmay, Bool.false_and, Bool.or_false] at hheard
    rw [hheard]
    exact ⟨_, rfl⟩

variable (cfg) in
theorem verdict_joined (hagg : node.isAggregate = true) (answerHeard : Bool)
    (accepts : List SwarmChildPlan → Bool) (replies : Replies) :
    node.verdict cfg false answerHeard accepts replies =
      .answers (joinedAnswers node.upstream) node.mergedStatus := by
  have hfirst : node.firstCall cfg = .merge := if_pos hagg
  unfold verdict
  rw [hfirst]
  cases replies.merge (node.upstream.map fun child => childJson child.1 child.2) <;> rfl

theorem verdict_unheard (hagg : node.isAggregate = false) {answerHeard : Bool}
    (hunheard : (node.mayDelegate cfg && answerHeard) = false) (accepts : List SwarmChildPlan → Bool)
    (replies : Replies) : node.verdict cfg false answerHeard accepts replies = .answers "" "failed" := by
  unfold verdict
  cases hfirst : node.firstCall cfg with
  | planner =>
    rw [mayDelegate_iff.mpr hfirst, Bool.true_and] at hunheard
    rw [hunheard]
    cases replies.answer <;> rfl
  | answer => cases replies.answer <;> rfl
  | merge =>
    unfold firstCall at hfirst
    rw [hagg, if_neg Bool.false_ne_true] at hfirst
    split_ifs at hfirst

/-- A report of the stopped attempts is met by another answer. -/
theorem report_of_transparent {start : SwarmWorld} (hleft : node.Untouched start w)
    (hfresh : ∀ a ∈ start.store.artifacts, a.id ≠ ambient.artifactId)
    (hdigest : ∃ text text', isBlank text = false ∧ isBlank text' = false ∧
      digest (node.report text).content ≠ digest (node.report text').content)
    (hterminal : node.isTerminal = true)
    (h : node.Transparent enc digest externalWrite cfg ambient start w) :
    node.ReportUnchanged digest cfg ambient start w := by
  obtain ⟨budgets, artifacts, hstore, ⟨-, hregistry⟩ | ⟨hnone, ⟨row, hrow⟩, hpublishable⟩⟩ := hleft
  · refine .inl ?_
    unfold report? SwarmWorld.find?
    rw [hregistry]
  -- what is said is published at the start, and here only if it is the report
  have hsaid : ∀ {replies answer status status'}, isBlank answer = false →
      node.verdict cfg (node.grants (ambient.clock (node.firstCall cfg)) w) (node.grantsAnswer ambient.clock w)
        (node.accepts enc externalWrite ambient w) replies = .answers answer status →
      node.verdict cfg (node.grants (ambient.clock (node.firstCall cfg)) start)
        (node.grantsAnswer ambient.clock start) (node.accepts enc externalWrite ambient start) replies =
          .answers answer status' → row.contentHash = digest (node.report answer).content := by
    intro replies answer status status' hblank hw hs
    have hsame := (same_iff replies).mp (h replies).1
    rw [hw, hs] at hsame
    by_contra hne
    have hhere : node.published digest ambient w answer = [] := by
      rw [published_eq_nil_iff, hrow]
      rintro ⟨-, -, -, ⟨row', he, hsame⟩ | ⟨he, -⟩⟩
      · cases he
        exact hne hsame
      · cases he
    exact published_eq_nil_iff.mp ((answer_of_same hsame).2.mp hhere)
      ⟨hterminal, hblank, hpublishable, .inr ⟨hnone, hfresh⟩⟩
  have hgrants := grants_of_transparent h
  have hunheard : node.isHeard cfg ambient.clock w = false := by
    rw [← Bool.not_eq_true]
    intro hheard
    have hheard' : node.isHeard cfg ambient.clock start = true := by
      unfold isHeard at hheard ⊢
      rw [← hgrants]
      by_cases hmay : node.mayDelegate cfg = true
      · rw [← grantsAnswer_of_transparent hmay h]
        exact hheard
      · rw [Bool.not_eq_true] at hmay
        rw [hmay, Bool.false_and] at hheard ⊢
        exact hheard
    have hall : ∀ text, isBlank text = false → row.contentHash = digest (node.report text).content := by
      intro text hblank
      obtain ⟨status, hw⟩ := verdict_saying hblank hheard (node.accepts enc externalWrite ambient w)
      obtain ⟨status', hs⟩ := verdict_saying hblank hheard' (node.accepts enc externalWrite ambient start)
      exact hsaid hblank hw hs
    obtain ⟨text, text', hblank, hblank', hne⟩ := hdigest
    exact hne ((hall text hblank).symm.trans (hall text' hblank'))
  refine .inr ⟨hunheard, fun hagg => ?_⟩
  by_cases hblank : isBlank (joinedAnswers node.upstream) = true
  · exact .inl hblank
  have hfirst : node.grants (ambient.clock (node.firstCall cfg)) w = false :=
    (Bool.or_eq_false_iff.mp hunheard).1
  have hw := verdict_joined cfg hagg (node.grantsAnswer ambient.clock w)
    (node.accepts enc externalWrite ambient w) {}
  have hs := verdict_joined cfg hagg (node.grantsAnswer ambient.clock start)
    (node.accepts enc externalWrite ambient start) {}
  rw [← hfirst] at hw
  rw [← hfirst, hgrants] at hs
  exact .inr ⟨row, hrow, hsaid (by simpa using hblank) hw hs⟩

/-- A report that is unchanged makes no difference to what a node says. -/
theorem outcomeOf_unchanged {start : SwarmWorld} (hleft : node.Untouched start w)
    (hfresh : ∀ a ∈ start.store.artifacts, a.id ≠ ambient.artifactId)
    (hreport : node.isTerminal = true → node.ReportUnchanged digest cfg ambient start w)
    (accepts : List SwarmChildPlan → Bool) (replies : Replies) :
    Same (node.outcomeOf digest ambient w (node.verdict cfg (node.grants (ambient.clock (node.firstCall cfg)) w)
        (node.grantsAnswer ambient.clock w) accepts replies))
      (node.outcomeOf digest ambient start (node.verdict cfg (node.grants (ambient.clock (node.firstCall cfg)) w)
        (node.grantsAnswer ambient.clock w) accepts replies)) := by
  obtain ⟨budgets, artifacts, hstore, ⟨hartifacts, hregistry⟩ | ⟨hnone, ⟨row, hrow⟩, hpublishable⟩⟩ := hleft
  · refine outcomeOf_same (by rw [hstore]) (by rw [hstore, hartifacts]) ?_ _
    unfold report? SwarmWorld.find?
    rw [hregistry]
  generalize hverdict : node.verdict cfg (node.grants (ambient.clock (node.firstCall cfg)) w)
    (node.grantsAnswer ambient.clock w) accepts replies = v
  cases v with
  | delegates count => exact Same.refl _
  | answers answer status =>
    refine ⟨rfl, ?_⟩
    change node.published digest ambient w answer = [] ↔ node.published digest ambient start answer = []
    by_cases hsilent : node.isTerminal = true ∧ isBlank answer = false
    · rcases hreport hsilent.1 with he | ⟨hunheard, hjoined⟩
      · rw [hrow, hnone] at he
        cases he
      have hfirst : node.grants (ambient.clock (node.firstCall cfg)) w = false :=
        (Bool.or_eq_false_iff.mp hunheard).1
      have hanswer : (node.mayDelegate cfg && node.grantsAnswer ambient.clock w) = false :=
        (Bool.or_eq_false_iff.mp hunheard).2
      rw [hfirst] at hverdict
      cases hagg : node.isAggregate with
      | false =>
        rw [verdict_unheard hagg hanswer] at hverdict
        cases hverdict
        exact absurd hsilent.2 (by decide)
      | true =>
        rw [verdict_joined cfg hagg] at hverdict
        cases hverdict
        rcases hjoined hagg with hblank | ⟨row', hrow', hsame⟩
        · rw [hsilent.2] at hblank
          cases hblank
        have hgoals : node.isPublishable w = node.isPublishable start := by
          unfold isPublishable
          rw [hstore]
        rw [published_eq_nil_iff, published_eq_nil_iff, hgoals]
        refine iff_of_false (fun h => h ?_) (fun h => h ?_)
        · exact ⟨hsilent.1, hsilent.2, hpublishable, .inl ⟨row', hrow', hsame⟩⟩
        · exact ⟨hsilent.1, hsilent.2, hpublishable, .inr ⟨hnone, hfresh⟩⟩
    · rw [published_eq_nil_iff, published_eq_nil_iff]
      exact iff_of_true (fun h => hsilent ⟨h.1, h.2.1⟩) (fun h => hsilent ⟨h.1, h.2.1⟩)

end Transactions

end Node

/-- **A retried attempt is like an uninterrupted one, whatever the model replies, exactly if the stopped attempts
have left no children of the node, no report of it, and what its calls need of the budget.** -/
theorem crash_retry_transparent (enc : Encoding) (digest : Value → String) (externalWrite : ExternalWritePolicy)
    (cfg : AgentSwarmSettings) (node : Node) (start : SwarmWorld) (attempts : List StoppedAttempt) (ambient : Ambient)
    (hfresh : ∀ a ∈ start.store.artifacts, a.id ≠ ambient.artifactId)
    (hdigest : ∃ text text', isBlank text = false ∧ isBlank text' = false ∧
      digest (node.report text).content ≠ digest (node.report text').content) :
    node.Transparent enc digest externalWrite cfg ambient start
        (attempts.foldl (node.leave enc digest externalWrite cfg) start) ↔
      node.NothingLeft digest cfg ambient start (attempts.foldl (node.leave enc digest externalWrite cfg) start) := by
  have hleft := Node.left_attempts enc digest externalWrite cfg node start attempts
  generalize attempts.foldl (node.leave enc digest externalWrite cfg) start = w at hleft ⊢
  constructor
  · intro h
    have hchildless : node.mayDelegate cfg = true → ¬ node.HasChildren w := fun hmay hchildren =>
      Node.children_lost hchildren {} ((h {}).2 hmay hchildren)
    refine ⟨Node.grants_of_transparent h, fun hmay => Node.grantsAnswer_of_transparent hmay h, hchildless,
      fun hterminal => ?_⟩
    rcases hleft with ⟨hmay, hchildren⟩ | hleft
    · exact absurd hchildren (hchildless hmay)
    · exact Node.report_of_transparent hleft hfresh hdigest hterminal h
  · rintro ⟨hfirst, hanswer, hchildless, hreport⟩ replies
    refine ⟨Node.same_iff replies |>.mpr ?_, fun hmay hchildren => absurd hchildren (hchildless hmay)⟩
    rcases hleft with ⟨hmay, hchildren⟩ | hleft
    · exact absurd hchildren (hchildless hmay)
    rw [← hfirst, ← Node.accepts_untouched hleft, Node.verdict_congr fun hmay => (hanswer hmay).symm]
    exact Node.outcomeOf_unchanged hleft hfresh hreport _ replies

/-! ## Two nodes that have been tried -/

namespace SwarmSample

/-- The digests of the two reports below. -/
def contentDigest (content : Value) : String :=
  if (content.get "answer").bind Value.asStr = some "The first report." then
    "sha256:c02ed5399793e8e720b538c63ad38823f680e1cee158be9abfff6224a67843b9"
  else "sha256:bd01cba11d781b6bc87a977db8e0efddff84987fb9425dc18d8dbb16f8f703d3"

/-- The aggregate of the root is claimed. -/
def aggregateClaim : WorkClaim := claimed ((below root).getLastD root) 2 [childClaim.workItem.id]

def nodeOf (claim : WorkClaim) (upstream : Upstream) : Node where
  goalId := "goal"
  own := claim.workItem.stepId
  input := (SwarmNodeInput.ofValue claim.workItem.input).getD { task := "" }
  upstream

def splitter : Node := nodeOf childClaim []

def reporter : Node := nodeOf aggregateClaim [(childClaim.workItem.stepId, swarmNodeOutcome splitter.input "done" "success")]

def ambientOf (node : Node) (artifactId : String) : Ambient where
  clock _ := 0
  workId n := if n = 0 then childStepId node.own 0 else aggregateStepId node.own
  artifactId

/-- The child has been claimed. -/
def splitterStart : SwarmWorld := ⟨after (setup ++ divides rootClaim ++ begins childClaim), []⟩

/-- The child has answered, and the aggregate has been claimed. -/
def reporterStart : SwarmWorld := ⟨after (shallow ++ begins aggregateClaim), []⟩

def reports (text : String) : Replies := { merge := fun _ => .text text }

/-- The child has delegated and stopped. -/
def splitterLeft : SwarmWorld :=
  splitter.leave encoding contentDigest Sample.externalWrite settings splitterStart
    ⟨ambientOf splitter "first", splits, 2⟩

/-- The aggregate has published its report and stopped. -/
def reporterLeft : SwarmWorld :=
  reporter.leave encoding contentDigest Sample.externalWrite settings reporterStart
    ⟨ambientOf reporter "first", reports "The first report.", 2⟩

/-- A node is recovered after its lease has expired, and claimed again. -/
def again (claim : WorkClaim) (w : SwarmWorld) : SwarmWorld where
  store := Machine.run (swarmExec encoding settings "goal" "run") w.store
    [.store (.recoverGoalState "goal" "runtime:w2" 301),
      .store (.claimWork "goal" (some claim.workItem.stepId) "w2" 300 "runtime:w2" "lease again" "attempt again" 310)]
  registry := w.registry

end SwarmSample

section

open SwarmSample

/-- An attempt of the child that has only asked the planner makes no difference. -/
theorem crash_retry_asked :
    splitter.Transparent encoding contentDigest Sample.externalWrite settings (ambientOf splitter "second")
      splitterStart ([⟨ambientOf splitter "first", splits, 1⟩].foldl
        (splitter.leave encoding contentDigest Sample.externalWrite settings) splitterStart) := by
  refine (crash_retry_transparent _ _ _ _ _ _ _ _ (by decide +kernel)
    ⟨"The first report.", "The second report.", by decide +kernel, by decide +kernel, by decide +kernel⟩).mpr ?_
  exact ⟨by decide +kernel, fun _ => by decide +kernel, fun _ => by unfold Node.HasChildren; decide +kernel,
    fun h => absurd h (by decide +kernel)⟩

/-- The child has delegated and stopped: claimed again, it answers itself, whatever the model replies. The
aggregate has published its report and stopped: claimed again, it merges to another one, and names none. -/
theorem crash_retry_lost :
    (¬ splitter.Transparent encoding contentDigest Sample.externalWrite settings (ambientOf splitter "second")
        splitterStart splitterLeft ∧
      ∀ replies, ¬ Node.IsDelegated (splitter.outcome settings encoding contentDigest Sample.externalWrite
        (ambientOf splitter "second") replies (again childClaim splitterLeft))) ∧
    (¬ reporter.Transparent encoding contentDigest Sample.externalWrite settings (ambientOf reporter "second")
        reporterStart reporterLeft ∧
      (reporter.outcome settings encoding contentDigest Sample.externalWrite (ambientOf reporter "second")
        (reports "The second report.") (again aggregateClaim reporterLeft)).artifactIds = []) := by
  refine ⟨⟨fun h => ?_, fun replies => ?_⟩, fun h => ?_, by decide +kernel⟩
  · have hchildren : splitter.HasChildren splitterLeft := by
      unfold Node.HasChildren
      decide +kernel
    exact Node.children_lost hchildren {} ((h {}).2 (by decide +kernel) hchildren)
  · refine Node.children_lost ?_ replies
    unfold Node.HasChildren
    decide +kernel
  · have hstart : (reporter.outcome settings encoding contentDigest Sample.externalWrite
        (ambientOf reporter "second") (reports "The second report.") reporterStart).artifactIds ≠ [] := by
      decide +kernel
    exact hstart ((h (reports "The second report.")).1.2.mp (by decide +kernel))

end

end Xiaomaolv
