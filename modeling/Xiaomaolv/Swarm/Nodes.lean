import Xiaomaolv.Loop.Goals
import Xiaomaolv.Swarm.Permits

/-!
# The nodes of a durable swarm run

A node is a work item of the run's goal with the handler `swarm_node`.

* `SwarmNodeInput`: what the handler reads from the input of the item.
* `delegationSteps`: the steps that a delegating node appends, one a child and their aggregate.
* `aggregateOutcome`: the merge of what an aggregate depends on.
* `executeInner`: what the handler does, given the replies of its model.
* `swarmPlan`: the plan of a run, a single root step.
-/

namespace Xiaomaolv

/-! ## Texts and messages -/

/-- `truncate_swarm_text`. -/
def truncateSwarmText (input : String) (maxChars : Nat) : String :=
  let trimmed := trim input
  if trimmed.toList.length ≤ maxChars then trimmed
  else takeChars (max maxChars 1) trimmed ++ "...(truncated)"

/-- The text, unless it is missing or blank. -/
def orDefault (value : Option String) (default : String) : String :=
  (value.filter fun text => !isBlank text).getD default

namespace StoredMessage

def toValue (message : StoredMessage) : Value :=
  .json [("role", .string message.role.asStr), ("content", .string message.content)]

def ofValue (v : Value) : Option StoredMessage := do
  let role ← ((v.get "role").bind Value.asStr).bind MessageRole.ofStr?
  let content ← (v.get "content").bind Value.asStr
  pure { role, content }

end StoredMessage

def historyValue (history : List StoredMessage) : Value :=
  .array (.ofList (history.map StoredMessage.toValue))

/-- `sample_swarm_history`: the last messages. -/
def sampleSwarmHistory (history : List StoredMessage) (maxItems : Nat) : List StoredMessage :=
  history.drop (history.length - max maxItems 1)

/-- `bounded_swarm_input_history`. -/
def boundedSwarmInputHistory (history : List StoredMessage) : List StoredMessage :=
  (sampleSwarmHistory history 8).map fun message =>
    { message with content := truncateSwarmText message.content 400 }

/-! ## The input of a node -/

structure SwarmNodeInput where
  task : String
  roleName : Option String := none
  roleDefinition : Option String := none
  nickname : Option String := none
  depth : Nat := 0
  mode : Option String := none
  parentStepId : Option String := none
  swarmRunId : Option String := none
  history : List StoredMessage := []
  swarmRoot : Bool := false
  swarmTerminal : Bool := false
  channel : Option String := none
  userId : Option String := none
  sessionId : Option String := none
  deriving DecidableEq, Repr

namespace SwarmNodeInput

/-- A field under `#[serde(default)]`. -/
def defaulted {α : Type} (read : Value → Option α) (default : α) : Option Value → Option α
  | none => some default
  | some v => read v

/-- An `Option<String>`; `null` is no text. -/
def readText : Value → Option (Option String)
  | .null => some none
  | .string text => some (some text)
  | _ => none

def readHistory (v : Value) : Option (List StoredMessage) :=
  v.asArray.bind fun values => values.mapM StoredMessage.ofValue

/-- `serde_json::from_value::<SwarmNodeInput>` of an object. -/
def ofValue (v : Value) : Option SwarmNodeInput := do
  let task ← (v.get "task").bind Value.asStr
  let roleName ← defaulted readText none (v.get "role_name")
  let roleDefinition ← defaulted readText none (v.get "role_definition")
  let nickname ← defaulted readText none (v.get "nickname")
  let depth ← defaulted Value.asU64 0 (v.get "depth")
  let mode ← defaulted readText none (v.get "mode")
  let parentStepId ← defaulted readText none (v.get "parent_step_id")
  let swarmRunId ← defaulted readText none (v.get "swarm_run_id")
  let history ← defaulted readHistory [] (v.get "history")
  let swarmRoot ← defaulted Value.asBool false (v.get "swarm_root")
  let swarmTerminal ← defaulted Value.asBool false (v.get "swarm_terminal")
  let channel ← defaulted readText none (v.get "channel")
  let userId ← defaulted readText none (v.get "user_id")
  let sessionId ← defaulted readText none (v.get "session_id")
  pure { task, roleName, roleDefinition, nickname, depth, mode, parentStepId, swarmRunId, history,
         swarmRoot, swarmTerminal, channel, userId, sessionId }

end SwarmNodeInput

/-! ## Delegation -/

section Delegation

variable (own : String) (input : SwarmNodeInput)

/-- The id of the `index`-th child, counted from zero. -/
def childStepId (index : Nat) : String := own ++ ".c" ++ toString (index + 1)

def aggregateStepId : String := own ++ ".agg"

def childStep (index : Nat) (child : SwarmChildPlan) : WorkflowStep where
  id := childStepId own index
  handler := "swarm_node"
  effect := .localWrite
  input := .json
    [("task", .string (truncateSwarmText child.task 1024)),
     ("role_name", .string (orDefault child.roleName "general")),
     ("role_definition", .string (orDefault child.roleDefinition "负责当前子任务并输出可交付结果。")),
     ("nickname", .ofOption child.nickname),
     ("depth", .int (input.depth + 1 : Nat)),
     ("parent_step_id", .string own),
     ("swarm_run_id", .ofOption input.swarmRunId),
     ("history", historyValue (boundedSwarmInputHistory input.history)),
     ("channel", .ofOption input.channel),
     ("user_id", .ofOption input.userId),
     ("session_id", .ofOption input.sessionId)]
  retry := { maxAttempts := 2, backoffSecs := 5 }

/-- The ids of the children. -/
def childStepIds (count : Nat) : List String := (List.range count).map (childStepId own)

/-- The aggregate depends on all the children. -/
def aggregateStep (roleName : String) (count : Nat) : WorkflowStep where
  id := aggregateStepId own
  handler := "swarm_node"
  effect := .localWrite
  input := .json
    [("mode", .string "aggregate"),
     ("task", .string (truncateSwarmText input.task 1024)),
     ("role_name", .string roleName),
     ("depth", .int (input.depth : Nat)),
     ("parent_step_id", .string own),
     ("swarm_run_id", .ofOption input.swarmRunId),
     ("history", historyValue (boundedSwarmInputHistory input.history)),
     ("depends_on", .strings (childStepIds own count)),
     ("swarm_terminal", .bool input.swarmRoot),
     ("channel", .ofOption input.channel),
     ("user_id", .ofOption input.userId),
     ("session_id", .ofOption input.sessionId)]
  retry := { maxAttempts := 2, backoffSecs := 5 }

def delegationSteps (roleName : String) (children : List SwarmChildPlan) : List WorkflowStep :=
  children.mapIdx (childStep own input) ++ [aggregateStep own input roleName children.length]

/-! ## Outcomes -/

/-- `swarm_node_outcome`. -/
def swarmNodeOutcome (answer status : String) : WorkOutcome where
  summary := truncateSwarmText answer 240
  artifactIds := []
  evidence := .json
    [("answer", .string answer),
     ("status", .string status),
     ("nickname", .ofOption input.nickname),
     ("role_name", .ofOption input.roleName),
     ("depth", .int (input.depth : Nat))]

/-- The outcome of a node whose children have been scheduled. -/
def delegatedOutcome (count : Nat) : WorkOutcome where
  summary := "delegated to " ++ toString count ++ " children"
  artifactIds := []
  evidence := .json
    [("delegated", .bool true),
     ("status", .string "success"),
     ("aggregate_step_id", .string (aggregateStepId own)),
     ("children_step_ids", .strings (childStepIds own count)),
     ("nickname", .ofOption input.nickname),
     ("role_name", .ofOption input.roleName),
     ("depth", .int (input.depth : Nat))]

end Delegation

/-- What a model call comes to. -/
inductive ModelReply where
  | text (reply : String)
  | timeout
  | failure
  deriving DecidableEq

/-- The replies to one execution of a node; the merge call is shown the children. -/
structure Replies where
  planner : PlannerReply := .unparsed
  answer : ModelReply := .failure
  merge : List Value → ModelReply := fun _ => .failure
  /-- The artifact that `publish_artifact` returns, unless it fails. -/
  published : Option String := none

section Outcomes

variable (input : SwarmNodeInput) (replies : Replies)

/-- `maybe_publish_terminal_artifact`. -/
def maybePublishTerminalArtifact (outcome : WorkOutcome) : WorkOutcome :=
  let isTerminal := input.swarmRoot || input.swarmTerminal
  let answer := ((outcome.evidence.get "answer").bind Value.asStr).getD ""
  if !isTerminal || isBlank answer then outcome
  else { outcome with artifactIds := outcome.artifactIds ++ replies.published.toList }

/-- `answer_outcome`: the seeded answer, else one that the model is asked for. -/
def answerOutcome (directAnswer : Option String) : WorkOutcome :=
  maybePublishTerminalArtifact input replies <|
    match directAnswer.filter fun answer => !isBlank answer with
    | some answer => swarmNodeOutcome input answer "success"
    | none =>
      match replies.answer with
      | .text answer => swarmNodeOutcome input answer "success"
      | .timeout => swarmNodeOutcome input "" "timeout"
      | .failure => swarmNodeOutcome input "" "failed"

/-- The answer that an aggregate reads from an outcome: its evidence, else its summary. -/
def upstreamAnswer (outcome : WorkOutcome) : String :=
  ((outcome.evidence.get "answer").bind Value.asStr).getD outcome.summary

def upstreamStatus (outcome : WorkOutcome) : String :=
  ((outcome.evidence.get "status").bind Value.asStr).getD "success"

/-- What the merge call is shown of an outcome. -/
def childJson (stepId : String) (outcome : WorkOutcome) : Value :=
  .json
    [("agent_id", .string stepId),
     ("nickname", .string (((outcome.evidence.get "nickname").bind Value.asStr).getD stepId)),
     ("role_name", .string (((outcome.evidence.get "role_name").bind Value.asStr).getD "general")),
     ("status", .string (upstreamStatus outcome)),
     ("answer", .string (truncateSwarmText (upstreamAnswer outcome) 180))]

/-- The outcomes by step id, in the order of the ids. -/
abbrev Upstream := List (String × WorkOutcome)

/-- The answers one after the other, for want of a merged one. -/
def joinedAnswers (upstream : Upstream) : String :=
  "\n\n".intercalate (((upstream.map fun child => upstreamAnswer child.2).filter
    fun answer => !isBlank answer).map trim)

/-- `aggregate_outcome`. -/
def aggregateOutcome (upstream : Upstream) : WorkOutcome :=
  let anyFailed := upstream.any fun child =>
    upstreamStatus child.2 = "failed" || upstreamStatus child.2 = "timeout"
  let merged := match replies.merge (upstream.map fun child => childJson child.1 child.2) with
    | .text text => text
    | .timeout | .failure => joinedAnswers upstream
  maybePublishTerminalArtifact input replies
    (swarmNodeOutcome input merged (if anyFailed then "partial" else "success"))

/-- What `execute_inner` does: return an outcome, or extend the workflow and return one of two, as the
extension is accepted or not. -/
inductive NodePlan where
  | done (outcome : WorkOutcome)
  | delegate (steps : List WorkflowStep) (delegated otherwise : WorkOutcome)

/-- `execute_inner`. A rejected extension is tried once more before the node answers itself. -/
def executeInner (cfg : AgentSwarmSettings) (own : String) (upstream : Upstream) : NodePlan :=
  let roleName := orDefault input.roleName "general"
  if input.mode = some "aggregate" then .done (aggregateOutcome input replies upstream)
  else if max cfg.maxDepth 1 ≤ input.depth then .done (answerOutcome input replies (some ""))
  else
    match replies.planner with
    | .timeout => .done (swarmNodeOutcome input "" "timeout")
    | .failure | .unparsed => .done (answerOutcome input replies (some ""))
    | .answer text => .done (answerOutcome input replies (some text))
    | .delegate children =>
      let children := (children.filter fun child => !isBlank child.task).take 4
      if children.isEmpty then .done (answerOutcome input replies none)
      else
        .delegate (delegationSteps own input roleName children)
          (delegatedOutcome own input children.length) (answerOutcome input replies none)

end Outcomes

/-! ## The plan of a run -/

/-- The root node is the run's first agent. -/
def rootStepId (runId : String) : String := runId ++ ":1"

/-- `self.agent_swarm.max_agents.max(1) as u32`. -/
def maxNodes (cfg : AgentSwarmSettings) : Nat := max cfg.maxAgents 1 % 2 ^ 32

/-- The budget of a run; the product of two `u32` wraps. -/
def swarmBudget (cfg : AgentSwarmSettings) : ExecutionBudget where
  maxProviderCalls := min (2 * maxNodes cfg % 2 ^ 32) 64
  deadlineSecs := max 1 (min (min (cfg.maxRunTimeoutMs / 1000 % 2 ^ 32 + 60) (2 ^ 32 - 1)) 86400)
  maxResponseBytes := 1048576

/-- The message that a run answers. -/
structure SwarmIncoming where
  channel : String
  userId : String
  sessionId : String

def rootStep (cfg : AgentSwarmSettings) (runId rootTask : String) (history : List StoredMessage)
    (incoming : SwarmIncoming) : WorkflowStep where
  id := rootStepId runId
  handler := "swarm_node"
  effect := .localWrite
  input := .json
    [("swarm_root", .bool true),
     ("max_nodes", .int (maxNodes cfg : Nat)),
     ("swarm_run_id", .string runId),
     ("task", .string (truncateSwarmText rootTask 1024)),
     ("role_name", .string "orchestrator"),
     ("role_definition", .string "负责分解子任务、并行调度并汇总子结果。"),
     ("nickname", .string "Orchestrator"),
     ("depth", .int 0),
     ("history", historyValue (boundedSwarmInputHistory history)),
     ("channel", .string incoming.channel),
     ("user_id", .string incoming.userId),
     ("session_id", .string incoming.sessionId)]
  retry := { maxAttempts := 1, backoffSecs := 0 }

/-- The request of `create_swarm_goal`. -/
def swarmPlan (cfg : AgentSwarmSettings) (runId rootTask : String) (history : List StoredMessage)
    (incoming : SwarmIncoming) : PlanGoalRequest where
  workflow :=
    { steps := [rootStep cfg runId rootTask history incoming]
      edges := []
      budget := swarmBudget cfg }
  acceptanceCriteria := [.artifactExists "analysis_report"]

end Xiaomaolv
