import Mathlib.Algebra.Order.BigOperators.Group.List
import Mathlib.Algebra.Order.Ring.Nat
import Xiaomaolv.Loop.Json
import Xiaomaolv.Swarm.Nodes

/-!
# The size of the inputs of a swarm

The texts of an input are cut at a number of characters; its size is checked in serialised bytes.

* `cutLen`, `historyLen`: what a cut text and the sampled history take in an input.
* `RootFits`, `ChildFits`, `AggregateFits`: the texts behind an input leave it within 8192 bytes.
* `limited`, `unlimited`: the engine with the limit of an input and without.
* **`swarm_inputs_fit`**: the inputs of a run's plan and of a delegation fit exactly if their texts do.
* `swarm_inputs_overflow`: eight messages of 400 Chinese characters do not fit, nor does a long role.
-/

namespace Xiaomaolv

open LoopStore

/-! ## What the texts take -/

/-- A text once it is trimmed and cut at `maxChars` characters. -/
def cutLen (text : String) (maxChars : Nat) : Nat :=
  if charCount (trim text) ≤ maxChars then jsonStringLen (trim text)
  else jsonStringLen (takeChars maxChars (trim text)) + 14

/-- A message with the comma or the bracket after it. -/
def messageLen (message : StoredMessage) : Nat :=
  21 + jsonStringLen message.role.asStr + cutLen message.content 400

/-- The last eight messages. -/
def historyLen (history : List StoredMessage) : Nat :=
  max 1 ((history.drop (history.length - 8)).map messageLen).sum

def optionLen (text : Option String) : Nat := (text.map jsonStringLen).getD 4

/-- The digits of a number. -/
def decimalLen (n : Nat) : Nat := (toString n).length

theorem jsonStringLen_append (s t : String) : jsonStringLen (s ++ t) + 2 = jsonStringLen s + jsonStringLen t := by
  unfold jsonStringLen
  rw [String.toList_append, List.map_append, List.sum_append]
  omega

theorem jsonLen_ofOption (text : Option String) : (Value.ofOption text).jsonLen = optionLen text := by
  cases text <;> rfl

theorem jsonLen_ofNat (n : Nat) : (Value.int n).jsonLen = decimalLen n := rfl

theorem jsonStringLen_truncate (text : String) {maxChars : Nat} (h : 1 ≤ maxChars) :
    jsonStringLen (truncateSwarmText text maxChars) = cutLen text maxChars := by
  unfold truncateSwarmText cutLen charCount
  simp only
  split_ifs
  · rfl
  · have happend := jsonStringLen_append (takeChars maxChars (trim text)) "...(truncated)"
    have hmark : jsonStringLen "...(truncated)" = 16 := by decide
    rw [max_eq_left h]
    omega

theorem jsonLen_message (message : StoredMessage) :
    (StoredMessage.toValue { message with content := truncateSwarmText message.content 400 }).jsonLen + 1 =
      messageLen message := by
  have hkeys : jsonStringLen "role" = 6 ∧ jsonStringLen "content" = 9 := by decide
  unfold StoredMessage.toValue messageLen
  simp only [Value.jsonLen_json, List.map_cons, List.map_nil, List.sum_cons, List.sum_nil, Value.jsonLen_string,
    jsonStringLen_truncate message.content (show 1 ≤ 400 by omega)]
  omega

theorem jsonLen_history (history : List StoredMessage) :
    (historyValue (boundedSwarmInputHistory history)).jsonLen = 1 + historyLen history := by
  unfold historyValue boundedSwarmInputHistory sampleSwarmHistory historyLen
  have hlast : max 8 1 = 8 := rfl
  have hrows : ((fun v : Value => v.jsonLen + 1) ∘ StoredMessage.toValue) ∘
      (fun message : StoredMessage => { message with content := truncateSwarmText message.content 400 }) =
        messageLen :=
    funext jsonLen_message
  rw [Value.jsonLen_array, List.map_map, List.map_map, hlast, hrows]

/-! ## The inputs -/

section Inputs

variable (cfg : AgentSwarmSettings) (runId rootTask : String) (history : List StoredMessage)
  (incoming : SwarmIncoming) (own : String) (input : SwarmNodeInput)

/-- The texts behind the root's input. -/
def RootFits : Prop :=
  decimalLen (maxNodes cfg) + jsonStringLen runId + cutLen rootTask 1024 + historyLen history +
    jsonStringLen incoming.channel + jsonStringLen incoming.userId + jsonStringLen incoming.sessionId ≤ 7947

/-- The texts behind a child's input. -/
def ChildFits (child : SwarmChildPlan) : Prop :=
  cutLen child.task 1024 + jsonStringLen (orDefault child.roleName "general") +
    jsonStringLen (orDefault child.roleDefinition "负责当前子任务并输出可交付结果。") + optionLen child.nickname +
    decimalLen (input.depth + 1) + jsonStringLen own + optionLen input.swarmRunId + historyLen input.history +
    optionLen input.channel + optionLen input.userId + optionLen input.sessionId ≤ 8048

/-- The texts behind the input of the aggregate over so many children. -/
def AggregateFits (count : Nat) : Prop :=
  cutLen input.task 1024 + jsonStringLen (orDefault input.roleName "general") + decimalLen input.depth +
    jsonStringLen own + optionLen input.swarmRunId + historyLen input.history + count * (jsonStringLen own + 4) +
    (Value.bool input.swarmRoot).jsonLen + optionLen input.channel + optionLen input.userId +
    optionLen input.sessionId ≤ 8027

theorem rootStep_fits :
    (rootStep cfg runId rootTask history incoming).input.jsonLen ≤ 8192 ↔
      RootFits cfg runId rootTask history incoming := by
  have hkeys : jsonStringLen "swarm_root" = 12 ∧ jsonStringLen "max_nodes" = 11 ∧
      jsonStringLen "swarm_run_id" = 14 ∧ jsonStringLen "task" = 6 ∧ jsonStringLen "role_name" = 11 ∧
      jsonStringLen "role_definition" = 17 ∧ jsonStringLen "nickname" = 10 ∧ jsonStringLen "depth" = 7 ∧
      jsonStringLen "history" = 9 ∧ jsonStringLen "channel" = 9 ∧ jsonStringLen "user_id" = 9 ∧
      jsonStringLen "session_id" = 12 := by decide
  have htexts : jsonStringLen "orchestrator" = 14 ∧ jsonStringLen "负责分解子任务、并行调度并汇总子结果。" = 59 ∧
      jsonStringLen "Orchestrator" = 14 ∧ (Value.int 0).jsonLen = 1 := by decide
  unfold rootStep RootFits
  simp only [Value.jsonLen_json, List.map_cons, List.map_nil, List.sum_cons, List.sum_nil, Value.jsonLen_bool,
    Value.jsonLen_string, jsonLen_ofNat, jsonLen_history, if_true,
    jsonStringLen_truncate rootTask (show 1 ≤ 1024 by omega)]
  omega

theorem childStep_fits (index : Nat) (child : SwarmChildPlan) :
    (childStep own input index child).input.jsonLen ≤ 8192 ↔ ChildFits own input child := by
  have hkeys : jsonStringLen "task" = 6 ∧ jsonStringLen "role_name" = 11 ∧
      jsonStringLen "role_definition" = 17 ∧ jsonStringLen "nickname" = 10 ∧ jsonStringLen "depth" = 7 ∧
      jsonStringLen "parent_step_id" = 16 ∧ jsonStringLen "swarm_run_id" = 14 ∧
      jsonStringLen "history" = 9 ∧ jsonStringLen "channel" = 9 ∧ jsonStringLen "user_id" = 9 ∧
      jsonStringLen "session_id" = 12 := by decide
  unfold childStep ChildFits
  simp only [Value.jsonLen_json, List.map_cons, List.map_nil, List.sum_cons, List.sum_nil, Value.jsonLen_string,
    jsonLen_ofNat, jsonLen_ofOption, jsonLen_history, jsonStringLen_truncate child.task (show 1 ≤ 1024 by omega)]
  omega

theorem jsonStringLen_childStepId {index : Nat} (h : index < 4) :
    jsonStringLen (childStepId own index) = jsonStringLen own + 3 := by
  have hdigit : ∀ n < 4, jsonStringLen (toString (n + 1)) = 3 := by decide
  have hc : jsonStringLen ".c" = 4 := by decide
  unfold childStepId
  have hleft := jsonStringLen_append own ".c"
  have hright := jsonStringLen_append (own ++ ".c") (toString (index + 1))
  have hindex := hdigit index h
  omega

theorem jsonLen_childStepIds {count : Nat} (hpos : 1 ≤ count) (hle : count ≤ 4) :
    (Value.strings (childStepIds own count)).jsonLen = 1 + count * (jsonStringLen own + 4) := by
  have hids : ((childStepIds own count).map fun s => jsonStringLen s + 1) =
      List.replicate count (jsonStringLen own + 4) := by
    unfold childStepIds
    rw [List.map_map]
    refine List.eq_replicate_iff.mpr ⟨by rw [List.length_map, List.length_range], fun len hlen => ?_⟩
    obtain ⟨index, hindex, rfl⟩ := List.mem_map.mp hlen
    have hlt := List.mem_range.mp hindex
    simp only [Function.comp_apply, jsonStringLen_childStepId own (show index < 4 by omega)]
  rw [Value.jsonLen_strings, hids, List.sum_replicate_nat, max_eq_right]
  exact Nat.mul_pos hpos (by omega)

theorem aggregateStep_fits {count : Nat} (hpos : 1 ≤ count) (hle : count ≤ 4) :
    (aggregateStep own input (orDefault input.roleName "general") count).input.jsonLen ≤ 8192 ↔
      AggregateFits own input count := by
  have hkeys : jsonStringLen "mode" = 6 ∧ jsonStringLen "task" = 6 ∧ jsonStringLen "role_name" = 11 ∧
      jsonStringLen "depth" = 7 ∧ jsonStringLen "parent_step_id" = 16 ∧ jsonStringLen "swarm_run_id" = 14 ∧
      jsonStringLen "history" = 9 ∧ jsonStringLen "depends_on" = 12 ∧ jsonStringLen "swarm_terminal" = 16 ∧
      jsonStringLen "channel" = 9 ∧ jsonStringLen "user_id" = 9 ∧ jsonStringLen "session_id" = 12 ∧
      jsonStringLen "aggregate" = 11 := by decide
  unfold aggregateStep AggregateFits
  simp only [Value.jsonLen_json, List.map_cons, List.map_nil, List.sum_cons, List.sum_nil, Value.jsonLen_string,
    jsonLen_ofNat, jsonLen_ofOption, jsonLen_history, jsonLen_childStepIds own hpos hle,
    jsonStringLen_truncate input.task (show 1 ≤ 1024 by omega)]
  omega

end Inputs

/-! ## The limit -/

section Limit

variable (enc : Encoding)

/-- The engine with the inputs measured as they are serialised. -/
def limited : Encoding := { enc with inputLen := Value.jsonLen }

/-- The engine without a limit on inputs. -/
def unlimited : Encoding := { enc with inputLen := fun _ => 0 }

/-- Every input is within the limit. -/
def InputsFit (steps : List WorkflowStep) : Prop := ∀ step ∈ steps, step.input.jsonLen ≤ 8192

variable {steps : List WorkflowStep}

theorem validate_limited {step : WorkflowStep} (h : step.input.jsonLen ≤ 8192)
    (externalWrite : ExternalWritePolicy) (seen : List String) :
    step.validate (limited enc) externalWrite seen = step.validate (unlimited enc) externalWrite seen := by
  have hfits : (limited enc).inputLen step.input ≤ 8192 := h
  have hzero : (unlimited enc).inputLen step.input ≤ 8192 := Nat.zero_le _
  unfold WorkflowStep.validate
  simp only [hfits, hzero]

theorem validateSteps_limited (h : InputsFit steps) (externalWrite : ExternalWritePolicy) (seen : List String) :
    validateSteps (limited enc) externalWrite seen steps = validateSteps (unlimited enc) externalWrite seen steps := by
  induction steps generalizing seen with
  | nil => rfl
  | cons step steps ih =>
    have hrest : InputsFit steps := fun step hstep => h step (List.mem_cons_of_mem _ hstep)
    unfold validateSteps
    rw [validate_limited enc (h step List.mem_cons_self), ih hrest]

theorem validateWithPolicy_limited {request : PlanGoalRequest} (h : InputsFit request.workflow.steps)
    (externalWrite : ExternalWritePolicy) :
    request.validateWithPolicy (limited enc) externalWrite =
      request.validateWithPolicy (unlimited enc) externalWrite := by
  unfold PlanGoalRequest.validateWithPolicy WorkflowSpec.validateWithPolicy
  rw [validateSteps_limited enc h]
  rfl

theorem checkExtension_limited (h : InputsFit steps) (manifest : List EffectClass)
    (externalWrite : ExternalWritePolicy) (seen : List String) :
    checkExtension (limited enc) manifest externalWrite seen steps =
      checkExtension (unlimited enc) manifest externalWrite seen steps := by
  induction steps generalizing seen with
  | nil => rfl
  | cons step steps ih =>
    have hrest : InputsFit steps := fun step hstep => h step (List.mem_cons_of_mem _ hstep)
    have hfits : (limited enc).inputLen step.input ≤ 8192 := h step List.mem_cons_self
    have hzero : (unlimited enc).inputLen step.input ≤ 8192 := Nat.zero_le _
    unfold checkExtension
    simp only [hfits, hzero, ih hrest]

theorem extendWorkflow_limited (h : InputsFit steps) (goalId : String) (externalWrite : ExternalWritePolicy)
    (actor : String) (workId : Nat → String) (s : Store) :
    extendWorkflow (limited enc) goalId steps externalWrite actor workId s =
      extendWorkflow (unlimited enc) goalId steps externalWrite actor workId s := by
  unfold extendWorkflow
  simp only [checkExtension_limited enc h]

/-- The inputs of a plan fit, and validation treats it as if there were no limit. -/
def PlanFits (request : PlanGoalRequest) : Prop :=
  InputsFit request.workflow.steps ∧ ∀ externalWrite,
    request.validateWithPolicy (limited enc) externalWrite = request.validateWithPolicy (unlimited enc) externalWrite

/-- The inputs of an extension fit, and it is treated as if there were no limit. -/
def ExtensionFits (steps : List WorkflowStep) : Prop :=
  InputsFit steps ∧ ∀ goalId externalWrite actor workId s,
    extendWorkflow (limited enc) goalId steps externalWrite actor workId s =
      extendWorkflow (unlimited enc) goalId steps externalWrite actor workId s

theorem planFits_iff {request : PlanGoalRequest} : PlanFits enc request ↔ InputsFit request.workflow.steps :=
  ⟨fun h => h.1, fun h => ⟨h, validateWithPolicy_limited enc h⟩⟩

theorem extensionFits_iff : ExtensionFits enc steps ↔ InputsFit steps :=
  ⟨fun h => h.1, fun h => ⟨h, extendWorkflow_limited enc h⟩⟩

end Limit

/-! ## Plans and delegations -/

/-- The steps that a node appends. -/
def NodePlan.steps : NodePlan → List WorkflowStep
  | .done _ => []
  | .delegate steps .. => steps

/-- The children that a node plans: at most four, with a task, and only above the last depth. -/
def plannedChildren (cfg : AgentSwarmSettings) (input : SwarmNodeInput) : PlannerReply → List SwarmChildPlan
  | .delegate children =>
    if input.mode = some "aggregate" ∨ max cfg.maxDepth 1 ≤ input.depth then []
    else (children.filter fun child => !isBlank child.task).take 4
  | _ => []

section Node

variable (cfg : AgentSwarmSettings) (own : String) (input : SwarmNodeInput) (replies : Replies) (upstream : Upstream)

/-- The texts behind the inputs of every child and of the aggregate, if there are children. -/
def NodeFits (children : List SwarmChildPlan) : Prop :=
  children ≠ [] → (∀ child ∈ children, ChildFits own input child) ∧ AggregateFits own input children.length

theorem length_plannedChildren (reply : PlannerReply) : (plannedChildren cfg input reply).length ≤ 4 := by
  cases reply with
  | delegate children =>
    unfold plannedChildren
    split_ifs
    · exact Nat.zero_le _
    · rw [List.length_take]
      exact Nat.min_le_left _ _
  | answer | unparsed | timeout | failure => exact Nat.zero_le _

theorem executeInner_steps :
    (executeInner input replies cfg own upstream).steps =
      if plannedChildren cfg input replies.planner = [] then []
      else delegationSteps own input (orDefault input.roleName "general")
        (plannedChildren cfg input replies.planner) := by
  unfold executeInner plannedChildren
  by_cases hmode : input.mode = some "aggregate"
  · cases replies.planner <;> simp [hmode, NodePlan.steps]
  by_cases hdepth : max cfg.maxDepth 1 ≤ input.depth
  · cases replies.planner <;> simp [hmode, hdepth, NodePlan.steps]
  · cases replies.planner with
    | delegate children =>
      simp only [hmode, hdepth, or_self, if_false, List.isEmpty_iff]
      split_ifs <;> rfl
    | answer | unparsed | timeout | failure => simp [hmode, hdepth, NodePlan.steps]

theorem delegationSteps_fit {children : List SwarmChildPlan} (hne : children ≠ []) (hle : children.length ≤ 4) :
    InputsFit (delegationSteps own input (orDefault input.roleName "general") children) ↔
      NodeFits own input children := by
  have hpos : 1 ≤ children.length := List.length_pos_iff.mpr hne
  unfold InputsFit delegationSteps NodeFits
  rw [List.forall_mem_append, List.forall_mem_singleton, aggregateStep_fits own input hpos hle]
  constructor
  · rintro ⟨hchildren, hagg⟩ -
    refine ⟨fun child hchild => ?_, hagg⟩
    obtain ⟨index, hindex, rfl⟩ := List.mem_iff_getElem.mp hchild
    refine (childStep_fits own input index _).mp (hchildren _ ?_)
    exact List.mem_mapIdx.mpr ⟨index, hindex, rfl⟩
  · intro h
    refine ⟨fun step hstep => ?_, (h hne).2⟩
    obtain ⟨index, hindex, rfl⟩ := List.mem_mapIdx.mp hstep
    exact (childStep_fits own input index _).mpr ((h hne).1 _ (List.getElem_mem hindex))

theorem swarmPlan_fits (runId rootTask : String) (history : List StoredMessage) (incoming : SwarmIncoming) :
    InputsFit (swarmPlan cfg runId rootTask history incoming).workflow.steps ↔
      RootFits cfg runId rootTask history incoming := by
  rw [← rootStep_fits]
  exact List.forall_mem_singleton

theorem executeInner_fits :
    InputsFit (executeInner input replies cfg own upstream).steps ↔
      NodeFits own input (plannedChildren cfg input replies.planner) := by
  rw [executeInner_steps]
  split_ifs with hnone
  · exact ⟨fun _ hne => absurd hnone hne, fun _ step hstep => absurd hstep List.not_mem_nil⟩
  · exact delegationSteps_fit own input hnone (length_plannedChildren cfg input replies.planner)

end Node

/-- A plan whose texts do not fit is rejected for the size of its input. -/
theorem swarmPlan_rejected (enc : Encoding) {cfg : AgentSwarmSettings} {runId rootTask : String}
    {history : List StoredMessage} {incoming : SwarmIncoming} (hid : byteLen (rootStepId runId) ≤ 96)
    (h : ¬ RootFits cfg runId rootTask history incoming) (externalWrite : ExternalWritePolicy) :
    (swarmPlan cfg runId rootTask history incoming).validateWithPolicy (limited enc) externalWrite =
      .error "workflow step input cannot exceed 8192 bytes" := by
  have hlarge : ¬ (rootStep cfg runId rootTask history incoming).input.jsonLen ≤ 8192 := mt (rootStep_fits ..).mp h
  have hblank : isBlank (rootStepId runId) = false := by
    unfold isBlank rootStepId
    rw [String.toList_append, List.all_append]
    exact Bool.and_eq_false_imp.mpr fun _ => by decide
  have hstep : (rootStep cfg runId rootTask history incoming).validate (limited enc) externalWrite [] =
      .error "workflow step input cannot exceed 8192 bytes" := by
    unfold WorkflowStep.validate
    have hown : (rootStep cfg runId rootTask history incoming).id = rootStepId runId := rfl
    have hfits : (limited enc).inputLen (rootStep cfg runId rootTask history incoming).input =
      (rootStep cfg runId rootTask history incoming).input.jsonLen := rfl
    rw [hown, hfits, hblank]
    simp only [hid, hlarge]
    rfl
  have hdeadline : 1 ≤ (swarmBudget cfg).deadlineSecs ∧ (swarmBudget cfg).deadlineSecs ≤ 86400 := by
    simp only [swarmBudget]
    omega
  have hcalls : (swarmBudget cfg).maxProviderCalls ≤ 64 := Nat.min_le_right _ _
  have hbytes : 1 ≤ (swarmBudget cfg).maxResponseBytes ∧ (swarmBudget cfg).maxResponseBytes ≤ 10485760 := by
    simp only [swarmBudget]
    omega
  unfold PlanGoalRequest.validateWithPolicy WorkflowSpec.validateWithPolicy swarmPlan
  simp only [validateSteps, hstep, hdeadline, hcalls, hbytes]
  rfl

/-- **The inputs of a run's plan and of a delegation are within the limit, and never rejected for their
size, exactly if the texts behind them fit.** -/
theorem swarm_inputs_fit (enc : Encoding) (cfg : AgentSwarmSettings) :
    (∀ runId rootTask history incoming, PlanFits enc (swarmPlan cfg runId rootTask history incoming) ↔
      RootFits cfg runId rootTask history incoming) ∧
    ∀ own input replies upstream, ExtensionFits enc (executeInner input replies cfg own upstream).steps ↔
      NodeFits own input (plannedChildren cfg input replies.planner) := by
  refine ⟨fun runId rootTask history incoming => ?_, fun own input replies upstream => ?_⟩
  · rw [planFits_iff, swarmPlan_fits]
  · rw [extensionFits_iff, executeInner_fits]

namespace SwarmSample

/-- The same character so many times. -/
def repeated (c : Char) (count : Nat) : String := String.ofList (List.replicate count c)

/-- Eight messages of 400 Chinese characters each. -/
def chat : List StoredMessage := List.replicate 8 ⟨.user, repeated '中' 400⟩

theorem jsonStringLen_repeated (c : Char) (count : Nat) :
    jsonStringLen (repeated c count) = 2 + count * jsonCharLen c := by
  unfold jsonStringLen repeated
  rw [String.toList_ofList, List.map_replicate, List.sum_replicate_nat]

theorem trim_repeated {c : Char} (hc : isWhitespace c = false) (count : Nat) :
    trim (repeated c count) = repeated c count := by
  unfold trim repeated
  rw [String.toList_ofList, List.dropWhile_replicate, hc, if_neg Bool.false_ne_true, List.reverse_replicate,
    List.dropWhile_replicate, hc, if_neg Bool.false_ne_true, List.reverse_replicate]

theorem isBlank_repeated {c : Char} (hc : isWhitespace c = false) (count : Nat) :
    isBlank (repeated c (count + 1)) = false := by
  unfold isBlank repeated
  rw [String.toList_ofList, List.replicate_succ, List.all_cons, hc, Bool.false_and]

theorem cutLen_repeated {c : Char} (hc : isWhitespace c = false) (count : Nat) :
    cutLen (repeated c count) count = 2 + count * jsonCharLen c := by
  have hcount : charCount (repeated c count) = count := by
    unfold charCount repeated
    rw [String.toList_ofList, List.length_replicate]
  unfold cutLen
  rw [trim_repeated hc, hcount, if_pos (Nat.le_refl _), jsonStringLen_repeated]

theorem messageLen_repeated {c : Char} (hc : isWhitespace c = false) :
    messageLen ⟨.user, repeated c 400⟩ = 29 + 400 * jsonCharLen c := by
  have huser : jsonStringLen MessageRole.user.asStr = 6 := by decide
  have hcut := cutLen_repeated hc 400
  have hlen : messageLen ⟨.user, repeated c 400⟩ =
    21 + jsonStringLen MessageRole.user.asStr + cutLen (repeated c 400) 400 := rfl
  omega

theorem historyLen_chat : historyLen chat = 9832 := by
  have hwide : jsonCharLen '中' = 3 := by decide
  have hmessage : messageLen ⟨.user, repeated '中' 400⟩ = 29 + 400 * jsonCharLen '中' :=
    messageLen_repeated (by decide)
  unfold historyLen chat
  rw [List.length_replicate, List.drop_zero, List.map_replicate, List.sum_replicate_nat, hmessage, hwide]
  rfl

theorem not_childFits (own : String) (input : SwarmNodeInput) (task : String) {count : Nat} (h : 8048 ≤ count) :
    ¬ ChildFits own input { task, roleDefinition := some (repeated 'a' (count + 1)) } := by
  have hrole : orDefault (some (repeated 'a' (count + 1))) "负责当前子任务并输出可交付结果。" =
      repeated 'a' (count + 1) := by
    unfold orDefault
    rw [Option.filter_some, isBlank_repeated (by decide) count]
    rfl
  have hletter : jsonCharLen 'a' = 1 := by decide
  have hlen := jsonStringLen_repeated 'a' (count + 1)
  unfold ChildFits
  rw [hrole, hlen, hletter]
  omega

end SwarmSample

/-- Eight messages of 400 Chinese characters leave the root's input too long, and a role of 9000 letters a
child's: the plan is rejected for it. -/
theorem swarm_inputs_overflow :
    ¬ (∀ cfg runId rootTask history incoming,
      InputsFit (swarmPlan cfg runId rootTask history incoming).workflow.steps) ∧
    (∀ enc externalWrite, (swarmPlan {} "run" "ship" SwarmSample.chat ⟨"telegram", "u1", "s1"⟩).validateWithPolicy
      (limited enc) externalWrite = .error "workflow step input cannot exceed 8192 bytes") ∧
    ¬ (∀ cfg own input replies upstream, InputsFit (executeInner input replies cfg own upstream).steps) := by
  have hroot : ¬ RootFits {} "run" "ship" SwarmSample.chat ⟨"telegram", "u1", "s1"⟩ := by
    unfold RootFits
    rw [SwarmSample.historyLen_chat]
    omega
  have hchild : ∀ roleDefinition, InputsFit (executeInner { task := "ship" }
      { planner := .delegate [{ task := "part", roleDefinition }] } {} "run:1" []).steps →
        ChildFits "run:1" { task := "ship" } { task := "part", roleDefinition } := by
    intro roleDefinition hsteps
    have hplanned : plannedChildren {} { task := "ship" } (.delegate [{ task := "part", roleDefinition }]) =
        [{ task := "part", roleDefinition }] := by
      have htask : isBlank "part" = false := by decide
      simp [plannedChildren, htask]
    rw [executeInner_fits, hplanned] at hsteps
    exact (hsteps (List.cons_ne_nil _ _)).1 _ List.mem_cons_self
  refine ⟨fun h => ?_, fun enc => swarmPlan_rejected enc (by decide) hroot, fun h => ?_⟩
  · exact hroot ((swarmPlan_fits ..).mp (h _ _ _ _ _))
  · exact SwarmSample.not_childFits _ _ _ (show 8048 ≤ 8999 by omega) (hchild _ (h _ _ _ _ _))

end Xiaomaolv
