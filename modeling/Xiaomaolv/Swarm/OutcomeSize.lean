import Xiaomaolv.Loop.Artifacts
import Xiaomaolv.Swarm.InputSize

/-!
# The size of what handlers make of a reply

A handler cuts the reply of its model, by characters or by bytes; the engine measures what it returns and
publishes in bytes of JSON.

* `truncateUtf8`, `ProviderAnalysis.execute`: the handler `provider_analysis`.
* `NodePlan.outcomes`: what a swarm node may return; `Node.RepliesFit`: the reply that it answers with leaves room for
  the rest of its evidence.
* `Node.outcomes_validate_iff`: a node's outcomes are valid exactly then; its report always is.
* `ProviderAnalysis.outcome_validate`: the outcome of an analysis is always valid;
  `ProviderAnalysis.report_validate_iff`: its report, exactly if the cut reply and the model's name leave room.
* **`handler_results_fit_iff`**: the results of both handlers are within the limits exactly if these replies are.
-/

namespace Xiaomaolv

/-! ## Validity of an outcome -/

/-- An id that an outcome or a report may hold. -/
def IsReference (id : String) : Prop := isBlank id = false ∧ byteLen id ≤ 160

theorem validate_limited_iff (enc : Encoding) (summary : String) (ids : List String) (evidence : Value) :
    (⟨summary, ids, evidence, none, none⟩ : WorkOutcome).validate (limited enc) = .ok () ↔
      charCount summary ≤ 8192 ∧ ids.length ≤ 64 ∧ (∀ id ∈ ids, IsReference id) ∧ evidence.jsonLen ≤ 16384 := by
  have hmeasured : (limited enc).inputLen evidence = evidence.jsonLen := rfl
  have hids : checkAll (fun id => ensure (!isBlank id && byteLen id ≤ 160) "artifact id must be 1..=160 bytes")
      ids = .ok () ↔ ∀ id ∈ ids, IsReference id := by
    rw [checkAll_eq_ok]
    simp only [ensure_eq_ok, Bool.and_eq_true, Bool.not_eq_true', decide_eq_true_eq, IsReference]
  have hchars : summary.length = charCount summary := String.length_toList.symm
  unfold WorkOutcome.validate
  simp only [hmeasured, hchars, bind_eq_ok, ensure_eq_ok, Option.isSome_none, Bool.and_self, Bool.not_false,
    decide_eq_true_eq]
  constructor
  · rintro ⟨_, -, _, -, _, hsummary, _, hcount, ⟨⟩, hchecked, hevidence⟩
    exact ⟨hsummary, hcount, hids.mp hchecked, hevidence⟩
  · rintro ⟨hsummary, hcount, hreferences, hevidence⟩
    exact ⟨(), trivial, (), trivial, (), hsummary, (), hcount, (), hids.mpr hreferences, hevidence⟩

theorem charCount_truncate (text : String) {maxChars : Nat} (h : 1 ≤ maxChars) :
    charCount (truncateSwarmText text maxChars) ≤ maxChars + 14 := by
  unfold truncateSwarmText charCount
  simp only
  split_ifs
  · omega
  · have hmark : "...(truncated)".toList.length = 14 := by decide
    rw [String.toList_append, List.length_append, takeChars, String.toList_ofList, List.length_take, hmark]
    omega

/-! ## The outcomes of a swarm node -/

/-- What a node may return: a delegation that is rejected leaves the other outcome. -/
def NodePlan.outcomes : NodePlan → List WorkOutcome
  | .done outcome => [outcome]
  | .delegate _ delegated otherwise => [delegated, otherwise]

namespace Node

variable (node : Node)

/-- An answer leaves room for its status and the names of the node. -/
def AnswerFits (answer status : String) : Prop :=
  jsonStringLen answer + jsonStringLen status + optionLen node.input.nickname + optionLen node.input.roleName +
    decimalLen node.input.depth ≤ 16329

/-- The text of a model call leaves room; without a text there is nothing to fit. -/
def ReplyFits : ModelReply → Prop
  | .text answer => node.AnswerFits answer "success"
  | .timeout | .failure => True

/-- What an aggregate answers: the merged text, else the answers of its children. -/
def MergeFits : ModelReply → Prop
  | .text merged => node.AnswerFits merged node.mergedStatus
  | .timeout | .failure => node.AnswerFits (joinedAnswers node.upstream) node.mergedStatus

/-- The reply that a node answers with leaves room: of its merge, of its planner, or of the call for an answer. -/
def RepliesFit (cfg : AgentSwarmSettings) (replies : Replies) : Prop :=
  match node.firstCall cfg with
  | .merge => node.MergeFits (replies.merge (node.upstream.map fun child => childJson child.1 child.2))
  | .answer => node.ReplyFits replies.answer
  | .planner =>
    match replies.planner with
    | .timeout => True
    | .answer text => if isBlank text then node.ReplyFits replies.answer else node.AnswerFits text "success"
    | .delegate _ | .unparsed | .failure => node.ReplyFits replies.answer

/-- The node is an item of a goal: its ids and its input are within the limits that it was planned under. -/
structure Planned : Prop where
  id : byteLen node.own ≤ 96
  input : ∃ value, SwarmNodeInput.ofValue value = some node.input ∧ value.jsonLen ≤ 8192
  runId : byteLen ("swarm-" ++ node.input.swarmRunId.getD "unknown") ≤ 160
  goalId : IsReference node.goalId

variable {node : Node}

theorem optionLen_le {key : String} {fields : Fields} {text : Option String}
    (h : SwarmNodeInput.defaulted SwarmNodeInput.readText none (fields.find key) = some text) :
    optionLen text ≤ 4 + fields.findLen key := by
  unfold Fields.findLen
  cases hfind : fields.find key with
  | none =>
    rw [hfind] at h
    cases h
    exact Nat.le_add_right ..
  | some v =>
    rw [hfind] at h
    cases v with
    | null =>
      cases h
      exact Nat.le_add_right ..
    | string s =>
      cases h
      exact Nat.le_add_left ..
    | bool | int | float | array | object => cases h

theorem decimalLen_le {fields : Fields} {depth : Nat}
    (h : SwarmNodeInput.defaulted Value.asU64 0 (fields.find "depth") = some depth) :
    decimalLen depth ≤ 1 + fields.findLen "depth" := by
  unfold Fields.findLen
  cases hfind : fields.find "depth" with
  | none =>
    rw [hfind] at h
    cases h
    exact Nat.le_add_right ..
  | some v =>
    rw [hfind] at h
    cases v with
    | int n =>
      simp only [SwarmNodeInput.defaulted, Value.asU64, Option.ite_none_right_eq_some, Option.some.injEq] at h
      obtain ⟨⟨hpos, -⟩, rfl⟩ := h
      have hn : n = (n.toNat : Int) := (Int.toNat_of_nonneg hpos).symm
      have hlen : (Value.int n).jsonLen = decimalLen n.toNat := by
        rw [hn, jsonLen_ofNat, ← hn]
      rw [Option.map_some, Option.getD_some, hlen]
      exact Nat.le_add_left ..
    | null | bool | float | string | array | object => cases h

theorem ofValue_names {value : Value} {input : SwarmNodeInput} (h : SwarmNodeInput.ofValue value = some input) :
    (∃ task, value.get "task" = some task) ∧
      SwarmNodeInput.defaulted SwarmNodeInput.readText none (value.get "role_name") = some input.roleName ∧
      SwarmNodeInput.defaulted SwarmNodeInput.readText none (value.get "nickname") = some input.nickname ∧
      SwarmNodeInput.defaulted Value.asU64 0 (value.get "depth") = some input.depth := by
  unfold SwarmNodeInput.ofValue at h
  obtain ⟨text, htext, h⟩ := Option.bind_eq_some_iff.mp h
  obtain ⟨task, htask, -⟩ := Option.bind_eq_some_iff.mp htext
  obtain ⟨roleName, hrole, h⟩ := Option.bind_eq_some_iff.mp h
  obtain ⟨_, -, h⟩ := Option.bind_eq_some_iff.mp h
  obtain ⟨nickname, hnickname, h⟩ := Option.bind_eq_some_iff.mp h
  obtain ⟨depth, hdepth, h⟩ := Option.bind_eq_some_iff.mp h
  -- The other fields do not matter.
  iterate 9 obtain ⟨_, -, h⟩ := Option.bind_eq_some_iff.mp h
  cases h
  exact ⟨⟨task, htask⟩, hrole, hnickname, hdepth⟩

theorem names_fit (h : node.Planned) :
    optionLen node.input.nickname + optionLen node.input.roleName + decimalLen node.input.depth ≤ 8201 := by
  obtain ⟨value, hvalue, hlen⟩ := h.input
  obtain ⟨⟨task, htask⟩, hrole, hnickname, hdepth⟩ := ofValue_names hvalue
  cases value with
  | object fields =>
    have hkeys : ["nickname", "role_name", "depth"].Nodup := by decide
    have hsum := fields.sum_findLen_le hkeys
    have hobject : (Value.object fields).jsonLen = 2 + fields.jsonLen := rfl
    have hnick := optionLen_le hnickname
    have hroleLen := optionLen_le hrole
    have hdepthLen := decimalLen_le hdepth
    simp only [List.map_cons, List.map_nil, List.sum_cons, List.sum_nil] at hsum
    omega
  | null | bool | int | float | string | array => cases htask

/-! ### Answers -/

variable {replies : Replies} {cfg : AgentSwarmSettings}

-- A cut text is never computed here, only measured.
attribute [local irreducible] truncateSwarmText

theorem swarmNodeOutcome_validate (enc : Encoding) (answer status : String) {ids : List String}
    (hcount : ids.length ≤ 64) (hids : ∀ id ∈ ids, IsReference id) :
    ({ swarmNodeOutcome node.input answer status with artifactIds := ids }).validate (limited enc) = .ok () ↔
      node.AnswerFits answer status := by
  have hsummary : charCount (truncateSwarmText answer 240) ≤ 8192 := by
    have hcut := charCount_truncate answer (show 1 ≤ 240 by omega)
    omega
  have hkeys : jsonStringLen "answer" = 8 ∧ jsonStringLen "status" = 8 ∧ jsonStringLen "nickname" = 10 ∧
      jsonStringLen "role_name" = 11 ∧ jsonStringLen "depth" = 7 := by decide
  have hevidence : (swarmNodeOutcome node.input answer status).evidence.jsonLen ≤ 16384 ↔
      node.AnswerFits answer status := by
    unfold swarmNodeOutcome AnswerFits
    simp only [Value.jsonLen_json, List.map_cons, List.map_nil, List.sum_cons, List.sum_nil, Value.jsonLen_string,
      jsonLen_ofNat, jsonLen_ofOption]
    omega
  unfold swarmNodeOutcome at hevidence ⊢
  rw [validate_limited_iff]
  exact ⟨fun h => hevidence.mp h.2.2.2, fun h => ⟨hsummary, hcount, hids, hevidence.mpr h⟩⟩

theorem terminal_validate (enc : Encoding) (hpublished : ∀ id ∈ replies.published, IsReference id)
    (answer status : String) :
    (maybePublishTerminalArtifact node.input replies (swarmNodeOutcome node.input answer status)).validate
      (limited enc) = .ok () ↔ node.AnswerFits answer status := by
  have hanswer : (((swarmNodeOutcome node.input answer status).evidence.get "answer").bind Value.asStr).getD "" =
    answer := rfl
  have hnone : (swarmNodeOutcome node.input answer status).artifactIds = [] := rfl
  unfold maybePublishTerminalArtifact
  simp only [hanswer, hnone, List.nil_append]
  split_ifs
  · exact swarmNodeOutcome_validate enc answer status (Nat.zero_le _) fun id hid => absurd hid List.not_mem_nil
  · refine swarmNodeOutcome_validate enc answer status ?_ fun id hid => hpublished id (Option.mem_toList.mp hid)
    cases replies.published with
    | none => exact Nat.zero_le _
    | some id => exact Nat.succ_le_of_lt (by decide)

theorem answerFits_empty (h : node.Planned) {status : String} (hstatus : jsonStringLen status ≤ 9) :
    node.AnswerFits "" status := by
  have hnames := names_fit h
  have hempty : jsonStringLen "" = 2 := rfl
  unfold AnswerFits
  omega

theorem asked_validate (enc : Encoding) (h : node.Planned) (hpublished : ∀ id ∈ replies.published, IsReference id)
    {direct : Option String} (hdirect : direct.filter (fun answer => !isBlank answer) = none) :
    (answerOutcome node.input replies direct).validate (limited enc) = .ok () ↔ node.ReplyFits replies.answer := by
  unfold answerOutcome
  rw [hdirect]
  simp only
  cases replies.answer with
  | text answer => exact terminal_validate enc hpublished answer "success"
  | timeout =>
    rw [terminal_validate enc hpublished]
    exact iff_of_true (answerFits_empty h (by decide)) trivial
  | failure =>
    rw [terminal_validate enc hpublished]
    exact iff_of_true (answerFits_empty h (by decide)) trivial

theorem merge_validate (enc : Encoding) (hpublished : ∀ id ∈ replies.published, IsReference id) :
    (aggregateOutcome node.input replies node.upstream).validate (limited enc) = .ok () ↔
      node.MergeFits (replies.merge (node.upstream.map fun child => childJson child.1 child.2)) := by
  unfold aggregateOutcome
  simp only
  cases replies.merge (node.upstream.map fun child => childJson child.1 child.2) with
  | text merged => exact terminal_validate enc hpublished merged _
  | timeout => exact terminal_validate enc hpublished _ _
  | failure => exact terminal_validate enc hpublished _ _

/-! ### Delegations -/

theorem delegatedOutcome_validate (enc : Encoding) (h : node.Planned) {count : Nat} (hpos : 1 ≤ count)
    (hle : count ≤ 4) : (delegatedOutcome node.own node.input count).validate (limited enc) = .ok () := by
  have hnames := names_fit h
  have hown := jsonStringLen_le node.own
  have hchars := charCount_le_byteLen node.own
  have hbytes := h.id
  have hagg := jsonStringLen_append node.own ".agg"
  have hmark : jsonStringLen ".agg" = 6 := by decide
  have hkeys : jsonStringLen "delegated" = 11 ∧ jsonStringLen "status" = 8 ∧ jsonStringLen "success" = 9 ∧
      jsonStringLen "aggregate_step_id" = 19 ∧ jsonStringLen "children_step_ids" = 19 ∧
      jsonStringLen "nickname" = 10 ∧ jsonStringLen "role_name" = 11 ∧ jsonStringLen "depth" = 7 := by decide
  have hchildren : count * (jsonStringLen node.own + 4) ≤ 4 * (jsonStringLen node.own + 4) :=
    Nat.mul_le_mul_right _ hle
  unfold delegatedOutcome aggregateStepId
  rw [validate_limited_iff]
  refine ⟨?_, Nat.zero_le _, fun id hid => absurd hid List.not_mem_nil, ?_⟩
  · have hshort : ∀ n < 5, charCount ("delegated to " ++ toString n ++ " children") ≤ 8192 := by decide
    exact hshort count (by omega)
  · simp only [Value.jsonLen_json, List.map_cons, List.map_nil, List.sum_cons, List.sum_nil, Value.jsonLen_string,
      Value.jsonLen_bool, jsonLen_ofNat, jsonLen_ofOption, jsonLen_childStepIds node.own hpos hle, if_true]
    omega

/-! ### All outcomes -/

variable (enc : Encoding) (cfg replies)

/-- **What a node returns is valid exactly if the reply that it answers with leaves room.** -/
theorem outcomes_validate_iff (h : node.Planned) (hpublished : ∀ id ∈ replies.published, IsReference id) :
    (∀ o ∈ (executeInner node.input replies cfg node.own node.upstream).outcomes,
      o.validate (limited enc) = .ok ()) ↔ node.RepliesFit cfg replies := by
  have hblank : (some "").filter (fun answer => !isBlank answer) = none := rfl
  unfold executeInner RepliesFit firstCall isAggregate
  by_cases hagg : node.input.mode = some "aggregate"
  · simp only [hagg, if_true, decide_true, NodePlan.outcomes, List.forall_mem_singleton]
    exact merge_validate enc hpublished
  by_cases hdepth : max cfg.maxDepth 1 ≤ node.input.depth
  · simp only [hagg, hdepth, if_true, if_false, decide_false, Bool.false_eq_true, NodePlan.outcomes,
      List.forall_mem_singleton]
    exact asked_validate enc h hpublished hblank
  simp only [hagg, hdepth, if_false, decide_false, Bool.false_eq_true]
  cases replies.planner with
  | timeout =>
    simp only [NodePlan.outcomes, List.forall_mem_singleton, iff_true]
    exact (swarmNodeOutcome_validate enc "" "timeout" (Nat.zero_le _) fun id hid => absurd hid List.not_mem_nil).mpr
      (answerFits_empty h (by decide))
  | failure | unparsed =>
    simp only [NodePlan.outcomes, List.forall_mem_singleton]
    exact asked_validate enc h hpublished hblank
  | answer text =>
    simp only [NodePlan.outcomes, List.forall_mem_singleton]
    split_ifs with hempty
    · exact asked_validate enc h hpublished (by rw [Option.filter_some, hempty]; rfl)
    · unfold answerOutcome
      rw [Option.filter_some, if_pos (by simpa using hempty)]
      exact terminal_validate enc hpublished text "success"
  | delegate children =>
    simp only
    have hlen : ((children.filter fun child => !isBlank child.task).take 4).length ≤ 4 := by
      rw [List.length_take]
      exact Nat.min_le_left _ _
    generalize (children.filter fun child => !isBlank child.task).take 4 = scheduled at hlen
    split_ifs with hnone
    · simp only [NodePlan.outcomes, List.forall_mem_singleton]
      exact asked_validate enc h hpublished rfl
    · have hpos : 1 ≤ scheduled.length := List.length_pos_iff.mpr (by simpa using hnone)
      have hnothing : Option.filter (fun answer => !isBlank answer) none = none := rfl
      simp only [NodePlan.outcomes, List.forall_mem_cons]
      rw [and_iff_right (delegatedOutcome_validate enc h hpos hlen), asked_validate enc h hpublished hnothing]
      exact and_iff_left fun o ho => absurd ho List.not_mem_nil

end Node

/-! ## The analysis of a goal -/

/-- The characters that fit into the first bytes. -/
def fitting : Nat → List Char → List Char
  | _, [] => []
  | maxBytes, c :: cs => if c.utf8Size ≤ maxBytes then c :: fitting (maxBytes - c.utf8Size) cs else []

/-- `truncate_utf8`: the value up to the last character boundary. -/
def truncateUtf8 (value : String) (maxBytes : Nat) : String :=
  if byteLen value ≤ maxBytes then value else String.ofList (fitting maxBytes value.toList)

namespace ProviderAnalysis

def evidence : Value := .json [("artifact_kind", .string "analysis_report")]

/-- What is published of a reply. -/
def report (claim : WorkClaim) (response model : String) : PublishArtifactRequest where
  kind := "analysis_report"
  name := "goal-analysis"
  version := claim.workItem.id
  content := .json [("analysis", .string (truncateUtf8 response 24000)), ("model", .string model)]
  sourceGoalId := some claim.attempt.goalId
  parentArtifactId := none

/-- What is returned of a reply. -/
def outcome (response artifactId : String) : WorkOutcome where
  summary := truncateUtf8 response 8000
  artifactIds := [artifactId]
  evidence := evidence

/-- What is returned of an earlier attempt. -/
def reused (artifactId : String) : WorkOutcome where
  summary := "reused durable analysis artifact"
  artifactIds := [artifactId]
  evidence := evidence

/-- `execute` of the handler `provider_analysis`; `complete` is its model call, with the reservation, the accounting
of the reply and its frame. -/
def execute (codec : ArtifactCodec) (claim : WorkClaim) (complete : String → Except String String)
    (modelName : Option String) (id : String) (r : Registry) : Except String (WorkOutcome × Registry) := do
  match ← r.findArtifact codec "analysis_report" "goal-analysis" claim.workItem.id with
  | some existing => pure (reused existing.id, r)
  | none =>
    let objective ← context ((claim.workItem.input.get "objective").bind Value.asStr)
      "provider_analysis requires input.objective"
    let response ← complete objective
    let (published, r') ← r.publishArtifact codec (report claim response (modelName.getD "unknown"))
      "handler:provider_analysis" id
    pure (outcome response published.artifact.id, r')

/-- The cut reply and the name of the model leave room for what stands around them. -/
def Fits (response model : String) : Prop :=
  jsonStringLen (truncateUtf8 response 24000) + jsonStringLen model ≤ 32746

/-- The ids of the claim are within the limits of an artifact. -/
structure Planned (claim : WorkClaim) : Prop where
  workId : isBlank claim.workItem.id = false ∧ byteLen claim.workItem.id ≤ 80
  goalId : IsReference claim.attempt.goalId

theorem length_fitting_le : ∀ (maxBytes : Nat) (cs : List Char), (fitting maxBytes cs).length ≤ maxBytes
  | _, [] => Nat.zero_le _
  | maxBytes, c :: cs => by
    have hrest := length_fitting_le (maxBytes - c.utf8Size) cs
    have hpos := c.utf8Size_pos
    unfold fitting
    split_ifs with hfits
    · rw [List.length_cons]
      omega
    · exact Nat.zero_le _

theorem charCount_truncateUtf8 (value : String) (maxBytes : Nat) : charCount (truncateUtf8 value maxBytes) ≤ maxBytes := by
  have hchars := charCount_le_byteLen value
  unfold truncateUtf8
  split_ifs
  · omega
  · unfold charCount
    rw [String.toList_ofList]
    exact length_fitting_le maxBytes value.toList

theorem outcome_validate (enc : Encoding) (response : String) {id : String} (hid : IsReference id) :
    (outcome response id).validate (limited enc) = .ok () := by
  have hsummary := charCount_truncateUtf8 response 8000
  have hevidence : evidence.jsonLen ≤ 16384 := by decide
  unfold outcome
  rw [validate_limited_iff]
  refine ⟨by omega, Nat.succ_le_of_lt (by decide), fun other hother => ?_, hevidence⟩
  rw [List.mem_singleton.mp hother]
  exact hid

theorem report_validate_iff {claim : WorkClaim} (h : Planned claim) (response model : String) :
    (report claim response model).validate = .ok () ↔ Fits response model := by
  have hkeys : jsonStringLen "analysis" = 10 ∧ jsonStringLen "model" = 7 := by decide
  have hname : isBlank "goal-analysis" = false ∧ byteLen "goal-analysis" ≤ 160 := by decide
  have hkind : "analysis_report" ≠ "prompt_policy_ref" := by decide
  have hsize : (report claim response model).content.jsonLen ≤ 32768 ↔ Fits response model := by
    unfold report Fits
    simp only [Value.jsonLen_json, List.map_cons, List.map_nil, List.sum_cons, List.sum_nil, Value.jsonLen_string]
    omega
  have hparts : (report claim response model).name = "goal-analysis" ∧
      (report claim response model).version = claim.workItem.id ∧
      (report claim response model).kind = "analysis_report" ∧
      (report claim response model).sourceGoalId = some claim.attempt.goalId ∧
      (report claim response model).parentArtifactId = none := ⟨rfl, rfl, rfl, rfl, rfl⟩
  rw [← hsize]
  unfold PublishArtifactRequest.validate
  rw [hparts.1, hparts.2.1, hparts.2.2.1, hparts.2.2.2.1, hparts.2.2.2.2, if_neg hkind]
  simp only [bind_eq_ok, checkReference, ensure_eq_ok, hname, h.workId, h.goalId.1, h.goalId.2, Bool.not_false,
    decide_eq_true_eq, Bool.and_self, decide_true]
  constructor
  · rintro ⟨_, -, _, -, _, hlen, -⟩
    exact hlen
  · intro hlen
    exact ⟨(), trivial, (), trivial, (), hlen, (), trivial, (), trivial, trivial⟩

end ProviderAnalysis

/-- **The outcomes and the reports of a swarm node and of an analysis are within their limits exactly if the replies
leave room**: the reply that the node answers with as a whole, the analysed one as far as it is kept. -/
theorem handler_results_fit_iff (enc : Encoding) (cfg : AgentSwarmSettings) :
    (∀ (node : Node) (replies : Replies), node.Planned → (∀ id ∈ replies.published, IsReference id) →
      ((∀ o ∈ (executeInner node.input replies cfg node.own node.upstream).outcomes,
          o.validate (limited enc) = .ok ()) ∧ (∀ answer, (node.report answer).validate = .ok ()) ↔
        node.RepliesFit cfg replies)) ∧
    ∀ (claim : WorkClaim) (response model id : String), ProviderAnalysis.Planned claim → IsReference id →
      ((ProviderAnalysis.outcome response id).validate (limited enc) = .ok () ∧
          (ProviderAnalysis.report claim response model).validate = .ok () ↔
        ProviderAnalysis.Fits response model) := by
  refine ⟨fun node replies hnode hpublished => ?_, fun claim response model id hclaim hid => ?_⟩
  · rw [Node.outcomes_validate_iff replies cfg enc hnode hpublished]
    exact and_iff_left fun answer => (Node.report_validate answer).mpr ⟨hnode.runId, hnode.goalId⟩
  · rw [ProviderAnalysis.report_validate_iff hclaim]
    exact and_iff_right (ProviderAnalysis.outcome_validate enc response hid)

namespace SwarmSample

/-- The root of a run, asked for an answer. -/
def writer : Node where
  goalId := "goal"
  own := "run:1"
  input := { task := "ship", swarmRunId := some "run", swarmRoot := true }
  upstream := []

theorem writer_planned : writer.Planned where
  id := by decide
  input := by
    refine ⟨.json [("task", .string "ship"), ("swarm_run_id", .string "run"), ("swarm_root", .bool true)], ?_, ?_⟩
    · decide
    · decide
  runId := by decide
  goalId := by
    unfold IsReference
    decide

/-- The planner says nothing, and the model answers. -/
def answering (text : String) : Replies where
  answer := .text text
  published := some "artifact"

theorem isReference_artifact (text : String) : ∀ id ∈ (answering text).published, IsReference id := by
  intro id hid
  cases Option.mem_some.mp hid
  unfold IsReference
  decide

theorem analysis_planned : ProviderAnalysis.Planned (Sample.firstClaim "lease" "attempt") where
  workId := by decide
  goalId := by
    unfold IsReference
    decide

theorem handler_results_fit_short :
    ((∀ o ∈ (executeInner writer.input (answering "done") {} writer.own writer.upstream).outcomes,
        o.validate (limited encoding) = .ok ()) ∧ ∀ answer, (writer.report answer).validate = .ok ()) ∧
      (ProviderAnalysis.outcome "done" "artifact").validate (limited encoding) = .ok () ∧
        (ProviderAnalysis.report (Sample.firstClaim "lease" "attempt") "done" "model").validate = .ok () := by
  have hreference : IsReference "artifact" := isReference_artifact "done" _ rfl
  have hfits := handler_results_fit_iff encoding {}
  refine ⟨(hfits.1 writer (answering "done") writer_planned (isReference_artifact "done")).mpr ?_,
    (hfits.2 _ "done" "model" "artifact" analysis_planned hreference).mpr ?_⟩
  · change writer.AnswerFits "done" "success"
    unfold Node.AnswerFits
    decide
  · unfold ProviderAnalysis.Fits
    decide

theorem byteLen_repeated (c : Char) (count : Nat) : byteLen (repeated c count) = count * c.utf8Size := by
  unfold byteLen repeated
  induction count with
  | zero => rw [Nat.zero_mul]; rfl
  | succ count ih =>
    rw [List.replicate_succ, String.ofList_cons, String.utf8ByteSize_append, String.utf8ByteSize_singleton, ih,
      Nat.succ_mul, Nat.add_comm]

theorem repliesFit_writer (text : String) :
    writer.RepliesFit {} (answering text) ↔ writer.AnswerFits text "success" := Iff.rfl

/-- An answer of 17000 letters makes an outcome that is not valid, and an analysis of 6000 control characters a
report that is not. -/
theorem handler_results_overflow :
    ¬ (∀ o ∈ (executeInner writer.input (answering (repeated 'a' 17000)) {} writer.own writer.upstream).outcomes,
      o.validate (limited encoding) = .ok ()) ∧
    (ProviderAnalysis.report (Sample.firstClaim "lease" "attempt") (repeated '\u0001' 6000) "model").validate ≠
      .ok () := by
  have hanswer := jsonStringLen_repeated 'a' 17000
  have hanalysis := jsonStringLen_repeated '\u0001' 6000
  have hbytes := byteLen_repeated '\u0001' 6000
  have hletter : jsonCharLen 'a' = 1 := by decide
  have hcontrol : jsonCharLen '\u0001' = 6 ∧ '\u0001'.utf8Size = 1 := by decide
  generalize repeated 'a' 17000 = answer at *
  generalize repeated '\u0001' 6000 = analysis at *
  refine ⟨fun h => ?_, fun h => ?_⟩
  · have hfits := (Node.outcomes_validate_iff _ _ encoding writer_planned (isReference_artifact answer)).mp h
    rw [repliesFit_writer, Node.AnswerFits] at hfits
    omega
  · have hfits := (ProviderAnalysis.report_validate_iff analysis_planned _ _).mp h
    rw [ProviderAnalysis.Fits, truncateUtf8, if_pos (by omega)] at hfits
    omega

end SwarmSample

end Xiaomaolv
