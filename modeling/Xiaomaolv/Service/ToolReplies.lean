import Xiaomaolv.Service.JsonPayload
import Xiaomaolv.Service.Turn

/-!
# Replies that state a tool call

Two readers decide whether a reply is a tool call. The tool loop reads the JSON in it and falls back to keywords; the
output verifier looks at the keys of a reply that is JSON, and at quoted keys in one that is not.

* `StatesCall`: the shapes in which a value states a call; **`parseToolCallValue_isSome_iff`**.
* `HasKeywords`: the words that let the loop ask for a repair.
* **`finalAnswer_unflagged_iff`**: the replies on which the two readers agree.
-/

namespace Xiaomaolv

/-! ## The shapes of a call -/

/-- The fields name a server and a tool, or both in one name. -/
def NamesTool (fields : Fields) : Prop :=
  (∃ server tool, fields.find "server" = some (.string server) ∧ fields.find "tool" = some (.string tool)) ∨
    ∃ name, fields.find "name" = some (.string name) ∧ ([':', ':'] <:+: name.toList ∨ ['/'] <:+: name.toList)

/-- The value states a call: in a wrapper, as the first item of an array, or by its own fields. -/
inductive StatesCall : Value → Prop
  | toolCall {fields : Fields} {inner : Value} (hin : fields.find "tool_call" = some inner) (h : StatesCall inner) :
    StatesCall (.object fields)
  | mcpToolCall {fields : Fields} {inner : Value} (hno : fields.find "tool_call" = none)
      (hin : fields.find "mcp_tool_call" = some inner) (h : StatesCall inner) : StatesCall (.object fields)
  | item {v : Value} {values : Values} (h : StatesCall v) : StatesCall (.array (.cons v values))
  | fields {fields : Fields} (hno : fields.find "tool_call" = none) (hno' : fields.find "mcp_tool_call" = none)
      (h : NamesTool fields) : StatesCall (.object fields)

theorem splitOnce_isSome_iff {pattern : List Char} (hne : pattern ≠ []) (text : List Char) :
    (splitOnce pattern text).isSome ↔ pattern <:+: text := by
  induction text with
  | nil => simp [splitOnce, hne]
  | cons c text ih =>
    rw [splitOnce, List.infix_cons_iff, ← List.isPrefixOf_iff_prefix, ← ih]
    split_ifs with hpre
    · simp [hpre]
    · simp [hpre]

theorem bind_asStr_eq_some {v : Option Value} {s : String} : v.bind Value.asStr = some s ↔ v = some (.string s) := by
  cases v with
  | none => simp
  | some v => cases v <;> simp [Value.asStr]

theorem parseToolCallFields_isSome_iff (fields : Fields) : (parseToolCallFields fields).isSome ↔ NamesTool fields := by
  rw [parseToolCallFields, NamesTool]
  simp only [← bind_asStr_eq_some]
  have hname : ∀ name : String, (([':', ':'] <:+: name.toList ∨ ['/'] <:+: name.toList) ↔
      ((splitOnce [':', ':'] name.toList).or (splitOnce ['/'] name.toList)).isSome) := by
    intro name
    rw [Option.isSome_or, Bool.or_eq_true, splitOnce_isSome_iff (by simp), splitOnce_isSome_iff (by simp)]
  cases hserver : (fields.find "server").bind Value.asStr with
  | some server =>
    cases htool : (fields.find "tool").bind Value.asStr with
    | some tool => simp
    | none =>
      cases hn : (fields.find "name").bind Value.asStr with
      | none => simp
      | some name => simp [hname]
  | none =>
    cases hn : (fields.find "name").bind Value.asStr with
    | none => simp
    | some name => simp [hname]

mutual

theorem statesCall_of_parse : ∀ v : Value, (parseToolCallValue v).isSome → StatesCall v
  | .object fields, h => by
    rw [parseToolCallValue, parseToolCallIn_eq, parseToolCallIn_eq] at h
    cases hin : fields.find "tool_call" with
    | some inner =>
      rw [hin] at h
      exact .toolCall hin (statesCall_of_find fields "tool_call" inner hin h)
    | none =>
      rw [hin] at h
      cases hin' : fields.find "mcp_tool_call" with
      | some inner =>
        rw [hin'] at h
        exact .mcpToolCall hin hin' (statesCall_of_find fields "mcp_tool_call" inner hin' h)
      | none =>
        rw [hin'] at h
        exact .fields hin hin' ((parseToolCallFields_isSome_iff fields).mp h)
  | .array values, h => by
    rw [parseToolCallValue] at h
    exact statesCall_of_first values h
  | .null, h => by cases h
  | .bool _, h => by cases h
  | .int _, h => by cases h
  | .float _, h => by cases h
  | .string _, h => by cases h

theorem statesCall_of_find : ∀ (fields : Fields) (key : String) (inner : Value), fields.find key = some inner →
    (parseToolCallValue inner).isSome → StatesCall inner
  | .nil, _, _, hin, _ => by cases hin
  | .cons k v fields, key, inner, hin, h => by
    rw [Fields.find] at hin
    split_ifs at hin with hk
    · obtain rfl := Option.some.inj hin
      exact statesCall_of_parse v h
    · exact statesCall_of_find fields key inner hin h

theorem statesCall_of_first : ∀ values : Values, (parseToolCallFirst values).isSome → StatesCall (.array values)
  | .nil, h => by cases h
  | .cons v _, h => by
    rw [parseToolCallFirst] at h
    exact .item (statesCall_of_parse v h)

end

/-- **A call is read from exactly the values that state one.** -/
theorem parseToolCallValue_isSome_iff (v : Value) : (parseToolCallValue v).isSome ↔ StatesCall v := by
  refine ⟨statesCall_of_parse v, fun h => ?_⟩
  induction h with
  | toolCall hin _ ih =>
    rw [parseToolCallValue, parseToolCallIn_eq, hin]
    exact ih
  | mcpToolCall hno hin _ ih =>
    rw [parseToolCallValue, parseToolCallIn_eq, parseToolCallIn_eq, hno, hin]
    exact ih
  | item _ ih =>
    rw [parseToolCallValue, parseToolCallFirst]
    exact ih
  | fields hno hno' h =>
    rw [parseToolCallValue, parseToolCallIn_eq, parseToolCallIn_eq, hno, hno']
    exact (parseToolCallFields_isSome_iff _).mpr h

/-! ## Keywords -/

theorem contains_iff {s pattern : String} : contains s pattern ↔ pattern.toList <:+: s.toList := by
  rw [contains, List.any_eq_true, List.infix_iff_prefix_suffix]
  simp only [List.mem_tails, List.isPrefixOf_iff_prefix]
  exact exists_congr fun t => and_comm

theorem contains_trim {s pattern : String} (h : contains (trim s) pattern) : contains s pattern := by
  obtain ⟨lead, trail, -, -, hsplit⟩ := trim_split s
  rw [contains_iff] at h ⊢
  exact h.trans ⟨lead, trail, by rw [hsplit, List.append_assoc]⟩

theorem contains_lowercase {s pattern : String} (h : contains s pattern) :
    contains (toAsciiLowercase s) (toAsciiLowercase pattern) := by
  rw [contains_iff] at h ⊢
  rw [toAsciiLowercase, toAsciiLowercase, String.toList_ofList, String.toList_ofList]
  exact h.map Char.toLower

theorem contains_of_isInfix {s pattern part : String} (h : contains s pattern) (hpart : part.toList <:+: pattern.toList) :
    contains s part := by
  rw [contains_iff] at h ⊢
  exact hpart.trans h

/-- The words that let the loop ask for a repair. -/
def HasKeywords (reply : String) : Prop :=
  contains (toAsciiLowercase reply) "tool_call" ∨ contains (toAsciiLowercase reply) "tool" ∧
    (contains (toAsciiLowercase reply) "server" ∨ contains (toAsciiLowercase reply) "arguments")

theorem looksLikeAttempted_iff (reply : String) : looksLikeAttemptedMcpToolCall reply ↔ HasKeywords reply := by
  have hmcp : contains (toAsciiLowercase reply) "mcp_tool_call" → contains (toAsciiLowercase reply) "tool_call" :=
    fun h => contains_of_isInfix h (by decide)
  simp only [looksLikeAttemptedMcpToolCall, HasKeywords, Bool.or_eq_true, Bool.and_eq_true]
  constructor
  · rintro (((h | h) | ⟨hserver, htool⟩) | ⟨harguments, htool⟩)
    · exact Or.inl h
    · exact Or.inl (hmcp h)
    · exact Or.inr ⟨htool, Or.inl hserver⟩
    · exact Or.inr ⟨htool, Or.inr harguments⟩
  · rintro (h | ⟨htool, hserver | harguments⟩)
    · exact Or.inl (Or.inl (Or.inl h))
    · exact Or.inl (Or.inr ⟨hserver, htool⟩)
    · exact Or.inr ⟨harguments, htool⟩

theorem hasKeywords_of_quoted {reply : String} (h : contains (trim reply) "MCP_TOOL_CALL_JSON" ∨
    contains (trim reply) "\"server\"" ∧ contains (trim reply) "\"tool\"") : HasKeywords reply := by
  rcases h with h | ⟨hserver, htool⟩
  · exact Or.inl (contains_of_isInfix (contains_lowercase (contains_trim h)) (by decide))
  · refine Or.inr ⟨?_, Or.inl ?_⟩
    · exact contains_of_isInfix (contains_lowercase (contains_trim htool)) (by decide)
    · exact contains_of_isInfix (contains_lowercase (contains_trim hserver)) (by decide)

/-! ## The two readers -/

section Readers

variable {json : SerdeJson} {reply : String}

theorem unreadable_eq_finalAnswer {code message : String} :
    unreadable reply code message = .finalAnswer ↔ ¬ HasKeywords reply := by
  rw [unreadable, ← looksLikeAttempted_iff]
  split_ifs with h <;> simp [h]

theorem not_flagged_of_error {err : String} (herr : json.fromStr (trim reply) = .error err) (h : ¬ HasKeywords reply) :
    looksLikeUnresolvedToolCall json reply = false := by
  rw [Bool.eq_false_iff, ne_eq]
  intro hflag
  simp only [looksLikeUnresolvedToolCall, herr, Bool.or_eq_true, Bool.and_eq_true] at hflag
  exact h (hasKeywords_of_quoted (hflag.imp_right fun h => h.1))

theorem finalAnswer_of_ok {value : Value} (hempty : ¬ (json.fromStr "").isOk) (hok : json.fromStr (trim reply) = .ok value) :
    parseToolCallAttempt json reply = .finalAnswer ↔ ¬ StatesCall value ∧ ¬ HasKeywords reply := by
  have hfull : (trim reply).isEmpty = false := by
    rw [Bool.eq_false_iff, ne_eq, String.isEmpty_iff]
    intro h
    rw [h] at hok
    exact hempty (by rw [hok]; rfl)
  have hpayload : extractJsonPayload json (trim reply) = some (trim reply) := by
    rw [extractJsonPayload, trim_of_trimmed (trimmed_trim reply)]
    simp only [hfull, hok, Bool.false_eq_true, if_false]
    rfl
  rw [parseToolCallAttempt, hpayload, ← parseToolCallValue_isSome_iff]
  simp only [hok]
  cases hcall : parseToolCallValue value with
  | some call => simp
  | none => simp [unreadable_eq_finalAnswer]

theorem finalAnswer_keywords (h : parseToolCallAttempt json reply = .finalAnswer) : ¬ HasKeywords reply := by
  rw [parseToolCallAttempt] at h
  cases hpayload : extractJsonPayload json (trim reply) with
  | none =>
    rw [hpayload] at h
    exact unreadable_eq_finalAnswer.mp h
  | some text =>
    rw [hpayload] at h
    simp only at h
    cases hparse : json.fromStr text with
    | error err =>
      rw [hparse] at h
      exact unreadable_eq_finalAnswer.mp h
    | ok value =>
      rw [hparse] at h
      simp only at h
      cases hcall : parseToolCallValue value with
      | some call =>
        rw [hcall] at h
        cases h
      | none =>
        rw [hcall] at h
        exact unreadable_eq_finalAnswer.mp h

/-- **The two readers agree** on a reply unless it is JSON with the keys of a call, states no call in a shape that the
loop reads, and has none of the keywords: the loop ends its turn with it, and the verifier rejects it. -/
theorem finalAnswer_unflagged_iff (json : SerdeJson) (hempty : ¬ (json.fromStr "").isOk) (reply : String) :
    (parseToolCallAttempt json reply = .finalAnswer → looksLikeUnresolvedToolCall json reply = false) ↔
      ¬ ∃ value, json.fromStr (trim reply) = .ok value ∧ (value.get "server").isSome ∧
        ((value.get "tool").isSome ∨ (value.get "arguments").isSome) ∧ ¬ StatesCall value ∧ ¬ HasKeywords reply := by
  cases hparse : json.fromStr (trim reply) with
  | error err =>
    constructor
    · rintro - ⟨value, hvalue, -⟩
      cases hvalue
    · intro _ hfinal
      exact not_flagged_of_error hparse (finalAnswer_keywords hfinal)
  | ok value =>
    have hflag : looksLikeUnresolvedToolCall json reply = false ↔
        ¬ ((value.get "server").isSome ∧ ((value.get "tool").isSome ∨ (value.get "arguments").isSome)) := by
      rw [Bool.eq_false_iff, ne_eq, looksLikeUnresolvedToolCall]
      simp only [hparse, Bool.and_eq_true, Bool.or_eq_true]
    rw [finalAnswer_of_ok hempty hparse, hflag]
    simp only [Except.ok.injEq, exists_eq_left']
    tauto

end Readers

namespace Sample

/-- A call without a tool, and a parser that reads it. -/
def toollessReply : String := "\x7b\"server\":\"files\",\"arguments\":\x7b\x7d\x7d"

def toollessJson : SerdeJson where
  fromStr text :=
    if text = toollessReply then .ok (.json [("server", .string "files"), ("arguments", .json [])])
    else .error "expected value"
  toString _ := ""

end Sample

/-- The loop takes a call without a tool for an answer. -/
theorem toolless_call_answered : ¬ ∀ reply, parseToolCallAttempt Sample.toollessJson reply = .finalAnswer →
    looksLikeUnresolvedToolCall Sample.toollessJson reply = false := by
  intro h
  have hflag := h Sample.toollessReply (by decide +kernel)
  revert hflag
  decide +kernel

theorem toolless_call_iff : (parseToolCallAttempt Sample.toollessJson "done" = .finalAnswer →
      looksLikeUnresolvedToolCall Sample.toollessJson "done" = false) ↔
    ¬ ∃ value, Sample.toollessJson.fromStr (trim "done") = .ok value ∧ (value.get "server").isSome ∧
      ((value.get "tool").isSome ∨ (value.get "arguments").isSome) ∧ ¬ StatesCall value ∧ ¬ HasKeywords "done" :=
  finalAnswer_unflagged_iff Sample.toollessJson (by decide) "done"

end Xiaomaolv
