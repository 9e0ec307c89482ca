import Xiaomaolv.Lib.Batches
import Xiaomaolv.Lib.Machine
import Xiaomaolv.Service.CodeModeExecutor

/-!
# Chunks whose calls run side by side

The executor starts the calls of a chunk together and joins them in the order in which they end, each into its own
place; the report is made from the places once every chunk has been joined.

* `ChunkRun`, `ChunkStep`: the execution, as a machine whose steps are the start of a chunk and the end of a call.
* `CodeModePolicy.validatePlan_isOk_iff`: the plans that are admitted; **`allowList_admits_iff`**: the child admits the
  same.
* `EntryOf`: the entry of a call that ended so; `foldl_addResult_spec`: the entries, the counts and the output kept.
* **`code_mode_report_faithful`**: every report is on the whole plan, and on what its calls came to.
-/

namespace Xiaomaolv

open CodeModePolicy

/-! ## The execution -/

/-- The state of `CodeModeExecutor::execute` after its first instant. -/
structure ChunkRun where
  /-- The `JoinSet` and the collected results; a result stands with the end of the call that it is of. -/
  tasks : Batches (JobOutcome × CollectedCall)
  perCallTimeout : Nat := 0
  failure : Option ExecutionError := none

inductive ChunkStep where
  /-- The next chunk starts: the instants of the budget check and of the timeout. -/
  | chunk (checkedAt timeoutAt : Nat)
  /-- The task of a call is joined. -/
  | join (idx : Nat) (outcome : JobOutcome)

namespace ChunkRun

variable (settings : AgentCodeModeSettings) (plan : CodeModePlan) (startedAt : Nat)

/-- The execution before its first chunk. -/
def start : ChunkRun := { tasks := .ofLength plan.calls.length }

/-- The steps that can be taken: a chunk starts when no call runs, and a call that runs can end. -/
def Ready (s : ChunkRun) : ChunkStep → Prop
  | .chunk _ _ => s.failure = none ∧ s.tasks.running = [] ∧ s.tasks.next < s.tasks.collected.length
  | .join idx _ => s.failure = none ∧ idx ∈ s.tasks.running

def exec (s : ChunkRun) : ChunkStep → ChunkRun
  | .chunk checkedAt timeoutAt =>
    if budget settings < checkedAt - startedAt then { s with failure := some .budgetExceeded }
    else
      { s with
        tasks := s.tasks.spawn (maxParallel settings)
        perCallTimeout := CodeModePolicy.perCallTimeout settings (timeoutAt - startedAt) }
  | .join idx outcome =>
    match plan.calls[idx]? with
    | none => s
    | some call =>
      match outcome.collect call s.perCallTimeout with
      | .error err => { s with tasks := { s.tasks with running := [] }, failure := some err }
      | .ok item => { s with tasks := s.tasks.join idx (outcome, item) }

/-- The report, once every chunk has been joined. -/
def report (json : SerdeJson) (elapsedMs : Nat) (s : ChunkRun) : Option CodeModeExecutionReport :=
  if s.failure.isNone ∧ s.tasks.running = [] ∧ s.tasks.next = s.tasks.collected.length then
    (s.tasks.collected.mapM (Option.map Prod.snd)).map fun items =>
      { (items.foldl (addResult json settings) ({}, 0)).1 with elapsedMs }
  else none

/-- `execute` returns the report after these steps. -/
def Returns (json : SerdeJson) (tools : List McpToolInfo) (steps : List ChunkStep) (elapsedMs : Nat)
    (report : CodeModeExecutionReport) : Prop :=
  validatePlan settings plan tools = .ok () ∧
    Machine.Along (exec settings plan startedAt) Ready (start plan) steps ∧
    (Machine.run (exec settings plan startedAt) (start plan) steps).report settings json elapsedMs = some report

end ChunkRun

/-! ## The plans that are admitted -/

namespace CodeModePolicy

variable {settings : AgentCodeModeSettings} {tools : List McpToolInfo} {tool : McpToolInfo}

/-- The capabilities of the tool are declared, and the settings allow them. -/
def Allowed (settings : AgentCodeModeSettings) (tool : McpToolInfo) : Prop :=
  ∃ capabilities, tool.codeModeCapabilities = some capabilities ∧ (capabilities.network → settings.allowNetwork) ∧
    (capabilities.filesystem → settings.allowFilesystem) ∧ (capabilities.env → settings.allowEnv)

theorem validateToolCapabilities_eq_ok : validateToolCapabilities settings tool = .ok () ↔ Allowed settings tool := by
  rw [validateToolCapabilities, Allowed]
  cases tool.codeModeCapabilities with
  | none => simp
  | some capabilities =>
    simp only [ensure_bind_eq_ok, ensure_eq_ok, Option.some.injEq, exists_eq_left', Bool.or_eq_true, Bool.not_eq_true',
      ← Bool.not_eq_true, ← imp_iff_not_or]

/-- The call names a tool of the list that the settings allow. -/
def Admits (settings : AgentCodeModeSettings) (tools : List McpToolInfo) (call : CodeModeToolCall) : Prop :=
  ∃ tool ∈ tools, tool.server = call.server ∧ tool.name = call.tool ∧ Allowed settings tool

/-- The server and the name of a tool. -/
def toolKey (tool : McpToolInfo) : String × String := (tool.server, tool.name)

theorem validateCall_eq_ok (hdistinct : (tools.map toolKey).Nodup) {call : CodeModeToolCall} :
    validateCall settings tools call = .ok () ↔
      (isBlank call.server = false ∧ isBlank call.tool = false) ∧ call.arguments.isObject ∧ Admits settings tools call := by
  rw [validateCall, ensure_bind_eq_ok, ensure_bind_eq_ok]
  refine and_congr (by simp) (and_congr Iff.rfl ?_)
  cases hfind : tools.find? fun tool => tool.server = call.server && tool.name = call.tool with
  | none =>
    refine iff_of_false (fun h => (by cases h)) ?_
    rintro ⟨tool, htool, hserver, hname, -⟩
    have hno := List.find?_eq_none.mp hfind tool htool
    simp [hserver, hname] at hno
  | some tool =>
    have hmatch := List.find?_some hfind
    have htool := List.mem_of_find?_eq_some hfind
    simp only [Bool.and_eq_true, decide_eq_true_eq] at hmatch
    rw [validateToolCapabilities_eq_ok]
    refine ⟨fun h => ⟨tool, htool, hmatch.1, hmatch.2, h⟩, ?_⟩
    rintro ⟨other, hother, hserver, hname, hallowed⟩
    have hkey : toolKey other = toolKey tool := by
      rw [toolKey, toolKey, hserver, hname, hmatch.1, hmatch.2]
    rwa [← List.inj_on_of_nodup_map hdistinct hother htool hkey]

theorem validateCalls_eq_ok {calls : List CodeModeToolCall} :
    validateCalls settings tools calls = .ok () ↔ ∀ call ∈ calls, validateCall settings tools call = .ok () := by
  induction calls with
  | nil => simp [validateCalls]
  | cons call calls ih =>
    rw [validateCalls, List.forall_mem_cons, ← ih]
    cases validateCall settings tools call with
    | ok u => exact (and_iff_right rfl).symm
    | error err => exact iff_of_false (fun h => (by cases h)) (fun h => (by cases h.1))

theorem validatePlan_eq_ok {plan : CodeModePlan} : validatePlan settings plan tools = .ok () ↔
    settings.maxParallel ≠ 0 ∧ plan.calls ≠ [] ∧ plan.calls.length ≤ max settings.maxCalls 1 ∧
      ∀ call ∈ plan.calls, validateCall settings tools call = .ok () := by
  rw [validatePlan, ensure_bind_eq_ok, ensure_bind_eq_ok, ← validateCalls_eq_ok]
  simp only [ensure_bind_eq_ok, decide_eq_true_eq, Bool.not_eq_true', List.isEmpty_eq_false_iff]

/-- The allow-list of the request to the child. -/
def allowList (settings : AgentCodeModeSettings) (tools : List McpToolInfo) : List CodeModeAllowedTool :=
  (tools.filter (allowsTool settings)).map fun tool => ⟨tool.server, tool.name, tool.codeModeCapabilities⟩

theorem allowsTool_iff : allowsTool settings tool ↔ Allowed settings tool := by
  rw [← validateToolCapabilities_eq_ok, allowsTool]
  cases validateToolCapabilities settings tool with
  | ok u => exact iff_of_true rfl rfl
  | error err => exact iff_of_false Bool.false_ne_true (fun h => (by cases h))

theorem admits_allowList {call : CodeModeToolCall} :
    Admits settings (materializePolicyTools (allowList settings tools)) call ↔ Admits settings tools call := by
  rw [materializePolicyTools, allowList, List.map_map]
  constructor
  · rintro ⟨_, hmem, hserver, hname, hallowed⟩
    obtain ⟨tool, htool, rfl⟩ := List.mem_map.mp hmem
    exact ⟨tool, List.mem_of_mem_filter htool, hserver, hname, hallowed⟩
  · rintro ⟨tool, htool, hserver, hname, hallowed⟩
    exact ⟨_, List.mem_map_of_mem (List.mem_filter.mpr ⟨htool, allowsTool_iff.mpr hallowed⟩), hserver, hname, hallowed⟩

theorem distinct_allowList (hdistinct : (tools.map toolKey).Nodup) :
    ((materializePolicyTools (allowList settings tools)).map toolKey).Nodup := by
  rw [materializePolicyTools, allowList, List.map_map, List.map_map]
  exact hdistinct.sublist ((List.filter_sublist).map toolKey)

/-- **The child admits the plans that this process admits.** -/
theorem allowList_admits_iff (hdistinct : (tools.map toolKey).Nodup) (plan : CodeModePlan) :
    validatePlan settings plan (materializePolicyTools (allowList settings tools)) = .ok () ↔
      validatePlan settings plan tools = .ok () := by
  rw [validatePlan_eq_ok, validatePlan_eq_ok]
  refine and_congr_right fun _ => and_congr_right fun _ => and_congr_right fun _ => forall₂_congr fun call _ => ?_
  rw [validateCall_eq_ok (distinct_allowList hdistinct), validateCall_eq_ok hdistinct, admits_allowList]

theorem validatePlan_inProcess {plan : CodeModePlan} :
    validatePlan { settings with executionMode := .inProcess } plan tools = .ok () ↔
      validatePlan settings plan tools = .ok () := by
  rw [validatePlan_eq_ok, validatePlan_eq_ok]
  exact Iff.rfl

end CodeModePolicy

/-! ## The entries of a report -/

/-- What stands in place of an output when nothing is left of the budget. -/
def exhaustedText : String := "(code mode output budget exhausted)"

/-- What stands behind an output that is cut. -/
def cutMarker : String := "...(truncated)"

/-- The entry holds the value, or what the budget leaves of its text. -/
def KeptOf (json : SerdeJson) (value : Value) (entry : CodeModeCallResult) : Prop :=
  entry.truncated = false ∧ entry.result = some value ∨
    entry.truncated = true ∧ (entry.result = some (.json [("truncated", .string exhaustedText)]) ∨
      ∃ n < (json.toString value).length, entry.result =
        some (.json [("truncated", .string (takeChars n (json.toString value) ++ cutMarker))]))

/-- The entry is on the item. -/
def ReportsOn (json : SerdeJson) (item : CollectedCall) (entry : CodeModeCallResult) : Prop :=
  entry.server = item.call.server ∧ entry.tool = item.call.tool ∧
    match item.result with
    | .ok value => entry.ok = true ∧ entry.error = none ∧ KeptOf json value entry
    | .error err => entry.ok = false ∧ entry.error = some err ∧ entry.result = none ∧ entry.truncated = false

/-- The entry is on the call, and on how the call has ended. -/
def EntryOf (json : SerdeJson) (call : CodeModeToolCall) (outcome : JobOutcome) (entry : CodeModeCallResult) : Prop :=
  ∃ timeout item, outcome.collect call timeout = .ok item ∧ ReportsOn json item entry

/-- The characters of tool output in an entry: the encoded value, or the cut text without its marker. -/
def keptChars (json : SerdeJson) (entry : CodeModeCallResult) : Nat :=
  match entry.result with
  | none => 0
  | some value =>
    if entry.truncated then
      match (value.get "truncated").bind Value.asStr with
      | none => 0
      | some text => if text = exhaustedText then 0 else text.length - cutMarker.length
    else (json.toString value).length

/-- The call has timed out. -/
def CollectedCall.lost (item : CollectedCall) : Bool := !item.result.isOk && item.timedOut

section Entries

variable {json : SerdeJson} {settings : AgentCodeModeSettings}

theorem keptChars_exhausted {server tool : String} :
    keptChars json ⟨server, tool, true, some (.json [("truncated", .string exhaustedText)]), none, true⟩ = 0 := by
  change (if exhaustedText = exhaustedText then 0 else exhaustedText.length - cutMarker.length) = 0
  exact if_pos rfl

theorem keptChars_cut {server tool : String} (text : String) :
    keptChars json ⟨server, tool, true, some (.json [("truncated", .string (text ++ cutMarker))]), none, true⟩ =
      text.length := by
  have hne : text ++ cutMarker ≠ exhaustedText := by
    intro h
    have hsuffix : cutMarker.toList <:+ exhaustedText.toList := by
      rw [← h, String.toList_append]
      exact List.suffix_append _ _
    revert hsuffix
    decide +kernel
  change (if text ++ cutMarker = exhaustedText then 0 else (text ++ cutMarker).length - cutMarker.length) = _
  rw [if_neg hne, String.length_append, Nat.add_sub_cancel]

theorem length_takeChars {n : Nat} {text : String} (h : n ≤ text.length) : (takeChars n text).length = n := by
  rw [takeChars, String.length_ofList, List.length_take, String.length_toList]
  exact Nat.min_eq_left h

/-- The entry of an item, and what it adds to the report. -/
theorem addResult_spec (report : CodeModeExecutionReport) {used : Nat} (hused : used ≤ settings.maxResultChars)
    (item : CollectedCall) : ∃ entry, ReportsOn json item entry ∧
      used + keptChars json entry ≤ settings.maxResultChars ∧
      addResult json settings (report, used) item = ({ report with
        calls := report.calls ++ [entry]
        failedCalls := report.failedCalls + if entry.ok then 0 else 1
        timedOutCalls := report.timedOutCalls + if item.lost then 1 else 0
        truncatedOutputs := report.truncatedOutputs + if entry.truncated then 1 else 0 },
        used + keptChars json entry) := by
  obtain ⟨call, result, timedOut⟩ := item
  cases result with
  | error err =>
    refine ⟨⟨call.server, call.tool, false, none, some err, false⟩, ⟨rfl, rfl, rfl, rfl, rfl, rfl⟩, hused, ?_⟩
    cases timedOut <;> rfl
  | ok value =>
    by_cases hexhausted : settings.maxResultChars ≤ used
    · refine ⟨⟨call.server, call.tool, true, some (.json [("truncated", .string exhaustedText)]), none, true⟩,
        ⟨rfl, rfl, rfl, rfl, Or.inr ⟨rfl, Or.inl rfl⟩⟩, ?_, ?_⟩
      · rw [keptChars_exhausted]
        exact hused
      · have htruncate : truncateResult settings json value used =
            ((.json [("truncated", .string exhaustedText)], true), used) := if_pos hexhausted
        simp only [addResult, htruncate, keptChars_exhausted]
        rfl
    · by_cases hfits : (json.toString value).length ≤ settings.maxResultChars - used
      · refine ⟨⟨call.server, call.tool, true, some value, none, false⟩, ⟨rfl, rfl, rfl, rfl, Or.inl ⟨rfl, rfl⟩⟩, ?_, ?_⟩
        · change used + (json.toString value).length ≤ _
          omega
        · have htruncate : truncateResult settings json value used =
              ((value, false), used + (json.toString value).length) := (if_neg hexhausted).trans (if_pos hfits)
          simp only [addResult, htruncate]
          rfl
      · have hkept : used + keptChars json ⟨call.server, call.tool, true, some (.json [("truncated",
            .string (takeChars (settings.maxResultChars - used) (json.toString value) ++ cutMarker))]), none, true⟩ =
            settings.maxResultChars := by
          rw [keptChars_cut, length_takeChars (by omega)]
          omega
        refine ⟨⟨call.server, call.tool, true, some (.json [("truncated",
          .string (takeChars (settings.maxResultChars - used) (json.toString value) ++ cutMarker))]), none, true⟩,
          ⟨rfl, rfl, rfl, rfl, Or.inr ⟨rfl, Or.inr ⟨_, by omega, rfl⟩⟩⟩, hkept.le, ?_⟩
        have htruncate : truncateResult settings json value used = ((.json [("truncated",
            .string (takeChars (settings.maxResultChars - used) (json.toString value) ++ cutMarker))], true),
            settings.maxResultChars) := (if_neg hexhausted).trans (if_neg hfits)
        rw [hkept]
        simp only [addResult, htruncate]
        rfl

/-- **The entries, the counts and the output kept**, of any items. -/
theorem foldl_addResult_spec (items : List CollectedCall) (report : CodeModeExecutionReport) {used : Nat}
    (hused : used ≤ settings.maxResultChars) : ∃ entries, List.Forall₂ (ReportsOn json) items entries ∧
      used + (entries.map (keptChars json)).sum ≤ settings.maxResultChars ∧
      (items.foldl (addResult json settings) (report, used)).1 = { report with
        calls := report.calls ++ entries
        failedCalls := report.failedCalls + entries.countP (!·.ok)
        timedOutCalls := report.timedOutCalls + items.countP CollectedCall.lost
        truncatedOutputs := report.truncatedOutputs + entries.countP (·.truncated) } := by
  induction items generalizing report used with
  | nil => exact ⟨[], .nil, hused, by simp⟩
  | cons item items ih =>
    obtain ⟨entry, hentry, hkept, hadd⟩ := addResult_spec report hused item
    rw [List.foldl_cons, hadd]
    obtain ⟨entries, hentries, hsum, hfold⟩ := ih _ hkept
    refine ⟨entry :: entries, .cons hentry hentries, ?_, ?_⟩
    · rw [List.map_cons, List.sum_cons]
      omega
    · rw [hfold]
      simp only [List.append_assoc, List.singleton_append, List.countP_cons, CodeModeExecutionReport.mk.injEq,
        Bool.not_eq_true', true_and, and_true]
      refine ⟨?_, ?_, ?_⟩
      · cases entry.ok
        · simp only [if_true, if_false, Bool.false_eq_true]
          omega
        · simp only [if_true, Bool.true_eq_false, if_false]
          omega
      · omega
      · omega

end Entries

/-! ## Runs -/

namespace ChunkRun

variable {settings : AgentCodeModeSettings} {plan : CodeModePlan} {startedAt : Nat} {s : ChunkRun}

/-- The calls that run are different calls of the plan, and not too many. -/
structure Narrow (settings : AgentCodeModeSettings) (plan : CodeModePlan) (s : ChunkRun) : Prop where
  nodup : s.tasks.running.Nodup
  planned : ∀ idx ∈ s.tasks.running, idx < plan.calls.length
  narrow : s.tasks.running.length ≤ maxParallel settings

/-- The joins are those of the steps, each with the item of its own call. -/
structure Joined (settings : AgentCodeModeSettings) (plan : CodeModePlan) (s : ChunkRun) (steps : List ChunkStep)
    (joins : List (Nat × JobOutcome × CollectedCall)) : Prop where
  valid : s.tasks.Valid (maxParallel settings) joins
  length : s.tasks.collected.length = plan.calls.length
  mem_steps : ∀ idx outcome, ChunkStep.join idx outcome ∈ steps ↔ ∃ item, (idx, outcome, item) ∈ joins
  own : ∀ idx outcome item, (idx, outcome, item) ∈ joins →
    ∃ call timeout, plan.calls[idx]? = some call ∧ outcome.collect call timeout = .ok item

theorem Joined.toNarrow {steps : List ChunkStep} {joins : List (Nat × JobOutcome × CollectedCall)}
    (h : Joined settings plan s steps joins) : Narrow settings plan s where
  nodup := h.valid.nodup
  planned idx hidx := by
    have hlt := (h.valid.below idx hidx).trans_le h.valid.next_le
    rwa [h.length] at hlt
  narrow := h.valid.narrow

theorem narrow_of_idle (h : s.tasks.running = []) : Narrow settings plan s where
  nodup := by rw [h]; exact List.nodup_nil
  planned idx hidx := by rw [h] at hidx; cases hidx
  narrow := by rw [h]; exact Nat.zero_le _

theorem joined_start : Joined settings plan (start plan) [] [] where
  valid := Batches.valid_ofLength _
  length := List.length_replicate
  mem_steps idx outcome := by simp
  own _ _ _ h := absurd h List.not_mem_nil

/-- What a step keeps: the calls that run, and the joins unless the execution is given up. -/
theorem Joined.exec {steps : List ChunkStep} {joins : List (Nat × JobOutcome × CollectedCall)} {step : ChunkStep}
    (h : Joined settings plan s steps joins) (hready : Ready s step) :
    Narrow settings plan (exec settings plan startedAt s step) ∧
      ((exec settings plan startedAt s step).failure = none →
        ∃ joins', Joined settings plan (exec settings plan startedAt s step) (steps ++ [step]) joins') := by
  cases step with
  | chunk checkedAt timeoutAt =>
    obtain ⟨-, hidle, -⟩ := hready
    rw [ChunkRun.exec]
    split_ifs with hbudget
    · exact ⟨narrow_of_idle hidle, fun hfail => (by cases hfail)⟩
    · have hjoined : Joined settings plan { s with
          tasks := s.tasks.spawn (maxParallel settings)
          perCallTimeout := CodeModePolicy.perCallTimeout settings (timeoutAt - startedAt) }
          (steps ++ [.chunk checkedAt timeoutAt]) joins :=
        { valid := h.valid.spawn hidle
          length := h.length
          mem_steps := fun idx outcome => by rw [← h.mem_steps]; simp
          own := h.own }
      exact ⟨hjoined.toNarrow, fun _ => ⟨joins, hjoined⟩⟩
  | join idx outcome =>
    obtain ⟨-, hrunning⟩ := hready
    rw [ChunkRun.exec]
    have hlt := h.toNarrow.planned idx hrunning
    rw [List.getElem?_eq_getElem hlt]
    simp only
    cases hitem : outcome.collect plan.calls[idx] s.perCallTimeout with
    | error err => exact ⟨narrow_of_idle rfl, fun hfail => (by cases hfail)⟩
    | ok item =>
      have hjoined : Joined settings plan { s with tasks := s.tasks.join idx (outcome, item) }
          (steps ++ [.join idx outcome]) (joins ++ [(idx, outcome, item)]) :=
        { valid := h.valid.join hrunning
          length := by rw [← h.length]; exact List.length_set
          mem_steps := fun j o => by
            rw [List.mem_append, h.mem_steps, List.mem_singleton]
            simp only [List.mem_append, List.mem_singleton, exists_or, ChunkStep.join.injEq, Prod.mk.injEq]
            refine or_congr_right ⟨fun hj => ⟨item, hj.1, hj.2, rfl⟩, ?_⟩
            rintro ⟨_, rfl, rfl, -⟩
            exact ⟨rfl, rfl⟩
          own := fun j o i hj => by
            rw [List.mem_append, List.mem_singleton] at hj
            rcases hj with hj | hj
            · exact h.own j o i hj
            · obtain ⟨rfl, rfl, rfl⟩ : j = idx ∧ o = outcome ∧ i = item := by simpa using hj
              exact ⟨_, _, List.getElem?_eq_getElem hlt, hitem⟩ }
      exact ⟨hjoined.toNarrow, fun _ => ⟨_, hjoined⟩⟩

theorem Ready.failure {step : ChunkStep} (h : Ready s step) : s.failure = none := by
  cases step with
  | chunk _ _ => exact h.1
  | join _ _ => exact h.1

theorem joined_run {steps : List ChunkStep}
    (h : Machine.Along (exec settings plan startedAt) Ready (start plan) steps) :
    Narrow settings plan (Machine.run (exec settings plan startedAt) (start plan) steps) ∧
      ((Machine.run (exec settings plan startedAt) (start plan) steps).failure = none →
        ∃ joins, Joined settings plan (Machine.run (exec settings plan startedAt) (start plan) steps) steps joins) := by
  induction steps using List.reverseRecOn with
  | nil => exact ⟨narrow_of_idle rfl, fun _ => ⟨[], joined_start⟩⟩
  | append_singleton steps step ih =>
    obtain ⟨hbefore, hready, -⟩ := Machine.along_append.mp h
    obtain ⟨joins, hjoined⟩ := (ih hbefore).2 hready.failure
    rw [Machine.run_concat]
    exact hjoined.exec hready

end ChunkRun

/-! ## The report -/

def JobOutcome.isTimedOut : JobOutcome → Bool
  | timedOut => true
  | _ => false

/-- What a report says of its plan, and of the steps that led to it. -/
structure ReportFaithful (json : SerdeJson) (settings : AgentCodeModeSettings) (tools : List McpToolInfo)
    (plan : CodeModePlan) (startedAt : Nat) (steps : List ChunkStep) (report : CodeModeExecutionReport) : Prop where
  bounded : plan.calls.length ≤ max settings.maxCalls 1
  allowed : ∀ call ∈ plan.calls, ∃ tool ∈ tools, tool.server = call.server ∧ tool.name = call.tool ∧ Allowed settings tool
  /-- At every moment, different calls of the plan run, at most so many of them. -/
  parallel : ∀ before after, steps = before ++ after →
    let running := (Machine.run (ChunkRun.exec settings plan startedAt) (ChunkRun.start plan) before).tasks.running
    running.Nodup ∧ (∀ idx ∈ running, idx < plan.calls.length) ∧ running.length ≤ settings.maxParallel
  /-- Each call has ended in one way, and its entry stands in its place. -/
  carried : ∃ outcomes : List JobOutcome, outcomes.length = plan.calls.length ∧
    (∀ (idx : Nat) outcome, ChunkStep.join idx outcome ∈ steps ↔ outcomes[idx]? = some outcome) ∧
    (∀ (idx : Nat) call outcome entry, plan.calls[idx]? = some call → outcomes[idx]? = some outcome →
      report.calls[idx]? = some entry → EntryOf json call outcome entry) ∧
    report.timedOutCalls = outcomes.countP JobOutcome.isTimedOut
  length : report.calls.length = plan.calls.length
  failed : report.failedCalls = report.calls.countP (!·.ok)
  truncated : report.truncatedOutputs = report.calls.countP (·.truncated)
  kept : (report.calls.map (keptChars json)).sum ≤ settings.maxResultChars

section Report

variable {settings : AgentCodeModeSettings} {tools : List McpToolInfo} {plan : CodeModePlan} {json : SerdeJson}

theorem lost_collect {call : CodeModeToolCall} {timeout : Nat} {outcome : JobOutcome} {item : CollectedCall}
    (h : outcome.collect call timeout = .ok item) : item.lost = outcome.isTimedOut := by
  cases outcome with
  | finished result =>
    obtain rfl := Except.ok.inj h
    exact Bool.and_false _
  | timedOut =>
    obtain rfl := Except.ok.inj h
    rfl
  | panicked => cases h

theorem mapM_some {ρ β : Type} (f : ρ → β) (results : List ρ) :
    (results.map some).mapM (Option.map f) = some (results.map f) := by
  induction results with
  | nil => rfl
  | cons r results ih =>
    rw [List.map_cons, List.mapM_cons, ih]
    rfl

/-- **A report is on the whole plan, and on what its calls came to.** -/
theorem reportFaithful_of_returns (hdistinct : (tools.map toolKey).Nodup) {startedAt elapsedMs : Nat}
    {steps : List ChunkStep} {report : CodeModeExecutionReport}
    (h : ChunkRun.Returns settings plan startedAt json tools steps elapsedMs report) :
    ReportFaithful json settings tools plan startedAt steps report := by
  obtain ⟨hplan, halong, hreport⟩ := h
  obtain ⟨hparallel, -, hbounded, hcalls⟩ := validatePlan_eq_ok.mp hplan
  rw [ChunkRun.report] at hreport
  split_ifs at hreport with hend
  obtain ⟨hfailure, hidle, hnext⟩ := hend
  obtain ⟨joins, hjoined⟩ := (ChunkRun.joined_run halong).2 (Option.isNone_iff_eq_none.mp hfailure)
  obtain ⟨results, hresults, hresult⟩ := hjoined.valid.results hidle hnext
  have hlen : results.length = plan.calls.length := by
    rw [← hjoined.length, hresults, List.length_map]
  rw [hresults, mapM_some, Option.map_some, Option.some.injEq] at hreport
  obtain ⟨entries, hentries, hkept, hfold⟩ :=
    @foldl_addResult_spec json settings (results.map Prod.snd) {} 0 (Nat.zero_le _)
  rw [hfold] at hreport
  have hown : ∀ r ∈ results, ∃ call timeout, r.1.collect call timeout = .ok r.2 := by
    intro r hr
    obtain ⟨idx, hidx⟩ := List.mem_iff_getElem?.mp hr
    obtain ⟨call, timeout, -, hcollect⟩ := hjoined.own idx r.1 r.2 ((hresult idx r).mp hidx)
    exact ⟨call, timeout, hcollect⟩
  subst hreport
  refine ⟨hbounded, fun call hcall => ?_, ?_, ⟨results.map Prod.fst, ?_, ?_, ?_, ?_⟩, ?_, ?_, ?_, ?_⟩
  · exact ((validateCall_eq_ok hdistinct).mp (hcalls call hcall)).2.2
  · rintro before after rfl
    have hnarrow := (ChunkRun.joined_run (Machine.along_append.mp halong).1).1
    refine ⟨hnarrow.nodup, hnarrow.planned, hnarrow.narrow.trans ?_⟩
    rw [maxParallel]
    omega
  · rw [List.length_map, hlen]
  · intro idx outcome
    rw [hjoined.mem_steps, List.getElem?_map, Option.map_eq_some_iff]
    constructor
    · rintro ⟨item, hitem⟩
      exact ⟨(outcome, item), (hresult _ _).mpr hitem, rfl⟩
    · rintro ⟨⟨_, item⟩, hitem, rfl⟩
      exact ⟨item, (hresult _ _).mp hitem⟩
  · intro idx call outcome entry hcall houtcome hentry
    rw [List.getElem?_map, Option.map_eq_some_iff] at houtcome
    obtain ⟨⟨_, item⟩, hitem, rfl⟩ := houtcome
    obtain ⟨call', timeout, hcall', hcollect⟩ := hjoined.own _ _ _ ((hresult _ _).mp hitem)
    obtain rfl : call = call' := Option.some.inj (hcall.symm.trans hcall')
    refine ⟨timeout, item, hcollect, ?_⟩
    have hboth : ((results.map Prod.snd).zip entries)[idx]? = some (item, entry) := by
      rw [List.getElem?_zip_eq_some, List.getElem?_map, hitem]
      exact ⟨rfl, hentry⟩
    exact List.forall₂_zip hentries (List.mem_of_getElem? hboth)
  · simp only [Nat.zero_add, List.countP_map]
    refine List.countP_congr fun r hr => ?_
    obtain ⟨call, timeout, hcollect⟩ := hown r hr
    rw [Function.comp_apply, Function.comp_apply, lost_collect hcollect]
  · rw [List.nil_append, ← hentries.length_eq, List.length_map, hlen]
  · simp only [List.nil_append, Nat.zero_add]
  · simp only [List.nil_append, Nat.zero_add]
  · rwa [Nat.zero_add] at hkept

/-- **Code mode reports faithfully**, and the child admits the plans that this process admits. -/
theorem code_mode_report_faithful (json : SerdeJson) (settings : AgentCodeModeSettings) (tools : List McpToolInfo)
    (hdistinct : (tools.map toolKey).Nodup) (plan : CodeModePlan) :
    (∀ startedAt steps elapsedMs report,
      ChunkRun.Returns settings plan startedAt json tools steps elapsedMs report →
        ReportFaithful json settings tools plan startedAt steps report) ∧
    (validatePlan { settings with executionMode := .inProcess } plan
        (materializePolicyTools (allowList settings tools)) = .ok () ↔ validatePlan settings plan tools = .ok ()) :=
  ⟨fun _ _ _ _ h => reportFaithful_of_returns hdistinct h,
    validatePlan_inProcess.trans (allowList_admits_iff hdistinct plan)⟩

end Report

namespace Sample

/-- A plan of one call, a tool for it, and settings that name no calls. -/
def lookup : CodeModePlan := ⟨[⟨"files", "list", .json []⟩]⟩

def lookupTools : List McpToolInfo := [⟨"files", "list", none, .json [], some {}⟩]

def lookupSettings : AgentCodeModeSettings := { maxCalls := 0 }

def lookupJson : SerdeJson := ⟨fun _ => .error "expected value", fun _ => "null"⟩

/-- The call is started at once, and ends. -/
def lookupSteps : List ChunkStep := [.chunk 0 0, .join 0 (.finished (.ok .null))]

def lookupReport : CodeModeExecutionReport := { calls := [⟨"files", "list", true, some .null, none, false⟩] }

theorem lookup_returns : ChunkRun.Returns lookupSettings lookup 0 lookupJson lookupTools lookupSteps 0 lookupReport := by
  refine ⟨by decide, ?_, by decide⟩
  simp only [lookupSteps, Machine.along_cons, Machine.along_nil, and_true]
  exact ⟨⟨rfl, rfl, by decide⟩, ⟨rfl, by decide⟩⟩

end Sample

/-- A setting of no calls admits one. -/
theorem lookup_exceeds_max_calls : ¬ ∀ (settings : AgentCodeModeSettings) (plan : CodeModePlan) startedAt json tools steps
    elapsedMs report, (tools.map toolKey).Nodup →
      ChunkRun.Returns settings plan startedAt json tools steps elapsedMs report →
        plan.calls.length ≤ settings.maxCalls := by
  intro h
  have hle := h _ _ _ _ _ _ _ _ (by decide) Sample.lookup_returns
  revert hle
  decide

theorem lookup_report_faithful : (∀ startedAt steps elapsedMs report,
      ChunkRun.Returns Sample.lookupSettings Sample.lookup startedAt Sample.lookupJson Sample.lookupTools steps elapsedMs
          report →
        ReportFaithful Sample.lookupJson Sample.lookupSettings Sample.lookupTools Sample.lookup startedAt steps report) ∧
    (validatePlan { Sample.lookupSettings with executionMode := .inProcess } Sample.lookup
        (materializePolicyTools (allowList Sample.lookupSettings Sample.lookupTools)) = .ok () ↔
      validatePlan Sample.lookupSettings Sample.lookup Sample.lookupTools = .ok ()) :=
  code_mode_report_faithful Sample.lookupJson Sample.lookupSettings Sample.lookupTools (by decide) Sample.lookup

end Xiaomaolv
