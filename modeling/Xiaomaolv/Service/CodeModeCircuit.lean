import Xiaomaolv.Service.CodeMode
import Xiaomaolv.Service.CodeModeChunks

/-!
# The timeout circuit over a sequence of attempts

Attempts of the code-mode path follow one another; each may execute a plan, and what its execution comes to may move
the circuit. An execution that is given up for the time it has taken leaves no report, and the circuit is not told.

* `executions`, `answers`: what an attempt has executed, and whether it has answered from it.
* `timedOutExecution`: an execution whose calls time out too often, or that is given up for its time; `streak`: how
  many of them end a history.
* `Attempts`: the sequences of attempts; `MovesCircuit`: **what an attempt does to the circuit**.
* **`timeout_circuit_counts`**: where no execution is given up for its time, the circuit is open once the streak is
  long enough; while it is open nothing is answered from an execution, and a probe closes it.
-/

namespace Xiaomaolv

open Emitter

/-! ## Executions -/

/-- The executions of an attempt, by what they came to. -/
def executions (path : List PathEvent) : List (Except ExecutionError CodeModeExecutionReport) :=
  path.filterMap fun
    | .executed _ result => some result
    | _ => none

/-- The result of an execution was used for an answer. -/
def answers (path : List PathEvent) : Bool :=
  path.any fun
    | .answered _ _ => true
    | _ => false

/-- The execution was given up by the runtime budget, here or in the child, or by the timeout of the child. -/
def ExecutionError.outOfTime : ExecutionError → Bool
  | budgetExceeded => true
  | subprocess reason => reason = "code mode subprocess timeout" ||
      reason = "code mode subprocess execution failed: " ++ budgetExceeded.message
  | _ => false

/-- An execution that timed out: calls of it did, and so many that the ratio is reached, or it was given up for the
time it had taken. -/
def timedOutExecution (ratioReached : Nat → Nat → Bool) : Except ExecutionError CodeModeExecutionReport → Bool
  | .ok report => 0 < report.timedOutCalls && ratioReached report.timedOutCalls report.calls.length
  | .error err => err.outOfTime

/-- The execution has run its course, or was given up for its time. -/
def ranInTime : Except ExecutionError CodeModeExecutionReport → Bool
  | .ok _ => true
  | .error err => err.outOfTime

/-- How many executions that timed out, one after the other, end the history. -/
def streak (ratioReached : Nat → Nat → Bool) (history : List (Except ExecutionError CodeModeExecutionReport)) : Nat :=
  (history.reverse.takeWhile (timedOutExecution ratioReached)).length

theorem streak_concat (ratioReached : Nat → Nat → Bool) (history : List (Except ExecutionError CodeModeExecutionReport))
    (result : Except ExecutionError CodeModeExecutionReport) : streak ratioReached (history ++ [result]) =
      if timedOutExecution ratioReached result then streak ratioReached history + 1 else 0 := by
  rw [streak, List.reverse_concat, List.takeWhile_cons]
  split_ifs <;> rfl

@[simp] theorem executions_append (l l' : List PathEvent) : executions (l ++ l') = executions l ++ executions l' :=
  List.filterMap_append

@[simp] theorem answers_append (l l' : List PathEvent) : answers (l ++ l') = (answers l || answers l') :=
  List.any_append

theorem executions_spawned (calls : List CodeModeToolCall) : executions (calls.map .spawned) = [] := by
  rw [executions, List.filterMap_map]
  exact List.filterMap_eq_nil_iff.mpr fun _ _ => rfl

theorem answers_spawned (calls : List CodeModeToolCall) : answers (calls.map .spawned) = false := by
  rw [answers, List.any_map]
  exact List.any_eq_false.mpr fun _ _ => Bool.false_ne_true

/-! ## The calls of a report -/

section Counts

variable {ω : Type} {settings : AgentCodeModeSettings} {runtime : CodeModeRuntime ω} {json : SerdeJson}
  {plan : CodeModePlan} {tools : List McpToolInfo} {w : ω} {report : CodeModeExecutionReport}

theorem timedOut_le_foldl (items : List CollectedCall) :
    (items.foldl (addResult json settings) ({}, 0)).1.timedOutCalls ≤
      (items.foldl (addResult json settings) ({}, 0)).1.calls.length := by
  obtain ⟨entries, hentries, -, hfold⟩ := @foldl_addResult_spec json settings items {} 0 (Nat.zero_le _)
  rw [hfold]
  simp only [List.nil_append, Nat.zero_add]
  rw [← hentries.length_eq]
  exact List.countP_le_length

theorem timedOut_le_execute (h : (CodeModeExecutor.execute settings runtime json plan tools w).result = .ok report) :
    report.timedOutCalls ≤ report.calls.length := by
  unfold CodeModeExecutor.execute at h
  cases hplan : CodeModePolicy.validatePlan settings plan tools with
  | error reason =>
    rw [hplan] at h
    cases h
  | ok u =>
    rw [hplan] at h
    dsimp only at h
    split at h
    · cases h
    · obtain rfl := Except.ok.inj h
      exact timedOut_le_foldl _

theorem timedOut_le_environment {subprocess : Subprocess ω}
    (h : (executeInEnvironment json settings runtime subprocess plan tools w).result = .ok report) :
    report.timedOutCalls ≤ report.calls.length := by
  unfold executeInEnvironment at h
  cases hmode : settings.executionMode with
  | inProcess =>
    rw [hmode] at h
    exact timedOut_le_execute h
  | subprocess =>
    rw [hmode] at h
    dsimp only at h
    unfold executePlanViaSubprocess at h
    generalize subprocess.fate plan (max settings.subprocessTimeoutSecs 1) w = fate at h
    obtain ⟨fate, w'⟩ := fate
    dsimp only at h
    split_ifs at h
    cases fate with
    | replies =>
      dsimp only at h
      split at h
      · rename_i hrun
        cases h
        exact timedOut_le_execute hrun
      · cases h
    | notStarted => cases h
    | refuses => cases h
    | ends => cases h
    | garbles => cases h

end Counts

/-! ## What an attempt does to the circuit -/

/-- What an attempt that is admitted leaves on its path, and what it makes of the circuit. -/
inductive MovesCircuit {ω : Type} (svc : AgentService ω) (forceShadow : Bool) (circuit : TimeoutCircuit) :
    List PathEvent → TimeoutCircuit → Prop
  | unexecuted {l : List PathEvent} (h : executions l = []) (hanswers : answers l = false) :
      MovesCircuit svc forceShadow circuit l circuit
  | failed {l : List PathEvent} {err : ExecutionError} (h : executions l = [.error err]) (hanswers : answers l = false) :
      MovesCircuit svc forceShadow circuit l circuit
  | reported {l : List PathEvent} {plan : CodeModePlan} {report : CodeModeExecutionReport}
      (h : executions l = [.ok report]) (hcounts : report.timedOutCalls ≤ report.calls.length)
      (hanswers : answers l → ¬ forceShadow ∧ (updateCodeModeTimeoutCircuit svc.ratioReached svc.agentCodeMode
        (svc.reportAudit plan report forceShadow) circuit).1 ≠ .opened) :
      MovesCircuit svc forceShadow circuit l (updateCodeModeTimeoutCircuit svc.ratioReached svc.agentCodeMode
        (svc.reportAudit plan report forceShadow) circuit).2

namespace AgentService

variable {ω : Type} {svc : AgentService ω}

theorem moved_completeWithCodeMode (hserial : svc.otherTurns = fun _ circuit => circuit) {history : List StoredMessage}
    {tools : List McpToolInfo} {forceShadow deferSuccessFinish : Bool} {s s' : AgentTurn ω} {items : List String}
    {r : Except Failure (Option CodeModeCompletion)}
    (h : Op.Emits (svc.completeWithCodeMode history tools forceShadow deferSuccessFinish) s items r s') :
    ∃ l, s'.path = s.path ++ l ∧ MovesCircuit svc forceShadow s.circuit l s'.circuit := by
  unfold completeWithCodeMode at h
  dsimp only at h
  by_cases hempty : (tools.filter (CodeModePolicy.allowsTool svc.agentCodeMode)).isEmpty = true
  · rw [if_pos hempty] at h
    obtain ⟨-, rfl, rfl⟩ := emits_audit_pure.mp h
    exact ⟨_, rfl, .unexecuted rfl rfl⟩
  rw [if_neg hempty] at h
  rcases Op.emits_bind.mp h with ⟨_, plan, s₁, _, hplan, hrest, -⟩ | ⟨failure, hplan, rfl⟩
  swap
  · obtain ⟨t₁, -, rfl⟩ := emits_inTurn.mp hplan
    exact ⟨[], (List.append_nil _).symm, .unexecuted rfl rfl⟩
  obtain ⟨t₁, -, rfl⟩ := emits_inTurn.mp hplan
  cases plan with
  | none =>
    obtain ⟨-, rfl, rfl⟩ := emits_audit_pure.mp hrest
    exact ⟨_, rfl, .unexecuted rfl rfl⟩
  | some plan =>
    have hrun := emits_executePlan_bind.mp hrest
    clear hrest h hplan
    dsimp only at hrun
    generalize hrunning : executeInEnvironment svc.json svc.agentCodeMode svc.runtime svc.codeModeChild
      plan (tools.filter (CodeModePolicy.allowsTool svc.agentCodeMode)) t₁.world = running at hrun
    cases hresult : running.result with
    | error err =>
      rw [hresult] at hrun
      obtain ⟨-, rfl, rfl⟩ := emits_audit_pure.mp hrun
      refine ⟨_, append_two _ _ _ _, @MovesCircuit.failed _ _ _ _ _ err ?_ ?_⟩
      · rw [executions_append, executions_spawned]
        rfl
      · rw [answers_append, answers_spawned]
        rfl
    | ok report =>
      have hcounts : report.timedOutCalls ≤ report.calls.length := by
        rw [← hrunning] at hresult
        exact timedOut_le_environment hresult
      rw [hresult] at hrun
      have hcircuit := emits_onCircuit_bind.mp hrun
      clear hrun
      rw [hserial] at hcircuit
      dsimp only at hcircuit
      have haudit := emits_audit_bind.mp hcircuit
      clear hcircuit
      dsimp only at haudit
      have hexecuted : ∀ events : List PathEvent, executions events = [] →
          executions (running.spawned.map .spawned ++ .executed plan (.ok report) :: events) = [.ok report] := by
        intro events hevents
        rw [executions_append, executions_spawned, List.nil_append]
        exact congrArg (_ :: ·) hevents
      by_cases hback : (svc.agentCodeMode.shadowMode || forceShadow ||
          (updateCodeModeTimeoutCircuit svc.ratioReached svc.agentCodeMode (svc.reportAudit plan report forceShadow)
            s.circuit).1 == .opened) = true
      · rw [if_pos hback] at haudit
        obtain ⟨-, rfl, rfl⟩ := Op.emits_pure.mp haudit
        refine ⟨_, append_two _ _ _ _, .reported (hexecuted _ rfl) hcounts fun hanswers => ?_⟩
        rw [answers_append, answers_spawned] at hanswers
        cases hanswers
      · rw [if_neg hback] at haudit
        have hallowed : ¬ forceShadow ∧ (updateCodeModeTimeoutCircuit svc.ratioReached svc.agentCodeMode
            (svc.reportAudit plan report forceShadow) s.circuit).1 ≠ .opened := by
          simp only [Bool.or_eq_true, beq_iff_eq, not_or] at hback
          exact ⟨hback.1.2, hback.2⟩
        rcases Op.emits_bind.mp haudit with ⟨_, result, s₂, _, hattempt, hend, -⟩ | ⟨failure, hattempt, rfl⟩
        · rcases emits_attempt hattempt with ⟨text, hanswer, hr⟩ | ⟨err, hanswer, hr⟩ | ⟨-, hr⟩
          · cases hr
            obtain ⟨t₂, -, rfl⟩ := emits_inTurn.mp hanswer
            have hnoted := emits_note_bind.mp hend
            by_cases hdefer : deferSuccessFinish = true
            · rw [if_pos hdefer] at hnoted
              obtain ⟨-, rfl, rfl⟩ := Op.emits_pure.mp hnoted
              exact ⟨_, append_three _ _ _ _ _, .reported (hexecuted _ rfl) hcounts fun _ => hallowed⟩
            · rw [if_neg hdefer] at hnoted
              rcases Op.emits_bind.mp hnoted with ⟨_, _, _, _, hfinish, hpure, -⟩ | ⟨_, hfinish, -⟩
              · obtain ⟨-, rfl, rfl⟩ := Op.emits_pure.mp hpure
                obtain ⟨t₃, -, rfl⟩ := emits_inTurn.mp hfinish
                exact ⟨_, append_three _ _ _ _ _, .reported (hexecuted _ rfl) hcounts fun _ => hallowed⟩
              · obtain ⟨t₃, hfinished, -⟩ := emits_inTurn.mp hfinish
                cases (emits_done.mp hfinished).2
          · cases hr
            obtain ⟨t₂, -, rfl⟩ := emits_inTurn.mp hanswer
            obtain ⟨-, rfl, rfl⟩ := Op.emits_fail.mp (emits_note_bind.mp hend)
            exact ⟨_, append_three _ _ _ _ _, .reported (hexecuted _ rfl) hcounts fun _ => hallowed⟩
          · cases hr
        · rcases emits_attempt hattempt with ⟨_, _, hr⟩ | ⟨_, _, hr⟩ | ⟨hpanic, hr⟩
          · cases hr
          · cases hr
          · cases hr
            obtain ⟨t₂, -, rfl⟩ := emits_inTurn.mp hpanic
            exact ⟨_, append_two _ _ _ _, .reported (hexecuted _ rfl) hcounts fun _ => hallowed⟩

/-- **What an attempt does**: the circuit may hold it back; one that is admitted moves the circuit by its report. -/
theorem moved_tryCodeMode (hserial : svc.otherTurns = fun _ circuit => circuit) {history : List StoredMessage}
    {tools : List McpToolInfo} {deferSuccessFinish : Bool} {s s' : AgentTurn ω} {items : List String}
    {r : Except Failure (Option CodeModeCompletion)}
    (h : Op.Emits (svc.tryCodeMode history tools deferSuccessFinish) s items r s') :
    (s'.path = s.path ∧ s'.circuit.isOpen = s.circuit.isOpen ∧ s'.circuit.alertStreak = s.circuit.alertStreak) ∨
    ∃ attempted circuit l, nextCodeModeAttempt svc.agentCodeMode s.circuit = (some attempted, circuit) ∧
      s'.path = s.path ++ .attempted attempted :: l ∧ MovesCircuit svc (attempted == .probe) circuit l s'.circuit := by
  unfold tryCodeMode at h
  by_cases henabled : (!svc.agentCodeMode.enabled) = true
  · rw [if_pos henabled] at h
    obtain ⟨-, rfl, rfl⟩ := Op.emits_pure.mp h
    exact .inl ⟨rfl, rfl, rfl⟩
  rw [if_neg henabled] at h
  have hattempted := emits_onCircuit_bind.mp h
  rw [hserial] at hattempted
  dsimp only at hattempted
  cases hattempt : (nextCodeModeAttempt svc.agentCodeMode s.circuit).1 with
  | none =>
    rw [hattempt] at hattempted
    obtain ⟨-, rfl, rfl⟩ := Op.emits_pure.mp hattempted
    refine .inl ⟨rfl, ?_⟩
    unfold nextCodeModeAttempt at hattempt ⊢
    split_ifs at hattempt ⊢
    exact ⟨rfl, rfl⟩
  | some attempted =>
    rw [hattempt] at hattempted
    have hnoted := emits_note_bind.mp hattempted
    -- the path, behind the event of the attempt
    have hpath {items' : List String} {r' : Except Failure (Option CodeModeCompletion)} {s₁ : AgentTurn ω}
        (hmode : Op.Emits (svc.completeWithCodeMode history tools (attempted == .probe) deferSuccessFinish) { s with
            circuit := (nextCodeModeAttempt svc.agentCodeMode s.circuit).2
            path := s.path ++ [.attempted attempted] } items' r' s₁) :
        ∃ circuit l, nextCodeModeAttempt svc.agentCodeMode s.circuit = (some attempted, circuit) ∧
          s₁.path = s.path ++ .attempted attempted :: l ∧ MovesCircuit svc (attempted == .probe) circuit l s₁.circuit := by
      obtain ⟨l, hl, hmoved⟩ := moved_completeWithCodeMode hserial hmode
      refine ⟨_, l, Prod.ext hattempt rfl, ?_, hmoved⟩
      rw [hl, List.append_assoc]
      rfl
    rcases Op.emits_bind.mp hnoted with ⟨_, result, s₁, _, hresult, hend, -⟩ | ⟨failure, hresult, rfl⟩
    · rcases emits_attempt hresult with ⟨completion, hmode, hr⟩ | ⟨err, hmode, hr⟩ | ⟨-, hr⟩
      · cases hr
        obtain ⟨-, rfl, rfl⟩ := Op.emits_pure.mp hend
        exact .inr ⟨attempted, hpath hmode⟩
      · cases hr
        obtain ⟨-, rfl, rfl⟩ := Op.emits_pure.mp hend
        exact .inr ⟨attempted, hpath hmode⟩
      · cases hr
    · rcases emits_attempt hresult with ⟨_, _, hr⟩ | ⟨_, _, hr⟩ | ⟨hmode, hr⟩
      · cases hr
      · cases hr
      · cases hr
        exact .inr ⟨attempted, hpath hmode⟩

end AgentService

/-! ## The circuit -/

section Circuit

variable {ratioReached : Nat → Nat → Bool} {settings : AgentCodeModeSettings} {record : CodeModeAuditRecord}
  {circuit circuit' : TimeoutCircuit}

theorem nextAttempt_normal (h : nextCodeModeAttempt settings circuit = (some .normal, circuit')) :
    circuit.isOpen = false ∧ circuit' = circuit := by
  unfold nextCodeModeAttempt at h
  split_ifs at h with hopen
  · exact ⟨by simpa using hopen, (Prod.mk.inj h).2.symm⟩
  · simp only [Prod.mk.injEq] at h
    split_ifs at h <;> simp at h

theorem nextAttempt_probe (h : nextCodeModeAttempt settings circuit = (some .probe, circuit')) :
    circuit.isOpen = true ∧ circuit'.isOpen = circuit.isOpen ∧ circuit'.alertStreak = circuit.alertStreak := by
  unfold nextCodeModeAttempt at h
  split_ifs at h with hopen
  · simp at h
  · obtain ⟨-, rfl⟩ := Prod.mk.inj h
    exact ⟨by simpa using hopen, rfl, rfl⟩

/-- The circuit is switched on. -/
def AgentCodeModeSettings.guarded (settings : AgentCodeModeSettings) : Bool :=
  settings.timeoutAutoShadowEnabled && !settings.shadowMode

theorem update_off (hoff : settings.guarded = false) :
    updateCodeModeTimeoutCircuit ratioReached settings record circuit = (.none, circuit) := by
  refine if_pos ?_
  rw [AgentCodeModeSettings.guarded, Bool.and_eq_false_iff] at hoff
  rcases hoff with hdisabled | hshadow
  · rw [hdisabled]
    rfl
  · rw [Bool.not_eq_false'] at hshadow
    rw [hshadow, Bool.or_true]

theorem update_on (hon : settings.guarded = true) :
    updateCodeModeTimeoutCircuit ratioReached settings record circuit =
      let next := nextCodeModeTimeoutStreak ratioReached circuit.alertStreak record
      if max settings.timeoutAutoShadowStreak 1 ≤ next then
        (if circuit.isOpen then .none else .opened, { circuit with alertStreak := next, isOpen := true })
      else if circuit.isOpen && !shouldWarnCodeModeTimeouts ratioReached record then
        (.closed, { alertStreak := 0, isOpen := false, probeCounter := 0 })
      else (.none, { circuit with alertStreak := next }) := by
  rw [AgentCodeModeSettings.guarded, Bool.and_eq_true, Bool.not_eq_true'] at hon
  unfold updateCodeModeTimeoutCircuit shouldOpenCodeModeTimeoutCircuit
  simp only [hon.1, hon.2, Bool.not_true, Bool.or_false, Bool.false_eq_true, if_false, Bool.not_false, Bool.true_and,
    decide_eq_true_eq]

theorem update_alerted (hon : settings.guarded = true) (halert : shouldWarnCodeModeTimeouts ratioReached record = true) :
    let next := min (circuit.alertStreak + 1) (2 ^ 64 - 1)
    let update := updateCodeModeTimeoutCircuit ratioReached settings record circuit
    update.2.alertStreak = next ∧
      update.2.isOpen = (circuit.isOpen || decide (max settings.timeoutAutoShadowStreak 1 ≤ next)) ∧
      (update.1 = .opened ↔ circuit.isOpen = false ∧ max settings.timeoutAutoShadowStreak 1 ≤ next) := by
  dsimp only
  rw [update_on hon]
  simp only [nextCodeModeTimeoutStreak, halert, if_true, Bool.not_true, Bool.and_false, Bool.false_eq_true, if_false]
  generalize min (circuit.alertStreak + 1) (2 ^ 64 - 1) = next
  by_cases hlong : max settings.timeoutAutoShadowStreak 1 ≤ next
  · cases circuit.isOpen <;> simp [hlong]
  · cases circuit.isOpen <;> simp [hlong]

theorem update_quiet (hon : settings.guarded = true) (hquiet : shouldWarnCodeModeTimeouts ratioReached record = false) :
    let update := updateCodeModeTimeoutCircuit ratioReached settings record circuit
    update.2.alertStreak = 0 ∧ update.2.isOpen = false ∧ update.1 ≠ .opened := by
  have hshort : ¬ max settings.timeoutAutoShadowStreak 1 ≤ 0 := by omega
  dsimp only
  rw [update_on hon]
  simp only [nextCodeModeTimeoutStreak, hquiet, Bool.false_eq_true, if_false, hshort, Bool.not_false, Bool.and_true]
  cases circuit.isOpen <;> simp

end Circuit

theorem shouldWarn_reportAudit {ω : Type} {svc : AgentService ω} {plan : CodeModePlan} {report : CodeModeExecutionReport}
    {forceShadow : Bool} (hcounts : report.timedOutCalls ≤ report.calls.length) :
    shouldWarnCodeModeTimeouts svc.ratioReached (svc.reportAudit plan report forceShadow) =
      timedOutExecution svc.ratioReached (.ok report) := by
  change (decide (report.calls.length ≠ 0) && decide (0 < report.timedOutCalls) && _) = (decide _ && _)
  by_cases htimed : 0 < report.timedOutCalls
  · have hne : report.calls.length ≠ 0 := by omega
    rw [decide_eq_true hne, Bool.true_and]
    rfl
  · simp [htimed]

/-! ## Sequences of attempts -/

/-- The paths of the attempts so far, and the circuit after them. -/
inductive Attempts {ω : Type} (svc : AgentService ω) : List (List PathEvent) → TimeoutCircuit → Prop
  | start : Attempts svc [] {}
  | attempt {paths : List (List PathEvent)} {circuit : TimeoutCircuit} {history : List StoredMessage}
      {tools : List McpToolInfo} {deferSuccessFinish : Bool} {turn : Turn ω} {items : List String}
      {r : Except Failure (Option CodeModeCompletion)} {s' : AgentTurn ω} (h : Attempts svc paths circuit)
      (hrun : Op.Emits (svc.tryCodeMode history tools deferSuccessFinish) { turn := turn, circuit := circuit } items r
        s') : Attempts svc (paths ++ [s'.path]) s'.circuit

/-- The executions of a history that ran their course, or were given up for their time. -/
def historyOf (paths : List (List PathEvent)) : List (Except ExecutionError CodeModeExecutionReport) :=
  (paths.flatMap executions).filter ranInTime

/-- No execution of the attempt was given up for its time. -/
def InTime (path : List PathEvent) : Prop := ∀ err, .error err ∈ executions path → err.outOfTime = false

/-- The circuit has counted the streak, and is open where it is long enough. -/
structure Counted {ω : Type} (svc : AgentService ω) (paths : List (List PathEvent)) (circuit : TimeoutCircuit) :
    Prop where
  counted : circuit.alertStreak = min (streak svc.ratioReached (historyOf paths)) (2 ^ 64 - 1)
  opened : max svc.agentCodeMode.timeoutAutoShadowStreak 1 ≤ circuit.alertStreak → circuit.isOpen = true

theorem historyOf_concat (paths : List (List PathEvent)) (path : List PathEvent) :
    historyOf (paths ++ [path]) = historyOf paths ++ (executions path).filter ranInTime := by
  rw [historyOf, List.flatMap_append, List.flatMap_singleton, List.filter_append, historyOf]

section Runs

variable {ω : Type} {svc : AgentService ω} {paths : List (List PathEvent)} {circuit circuit' : TimeoutCircuit}
  {l : List PathEvent} {forceShadow : Bool}

theorem Counted.keep (h : Counted svc paths circuit) (hopen : circuit'.isOpen = circuit.isOpen)
    (hstreak : circuit'.alertStreak = circuit.alertStreak) (hl : (executions l).filter ranInTime = []) :
    Counted svc (paths ++ [l]) circuit' where
  counted := by rw [hstreak, historyOf_concat, hl, List.append_nil, h.counted]
  opened := by
    rw [hstreak, hopen]
    exact h.opened

theorem Counted.report (hon : svc.agentCodeMode.guarded = true) (h : Counted svc paths circuit) {plan : CodeModePlan}
    {report : CodeModeExecutionReport} (hl : executions l = [.ok report])
    (hcounts : report.timedOutCalls ≤ report.calls.length) :
    Counted svc (paths ++ [l]) (updateCodeModeTimeoutCircuit svc.ratioReached svc.agentCodeMode
      (svc.reportAudit plan report forceShadow) circuit).2 := by
  have hhistory : historyOf (paths ++ [l]) = historyOf paths ++ [.ok report] := by
    rw [historyOf_concat, hl]
    rfl
  have hwarn := @shouldWarn_reportAudit _ svc plan report forceShadow hcounts
  cases halert : timedOutExecution svc.ratioReached (.ok report) with
  | true =>
    obtain ⟨hnext, hopen, -⟩ := @update_alerted _ _ _ circuit hon (hwarn.trans halert)
    refine ⟨?_, fun hlong => ?_⟩
    · rw [hnext, hhistory, streak_concat, if_pos halert, h.counted]
      omega
    · rw [hnext] at hlong
      rw [hopen, decide_eq_true hlong, Bool.or_true]
  | false =>
    obtain ⟨hnext, hopen, -⟩ := @update_quiet _ _ _ circuit hon (hwarn.trans halert)
    refine ⟨?_, fun hlong => ?_⟩
    · rw [hnext, hhistory, streak_concat, halert]
      rfl
    · rw [hnext] at hlong
      omega

/-- What an attempt does to an open circuit, and to its answers. -/
theorem MovesCircuit.guards (h : MovesCircuit svc forceShadow circuit l circuit') (hopen : circuit.isOpen = true → forceShadow = true) :
    (circuit.isOpen = true ∨ circuit'.isOpen = true → answers l = false) ∧
      (circuit.isOpen = true → circuit'.isOpen = false → ∃ report, .ok report ∈ executions l ∧
        timedOutExecution svc.ratioReached (.ok report) = false) := by
  cases h with
  | unexecuted hl hanswers => exact ⟨fun _ => hanswers, fun h h' => (by cases h.symm.trans h')⟩
  | failed hl hanswers => exact ⟨fun _ => hanswers, fun h h' => (by cases h.symm.trans h')⟩
  | @reported plan report hl hcounts hanswers =>
    have hwarn := @shouldWarn_reportAudit _ svc plan report forceShadow hcounts
    cases hguarded : svc.agentCodeMode.guarded with
    | false =>
      rw [update_off hguarded] at hanswers ⊢
      refine ⟨fun h => ?_, fun h h' => (by cases h.symm.trans h')⟩
      rw [or_self_iff] at h
      rw [Bool.eq_false_iff]
      exact fun hyes => (hanswers hyes).1 (hopen h)
    | true =>
      cases halert : timedOutExecution svc.ratioReached (.ok report) with
      | true =>
        obtain ⟨-, hstate, hopened⟩ := @update_alerted _ _ _ circuit hguarded (hwarn.trans halert)
        refine ⟨fun h => ?_, fun h h' => ?_⟩
        · rw [Bool.eq_false_iff]
          intro hyes
          obtain ⟨hnormal, hnot⟩ := hanswers hyes
          have hclosed : circuit.isOpen = false := by
            rw [Bool.eq_false_iff]
            exact fun h => hnormal (hopen h)
          rw [hstate, hclosed, Bool.false_or, decide_eq_true_eq, or_iff_right Bool.false_ne_true] at h
          exact hnot (hopened.mpr ⟨hclosed, h⟩)
        · rw [hstate, h, Bool.true_or] at h'
          cases h'
      | false =>
        obtain ⟨-, hstate, -⟩ := @update_quiet _ _ _ circuit hguarded (hwarn.trans halert)
        refine ⟨fun h => ?_, fun _ _ => ⟨report, by rw [hl]; exact List.mem_singleton_self _, halert⟩⟩
        rw [hstate, or_iff_left Bool.false_ne_true] at h
        rw [Bool.eq_false_iff]
        exact fun hyes => (hanswers hyes).1 (hopen h)

end Runs

section Runs

variable {ω : Type} {svc : AgentService ω} {paths : List (List PathEvent)} {circuit : TimeoutCircuit}
  {history : List StoredMessage} {tools : List McpToolInfo} {deferSuccessFinish : Bool} {turn : Turn ω}
  {items : List String} {r : Except Failure (Option CodeModeCompletion)} {s' : AgentTurn ω}

theorem executions_attempted (attempted : CodeModeAttempt) (l : List PathEvent) :
    executions (.attempted attempted :: l) = executions l := rfl

theorem answers_attempted (attempted : CodeModeAttempt) (l : List PathEvent) :
    answers (.attempted attempted :: l) = answers l := rfl

/-- An attempt that is not given up for its time is counted. -/
theorem Counted.attempt (hserial : svc.otherTurns = fun _ circuit => circuit) (hon : svc.agentCodeMode.guarded = true)
    (h : Counted svc paths circuit)
    (hrun : Op.Emits (svc.tryCodeMode history tools deferSuccessFinish) { turn := turn, circuit := circuit } items r s')
    (hintime : InTime s'.path) : Counted svc (paths ++ [s'.path]) s'.circuit := by
  rcases AgentService.moved_tryCodeMode hserial hrun with ⟨hpath, hopen, hstreak⟩ |
    ⟨attempted, circuit₁, l, hnext, hpath, hmoved⟩
  · exact h.keep hopen hstreak (by rw [hpath]; rfl)
  · have hpath' : s'.path = .attempted attempted :: l := hpath
    have hsame : circuit₁.isOpen = circuit.isOpen ∧ circuit₁.alertStreak = circuit.alertStreak := by
      cases attempted with
      | normal =>
        obtain ⟨-, rfl⟩ := nextAttempt_normal hnext
        exact ⟨rfl, rfl⟩
      | probe => exact (nextAttempt_probe hnext).2
    have hcircuit₁ : Counted svc paths circuit₁ := by
      refine ⟨by rw [hsame.2, h.counted], ?_⟩
      rw [hsame.1, hsame.2]
      exact h.opened
    rw [InTime, hpath', executions_attempted] at hintime
    rw [hpath']
    generalize hafter : s'.circuit = after at hmoved
    cases hmoved with
    | unexecuted hl _ => exact hcircuit₁.keep rfl rfl (by rw [executions_attempted, hl]; rfl)
    | @failed err hl _ =>
      refine hcircuit₁.keep rfl rfl ?_
      have hout := hintime err (by rw [hl]; exact List.mem_singleton_self _)
      rw [executions_attempted, hl, List.filter_cons_of_neg (by simp [ranInTime, hout])]
      rfl
    | @reported plan report hl hcounts _ => exact hcircuit₁.report hon (by rw [executions_attempted, hl]) hcounts

theorem counted_run (hserial : svc.otherTurns = fun _ circuit => circuit) (hon : svc.agentCodeMode.guarded = true)
    (h : Attempts svc paths circuit) (hintime : ∀ path ∈ paths, InTime path) : Counted svc paths circuit := by
  induction h with
  | start =>
    refine ⟨rfl, fun hlong => ?_⟩
    change max svc.agentCodeMode.timeoutAutoShadowStreak 1 ≤ 0 at hlong
    omega
  | @attempt paths circuit _ _ _ _ _ _ s' h hrun ih =>
    refine (ih fun path hpath => hintime path (List.mem_append_left _ hpath)).attempt hserial hon hrun ?_
    exact hintime s'.path (List.mem_append_right _ (List.mem_singleton_self _))

/-- **The timeout circuit counts the executions that time out**, unless one is given up for its time: in every sequence
of attempts without such an execution, the circuit is open once the configured streak of executions has timed out.
While it is open no execution is used for an answer, and only a probe that has executed in time closes it. -/
theorem timeout_circuit_counts (svc : AgentService ω) (hserial : svc.otherTurns = fun _ circuit => circuit)
    (hstreak : svc.agentCodeMode.timeoutAutoShadowStreak < 2 ^ 64) {paths : List (List PathEvent)}
    {circuit : TimeoutCircuit} (h : Attempts svc paths circuit) (hintime : ∀ path ∈ paths, InTime path) :
    (svc.agentCodeMode.guarded = true →
      max svc.agentCodeMode.timeoutAutoShadowStreak 1 ≤ streak svc.ratioReached (historyOf paths) →
        circuit.isOpen = true) ∧
    ∀ history tools deferSuccessFinish turn items r s',
      Op.Emits (svc.tryCodeMode history tools deferSuccessFinish) { turn := turn, circuit := circuit } items r s' →
        (circuit.isOpen = true ∨ s'.circuit.isOpen = true → answers s'.path = false) ∧
        (circuit.isOpen = true → s'.circuit.isOpen = false → .attempted .probe ∈ s'.path ∧
          ∃ report, .ok report ∈ executions s'.path ∧ timedOutExecution svc.ratioReached (.ok report) = false) := by
  refine ⟨fun hon hlong => ?_, fun history tools deferSuccessFinish turn items r s' hrun => ?_⟩
  · have hcounted := counted_run hserial hon h hintime
    refine hcounted.opened ?_
    rw [hcounted.counted]
    omega
  · rcases AgentService.moved_tryCodeMode hserial hrun with ⟨hpath, hopen, -⟩ |
      ⟨attempted, circuit₁, l, hnext, hpath, hmoved⟩
    · have hpath' : s'.path = [] := hpath
      have hopen' : s'.circuit.isOpen = circuit.isOpen := hopen
      rw [hpath', hopen']
      exact ⟨fun _ => rfl, fun h h' => (by cases h.symm.trans h')⟩
    · have hpath' : s'.path = .attempted attempted :: l := hpath
      rw [hpath', answers_attempted, executions_attempted]
      cases attempted with
      | normal =>
        obtain ⟨hclosed, hsame⟩ := nextAttempt_normal hnext
        have hclosed' : circuit.isOpen = false := hclosed
        have hsame' : circuit₁ = circuit := hsame
        rw [hsame'] at hmoved
        have hguards := hmoved.guards fun h => (by cases h.symm.trans hclosed')
        exact ⟨hguards.1, fun h => (by cases h.symm.trans hclosed')⟩
      | probe =>
        obtain ⟨-, hsame, -⟩ := nextAttempt_probe hnext
        have hsame' : circuit₁.isOpen = circuit.isOpen := hsame
        have hguards := hmoved.guards fun _ => rfl
        rw [hsame'] at hguards
        exact ⟨hguards.1, fun h h' => ⟨List.mem_cons_self, hguards.2 h h'⟩⟩

end Runs

namespace Sample

/-- The clock's service, with a circuit that one execution opens. -/
def guardedAgent (maxParallel : Nat) : AgentService (List String) :=
  { clockAgent maxParallel with
    agentCodeMode := { (clockAgent maxParallel).agentCodeMode with
      timeoutAutoShadowEnabled := true, timeoutAutoShadowStreak := 1 } }

def clockToolset : List McpToolInfo := clockTools.map fun tool => { tool with codeModeCapabilities := some {} }

/-- One attempt with these texts. -/
def guardedRun (maxParallel : Nat) (replies : List String) :
    Outcome String (Except Failure (Option CodeModeCompletion) × AgentTurn (List String)) Unit :=
  run takeAll ((guardedAgent maxParallel).tryCodeMode clockQuestion clockToolset false
    { turn := { world := replies } }) ()

theorem attempts_guardedRun (maxParallel : Nat) (replies : List String) :
    Attempts (guardedAgent maxParallel) [(guardedRun maxParallel replies).value.2.path]
      (guardedRun maxParallel replies).value.2.circuit :=
  @Attempts.attempt _ _ _ _ clockQuestion _ _ _ _ _ _ .start (emits_run _ ())

end Sample

/-- An execution that the runtime budget ends is not counted: a streak of one leaves the circuit closed. -/
theorem aborted_execution_uncounted : ¬ ∀ (paths : List (List PathEvent)) (circuit : TimeoutCircuit),
    Attempts (Sample.guardedAgent 1) paths circuit →
      max (Sample.guardedAgent 1).agentCodeMode.timeoutAutoShadowStreak 1 ≤
        streak (Sample.guardedAgent 1).ratioReached (historyOf paths) → circuit.isOpen = true := by
  intro h
  have hopen := h _ _ (Sample.attempts_guardedRun 1 [Sample.render Sample.clockPlan, "tick",
    Sample.render Sample.clockCall, "It is noon."]) (by decide +kernel)
  revert hopen
  decide +kernel

theorem timeout_circuit_counts_clock :
    let run := (Sample.guardedRun 2 [Sample.render Sample.clockPlan, "tick", "tick", "It is noon."]).value.2
    ((Sample.guardedAgent 2).agentCodeMode.guarded = true →
      max (Sample.guardedAgent 2).agentCodeMode.timeoutAutoShadowStreak 1 ≤
        streak (Sample.guardedAgent 2).ratioReached (historyOf [run.path]) → run.circuit.isOpen = true) ∧
    ∀ history tools deferSuccessFinish turn items r s',
      Op.Emits ((Sample.guardedAgent 2).tryCodeMode history tools deferSuccessFinish)
          { turn := turn, circuit := run.circuit } items r s' →
        (run.circuit.isOpen = true ∨ s'.circuit.isOpen = true → answers s'.path = false) ∧
        (run.circuit.isOpen = true → s'.circuit.isOpen = false → .attempted .probe ∈ s'.path ∧
          ∃ report, .ok report ∈ executions s'.path ∧
            timedOutExecution (Sample.guardedAgent 2).ratioReached (.ok report) = false) := by
  refine timeout_circuit_counts (Sample.guardedAgent 2) rfl (by decide) (Sample.attempts_guardedRun 2 _) ?_
  have hfine : (executions (Sample.guardedRun 2 [Sample.render Sample.clockPlan, "tick", "tick",
      "It is noon."]).value.2.path).all (fun result => result.isOk) = true := by
    decide +kernel
  intro path hpath err herr
  rw [List.mem_singleton.mp hpath] at herr
  have hok := List.all_eq_true.mp hfine _ herr
  cases hok

end Xiaomaolv
