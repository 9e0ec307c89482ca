import Xiaomaolv.Loop.Gate
import Xiaomaolv.Loop.Graph
import Xiaomaolv.Loop.Worker

/-!
# The numbers of a record

A row holds its numbers as integers; a record holds an attempt number in eight bits and a goal
revision in thirty-two. The narrowing happens at every read, and in a claim after its commit.

* `listAttempts`, `handOutClaim`: the list of a goal's attempts, and the second transaction of a claim.
* `NumbersFit`: the step leaves revisions below `2 ^ 32`, and claims no item with 255 attempts.
* `Narrow`: the invariant; **`narrow_exec`**: a step that fits keeps it.
* **`attempt_numbers`**: along a run that fits, every goal loads and every claim is whole.
-/

namespace Xiaomaolv

open Table LoopStore

/-! ## Reads -/

/-- `list_attempts`. -/
def listAttempts (goalId : String) : Op (List AttemptRecord) :=
  query fun s => do
    ensureValidId goalId "goal id"
    decodeAll decodeAttempt ((s.attempts.filter fun a => a.goalId = goalId).insertionSort
      fun a b => a.attemptNumber < b.attemptNumber ∨
        (a.attemptNumber = b.attemptNumber ∧ a.id ≤ b.id))

/-- The claim of `claim_ready_work_item`, after its recovery. -/
def handOutClaim (goalId : String) (stepId : Option String) (workerId : String) (leaseSecs : Nat)
    (actor leaseToken attemptId : String) (now : Int) : Op (Option WorkClaim) := do
  let work ← transact (claimTx goalId stepId workerId leaseSecs actor leaseToken attemptId now)
  match work with
  | none => pure none
  | some work => do
    let claim ← query fun _ => work.toClaim
    pure (some claim)

theorem claimReadyWorkItem_eq (goalId : String) (stepId : Option String) (workerId : String)
    (leaseSecs : Nat) (actor leaseToken attemptId : String) (now later : Int) :
    claimReadyWorkItem goalId stepId workerId leaseSecs actor leaseToken attemptId now later =
      (do
        transact_ (recoverGoalState goalId actor now)
        handOutClaim goalId stepId workerId leaseSecs actor leaseToken attemptId later) := rfl

section Decoding

variable {α β : Type} {decode : α → Except String β}

theorem decodeAll_isOk {rows : List α} (h : ∀ a ∈ rows, ∃ b, decode a = .ok b) :
    ∃ records, decodeAll decode rows = .ok records := by
  induction rows with
  | nil => exact ⟨[], rfl⟩
  | cons a rows ih =>
    obtain ⟨b, hb⟩ := h a List.mem_cons_self
    obtain ⟨bs, hbs⟩ := ih fun x hx => h x (List.mem_cons_of_mem _ hx)
    exact ⟨b :: bs, by rw [decodeAll, hb, hbs]; rfl⟩

theorem decodeAll_error {rows : List α} {a : α} (ha : a ∈ rows) {e : String}
    (h : decode a = .error e) : ∃ e', decodeAll decode rows = .error e' := by
  cases hall : decodeAll decode rows with
  | error e' => exact ⟨e', rfl⟩
  | ok records =>
    exfalso
    induction rows generalizing records with
    | nil => cases ha
    | cons x rows ih =>
      simp only [decodeAll, bind_eq_ok] at hall
      obtain ⟨b, hb, bs, hbs, -⟩ := hall
      rcases List.mem_cons.mp ha with rfl | ha
      · rw [h] at hb
        cases hb
      · exact ih ha bs hbs

end Decoding

theorem decodeAttempt_isOk {a : AttemptRow} (h : a.attemptNumber ≤ 255) :
    ∃ record, decodeAttempt a = .ok record := by
  have hlt : a.attemptNumber < 2 ^ 8 := by omega
  unfold decodeAttempt u8TryFrom
  rw [if_pos hlt]
  exact ⟨_, rfl⟩

theorem decodeAttempt_error {a : AttemptRow} (h : 255 < a.attemptNumber) :
    decodeAttempt a = .error "invalid attempt number" := by
  have hge : ¬ a.attemptNumber < 2 ^ 8 := by omega
  unfold decodeAttempt u8TryFrom
  rw [if_neg hge]
  rfl

theorem decodeWorkItem_isOk {w : WorkItemRow} (h : w.maxAttempts ≤ 10) (ho : w.ordinal < 2 ^ 32) :
    ∃ record, decodeWorkItem w = .ok record := by
  have hlt : w.maxAttempts < 2 ^ 8 := by omega
  unfold decodeWorkItem u8TryFrom u32TryFrom
  rw [if_pos hlt, if_pos ho]
  exact ⟨_, rfl⟩

theorem decodeGoal_isOk {g : GoalRow} (h : g.revision < 2 ^ 32) :
    ∃ record, decodeGoal g = .ok record := by
  unfold decodeGoal u32TryFrom
  rw [if_pos h]
  exact ⟨_, rfl⟩

/-! ## Plans and items -/

/-- What validation bounds: how many steps there are, and how often each is tried. -/
structure WorkflowSpec.IsBounded (spec : WorkflowSpec) : Prop where
  steps : spec.steps.length ≤ 32
  maxAttempts : ∀ step ∈ spec.steps, step.retry.maxAttempts ≤ 10

section Checks

variable {enc : Encoding} {externalWrite : ExternalWritePolicy}

theorem withinLimits_of_validate {request : PlanGoalRequest}
    (h : request.validateWithPolicy enc externalWrite = .ok ()) :
    request.workflow.WithinLimits enc externalWrite := by
  rw [PlanGoalRequest.validateWithPolicy, bind_eq_ok] at h
  obtain ⟨_, hworkflow, -⟩ := h
  exact (validateWithPolicy_iff.mp hworkflow).1

theorem isBounded_of_validate {request : PlanGoalRequest}
    (h : request.validateWithPolicy enc externalWrite = .ok ()) : request.workflow.IsBounded := by
  have hlimits := withinLimits_of_validate h
  refine ⟨hlimits.steps.2, fun step hs => ?_⟩
  obtain ⟨-, -, -, -, hmax, -⟩ := hlimits.each step hs
  exact hmax

theorem checkExtension_maxAttempts {manifest : List EffectClass} {seen : List String}
    {steps : List WorkflowStep}
    (h : checkExtension enc manifest externalWrite seen steps = .ok ()) :
    ∀ step ∈ steps, 1 ≤ step.retry.maxAttempts ∧ step.retry.maxAttempts ≤ 10 := by
  induction steps generalizing seen with
  | nil => simp
  | cons x steps ih =>
    rw [checkExtension] at h
    simp only [ensure_bind_eq_ok] at h
    obtain ⟨-, -, -, -, -, hmax, -, -, h⟩ := h
    intro step hs
    rcases List.mem_cons.mp hs with rfl | hs
    · simpa only [Bool.and_eq_true, decide_eq_true_eq] using hmax
    · exact ih h step hs

end Checks

/-- The item decodes. -/
structure WorkItemRow.IsNarrow (w : WorkItemRow) : Prop where
  maxAttempts : w.maxAttempts ≤ 10
  ordinal : w.ordinal < 2 ^ 32

theorem WorkItemRow.IsNarrow.of_origin {w w' : WorkItemRow} (h : w.IsNarrow)
    (ho : w'.origin = w.origin) : w'.IsNarrow := by
  have hmax := congrArg WorkItemRow.maxAttempts ho
  have hord := congrArg WorkItemRow.ordinal ho
  exact ⟨hmax.trans_le h.maxAttempts, hord.trans_lt h.ordinal⟩

/-! ## The invariant -/

/-- Every plan is bounded, and every item and attempt decodes. -/
structure Narrow (s : Store) : Prop where
  plans : ∀ p ∈ s.workflows, p.workflow.IsBounded
  items : ∀ w ∈ s.workItems, w.IsNarrow
  attempts : ∀ a ∈ s.attempts, a.attemptNumber ≤ 255

theorem narrow_empty : Narrow .empty := by
  constructor <;> simp [Store.empty]

/-- A claim meets no item that has used up its attempt numbers. -/
def Txn.numberFits (s : Store) : Txn → Bool
  | .claimWork goalId stepId _ _ _ _ _ now =>
    (claimCandidate? goalId stepId now s).all fun row =>
      (s.attempts.filter fun a => a.workItemId = row.id).length < 255
  | _ => true

/-- The revisions stay below their width, and a claim meets no item that has used up its attempt
numbers. A step adds one to a revision at most, and the recovery of a load one more. -/
def NumbersFit (s : Store) (t : Txn) : Prop :=
  (∀ g ∈ s.goals, g.revision + 2 < 2 ^ 32) ∧ t.numberFits s = true

instance (s : Store) (t : Txn) : Decidable (NumbersFit s t) :=
  inferInstanceAs (Decidable (_ ∧ _))

section Steps

variable {enc : Encoding} {s s' : Store} {t : Txn}

theorem revision_apply (hw : WellFormed s) (ht : s.apply enc t = .ok s') {g' : GoalRow}
    (hg' : g' ∈ s'.goals) : g'.revision = 1 ∨ ∃ g ∈ s.goals, g'.revision ≤ g.revision + 1 := by
  rcases goal_apply hw ht hg' with ⟨g, hg, -, rfl | ⟨e, -, hstep⟩⟩ | ⟨-, -, hnew⟩
  · exact .inr ⟨g', hg, by omega⟩
  · exact .inr ⟨g, hg, hstep.revision_le_succ⟩
  · exact .inl hnew

theorem revision_exec (hw : WellFormed s) {k : Nat} (hk : k ≤ 1)
    (h : ∀ g ∈ s.goals, g.revision + (k + 1) < 2 ^ 32) :
    ∀ g ∈ (exec enc s t).goals, g.revision + k < 2 ^ 32 := by
  intro g hg
  rcases exec_cases enc s t with he | he
  · rw [he] at hg
    have hlt := h g hg
    omega
  · rcases revision_apply hw he hg with hone | ⟨g₀, hg₀, hle⟩
    · omega
    · have hlt := h g₀ hg₀
      omega

theorem plans_written (ht : s.apply enc t = .ok s') {p : WorkflowRow} (hp : p ∈ s'.workflows) :
    p ∈ s.workflows ∨ ∃ (request : PlanGoalRequest) (externalWrite : ExternalWritePolicy),
      request.validateWithPolicy enc externalWrite = .ok () ∧ p.workflow = request.workflow := by
  by_cases hplan : t.isPlanning = false
  · rw [(plans_apply ht hplan).1] at hp
    exact .inl hp
  cases t with
  | planGoal goalId request externalWrite actor planId =>
    obtain ⟨goal, -, -, hv, -, rfl⟩ := planGoal_ok ht
    rcases List.mem_append.mp hp with hp | hp
    · exact .inl hp
    · cases List.mem_singleton.mp hp
      exact .inr ⟨request, externalWrite, hv, rfl⟩
  | approveGoal =>
    obtain ⟨goal, plan, workItems, new, dependencies, -, -, -, -, -, -, -, -, -, rfl⟩ :=
      approveGoal_ok ht
    exact .inl hp
  | _ => exact absurd rfl hplan

/-- An item is written by an approval, for a step of a stored plan, or by an extension, for a step that was
checked; it keeps the columns it is created with. -/
theorem items_written (ht : s.apply enc t = .ok s') {w : WorkItemRow} (hwm : w ∈ s'.workItems) :
    (∃ w₀ ∈ s.workItems, w.origin = w₀.origin) ∨
    (∃ goalId, ∃ plan ∈ s.workflows, ∃ workId i step, plan.workflow.steps[i]? = some step ∧
      w = approvedItem goalId plan workId (0 + i) step) ∨
    ∃ goalId planId manifest externalWrite seen workId steps i step,
      nextOrdinal goalId s + steps.length ≤ 2 ^ 32 ∧
      checkExtension enc manifest externalWrite seen steps = .ok () ∧ steps[i]? = some step ∧
      w = extendedItem goalId planId workId (nextOrdinal goalId s) (0 + i) step := by
  by_cases hm : t.isMaterializing = false
  · obtain ⟨w₀, hw₀, ho⟩ := exists_of_map_eq (itemOrigins_apply ht hm).symm hwm
    exact .inl ⟨w₀, hw₀, ho.symm⟩
  cases t with
  | approveGoal goalId request externalWrite internalPolicy actor approvalId workId =>
    obtain ⟨goal, plan, workItems, new, dependencies, -, -, -, hplan, -, -, hitems, -, -, rfl⟩ :=
      approveGoal_ok ht
    rw [show _ = workItems from rfl, (materializeItems_ok hitems).1] at hwm
    rcases List.mem_append.mp hwm with hwm | hwm
    · exact .inl ⟨w, hwm, rfl⟩
    · obtain ⟨i, step, hi, rfl⟩ := mem_newItems.mp hwm
      exact .inr (.inl ⟨goalId, plan, List.mem_of_find?_eq_some hplan, workId, i, step, hi, rfl⟩)
  | extendWorkflow goalId steps externalWrite actor workId =>
    obtain ⟨goal, plan, workItems, new, dependencies, -, -, -, -, hord, hcheck, hitems, -, -, rfl⟩ :=
      extendWorkflow_ok ht
    rw [(refreshGoalStatus_tables goalId).1, show _ = workItems from rfl,
      (materializeItems_ok hitems).1] at hwm
    rcases List.mem_append.mp hwm with hwm | hwm
    · exact .inl ⟨w, hwm, rfl⟩
    · obtain ⟨i, step, hi, rfl⟩ := mem_newItems.mp hwm
      exact .inr (.inr ⟨goalId, plan.id, _, externalWrite, _, workId, steps, i, step, hord, hcheck, hi, rfl⟩)
  | _ => exact absurd rfl hm

theorem plan_bounded (h : Narrow s) (ht : s.apply enc t = .ok s') :
    ∀ p ∈ s'.workflows, p.workflow.IsBounded := by
  intro p hp
  rcases plans_written ht hp with hp | ⟨request, externalWrite, hv, hworkflow⟩
  · exact h.plans p hp
  · rw [hworkflow]
    exact isBounded_of_validate hv

theorem items_narrow (h : Narrow s) (ht : s.apply enc t = .ok s') :
    ∀ w ∈ s'.workItems, w.IsNarrow := by
  intro w hwm
  rcases items_written ht hwm with ⟨w₀, hw₀, ho⟩ | ⟨goalId, plan, hplan, workId, i, step, hi, rfl⟩ |
    ⟨goalId, planId, manifest, externalWrite, seen, workId, steps, i, step, hord, hcheck, hi, rfl⟩
  · exact (h.items w₀ hw₀).of_origin ho
  · have hbounded := h.plans plan hplan
    have hlt : i < plan.workflow.steps.length := (List.getElem?_eq_some_iff.mp hi).1
    have hlen := hbounded.steps
    refine ⟨hbounded.maxAttempts step (List.mem_of_getElem? hi), ?_⟩
    show 0 + i < 2 ^ 32
    omega
  · have hlt : i < steps.length := (List.getElem?_eq_some_iff.mp hi).1
    refine ⟨(checkExtension_maxAttempts hcheck step (List.mem_of_getElem? hi)).2, ?_⟩
    show nextOrdinal goalId s + (0 + i) < 2 ^ 32
    omega

/-- An attempt is written by a claim only. -/
theorem attemptOrigins_apply (ht : s.apply enc t = .ok s') :
    s'.attempts.map (·.origin) = s.attempts.map (·.origin) ∨
      ∃ goalId stepId workerId leaseSecs actor leaseToken attemptId now row,
        t = .claimWork goalId stepId workerId leaseSecs actor leaseToken attemptId now ∧
        claimCandidate? goalId stepId now s = some row ∧
        s' = claimed goalId row workerId leaseSecs actor leaseToken attemptId now s := by
  by_cases hins : t.inserts = false
  · exact .inl (congrArg Origin.attempts (origin_apply ht hins))
  cases t with
  | createGoal request actor id =>
    rcases createGoal_ok ht with rfl | ⟨g, -, -, -, rfl⟩ <;> exact .inl rfl
  | approveGoal =>
    obtain ⟨goal, plan, workItems, new, dependencies, -, -, -, -, -, -, -, -, -, rfl⟩ :=
      approveGoal_ok ht
    exact .inl rfl
  | extendWorkflow goalId steps externalWrite actor workId =>
    obtain ⟨goal, plan, workItems, new, dependencies, -, -, -, -, -, -, -, -, -, rfl⟩ :=
      extendWorkflow_ok ht
    exact .inl (congrArg (List.map _) (refreshGoalStatus_tables goalId).2.1)
  | claimWork goalId stepId workerId leaseSecs actor leaseToken attemptId now =>
    rcases claimWork_ok ht with rfl | ⟨goal, row, -, -, hrow, -, rfl⟩
    · exact .inl rfl
    · exact .inr ⟨goalId, stepId, workerId, leaseSecs, actor, leaseToken, attemptId, now, row, rfl,
        hrow, rfl⟩
  | prepareCheckpoint claim idempotencyKey replaySafe actor checkpointId now =>
    obtain ⟨checkpoint, ht⟩ := prepareCheckpoint_ok ht
    obtain ⟨-, -, -, -, -, rfl | ⟨-, -, -, -, -, rfl⟩⟩ := prepareCheckpointTx_ok ht <;>
      exact .inl rfl
  | _ => exact absurd rfl hins

theorem attempts_narrow (h : Narrow s) (hfit : t.numberFits s = true)
    (ht : s.apply enc t = .ok s') : ∀ a ∈ s'.attempts, a.attemptNumber ≤ 255 := by
  intro a ha
  rcases attemptOrigins_apply ht with hsame | ⟨goalId, stepId, workerId, leaseSecs, actor,
    leaseToken, attemptId, now, row, rfl, hrow, rfl⟩
  · obtain ⟨a₀, ha₀, ho⟩ := exists_of_map_eq hsame.symm ha
    have hnumber := congrArg AttemptRow.attemptNumber ho
    exact hnumber.symm.trans_le (h.attempts a₀ ha₀)
  · rcases List.mem_append.mp ha with ha | ha
    · exact h.attempts a ha
    · cases List.mem_singleton.mp ha
      rw [Txn.numberFits, hrow, Option.all_some, decide_eq_true_eq] at hfit
      exact hfit

/-- **A step that fits keeps every row in its width.** -/
theorem narrow_exec (h : Narrow s) (hfit : t.numberFits s = true) : Narrow (exec enc s t) :=
  exec_keeps h fun _ ht =>
    { plans := plan_bounded h ht
      items := items_narrow h ht
      attempts := attempts_narrow h hfit ht }

end Steps

/-! ## Operations -/

section Ops

variable {α β : Type} {s s' : Store}

theorem bind_of_ok {op : Op α} {a : α} (h : op s = (.ok a, s')) (rest : α → Op β) :
    (op >>= rest) s = rest a s' := by
  show op.bind rest s = _
  simp only [ExceptT.bind, ExceptT.mk, Bind.bind, StateT.bind, h]
  rfl

theorem bind_of_error {op : Op α} {e : String} (h : op s = (.error e, s')) (rest : α → Op β) :
    (op >>= rest) s = (.error e, s') := by
  show op.bind rest s = _
  simp only [ExceptT.bind, ExceptT.mk, Bind.bind, StateT.bind, h]
  rfl

theorem transact_of_error {tx : Store → Except String (α × Store)} {e : String}
    (h : tx s = .error e) : transact tx s = (.error e, s) := by
  simp only [transact, ExceptT.mk, h]

theorem transact_of_ok {tx : Store → Except String (α × Store)} {a : α} (h : tx s = .ok (a, s')) :
    transact tx s = (.ok a, s') := by
  simp only [transact, ExceptT.mk, h]

theorem commit_of_ok {tx : Store → Except String Store} (h : tx s = .ok s') :
    transact_ tx s = (.ok (), s') :=
  transact_of_ok (by rw [h]; rfl)

theorem commit_of_error {tx : Store → Except String Store} {e : String} (h : tx s = .error e) :
    transact_ tx s = (.error e, s) :=
  transact_of_error (by rw [h]; rfl)

theorem query_of_error {read : Store → Except String α} {e : String} (h : read s = .error e) :
    query read s = (.error e, s) := by
  simp only [query, ExceptT.mk, h]

theorem query_of_ok {read : Store → Except String α} {a : α} (h : read s = .ok a) :
    query read s = (.ok a, s) := by
  simp only [query, ExceptT.mk, h]

end Ops

/-! ## Loads -/

/-- Every list and every resume of a goal succeeds. -/
structure Loads (s : Store) : Prop where
  list : ∀ goalId, ensureValidId goalId "goal id" = .ok () →
    ∃ attempts, listAttempts goalId s = (.ok attempts, s)
  resume : ∀ goalId actor now, ensureValidId goalId "goal id" = .ok () →
    ∃ report s', resumeGoal goalId actor now s = (.ok report, s')

section Loading

variable {enc : Encoding} {s : Store} {goalId : String}

/-- The attempts of a goal, in the order in which they are read. -/
def goalAttempts (goalId : String) (s : Store) : List AttemptRow :=
  (s.attempts.filter fun a => a.goalId = goalId).insertionSort
    fun a b => a.attemptNumber < b.attemptNumber ∨ (a.attemptNumber = b.attemptNumber ∧ a.id ≤ b.id)

theorem listAttempts_isOk (h : Narrow s) (hid : ensureValidId goalId "goal id" = .ok ()) :
    ∃ attempts, listAttempts goalId s = (.ok attempts, s) := by
  obtain ⟨attempts, ha⟩ : ∃ attempts, decodeAll decodeAttempt (goalAttempts goalId s) = .ok attempts :=
    decodeAll_isOk fun a ha => decodeAttempt_isOk
      (h.attempts a (List.mem_of_mem_filter ((List.mem_insertionSort _).mp ha)))
  refine ⟨attempts, query_of_ok ?_⟩
  rw [hid]
  exact ha

theorem listAttempts_error {a : AttemptRow} (ha : a ∈ s.attempts) (hgoal : a.goalId = goalId)
    (h : 255 < a.attemptNumber) : ∃ e, listAttempts goalId s = (.error e, s) := by
  have hmem : a ∈ goalAttempts goalId s :=
    (List.mem_insertionSort _).mpr (List.mem_filter.mpr ⟨ha, decide_eq_true hgoal⟩)
  obtain ⟨e, he⟩ := decodeAll_error hmem (decodeAttempt_error h)
  cases hid : ensureValidId goalId "goal id" with
  | error e' =>
    refine ⟨e', ?_⟩
    simp only [listAttempts, query, ExceptT.mk, hid]
    rfl
  | ok _ =>
    refine ⟨e, ?_⟩
    simp only [listAttempts, query, ExceptT.mk, hid]
    exact congrArg (·, s) he

theorem loadAttempts_isOk (h : Narrow s) : ∃ attempts, loadAttempts goalId s = .ok attempts :=
  decodeAll_isOk fun a ha => decodeAttempt_isOk
    (h.attempts a (List.mem_of_mem_filter ((List.mem_insertionSort _).mp ha)))

theorem loadGoalWorkItems_isOk (h : Narrow s) :
    ∃ items, loadGoalWorkItems goalId s = .ok items := by
  refine decodeAll_isOk fun w hw => ?_
  have hitem := h.items w (List.mem_of_mem_filter ((List.mem_insertionSort _).mp hw))
  obtain ⟨record, hrecord⟩ := decodeWorkItem_isOk hitem.maxAttempts hitem.ordinal
  rw [hrecord]
  exact ⟨_, rfl⟩

theorem resumeReport_isOk (h : Narrow s) (hrev : ∀ g ∈ s.goals, g.revision < 2 ^ 32) :
    ∃ report, resumeReport goalId s = .ok report := by
  unfold resumeReport
  cases hg : s.goal? goalId with
  | none => exact ⟨none, rfl⟩
  | some row =>
    obtain ⟨goal, hgoal⟩ := decodeGoal_isOk (hrev row (goal?_eq_some hg).1)
    obtain ⟨items, hitems⟩ : ∃ items, loadGoalWorkItems goalId s = .ok items :=
      loadGoalWorkItems_isOk h
    obtain ⟨attempts, hattempts⟩ : ∃ attempts, loadAttempts goalId s = .ok attempts :=
      loadAttempts_isOk h
    dsimp only
    rw [hgoal, hitems, hattempts]
    exact ⟨_, rfl⟩

theorem recoverGoalState_isOk (actor : String) (now : Int)
    (hid : ensureValidId goalId "goal id" = .ok ()) :
    ∃ s', recoverGoalState goalId actor now s = .ok s' := by
  unfold recoverGoalState
  rw [hid]
  by_cases hg : s.goals.any (fun g => g.id = goalId) = true
  · exact ⟨recovered goalId actor now s, if_pos hg⟩
  · exact ⟨s, if_neg hg⟩

theorem resumeGoal_isOk (hw : WellFormed s) (h : Narrow s)
    (hrev : ∀ g ∈ s.goals, g.revision + 1 < 2 ^ 32) (actor : String) (now : Int)
    (hid : ensureValidId goalId "goal id" = .ok ()) :
    ∃ report s', resumeGoal goalId actor now s = (.ok report, s') := by
  obtain ⟨s₁, hs₁⟩ := recoverGoalState_isOk (s := s) actor now hid
  -- The encoding plays no part in a recovery.
  let enc : Encoding := ⟨fun _ => 0, fun _ => 0, fun _ => ""⟩
  have hexec : exec enc s (.recoverGoalState goalId actor now) = s₁ := exec_of_ok hs₁
  have hnarrow : Narrow s₁ := hexec ▸ narrow_exec h rfl
  have hrev₁ : ∀ g ∈ s₁.goals, g.revision < 2 ^ 32 := by
    rw [← hexec]
    exact revision_exec (k := 0) hw (by omega) hrev
  obtain ⟨report, hreport⟩ : ∃ report, resumeReport goalId s₁ = .ok report :=
    resumeReport_isOk hnarrow hrev₁
  unfold resumeGoal
  rw [bind_of_ok (commit_of_ok hs₁), bind_of_ok (query_of_ok hreport)]
  cases report with
  | none => exact ⟨none, s₁, rfl⟩
  | some report => exact ⟨some report, recordResumed goalId actor s₁, rfl⟩

theorem loads_of_narrow (hw : WellFormed s) (h : Narrow s)
    (hrev : ∀ g ∈ s.goals, g.revision + 1 < 2 ^ 32) : Loads s where
  list _ hid := listAttempts_isOk h hid
  resume _ actor now hid := resumeGoal_isOk hw h hrev actor now hid

end Loading

/-! ## Claims -/

/-- A claim that starts from `before` hands out the attempt that it has committed, or hands out nothing
and leaves the store. -/
def ClaimIsWhole (goalId : String) (stepId : Option String) (workerId : String) (leaseSecs : Nat)
    (actor leaseToken attemptId : String) (now : Int) (before : Store) :
    Except String (Option WorkClaim) × Store → Prop
  | (.ok (some claim), s') => ∃ row, claimCandidate? goalId stepId now before = some row ∧
      decodeAttempt (newAttempt before row workerId leaseToken attemptId now) = .ok claim.attempt ∧
      s' = claimed goalId row workerId leaseSecs actor leaseToken attemptId now before
  | (_, s') => s' = before

section Claims

variable {s : Store} {goalId : String} {stepId : Option String} {workerId : String} {leaseSecs : Nat}
  {actor leaseToken attemptId : String} {now : Int}

theorem handOutClaim_of_error {e : String}
    (h : claimTx goalId stepId workerId leaseSecs actor leaseToken attemptId now s = .error e) :
    handOutClaim goalId stepId workerId leaseSecs actor leaseToken attemptId now s = (.error e, s) :=
  bind_of_error (transact_of_error h) _

theorem handOutClaim_of_none {s' : Store}
    (h : claimTx goalId stepId workerId leaseSecs actor leaseToken attemptId now s = .ok (none, s')) :
    handOutClaim goalId stepId workerId leaseSecs actor leaseToken attemptId now s = (.ok none, s') :=
  bind_of_ok (transact_of_ok h) _

theorem handOutClaim_of_some {s' : Store} {work : ClaimedWork}
    (h : claimTx goalId stepId workerId leaseSecs actor leaseToken attemptId now s
      = .ok (some work, s')) :
    handOutClaim goalId stepId workerId leaseSecs actor leaseToken attemptId now s
      = (work.toClaim.map some, s') := by
  refine (bind_of_ok (transact_of_ok h) _).trans ?_
  dsimp only
  cases hclaim : work.toClaim with
  | error e => exact bind_of_error rfl _
  | ok claim => exact bind_of_ok rfl _

theorem claimed_ne (row : WorkItemRow) :
    claimed goalId row workerId leaseSecs actor leaseToken attemptId now s ≠ s := by
  intro h
  have hlen := congrArg (fun s : Store => s.attempts.length) h
  simp [claimed, Store.insertEvent] at hlen

/-- **A claim is whole exactly when the attempt that it commits decodes.** -/
theorem handOutClaim_isWhole_iff :
    ClaimIsWhole goalId stepId workerId leaseSecs actor leaseToken attemptId now s
        (handOutClaim goalId stepId workerId leaseSecs actor leaseToken attemptId now s) ↔
      ∀ work s', claimTx goalId stepId workerId leaseSecs actor leaseToken attemptId now s
        = .ok (some work, s') → work.attempt.attemptNumber ≤ 255 := by
  cases hx : claimTx goalId stepId workerId leaseSecs actor leaseToken attemptId now s with
  | error e =>
    rw [handOutClaim_of_error hx]
    simp [ClaimIsWhole]
  | ok r =>
    obtain ⟨work, s'⟩ := r
    obtain ⟨goal, -, -, ⟨rfl, rfl⟩ | ⟨row, workItem, budget, hrow, -, -, rfl, rfl⟩⟩ := claimTx_ok hx
    · rw [handOutClaim_of_none hx]
      simp [ClaimIsWhole]
    · rw [handOutClaim_of_some hx]
      by_cases hle : (newAttempt s row workerId leaseToken attemptId now).attemptNumber ≤ 255
      · obtain ⟨record, hrecord⟩ := decodeAttempt_isOk hle
        rw [ClaimedWork.toClaim, hrecord]
        refine ⟨fun _ work s' he => ?_, fun _ => ⟨row, hrow, hrecord, rfl⟩⟩
        cases he
        exact hle
      · rw [ClaimedWork.toClaim, decodeAttempt_error (Nat.lt_of_not_le hle)]
        exact ⟨fun he => absurd he (claimed_ne row), fun h => absurd (h _ _ rfl) hle⟩

theorem handOutClaim_isWhole (hfit : (Txn.claimWork goalId stepId workerId leaseSecs actor leaseToken
      attemptId now).numberFits s = true) :
    ClaimIsWhole goalId stepId workerId leaseSecs actor leaseToken attemptId now s
      (handOutClaim goalId stepId workerId leaseSecs actor leaseToken attemptId now s) := by
  refine handOutClaim_isWhole_iff.mpr fun work s' hx => ?_
  obtain ⟨goal, -, -, ⟨hn, -⟩ | ⟨row, workItem, budget, hrow, -, -, hwork, -⟩⟩ := claimTx_ok hx
  · cases hn
  · cases hwork
    rw [Txn.numberFits, hrow, Option.all_some, decide_eq_true_eq] at hfit
    exact hfit

theorem claimReadyWorkItem_isWhole (enc : Encoding) (earlier : Int)
    (hfit : (Txn.claimWork goalId stepId workerId leaseSecs actor leaseToken attemptId now).numberFits
      (exec enc s (.recoverGoalState goalId actor earlier)) = true) :
    ClaimIsWhole goalId stepId workerId leaseSecs actor leaseToken attemptId now
      (exec enc s (.recoverGoalState goalId actor earlier))
      (claimReadyWorkItem goalId stepId workerId leaseSecs actor leaseToken attemptId earlier now s) := by
  rw [claimReadyWorkItem_eq]
  cases hx : recoverGoalState goalId actor earlier s with
  | error e =>
    have hstay : exec enc s (.recoverGoalState goalId actor earlier) = s := by
      rw [exec, Store.apply, hx]
      rfl
    rw [bind_of_error (commit_of_error hx), hstay]
    rfl
  | ok s' =>
    have hnext : exec enc s (.recoverGoalState goalId actor earlier) = s' := exec_of_ok hx
    rw [bind_of_ok (commit_of_ok hx), hnext]
    exact handOutClaim_isWhole (hnext ▸ hfit)

end Claims

/-! ## Runs -/

section Runs

variable (enc : Encoding)

theorem narrow_run {ts : List Txn} (h : Machine.Along (exec enc) NumbersFit .empty ts) :
    Narrow (Machine.run (exec enc) .empty ts) ∧
      ∀ g ∈ (Machine.run (exec enc) .empty ts).goals, g.revision + 1 < 2 ^ 32 := by
  have hinv : WellFormed (Machine.run (exec enc) .empty ts) ∧
      Narrow (Machine.run (exec enc) .empty ts) ∧
      ∀ g ∈ (Machine.run (exec enc) .empty ts).goals, g.revision + 1 < 2 ^ 32 :=
    Machine.run_invariant (I := fun s => WellFormed s ∧ Narrow s ∧
        ∀ g ∈ s.goals, g.revision + 1 < 2 ^ 32)
      (fun s t hfit hs => ⟨wellFormed_exec t hs.1, narrow_exec hs.2.1 hfit.2,
        revision_exec (k := 1) hs.1 (by omega) hfit.1⟩) h
      ⟨wellFormed_empty, narrow_empty, by simp [Store.empty]⟩
  exact hinv.2

end Runs

/-! ## A goal that defers its only step -/

/-- What a claim commits. -/
theorem claimTx_commits {s : Store} {goalId : String} (workerId actor leaseToken attemptId : String)
    (leaseSecs : Nat) {now : Int} {goal : GoalRow} {row : WorkItemRow} {workItem : WorkItemRecord}
    {plan : WorkflowRow} (hworker : validateActor workerId = .ok ())
    (hactor : validateActor actor = .ok ()) (hlease : 1 ≤ leaseSecs ∧ leaseSecs ≤ 3600)
    (hid : ensureValidId goalId "goal id" = .ok ()) (hgoal : s.goal? goalId = some goal)
    (hst : goal.status = .approved ∨ goal.status = .active) (hopen : goal.internalOnly = false)
    (hrow : claimCandidate? goalId none now s = some row) (hitem : decodeWorkItem row = .ok workItem)
    (hplan : s.workflows.find? (fun w => w.id = row.workflowId) = some plan)
    (hfresh : ∀ a ∈ s.attempts, a.id ≠ attemptId ∧ (a.workItemId = row.id →
      a.attemptNumber ≠ (s.attempts.filter fun a => a.workItemId = row.id).length + 1)) :
    ∃ budget, claimTx goalId none workerId leaseSecs actor leaseToken attemptId now s
      = .ok (some ⟨{ workItem with status := .running },
          newAttempt s row workerId leaseToken attemptId now, now + leaseSecs, budget⟩,
        claimed goalId row workerId leaseSecs actor leaseToken attemptId now s) := by
  refine ⟨plan.workflow.budget, ?_⟩
  have hinsert : insertRow (fun a : AttemptRow => a.id = attemptId ∨
      (a.workItemId = row.id ∧ a.attemptNumber
        = (newAttempt s row workerId leaseToken attemptId now).attemptNumber))
      (uniqueFailed "harness_attempts") (newAttempt s row workerId leaseToken attemptId now) s.attempts
        = .ok (s.attempts ++ [newAttempt s row workerId leaseToken attemptId now]) := by
    refine insertRow_eq_ok.mpr ⟨fun a ha => ?_, rfl⟩
    obtain ⟨hne, hnumber⟩ := hfresh a ha
    simpa [newAttempt, hne] using hnumber
  have hlease' : ensure (1 ≤ leaseSecs && leaseSecs ≤ 3600) "lease must be 1..=3600 seconds" = .ok () :=
    ensure_eq_ok.mpr (by simp [hlease])
  have hst' : ensure (goal.status = .approved ∨ goal.status = .active) "goal is not dispatchable"
      = .ok () := ensure_eq_ok.mpr (decide_eq_true hst)
  have hopen' : ensure ((none : Option String).isSome || !goal.internalOnly)
      "internal_only goal is not claimable by a generic worker" = .ok () :=
    ensure_eq_ok.mpr (by simp [hopen])
  unfold claimTx
  rw [hworker, hactor, hlease', hid, hgoal, hrow]
  dsimp only [Bind.bind, Except.bind, context, ensureStepId]
  rw [hst', hopen', hitem, hplan]
  dsimp only
  rw [hinsert]
  rfl

namespace Sample

/-- The id and the lease token of the claim after `n` others. -/
def drawn (n : Nat) : String := String.ofList (List.replicate (n + 1) 'a')

theorem drawn_inj {m n : Nat} : drawn m = drawn n ↔ m = n := by
  constructor
  · intro h
    have hlen := congrArg (fun s : String => s.toList.length) h
    simp only [drawn, String.toList_ofList, List.length_replicate] at hlen
    omega
  · rintro rfl
    rfl

/-- The step of `solo`, claimed and handed back `n` times. -/
def waiting (n : Nat) (nextAttemptAt : Option Int) : WorkItemRow :=
  { id := "first", goalId := "goal", workflowId := "plan", stepId := "build", status := .ready,
    handler := "provider_analysis", effectClass := .read, input := .object .nil, maxAttempts := 2,
    backoffSecs := 0, ordinal := 0, fencingToken := n, nextAttemptAt }

/-- The attempt that the claim after `n` others has left. -/
def spent (n : Nat) : AttemptRow :=
  { id := drawn n, goalId := "goal", workItemId := "first", attemptNumber := n + 1, status := .void,
    workerId := "w1", leaseToken := drawn n, fencingToken := n + 1, startedAt := 1,
    error := some "deferred until 1" }

/-- The claim after `n` others. -/
def laterClaim (n : Nat) : WorkClaim :=
  { firstClaim (drawn n) (drawn n) with
    attempt := ⟨drawn n, "goal", "first", (n + 1).toUInt8, .running, "w1", drawn n, n + 1, 1, none⟩ }

/-- The step is claimed and deferred. -/
def cycle (n : Nat) : List Txn :=
  [.claimWork "goal" none "w1" 300 "runtime:w1" (drawn n) (drawn n) 1,
    .deferAttempt (laterClaim n) 1 "runtime:w1" 1]

def cycles : Nat → List Txn
  | 0 => []
  | n + 1 => cycles n ++ cycle n

/-- What `n` cycles leave of the admission of `solo`. -/
structure Cycled (n : Nat) (s : Store) : Prop where
  goals : ∃ goal, s.goals = [goal] ∧ goal.id = "goal" ∧
    (goal.status = .approved ∨ goal.status = .active) ∧ goal.internalOnly = false
  plan : ∃ plan, s.workflows.find? (fun w => w.id = "plan") = some plan
  items : ∃ at_, s.workItems = [waiting n at_] ∧ at_.all (fun at_ => decide (at_ ≤ 1)) = true
  attempts : s.attempts = (List.range n).map spent
  checkpoints : s.checkpoints = []

theorem cycled_admission : Cycled 0 (Machine.run (exec encoding) .empty (admission solo)) := by
  have hgoals : (Machine.run (exec encoding) .empty (admission solo)).goals.map
      (fun g => (g.id, g.status, g.internalOnly)) = [("goal", .approved, false)] := by decide +kernel
  have hplans : ((Machine.run (exec encoding) .empty (admission solo)).workflows.find?
      fun w => w.id = "plan").isSome = true := by decide +kernel
  have hitems : (Machine.run (exec encoding) .empty (admission solo)).workItems = [waiting 0 none] := by
    decide +kernel
  obtain ⟨goal, hgoal, hcolumns⟩ := List.map_eq_singleton_iff.mp hgoals
  simp only [Prod.mk.injEq] at hcolumns
  exact
    { goals := ⟨goal, hgoal, hcolumns.1, .inl hcolumns.2.1, hcolumns.2.2⟩
      plan := Option.isSome_iff_exists.mp hplans
      items := ⟨none, hitems, rfl⟩
      attempts := by decide +kernel
      checkpoints := by decide +kernel }

section Cycle

variable {n : Nat} {s : Store}

theorem Cycled.candidate (h : Cycled n s) :
    ∃ at_, claimCandidate? "goal" none 1 s = some (waiting n at_) ∧ s.workItems = [waiting n at_] := by
  obtain ⟨at_, hitems, hat⟩ := h.items
  have hcount : s.attemptCount "first" = 0 := by
    rw [Store.attemptCount, h.attempts, List.length_eq_zero_iff, List.filter_eq_nil_iff]
    simp [spent]
  refine ⟨at_, ?_, hitems⟩
  have hclaimable : isClaimable "goal" none 1 s (waiting n at_) = true := by
    simp [isClaimable, waiting, hcount, hat]
  rw [claimCandidate?, hitems, List.filter_cons_of_pos hclaimable]
  rfl

theorem Cycled.attempts_length (h : Cycled n s) :
    (s.attempts.filter fun a => a.workItemId = "first").length = n := by
  rw [h.attempts, List.filter_eq_self.mpr]
  · simp
  · simp [spent]

theorem Cycled.claim (h : Cycled n s) : ∃ work at_, s.workItems = [waiting n at_] ∧
    work.attempt = newAttempt s (waiting n at_) "w1" (drawn n) (drawn n) 1 ∧
    claimTx "goal" none "w1" 300 "runtime:w1" (drawn n) (drawn n) 1 s = .ok (some work,
      Xiaomaolv.claimed "goal" (waiting n at_) "w1" 300 "runtime:w1" (drawn n) (drawn n) 1 s) := by
  obtain ⟨at_, hrow, hitems⟩ := h.candidate
  obtain ⟨goal, hgoals, hid, hst, hopen⟩ := h.goals
  obtain ⟨plan, hplan⟩ := h.plan
  have hgoal : s.goal? "goal" = some goal := by
    simp [Store.goal?, hgoals, hid]
  obtain ⟨record, hrecord⟩ := decodeWorkItem_isOk (w := waiting n at_) (by simp [waiting])
    (by simp [waiting])
  have hfresh : ∀ a ∈ s.attempts, a.id ≠ drawn n ∧ (a.workItemId = (waiting n at_).id →
      a.attemptNumber ≠ (s.attempts.filter fun a => a.workItemId = (waiting n at_).id).length + 1) := by
    intro a ha
    rw [show (waiting n at_).id = "first" from rfl, h.attempts_length]
    rw [h.attempts] at ha
    obtain ⟨i, hi, rfl⟩ := List.mem_map.mp ha
    have hlt := List.mem_range.mp hi
    refine ⟨fun he => ?_, fun _ he => ?_⟩
    · have heq := drawn_inj.mp he
      omega
    · simp only [spent] at he
      omega
  obtain ⟨budget, hclaim⟩ := claimTx_commits "w1" "runtime:w1" (drawn n) (drawn n) 300 (by decide)
    (by decide) (by decide) (by decide) hgoal hst hopen hrow hrecord hplan hfresh
  exact ⟨_, at_, hitems, rfl, hclaim⟩

theorem Cycled.taken (h : Cycled n s) {at_ : Option Int} (hitems : s.workItems = [waiting n at_]) :
    let s' := Xiaomaolv.claimed "goal" (waiting n at_) "w1" 300 "runtime:w1" (drawn n) (drawn n) 1 s
    s'.workItems = [{ waiting (n + 1) at_ with
      status := .running, leaseToken := some (drawn n), leaseUntil := some 301 }] ∧
    s'.attempts = (List.range n).map spent ++ [{ spent n with status := .running, error := none }] ∧
    s'.checkpoints = [] := by
  refine ⟨?_, ?_, h.checkpoints⟩
  · simp [Xiaomaolv.claimed, Store.insertEvent, hitems, waiting]
  · have hlen := h.attempts_length
    rw [h.attempts] at hlen
    simp [Xiaomaolv.claimed, Store.insertEvent, newAttempt, h.attempts, waiting, spent]
    exact hlen

/-- The claim is deferred, and its attempt is void. -/
theorem Cycled.next (h : Cycled n s) (hn : n < 255) :
    Cycled (n + 1) (Machine.run (exec encoding) s (cycle n)) := by
  obtain ⟨work, at_, hitems, -, hclaim⟩ := h.claim
  obtain ⟨hi, ha, hc⟩ := h.taken hitems
  have hfirst : exec encoding s (.claimWork "goal" none "w1" 300 "runtime:w1" (drawn n) (drawn n) 1)
      = Xiaomaolv.claimed "goal" (waiting n at_) "w1" 300 "runtime:w1" (drawn n) (drawn n) 1 s :=
    exec_of_ok (map_eq_ok.mpr ⟨_, hclaim, rfl⟩)
  obtain ⟨goal, hgoals, hid, hst, hopen⟩ := h.goals
  have hg : (Xiaomaolv.claimed "goal" (waiting n at_) "w1" 300 "runtime:w1" (drawn n) (drawn n) 1 s).goals
      = [if goal.status = .approved then { goal with status := .active } else goal] := by
    simp [Xiaomaolv.claimed, Store.insertEvent, hgoals, hid]
  have hp : (Xiaomaolv.claimed "goal" (waiting n at_) "w1" 300 "runtime:w1" (drawn n) (drawn n) 1
      s).workflows = s.workflows := rfl
  rw [cycle, Machine.run_cons, Machine.run_cons, Machine.run_nil, hfirst]
  generalize Xiaomaolv.claimed "goal" (waiting n at_) "w1" 300 "runtime:w1" (drawn n) (drawn n) 1 s = s₁
    at hi ha hc hg hp
  have hcur : s₁.ensureClaimCurrent 1 (laterClaim n) = .ok () := by
    refine ensureClaimCurrent_eq_ok.mpr ⟨?_, ?_⟩
    · have hlt : n + 1 < 2 ^ 63 := by omega
      exact decide_eq_true hlt
    · simp [Store.claimCurrent, hi, ha, laterClaim, firstClaim, waiting, spent, leaseCurrent,
        AttemptStatus.isLive]
  have hnext : exec encoding s₁ (.deferAttempt (laterClaim n) 1 "runtime:w1" 1)
      = (releaseClaim (laterClaim n) (deferRelease 1) s₁).insertEvent "goal" "attempt.deferred"
        "runtime:w1" := by
    refine exec_of_ok ?_
    show deferAttemptTx (laterClaim n) 1 "runtime:w1" 1 s₁ = _
    unfold deferAttemptTx
    rw [hcur]
    rfl
  rw [hnext]
  have hother : ∀ a ∈ (List.range n).map spent,
      decide (a.id = drawn n ∧ a.status.isLive = true) = false := by
    simp [spent, AttemptStatus.isLive]
  refine
    { goals := ?_, plan := hp ▸ h.plan, items := ⟨some 1, ?_, rfl⟩, attempts := ?_, checkpoints := ?_ }
  · refine ⟨_, hg, ?_⟩
    split_ifs
    · exact ⟨hid, .inr rfl, hopen⟩
    · exact ⟨hid, hst, hopen⟩
  · simp [Store.insertEvent, releaseClaim, releaseItem, hi, waiting, laterClaim, firstClaim,
      deferRelease]
  · show endAttempt (drawn n) .void _ s₁.attempts = _
    rw [ha, endAttempt, updateWhere_append, updateWhere_eq_self hother, List.range_succ, List.map_append]
    simp [spent, AttemptStatus.isLive, deferRelease]
    rfl
  · simp [Store.insertEvent, releaseClaim, hc, voidPrepared, deferRelease]

end Cycle

theorem cycled_cycles {n : Nat} (hn : n ≤ 255) :
    Cycled n (Machine.run (exec encoding) .empty (admission solo ++ cycles n)) := by
  induction n with
  | zero =>
    rw [cycles, List.append_nil]
    exact cycled_admission
  | succ n ih =>
    rw [cycles, ← List.append_assoc, Machine.run_append]
    exact (ih (by omega)).next (by omega)

/-- The recovery of a claim finds nothing to do. -/
theorem Cycled.unrecovered {n : Nat} {s : Store} (h : Cycled n s) :
    recovered "goal" "runtime:w1" 1 s = s := by
  obtain ⟨at_, hitems, -⟩ := h.items
  have hcommitted : committedCheckpoints "goal" s = [] := by
    simp [committedCheckpoints, h.checkpoints]
  have hreconcile : reconcileAll "goal" s = s := by
    simp [reconcileAll, hcommitted]
  have hexpired : expiredRows "goal" 1 s = [] := by
    simp [expiredRows, hitems, waiting]
  have hlapse : lapseAll "goal" 1 s = s := by
    simp [lapseAll, hexpired]
  have hlocked : ∀ w ∈ s.workItems, s.isUnlockable "goal" w = false := by
    simp [hitems, Store.isUnlockable, waiting]
  have hunlock : s.unlockReady "goal" = s := by
    rw [Store.unlockReady, updateWhere_eq_self hlocked]
  have hany : s.workItems.any (s.isUnlockable "goal") = false := by
    rw [List.any_eq_false]
    intro w hw
    simp [hlocked w hw]
  have hstatus : s.nextGoalStatus "goal" = none := by
    have hready : ∀ w ∈ s.currentItems "goal", w.status = .ready := by
      intro w hw
      have hmem := List.mem_of_mem_filter hw
      rw [hitems] at hmem
      cases List.mem_singleton.mp hmem
      rfl
    have hnone : ∀ p : WorkItemStatus → Bool, p .ready = false →
        ((s.currentItems "goal").filter fun w => p w.status).length = 0 := by
      intro p hp
      rw [List.length_eq_zero_iff, List.filter_eq_nil_iff]
      intro w hw
      simp [hready w hw, hp]
    have hsucceeded := hnone (fun st => decide (st = .succeeded)) rfl
    have hfailed := hnone (fun st => decide (st = .failed)) rfl
    have hprogressed := hnone Store.isProgressed rfl
    unfold Store.nextGoalStatus
    dsimp only
    rw [hsucceeded, hfailed, hprogressed]
    simp
    omega
  have hrefresh : s.refreshGoalStatus "goal" = s := by
    rw [Store.refreshGoalStatus, hstatus]
  rw [recovered, hreconcile, hlapse, hcommitted, hexpired, hany, hunlock, hrefresh]
  rfl

theorem Cycled.recover {n : Nat} {s : Store} (h : Cycled n s) :
    recoverGoalState "goal" "runtime:w1" 1 s = .ok s := by
  obtain ⟨goal, hgoals, hid, -⟩ := h.goals
  have hany : s.goals.any (fun g => g.id = "goal") = true := by simp [hgoals, hid]
  refine (if_pos hany).trans ?_
  rw [h.unrecovered]
  rfl

/-- After 255 deferrals a call of `claim_ready_work_item` commits and fails, and leaves a goal whose
attempts cannot be listed. -/
theorem Cycled.wedged {s : Store} (h : Cycled 255 s) :
    ¬ ClaimIsWhole "goal" none "w1" 300 "runtime:w1" (drawn 255) (drawn 255) 1 s
      (claimReadyWorkItem "goal" none "w1" 300 "runtime:w1" (drawn 255) (drawn 255) 1 1 s) ∧
    ¬ Loads (claimReadyWorkItem "goal" none "w1" 300 "runtime:w1" (drawn 255) (drawn 255) 1 1 s).2 := by
  obtain ⟨work, at_, hitems, hwork, hclaim⟩ := h.claim
  have hnumber : work.attempt.attemptNumber = 256 := by
    rw [hwork]
    show (s.attempts.filter fun a => a.workItemId = "first").length + 1 = 256
    rw [h.attempts_length]
  have hcall : claimReadyWorkItem "goal" none "w1" 300 "runtime:w1" (drawn 255)
      (drawn 255) 1 1 s = (.error "invalid attempt number", Xiaomaolv.claimed "goal"
        (waiting 255 at_) "w1" 300 "runtime:w1" (drawn 255) (drawn 255) 1 s) := by
    rw [claimReadyWorkItem_eq, bind_of_ok (commit_of_ok h.recover), handOutClaim_of_some hclaim,
      ClaimedWork.toClaim, decodeAttempt_error (by omega)]
    rfl
  rw [hcall]
  refine ⟨claimed_ne _, fun hloads => ?_⟩
  have hmem : work.attempt ∈ (Xiaomaolv.claimed "goal" (waiting 255 at_) "w1" 300 "runtime:w1"
      (drawn 255) (drawn 255) 1 s).attempts := by
    rw [hwork]
    exact List.mem_append_right _ (List.mem_singleton_self _)
  have hgoal : work.attempt.goalId = "goal" := by
    rw [hwork]
    rfl
  obtain ⟨e, he⟩ := listAttempts_error hmem hgoal (by omega)
  obtain ⟨attempts, hlist⟩ := hloads.list "goal" (by decide)
  rw [he] at hlist
  cases hlist

/-- The run that uses up the attempt numbers of the step. -/
def exhausted : List Txn := admission solo ++ cycles 255

end Sample

/-! ## Numbers along a run -/

/-- **Attempt numbers never wedge a goal**, along a run whose revisions stay below their width and which
claims no item that has 255 attempts. In every state of the run each list and each resume succeeds, and
each claim of an item with fewer attempts is whole, whatever comes between its recovery and its
transaction. -/
theorem attempt_numbers (enc : Encoding) {ts : List Txn} (h : Machine.Along (exec enc) NumbersFit .empty ts) :
    Loads (Machine.run (exec enc) .empty ts) ∧
    ∀ goalId stepId workerId leaseSecs actor leaseToken attemptId now,
      ((Txn.claimWork goalId stepId workerId leaseSecs actor leaseToken attemptId now).numberFits
          (Machine.run (exec enc) .empty ts) = true →
        ClaimIsWhole goalId stepId workerId leaseSecs actor leaseToken attemptId now
          (Machine.run (exec enc) .empty ts)
          (handOutClaim goalId stepId workerId leaseSecs actor leaseToken attemptId now
            (Machine.run (exec enc) .empty ts))) ∧
      ∀ earlier,
        (Txn.claimWork goalId stepId workerId leaseSecs actor leaseToken attemptId now).numberFits
          (Machine.run (exec enc) .empty (ts ++ [.recoverGoalState goalId actor earlier])) = true →
        ClaimIsWhole goalId stepId workerId leaseSecs actor leaseToken attemptId now
          (Machine.run (exec enc) .empty (ts ++ [.recoverGoalState goalId actor earlier]))
          (claimReadyWorkItem goalId stepId workerId leaseSecs actor leaseToken attemptId earlier now
            (Machine.run (exec enc) .empty ts)) := by
  obtain ⟨hnarrow, hrev⟩ := narrow_run enc h
  refine ⟨loads_of_narrow (wellFormed_run enc ts) hnarrow hrev, ?_⟩
  intro goalId stepId workerId leaseSecs actor leaseToken attemptId now
  refine ⟨handOutClaim_isWhole, fun earlier hfit => ?_⟩
  rw [Machine.run_concat] at hfit ⊢
  exact claimReadyWorkItem_isWhole enc earlier hfit

/-- The admission of a plan fits, and the goal loads. -/
theorem attempt_numbers_admission :
    Machine.Along (exec Sample.encoding) NumbersFit .empty (Sample.admission Sample.solo) ∧
    Loads (Machine.run (exec Sample.encoding) .empty (Sample.admission Sample.solo)) := by
  have h : Machine.Along (exec Sample.encoding) NumbersFit .empty (Sample.admission Sample.solo) := by
    decide +kernel
  exact ⟨h, (attempt_numbers Sample.encoding h).1⟩

/-- The claim of a step that has been deferred 255 times commits and fails, and leaves a goal whose
attempts cannot be listed. -/
theorem attempt_numbers_exhausted :
    ¬ ClaimIsWhole "goal" none "w1" 300 "runtime:w1" (Sample.drawn 255) (Sample.drawn 255) 1
      (Machine.run (exec Sample.encoding) .empty
        (Sample.exhausted ++ [.recoverGoalState "goal" "runtime:w1" 1]))
      (claimReadyWorkItem "goal" none "w1" 300 "runtime:w1" (Sample.drawn 255) (Sample.drawn 255) 1 1
        (Machine.run (exec Sample.encoding) .empty Sample.exhausted)) ∧
    ¬ Loads (claimReadyWorkItem "goal" none "w1" 300 "runtime:w1" (Sample.drawn 255)
      (Sample.drawn 255) 1 1 (Machine.run (exec Sample.encoding) .empty Sample.exhausted)).2 := by
  have h : Sample.Cycled 255 (Machine.run (exec Sample.encoding) .empty Sample.exhausted) :=
    Sample.cycled_cycles (Nat.le_refl 255)
  have hstay : Machine.run (exec Sample.encoding) .empty
      (Sample.exhausted ++ [.recoverGoalState "goal" "runtime:w1" 1])
        = Machine.run (exec Sample.encoding) .empty Sample.exhausted :=
    (Machine.run_concat ..).trans (exec_of_ok h.recover)
  rw [hstay]
  exact h.wedged

end Xiaomaolv
