import Xiaomaolv.Loop.Numbers

/-!
# The provider budget of a goal

An approval writes a row with the limits of the plan; a call to a provider reserves a place in it first.

* `reservation`: what `reserve_provider_call` returns; `isDispatchable`: the test of
  `list_dispatchable_goal_ids`.
* `Charge`, `BudgetUsageRow.charge`: a reserved call or recorded bytes, and what it makes of the row.
* `Budgeted`: the invariant; **`budgeted_exec`**: every transaction keeps it.
* **`charged_exec`**: a transaction charges a row as it says, and nothing else does.
* **`goal_budget`**: no row exceeds its limits, and the three tests of the deadline agree.
-/

namespace Xiaomaolv

open Table LoopStore

/-! ## Reservations and dispatch -/

/-- `u32::try_from` of an `i64`. -/
def u32TryFromI64 (n : Int) (message : String) : Except String UInt32 :=
  if 0 ≤ n ∧ n < 2 ^ 32 then .ok n.toNat.toUInt32 else .error message

structure ProviderBudgetReservation where
  deadlineAtUnix : Int
  remainingProviderCalls : UInt32
  remainingResponseBytes : UInt32
  deriving DecidableEq

namespace LoopStore

/-- What `reserve_provider_call` returns after its commit, of the row that it read. -/
def reservation (now : Int) (b : BudgetUsageRow) : Except String ProviderBudgetReservation := do
  let remainingProviderCalls ← u32TryFromI64 ((b.maxProviderCalls : Int) - b.providerCalls - 1)
    "invalid remaining provider calls"
  let remainingResponseBytes ← u32TryFromI64 ((b.maxResponseBytes : Int) - b.responseBytes)
    "invalid remaining response bytes"
  pure ⟨b.startedAt.getD now + b.deadlineSecs, remainingProviderCalls, remainingResponseBytes⟩

/-- The rows among which `list_dispatchable_goal_ids` orders and limits. -/
def isDispatchable (now : Int) (s : Store) (g : GoalRow) : Bool :=
  (g.status = .approved ∨ g.status = .active ∨ g.status = .verifying) && !g.internalOnly &&
    !s.budgets.any fun b =>
      b.goalId = g.id && b.startedAt.any fun startedAt => startedAt + b.deadlineSecs < now

/-- A reservation fails by the deadline. -/
def FailsByDeadline (goalId : String) (now : Int) (s : Store) : Prop :=
  reserveProviderCall goalId now s = .error "goal execution deadline is exhausted"

end LoopStore

/-! ## Charges -/

/-- A reserved call, with its clock, or recorded bytes. -/
inductive Charge where
  | call (now : Int)
  | bytes (n : Nat)
  deriving DecidableEq, Repr

/-- The clock of a call. -/
def Charge.clock? : Charge → Option Int
  | call now => some now
  | bytes _ => none

def BudgetUsageRow.charge (b : BudgetUsageRow) : Charge → BudgetUsageRow
  | .call now => { b with providerCalls := b.providerCalls + 1, startedAt := some (b.startedAt.getD now) }
  | .bytes n => { b with responseBytes := b.responseBytes + n }

/-- What the transaction charges the goal. -/
def Txn.charge? (enc : Encoding) (s : Store) (goalId : String) (t : Txn) : Option Charge :=
  match t with
  | .reserveProviderCall id now => if id = goalId ∧ (s.apply enc t).isOk = true then some (.call now) else none
  | .recordProviderResponseBytes id n =>
    if id = goalId ∧ (s.apply enc t).isOk = true then some (.bytes n) else none
  | _ => none

/-- What the run charges the goal, in order. -/
def charges (enc : Encoding) (goalId : String) (s : Store) (ts : List Txn) : List Charge :=
  Machine.collect (exec enc) (fun s t => t.charge? enc s goalId) s ts

/-- The transaction approves the goal. -/
def Txn.approves (enc : Encoding) (s : Store) (goalId : String) (t : Txn) : Bool :=
  match t with
  | .approveGoal id .. => id = goalId && (s.apply enc t).isOk
  | _ => false

@[simp] theorem charge_goalId (b : BudgetUsageRow) (c : Charge) : (b.charge c).goalId = b.goalId := by
  cases c <;> rfl

theorem startedAt_charges (cs : List Charge) (b : BudgetUsageRow) :
    (cs.foldl BudgetUsageRow.charge b).startedAt = b.startedAt.or (cs.findSome? Charge.clock?) := by
  induction cs generalizing b with
  | nil => simp
  | cons c cs ih =>
    rw [List.foldl_cons, ih]
    cases c with
    | call now => cases hb : b.startedAt <;> simp [BudgetUsageRow.charge, Charge.clock?, List.findSome?_cons, hb]
    | bytes n => simp [BudgetUsageRow.charge, Charge.clock?, List.findSome?_cons]

/-! ## The invariant -/

/-- The row is within its limits, and they are those of a valid plan. -/
structure BudgetUsageRow.Within (b : BudgetUsageRow) : Prop where
  goalId : ensureValidId b.goalId "goal id" = .ok ()
  calls : b.providerCalls ≤ b.maxProviderCalls
  bytes : b.responseBytes ≤ b.maxResponseBytes
  maxCalls : b.maxProviderCalls ≤ 64
  maxBytes : b.maxResponseBytes ≤ 10485760

/-- There is one row for a goal at most, and every row is within its limits. -/
structure Budgeted (s : Store) : Prop where
  goalIds : (s.budgets.map (·.goalId)).Nodup
  plans : ∀ p ∈ s.workflows, p.workflow.budget.maxProviderCalls ≤ 64 ∧
    p.workflow.budget.maxResponseBytes ≤ 10485760
  rows : ∀ b ∈ s.budgets, b.Within

theorem budgeted_empty : Budgeted .empty := by
  constructor <;> simp [Store.empty]

section Steps

variable {enc : Encoding} {s s' : Store} {t : Txn} {goalId : String}

theorem reserveProviderCall_reads {now : Int} (h : reserveProviderCall goalId now s = .ok s') :
    ∃ b, s.budgets.find? (fun b => b.goalId = goalId) = some b ∧
      now ≤ b.startedAt.getD now + b.deadlineSecs ∧ b.providerCalls < b.maxProviderCalls ∧
      s' = { s with
        budgets := updateWhere (fun b => b.goalId = goalId ∧ b.providerCalls < b.maxProviderCalls)
          (fun b => b.charge (.call now)) s.budgets } := by
  unfold reserveProviderCall at h
  simp only [bind_eq_ok, context_eq_ok, ensure_eq_ok, pure_eq_ok, decide_eq_true_eq] at h
  obtain ⟨_, -, b, hb, _, hdeadline, _, hcalls, rfl⟩ := h
  exact ⟨b, hb, hdeadline, hcalls, rfl⟩

theorem recordProviderResponseBytes_reads {n : Nat} (h : recordProviderResponseBytes goalId n s = .ok s') :
    (∃ b ∈ s.budgets, b.goalId = goalId ∧ b.responseBytes + n ≤ b.maxResponseBytes) ∧
      s' = { s with
        budgets := updateWhere (fun b => b.goalId = goalId ∧ b.responseBytes + n ≤ b.maxResponseBytes)
          (fun b => b.charge (.bytes n)) s.budgets } := by
  unfold recordProviderResponseBytes at h
  simp only [bind_eq_ok, ensure_eq_ok, pure_eq_ok, List.any_eq_true, decide_eq_true_eq] at h
  obtain ⟨_, -, _, hany, rfl⟩ := h
  exact ⟨hany, rfl⟩

theorem charge?_eq_none (hreserve : ∀ id now, t ≠ .reserveProviderCall id now)
    (hrecord : ∀ id n, t ≠ .recordProviderResponseBytes id n) (goalId : String) :
    t.charge? enc s goalId = none := by
  cases t with
  | reserveProviderCall id now => exact absurd rfl (hreserve id now)
  | recordProviderResponseBytes id n => exact absurd rfl (hrecord id n)
  | _ => rfl

/-- What a transaction makes of the rows. -/
theorem budgets_apply (ht : s.apply enc t = .ok s') :
    (s'.budgets = s.budgets ∧ ∀ goalId, t.charge? enc s goalId = none) ∨
    (∃ goalId, ∃ plan ∈ s.workflows, plan.goalId = goalId ∧ ensureValidId goalId "goal id" = .ok () ∧
      t.approves enc s goalId = true ∧ s'.budgets = replaceBudget goalId plan.workflow.budget s.budgets ∧
      ∀ goalId, t.charge? enc s goalId = none) ∨
    (∃ goalId now, t = .reserveProviderCall goalId now) ∨
    ∃ goalId n, t = .recordProviderResponseBytes goalId n := by
  by_cases hmandate : t.writesMandate = false
  · refine .inl ⟨congrArg Mandate.budgets (mandate_apply ht hmandate), charge?_eq_none ?_ ?_⟩
    · rintro id now rfl
      cases hmandate
    · rintro id n rfl
      cases hmandate
  cases t with
  | planGoal goalId request externalWrite actor planId =>
    obtain ⟨goal, -, -, -, -, rfl⟩ := planGoal_ok ht
    exact .inl ⟨rfl, fun _ => rfl⟩
  | approveGoal goalId request externalWrite internalPolicy actor approvalId workId =>
    have hok : (s.apply enc (.approveGoal goalId request externalWrite internalPolicy actor approvalId
      workId)).isOk = true := by rw [ht]; rfl
    have hvalid : ensureValidId goalId "goal id" = .ok () := by
      change approveGoal goalId request externalWrite internalPolicy actor approvalId workId s = _ at ht
      rw [approveGoal, bind_eq_ok] at ht
      obtain ⟨_, -, ht⟩ := ht
      obtain ⟨_, hvalid, -⟩ := bind_eq_ok.mp ht
      exact hvalid
    obtain ⟨goal, plan, workItems, new, dependencies, -, -, -, hplan, -, -, -, -, -, rfl⟩ := approveGoal_ok ht
    obtain ⟨hpm, hpg, -⟩ := plan?_eq_some hplan
    refine .inr (.inl ⟨goalId, plan, hpm, hpg, hvalid, ?_, rfl, fun _ => rfl⟩)
    simp only [Txn.approves, hok, decide_true, Bool.and_true]
  | reserveProviderCall goalId now => exact .inr (.inr (.inl ⟨goalId, now, rfl⟩))
  | recordProviderResponseBytes goalId n => exact .inr (.inr (.inr ⟨goalId, n, rfl⟩))
  | _ => exact absurd rfl hmandate

theorem charge_within {b : BudgetUsageRow} (hb : b.Within) {now : Int}
    (h : b.providerCalls < b.maxProviderCalls) : (b.charge (.call now)).Within :=
  ⟨hb.goalId, h, hb.bytes, hb.maxCalls, hb.maxBytes⟩

theorem record_within {b : BudgetUsageRow} (hb : b.Within) {n : Nat}
    (h : b.responseBytes + n ≤ b.maxResponseBytes) : (b.charge (.bytes n)).Within :=
  ⟨hb.goalId, hb.calls, h, hb.maxCalls, hb.maxBytes⟩

/-- **Every transaction keeps the rows within their limits.** -/
theorem budgeted_exec (t : Txn) (h : Budgeted s) : Budgeted (exec enc s t) := by
  refine exec_keeps h fun s' ht => ?_
  have hplans : ∀ p ∈ s'.workflows, p.workflow.budget.maxProviderCalls ≤ 64 ∧
      p.workflow.budget.maxResponseBytes ≤ 10485760 := by
    intro p hp
    rcases plans_written ht hp with hp | ⟨request, externalWrite, hv, hworkflow⟩
    · exact h.plans p hp
    · have hlimits := withinLimits_of_validate hv
      rw [hworkflow]
      exact ⟨hlimits.providerCalls, hlimits.responseBytes.2⟩
  rcases budgets_apply ht with ⟨hsame, -⟩ | ⟨goalId, plan, hplan, -, hvalid, -, hnew, -⟩ |
    ⟨goalId, now, rfl⟩ | ⟨goalId, n, rfl⟩
  · exact ⟨hsame ▸ h.goalIds, hplans, hsame ▸ h.rows⟩
  · refine ⟨?_, hplans, fun b hb => ?_⟩
    · rw [hnew, replaceBudget, List.map_append, List.nodup_append]
      refine ⟨h.goalIds.sublist (List.filter_sublist.map _), by simp, fun x hx y hy he => ?_⟩
      obtain ⟨b, hb, rfl⟩ := List.mem_map.mp hx
      rw [List.map_singleton, List.mem_singleton] at hy
      have hne := (List.mem_filter.mp hb).2
      simp [he, hy] at hne
    · rw [hnew] at hb
      rcases List.mem_append.mp hb with hb | hb
      · exact h.rows b (List.mem_filter.mp hb).1
      · cases List.mem_singleton.mp hb
        exact ⟨hvalid, Nat.zero_le _, Nat.zero_le _, (h.plans plan hplan).1, (h.plans plan hplan).2⟩
  · obtain ⟨-, -, -, -, rfl⟩ := reserveProviderCall_reads ht
    refine ⟨?_, hplans, fun b hb => ?_⟩
    · rw [map_updateWhere fun _ => charge_goalId _ _]
      exact h.goalIds
    · obtain ⟨b₀, hb₀, rfl⟩ := mem_updateWhere.mp hb
      split_ifs with hp
      · exact charge_within (h.rows b₀ hb₀) (of_decide_eq_true hp).2
      · exact h.rows b₀ hb₀
  · obtain ⟨-, rfl⟩ := recordProviderResponseBytes_reads ht
    refine ⟨?_, hplans, fun b hb => ?_⟩
    · rw [map_updateWhere fun _ => charge_goalId _ _]
      exact h.goalIds
    · obtain ⟨b₀, hb₀, rfl⟩ := mem_updateWhere.mp hb
      split_ifs with hp
      · exact record_within (h.rows b₀ hb₀) (of_decide_eq_true hp).2
      · exact h.rows b₀ hb₀

theorem Budgeted.find (h : Budgeted s) {b : BudgetUsageRow} (hb : b ∈ s.budgets) :
    s.budgets.find? (fun x => x.goalId = b.goalId) = some b :=
  find?_of_mem h.goalIds hb

/-- **A transaction charges a row as it says.** -/
theorem charged_exec (h : Budgeted s) {b : BudgetUsageRow} (hb : b ∈ s.budgets)
    (happroves : t.approves enc s b.goalId = false) :
    (t.charge? enc s b.goalId).toList.foldl BudgetUsageRow.charge b ∈ (exec enc s t).budgets := by
  cases ht : s.apply enc t with
  | error e =>
    have hexec : exec enc s t = s := by rw [exec, ht]; rfl
    have hnone : t.charge? enc s b.goalId = none := by
      cases t with
      | reserveProviderCall | recordProviderResponseBytes =>
        simp [Txn.charge?, ht, Except.isOk, Except.toBool]
      | _ => rfl
    rw [hnone, hexec]
    exact hb
  | ok s' =>
    have hok : (s.apply enc t).isOk = true := by rw [ht]; rfl
    rw [exec_of_ok ht]
    rcases budgets_apply ht with ⟨hsame, hnone⟩ | ⟨goalId, plan, hplan, -, -, happroved, hnew, hnone⟩ |
      ⟨goalId, now, rfl⟩ | ⟨goalId, n, rfl⟩
    · rw [hnone, hsame]
      exact hb
    · have hne : b.goalId ≠ goalId := fun he => by
        rw [he, happroved] at happroves
        cases happroves
      rw [hnone, hnew]
      exact List.mem_append_left _ (List.mem_filter.mpr ⟨hb, decide_eq_true hne⟩)
    · obtain ⟨b₀, hb₀, -, hcalls, rfl⟩ := reserveProviderCall_reads ht
      simp only [Txn.charge?, hok, and_true]
      refine mem_updateWhere.mpr ⟨b, hb, ?_⟩
      by_cases hid : goalId = b.goalId
      · rw [hid, h.find hb] at hb₀
        cases hb₀
        rw [if_pos hid, if_pos (by simp [hid, hcalls])]
        rfl
      · rw [if_neg hid, if_neg (by simp [Ne.symm hid])]
        rfl
    · obtain ⟨⟨b₀, hb₀, hid₀, hbytes⟩, rfl⟩ := recordProviderResponseBytes_reads ht
      simp only [Txn.charge?, hok, and_true]
      refine mem_updateWhere.mpr ⟨b, hb, ?_⟩
      by_cases hid : goalId = b.goalId
      · cases eq_of_key_eq h.goalIds hb₀ hb (hid₀.trans hid)
        rw [if_pos hid, if_pos (by simp [hid, hbytes])]
        rfl
      · rw [if_neg hid, if_neg (by simp [Ne.symm hid])]
        rfl

/-! ## Deadlines -/

variable {now : Int}

/-- The deadline of the row has passed. -/
def BudgetUsageRow.isPast (now : Int) (b : BudgetUsageRow) : Bool :=
  b.startedAt.any fun startedAt => startedAt + b.deadlineSecs < now

theorem isPast_iff {b : BudgetUsageRow} :
    b.isPast now = true ↔ ¬ now ≤ b.startedAt.getD now + b.deadlineSecs := by
  unfold BudgetUsageRow.isPast
  cases b.startedAt with
  | none => simp
  | some startedAt => simp

theorem failsByDeadline_iff (h : Budgeted s) :
    FailsByDeadline goalId now s ↔ s.budgets.any (fun b => b.goalId = goalId && b.isPast now) = true := by
  rw [FailsByDeadline, reserveProviderCall, List.any_eq_true]
  simp only [bind_eq_error, ensureValidId, ensure_eq_error, context_eq_error, ensure_eq_ok, context_eq_ok,
    Bool.and_eq_true, decide_eq_true_eq, decide_eq_false_iff_not, isPast_iff]
  constructor
  · rintro (⟨-, hmessage⟩ | ⟨_, hvalid, ⟨-, hmessage⟩ | ⟨b, hb, ⟨hpast, -⟩ | ⟨_, -, ⟨-, hmessage⟩ | ⟨_, -, hpure⟩⟩⟩⟩)
    · simp at hmessage
    · simp at hmessage
    · exact ⟨b, List.mem_of_find?_eq_some hb, by simpa using List.find?_some hb, hpast⟩
    · simp at hmessage
    · cases hpure
  · rintro ⟨b, hb, rfl, hpast⟩
    have hvalid := ensure_eq_ok.mp (h.rows b hb).goalId
    simp only [Bool.and_eq_true, decide_eq_true_eq] at hvalid
    exact .inr ⟨(), hvalid, .inr ⟨b, h.find hb, .inl ⟨hpast, trivial⟩⟩⟩

theorem isOverdue_eq (s : Store) (g : GoalRow) : isOverdue now s g =
    ((g.status = .approved ∨ g.status = .active ∨ g.status = .blocked ∨ g.status = .verifying) &&
      !g.internalOnly && s.budgets.any fun b => b.goalId = g.id && b.isPast now) := rfl

theorem isDispatchable_eq (s : Store) (g : GoalRow) : isDispatchable now s g =
    ((g.status = .approved ∨ g.status = .active ∨ g.status = .verifying) && !g.internalOnly &&
      !s.budgets.any fun b => b.goalId = g.id && b.isPast now) := rfl

theorem reservation_isOk {b : BudgetUsageRow} (hb : b.Within) (h : b.providerCalls < b.maxProviderCalls) :
    ∃ r, reservation now b = .ok r := by
  have hcalls := hb.maxCalls
  have hbytes := hb.bytes
  have hmax := hb.maxBytes
  unfold reservation u32TryFromI64
  rw [if_pos (by omega), if_pos (by omega)]
  exact ⟨_, rfl⟩

end Steps

/-! ## Runs -/

theorem budgeted_run (enc : Encoding) (ts : List Txn) : Budgeted (Machine.run (exec enc) .empty ts) :=
  Machine.run_invariant' (fun _ t => budgeted_exec t) budgeted_empty

theorem charged_run {enc : Encoding} {s : Store} (h : Budgeted s) {b : BudgetUsageRow} (hb : b ∈ s.budgets)
    {us : List Txn}
    (ha : Machine.Along (exec enc) (fun s t => t.approves enc s b.goalId = false) s us) :
    (charges enc b.goalId s us).foldl BudgetUsageRow.charge b ∈ (Machine.run (exec enc) s us).budgets := by
  have hid : ∀ cs : List Charge, (cs.foldl BudgetUsageRow.charge b).goalId = b.goalId := by
    intro cs
    induction cs using List.reverseRecOn with
    | nil => rfl
    | append_singleton cs c ih => rw [List.foldl_concat, charge_goalId, ih]
  have hstart : Budgeted s ∧ [].foldl BudgetUsageRow.charge b ∈ s.budgets := ⟨h, hb⟩
  have hrun := Machine.collect_invariant
    (J := fun s cs => Budgeted s ∧ cs.foldl BudgetUsageRow.charge b ∈ s.budgets)
    (fun s t cs happroves hJ => ⟨budgeted_exec t hJ.1, by
      have hcharged := charged_exec hJ.1 hJ.2 ((hid cs).symm ▸ happroves)
      rw [hid] at hcharged
      rwa [List.foldl_append]⟩) ha hstart
  exact hrun.2

theorem approved_row {enc : Encoding} {s s' : Store} {goalId actor approvalId : String}
    {request : ApproveGoalRequest} {externalWrite : ExternalWritePolicy}
    {internalPolicy : InternalApprovalPolicy} {workId : Nat → String}
    (ht : s.apply enc (.approveGoal goalId request externalWrite internalPolicy actor approvalId workId)
      = .ok s') : ∃ b ∈ s'.budgets, b.goalId = goalId ∧ b.providerCalls = 0 ∧ b.responseBytes = 0 ∧
        b.startedAt = none := by
  obtain ⟨goal, plan, workItems, new, dependencies, -, -, -, -, -, -, -, -, -, rfl⟩ := approveGoal_ok ht
  exact ⟨_, List.mem_append_right _ List.mem_cons_self, rfl, rfl, rfl, rfl⟩

/-- The statuses that the expiry looks at. -/
def GoalStatus.expires : GoalStatus → Bool
  | approved | active | blocked | verifying => true
  | _ => false

/-- **Goal budget.** Calls and bytes stay within the limits of the plan; between two approvals a row is charged
the calls and bytes of the run, and its clock is that of the first call; what a reservation returns
fits; and a goal whose reservation fails by the deadline is not dispatchable, is expirable in the
statuses that the expiry looks at, and conversely. -/
theorem goal_budget (enc : Encoding) (ts : List Txn) :
    (∀ b ∈ (Machine.run (exec enc) .empty ts).budgets,
      b.providerCalls ≤ b.maxProviderCalls ∧ b.responseBytes ≤ b.maxResponseBytes) ∧
    (∀ goalId request externalWrite internalPolicy actor approvalId workId s',
      (Machine.run (exec enc) .empty ts).apply enc
        (.approveGoal goalId request externalWrite internalPolicy actor approvalId workId) = .ok s' →
      ∃ b ∈ s'.budgets, b.goalId = goalId ∧ b.providerCalls = 0 ∧ b.responseBytes = 0 ∧ b.startedAt = none) ∧
    (∀ b ∈ (Machine.run (exec enc) .empty ts).budgets, ∀ us,
      Machine.Along (exec enc) (fun s t => t.approves enc s b.goalId = false)
        (Machine.run (exec enc) .empty ts) us →
      ∃ b' ∈ (Machine.run (exec enc) .empty (ts ++ us)).budgets,
        b' = (charges enc b.goalId (Machine.run (exec enc) .empty ts) us).foldl BudgetUsageRow.charge b ∧
        b'.startedAt = b.startedAt.or
          ((charges enc b.goalId (Machine.run (exec enc) .empty ts) us).findSome? Charge.clock?)) ∧
    (∀ goalId now s', reserveProviderCall goalId now (Machine.run (exec enc) .empty ts) = .ok s' →
      ∃ b, (Machine.run (exec enc) .empty ts).budgets.find? (fun b => b.goalId = goalId) = some b ∧
        ∃ r, reservation now b = .ok r) ∧
    ∀ now, ∀ g ∈ (Machine.run (exec enc) .empty ts).goals, g.internalOnly = false →
      (FailsByDeadline g.id now (Machine.run (exec enc) .empty ts) →
        isDispatchable now (Machine.run (exec enc) .empty ts) g = false ∧
        (g.status.expires = true → isOverdue now (Machine.run (exec enc) .empty ts) g = true)) ∧
      (isOverdue now (Machine.run (exec enc) .empty ts) g = true →
        isDispatchable now (Machine.run (exec enc) .empty ts) g = false ∧
        FailsByDeadline g.id now (Machine.run (exec enc) .empty ts)) ∧
      (g.status = .approved ∨ g.status = .active ∨ g.status = .verifying →
        isDispatchable now (Machine.run (exec enc) .empty ts) g = false →
        FailsByDeadline g.id now (Machine.run (exec enc) .empty ts)) := by
  have h := budgeted_run enc ts
  refine ⟨fun b hb => ⟨(h.rows b hb).calls, (h.rows b hb).bytes⟩, ?_, fun b hb us ha => ?_, ?_, ?_⟩
  · intro goalId request externalWrite internalPolicy actor approvalId workId s' ht
    exact approved_row ht
  · refine ⟨_, ?_, rfl, startedAt_charges _ b⟩
    rw [Machine.run_append]
    exact charged_run h hb ha
  · intro goalId now s' ht
    obtain ⟨b, hb, -, hcalls, -⟩ := reserveProviderCall_reads ht
    exact ⟨b, hb, reservation_isOk (h.rows b (List.mem_of_find?_eq_some hb)) hcalls⟩
  · intro now g hg hpublic
    rw [failsByDeadline_iff h, isDispatchable_eq, isOverdue_eq, hpublic]
    refine ⟨fun hpast => ⟨by simp [hpast], fun hst => ?_⟩, fun hoverdue => ?_, fun hst hidle => ?_⟩
    · rw [hpast]
      cases hgs : g.status <;> simp_all [GoalStatus.expires]
    · simp only [Bool.and_eq_true] at hoverdue
      rw [hoverdue.2]
      simp
    · simpa [hst] using hidle

namespace Sample

/-- A goal that is paused after its first call. -/
def pausedGoal : List Txn :=
  admission solo ++ [.reserveProviderCall "goal" 0, .pauseGoal "goal" "wait" "operator"]

end Sample

/-- The reservation of a paused goal fails by its deadline, yet no expiry touches the goal. -/
theorem goal_budget_paused : ¬ ∀ enc ts now,
    ∀ g ∈ (Machine.run (exec enc) .empty ts).goals, g.internalOnly = false →
      (FailsByDeadline g.id now (Machine.run (exec enc) .empty ts) ↔
        isDispatchable now (Machine.run (exec enc) .empty ts) g = false ∧
        isOverdue now (Machine.run (exec enc) .empty ts) g = true) := by
  intro h
  have hpaused : ∃ g ∈ (Machine.run (exec Sample.encoding) .empty Sample.pausedGoal).goals,
      g.internalOnly = false ∧
      (Machine.run (exec Sample.encoding) .empty Sample.pausedGoal).budgets.any
        (fun b => b.goalId = g.id && b.isPast 100) = true ∧
      isOverdue 100 (Machine.run (exec Sample.encoding) .empty Sample.pausedGoal) g = false := by
    decide +kernel
  obtain ⟨g, hg, hpublic, hpast, hoverdue⟩ := hpaused
  have hiff := h Sample.encoding Sample.pausedGoal 100 g hg hpublic
  have hboth := hiff.mp ((failsByDeadline_iff (budgeted_run _ _)).mpr hpast)
  rw [hoverdue] at hboth
  cases hboth.2

end Xiaomaolv
