import Xiaomaolv.Lib.Metered
import Xiaomaolv.Loop.ProviderBudget
import Xiaomaolv.Swarm.CrashRetry

/-!
# The calls of a swarm run

The budget of model calls is fixed when a run is planned, from the number of its agents; the items that may call
are counted when a node delegates.

* `NodeRun`, `NodeRun.step`: the world and the attempts on the items of the goal, their transactions
  interleaved with those of anyone else; `NodeRun.Regular`: no item is attempted twice.
* `Node.atMost_execute`: an attempt makes two model calls at most, whatever the model replies.
* `OnePlan`: the goal has the plan of `create_swarm_goal` and no more items than it allows; `onePlan_apply`.
* `Covers`: the budget is twice the number of items, as `create_swarm_goal` computes the two.
* **`calls_covered`**: then no reservation of the run fails for the budget.
-/

namespace Xiaomaolv

open Table LoopStore Interleave

/-! ## Runs -/

namespace NodeCall

def isReserve : NodeCall → Bool
  | reserve _ => true
  | _ => false

/-- The clock of a reservation. -/
def clock? : NodeCall → Option Int
  | reserve now => some now
  | _ => none

end NodeCall

/-- What an attempt has claimed. -/
structure Seat where
  workItemId : String
  node : Node

abbrev NodeAttempt := Metered Seat NodeCall NodeCall.Resp WorkOutcome

structure NodeRun where
  world : SwarmWorld
  attempts : List NodeAttempt

namespace NodeRun

inductive Label where
  /-- A transaction that is none of the run's setup and of its attempts. -/
  | transacts (t : Txn)
  /-- `create_swarm_goal` plans the goal. -/
  | plans (rootTask : String) (history : List StoredMessage) (incoming : SwarmIncoming)
      (externalWrite : ExternalWritePolicy) (planId : String)
  /-- A worker starts the handler on an item of the goal. -/
  | starts (workItemId : String) (upstream : Upstream) (replies : Replies) (clock : ModelCall → Int)
  /-- The `i`-th attempt goes on to its next transaction. -/
  | advances (i : Nat) (externalWrite : ExternalWritePolicy) (ambient : Ambient)

section

variable (enc : Encoding) (digest : Value → String) (cfg : AgentSwarmSettings) (goalId runId : String)

/-- A transaction of the loop store by someone else. -/
def transact (r : NodeRun) (t : Txn) : NodeRun :=
  { r with world := { r.world with store := exec enc r.world.store t } }

def step (r : NodeRun) : Label → NodeRun
  | .transacts t => r.transact enc t
  | .plans rootTask history incoming externalWrite planId =>
    r.transact enc
      (.planGoal goalId (swarmPlan cfg runId rootTask history incoming) externalWrite "internal:swarm" planId)
  | .starts workItemId upstream replies clock =>
    match node? goalId r.world.store workItemId with
    | none => r
    | some (item, input) =>
      let node : Node := ⟨goalId, item.stepId, input, upstream⟩
      { r with attempts := r.attempts ++ [⟨⟨workItemId, node⟩, node.execute cfg clock replies, 0⟩] }
  | .advances i externalWrite ambient =>
    match r.attempts[i]? with
    | none => r
    | some attempt =>
      match attempt.prog with
      | .ret _ => r
      | .call a k =>
        let (answer, world) := attempt.caller.node.exec enc digest externalWrite ambient a r.world
        { world, attempts := r.attempts.set i (attempt.answered NodeCall.isReserve a k answer) }

/-- The model calls that have been reserved, over all attempts. -/
def reserved (r : NodeRun) : Nat := (r.attempts.map (·.made)).sum

/-- The clock at which the `i`-th attempt asks for a model call next, if it does. -/
def asks? (r : NodeRun) (i : Nat) : Option Int :=
  r.attempts[i]?.bind fun attempt =>
    match attempt.prog with
    | .ret _ => none
    | .call a _ => a.clock?

end

/-- Transactions that plan, extend or replan the goal, or reserve its calls. -/
def runsGoal (goalId : String) : Txn → Bool
  | .planGoal id .. | .extendWorkflow id .. | .markGoalForReplan id .. | .reserveProviderCall id _ => id = goalId
  | _ => false

/-- The goal is planned by `create_swarm_goal`, extended and charged by its nodes, and an item is attempted once. -/
def Regular (goalId : String) (r : NodeRun) : Label → Prop
  | .transacts t => runsGoal goalId t = false
  | .starts workItemId .. => ∀ attempt ∈ r.attempts, attempt.caller.workItemId ≠ workItemId
  | _ => True

instance (goalId : String) (r : NodeRun) (l : Label) : Decidable (Regular goalId r l) := by
  unfold Regular
  split <;> infer_instance

def empty : NodeRun := ⟨⟨.empty, []⟩, []⟩

/-- A reservation fails for the call budget. -/
def FailsByBudget (goalId : String) (now : Int) (s : Store) : Prop :=
  reserveProviderCall goalId now s = .error "goal provider call budget is exhausted"

instance (goalId : String) (now : Int) (s : Store) : Decidable (FailsByBudget goalId now s) :=
  match h : reserveProviderCall goalId now s with
  | .error e => decidable_of_iff (e = "goal provider call budget is exhausted") (by simp [FailsByBudget, h])
  | .ok _ => isFalse (by simp [FailsByBudget, h])

/-- No attempt is refused a call for the budget, and the reserved calls are within the approved number. -/
structure Suffices (goalId : String) (r : NodeRun) : Prop where
  granted : ∀ i now, r.asks? i = some now → ¬ FailsByBudget goalId now r.world.store
  total : ∀ b ∈ r.world.store.budgets, b.goalId = goalId → r.reserved ≤ b.maxProviderCalls

end NodeRun

/-- The budget of `create_swarm_goal` is two calls for each item that an extension may count: neither the
conversion of `max_agents` nor the product has wrapped below. -/
def Covers (cfg : AgentSwarmSettings) : Prop :=
  1 ≤ maxNodes cfg ∧ 2 * min (maxNodes cfg) 32 ≤ (swarmBudget cfg).maxProviderCalls

instance (cfg : AgentSwarmSettings) : Decidable (Covers cfg) := inferInstanceAs (Decidable (_ ∧ _))

/-! ## An attempt -/

namespace Node

variable {cfg : AgentSwarmSettings} {node : Node} {clock : ModelCall → Int} {replies : Replies}

theorem atMost_ask {α : Type} (now : Int) (failure reply : α) :
    (ask now failure reply : NodeProg α).AtMost NodeCall.isReserve 1 := by
  refine (Prog.atMost_perform (NodeCall.reserve now)).attempt (n := 0) fun r => ?_
  cases r <;> exact Prog.atMost_pure _

theorem atMost_publishTerminal (outcome : WorkOutcome) :
    (node.publishTerminal outcome).AtMost NodeCall.isReserve 0 := by
  unfold publishTerminal
  simp only
  split_ifs
  · exact Prog.atMost_pure _
  · refine (Prog.atMost_perform (NodeCall.publish _)).attempt (n := 0) fun r => ?_
    cases r <;> exact Prog.atMost_pure _

theorem atMost_answerLeg (directAnswer : Option String) :
    (node.answerLeg clock replies directAnswer).AtMost NodeCall.isReserve 1 := by
  unfold answerLeg
  split
  · exact (atMost_publishTerminal _).mono (Nat.zero_le 1)
  · refine (atMost_ask ..).attempt (n := 0) fun r => ?_
    split <;> exact atMost_publishTerminal _

theorem atMost_delegateLeg (children : List SwarmChildPlan) :
    (node.delegateLeg clock replies children).AtMost NodeCall.isReserve 1 := by
  unfold delegateLeg
  simp only
  refine (Prog.atMost_perform (NodeCall.extend _)).attempt (n := 1) fun r => ?_
  cases r with
  | ok _ => exact Prog.atMost_pure _
  | error e =>
    refine (Prog.atMost_perform (NodeCall.extend _)).attempt (n := 1) fun r => ?_
    cases r with
    | ok _ => exact Prog.atMost_pure _
    | error e => exact atMost_answerLeg none

/-- **Two model calls at most**: an aggregate and a node at the last depth call once, any other asks its planner
and answers itself or has its children do so. -/
theorem atMost_execute : (node.execute cfg clock replies).AtMost NodeCall.isReserve 2 := by
  unfold execute
  split_ifs
  · unfold aggregateLeg
    refine (atMost_ask ..).attempt (n := 1) fun r => ?_
    split <;> exact (atMost_publishTerminal _).mono (Nat.zero_le 1)
  · exact (atMost_answerLeg _).mono (Nat.le_succ 1)
  · refine (atMost_ask ..).attempt (n := 1) fun r => ?_
    split
    · exact Prog.atMost_pure _
    · exact atMost_answerLeg _
    · simp only
      split_ifs
      · exact atMost_answerLeg _
      · exact atMost_delegateLeg _
    · exact atMost_answerLeg _

end Node

/-! ## The items of the goal -/

/-- The statuses before an approval. -/
def GoalStatus.isUnapproved : GoalStatus → Bool
  | proposed | reviewReady => true
  | _ => false

theorem GoalEvent.eq_plan {e : GoalEvent} {st : GoalStatus} (h : e.allowed st = true)
    (he : e.status.isUnapproved = true) : e = .plan := by
  cases e with
  | plan => rfl
  | refresh next =>
    simp only [GoalEvent.allowed, Bool.and_eq_true, Bool.or_eq_true, decide_eq_true_eq] at h
    change next.isUnapproved = true at he
    rcases h.2 with (rfl | rfl) | rfl <;> cases he
  | _ => cases he

theorem isUnapproved_of_isExtensible {st : GoalStatus} (h : isExtensible st = true) : st.isUnapproved = false := by
  cases st <;> first | rfl | cases h

/-- The goal's items, whatever has become of them. -/
def itemsOf (goalId : String) (s : Store) : List WorkItemRow := s.workItems.filter fun w => w.goalId = goalId

/-- The goal is planned for the run only, and not planned again. -/
def Txn.PlansOnce (cfg : AgentSwarmSettings) (goalId : String) : Txn → Prop
  | .planGoal id request .. => id = goalId →
    ∃ runId rootTask history incoming, request = swarmPlan cfg runId rootTask history incoming
  | .markGoalForReplan id .. => id ≠ goalId
  | _ => True

/-- The goal has the plan of the run, no items before its approval, and then no more than the plan allows. -/
structure OnePlan (cfg : AgentSwarmSettings) (goalId : String) (s : Store) : Prop where
  plans : ∀ p ∈ s.workflows, p.goalId = goalId →
    ∃ runId rootTask history incoming, p.workflow = (swarmPlan cfg runId rootTask history incoming).workflow
  statuses : ∀ g ∈ s.goals, g.id = goalId → g.status ≠ .replan
  unapproved : ∀ g ∈ s.goals, g.id = goalId → g.status.isUnapproved = true → itemsOf goalId s = []
  kept : ∀ w ∈ s.workItems, w.goalId = goalId → w.status ≠ .canceled
  count : (itemsOf goalId s).length ≤ min (maxNodes cfg) 32

theorem onePlan_empty (cfg : AgentSwarmSettings) (goalId : String) : OnePlan cfg goalId .empty := by
  constructor <;> simp [Store.empty, itemsOf]

section Items

variable {enc : Encoding} {cfg : AgentSwarmSettings} {goalId : String} {s s' : Store} {t : Txn}

theorem itemsOf_append {new : List WorkItemRow} (h : s'.workItems = s.workItems ++ new) :
    itemsOf goalId s' = itemsOf goalId s ++ new.filter fun w => w.goalId = goalId := by
  rw [itemsOf, h, List.filter_append, itemsOf]

theorem length_itemsOf (h : s'.workItems.map (·.origin) = s.workItems.map (·.origin)) :
    (itemsOf goalId s').length = (itemsOf goalId s).length := by
  have hcount : ∀ items : List WorkItemRow,
      (items.filter fun w => w.goalId = goalId).length = (items.map (·.origin)).countP fun w => w.goalId = goalId := by
    intro items
    rw [List.countP_map, List.countP_eq_length_filter]
    rfl
  rw [itemsOf, hcount, h, ← hcount, itemsOf]

theorem maxNodes_rootStep {runId rootTask : String} {history : List StoredMessage} {incoming : SwarmIncoming} {n : Nat}
    (h : ((rootStep cfg runId rootTask history incoming).input.get "max_nodes").bind Value.asU64 = some n) :
    n = maxNodes cfg := by
  have hget : (rootStep cfg runId rootTask history incoming).input.get "max_nodes"
      = some (.int (maxNodes cfg : Nat)) := by
    simp [rootStep]
  rw [hget, Option.bind_some, Value.asU64] at h
  split_ifs at h
  have hn := Option.some.inj h
  omega

theorem OnePlan.kept_apply (hw : WellFormed s) (h : OnePlan cfg goalId s) (ht : s.apply enc t = .ok s')
    (hstatuses : ∀ g ∈ s'.goals, g.id = goalId → g.status ≠ .replan) :
    ∀ w ∈ s'.workItems, w.goalId = goalId → w.status ≠ .canceled := by
  intro w hwm hgoal hst
  rcases canceled_apply hw ht hwm hst with ⟨w₀, hw₀, ho, hst₀⟩ | hreplan
  · exact h.kept w₀ hw₀ ((columns_of_origin ho).2.1.trans hgoal) hst₀
  · obtain ⟨g, hg, hid⟩ := (wellFormed_apply hw ht).itemGoal w hwm
    exact hstatuses g hg (hid.trans hgoal) (hreplan g hg hid)

theorem OnePlan.statuses_apply (hw : WellFormed s) (h : OnePlan cfg goalId s) (hplans : t.PlansOnce cfg goalId)
    (ht : s.apply enc t = .ok s') : ∀ g ∈ s'.goals, g.id = goalId → g.status ≠ .replan := by
  intro g' hg' hid hst
  rcases goal_apply hw ht hg' with ⟨g, hg, hgid, rfl | ⟨e, he, hstep⟩⟩ | ⟨-, hnew, -⟩
  · exact h.statuses g' hg hid hst
  · rw [hstep.eq] at hst
    have hreplan : e = .replan := by
      cases e with
      | refresh next =>
        cases hst
        simpa [GoalEvent.allowed] using hstep.allowed
      | replan => rfl
      | _ => cases hst
    subst hreplan
    cases t with
    | markGoalForReplan id reason actor => exact hplans (he.1.trans (hgid.trans hid))
    | _ => simp [Txn.Governs] at he
  · rw [hnew] at hst
    cases hst

theorem OnePlan.plans_apply (h : OnePlan cfg goalId s) (hplans : t.PlansOnce cfg goalId)
    (ht : s.apply enc t = .ok s') : ∀ p ∈ s'.workflows, p.goalId = goalId →
      ∃ runId rootTask history incoming, p.workflow = (swarmPlan cfg runId rootTask history incoming).workflow := by
  intro p hp hgoal
  by_cases hplanning : t.isPlanning = false
  · rw [(Xiaomaolv.plans_apply ht hplanning).1] at hp
    exact h.plans p hp hgoal
  cases t with
  | planGoal id request externalWrite actor planId =>
    obtain ⟨goal, -, -, -, -, rfl⟩ := planGoal_ok ht
    rcases List.mem_append.mp hp with hp | hp
    · exact h.plans p hp hgoal
    · cases List.mem_singleton.mp hp
      obtain ⟨runId, rootTask, history, incoming, rfl⟩ := hplans hgoal
      exact ⟨runId, rootTask, history, incoming, rfl⟩
  | approveGoal id request externalWrite internalPolicy actor approvalId workId =>
    obtain ⟨goal, plan, workItems, new, dependencies, -, -, -, -, -, -, -, -, -, rfl⟩ := approveGoal_ok ht
    exact h.plans p hp hgoal
  | _ => exact absurd rfl hplanning

theorem OnePlan.keep (hw : WellFormed s) (h : OnePlan cfg goalId s) (hplans : t.PlansOnce cfg goalId)
    (ht : s.apply enc t = .ok s') (hlen : (itemsOf goalId s').length = (itemsOf goalId s).length) :
    OnePlan cfg goalId s' := by
  have hstatuses := h.statuses_apply hw hplans ht
  refine ⟨h.plans_apply hplans ht, hstatuses, fun g' hg' hid hst => ?_, h.kept_apply hw ht hstatuses, hlen ▸ h.count⟩
  suffices hnone : itemsOf goalId s = [] by
    rw [hnone] at hlen
    exact List.length_eq_zero_iff.mp hlen
  rcases goal_apply hw ht hg' with ⟨g, hg, hgid, rfl | ⟨e, -, hstep⟩⟩ | ⟨hfresh, -⟩
  · exact h.unapproved g' hg hid hst
  · refine h.unapproved g hg (hgid.trans hid) ?_
    rw [hstep.eq] at hst
    have hallowed := hstep.allowed
    cases GoalEvent.eq_plan hallowed hst
    have hne := h.statuses g hg (hgid.trans hid)
    simp only [GoalEvent.allowed, Bool.or_eq_true, decide_eq_true_eq, hne, or_false] at hallowed
    rw [hallowed]
    rfl
  · refine List.filter_eq_nil_iff.mpr fun w hwm => ?_
    obtain ⟨g, hg, hgid⟩ := hw.itemGoal w hwm
    have hne := hfresh g hg
    simp only [decide_eq_true_eq]
    exact fun hgoal => hne (hgid.trans (hgoal.trans hid.symm))

theorem OnePlan.approve (hw : WellFormed s) (h : OnePlan cfg goalId s) (hnodes : 1 ≤ maxNodes cfg)
    {request : ApproveGoalRequest} {externalWrite : ExternalWritePolicy} {internalPolicy : InternalApprovalPolicy}
    {actor approvalId : String} {workId : Nat → String}
    (ht : s.apply enc (.approveGoal goalId request externalWrite internalPolicy actor approvalId workId) = .ok s') :
    itemsOf goalId s = [] ∧ OnePlan cfg goalId s' := by
  have hplans : Txn.PlansOnce cfg goalId
    (.approveGoal goalId request externalWrite internalPolicy actor approvalId workId) := trivial
  have hstatuses := h.statuses_apply hw hplans ht
  have hkept := h.kept_apply hw ht hstatuses
  have hplans' := h.plans_apply hplans ht
  obtain ⟨goal, plan, workItems, new, dependencies, hgoal, hst, -, hplan, -, -, hitems, -, -, rfl⟩ := approveGoal_ok ht
  obtain ⟨hgm, hgid⟩ := goal?_eq_some hgoal
  obtain ⟨hpm, hpg, -⟩ := plan?_eq_some hplan
  have hnone : itemsOf goalId s = [] := h.unapproved goal hgm hgid (by rw [hst]; rfl)
  refine ⟨hnone, hplans', hstatuses, fun g hg hid hun => ?_, hkept, ?_⟩
  · obtain ⟨g₀, hg₀, rfl⟩ := mem_updateWhere.mp hg
    split_ifs at hun hid with hp
    · cases hun
    · exact absurd hid (by simpa using hp)
  · obtain ⟨runId, rootTask, history, incoming, hworkflow⟩ := h.plans plan hpm hpg
    rw [itemsOf_append (materializeItems_ok hitems).1, hnone, List.nil_append, hworkflow]
    have hle := List.length_filter_le (fun w : WorkItemRow => w.goalId = goalId)
      (newItems (approvedItem goalId plan workId) 0 [rootStep cfg runId rootTask history incoming])
    rw [length_newItems, List.length_singleton] at hle
    exact Nat.le_trans hle (by omega)

/-- An extension keeps to the bound that the root step carries. -/
theorem OnePlan.extend (hw : WellFormed s) (h : OnePlan cfg goalId s) {steps : List WorkflowStep}
    {externalWrite : ExternalWritePolicy} {actor : String} {workId : Nat → String}
    (ht : s.apply enc (.extendWorkflow goalId steps externalWrite actor workId) = .ok s') : OnePlan cfg goalId s' := by
  have hplans : Txn.PlansOnce cfg goalId (.extendWorkflow goalId steps externalWrite actor workId) := trivial
  have hstatuses := h.statuses_apply hw hplans ht
  refine ⟨h.plans_apply hplans ht, hstatuses, fun g' hg' hid hun => ?_, h.kept_apply hw ht hstatuses, ?_⟩
  · obtain ⟨goal, -, hgoal, hst, -⟩ := extendWorkflow_items ht
    obtain ⟨hgm, hgid⟩ := goal?_eq_some hgoal
    rcases goal_apply hw ht hg' with ⟨g, hg, hgid', hmove⟩ | ⟨hfresh, -⟩
    · have heq := eq_of_key_eq hw.goalIds hg hgm (hgid'.trans (hid.trans hgid.symm))
      subst heq
      rcases hmove with rfl | ⟨e, ⟨-, st, rfl, -⟩, hstep⟩
      · rw [isUnapproved_of_isExtensible hst] at hun
        cases hun
      · rw [hstep.eq] at hun
        cases GoalEvent.eq_plan hstep.allowed hun
    · exact absurd (hgid.trans hid.symm) (hfresh goal hgm)
  · obtain ⟨plan, root, n, hlatest, hroot, hn, hbound⟩ := extendWorkflow_bound ht
    obtain ⟨-, plan', -, -, -, -, hitems⟩ := extendWorkflow_items ht
    obtain ⟨hpm, hpg, -⟩ := latestWorkflow?_eq_some hlatest
    obtain ⟨runId, rootTask, history, incoming, hworkflow⟩ := h.plans plan hpm hpg
    have hstep : root = rootStep cfg runId rootTask history incoming := by
      rw [hworkflow] at hroot
      exact List.mem_singleton.mp (List.mem_of_find?_eq_some hroot)
    rw [hstep] at hn
    rw [maxNodes_rootStep hn] at hbound
    have hsame : keptItems goalId s = itemsOf goalId s := by
      refine List.filter_congr fun w hwm => ?_
      by_cases hgoal : w.goalId = goalId
      · simp [hgoal, h.kept w hwm hgoal]
      · simp [hgoal]
    have hle := List.length_filter_le (fun w : WorkItemRow => w.goalId = goalId)
      (newItems (extendedItem goalId plan'.id workId (nextOrdinal goalId s)) 0 steps)
    rw [length_newItems] at hle
    rw [hsame] at hbound
    rw [itemsOf_append hitems, List.length_append]
    omega

/-- **Every transaction keeps the goal to one plan and its bound.** -/
theorem onePlan_apply (hw : WellFormed s) (h : OnePlan cfg goalId s) (hnodes : 1 ≤ maxNodes cfg)
    (hplans : t.PlansOnce cfg goalId) (ht : s.apply enc t = .ok s') : OnePlan cfg goalId s' := by
  by_cases hm : t.isMaterializing = false
  · exact h.keep hw hplans ht (length_itemsOf (itemOrigins_apply ht hm))
  cases t with
  | approveGoal id request externalWrite internalPolicy actor approvalId workId =>
    by_cases hid : id = goalId
    · subst hid
      exact (h.approve hw hnodes ht).2
    · refine h.keep hw hplans ht ?_
      obtain ⟨goal, plan, workItems, new, dependencies, -, -, -, -, -, -, hitems, -, -, rfl⟩ := approveGoal_ok ht
      rw [itemsOf_append (materializeItems_ok hitems).1, List.filter_eq_nil_iff.mpr ?_, List.append_nil]
      intro w hwm
      obtain ⟨i, step, -, rfl⟩ := mem_newItems.mp hwm
      simpa [approvedItem] using hid
  | extendWorkflow id steps externalWrite actor workId =>
    by_cases hid : id = goalId
    · subst hid
      exact h.extend hw ht
    · refine h.keep hw hplans ht ?_
      obtain ⟨goal, plan, -, -, -, -, hitems⟩ := extendWorkflow_items ht
      rw [itemsOf_append hitems, List.filter_eq_nil_iff.mpr ?_, List.append_nil]
      intro w hwm
      obtain ⟨i, step, -, rfl⟩ := mem_newItems.mp hwm
      simpa [extendedItem] using hid
  | _ => exact absurd rfl hm

end Items

/-! ## The row of the budget -/

section Rows

variable {enc : Encoding} {goalId : String} {s s' : Store} {t : Txn}

/-- What a transaction that reserves no call of the goal makes of its row. -/
theorem rows_kept (ht : s.apply enc t = .ok s') (hreserve : ∀ now, t ≠ .reserveProviderCall goalId now)
    {b' : BudgetUsageRow} (hb' : b' ∈ s'.budgets) (hgoal : b'.goalId = goalId) :
    (∃ b ∈ s.budgets, b.goalId = goalId ∧ b'.maxProviderCalls = b.maxProviderCalls ∧
      b'.providerCalls = b.providerCalls) ∨
    (t.approves enc s goalId = true ∧ ∃ plan ∈ s.workflows, plan.goalId = goalId ∧
      b'.maxProviderCalls = plan.workflow.budget.maxProviderCalls ∧ b'.providerCalls = 0) := by
  rcases budgets_apply ht with ⟨hsame, -⟩ | ⟨id, plan, hplan, hpg, -, happroved, hnew, -⟩ | ⟨id, now, rfl⟩ |
    ⟨id, n, rfl⟩
  · rw [hsame] at hb'
    exact .inl ⟨b', hb', hgoal, rfl, rfl⟩
  · rw [hnew] at hb'
    rcases List.mem_append.mp hb' with hb' | hb'
    · exact .inl ⟨b', (List.mem_filter.mp hb').1, hgoal, rfl, rfl⟩
    · cases List.mem_singleton.mp hb'
      subst hgoal
      exact .inr ⟨happroved, plan, hplan, hpg, rfl, rfl⟩
  · obtain ⟨-, -, -, -, rfl⟩ := reserveProviderCall_reads ht
    obtain ⟨b, hb, rfl⟩ := mem_updateWhere.mp hb'
    have hne : id ≠ goalId := fun hid => hreserve now (by rw [hid])
    split_ifs at hgoal ⊢ with hp
    · rw [decide_eq_true_eq] at hp
      rw [charge_goalId] at hgoal
      exact absurd (hp.1.symm.trans hgoal) hne
    · exact .inl ⟨b, hb, hgoal, rfl, rfl⟩
  · obtain ⟨-, rfl⟩ := recordProviderResponseBytes_reads ht
    obtain ⟨b, hb, rfl⟩ := mem_updateWhere.mp hb'
    refine .inl ⟨b, hb, ?_⟩
    split_ifs at hgoal ⊢
    · exact ⟨hgoal, rfl, rfl⟩
    · exact ⟨hgoal, rfl, rfl⟩

theorem rows_reserved (hb : Budgeted s) {now : Int} (ht : reserveProviderCall goalId now s = .ok s')
    {b' : BudgetUsageRow} (hb' : b' ∈ s'.budgets) (hgoal : b'.goalId = goalId) :
    ∃ b ∈ s.budgets, b.goalId = goalId ∧ b'.maxProviderCalls = b.maxProviderCalls ∧
      b'.providerCalls = b.providerCalls + 1 := by
  obtain ⟨b₀, hfind, -, hcalls, rfl⟩ := reserveProviderCall_reads ht
  obtain ⟨b, hbm, rfl⟩ := mem_updateWhere.mp hb'
  have hid : b.goalId = goalId := by
    split_ifs at hgoal
    · exact hgoal
    · exact hgoal
  have hb₀ : b₀ = b := by
    have hrow := hb.find hbm
    rw [hid, hfind] at hrow
    exact Option.some.inj hrow
  subst hb₀
  rw [if_pos (by simp [hid, hcalls])]
  exact ⟨b₀, hbm, hid, rfl, rfl⟩

end Rows

/-! ## The calls of a run -/

namespace NodeRun

/-- The row counts what the attempts have reserved, and each of them is the only one on its item. -/
structure Accounted (cfg : AgentSwarmSettings) (goalId : String) (r : NodeRun) : Prop where
  wellFormed : WellFormed r.world.store
  budgeted : Budgeted r.world.store
  onePlan : OnePlan cfg goalId r.world.store
  rows : ∀ b ∈ r.world.store.budgets, b.goalId = goalId →
    b.maxProviderCalls = (swarmBudget cfg).maxProviderCalls ∧ b.providerCalls = r.reserved
  nodes : ∀ attempt ∈ r.attempts, attempt.caller.node.goalId = goalId
  within : ∀ attempt ∈ r.attempts, attempt.Within NodeCall.isReserve 2
  items : r.attempts.map (·.caller.workItemId) ⊆ (itemsOf goalId r.world.store).map (·.id)
  distinct : (r.attempts.map (·.caller.workItemId)).Nodup

section

variable {enc : Encoding} {digest : Value → String} {cfg : AgentSwarmSettings} {goalId runId : String} {r : NodeRun}
  {s' : Store} {t : Txn}

theorem accounted_empty (cfg : AgentSwarmSettings) (goalId : String) : empty.Accounted cfg goalId where
  wellFormed := wellFormed_empty
  budgeted := budgeted_empty
  onePlan := onePlan_empty cfg goalId
  rows := fun b hb => by cases hb
  nodes := fun attempt h => by cases h
  within := fun attempt h => by cases h
  items := List.nil_subset _
  distinct := List.nodup_nil

theorem Accounted.length_le (h : r.Accounted cfg goalId) : r.attempts.length ≤ min (maxNodes cfg) 32 := by
  have hle := (List.subperm_of_subset h.distinct h.items).length_le
  rw [List.length_map, List.length_map] at hle
  exact Nat.le_trans hle h.onePlan.count

theorem items_apply (ht : r.world.store.apply enc t = .ok s') :
    (itemsOf goalId r.world.store).map (·.id) ⊆ (itemsOf goalId s').map (·.id) := by
  intro id hid
  obtain ⟨w, hw, rfl⟩ := List.mem_map.mp hid
  obtain ⟨hwm, hgoal⟩ := List.mem_filter.mp hw
  obtain ⟨w', hw', ho⟩ := item_exec enc t hwm
  rw [exec_of_ok ht] at hw'
  obtain ⟨hid', hgoal', -⟩ := columns_of_origin ho
  refine List.mem_map.mpr ⟨w', List.mem_filter.mpr ⟨hw', ?_⟩, hid'⟩
  rw [decide_eq_true_eq] at hgoal ⊢
  exact hgoal'.trans hgoal

theorem Accounted.unapproved (h : r.Accounted cfg goalId) (hnodes : 1 ≤ maxNodes cfg)
    (ht : r.world.store.apply enc t = .ok s') (happroves : t.approves enc r.world.store goalId = true) :
    r.reserved = 0 := by
  cases t with
  | approveGoal id request externalWrite internalPolicy actor approvalId workId =>
    have hid : id = goalId := of_decide_eq_true (Bool.and_eq_true_iff.mp happroves).1
    subst hid
    have hitems := h.items
    rw [(h.onePlan.approve h.wellFormed hnodes ht).1, List.map_nil, List.subset_nil, List.map_eq_nil_iff] at hitems
    rw [reserved, hitems]
    rfl
  | _ => cases happroves

/-- The attempts with what one transaction of them has come to. -/
structure Follows (r : NodeRun) (goalId : String) (attempts : List NodeAttempt) : Prop where
  nodes : ∀ attempt ∈ attempts, attempt.caller.node.goalId = goalId
  within : ∀ attempt ∈ attempts, attempt.Within NodeCall.isReserve 2
  keys : attempts.map (·.caller.workItemId) = r.attempts.map (·.caller.workItemId)

theorem Accounted.follows (h : r.Accounted cfg goalId) : r.Follows goalId r.attempts := ⟨h.nodes, h.within, rfl⟩

theorem Accounted.apply (h : r.Accounted cfg goalId) (hnodes : 1 ≤ maxNodes cfg) (hplans : t.PlansOnce cfg goalId)
    (hreserve : ∀ now, t ≠ .reserveProviderCall goalId now) (ht : r.world.store.apply enc t = .ok s')
    {registry : List ArtifactRecord} {attempts : List NodeAttempt} (hf : r.Follows goalId attempts)
    (hmade : (attempts.map (·.made)).sum = r.reserved) :
    Accounted cfg goalId ⟨⟨s', registry⟩, attempts⟩ where
  wellFormed := wellFormed_apply h.wellFormed ht
  budgeted := exec_of_ok ht ▸ budgeted_exec t h.budgeted
  onePlan := onePlan_apply h.wellFormed h.onePlan hnodes hplans ht
  rows := fun b' hb' hgoal => by
    rw [reserved, hmade]
    rcases rows_kept ht hreserve hb' hgoal with
      ⟨b, hb, hid, hmax, hcalls⟩ | ⟨happroves, plan, hpm, hpg, hmax, hcalls⟩
    · rw [hmax, hcalls]
      exact h.rows b hb hid
    · obtain ⟨runId, rootTask, history, incoming, hworkflow⟩ := h.onePlan.plans plan hpm hpg
      rw [hmax, hcalls, h.unapproved hnodes ht happroves, hworkflow]
      exact ⟨rfl, rfl⟩
  nodes := hf.nodes
  within := hf.within
  items := hf.keys ▸ List.Subset.trans h.items (items_apply ht)
  distinct := hf.keys ▸ h.distinct

variable (enc) in
theorem Accounted.reserve (h : r.Accounted cfg goalId) (hnodes : 1 ≤ maxNodes cfg) {now : Int}
    (ht : r.world.store.apply enc (.reserveProviderCall goalId now) = .ok s') {registry : List ArtifactRecord}
    {attempts : List NodeAttempt} (hf : r.Follows goalId attempts)
    (hmade : (attempts.map (·.made)).sum = r.reserved + 1) :
    Accounted cfg goalId ⟨⟨s', registry⟩, attempts⟩ where
  wellFormed := wellFormed_apply h.wellFormed ht
  budgeted := exec_of_ok ht ▸ budgeted_exec _ h.budgeted
  onePlan := onePlan_apply (t := .reserveProviderCall goalId now) h.wellFormed h.onePlan hnodes trivial ht
  rows := fun b' hb' hgoal => by
    obtain ⟨b, hb, hid, hmax, hcalls⟩ := rows_reserved h.budgeted ht hb' hgoal
    rw [reserved, hmade, hmax, hcalls, (h.rows b hb hid).1, (h.rows b hb hid).2]
    exact ⟨rfl, rfl⟩
  nodes := hf.nodes
  within := hf.within
  items := hf.keys ▸ List.Subset.trans h.items (items_apply ht)
  distinct := hf.keys ▸ h.distinct

theorem Accounted.stay (h : r.Accounted cfg goalId) (registry : List ArtifactRecord) {attempts : List NodeAttempt}
    (hf : r.Follows goalId attempts) (hmade : (attempts.map (·.made)).sum = r.reserved) :
    Accounted cfg goalId ⟨⟨r.world.store, registry⟩, attempts⟩ where
  wellFormed := h.wellFormed
  budgeted := h.budgeted
  onePlan := h.onePlan
  rows := fun b hb hgoal => by
    rw [reserved, hmade]
    exact h.rows b hb hgoal
  nodes := hf.nodes
  within := hf.within
  items := hf.keys ▸ h.items
  distinct := hf.keys ▸ h.distinct

/-- One attempt is answered. -/
theorem Accounted.answered (h : r.Accounted cfg goalId) {i : Nat} {attempt : NodeAttempt} {a : NodeCall}
    {k : Except String a.Resp → NodeProg WorkOutcome} (hi : r.attempts[i]? = some attempt)
    (hprog : attempt.prog = .call a k) (answer : Except String a.Resp) :
    r.Follows goalId (r.attempts.set i (attempt.answered NodeCall.isReserve a k answer)) ∧
      ((r.attempts.set i (attempt.answered NodeCall.isReserve a k answer)).map (·.made)).sum =
        r.reserved + if a.isReserve && answer.isOk then 1 else 0 := by
  have hmem := List.mem_of_getElem? hi
  refine ⟨⟨fun u hu => ?_, fun u hu => ?_, ?_⟩, ?_⟩
  · rcases List.mem_or_eq_of_mem_set hu with hu | rfl
    · exact h.nodes u hu
    · exact h.nodes attempt hmem
  · rcases List.mem_or_eq_of_mem_set hu with hu | rfl
    · exact h.within u hu
    · exact (h.within attempt hmem).answered hprog answer
  · refine List.ext_getElem? fun j => ?_
    rw [List.getElem?_map, List.getElem?_map, List.getElem?_set]
    split_ifs with hij hlt
    · subst hij
      rw [hi]
      rfl
    · subst hij
      rw [List.getElem?_eq_none (by omega)]
    · rfl
  · have hset : ((r.attempts.set i (attempt.answered NodeCall.isReserve a k answer)).map (·.made)).sum + attempt.made =
        r.reserved + (attempt.answered NodeCall.isReserve a k answer).made := Metered.sum_made_set hi
    have hmade : (attempt.answered NodeCall.isReserve a k answer).made =
        attempt.made + if a.isReserve && answer.isOk then 1 else 0 := by
      simp only [Metered.answered]
      split_ifs <;> rfl
    omega

variable (enc) in
theorem publish_store {w w' : SwarmWorld} {request : PublishArtifactRequest} {actor id published : String}
    (h : w.publish digest request actor id = .ok (published, w')) :
    w'.store = w.store ∨ w.store.apply enc (.publishArtifact id request.kind) = .ok w'.store := by
  unfold SwarmWorld.publish at h
  cases hsource : request.sourceGoalId
  all_goals
    cases hparent : request.parentArtifactId
    all_goals
      simp only [hsource, hparent, bind_eq_ok] at h
      obtain ⟨_, -, _, -, _, -, _, -, h⟩ := h
      split at h
      · obtain ⟨_, -, h⟩ := bind_eq_ok.mp h
        cases h
        exact .inl rfl
      · obtain ⟨store, hstore, h⟩ := bind_eq_ok.mp h
        cases h
        exact .inr hstore

/-- **The transaction of an attempt keeps the account.** -/
theorem accounted_advance (h : r.Accounted cfg goalId) (hnodes : 1 ≤ maxNodes cfg) (i : Nat)
    (externalWrite : ExternalWritePolicy) (ambient : Ambient) :
    (r.step enc digest cfg goalId runId (.advances i externalWrite ambient)).Accounted cfg goalId := by
  simp only [step]
  cases hi : r.attempts[i]? with
  | none => exact h
  | some attempt =>
    simp only
    cases hprog : attempt.prog with
    | ret result => exact h
    | call a k =>
      simp only
      have hnode := h.nodes attempt (List.mem_of_getElem? hi)
      obtain ⟨hf, hmade⟩ :=
        h.answered hi hprog (attempt.caller.node.exec enc digest externalWrite ambient a r.world).1
      cases a with
      | reserve now =>
        simp only [Node.exec, Node.onStore, hnode] at hf hmade ⊢
        cases ht : reserveProviderCall goalId now r.world.store with
        | error e =>
          rw [ht] at hf hmade
          exact h.stay _ hf hmade
        | ok s' =>
          rw [ht] at hf hmade
          exact h.reserve enc hnodes ht hf hmade
      | extend steps =>
        simp only [Node.exec, Node.onStore, hnode] at hf hmade ⊢
        cases ht : extendWorkflow enc goalId steps externalWrite "internal:swarm" ambient.workId r.world.store with
        | error e =>
          rw [ht] at hf hmade
          exact h.stay _ hf hmade
        | ok s' =>
          rw [ht] at hf hmade
          exact h.apply (t := .extendWorkflow goalId steps externalWrite "internal:swarm" ambient.workId) hnodes trivial
            (fun _ heq => by cases heq) ht hf hmade
      | publish request =>
        simp only [Node.exec] at hf hmade ⊢
        cases ht : r.world.publish digest request "internal:swarm" ambient.artifactId with
        | error e =>
          rw [ht] at hf hmade
          exact h.stay _ hf hmade
        | ok result =>
          obtain ⟨id, w'⟩ := result
          rw [ht] at hf hmade
          rcases publish_store enc ht with hsame | hstore
          · have hstay := h.stay w'.registry hf hmade
            rw [← hsame] at hstay
            exact hstay
          · exact h.apply (t := .publishArtifact ambient.artifactId request.kind) hnodes trivial
              (fun _ heq => by cases heq) hstore hf hmade

/-- **A regular step keeps the account.** -/
theorem accounted_step (h : r.Accounted cfg goalId) (hnodes : 1 ≤ maxNodes cfg) {l : Label} (hl : Regular goalId r l) :
    (r.step enc digest cfg goalId runId l).Accounted cfg goalId := by
  have htransact : ∀ t : Txn, t.PlansOnce cfg goalId → (∀ now, t ≠ .reserveProviderCall goalId now) →
      (r.transact enc t).Accounted cfg goalId := by
    intro t hplans hreserve
    simp only [transact]
    cases ht : r.world.store.apply enc t with
    | error e =>
      have hexec : exec enc r.world.store t = r.world.store := by rw [exec, ht]; rfl
      rw [hexec]
      exact h
    | ok s' =>
      rw [exec_of_ok ht]
      exact h.apply hnodes hplans hreserve ht h.follows rfl
  cases l with
  | transacts t =>
    refine htransact t ?_ ?_
    · cases t with
      | planGoal id request externalWrite actor planId => exact fun hid => absurd hid (of_decide_eq_false hl)
      | markGoalForReplan id reason actor => exact of_decide_eq_false hl
      | _ => trivial
    · rintro now rfl
      exact of_decide_eq_false hl rfl
  | plans rootTask history incoming externalWrite planId =>
    exact htransact _ (fun _ => ⟨runId, rootTask, history, incoming, rfl⟩) fun _ heq => by cases heq
  | starts workItemId upstream replies clock =>
    simp only [step]
    cases hnode : node? goalId r.world.store workItemId with
    | none => exact h
    | some node =>
      obtain ⟨item, input⟩ := node
      obtain ⟨hitem, hid, hgoal, -⟩ := node?_eq_some hnode
      have hnew : item.id ∈ (itemsOf goalId r.world.store).map (·.id) :=
        List.mem_map_of_mem (List.mem_filter.mpr ⟨hitem, decide_eq_true hgoal⟩)
      refine ⟨h.wellFormed, h.budgeted, h.onePlan, fun b hb hbg => ?_, ?_, ?_, ?_, ?_⟩
      · rw [reserved, List.map_append, List.sum_append]
        exact h.rows b hb hbg
      · rw [List.forall_mem_append, List.forall_mem_singleton]
        exact ⟨h.nodes, rfl⟩
      · rw [List.forall_mem_append, List.forall_mem_singleton]
        exact ⟨h.within, Nat.zero_le 2, Node.atMost_execute⟩
      · rw [List.map_append, List.append_subset, List.map_singleton, List.cons_subset]
        exact ⟨h.items, hid ▸ hnew, List.nil_subset _⟩
      · exact nodup_concat h.distinct hl
  | advances i externalWrite ambient => exact accounted_advance h hnodes i externalWrite ambient

theorem failsByBudget_reads {now : Int} {s : Store} (h : FailsByBudget goalId now s) :
    ∃ b ∈ s.budgets, b.goalId = goalId ∧ b.maxProviderCalls ≤ b.providerCalls := by
  rw [FailsByBudget, reserveProviderCall] at h
  simp only [bind_eq_error, ensureValidId, ensure_eq_error, context_eq_error, ensure_eq_ok, context_eq_ok] at h
  rcases h with ⟨-, hmessage⟩ | ⟨_, -, ⟨-, hmessage⟩ | ⟨b, hb, ⟨-, hmessage⟩ | ⟨_, -, ⟨hcalls, -⟩ | ⟨_, -, hpure⟩⟩⟩⟩
  · simp at hmessage
  · simp at hmessage
  · simp at hmessage
  · exact ⟨b, List.mem_of_find?_eq_some hb, by simpa using List.find?_some hb, by simpa using hcalls⟩
  · cases hpure

/-- **While the account is kept, the budget suffices.** -/
theorem Accounted.suffices (h : r.Accounted cfg goalId) (hcovers : Covers cfg) : r.Suffices goalId := by
  have hlength := h.length_le
  have hbudget := hcovers.2
  refine ⟨fun i now hasks hfails => ?_, fun b hb hgoal => ?_⟩
  · obtain ⟨b, hb, hgoal, hcalls⟩ := failsByBudget_reads hfails
    obtain ⟨hmax, hmade⟩ := h.rows b hb hgoal
    obtain ⟨attempt, hi, hasks⟩ := Option.bind_eq_some_iff.mp hasks
    cases hprog : attempt.prog with
    | ret result =>
      rw [hprog] at hasks
      cases hasks
    | call a k =>
      rw [hprog] at hasks
      have ha : a.isReserve = true := by
        cases a with
        | reserve now => rfl
        | _ => cases hasks
      have hlt : r.reserved < 2 * r.attempts.length := Metered.sum_made_lt h.within hi hprog ha
      omega
  · have hle : r.reserved ≤ 2 * r.attempts.length := Metered.sum_made_le fun attempt hm => (h.within attempt hm).1
    rw [(h.rows b hb hgoal).1]
    omega

end

end NodeRun

/-- **The budget of a swarm run suffices**: while no item is attempted twice, whatever the nodes delegate and in
whatever order they run, no reservation fails for the budget. -/
theorem calls_covered (enc : Encoding) (digest : Value → String) (cfg : AgentSwarmSettings) (goalId runId : String)
    (hcovers : Covers cfg) (ls : List NodeRun.Label)
    (hls : Machine.Along (NodeRun.step enc digest cfg goalId runId) (NodeRun.Regular goalId) .empty ls) :
    (Machine.run (NodeRun.step enc digest cfg goalId runId) .empty ls).Suffices goalId := by
  have haccount := Machine.run_invariant (I := NodeRun.Accounted cfg goalId)
    (fun r l hl h => NodeRun.accounted_step h hcovers.1 hl) hls (NodeRun.accounted_empty cfg goalId)
  exact haccount.suffices hcovers

namespace SwarmSample

/-- A run of these settings is planned and approved. -/
def approvedRun (planHash : String) : List NodeRun.Label :=
  [.transacts (.createGoal { objective := "ship" } "internal:swarm" "goal"),
    .plans "ship" [] incoming Sample.externalWrite "plan",
    .transacts (.approveGoal "goal" ⟨2, planHash⟩ Sample.externalWrite {} "internal:swarm" "approval" fun _ => root.id)]

def nextCall (i : Nat) : NodeRun.Label :=
  .advances i Sample.externalWrite
    ⟨fun _ => 0, fun n => if n = 0 then childStepId root.id 0 else aggregateStepId root.id, "report"⟩

/-- The root plans and delegates to a child, and the child asks its planner, which has no answer. -/
def delegatingRun (planHash : String) : List NodeRun.Label :=
  approvedRun planHash ++
    [.starts root.id [] splits fun _ => 0, nextCall 0, nextCall 0, .starts (childStepId root.id 0) [] {} fun _ => 0,
      nextCall 1]

def stepOf (enc : Encoding) (cfg : AgentSwarmSettings) : NodeRun → NodeRun.Label → NodeRun :=
  NodeRun.step enc contentDigest cfg "goal" "run"

/-- So many agents that twice their number is two calls. -/
def countless : AgentSwarmSettings := { maxAgents := 2 ^ 31 + 1 }

def countlessDigest : String := "sha256:7a7afc1bbcf8ebca67fb845255c20fc7115a9774e52aa073c0572edc98606be3"

def countlessEncoding : Encoding where
  inputLen := encodedLen
  workflowLen _ := 504
  planHash _ := countlessDigest

end SwarmSample

open SwarmSample in
theorem calls_covered_delegating :
    (Machine.run (stepOf encoding settings) .empty (delegatingRun planDigest)).Suffices "goal" :=
  calls_covered encoding contentDigest settings "goal" "run" (by decide +kernel) (delegatingRun planDigest)
    (by decide +kernel)

open SwarmSample in
/-- With that many agents the child's answer is refused, and the extension before has been accepted. -/
theorem calls_refused :
    ¬ ∀ (enc : Encoding) (digest : Value → String) (cfg : AgentSwarmSettings) (goalId runId : String)
      (ls : List NodeRun.Label),
      Machine.Along (NodeRun.step enc digest cfg goalId runId) (NodeRun.Regular goalId) .empty ls →
      (Machine.run (NodeRun.step enc digest cfg goalId runId) .empty ls).Suffices goalId := by
  intro h
  have hregular : Machine.Along (stepOf countlessEncoding countless) (NodeRun.Regular "goal") .empty
      (delegatingRun countlessDigest) := by decide +kernel
  have hsuffices := h countlessEncoding contentDigest countless "goal" "run" _ hregular
  have hasks : (Machine.run (stepOf countlessEncoding countless) .empty (delegatingRun countlessDigest)).asks? 1 =
    some 0 := by decide +kernel
  have hfails : NodeRun.FailsByBudget "goal" 0
      (Machine.run (stepOf countlessEncoding countless) .empty (delegatingRun countlessDigest)).world.store := by
    decide +kernel
  exact hsuffices.granted 1 0 hasks hfails

end Xiaomaolv
