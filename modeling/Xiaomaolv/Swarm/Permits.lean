import Xiaomaolv.Lib.Machine
import Xiaomaolv.Loop.Data

/-!
# The permits of an in-process swarm run

A swarm run is one task: a node awaits its children in turn, each under a permit, and every model call
takes a permit of its own from the same semaphore.

* `SwarmRun`: the nodes on the path from the root to the one that executes, and the permits left;
  `step`: `execute_swarm_node_inner` and `swarm_complete_with_timeout`, one await at a time.
* `Inv`: a node at depth `d` executes under the `d` permits of its ancestors.
* **`swarm_permits`**: no run gets stuck exactly when the permits exceed the greatest depth at which a
  node executes; a stuck run waits for a model call at the depth of the permits.
-/

namespace Xiaomaolv

/-- The limits of `AgentSwarmSettings`. -/
structure AgentSwarmSettings where
  maxDepth : Nat := 3
  maxAgents : Nat := 16
  maxParallel : Nat := 4
  maxRunTimeoutMs : Nat := 90000

/-- A child of a planner's reply. -/
structure SwarmChildPlan where
  task : String
  roleName : Option String := none
  roleDefinition : Option String := none
  nickname : Option String := none

/-- What the planner call of a node comes to. -/
inductive PlannerReply
  | delegate (children : List SwarmChildPlan)
  | answer (text : String)
  | unparsed
  | timeout
  | failure

/-- The model calls of a node. -/
inductive ModelCall
  | planner
  | answer
  | merge
deriving DecidableEq

/-- Where a node stands: at the head of its body, before or in a model call, before the permit of its
next child, or with a child that executes under that permit. -/
inductive SwarmPhase
  | start
  | acquire (call : ModelCall)
  | calling (call : ModelCall)
  | children (rest : List SwarmChildPlan)
  | awaiting (rest : List SwarmChildPlan)

namespace SwarmPhase

/-- The permits that the phase holds for a model call. -/
def callPermits : SwarmPhase → Nat
  | .calling _ => 1
  | _ => 0

/-- The node may plan, or has planned, children. -/
def plans : SwarmPhase → Bool
  | .acquire .planner => true
  | .calling .planner => true
  | .children _ => true
  | _ => false

end SwarmPhase

structure SwarmFrame where
  depth : Nat
  phase : SwarmPhase

/-- The executing node and its ancestors, the executing one first. A finished run has no node left. -/
structure SwarmRun where
  frames : List SwarmFrame
  agentCounter : Nat
  permits : Nat

namespace SwarmRun

/-- `execute_swarm_node` of the root, on a new semaphore. -/
def start (cfg : AgentSwarmSettings) : SwarmRun where
  frames := [⟨0, .start⟩]
  agentCounter := 0
  permits := max cfg.maxParallel 1

/-- What can happen next: the executing node goes on by itself, or its model call ends. -/
inductive Event
  | advance
  | reply (planner : PlannerReply)

variable (cfg : AgentSwarmSettings)

/-- The node returns: its parent drops the permit of the child. -/
def finish (parents : List SwarmFrame) (s : SwarmRun) : SwarmRun :=
  match parents with
  | ⟨depth, .awaiting rest⟩ :: above =>
    { s with frames := ⟨depth, .children rest⟩ :: above, permits := s.permits + 1 }
  | parents => { s with frames := parents }

/-- The children that a plan schedules. -/
def scheduled (children : List SwarmChildPlan) : List SwarmChildPlan :=
  children.filter fun c => !isBlank c.task

/-- Where a node goes when its planner has replied, unless it returns. -/
def afterPlanner : PlannerReply → Option SwarmPhase
  | .delegate children => some (if children.isEmpty then .acquire .answer else .children (scheduled children))
  | .answer text => if isBlank text then some (.acquire .answer) else none
  | .unparsed => some (.acquire .answer)
  | .failure => some (.acquire .answer)
  | .timeout => none

/-- A node takes its index; past the budget it is skipped, at the last depth it does not plan. -/
def begin (depth : Nat) (parents : List SwarmFrame) (s : SwarmRun) : SwarmRun :=
  let idx := s.agentCounter + 1
  let s := { s with agentCounter := idx }
  if idx > max cfg.maxAgents 1 then finish parents s
  else if depth ≥ max cfg.maxDepth 1 then
    { s with frames := ⟨depth, .acquire .answer⟩ :: parents }
  else { s with frames := ⟨depth, .acquire .planner⟩ :: parents }

/-- One step of the executing node; `none` where the event cannot happen. -/
def step (s : SwarmRun) (e : Event) : Option SwarmRun :=
  match s.frames, e with
  | ⟨depth, .start⟩ :: parents, .advance => some (begin cfg depth parents s)
  | ⟨depth, .acquire call⟩ :: parents, .advance =>
    if s.permits = 0 then none
    else some { s with frames := ⟨depth, .calling call⟩ :: parents, permits := s.permits - 1 }
  | ⟨depth, .calling .planner⟩ :: parents, .reply r =>
    let s := { s with permits := s.permits + 1 }
    match afterPlanner r with
    | some phase => some { s with frames := ⟨depth, phase⟩ :: parents }
    | none => some (finish parents s)
  | ⟨_, .calling _⟩ :: parents, .reply _ => some (finish parents { s with permits := s.permits + 1 })
  | ⟨depth, .children []⟩ :: parents, .advance =>
    some { s with frames := ⟨depth, .acquire .merge⟩ :: parents }
  | ⟨depth, .children (_ :: rest)⟩ :: parents, .advance =>
    if s.permits = 0 then none
    else
      some
        { s with
          frames := ⟨depth + 1, .start⟩ :: ⟨depth, .awaiting rest⟩ :: parents
          permits := s.permits - 1 }
  | _, _ => none

/-- An event that cannot happen changes nothing. -/
def exec (s : SwarmRun) (e : Event) : SwarmRun := (step cfg s e).getD s

/-- The run after a list of events. -/
def run (events : List Event) : SwarmRun := Machine.run (exec cfg) (start cfg) events

/-- The run is not over and nothing can happen. -/
def Stuck (s : SwarmRun) : Prop := s.frames ≠ [] ∧ ∀ e, step cfg s e = none

/-! ## The permits of a path -/

/-- The nodes above the executing one each await a child, one depth apart, and have planned. -/
def Ancestors : List SwarmFrame → Prop
  | [] => True
  | f :: above => (∃ rest, f.phase = .awaiting rest) ∧ f.depth = above.length ∧
      f.depth < max cfg.maxDepth 1 ∧ f.depth < max cfg.maxAgents 1 ∧ Ancestors above

/-- The executing node `top` at depth `d`: its ancestors hold `d` permits, its model call one. -/
structure Active (s : SwarmRun) (top : SwarmFrame) (parents : List SwarmFrame) : Prop where
  ancestors : Ancestors cfg parents
  depth : top.depth = parents.length
  depthLe : top.depth ≤ max cfg.maxDepth 1
  counter : top.phase = .start ∧ parents.length ≤ s.agentCounter ∨ parents.length < s.agentCounter
  permits : s.permits + parents.length + top.phase.callPermits = max cfg.maxParallel 1
  budget : top.phase = .start ∨ top.depth < max cfg.maxAgents 1
  executes : ∀ rest, top.phase ≠ .awaiting rest
  plans : top.phase.plans = true → top.depth < max cfg.maxDepth 1
  called : ∀ rest, top.phase = .children rest → top.depth < max cfg.maxParallel 1

/-- The invariant of a run. -/
def Inv (s : SwarmRun) : Prop :=
  ∀ top parents, s.frames = top :: parents → Active cfg s top parents

variable {cfg} {s s' : SwarmRun} {parents : List SwarmFrame}

theorem Active.counted {top : SwarmFrame} (h : Active cfg s top parents)
    (hstart : top.phase ≠ .start) : parents.length < s.agentCounter := by
  rcases h.counter with hc | hc
  · exact absurd hc.1 hstart
  · exact hc

theorem inv_finish (ha : Ancestors cfg parents) (hc : parents.length ≤ s.agentCounter)
    (hp : s.permits + parents.length = max cfg.maxParallel 1) : Inv cfg (finish parents s) := by
  intro top above htop
  match parents, ha with
  | [], _ => cases htop
  | ⟨depth, phase⟩ :: parents, ⟨⟨rest, hphase⟩, hdepth, hd, hb, ha⟩ =>
    cases hphase
    cases htop
    rw [List.length_cons] at hc hp
    exact
      { ancestors := ha
        depth := hdepth
        depthLe := Nat.le_of_lt hd
        counter := .inr (by show above.length < s.agentCounter; omega)
        permits := by show s.permits + 1 + above.length + 0 = _; omega
        budget := .inr hb
        executes := nofun
        plans := fun _ => hd
        called := fun _ _ => by show depth < _; simp only at hdepth; omega }

theorem inv_begin {depth : Nat} (h : Active cfg s ⟨depth, .start⟩ parents) : Inv cfg (begin cfg depth parents s) := by
  have hdepth : depth = parents.length := h.depth
  have hcounter : parents.length ≤ s.agentCounter := by
    rcases h.counter with h | h
    · exact h.2
    · exact Nat.le_of_lt h
  have hpermits : s.permits + parents.length + 0 = max cfg.maxParallel 1 := h.permits
  unfold begin
  simp only
  split_ifs with hbudget hforce
  · exact inv_finish h.ancestors (by show _ ≤ s.agentCounter + 1; omega) hpermits
  · rintro top above ⟨⟩
    exact
      { ancestors := h.ancestors
        depth := hdepth
        depthLe := h.depthLe
        counter := .inr (by show _ < s.agentCounter + 1; omega)
        permits := hpermits
        budget := .inr (by show depth < _; omega)
        executes := nofun
        plans := nofun
        called := nofun }
  · rintro top above ⟨⟩
    exact
      { ancestors := h.ancestors
        depth := hdepth
        depthLe := h.depthLe
        counter := .inr (by show _ < s.agentCounter + 1; omega)
        permits := hpermits
        budget := .inr (by show depth < _; omega)
        executes := nofun
        plans := fun _ => by show depth < _; omega
        called := nofun }

theorem afterPlanner_phase {r : PlannerReply} {phase : SwarmPhase} (h : afterPlanner r = some phase) :
    phase.callPermits = 0 ∧ ∀ rest, phase ≠ .awaiting rest := by
  cases r with
  | delegate children =>
    simp only [afterPlanner, Option.some.injEq] at h
    subst h
    split_ifs <;> exact ⟨rfl, nofun⟩
  | answer text =>
    simp only [afterPlanner] at h
    split_ifs at h
    cases h
    exact ⟨rfl, nofun⟩
  | unparsed | failure =>
    cases h
    exact ⟨rfl, nofun⟩
  | timeout => cases h

theorem inv_step {e : Event} (h : Inv cfg s) (hs : step cfg s e = some s') : Inv cfg s' := by
  obtain ⟨frames, agentCounter, permits⟩ := s
  match frames, e, hs with
  | ⟨depth, .start⟩ :: parents, .advance, hs =>
    cases hs
    exact inv_begin (h _ _ rfl)
  | ⟨depth, .acquire call⟩ :: parents, .advance, hs =>
    have ha := h _ _ rfl
    have hpermits : permits + parents.length + 0 = max cfg.maxParallel 1 := ha.permits
    simp only [step] at hs
    split_ifs at hs with hp
    cases hs
    rintro top above ⟨⟩
    exact
      { ancestors := ha.ancestors
        depth := ha.depth
        depthLe := ha.depthLe
        counter := .inr (ha.counted nofun)
        permits := by show permits - 1 + parents.length + 1 = _; omega
        budget := .inr (ha.budget.resolve_left nofun)
        executes := nofun
        plans := fun hplans => ha.plans (by cases call <;> exact hplans)
        called := nofun }
  | ⟨depth, .calling call⟩ :: parents, .reply r, hs =>
    have ha := h _ _ rfl
    have hpermits : permits + parents.length + 1 = max cfg.maxParallel 1 := ha.permits
    have hdepth : depth = parents.length := ha.depth
    have hfinish : Inv cfg (finish parents ⟨⟨depth, .calling call⟩ :: parents, agentCounter, permits + 1⟩) :=
      inv_finish ha.ancestors (Nat.le_of_lt (ha.counted nofun)) (by show permits + 1 + parents.length = _; omega)
    cases call with
    | answer | merge =>
      cases hs
      exact hfinish
    | planner =>
      simp only [step] at hs
      cases hr : afterPlanner r with
      | none =>
        rw [hr] at hs
        cases hs
        exact hfinish
      | some phase =>
        rw [hr] at hs
        cases hs
        rintro top above ⟨⟩
        obtain ⟨hheld, hexec⟩ := afterPlanner_phase hr
        exact
          { ancestors := ha.ancestors
            depth := ha.depth
            depthLe := ha.depthLe
            counter := .inr (ha.counted nofun)
            permits := by show permits + 1 + parents.length + phase.callPermits = _; omega
            budget := .inr (ha.budget.resolve_left nofun)
            executes := hexec
            plans := fun _ => ha.plans rfl
            called := fun _ _ => by show depth < max cfg.maxParallel 1; omega }
  | ⟨depth, .children []⟩ :: parents, .advance, hs =>
    have ha := h _ _ rfl
    cases hs
    rintro top above ⟨⟩
    exact
      { ancestors := ha.ancestors
        depth := ha.depth
        depthLe := ha.depthLe
        counter := .inr (ha.counted nofun)
        permits := ha.permits
        budget := .inr (ha.budget.resolve_left nofun)
        executes := nofun
        plans := nofun
        called := nofun }
  | ⟨depth, .children (c :: rest)⟩ :: parents, .advance, hs =>
    have ha := h _ _ rfl
    have hpermits : permits + parents.length + 0 = max cfg.maxParallel 1 := ha.permits
    have hbudget : depth < max cfg.maxAgents 1 := ha.budget.resolve_left nofun
    have hplans : depth < max cfg.maxDepth 1 := ha.plans rfl
    simp only [step] at hs
    split_ifs at hs with hp
    cases hs
    rintro top above ⟨⟩
    exact
      { ancestors := ⟨⟨rest, rfl⟩, ha.depth, hplans, hbudget, ha.ancestors⟩
        depth := congrArg (· + 1) ha.depth
        depthLe := hplans
        counter := .inl ⟨rfl, ha.counted nofun⟩
        permits := by show permits - 1 + (parents.length + 1) + 0 = _; omega
        budget := .inl rfl
        executes := nofun
        plans := nofun
        called := nofun }
  | [], .advance, hs | [], .reply _, hs => cases hs
  | ⟨_, .start⟩ :: _, .reply _, hs => cases hs
  | ⟨_, .acquire _⟩ :: _, .reply _, hs => cases hs
  | ⟨_, .calling .planner⟩ :: _, .advance, hs => cases hs
  | ⟨_, .calling .answer⟩ :: _, .advance, hs => cases hs
  | ⟨_, .calling .merge⟩ :: _, .advance, hs => cases hs
  | ⟨_, .children []⟩ :: _, .reply _, hs => cases hs
  | ⟨_, .children (_ :: _)⟩ :: _, .reply _, hs => cases hs
  | ⟨_, .awaiting _⟩ :: _, .advance, hs => cases hs
  | ⟨_, .awaiting _⟩ :: _, .reply _, hs => cases hs

theorem inv_start : Inv cfg (start cfg) := by
  rintro top parents ⟨⟩
  exact
    { ancestors := trivial
      depth := rfl
      depthLe := Nat.zero_le _
      counter := .inl ⟨rfl, Nat.le_refl 0⟩
      permits := rfl
      budget := .inl rfl
      executes := nofun
      plans := nofun
      called := nofun }

variable (cfg) in
theorem inv_run (events : List Event) : Inv cfg (run cfg events) := by
  refine Machine.run_invariant' (I := Inv cfg) (fun s e h => ?_) inv_start
  unfold exec
  cases hs : step cfg s e with
  | none => exact h
  | some s' => exact inv_step h hs

/-! ## Stuck runs -/

/-- A node below the depth of the permits goes on, and so does one that waits for no permit. -/
theorem stuck_iff (h : Inv cfg s) : Stuck cfg s ↔
    ∃ call parents, s.frames = ⟨max cfg.maxParallel 1, .acquire call⟩ :: parents := by
  obtain ⟨frames, agentCounter, permits⟩ := s
  constructor
  · rintro ⟨hne, hstuck⟩
    match frames, hne with
    | ⟨depth, phase⟩ :: parents, _ =>
      have ha := h _ _ rfl
      have hdepth : depth = parents.length := ha.depth
      have hpermits : permits + parents.length + phase.callPermits = max cfg.maxParallel 1 := ha.permits
      have hadvance := hstuck .advance
      cases phase with
      | start => cases hadvance
      | acquire call =>
        simp only [step, ite_eq_left_iff, reduceCtorEq, imp_false, not_not] at hadvance
        simp only [SwarmPhase.callPermits] at hpermits
        have hmax : depth = max cfg.maxParallel 1 := by omega
        exact ⟨call, parents, by rw [hmax]⟩
      | calling call =>
        have hreply := hstuck (.reply .timeout)
        cases call <;> cases hreply
      | children rest =>
        cases rest with
        | nil => cases hadvance
        | cons c rest =>
          have hcalled : depth < max cfg.maxParallel 1 := ha.called _ rfl
          simp only [step, ite_eq_left_iff, reduceCtorEq, imp_false, not_not] at hadvance
          simp only [SwarmPhase.callPermits] at hpermits
          omega
      | awaiting rest => exact absurd rfl (ha.executes rest)
  · rintro ⟨call, parents, hframes⟩
    cases hframes
    have ha := h _ _ rfl
    have hdepth : max cfg.maxParallel 1 = parents.length := ha.depth
    have hpermits : permits + parents.length + 0 = max cfg.maxParallel 1 := ha.permits
    have hzero : permits = 0 := by omega
    refine ⟨nofun, fun e => ?_⟩
    cases e with
    | advance => simp [step, hzero]
    | reply r => rfl

/-! ## A run that takes every permit -/

/-- The parents of a node at the depth, each with a single child. -/
def onlyChildren : Nat → List SwarmFrame
  | 0 => []
  | depth + 1 => ⟨depth, .awaiting []⟩ :: onlyChildren depth

/-- A node plans one child, and takes the permit of the child. -/
def delegateOnce : List Event :=
  [.advance, .advance, .reply (.delegate [{ task := "child" }]), .advance]

/-- As many nodes do so, one below the other. -/
def delegations : Nat → List Event
  | 0 => []
  | depth + 1 => delegations depth ++ delegateOnce

theorem run_delegations {depth : Nat} (hp : depth ≤ max cfg.maxParallel 1)
    (hd : depth ≤ max cfg.maxDepth 1) (hb : depth < max cfg.maxAgents 1) :
    run cfg (delegations depth)
      = ⟨⟨depth, .start⟩ :: onlyChildren depth, depth, max cfg.maxParallel 1 - depth⟩ := by
  induction depth with
  | zero => rfl
  | succ depth ih =>
    have hbegin : ¬ depth + 1 > max cfg.maxAgents 1 := by omega
    have hplan : ¬ depth ≥ max cfg.maxDepth 1 := by omega
    have hleft : max cfg.maxParallel 1 - depth ≠ 0 := by omega
    have hback : max cfg.maxParallel 1 - depth - 1 + 1 ≠ 0 := by omega
    have hend : max cfg.maxParallel 1 - depth - 1 + 1 - 1 = max cfg.maxParallel 1 - (depth + 1) := by omega
    have hscheduled : scheduled [{ task := "child" }] = [{ task := "child" }] := by rfl
    rw [delegations, run, Machine.run_append]
    rw [show Machine.run (exec cfg) (start cfg) (delegations depth) = run cfg (delegations depth) from rfl,
      ih (by omega) (by omega) (by omega)]
    simp only [delegateOnce, Machine.run_cons, Machine.run_nil, exec, step, begin, hbegin, hplan,
      if_false, hleft, Option.getD_some, afterPlanner, List.isEmpty_cons, Bool.false_eq_true, hscheduled,
      hback, hend, onlyChildren]

theorem stuck_delegations (hd : max cfg.maxParallel 1 ≤ max cfg.maxDepth 1)
    (hb : max cfg.maxParallel 1 < max cfg.maxAgents 1) :
    Stuck cfg (run cfg (delegations (max cfg.maxParallel 1) ++ [.advance])) := by
  refine (stuck_iff (inv_run cfg _)).mpr ?_
  have hbegin : ¬ max cfg.maxParallel 1 + 1 > max cfg.maxAgents 1 := by omega
  rw [run, Machine.run_append, show Machine.run (exec cfg) (start cfg) _ = run cfg _ from rfl,
    run_delegations (Nat.le_refl _) hd hb]
  simp only [Machine.run_cons, Machine.run_nil, exec, step, begin, hbegin, if_false, Option.getD_some]
  split_ifs
  · exact ⟨_, _, rfl⟩
  · exact ⟨_, _, rfl⟩

end SwarmRun

open SwarmRun in
/-- **The permits of a swarm run**: no run gets stuck, whatever its nodes delegate, exactly when there
are more permits than the greatest depth at which a node executes; and a run is stuck exactly while a
node at the depth of the permits waits for a model call. -/
theorem swarm_permits (cfg : AgentSwarmSettings) :
    ((∀ events, ¬ Stuck cfg (run cfg events)) ↔
      min (max cfg.maxDepth 1) (max cfg.maxAgents 1 - 1) < max cfg.maxParallel 1) ∧
    ∀ events, Stuck cfg (run cfg events) ↔
      ∃ call parents, (run cfg events).frames = ⟨max cfg.maxParallel 1, .acquire call⟩ :: parents := by
  refine ⟨⟨fun h => ?_, fun h events hstuck => ?_⟩, fun events => stuck_iff (inv_run cfg events)⟩
  · by_contra hle
    exact h _ (stuck_delegations (by omega) (by omega))
  · obtain ⟨call, parents, hframes⟩ := (stuck_iff (inv_run cfg events)).mp hstuck
    have ha := inv_run cfg events _ _ hframes
    have hdepth : max cfg.maxParallel 1 ≤ max cfg.maxDepth 1 := ha.depthLe
    have hbudget : max cfg.maxParallel 1 < max cfg.maxAgents 1 := ha.budget.resolve_left nofun
    omega

open SwarmRun in
/-- With a single permit, the root holds it for its first child, which waits for it. -/
theorem swarm_stuck : Stuck { maxParallel := 1 }
    (run { maxParallel := 1 } (delegateOnce ++ [.advance])) := by
  refine ⟨nofun, fun e => ?_⟩
  cases e with
  | advance => decide +kernel
  | reply r => rfl

end Xiaomaolv
