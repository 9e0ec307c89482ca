import Xiaomaolv.Loop.Gate
import Xiaomaolv.Loop.Refine
import Xiaomaolv.Loop.Signals

/-!
# The core self-test suite

The suite counts rows that break a reference between the tables of the loop engine.

* `coreSuite`, `countCase`, `runSelfTests`: the queries with what they expect, and a run of them.
* `Life.keepsOutcomes`, `bound_exec`: what the queries rest on, kept by every transaction.
* `Sane`: what all of them rest on; **`sane_run`**: it holds in every interleaving.
* **`core_suite_passes`**: no query of the suite counts a violation, in any reachable state.
-/

namespace Xiaomaolv

open Table Interleave LoopStore

/-! ## The queries -/

/-- The tables that the schema creates. -/
def schemaTables : List String :=
  ["harness_schema_migrations", "harness_goals", "harness_workflows", "harness_goal_approvals",
    "harness_goal_budget_usage", "harness_work_items", "harness_work_item_dependencies", "harness_attempts",
    "harness_checkpoints", "harness_events", "harness_manual_verifications", "harness_signals",
    "harness_signal_events", "harness_self_test_runs", "harness_self_test_case_results",
    "harness_trajectory_frames", "harness_replay_runs", "harness_replay_case_results", "harness_artifacts",
    "harness_artifact_events"]

def schemaMigrations : List (Nat × String) :=
  [(1, "loop_engine_initial_schema"), (2, "replay_safe_and_request_id"), (3, "work_item_phase_progress"),
    (4, "internal_only_goals")]

def requiredTables : List String :=
  ["harness_goals", "harness_workflows", "harness_goal_approvals", "harness_goal_budget_usage",
    "harness_work_items", "harness_work_item_dependencies", "harness_attempts", "harness_checkpoints",
    "harness_events", "harness_manual_verifications", "harness_signals", "harness_signal_events",
    "harness_self_test_runs", "harness_self_test_case_results", "harness_trajectory_frames",
    "harness_replay_runs", "harness_replay_case_results", "harness_artifacts", "harness_artifact_events",
    "harness_schema_migrations"]

namespace SignalWorld

variable (s : SignalWorld)

/-- The work items without a goal or without a workflow. -/
def workItemReferences : Nat :=
  (leftJoin (fun x p => p.id = x.1.workflowId)
      (leftJoin (fun w g => g.id = w.goalId) s.store.workItems s.store.goals) s.store.workflows).countP
    fun x => x.1.2.isNone || x.2.isNone

/-- The committed and reconciled checkpoints without an outcome. -/
def checkpointOutcomes : Nat :=
  s.store.checkpoints.countP fun c => c.phase ∈ [.committed, .reconciled] && c.outcome.isNone

/-- The events without a signal. -/
def signalEventReferences : Nat :=
  (leftJoin (fun e row => row.id = e.signalId) s.signalEvents s.signals).countP fun x => x.2.isNone

/-- The approvals without a workflow of their revision, or with a workflow of another hash. -/
def approvalBindings : Nat :=
  (leftJoin (fun a p => p.goalId = a.goalId && p.goalRevision = a.goalRevision) s.store.approvals
      s.store.workflows).countP
    fun x => x.2.all fun p => p.planHash ≠ x.1.planHash

end SignalWorld

/-- A count, what it has to be, and what is reported then. -/
structure SelfTestCase where
  name : String
  count : SignalWorld → Nat
  expected : Nat
  successDetails : String

structure SelfTestCaseResult where
  name : String
  passed : Bool
  details : String
  deriving DecidableEq, Repr

/-- `count_case`. -/
def countCase (case : SelfTestCase) (s : SignalWorld) : SelfTestCaseResult :=
  if case.count s = case.expected then ⟨case.name, true, case.successDetails⟩
  else
    ⟨case.name, false,
      "expected count " ++ toString case.expected ++ ", observed " ++ toString (case.count s)⟩

/-- The cases of `run_core_suite`. -/
def coreSuite : List SelfTestCase :=
  [⟨"required_schema", fun _ => schemaTables.countP (· ∈ requiredTables), 20,
      "all durable loop tables are present"⟩,
    ⟨"schema_version", fun _ => schemaMigrations.countP (· = (1, "loop_engine_initial_schema")), 1,
      "loop engine schema version 1 is applied"⟩,
    ⟨"work_item_references", SignalWorld.workItemReferences, 0,
      "all work items reference a goal and immutable workflow"⟩,
    ⟨"checkpoint_outcomes", SignalWorld.checkpointOutcomes, 0,
      "committed checkpoints always retain their durable outcome"⟩,
    ⟨"signal_event_references", SignalWorld.signalEventReferences, 0,
      "append-only signal events always reference immutable signals"⟩,
    ⟨"approval_bindings", SignalWorld.approvalBindings, 0,
      "every approval still resolves to the reviewed workflow hash"⟩]

structure SelfTestRun where
  suite : String
  passed : Bool
  cases : List SelfTestCaseResult
  deriving DecidableEq, Repr

/-- `run_self_tests`: each query is a statement of its own, and the `i`-th one sees `state i`. -/
def runSelfTests (suite : String) (state : Nat → SignalWorld) : Except String SelfTestRun := do
  ensure (suite = "core") ("unknown self-test suite: " ++ suite)
  let cases := coreSuite.mapIdx fun i case => countCase case (state i)
  pure ⟨suite, cases.all (·.passed), cases⟩

/-! ## What the tables keep -/

/-- A committed or reconciled checkpoint has its outcome. -/
def Life.KeepsOutcomes (l : Life) : Prop :=
  ∀ c ∈ l.checkpoints, c.phase = .committed ∨ c.phase = .reconciled → c.outcome ≠ none

theorem keepsOutcomes_update {p : CheckpointRow → Bool} {f : CheckpointRow → CheckpointRow}
    {checkpoints : List CheckpointRow}
    (h : ∀ c ∈ checkpoints, c.phase = .committed ∨ c.phase = .reconciled → c.outcome ≠ none)
    (hf : ∀ c ∈ checkpoints, p c = true → (f c).phase = .committed ∨ (f c).phase = .reconciled →
      (f c).outcome ≠ none) :
    ∀ c ∈ updateWhere p f checkpoints, c.phase = .committed ∨ c.phase = .reconciled → c.outcome ≠ none := by
  intro c hc hphase
  obtain ⟨c₀, hc₀, rfl⟩ := mem_updateWhere.mp hc
  by_cases hp : p c₀ = true
  · rw [if_pos hp] at hphase ⊢
    exact hf c₀ hc₀ hp hphase
  · rw [if_neg hp] at hphase ⊢
    exact h c₀ hc₀ hphase

theorem keepsOutcomes_void {p : CheckpointRow → Bool} {checkpoints : List CheckpointRow}
    (h : ∀ c ∈ checkpoints, c.phase = .committed ∨ c.phase = .reconciled → c.outcome ≠ none) :
    ∀ c ∈ updateWhere p (fun c => { c with phase := .voided }) checkpoints,
      c.phase = .committed ∨ c.phase = .reconciled → c.outcome ≠ none :=
  keepsOutcomes_update h fun _ _ _ hphase => by rcases hphase with hphase | hphase <;> cases hphase

/-- **Every event keeps the outcomes.** -/
theorem Life.keepsOutcomes_step {l l' : Life} {e : Life.Event} (hl : l.KeepsOutcomes) (h : l.Step e l') :
    l'.KeepsOutcomes := by
  cases h with
  | unlock | block | requeue | claim | renew | progress | close => exact hl
  | prepare a c hholds hattempt hfresh hprepared =>
    intro x hx hphase
    rcases List.mem_append.mp hx with hx | hx
    · exact hl x hx hphase
    · rw [List.mem_singleton.mp hx, hprepared] at hphase
      rcases hphase with hphase | hphase <;> cases hphase
  | commit a c outcome => exact keepsOutcomes_update hl fun _ _ _ _ => Option.some_ne_none _
  | reconcile c hc hcommitted =>
    refine keepsOutcomes_update hl fun x hx hp _ => ?_
    exact hl x hx (.inl (of_decide_eq_true hp).2)
  | release a r =>
    unfold Life.KeepsOutcomes Life.release
    split_ifs
    · exact keepsOutcomes_void hl
    · exact hl
  | lapse now =>
    unfold Life.KeepsOutcomes Life.lapse
    split_ifs
    · exact hl
    · exact keepsOutcomes_void hl
  | verdict a c resolution reason =>
    refine keepsOutcomes_update hl fun x _ _ hphase => ?_
    cases resolution with
    | confirmed => exact Option.some_ne_none _
    | retry | abandoned => rcases hphase with hphase | hphase <;> cases hphase

/-- Every approval resolves to a plan of its hash. -/
def Bound (s : Store) : Prop :=
  ∀ a ∈ s.approvals, ∃ p ∈ s.workflows, p.goalId = a.goalId ∧ p.goalRevision = a.goalRevision ∧
    p.planHash = a.planHash

theorem bound_exec {enc : Encoding} {s : Store} (t : Txn) (h : Bound s) : Bound (exec enc s t) := by
  have hplans := plans_exec enc s t
  have hold : ∀ a ∈ s.approvals, ∃ p ∈ (exec enc s t).workflows, p.goalId = a.goalId ∧
      p.goalRevision = a.goalRevision ∧ p.planHash = a.planHash := by
    intro a ha
    obtain ⟨p, hp, hbound⟩ := h a ha
    exact ⟨p, hplans hp, hbound⟩
  intro a ha
  rcases exec_cases enc s t with he | ht
  · rw [he] at ha
    exact hold a ha
  by_cases hplan : t.isPlanning = false
  · rw [(plans_apply ht hplan).2] at ha
    exact hold a ha
  generalize exec enc s t = s' at ht ha hold
  cases t with
  | planGoal goalId request externalWrite actor planId =>
    obtain ⟨goal, -, -, -, -, rfl⟩ := planGoal_ok ht
    exact hold a ha
  | approveGoal goalId request externalWrite internalPolicy actor approvalId workId =>
    obtain ⟨goal, plan, workItems, new, dependencies, -, -, -, hfind, -, -, -, -, -, rfl⟩ := approveGoal_ok ht
    rcases List.mem_append.mp ha with ha | ha
    · exact hold a ha
    · cases List.mem_singleton.mp ha
      obtain ⟨hp, hgoal, hrevision⟩ := plan?_eq_some hfind
      exact ⟨plan, hp, hgoal, hrevision, rfl⟩
  | _ => exact absurd rfl hplan

/-! ## Reachable states -/

/-- What the queries rest on. -/
structure Sane (s : SignalWorld) : Prop where
  wellFormed : WellFormed s.store
  gated : Gated s.store
  outcomes : s.store.Lives Life.KeepsOutcomes
  bound : Bound s.store
  referenced : Referenced s

section Runs

variable {enc : Encoding} {senc : SignalEncoding} {s s' : SignalWorld}

theorem sane_empty : Sane .empty where
  wellFormed := wellFormed_empty
  gated := gated_empty
  outcomes := lives_empty _
  bound := by simp [Bound, SignalWorld.empty, Store.empty]
  referenced := by simp [Referenced, SignalWorld.empty]

theorem sane_perform {env : SignalEnv} {i : Nat} {a : SignalAction} {answer : Except String a.Resp}
    (hs : Sane s) (h : s.perform enc senc env i a = some (answer, s')) : Sane s' := by
  have hreferenced : Referenced s' := (perform_writes h).referenced hs.referenced
  have hlives : ∀ t, (exec enc s.store t).Lives Life.KeepsOutcomes := fun t =>
    lives_exec (p := fun _ => True) (fun l hl => by simp [Life.KeepsOutcomes, hl.checkpoints])
      (fun l e l' _ hl hstep => Life.keepsOutcomes_step hl hstep) hs.wellFormed (fun _ _ _ _ _ => trivial)
      hs.outcomes
  rcases perform_store' h with hstore | ⟨t, -, hstore⟩
  · exact ⟨hstore ▸ hs.wellFormed, hstore ▸ hs.gated, hstore ▸ hs.outcomes, hstore ▸ hs.bound, hreferenced⟩
  · constructor
    · rw [hstore]
      exact wellFormed_exec t hs.wellFormed
    · rw [hstore]
      exact gated_exec hs.wellFormed t hs.gated
    · rw [hstore]
      exact hlives t
    · rw [hstore]
      exact bound_exec t hs.bound
    · exact hreferenced

/-- **Every interleaving of the operations keeps it.** -/
theorem sane_run (enc : Encoding) (senc : SignalEncoding) (steps : List SignalStep) :
    Sane (Machine.run (Interleave.step (signalSystem enc senc)) (.initial .empty) steps).world := by
  refine Machine.run_invariant' (I := fun pool : SignalPool => Sane pool.world) (fun pool label h => ?_) sane_empty
  cases label with
  | start op => exact h
  | drop i => exact h
  | restart x => exact h
  | advance i env =>
    rcases step_advance_cases (signalSystem enc senc) pool i env with hsame | ⟨t, a, k, answer, world, ht, hp, hanswer⟩
    · rw [hsame]
      exact h
    · rw [step_advance (signalSystem enc senc) ht hp hanswer]
      exact sane_perform (i := i) h hanswer

/-! ## The counts -/

theorem Sane.workItemReferences (h : Sane s) : s.workItemReferences = 0 := by
  rw [SignalWorld.workItemReferences, List.countP_eq_zero]
  rintro ⟨⟨w, g⟩, p⟩ hx
  obtain ⟨hwg, hp⟩ := mem_leftJoin.mp hx
  obtain ⟨hw, hg⟩ := mem_leftJoin.mp hwg
  obtain ⟨goal, hgoal, hgid⟩ := h.wellFormed.itemGoal w hw
  obtain ⟨plan, hplan, hpid, -⟩ := h.gated.items w hw
  rcases hg with ⟨-, hnone⟩ | ⟨goal', -, -, rfl⟩
  · exact absurd hgid (of_decide_eq_false (hnone goal hgoal))
  rcases hp with ⟨-, hnone⟩ | ⟨plan', -, -, rfl⟩
  · exact absurd hpid (of_decide_eq_false (hnone plan hplan))
  simp

theorem Sane.checkpointOutcomes (h : Sane s) : s.checkpointOutcomes = 0 := by
  rw [SignalWorld.checkpointOutcomes, List.countP_eq_zero]
  intro c hc hbad
  obtain ⟨a, ha, haid, hitem, -⟩ := h.wellFormed.checkpointAttempt c hc
  obtain ⟨w, hw, hwid, -⟩ := h.wellFormed.attemptItem a ha
  have hlife := h.wellFormed.life? hw
  have hmem : c ∈ s.store.checkpoints.filter fun c => c.workItemId = w.id :=
    List.mem_filter.mpr ⟨hc, decide_eq_true (hitem.symm.trans hwid.symm)⟩
  have hphase : c.phase = .committed ∨ c.phase = .reconciled := by simp_all
  exact h.outcomes _ _ hlife c hmem hphase (by simp_all)

theorem Sane.signalEventReferences (h : Sane s) : s.signalEventReferences = 0 := by
  rw [SignalWorld.signalEventReferences, List.countP_eq_zero]
  rintro ⟨e, row⟩ hx
  obtain ⟨he, hrow⟩ := mem_leftJoin.mp hx
  obtain ⟨row', hrow', hid⟩ := h.referenced e he
  rcases hrow with ⟨-, hnone⟩ | ⟨x, -, -, rfl⟩
  · exact absurd hid (of_decide_eq_false (hnone row' hrow'))
  · simp

theorem Sane.approvalBindings (h : Sane s) : s.approvalBindings = 0 := by
  rw [SignalWorld.approvalBindings, List.countP_eq_zero]
  rintro ⟨a, p⟩ hx
  obtain ⟨ha, hp⟩ := mem_leftJoin.mp hx
  obtain ⟨plan, hplan, hgoal, hrevision, hhash⟩ := h.bound a ha
  rcases hp with ⟨-, hnone⟩ | ⟨p', hp', hon, rfl⟩
  · exact absurd (hnone plan hplan) (by simp [hgoal, hrevision])
  · simp only [Bool.and_eq_true, decide_eq_true_eq] at hon
    have heq : p' = plan := h.gated.plan_eq hp' hplan (hon.1.trans hgoal.symm) (hon.2.trans hrevision.symm)
    simp [heq, hhash]

theorem Sane.countCase (h : Sane s) {case : SelfTestCase} (hcase : case ∈ coreSuite) :
    (countCase case s).passed = true := by
  have hcount : case.count s = case.expected := by
    simp only [coreSuite, List.mem_cons, List.not_mem_nil, or_false] at hcase
    have hschema : schemaTables.countP (· ∈ requiredTables) = 20 := by decide +kernel
    have hversion : schemaMigrations.countP (· = (1, "loop_engine_initial_schema")) = 1 := by decide +kernel
    rcases hcase with rfl | rfl | rfl | rfl | rfl | rfl
    · exact hschema
    · exact hversion
    · exact h.workItemReferences
    · exact h.checkpointOutcomes
    · exact h.signalEventReferences
    · exact h.approvalBindings
  rw [Xiaomaolv.countCase, if_pos hcount]

theorem runSelfTests_passed {state : Nat → SignalWorld} (h : ∀ i, Sane (state i)) {suite : String}
    {run : SelfTestRun} (hrun : runSelfTests suite state = .ok run) : run.passed = true := by
  simp only [runSelfTests, ensure_bind_eq_ok, pure_eq_ok] at hrun
  obtain ⟨-, rfl⟩ := hrun
  simp only [List.all_eq_true, List.mem_mapIdx]
  rintro result ⟨i, hi, rfl⟩
  exact (h i).countCase (List.getElem_mem hi)

/-- **The core suite can only pass**: in every interleaving of the operations on signals and of the
transactions of the loop store, none of its queries counts a violation. -/
theorem core_suite_passes (enc : Encoding) (senc : SignalEncoding) (steps : List SignalStep) :
    let s := (Machine.run (Interleave.step (signalSystem enc senc)) (.initial .empty) steps).world
    s.workItemReferences = 0 ∧ s.checkpointOutcomes = 0 ∧ s.signalEventReferences = 0 ∧
      s.approvalBindings = 0 ∧ ∀ case ∈ coreSuite, (countCase case s).passed = true := by
  have h := sane_run enc senc steps
  exact ⟨h.workItemReferences, h.checkpointOutcomes, h.signalEventReferences, h.approvalBindings,
    fun _ hcase => h.countCase hcase⟩

end Runs

end Xiaomaolv
