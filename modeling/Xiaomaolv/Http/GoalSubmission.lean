import Xiaomaolv.Loop.Gate
import Xiaomaolv.Loop.Signals

/-!
# Submission of a goal

* `createGoalAdmission`, `planGoalRecommended`: the two operations of the handler `post_goal`.
* `SubmissionSystem.exec`: a submission that is posted again after every attempt that was cut off, among the
  transactions of everyone else.
* `Submitted`: a request id names one goal at most; `Planned`: its goal is planned, unless the attempt that
  admitted it is still at work.
* **`goal_submission_converges`**: one goal, and a planned one where no attempt is cut off between the admission
  and the end of the planning.
-/

namespace Xiaomaolv

open Table LoopStore

/-! ## The handler -/

structure GoalHttpRequest where
  objective : String
  sourceSignalIds : List String := []
  requestId : Option String := none
  autoPlan : Bool := true

/-- The request that `post_goal` makes of its body. -/
def GoalHttpRequest.admission (request : GoalHttpRequest) : CreateGoalRequest where
  objective := request.objective
  sourceSignalIds := request.sourceSignalIds
  requestId := request.requestId
  internalOnly := false

/-- `create_goal_admission`: the goal and whether it was created, read back after the commit. -/
def createGoalAdmission (request : CreateGoalRequest) (actor id : String) (s : Store) :
    Except String (GoalRecord × Bool) × Store :=
  match createGoal request actor id s with
  | .error e => (.error e, s)
  | .ok s' =>
    let existing := s.goals.any fun g => request.requestId.isSome && g.requestId = request.requestId
    ((SignalWorld.admittedGoal request id s').map fun goal => (goal, !existing), s')

/-- The plan of `plan_goal_recommended`. -/
def recommendedPlan (objective : String) : PlanGoalRequest where
  workflow :=
    { steps :=
        [⟨"analyze-goal", "provider_analysis", .localWrite, .json [("objective", .string objective)], ⟨2, 2⟩⟩,
          ⟨"run-core-self-tests", "self_test_suite", .localWrite, .json [("suite", .string "core")], ⟨2, 2⟩⟩]
      edges := [⟨"analyze-goal", "run-core-self-tests"⟩]
      budget := ⟨2, 300, 262144⟩ }
  acceptanceCriteria := [.artifactExists "analysis_report", .selfTestSuite "core"]

/-- `plan_goal_recommended`. -/
def planGoalRecommended (enc : Encoding) (policy : ExternalWritePolicy) (goalId actor planId : String)
    (s : Store) : Except String Store := do
  ensureValidId goalId "goal id"
  let row ← context (s.goal? goalId) ("goal not found: " ++ goalId)
  let goal ← decodeGoal row
  planGoal enc goalId (recommendedPlan goal.objective) policy actor planId s

/-! ## Attempts -/

/-- Where an attempt is: its goal created and not planned yet, or the reply ready. -/
inductive SubmissionPhase
  | planning (goalId actor : String)
  | replying
deriving DecidableEq

def SubmissionPhase.isPlanning : SubmissionPhase → Bool
  | planning .. => true
  | replying => false

/-- The `request_id` under which a transaction admits a goal. -/
def Txn.requestId? : Txn → Option String
  | .createGoal request .. => request.requestId
  | _ => none

/-- The store, the attempt in flight, and whether an attempt has replied with success. -/
structure SubmissionSystem where
  store : Store := {}
  phase : Option SubmissionPhase := none
  succeeded : Bool := false

/-- What happens: a transaction of someone else; an attempt is posted and admitted, planned, replies; a crash
or a failure ends it. -/
inductive SubmissionStep
  | other (t : Txn)
  | post (objective : String) (sourceSignalIds : List String) (actor id : String)
  | plan (planId : String)
  | reply
  | interrupt

namespace SubmissionSystem

variable (enc : Encoding) (policy : ExternalWritePolicy) (rid : String)

/-- The body of the attempts: one `request_id`, and `auto_plan`. -/
def body (objective : String) (sourceSignalIds : List String) : GoalHttpRequest where
  objective
  sourceSignalIds
  requestId := some rid
  autoPlan := true

/-- `post_goal` up to its branch. -/
def post (s : SubmissionSystem) (request : GoalHttpRequest) (actor id : String) : SubmissionSystem :=
  match createGoalAdmission request.admission actor id s.store with
  | (.error _, store) => { s with store, phase := none }
  -- A deduplicated retry returns the already-admitted goal as-is.
  | (.ok (goal, created), store) =>
    { s with store, phase := some (if request.autoPlan && created then .planning goal.id actor else .replying) }

/-- The planning of the goal that the attempt has created. -/
def plan (s : SubmissionSystem) (planId : String) : SubmissionSystem :=
  match s.phase with
  | some (.planning goalId actor) =>
    match planGoalRecommended enc policy goalId actor planId s.store with
    | .error _ => { s with phase := none }
    | .ok store => { s with store, phase := some .replying }
  | _ => s

/-- An attempt is posted after the one before has ended. -/
def exec (s : SubmissionSystem) : SubmissionStep → SubmissionSystem
  | .other t => { s with store := Xiaomaolv.exec enc s.store t }
  | .post objective sourceSignalIds actor id =>
    if s.phase.isNone then s.post (body rid objective sourceSignalIds) actor id else s
  | .plan planId => s.plan enc policy planId
  | .reply => if s.phase = some .replying then { s with phase := none, succeeded := true } else s
  | .interrupt => { s with phase := none }

/-- The step does not cut an attempt off between the admission and the end of the planning: no crash and no
failure falls there, the ids that are drawn are new and well formed, and the plan of the goal is one that the
validation takes. Nobody else admits a goal under the `request_id`. -/
def Uncut (s : SubmissionSystem) : SubmissionStep → Prop
  | .other t => t.requestId? ≠ some rid
  | .post objective _ _ id => (∀ g ∈ s.store.goals, g.requestId ≠ some rid) →
      ensureValidId id "goal id" = .ok () ∧
        (recommendedPlan (trim objective)).validateWithPolicy enc policy = .ok ()
  | .plan planId => ∀ p ∈ s.store.workflows, p.id ≠ planId
  | .reply => True
  | .interrupt => s.phase.any SubmissionPhase.isPlanning = false

instance (s : SubmissionSystem) : (step : SubmissionStep) → Decidable (Uncut enc policy rid s step)
  | .other t => inferInstanceAs (Decidable (t.requestId? ≠ some rid))
  | .post objective _ _ id => inferInstanceAs (Decidable ((∀ g ∈ s.store.goals, g.requestId ≠ some rid) →
      ensureValidId id "goal id" = .ok () ∧
        (recommendedPlan (trim objective)).validateWithPolicy enc policy = .ok ()))
  | .plan planId => inferInstanceAs (Decidable (∀ p ∈ s.store.workflows, p.id ≠ planId))
  | .reply => isTrue trivial
  | .interrupt => inferInstanceAs (Decidable (s.phase.any SubmissionPhase.isPlanning = false))

end SubmissionSystem

/-! ## What a transaction leaves of a request id -/

section Store

variable {enc : Encoding} {policy : ExternalWritePolicy} {rid : String} {s s' : Store} {t : Txn}
  {request : CreateGoalRequest} {actor id : String}

/-- The row of a new goal. -/
def newGoal (request : CreateGoalRequest) (actor id : String) : GoalRow where
  id
  objective := trim request.objective
  status := .proposed
  revision := 1
  sourceSignalIds := request.sourceSignalIds
  requestId := request.requestId
  createdBy := actor
  internalOnly := request.internalOnly

theorem createGoal_admits (h : createGoal request actor id s = .ok s') : validateActor actor = .ok () ∧
    ((s' = s ∧ ∃ g ∈ s.goals, request.requestId.isSome = true ∧ g.requestId = request.requestId) ∨
      ((request.requestId.isSome = true → ∀ g ∈ s.goals, g.requestId ≠ request.requestId) ∧
        (∀ g ∈ s.goals, g.id ≠ id) ∧
        s' = { s with goals := s.goals ++ [newGoal request actor id] }.insertEvent id "goal.created" actor)) := by
  unfold createGoal at h
  simp only [bind_eq_ok] at h
  obtain ⟨_, -, _, hactor, h⟩ := h
  refine ⟨hactor, ?_⟩
  split at h
  · next hexisting =>
    simp only [Bool.and_eq_true, List.any_eq_true, decide_eq_true_eq] at hexisting
    obtain ⟨hsome, g, hg, hrid⟩ := hexisting
    exact .inl ⟨(pure_eq_ok.mp h).symm, g, hg, hsome, hrid⟩
  · next hnew =>
    simp only [bind_eq_ok, insertRow_eq_ok, pure_eq_ok] at h
    obtain ⟨_, ⟨hid, rfl⟩, rfl⟩ := h
    refine .inr ⟨fun hsome g hg hrid => hnew ?_, fun g hg => by simpa using hid g hg, rfl⟩
    rw [hsome, Bool.true_and, List.any_eq_true]
    exact ⟨g, hg, by simpa using hrid⟩

/-- The row `g'` is what became of `g`: a goal does not go back to its admission. -/
structure GoalRow.Becomes (g g' : GoalRow) : Prop where
  id : g'.id = g.id
  requestId : g'.requestId = g.requestId
  proposed : g'.status = .proposed → g' = g

theorem GoalEvent.status_ne_proposed {e : GoalEvent} {st : GoalStatus} (h : e.allowed st = true) :
    e.status ≠ .proposed := by
  cases e with
  | refresh next =>
    rintro rfl
    simp [GoalEvent.allowed] at h
  | _ =>
    intro hst
    cases hst

theorem GoalRow.Moves.becomes {g g' : GoalRow} (h : g.Moves t s' g') : g.Becomes g' := by
  rcases h with rfl | ⟨e, -, hallowed, rfl⟩
  · exact ⟨rfl, rfl, fun _ => rfl⟩
  · exact ⟨rfl, rfl, fun hst => absurd hst (GoalEvent.status_ne_proposed hallowed)⟩

theorem goal_before (hw : WellFormed s) (ht : s.apply enc t = .ok s') {g' : GoalRow} (hg' : g' ∈ s'.goals) :
    (∃ g ∈ s.goals, g.Becomes g') ∨ ∃ request actor id, t = .createGoal request actor id ∧
      g' = newGoal request actor id ∧
      (request.requestId.isSome = true → ∀ g ∈ s.goals, g.requestId ≠ request.requestId) := by
  by_cases hcreate : ∃ request actor id, t = .createGoal request actor id
  · obtain ⟨request, actor, id, rfl⟩ := hcreate
    obtain ⟨-, ⟨rfl, -⟩ | ⟨hnew, -, rfl⟩⟩ := createGoal_admits ht
    · exact .inl ⟨g', hg', rfl, rfl, fun _ => rfl⟩
    · rcases List.mem_append.mp hg' with hold | hg'
      · exact .inl ⟨g', hold, rfl, rfl, fun _ => rfl⟩
      · exact .inr ⟨request, actor, id, rfl, List.mem_singleton.mp hg', hnew⟩
  · have hids := goalIds_kept ht fun request actor id h => hcreate ⟨request, actor, id, h⟩
    rcases goal_apply hw ht hg' with ⟨g, hg, hid, hmove⟩ | ⟨hfresh, -⟩
    · exact .inl ⟨g, hg, hmove.becomes⟩
    · have hmem : g'.id ∈ s.goals.map (·.id) := hids ▸ List.mem_map_of_mem hg'
      obtain ⟨g, hg, hid⟩ := List.mem_map.mp hmem
      exact absurd hid (hfresh g hg)

/-- The invariant of the store: the request id names one goal at most. -/
structure OneGoal (rid : String) (s : Store) : Prop where
  wellFormed : WellFormed s
  gated : Gated s
  unique : ∀ g ∈ s.goals, ∀ g' ∈ s.goals, g.requestId = some rid → g'.requestId = some rid → g = g'

theorem OneGoal.filter_eq (h : OneGoal rid s) {g : GoalRow} (hg : g ∈ s.goals) (hrid : g.requestId = some rid) :
    s.goals.filter (fun g => g.requestId = some rid) = [g] := by
  have hmem : g ∈ s.goals.filter fun g => g.requestId = some rid :=
    List.mem_filter.mpr ⟨hg, decide_eq_true hrid⟩
  have hall : ∀ g' ∈ s.goals.filter (fun g => g.requestId = some rid), g' = g := by
    intro g' hg'
    obtain ⟨hm, hrid'⟩ := List.mem_filter.mp hg'
    exact h.unique g' hm g hg (of_decide_eq_true hrid') hrid
  have hnodup : (s.goals.filter fun g => g.requestId = some rid).Nodup :=
    (List.Nodup.of_map _ h.wellFormed.goalIds).filter _
  cases hrows : s.goals.filter fun g => g.requestId = some rid with
  | nil =>
    rw [hrows] at hmem
    exact absurd hmem List.not_mem_nil
  | cons x xs =>
    rw [hrows] at hall hnodup
    have hxs : xs = [] := by
      rw [List.eq_nil_iff_forall_not_mem]
      intro y hy
      have hxy : x = y := (hall x List.mem_cons_self).trans (hall y (List.mem_cons_of_mem _ hy)).symm
      exact (List.nodup_cons.mp hnodup).1 (hxy ▸ hy)
    rw [hxs, hall x List.mem_cons_self]

theorem oneGoal_apply (h : OneGoal rid s) (ht : s.apply enc t = .ok s') : OneGoal rid s' := by
  have hw := wellFormed_apply h.wellFormed ht
  refine ⟨hw, gated_apply h.wellFormed h.gated ht, fun g hg g' hg' hrid hrid' => ?_⟩
  refine eq_of_key_eq hw.goalIds hg hg' ?_
  rcases goal_before h.wellFormed ht hg with ⟨g₀, hg₀, hb⟩ | ⟨request, actor, id, rfl, rfl, hnew⟩
  · rcases goal_before h.wellFormed ht hg' with ⟨g₁, hg₁, hb'⟩ | ⟨request, actor, id, -, rfl, hnew⟩
    · rw [hb.id, hb'.id, h.unique g₀ hg₀ g₁ hg₁ (hb.requestId ▸ hrid) (hb'.requestId ▸ hrid')]
    · have hreq : request.requestId = some rid := hrid'
      exact absurd ((hb.requestId.symm.trans hrid).trans hreq.symm) (hnew (by rw [hreq]; rfl) g₀ hg₀)
  · have hreq : request.requestId = some rid := hrid
    rcases goal_before h.wellFormed ht hg' with ⟨g₁, hg₁, hb'⟩ | ⟨_, _, _, ⟨rfl, rfl, rfl⟩, rfl, -⟩
    · exact absurd ((hb'.requestId.symm.trans hrid').trans hreq.symm) (hnew (by rw [hreq]; rfl) g₁ hg₁)
    · rfl

theorem oneGoal_exec (h : OneGoal rid s) (t : Txn) : OneGoal rid (exec enc s t) :=
  exec_keeps h fun _ => oneGoal_apply h

variable (enc) in
theorem admitted_exec (hw : WellFormed s) (t : Txn) (h : ∃ g ∈ s.goals, g.requestId = some rid) :
    ∃ g ∈ (exec enc s t).goals, g.requestId = some rid := by
  rcases exec_cases enc s t with he | ht
  · rw [he]
    exact h
  · obtain ⟨g, hg, hrid⟩ := h
    obtain ⟨g', hg', -, hmove⟩ := goal_kept hw ht hg
    exact ⟨g', hg', hmove.becomes.requestId.trans hrid⟩

end Store

/-! ## The attempts -/

namespace SubmissionSystem

variable {enc : Encoding} {policy : ExternalWritePolicy} {rid : String} {s : SubmissionSystem}

/-- The invariant of every run: the request id names one goal at most, and one once an attempt has got through
its admission. -/
structure Submitted (rid : String) (s : SubmissionSystem) : Prop where
  one : OneGoal rid s.store
  admitted : s.phase.isSome = true ∨ s.succeeded = true → ∃ g ∈ s.store.goals, g.requestId = some rid

variable (enc) in
theorem createGoalAdmission_cases (request : CreateGoalRequest) (actor id : String) (store : Store) :
    (∃ e, createGoalAdmission request actor id store = (.error e, store)) ∨
    ∃ store', store.apply enc (.createGoal request actor id) = .ok store' ∧
      createGoalAdmission request actor id store =
        ((SignalWorld.admittedGoal request id store').map fun goal => (goal, !(store.goals.any fun g =>
          request.requestId.isSome && g.requestId = request.requestId)), store') := by
  unfold createGoalAdmission
  cases h : createGoal request actor id store with
  | error e => exact .inl ⟨e, rfl⟩
  | ok store' => exact .inr ⟨store', h, rfl⟩

theorem planGoalRecommended_ok {goalId actor planId : String} {store store' : Store}
    (h : planGoalRecommended enc policy goalId actor planId store = .ok store') : ∃ objective,
    store.apply enc (.planGoal goalId (recommendedPlan objective) policy actor planId) = .ok store' := by
  unfold planGoalRecommended at h
  simp only [bind_eq_ok] at h
  obtain ⟨_, -, row, -, goal, -, h⟩ := h
  exact ⟨goal.objective, h⟩

theorem submitted_post (enc : Encoding) (h : Submitted rid s) (objective : String) (sourceSignalIds : List String)
    (actor id : String) : Submitted rid (s.post (body rid objective sourceSignalIds) actor id) := by
  unfold post
  rcases createGoalAdmission_cases enc (body rid objective sourceSignalIds).admission actor id
    s.store with ⟨e, he⟩ | ⟨store', ht, he⟩
  · rw [he]
    exact ⟨h.one, fun hor => h.admitted (hor.imp_left fun hf => by cases hf)⟩
  · rw [he]
    have hone : OneGoal rid store' := oneGoal_apply h.one ht
    have hgoal : ∃ g ∈ store'.goals, g.requestId = some rid := by
      obtain ⟨-, ⟨rfl, g, hg, -, hrid⟩ | ⟨-, -, rfl⟩⟩ := createGoal_admits ht
      · exact ⟨g, hg, hrid⟩
      · exact ⟨_, List.mem_append_right _ List.mem_cons_self, rfl⟩
    cases SignalWorld.admittedGoal (body rid objective sourceSignalIds).admission id store' with
    | error e => exact ⟨hone, fun _ => hgoal⟩
    | ok goal => exact ⟨hone, fun _ => hgoal⟩

theorem submitted_exec (step : SubmissionStep) (h : Submitted rid s) :
    Submitted rid (s.exec enc policy rid step) := by
  cases step with
  | other t => exact ⟨oneGoal_exec h.one t, fun hor => admitted_exec enc h.one.wellFormed t (h.admitted hor)⟩
  | post objective sourceSignalIds actor id =>
    simp only [exec]
    split_ifs
    · exact submitted_post enc h objective sourceSignalIds actor id
    · exact h
  | plan planId =>
    simp only [exec, plan]
    split
    · next goalId actor hphase =>
      have hgoal := h.admitted (.inl (by rw [hphase]; rfl))
      cases hplan : planGoalRecommended enc policy goalId actor planId s.store with
      | error e => exact ⟨h.one, fun _ => hgoal⟩
      | ok store' =>
        obtain ⟨objective, ht⟩ := planGoalRecommended_ok hplan
        refine ⟨oneGoal_apply h.one ht, fun _ => ?_⟩
        have hkept := admitted_exec enc h.one.wellFormed
          (.planGoal goalId (recommendedPlan objective) policy actor planId) hgoal
        rwa [exec_of_ok ht] at hkept
    · exact h
  | reply =>
    simp only [exec]
    split_ifs with hphase
    · exact ⟨h.one, fun _ => h.admitted (.inl (by rw [hphase]; rfl))⟩
    · exact h
  | interrupt => exact ⟨h.one, fun hor => h.admitted (hor.imp_left fun hf => by cases hf)⟩

/-- A goal of the submission that is not planned is being planned, and nothing stands against it. -/
structure Ready (enc : Encoding) (policy : ExternalWritePolicy) (g : GoalRow) (actor : String) : Prop where
  id : ensureValidId g.id "goal id" = .ok ()
  revision : g.revision = 1
  actor : validateActor actor = .ok ()
  plan : (recommendedPlan g.objective).validateWithPolicy enc policy = .ok ()

/-- The invariant of the runs without a cut: the goal is planned, or the attempt that admitted it is about to. -/
def Planned (enc : Encoding) (policy : ExternalWritePolicy) (rid : String) (s : SubmissionSystem) : Prop :=
  ∀ g ∈ s.store.goals, g.requestId = some rid → g.status = .proposed →
    ∃ actor, s.phase = some (.planning g.id actor) ∧ s.succeeded = false ∧ Ready enc policy g actor

theorem planGoalRecommended_ready {store : Store} {g : GoalRow} {actor planId : String}
    (hw : WellFormed store) (hgated : Gated store) (hg : g ∈ store.goals) (hst : g.status = .proposed)
    (h : Ready enc policy g actor) (hplanId : ∀ p ∈ store.workflows, p.id ≠ planId) :
    ∃ store', planGoalRecommended enc policy g.id actor planId store = .ok store' := by
  have hfind : store.goal? g.id = some g := find?_of_mem hw.goalIds hg
  have hdecode : decodeGoal g = .ok ⟨g.id, g.objective, g.status, g.revision.toUInt32, g.sourceSignalIds,
      g.createdBy, g.internalOnly⟩ := by
    rw [decodeGoal, u32TryFrom, if_pos (by rw [h.revision]; decide)]
    rfl
  have hclash : ∀ p ∈ store.workflows,
      decide (p.id = planId ∨ (p.goalId = g.id ∧ p.goalRevision = g.revision + 1)) = false := by
    intro p hp
    rw [decide_eq_false_iff_not]
    rintro (hid | ⟨hgoal, hrev⟩)
    · exact hplanId p hp hid
    · obtain ⟨g', hg', hid', hle⟩ := hgated.planGoal p hp
      rw [eq_of_key_eq hw.goalIds hg' hg (hid'.trans hgoal)] at hle
      omega
  unfold planGoalRecommended planGoal
  simp only [bind_eq_ok, context_eq_ok, ensure_eq_ok, insertRow_eq_ok, pure_eq_ok]
  exact ⟨_, (), h.id, g, hfind, _, hdecode, (), h.plan, (), h.actor, (), h.id, g, hfind, (),
    by simp [hst], _, ⟨hclash, rfl⟩, rfl⟩

theorem Planned.before (h : Planned enc policy rid s) (hw : WellFormed s.store) {t : Txn} {store' : Store}
    (ht : s.store.apply enc t = .ok store')
    (hcreate : ∀ request actor id, t = .createGoal request actor id → request.requestId ≠ some rid)
    {g : GoalRow} (hg : g ∈ store'.goals) (hrid : g.requestId = some rid) (hst : g.status = .proposed) :
    g ∈ s.store.goals ∧
      ∃ actor, s.phase = some (.planning g.id actor) ∧ s.succeeded = false ∧ Ready enc policy g actor := by
  rcases goal_before hw ht hg with ⟨g₀, hg₀, hb⟩ | ⟨request, actor, id, rfl, rfl, -⟩
  · obtain rfl := hb.proposed hst
    exact ⟨hg₀, h g hg₀ hrid hst⟩
  · exact absurd hrid (hcreate request actor id rfl)

theorem read_new {request : CreateGoalRequest} {actor id : String} {store : Store}
    (hrid : request.requestId = some rid) (hno : ∀ g ∈ store.goals, g.requestId ≠ some rid) :
    ((SignalWorld.admittedGoal request id
        ({ store with goals := store.goals ++ [newGoal request actor id] }.insertEvent id "goal.created"
          actor)).map fun goal => (goal, !(store.goals.any fun g =>
            request.requestId.isSome && g.requestId = request.requestId))) =
      .ok (⟨id, trim request.objective, .proposed, 1, request.sourceSignalIds, actor, request.internalOnly⟩,
        true) := by
  have hrefused : ∀ g ∈ store.goals,
      ¬ (request.requestId.isSome && decide (g.requestId = request.requestId)) = true := by
    intro g hg h
    rw [Bool.and_eq_true, decide_eq_true_eq, hrid] at h
    exact hno g hg h.2
  have hadded : (request.requestId.isSome && decide ((newGoal request actor id).requestId = request.requestId))
      = true := by
    rw [Bool.and_eq_true, decide_eq_true_eq, hrid]
    exact ⟨rfl, hrid⟩
  have hfind : (store.goals ++ [newGoal request actor id]).find?
      (fun g => request.requestId.isSome && g.requestId = request.requestId) =
      some (newGoal request actor id) := by
    rw [List.find?_append, List.find?_eq_none.mpr hrefused, List.find?_singleton, if_pos hadded]
    rfl
  unfold SignalWorld.admittedGoal
  dsimp only [Store.insertEvent]
  rw [hfind, List.any_eq_false.mpr hrefused]
  rfl

theorem planned_post (h : Planned enc policy rid s) (hsubmitted : Submitted rid s) (hphase : s.phase = none)
    {objective : String} {sourceSignalIds : List String} {actor id : String}
    (huncut : Uncut enc policy rid s (.post objective sourceSignalIds actor id)) :
    Planned enc policy rid (s.post (body rid objective sourceSignalIds) actor id) := by
  have hplanned : ∀ g ∈ s.store.goals, g.requestId = some rid → g.status ≠ .proposed := by
    intro g hg hrid hst
    obtain ⟨actor, hbusy, -⟩ := h g hg hrid hst
    rw [hphase] at hbusy
    cases hbusy
  unfold post
  rcases createGoalAdmission_cases enc (body rid objective sourceSignalIds).admission actor id s.store with
    ⟨e, he⟩ | ⟨store', ht, he⟩
  · rw [he]
    exact fun g hg hrid hst => absurd hst (hplanned g hg hrid)
  · rw [he]
    obtain ⟨hactor, ⟨rfl, -⟩ | ⟨hnew, hid, rfl⟩⟩ := createGoal_admits ht
    · -- The attempt has found the goal.
      cases SignalWorld.admittedGoal (body rid objective sourceSignalIds).admission id s.store with
      | error e => exact fun g hg hrid hst => absurd hst (hplanned g hg hrid)
      | ok goal => exact fun g hg hrid hst => absurd hst (hplanned g hg hrid)
    · -- The attempt has created it, and reads it back.
      have hno : ∀ g ∈ s.store.goals, g.requestId ≠ some rid := hnew rfl
      rw [read_new rfl hno]
      intro g hg hrid hst
      rcases List.mem_append.mp hg with hold | hg
      · exact absurd hrid (hno g hold)
      · cases List.mem_singleton.mp hg
        obtain ⟨hvalid, hplan⟩ := huncut hno
        have hsucceeded : s.succeeded = false := by
          rw [← Bool.not_eq_true]
          intro htrue
          obtain ⟨g, hg, hrid⟩ := hsubmitted.admitted (.inr htrue)
          exact hno g hg hrid
        exact ⟨actor, rfl, hsucceeded, hvalid, rfl, hactor, hplan⟩

theorem planned_plan (h : Planned enc policy rid s) (hone : OneGoal rid s.store) {planId : String}
    (huncut : Uncut enc policy rid s (.plan planId)) : Planned enc policy rid (s.plan enc policy planId) := by
  unfold plan
  split
  · next goalId actor hphase =>
    cases hplan : planGoalRecommended enc policy goalId actor planId s.store with
    | error e =>
      intro g hg hrid hst
      obtain ⟨actor', hbusy, -, hready⟩ := h g hg hrid hst
      rw [hphase] at hbusy
      cases hbusy
      obtain ⟨store', hok⟩ := planGoalRecommended_ready hone.wellFormed hone.gated hg hst hready huncut
      rw [hplan] at hok
      cases hok
    | ok store' =>
      intro g hg hrid hst
      obtain ⟨objective, ht⟩ := planGoalRecommended_ok hplan
      obtain ⟨-, actor', hbusy, -⟩ := h.before hone.wellFormed ht nofun hg hrid hst
      rw [hphase] at hbusy
      cases hbusy
      -- The planning has moved the goal.
      obtain ⟨goal, -, -, -, -, rfl⟩ := planGoal_ok ht
      obtain ⟨g₀, -, hupdate⟩ := mem_updateWhere.mp hg
      split_ifs at hupdate with hid
      · rw [← hupdate] at hst
        cases hst
      · rw [hupdate] at hid
        exact absurd (decide_eq_true rfl) hid
  · exact h

theorem planned_exec (step : SubmissionStep) (huncut : Uncut enc policy rid s step)
    (h : Submitted rid s ∧ Planned enc policy rid s) : Planned enc policy rid (s.exec enc policy rid step) := by
  obtain ⟨hsubmitted, hplanned⟩ := h
  have hone := hsubmitted.one
  cases step with
  | other t =>
    rcases exec_cases enc s.store t with he | ht
    · simp only [exec]
      rw [he]
      exact hplanned
    · intro g hg hrid hst
      refine (hplanned.before hone.wellFormed ht ?_ hg hrid hst).2
      rintro request actor id rfl
      exact huncut
  | post objective sourceSignalIds actor id =>
    simp only [exec]
    split_ifs with hphase
    · exact planned_post hplanned hsubmitted (Option.isNone_iff_eq_none.mp hphase) huncut
    · exact hplanned
  | plan planId => exact planned_plan hplanned hone huncut
  | reply =>
    simp only [exec]
    split_ifs with hphase
    · intro g hg hrid hst
      obtain ⟨actor, hbusy, -⟩ := hplanned g hg hrid hst
      rw [hphase] at hbusy
      cases hbusy
    · exact hplanned
  | interrupt =>
    intro g hg hrid hst
    obtain ⟨actor, hbusy, -⟩ := hplanned g hg hrid hst
    have hidle : s.phase.any SubmissionPhase.isPlanning = false := huncut
    rw [hbusy] at hidle
    cases hidle

theorem submitted_new : Submitted rid {} where
  one := ⟨wellFormed_empty, gated_empty, nofun⟩
  admitted h := by simp at h

end SubmissionSystem

/-- **Convergence of a submission**: once an attempt has replied with success there is one goal under the
`request_id`, whatever happened before and since; and it is planned if no attempt was cut off between its
admission and the end of its planning. -/
theorem goal_submission_converges (enc : Encoding) (policy : ExternalWritePolicy) (rid : String)
    (steps : List SubmissionStep) :
    let s := Machine.run (SubmissionSystem.exec enc policy rid) {} steps
    s.succeeded = true → ∃ g, s.store.goals.filter (fun g => g.requestId = some rid) = [g] ∧
      (Machine.Along (SubmissionSystem.exec enc policy rid) (SubmissionSystem.Uncut enc policy rid) {} steps →
        g.status ≠ .proposed) := by
  intro s hsucceeded
  have hsubmitted : s.Submitted rid :=
    Machine.run_invariant' (fun _ step h => SubmissionSystem.submitted_exec step h)
      SubmissionSystem.submitted_new
  obtain ⟨g, hg, hrid⟩ := hsubmitted.admitted (.inr hsucceeded)
  refine ⟨g, hsubmitted.one.filter_eq hg hrid, fun huncut hst => ?_⟩
  have hplanned : s.Submitted rid ∧ s.Planned enc policy rid :=
    Machine.run_invariant (I := fun s => s.Submitted rid ∧ s.Planned enc policy rid) (fun _ step hstep h =>
        ⟨SubmissionSystem.submitted_exec step h.1, SubmissionSystem.planned_exec step hstep h⟩)
      huncut ⟨SubmissionSystem.submitted_new, nofun⟩
  obtain ⟨actor, -, hnot, -⟩ := hplanned.2 g hg hrid hst
  rw [hsucceeded] at hnot
  cases hnot

namespace Sample

/-- The retries of a submission. -/
def submit (id : String) : SubmissionStep := .post "ship" [] "operator" id

/-- The attempt that is planned crashes before its reply, and the retry replies. -/
def retriedSubmission : SubmissionSystem :=
  Machine.run (SubmissionSystem.exec encoding {} "r1") {}
    [submit "goal", .plan "plan", .interrupt, submit "other", .reply]

/-- The first attempt crashes between its admission and its planning, and the retry replies. -/
def cutSubmission : SubmissionSystem :=
  Machine.run (SubmissionSystem.exec encoding {} "r1") {} [submit "goal", .interrupt, submit "other", .reply]

end Sample

theorem goal_submission_converges_retried :
    ∃ g, Sample.retriedSubmission.store.goals.filter (fun g => g.requestId = some "r1") = [g] ∧
      g.status ≠ .proposed := by
  obtain ⟨g, hg, hst⟩ := goal_submission_converges Sample.encoding {} "r1"
    [Sample.submit "goal", .plan "plan", .interrupt, Sample.submit "other", .reply] (by decide +kernel)
  exact ⟨g, hg, hst (by decide +kernel)⟩

/-- A retry succeeds with a goal that is not planned. -/
theorem goal_submission_cut :
    Sample.cutSubmission.succeeded = true ∧
      Sample.cutSubmission.store.goals.map (fun g => (g.requestId, g.status)) = [(some "r1", .proposed)] := by
  decide +kernel

end Xiaomaolv
