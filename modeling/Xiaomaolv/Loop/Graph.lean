import Xiaomaolv.Lib.Toposort
import Xiaomaolv.Loop.Domain

/-!
# The graph of a workflow

* `WorkflowSpec.WithinLimits`, `WorkflowSpec.WellGraphed`: what the validator asks of the sizes and budgets,
  and of the graph; **`validateWithPolicy_iff`**: it accepts the workflows that have both.
* `visited_eq`: the walk of the validator is Kahn's walk.
* `QueueLoop`: the walk as the source runs it, with the steps that could panic.
* **`rounds_start`**: the loop never panics, visits no step twice and ends with the count of the validator.
* **`graph_validation`**: the graph part accepts exactly the well-formed acyclic graphs.
* **`validate_rank`**: an accepted workflow ranks its steps along its edges.
-/

namespace Xiaomaolv

section Workflows

variable {enc : Encoding} {externalWrite : ExternalWritePolicy} {spec : WorkflowSpec}

/-! ## The walk of the validator -/

/-- The edges as a table. -/
def edgeTable (edges : List WorkflowEdge) : List (String × String) :=
  edges.map fun edge => (edge.fromId, edge.toId)

theorem targets_edgeTable (edges : List WorkflowEdge) (id : String) :
    Toposort.targets (edgeTable edges) id = (edges.filter fun edge => edge.fromId = id).map (·.toId) := by
  rw [Toposort.targets, edgeTable, List.filter_map, List.map_map]
  rfl

theorem lowerTargets_eq (targets : List String) (degrees : List (String × Nat)) :
    lowerTargets targets degrees = Toposort.lower targets degrees := by
  induction targets generalizing degrees with
  | nil => rfl
  | cons target targets ih =>
    rw [lowerTargets, Toposort.lower]
    simp only [ih]

theorem kahn_eq (edges : List WorkflowEdge) (fuel : Nat) (queue : List String)
    (degrees : List (String × Nat)) (visited : Nat) :
    kahn edges fuel queue degrees visited
      = visited + (Toposort.walk (edgeTable edges) fuel queue degrees).length := by
  induction fuel generalizing queue degrees visited with
  | zero => simp [kahn, Toposort.walk]
  | succ fuel ih =>
    cases queue with
    | nil => simp [kahn, Toposort.walk]
    | cons id queue =>
      rw [kahn, Toposort.walk, targets_edgeTable]
      simp only [lowerTargets_eq, ih, List.length_cons]
      omega

theorem openEdges_edgeTable (edges : List WorkflowEdge) (id : String) :
    Toposort.openEdges (edgeTable edges) [] id = (edges.filter fun edge => edge.toId = id).length := by
  rw [Toposort.openEdges, edgeTable, List.countP_map, List.countP_eq_length_filter]
  congr 2
  funext edge
  simp

theorem visited_eq (spec : WorkflowSpec) :
    spec.visited = (Toposort.sort (edgeTable spec.edges) (spec.steps.map (·.id))).length := by
  have hdegrees : spec.indegree = Toposort.table (spec.steps.map (·.id))
      (Toposort.openEdges (edgeTable spec.edges) []) := by
    rw [WorkflowSpec.indegree, Toposort.table, List.map_map]
    refine List.map_congr_left fun step _ => ?_
    simp only [Function.comp_apply, openEdges_edgeTable]
  have hqueue : (spec.indegree.filter fun d => d.2 = 0).map (·.1)
      = (spec.steps.map (·.id)).filter fun id => Toposort.openEdges (edgeTable spec.edges) [] id = 0 := by
    rw [hdegrees, Toposort.table, List.filter_map, List.map_map]
    exact List.map_id _
  rw [WorkflowSpec.visited, kahn_eq, hqueue, hdegrees, Toposort.sort, List.length_map]
  omega

/-! ## What the validator asks -/

/-- The checks on one step, apart from its id being new. -/
def WorkflowStep.WithinLimits (enc : Encoding) (externalWrite : ExternalWritePolicy) (step : WorkflowStep) :
    Prop :=
  (!isBlank step.id && byteLen step.id ≤ 96) = true ∧ step.handler ∈ allowedWorkflowHandlers ∧
    externalWrite.admits step = true ∧ 1 ≤ step.retry.maxAttempts ∧ step.retry.maxAttempts ≤ 10 ∧
    step.retry.backoffSecs ≤ 3600 ∧ enc.inputLen step.input ≤ 8192

/-- The sizes and budgets that `validate_with_policy` checks. -/
structure WorkflowSpec.WithinLimits (enc : Encoding) (externalWrite : ExternalWritePolicy)
    (spec : WorkflowSpec) : Prop where
  steps : spec.steps ≠ [] ∧ spec.steps.length ≤ 32
  edges : spec.edges.length ≤ 64
  providerCalls : spec.budget.maxProviderCalls ≤ 64
  deadline : 1 ≤ spec.budget.deadlineSecs ∧ spec.budget.deadlineSecs ≤ 86400
  responseBytes : 1 ≤ spec.budget.maxResponseBytes ∧ spec.budget.maxResponseBytes ≤ 10485760
  each : ∀ step ∈ spec.steps, step.WithinLimits enc externalWrite
  encoded : enc.workflowLen spec ≤ 32768

/-- The graph that a workflow should have. -/
structure WorkflowSpec.WellGraphed (spec : WorkflowSpec) : Prop where
  ids : (spec.steps.map (·.id)).Nodup
  sources : ∀ edge ∈ spec.edges, edge.fromId ∈ spec.steps.map (·.id)
  ends : ∀ edge ∈ spec.edges, edge.toId ∈ spec.steps.map (·.id)
  noSelf : ∀ edge ∈ spec.edges, edge.fromId ≠ edge.toId
  noDuplicate : spec.edges.Nodup
  acyclic : Toposort.Acyclic (edgeTable spec.edges)

theorem validate_step_iff {seen : List String} {step : WorkflowStep} {u : Unit} :
    step.validate enc externalWrite seen = .ok u ↔
      step.WithinLimits enc externalWrite ∧ step.id ∉ seen := by
  simp only [WorkflowStep.validate, bind_eq_ok, ensure_eq_ok, WorkflowStep.WithinLimits]
  constructor
  · rintro ⟨_, hid, _, hfresh, _, hhandler, _, hadmits, _, hretry, _, hbackoff, hinput⟩
    simp only [Bool.and_eq_true, decide_eq_true_eq] at hretry
    refine ⟨⟨hid, by simpa using hhandler, hadmits, hretry.1, hretry.2, by simpa using hbackoff,
      by simpa using hinput⟩, by simpa using hfresh⟩
  · rintro ⟨⟨hid, hhandler, hadmits, hlow, hhigh, hbackoff, hinput⟩, hfresh⟩
    exact ⟨(), hid, (), by simpa using hfresh, (), by simpa using hhandler, (), hadmits, (),
      by simpa using ⟨hlow, hhigh⟩, (), by simpa using hbackoff, by simpa using hinput⟩

theorem validateSteps_iff {seen : List String} {steps : List WorkflowStep} {u : Unit} :
    validateSteps enc externalWrite seen steps = .ok u ↔
      (∀ step ∈ steps, step.WithinLimits enc externalWrite) ∧ (steps.map (·.id)).Nodup ∧
        ∀ step ∈ steps, step.id ∉ seen := by
  induction steps generalizing seen with
  | nil => simp [validateSteps]
  | cons x steps ih =>
    simp only [validateSteps, bind_eq_ok, validate_step_iff, ih, List.map_cons, List.nodup_cons,
      List.forall_mem_cons]
    constructor
    · rintro ⟨_, ⟨hx, hfresh⟩, hsteps, hnodup, hseen⟩
      refine ⟨⟨hx, hsteps⟩, ⟨fun hmem => ?_, hnodup⟩, hfresh, fun step hs hmem => ?_⟩
      · obtain ⟨step, hs, he⟩ := List.mem_map.mp hmem
        exact hseen step hs (he ▸ List.mem_cons_self)
      · exact hseen step hs (List.mem_cons_of_mem _ hmem)
    · rintro ⟨⟨hx, hsteps⟩, ⟨hnot, hnodup⟩, hfresh, hseen⟩
      refine ⟨(), ⟨hx, hfresh⟩, hsteps, hnodup, fun step hs hmem => ?_⟩
      rcases List.mem_cons.mp hmem with he | hmem
      · exact hnot (he ▸ List.mem_map_of_mem hs)
      · exact hseen step hs hmem

theorem validateEdges_iff {ids : List String} {seen edges : List WorkflowEdge} {u : Unit} :
    validateEdges ids seen edges = .ok u ↔
      (∀ edge ∈ edges, edge.fromId ∈ ids) ∧ (∀ edge ∈ edges, edge.toId ∈ ids) ∧
        (∀ edge ∈ edges, edge.fromId ≠ edge.toId) ∧ edges.Nodup ∧ ∀ edge ∈ edges, edge ∉ seen := by
  induction edges generalizing seen with
  | nil => simp [validateEdges]
  | cons x edges ih =>
    simp only [validateEdges, bind_eq_ok, ensure_eq_ok, ih, List.nodup_cons, List.forall_mem_cons,
      List.contains_iff_mem, bne_iff_ne, Bool.not_eq_true', ← Bool.not_eq_true]
    constructor
    · rintro ⟨_, hsource, _, hend, _, hself, _, hnew, hsources, hends, hselfs, hnodup, hseen⟩
      exact ⟨⟨hsource, hsources⟩, ⟨hend, hends⟩, ⟨hself, hselfs⟩,
        ⟨fun hmem => hseen x hmem List.mem_cons_self, hnodup⟩, hnew,
        fun edge he hmem => hseen edge he (List.mem_cons_of_mem _ hmem)⟩
    · rintro ⟨⟨hsource, hsources⟩, ⟨hend, hends⟩, ⟨hself, hselfs⟩, ⟨hnot, hnodup⟩, hnew, hseen⟩
      refine ⟨(), hsource, (), hend, (), hself, (), hnew, hsources, hends, hselfs, hnodup,
        fun edge he hmem => ?_⟩
      rcases List.mem_cons.mp hmem with rfl | hmem
      · exact hnot he
      · exact hseen edge he hmem

theorem visited_iff (hids : (spec.steps.map (·.id)).Nodup)
    (hsources : ∀ edge ∈ spec.edges, edge.fromId ∈ spec.steps.map (·.id))
    (hends : ∀ edge ∈ spec.edges, edge.toId ∈ spec.steps.map (·.id)) :
    spec.visited = spec.steps.length ↔ Toposort.Acyclic (edgeTable spec.edges) := by
  have hlength : (spec.steps.map (·.id)).length = spec.steps.length := List.length_map _
  rw [visited_eq, ← hlength]
  constructor
  · intro h
    obtain ⟨rank, hrank⟩ := Toposort.exists_rank hids h
    refine Toposort.acyclic_of_rank fun e he => hrank e he ?_
    obtain ⟨edge, hedge, rfl⟩ := List.mem_map.mp he
    exact hends edge hedge
  · refine Toposort.sort_of_acyclic hids fun e he => ?_
    obtain ⟨edge, hedge, rfl⟩ := List.mem_map.mp he
    exact hsources edge hedge

/-- **The validator accepts the workflows within the limits that are well graphed.** -/
theorem validateWithPolicy_iff : spec.validateWithPolicy enc externalWrite = .ok () ↔
    spec.WithinLimits enc externalWrite ∧ spec.WellGraphed := by
  simp only [WorkflowSpec.validateWithPolicy, bind_eq_ok, ensure_eq_ok, validateSteps_iff, validateEdges_iff,
    Bool.and_eq_true, decide_eq_true_eq, beq_iff_eq]
  constructor
  · rintro ⟨_, ⟨hne, hsteps⟩, _, hedges, _, hcalls, _, hdeadline, _, hbytes, _, ⟨heach, hids, -⟩, _,
      ⟨hsources, hends, hself, hnodup, -⟩, _, hvisited, hencoded⟩
    exact ⟨⟨⟨by simpa using hne, hsteps⟩, hedges, hcalls, hdeadline, hbytes, heach, hencoded⟩,
      ⟨hids, hsources, hends, hself, hnodup, (visited_iff hids hsources hends).mp hvisited⟩⟩
  · rintro ⟨hlimits, hgraph⟩
    exact ⟨(), ⟨by simpa using hlimits.steps.1, hlimits.steps.2⟩, (), hlimits.edges, (),
      hlimits.providerCalls, (), hlimits.deadline, (), hlimits.responseBytes, (),
      ⟨hlimits.each, hgraph.ids, by simp⟩, (),
      ⟨hgraph.sources, hgraph.ends, hgraph.noSelf, hgraph.noDuplicate, by simp⟩, (),
      (visited_iff hgraph.ids hgraph.sources hgraph.ends).mpr hgraph.acyclic, hlimits.encoded⟩

/-! ## The queue loop of the source -/

/-- The state of the loop: the queue, the in-degrees still open, and the steps popped so far. -/
structure QueueLoop where
  queue : List String
  indegree : List (String × Nat)
  visited : List String
  deriving DecidableEq, Repr

namespace QueueLoop

/-- The body of the inner loop. `none` is a panic: no entry for the target, or a degree below zero. -/
def lowerTarget (loop : QueueLoop) (target : String) : Option QueueLoop :=
  match loop.indegree.find? fun d => d.1 = target with
  | none => none
  | some (_, 0) => none
  | some (_, degree + 1) => some { loop with
      indegree := loop.indegree.map fun d => if d.1 = target then (d.1, d.2 - 1) else d
      queue := if degree = 0 then loop.queue ++ [target] else loop.queue }

/-- One round of the loop: nothing is left to do once the queue is empty. -/
def round (edges : List WorkflowEdge) (loop : QueueLoop) : Option QueueLoop :=
  match loop.queue with
  | [] => some loop
  | id :: queue =>
    ((edges.filter fun edge => edge.fromId = id).map (·.toId)).foldlM lowerTarget
      { loop with queue, visited := loop.visited ++ [id] }

def rounds (edges : List WorkflowEdge) : Nat → QueueLoop → Option QueueLoop
  | 0, loop => some loop
  | k + 1, loop => (loop.round edges).bind (rounds edges k)

end QueueLoop

/-- The keys of the `BTreeMap`s, in their order. -/
def WorkflowSpec.orderedIds (spec : WorkflowSpec) : List String :=
  (spec.steps.map (·.id)).mergeSort fun a b => decide (a ≤ b)

/-- The state in which the loop starts. -/
def WorkflowSpec.queueLoop (spec : WorkflowSpec) : QueueLoop where
  queue := spec.orderedIds.filter fun id => (spec.edges.filter fun edge => edge.toId = id).length = 0
  indegree := spec.orderedIds.map fun id => (id, (spec.edges.filter fun edge => edge.toId = id).length)
  visited := []

theorem lowerTarget_table {nodes queue visited : List String} {f : String → Nat} {target : String}
    (hmem : target ∈ nodes) (hpos : 0 < f target) :
    QueueLoop.lowerTarget ⟨queue, Toposort.table nodes f, visited⟩ target
      = some ⟨if f target = 1 then queue ++ [target] else queue,
        (Toposort.table nodes f).map fun d => if d.1 = target then (d.1, d.2 - 1) else d, visited⟩ := by
  have hfind : ((Toposort.table nodes f).find? fun d => d.1 = target) = some (target, f target) := by
    induction nodes with
    | nil => simp at hmem
    | cons a nodes ih =>
      by_cases ha : a = target
      · simp [Toposort.table, ha]
      · have hrest : target ∈ nodes := (List.mem_cons.mp hmem).resolve_left (Ne.symm ha)
        simpa [Toposort.table, ha] using ih hrest
  obtain ⟨degree, hdegree⟩ : ∃ degree, f target = degree + 1 := ⟨f target - 1, by omega⟩
  rw [hdegree] at hfind
  simp only [QueueLoop.lowerTarget, hfind, hdegree]
  by_cases hzero : degree = 0
  · simp [hzero]
  · simp [hzero]

theorem foldlM_lowerTarget {nodes visited ts : List String} (hmem : ∀ t ∈ ts, t ∈ nodes)
    (queue : List String) {f : String → Nat} (hcount : ∀ t, ts.count t ≤ f t) :
    ts.foldlM QueueLoop.lowerTarget ⟨queue, Toposort.table nodes f, visited⟩
      = some ⟨queue ++ (Toposort.lower ts (Toposort.table nodes f)).2,
        (Toposort.lower ts (Toposort.table nodes f)).1, visited⟩ := by
  induction ts generalizing queue f with
  | nil => simp [Toposort.lower]
  | cons t ts ih =>
    have ht : t ∈ nodes := hmem t List.mem_cons_self
    have hpos : 0 < f t := by
      have h := hcount t
      rw [List.count_cons_self] at h
      omega
    have hfreed : (Toposort.table nodes (Toposort.less t f)).contains (t, 0) = decide (f t = 1) := by
      rw [Bool.eq_iff_iff, List.contains_iff_mem, Toposort.mem_table, decide_eq_true_eq, Toposort.less,
        if_pos rfl]
      exact ⟨fun h => by omega, fun h => ⟨ht, by omega⟩⟩
    rw [List.foldlM_cons, lowerTarget_table ht hpos, Toposort.table_less]
    change ts.foldlM QueueLoop.lowerTarget _ = _
    rw [ih (fun t' h => hmem t' (List.mem_cons_of_mem _ h)) _ (Toposort.count_le_less hcount),
      Toposort.lower]
    simp only [Toposort.table_less, hfreed]
    by_cases hone : f t = 1
    · simp [hone]
    · simp [hone]

theorem rounds_empty (edges : List WorkflowEdge) (k : Nat) {loop : QueueLoop} (h : loop.queue = []) :
    QueueLoop.rounds edges k loop = some loop := by
  have hround : loop.round edges = some loop := by rw [QueueLoop.round, h]
  induction k with
  | zero => rfl
  | succ k ih =>
    rw [QueueLoop.rounds, hround]
    exact ih

/-- **A run of the loop walks the graph**: no step of it panics, and what it pops is Kahn's walk. -/
theorem rounds_walk {edges : List WorkflowEdge} {nodes : List String}
    (hends : ∀ edge ∈ edges, edge.toId ∈ nodes) (k : Nat) {queue visited : List String}
    (h : Toposort.Between (edgeTable edges) nodes visited queue) :
    ∃ loop, QueueLoop.rounds edges k
        ⟨queue, Toposort.table nodes (Toposort.openEdges (edgeTable edges) visited), visited⟩ = some loop ∧
      Toposort.Between (edgeTable edges) nodes loop.visited loop.queue ∧
      loop.visited = visited ++ Toposort.walk (edgeTable edges) k queue
        (Toposort.table nodes (Toposort.openEdges (edgeTable edges) visited)) ∧
      (loop.queue = [] ∨ loop.visited.length = visited.length + k) := by
  induction k generalizing queue visited with
  | zero => exact ⟨_, rfl, h, by simp [Toposort.walk], .inr rfl⟩
  | succ k ih =>
    cases queue with
    | nil =>
      exact ⟨_, rounds_empty edges (k + 1) rfl, h, by simp [Toposort.walk], .inl rfl⟩
    | cons id queue =>
      have htargets : ∀ t ∈ Toposort.targets (edgeTable edges) id, t ∈ nodes := by
        intro t ht
        rw [targets_edgeTable] at ht
        obtain ⟨edge, hedge, rfl⟩ := List.mem_map.mp ht
        exact hends edge (List.mem_filter.mp hedge).1
      have hround : QueueLoop.round edges ⟨id :: queue,
          Toposort.table nodes (Toposort.openEdges (edgeTable edges) visited), visited⟩
          = some ⟨queue ++ (Toposort.lower (Toposort.targets (edgeTable edges) id)
              (Toposort.table nodes (Toposort.openEdges (edgeTable edges) visited))).2,
            Toposort.table nodes (Toposort.openEdges (edgeTable edges) (visited ++ [id])),
            visited ++ [id]⟩ := by
        rw [← Toposort.lower_openEdges nodes h.notMem]
        change ((edges.filter fun edge => edge.fromId = id).map (·.toId)).foldlM QueueLoop.lowerTarget
          ⟨queue, _, visited ++ [id]⟩ = _
        rw [← targets_edgeTable]
        exact foldlM_lowerTarget htargets queue (Toposort.count_targets_le h.notMem)
      obtain ⟨loop, hrun, hbetween, hvisited, hlength⟩ := ih h.next
      refine ⟨loop, ?_, hbetween, ?_, ?_⟩
      · rw [QueueLoop.rounds, hround]
        exact hrun
      · rw [hvisited, Toposort.walk, Toposort.lower_openEdges nodes h.notMem, List.append_assoc]
        rfl
      · rw [List.length_append, List.length_singleton] at hlength
        rcases hlength with hempty | hlength
        · exact .inl hempty
        · right
          omega

theorem orderedIds_perm (spec : WorkflowSpec) : spec.orderedIds.Perm (spec.steps.map (·.id)) :=
  List.mergeSort_perm _ _

theorem queueLoop_eq (spec : WorkflowSpec) : spec.queueLoop =
    ⟨spec.orderedIds.filter fun id => Toposort.openEdges (edgeTable spec.edges) [] id = 0,
      Toposort.table spec.orderedIds (Toposort.openEdges (edgeTable spec.edges) []), []⟩ := by
  simp only [WorkflowSpec.queueLoop, Toposort.table, openEdges_edgeTable]

/-- **The queue loop of the source.** After the checks on ids and edges no step of it panics, it pops no step
twice, and with as many rounds as there are steps it is done, with the count of the validator. -/
theorem rounds_start (hids : (spec.steps.map (·.id)).Nodup)
    (hends : ∀ edge ∈ spec.edges, edge.toId ∈ spec.steps.map (·.id)) :
    (∀ k, ∃ loop, QueueLoop.rounds spec.edges k spec.queueLoop = some loop ∧ loop.visited.Nodup ∧
      ∀ id ∈ loop.visited, id ∈ spec.steps.map (·.id)) ∧
    ∃ loop, QueueLoop.rounds spec.edges spec.steps.length spec.queueLoop = some loop ∧ loop.queue = [] ∧
      loop.visited.length = spec.visited := by
  have hperm := orderedIds_perm spec
  have hnodes : spec.orderedIds.Nodup := hperm.nodup_iff.mpr hids
  have hmem : ∀ {id}, id ∈ spec.orderedIds ↔ id ∈ spec.steps.map (·.id) := hperm.mem_iff
  have hlength : spec.orderedIds.length = spec.steps.length := by
    rw [hperm.length_eq, List.length_map]
  have hrun := fun k => rounds_walk (fun edge he => hmem.mpr (hends edge he)) k
    (Toposort.between_start (edgeTable spec.edges) hnodes)
  rw [queueLoop_eq]
  refine ⟨fun k => ?_, ?_⟩
  · obtain ⟨loop, hloop, hbetween, -⟩ := hrun k
    exact ⟨loop, hloop, (List.nodup_append.mp hbetween.nodup).1,
      fun id hid => hmem.mp (hbetween.sub id (List.mem_append_left _ hid))⟩
  · obtain ⟨loop, hloop, hbetween, hvisited, hend⟩ := hrun spec.steps.length
    have hroom := (List.subperm_of_subset hbetween.nodup hbetween.sub).length_le
    rw [List.length_append, hlength] at hroom
    have hempty : loop.queue = [] := by
      rcases hend with hempty | hfull
      · exact hempty
      · -- All steps are popped, so none is left in the queue.
        rw [List.length_nil, Nat.zero_add] at hfull
        exact List.length_eq_zero_iff.mp (by omega)
    refine ⟨loop, hloop, hempty, ?_⟩
    rw [visited_eq, ← (Toposort.sort_perm (edgeTable spec.edges) hperm hnodes).length_eq, Toposort.sort,
      hlength, hvisited, List.nil_append]

/-- **Graph validation is exact.** A workflow is accepted if and only if it is within the limits and its steps
have distinct ids, its edges join two different steps each and none twice, and no step is reached from
itself; in the queue loop no in-degree is lowered below zero and no step is visited twice. -/
theorem graph_validation (enc : Encoding) (externalWrite : ExternalWritePolicy) (spec : WorkflowSpec) :
    (spec.validateWithPolicy enc externalWrite = .ok () ↔
      spec.WithinLimits enc externalWrite ∧ spec.WellGraphed) ∧
    (validateSteps enc externalWrite [] spec.steps = .ok () →
      validateEdges (spec.steps.map (·.id)) [] spec.edges = .ok () →
      (∀ k, ∃ loop, QueueLoop.rounds spec.edges k spec.queueLoop = some loop ∧ loop.visited.Nodup ∧
        ∀ id ∈ loop.visited, id ∈ spec.steps.map (·.id)) ∧
      ∃ loop, QueueLoop.rounds spec.edges spec.steps.length spec.queueLoop = some loop ∧ loop.queue = [] ∧
        loop.visited.length = spec.visited) := by
  refine ⟨validateWithPolicy_iff, fun hsteps hedges => ?_⟩
  obtain ⟨-, hids, -⟩ := validateSteps_iff.mp hsteps
  obtain ⟨-, hends, -⟩ := validateEdges_iff.mp hedges
  exact rounds_start hids hends


/-- The steps are ranked along the edges. -/
def WorkflowSpec.Ranked (spec : WorkflowSpec) : Prop :=
  ∃ rank : String → Nat, ∀ edge ∈ spec.edges, rank edge.fromId < rank edge.toId

/-- **An accepted workflow is acyclic.** -/
theorem validate_rank (h : spec.validateWithPolicy enc externalWrite = .ok ()) : spec.Ranked := by
  obtain ⟨-, hgraph⟩ := validateWithPolicy_iff.mp h
  have hvisited := (visited_iff hgraph.ids hgraph.sources hgraph.ends).mpr hgraph.acyclic
  have hlength : (Toposort.sort (edgeTable spec.edges) (spec.steps.map (·.id))).length
      = (spec.steps.map (·.id)).length := by
    rw [← visited_eq, List.length_map, hvisited]
  obtain ⟨rank, hrank⟩ := Toposort.exists_rank hgraph.ids hlength
  refine ⟨rank, fun edge he => ?_⟩
  have hpair : (edge.fromId, edge.toId) ∈ edgeTable spec.edges := List.mem_map_of_mem he
  exact hrank _ hpair (hgraph.ends edge he)

end Workflows

end Xiaomaolv
