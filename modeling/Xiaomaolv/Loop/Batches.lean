import Xiaomaolv.Loop.Commits

/-!
# The rows that approval and extension insert

* **`materializeItems_ok`**: one new item a step, appended in order, with keys no stored item has.
* `mem_edgeDependencies`, `mem_batchDependencies`: where a new dependency row comes from.
-/

namespace Xiaomaolv

open Table LoopStore

/-! ## Items -/

/-- The items of the steps, counted from `n`. -/
def newItems (row : Nat → WorkflowStep → WorkItemRow) : Nat → List WorkflowStep → List WorkItemRow
  | _, [] => []
  | n, step :: steps => row n step :: newItems row (n + 1) steps

variable {row : Nat → WorkflowStep → WorkItemRow} {n : Nat} {steps : List WorkflowStep}

theorem mem_newItems {w : WorkItemRow} :
    w ∈ newItems row n steps ↔ ∃ i step, steps[i]? = some step ∧ w = row (n + i) step := by
  induction steps generalizing n with
  | nil => simp [newItems]
  | cons step steps ih =>
    rw [newItems, List.mem_cons, ih]
    constructor
    · rintro (rfl | ⟨i, step', hi, rfl⟩)
      · exact ⟨0, step, rfl, rfl⟩
      · exact ⟨i + 1, step', hi, by rw [Nat.add_right_comm, Nat.add_assoc]⟩
    · rintro ⟨i, step', hi, rfl⟩
      cases i with
      | zero =>
        cases Option.some.inj hi
        exact .inl rfl
      | succ i => exact .inr ⟨i, step', hi, by rw [Nat.add_right_comm, Nat.add_assoc]⟩

theorem length_newItems (row : Nat → WorkflowStep → WorkItemRow) (n : Nat)
    (steps : List WorkflowStep) : (newItems row n steps).length = steps.length := by
  induction steps generalizing n with
  | nil => rfl
  | cons step steps ih => rw [newItems, List.length_cons, ih, List.length_cons]

/-- **One new item a step**, and the columns that the table keeps unique stay so. -/
theorem materializeItems_ok {items items' : List WorkItemRow}
    (h : materializeItems row n steps items = .ok items') :
    items' = items ++ newItems row n steps ∧
      ((items.map (·.id)).Nodup → (items'.map (·.id)).Nodup) ∧
      ((items.map fun w => (w.workflowId, w.stepId)).Nodup →
        (items'.map fun w => (w.workflowId, w.stepId)).Nodup) := by
  induction steps generalizing n items with
  | nil =>
    cases h
    exact ⟨(List.append_nil _).symm, id, id⟩
  | cons step steps ih =>
    rw [materializeItems] at h
    simp only [bind_eq_ok, insertRow_eq_ok] at h
    obtain ⟨_, ⟨hclash, rfl⟩, h⟩ := h
    obtain ⟨rfl, hid, hstep⟩ := ih h
    have hfresh : ∀ x ∈ items, x.id ≠ (row n step).id ∧
        ¬ (x.workflowId = (row n step).workflowId ∧ x.stepId = (row n step).stepId) := by
      intro x hx
      have := hclash x hx
      simp only [decide_eq_false_iff_not, not_or] at this
      exact this
    refine ⟨by simp [newItems], fun hk => hid (nodup_concat hk fun x hx => (hfresh x hx).1),
      fun hk => hstep (nodup_concat hk fun x hx he => (hfresh x hx).2 ?_)⟩
    exact ⟨congrArg Prod.fst he, congrArg Prod.snd he⟩

/-! ## Dependencies -/

theorem insertDependencies_ok {message : String} {ds rows rows' : List DependencyRow}
    (h : insertDependencies message ds rows = .ok rows') : rows' = rows ++ ds := by
  induction ds generalizing rows with
  | nil =>
    cases h
    exact (List.append_nil _).symm
  | cons d ds ih =>
    rw [insertDependencies] at h
    simp only [bind_eq_ok, insertRow_eq_ok] at h
    obtain ⟨_, ⟨-, rfl⟩, h⟩ := h
    rw [ih h, List.append_assoc, List.singleton_append]

theorem batchId?_eq_some {workId : Nat → String} {stepId id : String}
    (h : batchId? workId steps stepId = some id) :
    ∃ (i : Nat) (step : WorkflowStep), steps[i]? = some step ∧ step.id = stepId ∧ id = workId i := by
  obtain ⟨i, hi, rfl⟩ := Option.map_eq_some_iff.mp h
  obtain ⟨hlt, hp, -⟩ := List.findIdx?_eq_some_iff_getElem.mp hi
  exact ⟨i, steps[i], List.getElem?_eq_getElem hlt, by simpa using hp, rfl⟩

theorem mem_edgeDependencies {workId : Nat → String} {edges : List WorkflowEdge}
    {ds : List DependencyRow} (h : edgeDependencies workId steps edges = .ok ds) {d : DependencyRow}
    (hd : d ∈ ds) : ∃ edge ∈ edges, batchId? workId steps edge.toId = some d.workItemId ∧
      batchId? workId steps edge.fromId = some d.dependsOnWorkItemId := by
  induction edges generalizing ds with
  | nil =>
    cases h
    cases hd
  | cons edge edges ih =>
    rw [edgeDependencies] at h
    simp only [bind_eq_ok, pure_eq_ok] at h
    obtain ⟨d₀, h₀, rest, hrest, rfl⟩ := h
    rcases List.mem_cons.mp hd with rfl | hd
    · unfold edgeDependency at h₀
      simp only [bind_eq_ok, context_eq_ok, pure_eq_ok] at h₀
      obtain ⟨target, ht, source, hs, rfl⟩ := h₀
      exact ⟨edge, List.mem_cons_self, ht, hs⟩
    · obtain ⟨e, he, h'⟩ := ih hrest hd
      exact ⟨e, List.mem_cons_of_mem _ he, h'⟩

theorem pickBy_mem {α : Type} {before : α → α → Bool} {l : List α} {a : α}
    (h : pickBy before l = some a) : a ∈ l := by
  induction l generalizing a with
  | nil => cases h
  | cons x l ih =>
    rw [pickBy] at h
    split at h
    · cases h
      exact List.mem_cons_self
    · rename_i b hb
      split at h
      · cases h
        exact List.mem_cons_self
      · cases h
        exact List.mem_cons_of_mem _ (ih hb)

theorem pickBy_eq_none {α : Type} {before : α → α → Bool} {l : List α} :
    pickBy before l = none ↔ l = [] := by
  cases l with
  | nil => simp [pickBy]
  | cons x l =>
    rw [pickBy]
    constructor
    · intro h
      split at h
      · cases h
      · split at h <;> cases h
    · intro h
      cases h

/-- In a total order the picked row comes before every other. -/
theorem pickBy_before {α : Type} {before : α → α → Bool}
    (htotal : ∀ a b, before a b = true ∨ before b a = true)
    (htrans : ∀ a b c, before a b = true → before b c = true → before a c = true)
    {l : List α} {a : α} (h : pickBy before l = some a) : ∀ b ∈ l, before a b = true := by
  have hrefl : ∀ a, before a a = true := fun a => (htotal a a).elim id id
  induction l generalizing a with
  | nil => cases h
  | cons x l ih =>
    rw [pickBy] at h
    split at h
    · rename_i hnone
      cases h
      rw [pickBy_eq_none.mp hnone]
      exact fun b hb => (List.mem_singleton.mp hb) ▸ hrefl _
    · rename_i b hb
      split at h
      · rename_i hxb
        cases h
        intro y hy
        rcases List.mem_cons.mp hy with rfl | hy
        · exact hrefl _
        · exact htrans _ _ _ hxb (ih hb y hy)
      · rename_i hxb
        cases h
        intro y hy
        rcases List.mem_cons.mp hy with rfl | hy
        · exact (htotal y _).resolve_left hxb
        · exact ih hb y hy

/-- A selection that keeps the picked row picks it too. -/
theorem pickBy_filter {α : Type} {before : α → α → Bool}
    (htotal : ∀ a b, before a b = true ∨ before b a = true)
    (htrans : ∀ a b c, before a b = true → before b c = true → before a c = true)
    (q : α → Bool) {l : List α} {a : α} (h : pickBy before l = some a) (hq : q a = true) :
    pickBy before (l.filter q) = some a := by
  induction l generalizing a with
  | nil => cases h
  | cons x l ih =>
    rw [pickBy] at h
    split at h
    · rename_i hnone
      cases h
      rw [pickBy_eq_none.mp hnone, List.filter_cons, if_pos hq]
      rfl
    · rename_i b hb
      split at h
      · rename_i hxb
        cases h
        rw [List.filter_cons, if_pos hq, pickBy]
        split
        · rfl
        · rename_i c hc
          have hcm := (List.mem_filter.mp (pickBy_mem hc)).1
          rw [if_pos (htrans _ _ _ hxb (pickBy_before htotal htrans hb c hcm))]
      · rename_i hxb
        cases h
        rw [List.filter_cons]
        split_ifs
        · rw [pickBy, ih hb hq]
          exact if_neg hxb
        · exact ih hb hq

theorem pickBy_split {α : Type} {before : α → α → Bool} {l : List α} {a : α}
    (h : pickBy before l = some a) :
    ∃ l₁ l₂, l = l₁ ++ a :: l₂ ∧ ∀ b ∈ l₁, before b a = false := by
  induction l generalizing a with
  | nil => cases h
  | cons x l ih =>
    rw [pickBy] at h
    split at h
    · cases h
      exact ⟨[], l, rfl, by simp⟩
    · rename_i b hb
      split at h
      · cases h
        exact ⟨[], l, rfl, by simp⟩
      · rename_i hxb
        cases h
        obtain ⟨l₁, l₂, rfl, hl₁⟩ := ih hb
        refine ⟨x :: l₁, l₂, rfl, fun y hy => ?_⟩
        rcases List.mem_cons.mp hy with rfl | hy
        · simpa using hxb
        · exact hl₁ y hy

theorem stepItem?_eq_some {goalId stepId : String} {items : List WorkItemRow} {w : WorkItemRow}
    (h : stepItem? goalId stepId items = some w) :
    w ∈ items ∧ w.goalId = goalId ∧ w.stepId = stepId := by
  have hmem := List.mem_filter.mp (pickBy_mem h)
  rw [decide_eq_true_eq] at hmem
  exact hmem

theorem mem_resolveDependencies {goalId id : String} {workId : Nat → String}
    {items : List WorkItemRow} {deps : List String} {ds : List DependencyRow}
    (h : resolveDependencies goalId workId steps items id deps = .ok ds) {d : DependencyRow}
    (hd : d ∈ ds) : d.workItemId = id ∧ ∃ dep ∈ deps,
      resolveDependency goalId workId steps items dep = .ok d.dependsOnWorkItemId := by
  induction deps generalizing ds with
  | nil =>
    cases h
    cases hd
  | cons dep deps ih =>
    rw [resolveDependencies] at h
    simp only [bind_eq_ok, pure_eq_ok] at h
    obtain ⟨source, hs, rest, hrest, rfl⟩ := h
    rcases List.mem_cons.mp hd with rfl | hd
    · exact ⟨rfl, dep, List.mem_cons_self, hs⟩
    · obtain ⟨hid, dep', hdep, hs'⟩ := ih hrest hd
      exact ⟨hid, dep', List.mem_cons_of_mem _ hdep, hs'⟩

theorem mem_batchDependencies {goalId : String} {workId : Nat → String} {batch : List WorkflowStep}
    {items : List WorkItemRow} {ds : List DependencyRow}
    (h : batchDependencies goalId workId batch items n steps = .ok ds) {d : DependencyRow}
    (hd : d ∈ ds) : ∃ i step, steps[i]? = some step ∧ d.workItemId = workId (n + i) ∧
      ∃ dep ∈ declaredDependencies step,
        resolveDependency goalId workId batch items dep = .ok d.dependsOnWorkItemId := by
  induction steps generalizing n ds with
  | nil =>
    cases h
    cases hd
  | cons step steps ih =>
    rw [batchDependencies] at h
    simp only [bind_eq_ok, pure_eq_ok] at h
    obtain ⟨first, hfirst, rest, hrest, rfl⟩ := h
    rcases List.mem_append.mp hd with hd | hd
    · obtain ⟨hid, hdep⟩ := mem_resolveDependencies hfirst hd
      exact ⟨0, step, rfl, hid, hdep⟩
    · obtain ⟨i, step', hi, hid, hdep⟩ := ih hrest hd
      exact ⟨i + 1, step', hi, by rw [hid, Nat.add_right_comm, Nat.add_assoc], hdep⟩

theorem resolveDependency_ok {goalId dep id : String} {workId : Nat → String}
    {items : List WorkItemRow}
    (h : resolveDependency goalId workId steps items dep = .ok id) :
    batchId? workId steps dep = some id ∨
      (batchId? workId steps dep = none ∧
        ∃ w, stepItem? goalId dep items = some w ∧ w.id = id) := by
  unfold resolveDependency at h
  split at h
  · rename_i id' hid
    cases h
    exact .inl hid
  · rename_i hnone
    rw [context_eq_ok] at h
    obtain ⟨w, hw, rfl⟩ := Option.map_eq_some_iff.mp h
    exact .inr ⟨hnone, w, hw, rfl⟩

end Xiaomaolv
