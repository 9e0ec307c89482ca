import Mathlib.Data.List.Count
import Mathlib.Data.List.Nodup
import Mathlib.Data.List.Perm.Subperm
import Mathlib.Order.WellFoundedSet

/-!
# Kahn's walk over a table of edges

The walk visits a node once all its sources have been visited.

* `lower`, `walk`: one round of the walk and the nodes it visits, in order.
* `openEdges`: how many edges into a node still start in a node that was not visited.
* `Between`: what holds between two rounds; **`Between.next`**: a round keeps it.
* **`walk_sorted`**: the sources of a visited node were visited before it.
* **`walk_complete`**: a walk with enough fuel leaves no node that could be visited.
* **`exists_rank`**: a walk that visits every node ranks the nodes along the edges.
* `sort_perm`: what the walk visits does not depend on the order of the nodes.
* **`sort_of_acyclic`**: the walk visits every node of an acyclic graph.
-/

namespace Toposort

variable {α : Type} [DecidableEq α]

/-- Lower the degree of every target, and collect the targets whose degree reaches zero. -/
def lower : List α → List (α × Nat) → List (α × Nat) × List α
  | [], degrees => (degrees, [])
  | target :: targets, degrees =>
    let degrees := degrees.map fun d => if d.1 = target then (d.1, d.2 - 1) else d
    let (rest, freed) := lower targets degrees
    if degrees.contains (target, 0) then (rest, target :: freed) else (rest, freed)

/-- The ends of the edges that start in `a`. -/
def targets (edges : List (α × α)) (a : α) : List α := (edges.filter fun e => e.1 = a).map (·.2)

/-- The nodes that the walk visits. -/
def walk (edges : List (α × α)) : Nat → List α → List (α × Nat) → List α
  | 0, _, _ => []
  | _, [], _ => []
  | fuel + 1, a :: queue, degrees =>
    a :: walk edges fuel (queue ++ (lower (targets edges a) degrees).2)
      (lower (targets edges a) degrees).1

/-- How many edges into `b` start outside of `visited`. -/
def openEdges (edges : List (α × α)) (visited : List α) (b : α) : Nat :=
  edges.countP fun e => e.2 = b ∧ e.1 ∉ visited

variable {edges : List (α × α)} {nodes visited : List α}

/-! ## One round -/

/-- A table of degrees. -/
abbrev table (nodes : List α) (f : α → Nat) : List (α × Nat) := nodes.map fun a => (a, f a)

omit [DecidableEq α] in
theorem mem_table {f : α → Nat} {a : α} {n : Nat} : (a, n) ∈ table nodes f ↔ a ∈ nodes ∧ f a = n := by
  simp only [table, List.mem_map, Prod.mk.injEq]
  constructor
  · rintro ⟨b, hb, rfl, h⟩
    exact ⟨hb, h⟩
  · rintro ⟨ha, h⟩
    exact ⟨a, ha, rfl, h⟩

/-- One edge into `x` less. -/
def less (x : α) (f : α → Nat) : α → Nat := fun t => if t = x then f t - 1 else f t

theorem table_less (nodes : List α) (x : α) (f : α → Nat) :
    (table nodes f).map (fun d => if d.1 = x then (d.1, d.2 - 1) else d) = table nodes (less x f) := by
  rw [table, List.map_map]
  refine List.map_congr_left fun a _ => ?_
  by_cases ha : a = x
  · simp [less, ha]
  · simp [less, ha]

theorem count_cons_eq (x : α) (ts : List α) (t : α) :
    (x :: ts).count t = ts.count t + if t = x then 1 else 0 := by
  rw [List.count_cons]
  by_cases ht : t = x
  · simp [ht]
  · simp [ht, Ne.symm ht]

theorem count_le_less {x : α} {ts : List α} {f : α → Nat} (h : ∀ t, (x :: ts).count t ≤ f t) (t : α) :
    ts.count t ≤ less x f t := by
  have ht := h t
  rw [count_cons_eq] at ht
  simp only [less]
  split_ifs at ht ⊢
  · omega
  · omega

/-- **One round** lowers every degree by the edges that it takes away, and frees the nodes that are left
without one. -/
theorem lower_table (nodes : List α) {ts : List α} {f : α → Nat} (h : ∀ t, ts.count t ≤ f t) :
    (lower ts (table nodes f)).1 = table nodes (fun t => f t - ts.count t) ∧
      (lower ts (table nodes f)).2.Nodup ∧
      ∀ t, t ∈ (lower ts (table nodes f)).2 ↔ t ∈ nodes ∧ t ∈ ts ∧ f t = ts.count t := by
  induction ts generalizing f with
  | nil => simp [lower]
  | cons x ts ih =>
    have hcount := count_cons_eq x ts
    have hle := count_le_less h
    obtain ⟨hdegrees, hnodup, hmem⟩ := ih hle
    have hrest : table nodes (fun t => less x f t - ts.count t)
        = table nodes fun t => f t - (x :: ts).count t := by
      refine List.map_congr_left fun t _ => ?_
      have ht := hcount t
      simp only [less, Prod.mk.injEq, true_and]
      split_ifs at ht ⊢
      · omega
      · omega
    have hx := h x
    rw [hcount, if_pos rfl] at hx
    have hfx : less x f x = f x - 1 := if_pos rfl
    simp only [lower, table_less]
    split_ifs with hfree
    · rw [List.contains_iff_mem, mem_table] at hfree
      obtain ⟨hxn, hzero⟩ := hfree
      have hts : ts.count x = 0 := Nat.le_zero.mp (hzero ▸ hle x)
      refine ⟨hdegrees.trans hrest, List.nodup_cons.mpr ⟨fun hxf => ?_, hnodup⟩, fun t => ?_⟩
      · exact List.count_eq_zero.mp hts ((hmem x).mp hxf).2.1
      · rw [List.mem_cons, hmem, List.mem_cons, hcount]
        by_cases ht : t = x
        · subst ht
          simp only [true_or, if_true, hxn, true_and, true_iff]
          omega
        · simp only [ht, false_or, if_false, Nat.add_zero, less]
    · rw [List.contains_iff_mem, mem_table] at hfree
      refine ⟨hdegrees.trans hrest, hnodup, fun t => ?_⟩
      rw [hmem, List.mem_cons, hcount]
      by_cases ht : t = x
      · subst ht
        have hpos : t ∈ ts ↔ 0 < ts.count t := List.count_pos_iff.symm
        constructor
        · rintro ⟨hn, hmem', hc⟩
          exact ⟨hn, .inl rfl, by simp only [if_true]; omega⟩
        · rintro ⟨hn, -, hc⟩
          have hne : less t f t ≠ 0 := fun hz => hfree ⟨hn, hz⟩
          simp only [if_true] at hc
          exact ⟨hn, hpos.mpr (by omega), by omega⟩
      · simp only [ht, false_or, if_false, Nat.add_zero, less]

/-! ## The walk -/

theorem openEdges_concat {a : α} (ha : a ∉ visited) (t : α) :
    openEdges edges visited t = openEdges edges (visited ++ [a]) t + (targets edges a).count t := by
  unfold openEdges targets
  induction edges with
  | nil => rfl
  | cons e edges ih =>
    rw [List.countP_cons, List.countP_cons, List.filter_cons, ih]
    by_cases hsource : e.1 = a
    · by_cases htarget : e.2 = t
      · simp only [hsource, htarget, ha, true_and, decide_true, not_false_eq_true, if_true, List.map_cons,
          List.count_cons_self, List.mem_append, List.mem_singleton, or_true, not_true_eq_false,
          decide_false, Bool.false_eq_true, if_false]
        omega
      · simp [hsource, htarget]
    · by_cases htarget : e.2 = t
      · by_cases hv : e.1 ∈ visited
        · simp [hsource, htarget, hv]
        · simp [hsource, htarget, hv]
          omega
      · simp [hsource, htarget]

theorem openEdges_mono {visited' : List α} (h : visited ⊆ visited') {t : α}
    (ht : openEdges edges visited t = 0) : openEdges edges visited' t = 0 := by
  rw [openEdges, List.countP_eq_zero] at ht ⊢
  intro e he
  have hclosed := ht e he
  simp only [decide_eq_true_eq, not_and, not_not] at hclosed ⊢
  exact fun het => h (hclosed het)

/-- What holds between two rounds: nothing is queued twice or after its visit, and no edge into a
visited or queued node is open. -/
structure Between (edges : List (α × α)) (nodes visited queue : List α) : Prop where
  nodup : (visited ++ queue).Nodup
  sub : ∀ v ∈ visited ++ queue, v ∈ nodes
  closed : ∀ v ∈ visited ++ queue, openEdges edges visited v = 0

section Round

variable {queue : List α} {a : α}

theorem Between.notMem (h : Between edges nodes visited (a :: queue)) : a ∉ visited := fun hv =>
  (List.nodup_append.mp h.nodup).2.2 a hv a List.mem_cons_self rfl

theorem count_targets_le (ha : a ∉ visited) (t : α) :
    (targets edges a).count t ≤ openEdges edges visited t := by
  have hsplit : openEdges edges visited t = _ := openEdges_concat ha t
  omega

theorem lower_openEdges (nodes : List α) (ha : a ∉ visited) :
    (lower (targets edges a) (table nodes (openEdges edges visited))).1
      = table nodes (openEdges edges (visited ++ [a])) := by
  rw [(lower_table nodes (count_targets_le ha)).1]
  refine List.map_congr_left fun t _ => ?_
  have hsplit : openEdges edges visited t = _ := openEdges_concat ha t
  simp only [Prod.mk.injEq, true_and]
  omega

theorem mem_freed (edges : List (α × α)) (nodes : List α) (ha : a ∉ visited) (t : α) :
    t ∈ (lower (targets edges a) (table nodes (openEdges edges visited))).2 ↔
      t ∈ nodes ∧ openEdges edges visited t ≠ 0 ∧ openEdges edges (visited ++ [a]) t = 0 := by
  have hsplit : openEdges edges visited t = _ := openEdges_concat ha t
  rw [(lower_table nodes (count_targets_le ha)).2.2]
  have hpos : t ∈ targets edges a ↔ 0 < (targets edges a).count t := List.count_pos_iff.symm
  rw [hpos]
  constructor
  · rintro ⟨hn, hpos, hcount⟩
    exact ⟨hn, by omega, by omega⟩
  · rintro ⟨hn, hopen, hclosed⟩
    exact ⟨hn, by omega, by omega⟩

/-- **A round keeps what holds between two rounds.** -/
theorem Between.next (h : Between edges nodes visited (a :: queue)) :
    Between edges nodes (visited ++ [a])
      (queue ++ (lower (targets edges a) (table nodes (openEdges edges visited))).2) := by
  have ha := h.notMem
  have hfreed := mem_freed edges nodes ha
  have hmove : visited ++ a :: queue = (visited ++ [a]) ++ queue := by simp
  have hnodup := h.nodup
  have hsub := h.sub
  have hclosed := h.closed
  rw [hmove] at hnodup hsub hclosed
  refine ⟨?_, fun v hv => ?_, fun v hv => ?_⟩
  · -- A freed node had an open edge, which no visited or queued node has.
    rw [← List.append_assoc, List.nodup_append]
    refine ⟨hnodup, (lower_table nodes (count_targets_le ha)).2.1, fun x hx y hy he => ?_⟩
    exact ((hfreed y).mp hy).2.1 (hclosed y (he ▸ hx))
  · rw [← List.append_assoc] at hv
    rcases List.mem_append.mp hv with hv | hv
    · exact hsub v hv
    · exact ((hfreed v).mp hv).1
  · rw [← List.append_assoc] at hv
    rcases List.mem_append.mp hv with hv | hv
    · exact openEdges_mono (List.subset_append_left _ _) (hclosed v hv)
    · exact ((hfreed v).mp hv).2.2

end Round

/-- The sources of every node of the list come before it. -/
def Sorted (edges : List (α × α)) (visited : List α) : Prop :=
  ∀ l a r, visited = l ++ a :: r → openEdges edges l a = 0

/-- **The sources of a visited node were visited before it**, and no node is visited twice. -/
theorem walk_sorted (visited : List α) (fuel : Nat) {queue : List α}
    (h : Between edges nodes visited queue) :
    (visited ++ walk edges fuel queue (table nodes (openEdges edges visited))).Nodup ∧
      (∀ a ∈ walk edges fuel queue (table nodes (openEdges edges visited)), a ∈ nodes) ∧
      ∀ l a r, walk edges fuel queue (table nodes (openEdges edges visited)) = l ++ a :: r →
        openEdges edges (visited ++ l) a = 0 := by
  induction fuel generalizing queue visited with
  | zero =>
    exact ⟨by simpa [walk] using (List.nodup_append.mp h.nodup).1, by simp [walk], by simp [walk]⟩
  | succ fuel ih =>
    cases queue with
    | nil => exact ⟨by simpa [walk] using h.nodup, by simp [walk], by simp [walk]⟩
    | cons a queue =>
      obtain ⟨hwalk, hnodes, hsorted⟩ := ih _ h.next
      simp only [walk, lower_openEdges nodes h.notMem]
      refine ⟨by simpa using hwalk, fun b hb => ?_, fun l b r hl => ?_⟩
      · rcases List.mem_cons.mp hb with rfl | hb
        · exact h.sub b (by simp)
        · exact hnodes b hb
      · cases l with
        | nil =>
          rw [List.nil_append, List.cons.injEq] at hl
          rw [List.append_nil, ← hl.1]
          exact h.closed a (by simp)
        | cons c l =>
          rw [List.cons_append, List.cons.injEq] at hl
          have hlast := hsorted l b r hl.2
          rw [List.append_assoc, List.singleton_append, hl.1] at hlast
          exact hlast

/-- No node is left whose sources were all visited. -/
def Complete (edges : List (α × α)) (nodes visited : List α) : Prop :=
  ∀ a ∈ nodes, openEdges edges visited a = 0 → a ∈ visited

/-- **A walk with enough fuel leaves no node that could be visited.** -/
theorem walk_complete (visited : List α) (fuel : Nat) {queue : List α}
    (h : Between edges nodes visited queue)
    (hfull : ∀ a ∈ nodes, openEdges edges visited a = 0 → a ∈ visited ++ queue)
    (hfuel : nodes.length ≤ visited.length + fuel) :
    Complete edges nodes (visited ++ walk edges fuel queue (table nodes (openEdges edges visited))) := by
  induction fuel generalizing queue visited with
  | zero =>
    -- As many nodes are visited as there are, so all are.
    intro a ha _
    have hperm : visited.Perm nodes :=
      (List.subperm_of_subset (List.nodup_append.mp h.nodup).1
        fun v hv => h.sub v (List.mem_append_left _ hv)).perm_of_length_le (by omega)
    simpa [walk] using hperm.mem_iff.mpr ha
  | succ fuel ih =>
    cases queue with
    | nil =>
      intro a ha hopen
      simp only [walk, List.append_nil] at hopen ⊢
      simpa using hfull a ha hopen
    | cons x queue =>
      have hfreed := mem_freed edges nodes h.notMem
      have hcomplete := ih (visited ++ [x]) h.next (fun a ha hopen => ?_)
        (by rw [List.length_append, List.length_singleton]; omega)
      · simpa only [walk, lower_openEdges nodes h.notMem, List.append_assoc, List.singleton_append]
          using hcomplete
      · by_cases hbefore : openEdges edges visited a = 0
        · have hold := hfull a ha hbefore
          simp only [List.mem_append, List.mem_cons] at hold ⊢
          tauto
        · have hnew := (hfreed a).mpr ⟨ha, hbefore, hopen⟩
          exact List.mem_append_right _ (List.mem_append_right _ hnew)

/-- **What one walk visits, every complete walk visits.** -/
theorem Sorted.subset {visited' : List α} (hs : Sorted edges visited) (hsub : visited ⊆ nodes)
    (hc : Complete edges nodes visited') : visited ⊆ visited' := by
  have hbefore : ∀ n, ∀ a ∈ visited.take n, a ∈ visited' := by
    intro n
    induction n with
    | zero => simp
    | succ n ih =>
      intro a ha
      rw [List.take_add_one] at ha
      rcases List.mem_append.mp ha with ha | ha
      · exact ih a ha
      · have hget : visited[n]? = some a := by simpa using ha
        obtain ⟨hlt, hget⟩ := List.getElem?_eq_some_iff.mp hget
        have hl : visited = visited.take n ++ a :: visited.drop (n + 1) := by
          rw [← hget, List.getElem_cons_drop hlt, List.take_append_drop]
        exact hc a (hsub (hget ▸ List.getElem_mem hlt)) (openEdges_mono ih (hs _ _ _ hl))
  intro a ha
  exact hbefore visited.length a (by rwa [List.take_length])

/-- The walk from the nodes without a source. -/
def sort (edges : List (α × α)) (nodes : List α) : List α :=
  walk edges nodes.length (nodes.filter fun a => openEdges edges [] a = 0) (table nodes (openEdges edges []))

theorem between_start (edges : List (α × α)) (hnodes : nodes.Nodup) :
    Between edges nodes [] (nodes.filter fun a => openEdges edges [] a = 0) := by
  refine ⟨hnodes.filter _, fun v hv => ?_, fun v hv => ?_⟩
  · rw [List.nil_append] at hv
    exact (List.mem_filter.mp hv).1
  · rw [List.nil_append] at hv
    simpa using (List.mem_filter.mp hv).2

theorem sort_sorted (edges : List (α × α)) (hnodes : nodes.Nodup) :
    (sort edges nodes).Nodup ∧ sort edges nodes ⊆ nodes ∧ Sorted edges (sort edges nodes) := by
  obtain ⟨hnodup, hsub, hsorted⟩ := walk_sorted [] nodes.length (between_start edges hnodes)
  exact ⟨hnodup, hsub, hsorted⟩

theorem sort_complete (hnodes : nodes.Nodup) : Complete edges nodes (sort edges nodes) := by
  refine walk_complete [] nodes.length (between_start edges hnodes) (fun a ha hopen => ?_) (by simp)
  simpa using ⟨ha, hopen⟩

theorem sort_perm {nodes' : List α} (edges : List (α × α)) (hperm : nodes.Perm nodes')
    (hnodes : nodes.Nodup) : (sort edges nodes).Perm (sort edges nodes') := by
  have hnodes' := hperm.nodup_iff.mp hnodes
  obtain ⟨hnodup, hsub, hsorted⟩ := sort_sorted edges hnodes
  obtain ⟨hnodup', hsub', hsorted'⟩ := sort_sorted edges hnodes'
  refine (List.perm_ext_iff_of_nodup hnodup hnodup').mpr fun a => ⟨fun ha => ?_, fun ha => ?_⟩
  · exact hsorted.subset (List.Subset.trans hsub hperm.subset) (sort_complete hnodes') ha
  · exact hsorted'.subset (List.Subset.trans hsub' hperm.symm.subset) (sort_complete hnodes) ha

/-- **A walk that visits every node ranks the nodes along the edges.** -/
theorem exists_rank (hnodes : nodes.Nodup) (h : (sort edges nodes).length = nodes.length) :
    ∃ rank : α → Nat, ∀ e ∈ edges, e.2 ∈ nodes → rank e.1 < rank e.2 := by
  obtain ⟨hnodup, hsub, hsorted⟩ := sort_sorted edges hnodes
  have hperm : (sort edges nodes).Perm nodes :=
    (List.subperm_of_subset hnodup hsub).perm_of_length_le (Nat.le_of_eq h.symm)
  refine ⟨(sort edges nodes).idxOf, fun e he hmem => ?_⟩
  obtain ⟨l, r, hl⟩ := List.append_of_mem (hperm.mem_iff.mpr hmem)
  have hclosed := hsorted l e.2 r hl
  rw [openEdges, List.countP_eq_zero] at hclosed
  have hsource : e.1 ∈ l := by
    have hopen := hclosed e he
    simpa using hopen
  have hnot : e.2 ∉ l := by
    intro hmem'
    have hn : (l ++ e.2 :: r).Nodup := hl ▸ hnodup
    exact (List.nodup_append.mp hn).2.2 e.2 hmem' e.2 List.mem_cons_self rfl
  change (sort edges nodes).idxOf e.1 < (sort edges nodes).idxOf e.2
  rw [hl, List.idxOf_append_of_mem hsource, List.idxOf_append_of_notMem hnot]
  have hlt := List.idxOf_lt_length_iff.mpr hsource
  omega

/-! ## Cycles -/

/-- No node is reached from itself along the edges. -/
def Acyclic (edges : List (α × α)) : Prop :=
  ∀ a, ¬ Relation.TransGen (fun x y => (x, y) ∈ edges) a a

omit [DecidableEq α] in
theorem acyclic_of_rank {rank : α → Nat} (h : ∀ e ∈ edges, rank e.1 < rank e.2) : Acyclic edges := by
  intro a hcycle
  have hlt : ∀ {b}, Relation.TransGen (fun x y => (x, y) ∈ edges) a b → rank a < rank b := by
    intro b hb
    induction hb with
    | single hedge => exact h _ hedge
    | tail _ hedge ih => exact ih.trans (h _ hedge)
  exact Nat.lt_irrefl _ (hlt hcycle)

/-- A complete walk of an acyclic graph misses no node: a missed node whose sources are all visited could
be visited. -/
theorem Complete.of_acyclic (hc : Complete edges nodes visited) (hsource : ∀ e ∈ edges, e.1 ∈ nodes)
    (ha : Acyclic edges) : nodes ⊆ visited := by
  have htrans : IsTrans α (Relation.TransGen fun x y => (x, y) ∈ edges) := ⟨fun _ _ _ => .trans⟩
  have hirrefl : Std.Irrefl (Relation.TransGen fun x y => (x, y) ∈ edges) := ⟨ha⟩
  have hfounded : Set.WellFoundedOn {a | a ∈ nodes} (Relation.TransGen fun x y => (x, y) ∈ edges) :=
    have : IsStrictOrder α (Relation.TransGen fun x y => (x, y) ∈ edges) := { }
    nodes.finite_toSet.wellFoundedOn
  intro a hn
  refine hfounded.induction hn fun b hb ih => hc b hb ?_
  rw [openEdges, List.countP_eq_zero]
  intro e he
  simp only [decide_eq_true_eq, not_and, not_not]
  rintro rfl
  exact ih e.1 (hsource e he) (.single he)

/-- **The walk visits every node of an acyclic graph.** -/
theorem sort_of_acyclic (hnodes : nodes.Nodup) (hsource : ∀ e ∈ edges, e.1 ∈ nodes) (ha : Acyclic edges) :
    (sort edges nodes).length = nodes.length := by
  obtain ⟨hnodup, hsub, -⟩ := sort_sorted edges hnodes
  refine Nat.le_antisymm (List.subperm_of_subset hnodup hsub).length_le ?_
  exact (List.subperm_of_subset hnodes ((sort_complete hnodes).of_acyclic hsource ha)).length_le

end Toposort
