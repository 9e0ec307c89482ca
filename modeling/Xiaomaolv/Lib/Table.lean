import Mathlib.Data.List.Basic
import Mathlib.Data.List.Nodup
import Mathlib.Tactic.SplitIfs

/-!
# Tables as lists of rows

A table is the list of its rows in insertion order.

* `updateWhere p f t`: `UPDATE t SET f WHERE p`; how it meets `map`, `find?`, `filter`, `∈`.
* `insertRow clash msg r t`: `INSERT INTO t`, refused when a stored row clashes with `r`;
  `nodup_concat`: a fresh key keeps the keys distinct.
* `find?_of_mem`, `countP_key`: lookups and counts by a key that no two rows share.
* `mem_replace`, `map_replace`: a table in which the row at one position was replaced.
* `leftJoin on l r`: `l LEFT JOIN r ON on`; **`mem_leftJoin`**: its rows.
* `foldl_keeps`, `foldl_frame`, **`foldl_once`**: a loop over rows with distinct keys, seen through a
  projection that only the iteration of one key changes.
-/

namespace Table

variable {α β γ : Type}

/-- `UPDATE t SET f WHERE p`. -/
def updateWhere (p : α → Bool) (f : α → α) (t : List α) : List α :=
  t.map fun r => if p r then f r else r

/-! ## Updates -/

@[simp] theorem updateWhere_nil (p : α → Bool) (f : α → α) : updateWhere p f [] = [] := rfl

@[simp] theorem updateWhere_cons (p : α → Bool) (f : α → α) (r : α) (t : List α) :
    updateWhere p f (r :: t) = (if p r then f r else r) :: updateWhere p f t := rfl

@[simp] theorem updateWhere_append (p : α → Bool) (f : α → α) (t u : List α) :
    updateWhere p f (t ++ u) = updateWhere p f t ++ updateWhere p f u := by
  simp [updateWhere]

@[simp] theorem length_updateWhere (p : α → Bool) (f : α → α) (t : List α) :
    (updateWhere p f t).length = t.length := by
  simp [updateWhere]

theorem mem_updateWhere {p : α → Bool} {f : α → α} {t : List α} {r : α} :
    r ∈ updateWhere p f t ↔ ∃ r₀ ∈ t, (if p r₀ then f r₀ else r₀) = r := by
  simp [updateWhere]

theorem map_updateWhere {p : α → Bool} {f : α → α} {g : α → β} (hf : ∀ r, g (f r) = g r)
    (t : List α) : (updateWhere p f t).map g = t.map g := by
  simp only [updateWhere, List.map_map]
  refine List.map_congr_left fun r _ => ?_
  simp only [Function.comp_apply]
  split_ifs
  · exact hf r
  · rfl

theorem updateWhere_eq_self {p : α → Bool} {f : α → α} {t : List α} (h : ∀ r ∈ t, p r = false) :
    updateWhere p f t = t := by
  unfold updateWhere
  conv_rhs => rw [← List.map_id t]
  refine List.map_congr_left fun r hr => ?_
  simp [h r hr]

theorem updateWhere_congr {p p' : α → Bool} {f f' : α → α} {t : List α}
    (h : ∀ r ∈ t, (if p r then f r else r) = if p' r then f' r else r) :
    updateWhere p f t = updateWhere p' f' t :=
  List.map_congr_left h

theorem find?_updateWhere {p : α → Bool} {f : α → α} {q : α → Bool}
    (hf : ∀ r, p r = true → q (f r) = q r) (t : List α) :
    (updateWhere p f t).find? q = (t.find? q).map fun r => if p r then f r else r := by
  induction t with
  | nil => rfl
  | cons r t ih =>
    have hq : q (if p r then f r else r) = q r := by
      split_ifs with hp
      · exact hf r hp
      · rfl
    simp only [updateWhere_cons, List.find?_cons, hq, ih]
    cases q r <;> rfl

theorem filter_updateWhere {p : α → Bool} {f : α → α} {q : α → Bool}
    (hf : ∀ r, p r = true → q (f r) = q r) (t : List α) : (updateWhere p f t).filter q = updateWhere p f (t.filter q) := by
  induction t with
  | nil => rfl
  | cons r t ih =>
    have hq : q (if p r then f r else r) = q r := by
      split_ifs with hp
      · exact hf r hp
      · rfl
    simp only [updateWhere_cons, List.filter_cons, hq, ih]
    cases q r <;> simp

/-! ## Inserts -/

/-- `INSERT INTO t`, refused when a stored row clashes with the new one. -/
def insertRow (clash : α → Bool) (message : String) (r : α) (t : List α) :
    Except String (List α) :=
  if t.any clash then .error message else .ok (t ++ [r])

theorem insertRow_eq_ok {clash : α → Bool} {message : String} {r : α} {t u : List α} :
    insertRow clash message r t = .ok u ↔ (∀ x ∈ t, clash x = false) ∧ u = t ++ [r] := by
  unfold insertRow
  split_ifs with h
  · obtain ⟨x, hx, hc⟩ := List.any_eq_true.mp h
    constructor
    · intro h'; cases h'
    · rintro ⟨h', -⟩; rw [h' x hx] at hc; cases hc
  · constructor
    · intro h'
      refine ⟨fun x hx => ?_, (Except.ok.inj h').symm⟩
      by_contra hc
      exact h (List.any_eq_true.mpr ⟨x, hx, by simpa using hc⟩)
    · rintro ⟨-, rfl⟩; rfl

theorem nodup_concat {key : α → β} {t : List α} (hk : (t.map key).Nodup) {r : α}
    (hr : ∀ x ∈ t, key x ≠ key r) : ((t ++ [r]).map key).Nodup := by
  rw [List.map_append, List.map_singleton, List.nodup_append]
  refine ⟨hk, List.nodup_singleton _, fun a ha b hb => ?_⟩
  obtain ⟨x, hx, rfl⟩ := List.mem_map.mp ha
  rw [List.mem_singleton] at hb
  exact hb ▸ hr x hx

/-! ## Lookups in a table with a key -/

theorem find?_of_mem [DecidableEq β] {key : α → β} {t : List α} (hk : (t.map key).Nodup) {r : α}
    (hr : r ∈ t) : t.find? (fun x => key x = key r) = some r := by
  induction t with
  | nil => cases hr
  | cons x t ih =>
    rw [List.map_cons, List.nodup_cons] at hk
    rcases List.mem_cons.mp hr with rfl | hr
    · simp
    · have hne : key x ≠ key r := fun h => hk.1 (h ▸ List.mem_map_of_mem hr)
      simp [hne, ih hk.2 hr]

theorem eq_of_key_eq {key : α → β} {t : List α} (hk : (t.map key).Nodup) {r r' : α} (hr : r ∈ t)
    (hr' : r' ∈ t) (h : key r = key r') : r = r' :=
  List.inj_on_of_nodup_map hk hr hr' h

theorem countP_key [DecidableEq β] {key : α → β} {t : List α} (hk : (t.map key).Nodup) (k : β)
    (q : α → Bool) : t.countP (fun r => decide (key r = k) && q r)
      = if (t.find? fun r => key r = k).any q then 1 else 0 := by
  induction t with
  | nil => rfl
  | cons x t ih =>
    rw [List.map_cons, List.nodup_cons] at hk
    by_cases hx : key x = k
    · have hnone : t.find? (fun r => key r = k) = none := by
        simp only [List.find?_eq_none, decide_eq_true_eq]
        exact fun r hr h => hk.1 (hx ▸ h ▸ List.mem_map_of_mem hr)
      rw [List.countP_cons, ih hk.2, hnone]
      simp [hx]
    · rw [List.countP_cons, ih hk.2]
      simp [hx]

theorem mem_replace {key : α → β} {t : List α} (hk : (t.map key).Nodup) {k : Nat} {r₀ : α}
    (h₀ : t[k]? = some r₀) {a r : α} (h : r ∈ t.set k a) : r = a ∨ (r ∈ t ∧ key r ≠ key r₀) := by
  induction t generalizing k with
  | nil => cases h
  | cons x t ih =>
    rw [List.map_cons, List.nodup_cons] at hk
    cases k with
    | zero =>
      cases h₀
      rcases List.mem_cons.mp h with rfl | h
      · exact .inl rfl
      · exact .inr ⟨List.mem_cons_of_mem _ h, fun he => hk.1 (he ▸ List.mem_map_of_mem h)⟩
    | succ k =>
      rcases List.mem_cons.mp h with rfl | h
      · refine .inr ⟨List.mem_cons_self, fun he => ?_⟩
        exact hk.1 (he ▸ List.mem_map_of_mem (List.mem_of_getElem? h₀))
      · rcases ih hk.2 h₀ h with h | ⟨hm, hne⟩
        · exact .inl h
        · exact .inr ⟨List.mem_cons_of_mem _ hm, hne⟩

theorem map_replace {g : α → β} {t : List α} {k : Nat} {r₀ a : α} (h₀ : t[k]? = some r₀)
    (ha : g a = g r₀) : (t.set k a).map g = t.map g := by
  induction t generalizing k with
  | nil => rfl
  | cons x t ih =>
    cases k with
    | zero =>
      cases h₀
      simp [ha]
    | succ k => simp [ih h₀]

/-! ## Joins -/

/-- The rows that `a` gives in a left join. -/
def joinRow (on : α → β → Bool) (r : List β) (a : α) : List (α × Option β) :=
  match r.filter (on a) with
  | [] => [(a, none)]
  | b :: bs => (b :: bs).map fun b => (a, some b)

/-- `l LEFT JOIN r ON on`: a row without a partner is kept with `none`. -/
def leftJoin (on : α → β → Bool) (l : List α) (r : List β) : List (α × Option β) :=
  l.flatMap (joinRow on r)

theorem mem_leftJoin {on : α → β → Bool} {l : List α} {r : List β} {x : α × Option β} :
    x ∈ leftJoin on l r ↔ x.1 ∈ l ∧
      ((x.2 = none ∧ ∀ b ∈ r, on x.1 b = false) ∨ ∃ b ∈ r, on x.1 b = true ∧ x.2 = some b) := by
  obtain ⟨a, o⟩ := x
  have hrow : ∀ a', (a, o) ∈ joinRow on r a' ↔
        a = a' ∧ ((o = none ∧ ∀ b ∈ r, on a b = false) ∨ ∃ b ∈ r, on a b = true ∧ o = some b) := by
    intro a'
    unfold joinRow
    cases hbs : r.filter (on a') with
    | nil =>
      rw [List.filter_eq_nil_iff] at hbs
      simp only [List.mem_singleton, Prod.mk.injEq]
      refine and_congr_right fun ha => ?_
      subst ha
      refine ⟨fun ho => .inl ⟨ho, fun b hb => by simpa using hbs b hb⟩, ?_⟩
      rintro (⟨ho, -⟩ | ⟨b, hb, hon, -⟩)
      · exact ho
      · exact absurd hon (hbs b hb)
    | cons b bs =>
      have hb : b ∈ r.filter (on a') := hbs ▸ List.mem_cons_self
      show (a, o) ∈ (b :: bs).map (fun b => (a', some b)) ↔ _
      rw [← hbs]
      simp only [List.mem_map, List.mem_filter, Prod.mk.injEq]
      constructor
      · rintro ⟨b', ⟨hb', hon⟩, rfl, rfl⟩
        exact ⟨rfl, .inr ⟨b', hb', hon, rfl⟩⟩
      · rintro ⟨rfl, ⟨-, hnone⟩ | ⟨b', hb', hon, rfl⟩⟩
        · obtain ⟨hbr, hon⟩ := List.mem_filter.mp hb
          rw [hnone b hbr] at hon
          cases hon
        · exact ⟨b', ⟨hb', hon⟩, rfl, rfl⟩
  simp only [leftJoin, List.mem_flatMap, hrow]
  constructor
  · rintro ⟨a', ha', rfl, h⟩
    exact ⟨ha', h⟩
  · rintro ⟨ha, h⟩
    exact ⟨a, ha, rfl, h⟩

/-! ## Loops over rows -/

section Loops

variable {σ : Type} {step : σ → α → σ} {I : σ → Prop} {π : σ → γ}

theorem foldl_keeps {rows : List α} {s : σ} (hI : ∀ s r, I s → I (step s r)) (hs : I s) :
    I (rows.foldl step s) := by
  induction rows generalizing s with
  | nil => exact hs
  | cons r rows ih => exact ih (hI s r hs)

theorem foldl_frame {rows : List α} {s : σ} (hI : ∀ s r, I s → I (step s r)) (hs : I s)
    (h : ∀ r ∈ rows, ∀ s, I s → π (step s r) = π s) : π (rows.foldl step s) = π s := by
  induction rows generalizing s with
  | nil => rfl
  | cons r rows ih =>
    rw [List.foldl_cons, ih (hI s r hs) fun r' hr' => h r' (List.mem_cons_of_mem _ hr'),
      h r List.mem_cons_self s hs]

/-- A loop over rows with distinct keys, of which only the iteration of `r` changes `π`, runs that
iteration once: from a state that looks through `π` like the first, to one that looks like the
last. -/
theorem foldl_once (key : α → β) {rows : List α} {s : σ} (hI : ∀ s r, I s → I (step s r)) (hs : I s)
    (hk : (rows.map key).Nodup) {r : α} (hr : r ∈ rows)
    (h : ∀ r' ∈ rows, key r' ≠ key r → ∀ s, I s → π (step s r') = π s) :
    ∃ s₁, I s₁ ∧ π s₁ = π s ∧ π (rows.foldl step s) = π (step s₁ r) := by
  induction rows generalizing s with
  | nil => cases hr
  | cons x rows ih =>
    rw [List.map_cons, List.nodup_cons] at hk
    rcases List.mem_cons.mp hr with rfl | hr'
    · refine ⟨s, hs, rfl, ?_⟩
      rw [List.foldl_cons]
      refine foldl_frame hI (hI s r hs) fun r' hr' s => h r' (List.mem_cons_of_mem _ hr') ?_ s
      exact fun e => hk.1 (e ▸ List.mem_map_of_mem hr')
    · have hne : key x ≠ key r := fun e => hk.1 (e ▸ List.mem_map_of_mem hr')
      obtain ⟨s₁, h₁, h₂, h₃⟩ := ih (hI s x hs) hk.2 hr'
        fun r' hr' => h r' (List.mem_cons_of_mem _ hr')
      exact ⟨s₁, h₁, h₂.trans (h x List.mem_cons_self hne s hs), h₃⟩

end Loops

end Table
