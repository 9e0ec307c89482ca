import Mathlib.Data.List.Induction
import Xiaomaolv.Loop.Dependencies

/-!
# How a failure propagates

* `Life.Step.fails`: the events that fail an item; `Path.enters`, `Path.unmoved`: where on a path it
  happens.
* `Contained`: no item that depends on a failed one is pending. A transaction keeps it that fails no
  item quietly and extends the workflow from no failed branch (`Txn.Cascades`, `contained_exec`).
* **`failures_propagate`**: in a run of such transactions, what depends on a failed item is blocked or
  failed; `failure_stranded` is a run in which a lease runs out on the last attempt.
-/

namespace Xiaomaolv

open Table LoopStore

namespace Life

variable {l l' x : Life} {e : Event} {es : List Event}

theorem Path.enters {P : Life → Prop} (h : Path l es l') (hl : ¬ P l) (hl' : P l') :
    ∃ es₁ e x x', (∀ e' ∈ es₁, e' ∈ es) ∧ e ∈ es ∧ Path l es₁ x ∧ ¬ P x ∧ x.Step e x' ∧ P x' := by
  induction h with
  | nil => exact absurd hl' hl
  | @cons l l₁ l' e es hstep _ ih =>
    by_cases h₁ : P l₁
    · exact ⟨[], e, l, l₁, by simp, List.mem_cons_self, .nil l, hl, hstep, h₁⟩
    · obtain ⟨es₁, e', x, x', hes, he, hpath, hx, hstep', hx'⟩ := ih h₁ hl'
      refine ⟨e :: es₁, e', x, x', fun y hy => ?_, List.mem_cons_of_mem _ he, .cons hstep hpath, hx,
        hstep', hx'⟩
      rcases List.mem_cons.mp hy with rfl | hy
      · exact List.mem_cons_self
      · exact List.mem_cons_of_mem _ (hes y hy)

theorem Path.unmoved {p : Event → Prop} {st : WorkItemStatus}
    (hstep : ∀ (y : Life) e y', p e → y.Step e y' → y'.item.status ≠ st) (h : Path l es x)
    (hok : ∀ e ∈ es, p e) (hx : x.item.status = st) : x = l := by
  induction h with
  | nil => rfl
  | cons h _ ih =>
    have he := ih (fun e hmem => hok e (List.mem_cons_of_mem _ hmem)) hx
    rw [he] at hx
    exact absurd hx (hstep _ _ _ (hok _ List.mem_cons_self) h)

/-- **What fails an item**: its holder, its lease, a verdict or a cancel. -/
theorem Step.fails (h : l.Step e l') (hl : l.item.status ≠ .failed)
    (hl' : l'.item.status = .failed) :
    (∃ id committed, e = .release id .failed committed) ∨
    (∃ now, e = .lapse now ∧ l.item.status = .running ∧ leaseExpired now l.item = true ∧
      (∀ c ∈ l.checkpoints, c.phase ≠ .committed) ∧ l.expired.workStatus = .failed) ∨
    (∃ resolution, e = .verdict resolution ∧ l.item.status = .waitingConfirmation ∧
      resolution.itemStatus (decide (l.item.maxAttempts ≤
        (l.attempts.filter fun a => a.status ≠ .void).length)) = .failed) ∨
    e = .close .failed := by
  cases h with
  | unlock | block | requeue | claim => cases hl'
  | renew | progress | prepare | commit => exact absurd hl' hl
  | reconcile c =>
    simp only [Life.reconcile] at hl'
    split at hl'
    · cases hl'
    · exact absurd hl' hl
  | release a r =>
    have hst : r.status = .failed := hl'
    exact .inl ⟨_, _, by rw [hst]⟩
  | lapse now h hlease hcommitted => exact .inr (.inl ⟨now, rfl, h, hlease, hcommitted, hl'⟩)
  | verdict a c resolution reason exhausted now h _ _ _ _ _ hbudget =>
    refine .inr (.inr (.inl ⟨resolution, rfl, h, ?_⟩))
    rw [show exhausted = decide (l.item.maxAttempts ≤
      (l.attempts.filter fun a => a.status ≠ .void).length) from
        Bool.eq_iff_iff.mpr (hbudget.trans (decide_eq_true_iff).symm)] at hl'
    exact hl'
  | close error attemptError status hstatus =>
    rcases hstatus with rfl | rfl
    · exact .inr (.inr (.inr rfl))
    · simp only [Life.close] at hl'
      split at hl'
      · exact absurd hl' hl
      · cases hl'

end Life

/-! ## Transitive dependencies -/

/-- `b` depends on `a`. -/
def DependsOn (dependencies : List DependencyRow) (a b : String) : Prop := ⟨b, a⟩ ∈ dependencies

theorem mem_downstream {dependencies : List DependencyRow} {a b : String} :
    b ∈ downstream dependencies a ↔ Relation.TransGen (DependsOn dependencies) a b := by
  have hedge : Closure.Edge (dependencies.map fun d => (d.dependsOnWorkItemId, d.workItemId))
      = DependsOn dependencies := by
    funext x y
    rw [Closure.Edge, DependsOn, List.mem_map, eq_iff_iff]
    constructor
    · rintro ⟨d, hd, he⟩
      cases he
      exact hd
    · exact fun h => ⟨_, h, rfl⟩
  rw [downstream, Closure.mem_reach, hedge]

namespace Store

/-- `w` depends on `f`, directly or through others. -/
def Follows (s : Store) (w f : WorkItemRow) : Prop :=
  Relation.TransGen (DependsOn s.dependencies) f.id w.id

instance (s : Store) (w f : WorkItemRow) : Decidable (s.Follows w f) :=
  decidable_of_iff (w.id ∈ downstream s.dependencies f.id) mem_downstream

/-- No item that depends on a failed one is pending. -/
def Contained (s : Store) : Prop :=
  ∀ f ∈ s.workItems, f.status = .failed → ∀ w ∈ s.workItems, s.Follows w f → w.status ≠ .pending

/-- The item has failed, or depends on one that has. -/
def IsDoomed (s : Store) (w : WorkItemRow) : Prop :=
  ∃ f ∈ s.workItems, f.status = .failed ∧ (f.id = w.id ∨ s.Follows w f)

instance (s : Store) (w : WorkItemRow) : Decidable (s.IsDoomed w) :=
  inferInstanceAs (Decidable (∃ f ∈ s.workItems, f.status = .failed ∧ (f.id = w.id ∨ s.Follows w f)))

end Store

section

variable {enc : Encoding} {s s' : Store} {t : Txn} {f w : WorkItemRow}

theorem Store.Follows.goalId (hw : WellFormed s) (h : s.Follows w f) (hf : f ∈ s.workItems)
    (hwm : w ∈ s.workItems) : w.goalId = f.goalId := by
  have hgoal : ∀ id, Relation.TransGen (DependsOn s.dependencies) f.id id →
      ∀ x ∈ s.workItems, x.id = id → x.goalId = f.goalId := by
    intro id h
    induction h with
    | single hd =>
      intro x hx hid
      obtain ⟨a, ha, b, hb, hai, hbi, hg⟩ := hw.dependencyItems _ hd
      cases hw.item_eq ha hx (hai.trans hid.symm)
      cases hw.item_eq hb hf hbi
      exact hg
    | tail _ hd ih =>
      intro x hx hid
      obtain ⟨a, ha, b, hb, hai, hbi, hg⟩ := hw.dependencyItems _ hd
      cases hw.item_eq ha hx (hai.trans hid.symm)
      exact hg.trans (ih b hb hbi)
  exact hgoal w.id h w hwm rfl

theorem dependsOn_old (hw : WellFormed s) (ht : s.apply enc t = .ok s') {a b : String}
    (h : Relation.TransGen (DependsOn s'.dependencies) a b) (hb : ∃ x ∈ s.workItems, x.id = b) :
    Relation.TransGen (DependsOn s.dependencies) a b ∧ ∃ x ∈ s.workItems, x.id = a := by
  have hedge : ∀ {x y : String}, DependsOn s'.dependencies x y → (∃ z ∈ s.workItems, z.id = y) →
      DependsOn s.dependencies x y ∧ ∃ z ∈ s.workItems, z.id = x := by
    rintro x y hd ⟨z, hz, hid⟩
    have hold : DependsOn s.dependencies x y := dependency_old hw ht hz hd hid.symm
    obtain ⟨-, -, p, hp, -, hpid, -⟩ := hw.dependencyItems _ hold
    exact ⟨hold, p, hp, hpid⟩
  induction h with
  | single hd =>
    obtain ⟨hold, ha⟩ := hedge hd hb
    exact ⟨.single hold, ha⟩
  | tail _ hd ih =>
    obtain ⟨hold, hc⟩ := hedge hd hb
    obtain ⟨hac, ha⟩ := ih hc
    exact ⟨hac.tail hold, ha⟩

theorem pending_old (hw : WellFormed s) (ht : s.apply enc t = .ok s') (hwm : w ∈ s.workItems)
    {w' : WorkItemRow} (hwm' : w' ∈ s'.workItems) (hid : w'.id = w.id) (hp : w'.status = .pending) :
    w.status = .pending := by
  obtain ⟨es, l', hl', hpath, -, -⟩ := life_apply hw (hw.life? hwm) ht
  obtain ⟨hm, hlid⟩ := life_item hl'
  cases (wellFormed_apply hw ht).item_eq hwm' hm (hid.trans hlid.symm)
  have hback : ∀ {l es l'}, Life.Path l es l' → l'.item.status = .pending →
      l.item.status = .pending := by
    intro l es l' h hp
    induction h with
    | nil => exact hp
    | cons hstep _ ih => exact (hstep.pending (ih hp)).1
  exact hback hpath hp

theorem born_not_failed (hw : WellFormed s) (ht : s.apply enc t = .ok s')
    (hwm : w ∈ s'.workItems) (hnew : ¬ ∃ x ∈ s.workItems, x.id = w.id) : w.status ≠ .failed := by
  have hl : s.life? w.id = none := by
    rw [life?_eq_none, workItem?_eq_none]
    exact fun hm => hnew (List.mem_map.mp hm)
  have hborn := (life_born hw ht hl ((wellFormed_apply hw ht).life? hwm)).item.status
  intro hst
  rcases hborn with h | h <;> cases h.symm.trans hst

end

/-! ## Transactions that cascade -/

/-- The transaction fails the item `f` without blocking what depends on it. -/
def Txn.failsQuietly (s : Store) (f : WorkItemRow) : Txn → Bool
  | .recoverGoalState goalId _ now =>
    (f.goalId = goalId ∧ f.status = .running) && leaseExpired now f &&
      (s.checkpoints.all fun c => !(c.workItemId = f.id && c.phase = .committed)) &&
      (expiredRow s f).workStatus = .failed
  | .resolveWaitingConfirmation _ workItemId resolution .. =>
    (f.id = workItemId ∧ f.status = .waitingConfirmation) &&
      resolution.itemStatus (f.maxAttempts ≤ s.attemptCount f.id) = .failed
  | _ => false

/-- A step of the extension declares a dependency that stands for the stored item `f`. -/
def Txn.extendsFrom (s : Store) (f : WorkItemRow) : Txn → Bool
  | .extendWorkflow goalId steps _ _ workId => steps.any fun step =>
    (declaredDependencies step).any fun dep =>
      (batchId? workId steps dep).isNone && stepItem? goalId dep s.workItems = some f
  | _ => false

/-- The transaction fails no item quietly that a pending one depends on, and extends the workflow from
no failed branch. -/
def Cascades (s : Store) (t : Txn) : Prop :=
  ∀ f ∈ s.workItems,
    (t.failsQuietly s f = true → ∀ w ∈ s.workItems, s.Follows w f → w.status ≠ .pending) ∧
    (t.extendsFrom s f = true → ¬ s.IsDoomed f)

instance (s : Store) (t : Txn) : Decidable (Cascades s t) :=
  inferInstanceAs (Decidable (∀ f ∈ s.workItems,
    (t.failsQuietly s f = true → ∀ w ∈ s.workItems, s.Follows w f → w.status ≠ .pending) ∧
    (t.extendsFrom s f = true → ¬ s.IsDoomed f)))

section

variable {enc : Encoding} {s s' : Store} {t : Txn} {f w : WorkItemRow}

/-- The source of a new dependency: an item of the same batch, or one that the extension names. -/
theorem source_apply (hw : WellFormed s) (ht : s.apply enc t = .ok s') {d : DependencyRow}
    (hd : d ∈ s'.dependencies) (hnew : d ∉ s.dependencies) :
    (¬ ∃ x ∈ s.workItems, x.id = d.dependsOnWorkItemId) ∨
      ∃ f ∈ s.workItems, f.id = d.dependsOnWorkItemId ∧ t.extendsFrom s f = true := by
  have hw' := wellFormed_apply hw ht
  -- The ids of a batch are fresh.
  have hfresh : ∀ {new : List WorkItemRow}, s'.workItems = s.workItems ++ new → ∀ x ∈ new,
      ¬ ∃ y ∈ s.workItems, y.id = x.id := by
    rintro new hi x hx ⟨y, hy, hid⟩
    have hnodup := hw'.itemIds
    rw [hi, List.map_append, List.nodup_append] at hnodup
    exact hnodup.2.2 _ (List.mem_map_of_mem hy) _ (List.mem_map_of_mem hx) hid
  by_cases hins : t.inserts = false
  · have ho := origin_apply ht hins
    simp only [Store.origin, Origin.mk.injEq] at ho
    exact absurd (ho.2.2.2.2 ▸ hd) hnew
  cases t with
  | createGoal request actor id =>
    rcases createGoal_ok ht with rfl | ⟨g, -, -, -, rfl⟩ <;> exact absurd hd hnew
  | approveGoal goalId request externalWrite internalPolicy actor approvalId workId =>
    obtain ⟨goal, plan, workItems, new, dependencies, -, -, -, -, -, -, hitems, hedges, hdeps, rfl⟩ :=
      approveGoal_ok ht
    have hds := insertDependencies_ok hdeps
    have hdnew := (List.mem_append.mp (hds ▸ hd : d ∈ s.dependencies ++ new)).resolve_left hnew
    obtain ⟨edge, -, -, hsource⟩ := mem_edgeDependencies hedges hdnew
    obtain ⟨i, step, hi, -, hid⟩ := batchId?_eq_some hsource
    left
    rw [hid]
    have hx := hfresh (materializeItems_ok hitems).1 _ (mem_newItems.mpr ⟨i, step, hi, rfl⟩)
    rwa [Nat.zero_add] at hx
  | extendWorkflow goalId steps externalWrite actor workId =>
    obtain ⟨goal, plan, workItems, new, dependencies, -, -, -, -, -, -, hitems, hbatch, hdeps, rfl⟩ :=
      extendWorkflow_ok ht
    have htables := refreshGoalStatus_tables goalId (s := ({ s with
      workItems, dependencies } : Store).insertEvent goalId "workflow.extended" actor)
    rw [htables.2.2.2] at hd
    have hds := insertDependencies_ok hdeps
    have hdnew := (List.mem_append.mp (hds ▸ hd : d ∈ s.dependencies ++ new)).resolve_left hnew
    obtain ⟨i, step, hi, -, dep, hdep, hres⟩ := mem_batchDependencies hbatch hdnew
    have hnewItems := (materializeItems_ok hitems).1
    rcases resolveDependency_ok hres with hb | ⟨hnone, p, hp, hpid⟩
    · obtain ⟨j, step', hj, -, hid⟩ := batchId?_eq_some hb
      left
      rw [hid]
      have hx := hfresh (htables.1.trans hnewItems) _ (mem_newItems.mpr ⟨j, step', hj, rfl⟩)
      rwa [Nat.zero_add] at hx
    · -- No new item has the step, so the lookup sees the stored ones only.
      have hnil : (newItems (extendedItem goalId plan.id workId (nextOrdinal goalId s)) 0 steps).filter
          (fun w => w.goalId = goalId ∧ w.stepId = dep) = [] := by
        rw [List.filter_eq_nil_iff]
        intro x hx hstep
        obtain ⟨j, step', hj, rfl⟩ := mem_newItems.mp hx
        have hne := List.findIdx?_eq_none_iff.mp (Option.map_eq_none_iff.mp hnone) step'
          (List.mem_of_getElem? hj)
        rw [decide_eq_false_iff_not] at hne
        exact hne (of_decide_eq_true hstep).2
      have hstored : stepItem? goalId dep s.workItems = some p := by
        rw [← hp, hnewItems, stepItem?, stepItem?, List.filter_append, hnil, List.append_nil]
      refine .inr ⟨p, (stepItem?_eq_some hstored).1, hpid, ?_⟩
      refine List.any_eq_true.mpr ⟨step, List.mem_of_getElem? hi, List.any_eq_true.mpr ⟨dep, hdep, ?_⟩⟩
      rw [hnone, hstored]
      simp
  | claimWork goalId stepId workerId leaseSecs actor leaseToken attemptId now =>
    rcases claimWork_ok ht with rfl | ⟨goal, row, -, -, -, -, rfl⟩ <;> exact absurd hd hnew
  | prepareCheckpoint claim idempotencyKey replaySafe actor checkpointId now =>
    obtain ⟨checkpoint, ht⟩ := prepareCheckpoint_ok ht
    obtain ⟨-, -, -, -, -, rfl | ⟨-, -, -, -, -, rfl⟩⟩ := prepareCheckpointTx_ok ht <;>
      exact absurd hd hnew
  | _ => exact absurd rfl hins

theorem extends_frame (hw : WellFormed s) (ht : s.apply enc t = .ok s') {g f' : WorkItemRow}
    (h : t.extendsFrom s g = true) (hf : f ∈ s.workItems) (hf' : f' ∈ s'.workItems)
    (hid : f'.id = f.id) : f' = f := by
  cases t with
  | extendWorkflow goalId steps externalWrite actor workId =>
    obtain ⟨es, l', hl', hpath, hemits, -⟩ := life_apply hw (hw.life? hf) ht
    obtain ⟨hm, hlid⟩ := life_item hl'
    cases (wellFormed_apply hw ht).item_eq hf' hm (hid.trans hlid.symm)
    cases hpath with
    | nil => rfl
    | cons => exact (hemits _ List.mem_cons_self).elim
  | _ => cases h

theorem stored_of_follows (hw : WellFormed s) (hc : Cascades s t) (ht : s.apply enc t = .ok s')
    {f' : WorkItemRow} (hf' : f' ∈ s'.workItems) (hfailed : f'.status = .failed) {id : String}
    (h : Relation.TransGen (DependsOn s'.dependencies) f'.id id) : ∃ x ∈ s.workItems, x.id = id := by
  -- A dependency of an item that is new is new itself.
  have hsource : ∀ {a b : String}, DependsOn s'.dependencies a b → (¬ ∃ x ∈ s.workItems, x.id = b) →
      (¬ ∃ x ∈ s.workItems, x.id = a) ∨ ∃ g ∈ s.workItems, g.id = a ∧ t.extendsFrom s g = true := by
    intro a b hd hb
    refine source_apply hw ht hd fun hold => hb ?_
    obtain ⟨x, hx, -, -, hid, -⟩ := hw.dependencyItems _ hold
    exact ⟨x, hx, hid⟩
  induction h with
  | single hd =>
    by_contra hb
    rcases hsource hd hb with hnew | ⟨g, hg, hid, hext⟩
    · exact born_not_failed hw ht hf' hnew hfailed
    · cases extends_frame hw ht hext hg hf' hid.symm
      exact (hc f' hg).2 hext ⟨f', hg, hfailed, .inl rfl⟩
  | tail hab hd ih =>
    by_contra hb
    rcases hsource hd hb with hnew | ⟨g, hg, hid, hext⟩
    · exact hnew ih
    · obtain ⟨hold, f, hf, hfid⟩ := dependsOn_old hw ht hab ih
      cases extends_frame hw ht hext hf hf' hfid.symm
      refine (hc g hg).2 hext ⟨f', hf, hfailed, .inr ?_⟩
      rw [Store.Follows, hid]
      exact hold

theorem Txn.Emits.lapse {now : Int} (h : t.Emits s w (.lapse now)) :
    ∃ goalId actor, t = .recoverGoalState goalId actor now ∧ w.goalId = goalId := by
  cases t with
  | recoverGoalState goalId actor now' =>
    obtain ⟨hg, h | h | ⟨c, h⟩⟩ := h
    · cases h
    · cases h
      exact ⟨goalId, actor, rfl, hg⟩
    · cases h
  | resolveWaitingConfirmation | finishAttempt | failAttempt => simp [Txn.Emits] at h
  | cancelGoal | markGoalForReplan | requeueBlockedItems | claimWork | prepareCheckpoint | renewClaim
  | commitCheckpoint | blockWorkItem | deferAttempt | continueAttempt | recordPhaseProgress => cases h.2
  | _ => cases h

theorem Txn.Emits.close {status : WorkItemStatus} (h : t.Emits s w (.close status)) :
    ∃ reason actor, (t = .cancelGoal w.goalId reason actor ∧ status = .failed) ∨
      (t = .markGoalForReplan w.goalId reason actor ∧ status = .canceled) := by
  cases t with
  | cancelGoal goalId reason actor =>
    obtain ⟨rfl, h⟩ := h
    cases h
    exact ⟨reason, actor, .inl ⟨rfl, rfl⟩⟩
  | markGoalForReplan goalId reason actor =>
    obtain ⟨rfl, h⟩ := h
    cases h
    exact ⟨reason, actor, .inr ⟨rfl, rfl⟩⟩
  | recoverGoalState | resolveWaitingConfirmation | finishAttempt | failAttempt => simp [Txn.Emits] at h
  | requeueBlockedItems | claimWork | prepareCheckpoint | renewClaim | commitCheckpoint | blockWorkItem
  | deferAttempt | continueAttempt | recordPhaseProgress => cases h.2
  | _ => cases h

theorem handback_failed {claim : WorkClaim} {now : Int}
    (h : t.handback? s = some (claim, .failed, now)) : ∃ error retryable actor,
      t = .failAttempt claim error retryable actor now ∧ failStatus s claim retryable = .failed := by
  cases t with
  | failAttempt claim' error retryable actor now' =>
    simp only [Txn.handback?, Option.some.injEq, Prod.mk.injEq] at h
    obtain ⟨rfl, hst, rfl⟩ := h
    exact ⟨error, retryable, actor, rfl, hst⟩
  | blockWorkItem | deferAttempt | continueAttempt => simp [Txn.handback?] at h
  | _ => cases h

theorem failAttempt_contains {claim : WorkClaim} {error actor : String} {retryable : Bool} {now : Int}
    (ht : s.apply enc (.failAttempt claim error retryable actor now) = .ok s')
    (hfail : failStatus s claim retryable = .failed) (hwm : w ∈ s'.workItems)
    (hdown : w.id ∈ downstream s.dependencies claim.workItem.id) : w.status ≠ .pending := by
  obtain ⟨-, row, hrow, rfl⟩ := failAttemptTx_ok ht
  have hretry : willRetry s row retryable = false := by
    rw [failStatus, hrow, Option.any_some] at hfail
    by_contra hretry
    rw [if_pos (by simpa using hretry)] at hfail
    cases hfail
  have hitems : w ∈ (blockDownstream claim.workItem.id (releaseClaim claim
      (failRelease row false (takeChars 2000 error) now) s)).workItems := by
    have htables := refreshGoalStatus_tables claim.attempt.goalId
      (s := failed claim row error (willRetry s row retryable) now s)
    have hm : w ∈ (failed claim row error (willRetry s row retryable) now s).workItems := htables.1 ▸ hwm
    rw [failed, hretry] at hm
    exact hm
  obtain ⟨w₀, hw₀, rfl⟩ := mem_updateWhere.mp hitems
  split
  · exact fun h => by cases h
  · rename_i hp
    intro hst
    refine hp ?_
    rw [if_neg hp] at hdown
    rw [Bool.and_eq_true, List.contains_iff_mem, hst]
    exact ⟨hdown, rfl⟩

theorem cancelGoal_contains {goalId reason actor : String}
    (ht : s.apply enc (.cancelGoal goalId reason actor) = .ok s') (hwm : w ∈ s'.workItems)
    (hg : w.goalId = goalId) : w.status ≠ .pending := by
  obtain ⟨goal, error, -, -, rfl⟩ := cancelGoal_ok ht
  obtain ⟨w₀, hw₀, rfl⟩ := mem_updateWhere.mp (show w ∈ closeItems goalId error [.succeeded, .failed]
    .failed s.workItems from hwm)
  split
  · exact fun h => by cases h
  · rename_i hp
    intro hst
    rw [if_neg hp] at hg
    exact hp (decide_eq_true ⟨hg, by rw [hst]; decide⟩)

/-- **A transaction that fails an item** contains the failure. -/
theorem Store.Contained.fails (h : s.Contained) (hw : WellFormed s) (hc : Cascades s t)
    (ht : s.apply enc t = .ok s') (hf : f ∈ s.workItems) (hwm : w ∈ s.workItems)
    (hfollows : s.Follows w f) {f' w' : WorkItemRow} (hf' : f' ∈ s'.workItems) (hfid : f'.id = f.id)
    (hfailed : f'.status = .failed) (hwm' : w' ∈ s'.workItems) (hwid : w'.id = w.id) :
    w'.status ≠ .pending := by
  intro hpending
  have hwp := pending_old hw ht hwm hwm' hwid hpending
  have hne : f.status ≠ .failed := fun hst => h f hf hst w hwm hfollows hwp
  have hl := hw.life? hf
  obtain ⟨es, l', hl', hpath, hemits, -⟩ := life_apply hw hl ht
  obtain ⟨hm, hlid⟩ := life_item hl'
  cases (wellFormed_apply hw ht).item_eq hf' hm (hfid.trans hlid.symm)
  obtain ⟨es₁, e, x, x', hsub, he, hpath₁, hx, hstep, hx'⟩ :=
    hpath.enters (P := fun l => l.item.status = .failed) hne hfailed
  have hcause := hemits e he
  rcases hstep.fails hx hx' with ⟨id, committed, rfl⟩ | ⟨now, rfl, hrun, hlease, hcommitted, hst⟩ |
    ⟨resolution, rfl, hwait, hst⟩ | rfl
  · obtain ⟨claim, now, hb, hitem, -, -⟩ := hcause.release
    obtain ⟨error, retryable, actor, rfl, hfail⟩ := handback_failed hb
    refine failAttempt_contains ht hfail hwm' ?_ hpending
    rw [hwid, ← hitem]
    exact mem_downstream.mpr hfollows
  · obtain ⟨goalId, actor, rfl, hg⟩ := hcause.lapse
    -- Recovery fails an item that still runs, so nothing has moved it before.
    have hxl := hpath₁.unmoved
      (p := fun e => e = .unlock ∨ (∃ now, e = .lapse now) ∨ ∃ c, e = .reconcile c)
      (by
        rintro y e y' (rfl | ⟨now', rfl⟩ | ⟨c, rfl⟩) hstep hst
        · cases hstep
          cases hst
        · cases hstep
          rcases Life.lapse_status y.expired with h | h | h <;> cases h.symm.trans hst
        · cases hstep
          simp only [Life.reconcile] at hst
          split at hst
          · cases hst
          · exact absurd hst (by assumption))
      (fun e he => by
        obtain ⟨-, h | h | h⟩ := hemits e (hsub e he)
        · exact .inl h
        · exact .inr (.inl ⟨now, h⟩)
        · exact .inr (.inr h)) hrun
    subst hxl
    refine (hc f hf).1 ?_ w hwm hfollows hwp
    simp only [Txn.failsQuietly, Bool.and_eq_true, decide_eq_true_eq, List.all_eq_true]
    refine ⟨⟨⟨⟨hg, hrun⟩, hlease⟩, fun c hcm => ?_⟩, ?_⟩
    · by_contra hcom
      simp only [Bool.not_eq_true', Bool.not_eq_false, Bool.and_eq_true, decide_eq_true_eq] at hcom
      exact hcommitted c ((mem_life_checkpoints hl).mpr ⟨hcm, hcom.1⟩) hcom.2
    · rw [expiredRow_eq hw hl]
      exact hst
  · obtain ⟨goalId, reason, actor, now, rfl⟩ := hcause.verdict
    have hxl := hpath₁.unmoved (p := fun e => e = .unlock ∨ e = .verdict resolution)
      (by
        rintro y e y' (rfl | rfl) hstep hst
        · cases hstep
          cases hst
        · cases hstep with
          | verdict a c resolution reason exhausted =>
            rcases Life.verdict_status resolution exhausted with h | h | h <;> cases h.symm.trans hst)
      (fun e he => by
        obtain ⟨-, h | ⟨-, h⟩⟩ := hemits e (hsub e he)
        · exact .inl h
        · exact .inr h) hwait
    subst hxl
    refine (hc f hf).1 ?_ w hwm hfollows hwp
    simp only [Txn.failsQuietly, Bool.and_eq_true, decide_eq_true_eq]
    refine ⟨⟨trivial, hwait⟩, ?_⟩
    rw [← hst, List.filter_filter, Store.attemptCount]
    simp only [Bool.decide_and, Bool.and_comm]
  · obtain ⟨reason, actor, ⟨rfl, -⟩ | ⟨-, h⟩⟩ := hcause.close
    · refine cancelGoal_contains ht hwm' ?_ hpending
      obtain ⟨y, hy, hyo⟩ := item_exec enc (.cancelGoal f.goalId reason actor) hwm
      rw [exec_of_ok ht] at hy
      have hyid := congrArg WorkItemRow.id hyo
      cases (wellFormed_apply hw ht).item_eq hwm' hy (hwid.trans hyid.symm)
      have hyg := congrArg WorkItemRow.goalId hyo
      exact (show w'.goalId = w.goalId from hyg).trans (hfollows.goalId hw hf hwm)
    · cases h

/-- **Every such transaction keeps the failures contained.** -/
theorem contained_exec (hw : WellFormed s) (hc : Cascades s t) (h : s.Contained) :
    (exec enc s t).Contained := by
  refine exec_keeps h fun s' ht f' hf' hfailed w' hwm' hfollows => ?_
  have hstored := stored_of_follows hw hc ht hf' hfailed hfollows
  obtain ⟨hold, f, hf, hfid⟩ := dependsOn_old hw ht hfollows hstored
  obtain ⟨w, hwm, hwid⟩ := hstored
  refine h.fails hw hc ht hf hwm ?_ hf' hfid.symm hfailed hwm' hwid.symm
  rw [Store.Follows, hfid, hwid]
  exact hold

end

/-! ## Runs -/

/-- The run replans the goal. -/
def replans (ts : List Txn) (goalId : String) : Bool :=
  ts.any fun
    | .markGoalForReplan id .. => id = goalId
    | _ => false

theorem Life.Step.cancels {l l' : Life} {e : Life.Event} (h : l.Step e l')
    (hl : l.item.status ≠ .canceled) (hl' : l'.item.status = .canceled) : e = .close .canceled := by
  cases h with
  | unlock | block | requeue | claim => cases hl'
  | renew | progress | prepare | commit => exact absurd hl' hl
  | reconcile c =>
    simp only [Life.reconcile] at hl'
    split at hl'
    · cases hl'
    · exact absurd hl' hl
  | release a r _ hstatus =>
    rcases hstatus with hst | hst | hst <;> cases hst.symm.trans hl'
  | lapse =>
    rcases Life.lapse_status l.expired with hst | hst | hst <;> cases hst.symm.trans hl'
  | verdict a c resolution reason exhausted =>
    rcases Life.verdict_status resolution exhausted with hst | hst | hst <;> cases hst.symm.trans hl'
  | close error attemptError status hstatus =>
    rcases hstatus with rfl | rfl
    · simp only [Life.close] at hl'
      split at hl'
      · exact absurd hl' hl
      · cases hl'
    · rfl

/-- A canceled item was superseded by a replan. -/
theorem replans_of_canceled (enc : Encoding) (ts : List Txn) :
    ∀ w ∈ (Machine.run (exec enc) .empty ts).workItems, w.status = .canceled →
      replans ts w.goalId = true := by
  induction ts using List.reverseRecOn with
  | nil =>
    intro w hw
    cases hw
  | append_singleton ts t ih =>
    have hw := wellFormed_run enc ts
    rw [Machine.run_concat]
    generalize Machine.run (exec enc) .empty ts = s at hw ih
    have hold : ∀ w ∈ s.workItems, w.status = .canceled → replans (ts ++ [t]) w.goalId = true := by
      intro w hwm hst
      rw [replans, List.any_append, Bool.or_eq_true]
      exact .inl (ih w hwm hst)
    refine exec_keeps (I := fun s => ∀ w ∈ s.workItems, w.status = .canceled →
      replans (ts ++ [t]) w.goalId = true) hold fun s' ht w' hwm' hst => ?_
    have hl' := (wellFormed_apply hw ht).life? hwm'
    cases hl : s.life? w'.id with
    | none =>
      rcases (life_born hw ht hl hl').item.status with h | h <;> cases h.symm.trans hst
    | some l =>
      obtain ⟨es, l₁, h₁, hpath, hemits, -⟩ := life_apply hw hl ht
      cases h₁.symm.trans hl'
      have hgoal : w'.goalId = l.item.goalId := hpath.goalId
      rw [hgoal]
      by_cases hcanceled : l.item.status = .canceled
      · exact hold l.item (life_item hl).1 hcanceled
      · obtain ⟨es₁, e, x, x', -, he, -, hx, hstep, hx'⟩ :=
          hpath.enters (P := fun l => l.item.status = .canceled) hcanceled hst
        have hclose := hemits e he
        rw [hstep.cancels hx hx'] at hclose
        obtain ⟨reason, actor, ⟨-, h⟩ | ⟨rfl, -⟩⟩ := hclose.close
        · cases h
        · rw [replans, List.any_append, Bool.or_eq_true]
          exact .inr (by simp)

theorem Store.Ordered.succeeded {s : Store} (ho : s.Ordered) {f : String} {id : String}
    (h : Relation.TransGen (DependsOn s.dependencies) f id) :
    ∀ w ∈ s.workItems, w.id = id → w.isCleared = true → s.HasSucceeded f := by
  induction h with
  | single hd =>
    rintro w hw rfl hc
    exact ho.cleared w hw hc _ hd rfl
  | tail _ hd ih =>
    rintro w hw rfl hc
    obtain ⟨p, hp, hid, hst⟩ := ho.cleared w hw hc _ hd rfl
    exact ih p hp hid (by rw [WorkItemRow.isCleared, hst])

/-- Whatever depends on a failed item is blocked or failed, or was superseded by a replan. -/
def Propagated (superseded : String → Bool) (s : Store) : Prop :=
  ∀ f ∈ s.workItems, f.status = .failed → ∀ w ∈ s.workItems, s.Follows w f →
    w.status = .blocked ∨ w.status = .failed ∨ (w.status = .canceled ∧ superseded w.goalId = true)

instance (superseded : String → Bool) (s : Store) : Decidable (Propagated superseded s) :=
  inferInstanceAs (Decidable (∀ f ∈ s.workItems, f.status = .failed → ∀ w ∈ s.workItems, s.Follows w f →
    w.status = .blocked ∨ w.status = .failed ∨ (w.status = .canceled ∧ superseded w.goalId = true)))

/-- **Failures propagate** in a run that fails no item quietly while a pending one depends on it, and
extends the workflow from no failed branch. -/
theorem failures_propagate (enc : Encoding) (ts : List Txn)
    (h : Machine.Along (exec enc) Cascades .empty ts) :
    Propagated (replans ts) (Machine.run (exec enc) .empty ts) := by
  obtain ⟨hw, ho, hcontained⟩ : WellFormed (Machine.run (exec enc) .empty ts) ∧
      (Machine.run (exec enc) .empty ts).Ordered ∧ (Machine.run (exec enc) .empty ts).Contained :=
    Machine.run_invariant (I := fun s => WellFormed s ∧ s.Ordered ∧ s.Contained)
      (fun s t hG hI => ⟨wellFormed_exec t hI.1, ordered_exec hI.1 t hI.2.1,
        contained_exec hI.1 hG hI.2.2⟩) h
      ⟨wellFormed_empty, Store.ordered_empty, by simp [Store.Contained, Store.empty]⟩
  intro f hf hfailed w hwm hfollows
  have hcleared : w.isCleared ≠ true := by
    intro hc
    obtain ⟨p, hp, hid, hst⟩ := ho.succeeded hfollows w hwm rfl hc
    cases hw.item_eq hp hf hid
    cases hst.symm.trans hfailed
  have hpending := hcontained f hf hfailed w hwm hfollows
  rw [WorkItemRow.isCleared] at hcleared
  cases hst : w.status with
  | pending => exact absurd hst hpending
  | ready | running | waitingConfirmation | succeeded =>
    rw [hst] at hcleared
    exact absurd rfl hcleared
  | blocked => exact .inl rfl
  | failed => exact .inr (.inl rfl)
  | canceled => exact .inr (.inr ⟨rfl, replans_of_canceled enc ts w hwm hst⟩)

namespace Sample

/-- The claim of the first step of `chain`. -/
def chainClaim : WorkClaim :=
  { firstClaim "lease1" "attempt1" with
    workItem := ⟨"first", "goal", .running, "build", "provider_analysis", .read, .object .nil, 1, 0, [],
      none⟩ }

/-- A worker claims the first step of `chain`, on its only attempt. -/
def linked : List Txn :=
  admission chain ++ [.claimWork "goal" none "w1" 300 "runtime:w1" "lease1" "attempt1" 0]

/-- The worker reports a failure. -/
def broken : List Txn := linked ++ [.failAttempt chainClaim "no toolchain" true "runtime:w1" 2]

/-- The worker crashes, and its lease runs out. -/
def stranded : List Txn := linked ++ [.recoverGoalState "goal" "janitor" 301]

end Sample

theorem failures_propagate_broken :
    Propagated (replans Sample.broken) (Machine.run (exec Sample.encoding) .empty Sample.broken) :=
  failures_propagate Sample.encoding Sample.broken (by decide +kernel)

/-- A lease that runs out on the last attempt: the second step stays pending under the failed goal. -/
theorem failure_stranded :
    (Machine.run (exec Sample.encoding) .empty Sample.stranded).goals.map (·.status) = [.failed] ∧
      ¬ Propagated (replans Sample.stranded) (Machine.run (exec Sample.encoding) .empty Sample.stranded) := by
  refine ⟨?_, ?_⟩ <;> decide +kernel

end Xiaomaolv
