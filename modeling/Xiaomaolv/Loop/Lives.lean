import Xiaomaolv.Loop.Life

/-!
# Lives read off the tables

* `Store.life?`: the life of a stored item; `life?_update`: an update by keys, seen from one item.
* `life_unlockReady`, `life_reconcile`, **`life_reconcileAll`**, **`life_lapseAll`**: the shared
  updates move the items they name along events, and no other item.
-/

namespace Xiaomaolv

open Table LoopStore

def Store.life? (s : Store) (id : String) : Option Life :=
  (s.workItem? id).map fun item =>
    { item
      attempts := s.attempts.filter fun a => a.workItemId = id
      checkpoints := s.checkpoints.filter fun c => c.workItemId = id }

variable {s s' : Store} {id : String} {l : Life}

theorem life?_eq_some : s.life? id = some l ↔
    s.workItem? id = some l.item ∧ l.attempts = s.attempts.filter (fun a => a.workItemId = id) ∧
      l.checkpoints = s.checkpoints.filter fun c => c.workItemId = id := by
  unfold Store.life?
  cases hw : s.workItem? id with
  | none => simp
  | some w =>
    simp only [Option.map_some, Option.some.injEq]
    constructor
    · rintro rfl
      exact ⟨rfl, rfl, rfl⟩
    · rintro ⟨rfl, ha, hc⟩
      cases l
      simp_all

theorem life?_eq_none : s.life? id = none ↔ s.workItem? id = none := by
  simp [Store.life?]

section Rows

variable (h : s.life? id = some l)

include h

theorem life_item : l.item ∈ s.workItems ∧ l.item.id = id :=
  workItem?_eq_some (life?_eq_some.mp h).1

theorem attemptCount_life :
    s.attemptCount id = (l.attempts.filter fun a => a.status ≠ .void).length := by
  rw [(life?_eq_some.mp h).2.1, List.filter_filter, Store.attemptCount]
  simp only [Bool.decide_and, Bool.and_comm]

theorem mem_life_attempts {a : AttemptRow} :
    a ∈ l.attempts ↔ a ∈ s.attempts ∧ a.workItemId = id := by
  rw [(life?_eq_some.mp h).2.1, List.mem_filter, decide_eq_true_eq]

theorem mem_life_checkpoints {c : CheckpointRow} :
    c ∈ l.checkpoints ↔ c ∈ s.checkpoints ∧ c.workItemId = id := by
  rw [(life?_eq_some.mp h).2.2, List.mem_filter, decide_eq_true_eq]

end Rows

theorem WellFormed.life? (hw : WellFormed s) {w : WorkItemRow} (h : w ∈ s.workItems) :
    s.life? w.id = some
      ⟨w, s.attempts.filter fun a => a.workItemId = w.id,
        s.checkpoints.filter fun c => c.workItemId = w.id⟩ := by
  rw [life?_eq_some]
  exact ⟨hw.workItem? h, rfl, rfl⟩

theorem WellFormed.attempt_item (hw : WellFormed s) {c : CheckpointRow} (hc : c ∈ s.checkpoints)
    {a : AttemptRow} (ha : a ∈ s.attempts) (he : a.id = c.attemptId) :
    a.workItemId = c.workItemId ∧ a.goalId = c.goalId := by
  obtain ⟨a', ha', hid, h₁, h₂⟩ := hw.checkpointAttempt c hc
  cases hw.attempt_eq ha ha' (he.trans hid.symm)
  exact ⟨h₁, h₂⟩

theorem WellFormed.life_goal (hw : WellFormed s) (h : s.life? id = some l) {a : AttemptRow}
    (ha : a ∈ l.attempts) : a.goalId = l.item.goalId := by
  obtain ⟨hmem, hid⟩ := life_item h
  obtain ⟨ham, hai⟩ := (mem_life_attempts h).mp ha
  obtain ⟨w, hwm, hwi, hwg⟩ := hw.attemptItem a ham
  cases hw.item_eq hwm hmem (hwi.trans (hai.trans hid.symm))
  exact hwg.symm

theorem WellFormed.life_checkpoint (hw : WellFormed s) (h : s.life? id = some l)
    {c : CheckpointRow} (hc : c ∈ l.checkpoints) :
    c.goalId = l.item.goalId ∧ ∃ a ∈ l.attempts, a.id = c.attemptId := by
  obtain ⟨hcm, hci⟩ := (mem_life_checkpoints h).mp hc
  obtain ⟨a, ham, hai, haw, hag⟩ := hw.checkpointAttempt c hcm
  have ha : a ∈ l.attempts := (mem_life_attempts h).mpr ⟨ham, haw.trans hci⟩
  exact ⟨hag.symm.trans (hw.life_goal h ha), a, ha, hai⟩

/-! ## Updates -/

theorem life?_update {p : WorkItemRow → Bool} {f : WorkItemRow → WorkItemRow}
    {q : AttemptRow → Bool} {g : AttemptRow → AttemptRow} {r : CheckpointRow → Bool}
    {k : CheckpointRow → CheckpointRow} (hi : s'.workItems = updateWhere p f s.workItems)
    (ha : s'.attempts = updateWhere q g s.attempts)
    (hc : s'.checkpoints = updateWhere r k s.checkpoints) (hf : ∀ w, (f w).id = w.id)
    (hg : ∀ a, (g a).workItemId = a.workItemId) (hk : ∀ c, (k c).workItemId = c.workItemId) :
    s'.life? id = (s.life? id).map fun l =>
      ⟨if p l.item then f l.item else l.item, updateWhere q g l.attempts,
        updateWhere r k l.checkpoints⟩ := by
  unfold Store.life? Store.workItem?
  rw [hi, ha, hc, find?_updateWhere (fun w _ => by simp only [hf]), filter_updateWhere (fun a _ => by simp only [hg]),
    filter_updateWhere (fun c _ => by simp only [hk]), Option.map_map, Option.map_map]
  rfl

theorem life?_updateAttempts {p : WorkItemRow → Bool} {f : WorkItemRow → WorkItemRow}
    {q : AttemptRow → Bool} {g : AttemptRow → AttemptRow}
    (hi : s'.workItems = updateWhere p f s.workItems)
    (ha : s'.attempts = updateWhere q g s.attempts) (hc : s'.checkpoints = s.checkpoints)
    (hf : ∀ w, (f w).id = w.id) (hg : ∀ a, (g a).workItemId = a.workItemId) :
    s'.life? id = (s.life? id).map fun l =>
      ⟨if p l.item then f l.item else l.item, updateWhere q g l.attempts, l.checkpoints⟩ := by
  unfold Store.life? Store.workItem?
  rw [hi, ha, hc, find?_updateWhere (fun w _ => by simp only [hf]), filter_updateWhere (fun a _ => by simp only [hg]),
    Option.map_map, Option.map_map]
  rfl

theorem life?_updateItems {p : WorkItemRow → Bool} {f : WorkItemRow → WorkItemRow}
    (hi : s'.workItems = updateWhere p f s.workItems) (ha : s'.attempts = s.attempts)
    (hc : s'.checkpoints = s.checkpoints) (hf : ∀ w, (f w).id = w.id) :
    s'.life? id = (s.life? id).map fun l =>
      { l with item := if p l.item then f l.item else l.item } := by
  unfold Store.life? Store.workItem?
  rw [hi, ha, hc, find?_updateWhere (fun w _ => by simp only [hf]), Option.map_map, Option.map_map]
  rfl

theorem life?_congr (hi : s'.workItems = s.workItems) (ha : s'.attempts = s.attempts)
    (hc : s'.checkpoints = s.checkpoints) : s'.life? id = s.life? id := by
  unfold Store.life? Store.workItem?
  rw [hi, ha, hc]

@[simp] theorem life?_insertEvent {goalId eventType actor : String} :
    (s.insertEvent goalId eventType actor).life? id = s.life? id := rfl

@[simp] theorem life?_setGoalStatus {goalId : String} {status : GoalStatus} :
    (s.setGoalStatus goalId status).life? id = s.life? id := rfl

theorem refreshGoalStatus_tables (goalId : String) :
    (s.refreshGoalStatus goalId).workItems = s.workItems ∧
      (s.refreshGoalStatus goalId).attempts = s.attempts ∧
      (s.refreshGoalStatus goalId).checkpoints = s.checkpoints ∧
      (s.refreshGoalStatus goalId).dependencies = s.dependencies := by
  unfold Store.refreshGoalStatus
  split <;> exact ⟨rfl, rfl, rfl, rfl⟩

@[simp] theorem life?_refreshGoalStatus {goalId : String} :
    (s.refreshGoalStatus goalId).life? id = s.life? id :=
  life?_congr (refreshGoalStatus_tables goalId).1 (refreshGoalStatus_tables goalId).2.1
    (refreshGoalStatus_tables goalId).2.2.1

/-! ## The shared updates -/

section Shared

variable (hw : WellFormed s) (h : s.life? id = some l)

include h

theorem life_unlockReady (goalId : String) :
    (s.unlockReady goalId).life? id =
      some (if s.isUnlockable goalId l.item then l.withStatus .ready else l) := by
  have hu : (s.unlockReady goalId).life? id = _ :=
    life?_updateItems rfl rfl rfl fun _ => rfl
  rw [hu, h, Option.map_some]
  split <;> rfl

theorem life_blockDownstream (itemId : String) :
    (blockDownstream itemId s).life? id =
      some (if (downstream s.dependencies itemId).contains l.item.id &&
        (l.item.status = .pending || l.item.status = .ready) then l.withStatus .blocked else l) := by
  have hu : (blockDownstream itemId s).life? id = _ :=
    life?_updateItems rfl rfl rfl fun _ => rfl
  rw [hu, h, Option.map_some]
  split <;> rfl

include hw

theorem life_reconcile {c : CheckpointRow} (hc : c ∈ s.checkpoints) :
    (s.reconcile c).life? id = some (if c.workItemId = id then l.reconcile c else l) := by
  have hu : (s.reconcile c).life? id = _ :=
    life?_update rfl rfl rfl (fun _ => rfl) (fun _ => rfl) fun _ => rfl
  rw [hu, h, Option.map_some]
  have hid := (life_item h).2
  by_cases he : c.workItemId = id
  · simp [he, hid, Life.reconcile]
  · have hitem : ¬ (l.item.id = c.workItemId ∧ l.item.status = .running) :=
      fun h' => he (h'.1.symm.trans hid)
    rw [if_neg he, if_neg (by simpa using hitem), updateWhere_eq_self, updateWhere_eq_self]
    · intro x hx
      obtain ⟨hxm, hxi⟩ := (mem_life_checkpoints h).mp hx
      have hne : x.id ≠ c.id := fun hxc => he (hw.checkpoint_eq hxm hc hxc ▸ hxi)
      simp [hne]
    · intro a ha
      obtain ⟨ham, hai⟩ := (mem_life_attempts h).mp ha
      have hne : a.id ≠ c.attemptId := fun hac => he ((hw.attempt_item hc ham hac).1.symm.trans hai)
      simp [hne]

theorem no_foreign_attempt {c : CheckpointRow} (hc : c ∈ l.checkpoints) {itemId : String}
    (hne : itemId ≠ id) :
    (s.attempts.any fun a => a.id = c.attemptId ∧ a.workItemId = itemId ∧ a.status.isLive)
      = false := by
  obtain ⟨hcm, hci⟩ := (mem_life_checkpoints h).mp hc
  rw [List.any_eq_false]
  intro a ha
  simp only [decide_eq_true_eq, not_and]
  intro hai hrow
  exact absurd (hrow.symm.trans ((hw.attempt_item hcm ha hai).1.trans hci)) hne

theorem life_lapse_ne {now : Int} {row : ExpiredRow} (he : row.id ≠ id) :
    (lapse now s row).life? id = some l := by
  have hid := (life_item h).2
  have hitem : ¬ (l.item.id = row.id ∧ l.item.status = .running) :=
    fun h' => he (h'.1.symm.trans hid)
  have hattempts : ∀ a ∈ l.attempts, decide (a.workItemId = row.id ∧ a.status.isLive) = false := by
    intro a ha
    simp [((mem_life_attempts h).mp ha).2, Ne.symm he]
  by_cases hpark : row.parked = true
  · have hu : (lapse now s row).life? id = _ :=
      life?_updateAttempts rfl rfl (if_pos hpark) (fun _ => rfl) fun _ => rfl
    rw [hu, h, Option.map_some, if_neg (by simpa using hitem), updateWhere_eq_self hattempts]
  · have hu : (lapse now s row).life? id = _ :=
      life?_update rfl rfl (if_neg hpark) (fun _ => rfl) (fun _ => rfl) fun _ => rfl
    rw [hu, h, Option.map_some, if_neg (by simpa using hitem), updateWhere_eq_self hattempts,
      updateWhere_eq_self]
    intro c hc
    rw [no_foreign_attempt hw h hc he, Bool.and_false]

theorem isLivePrepared_eq {c : CheckpointRow} (hc : c ∈ l.checkpoints) :
    isLivePrepared s id c = l.isLivePrepared c := by
  obtain ⟨hcm, hci⟩ := (mem_life_checkpoints h).mp hc
  have hany : (s.attempts.any fun a => a.id = c.attemptId ∧ a.status.isLive)
      = l.attempts.any fun a => a.id = c.attemptId ∧ a.status.isLive := by
    rw [Bool.eq_iff_iff, List.any_eq_true, List.any_eq_true]
    constructor
    · rintro ⟨a, ha, he⟩
      simp only [decide_eq_true_eq] at he
      have hai := (hw.attempt_item hcm ha he.1).1.trans hci
      exact ⟨a, (mem_life_attempts h).mpr ⟨ha, hai⟩, by simpa using he⟩
    · rintro ⟨a, ha, he⟩
      exact ⟨a, ((mem_life_attempts h).mp ha).1, he⟩
  rw [isLivePrepared, Life.isLivePrepared, hany]
  simp [hci]

theorem expiredRow_eq : expiredRow s l.item = l.expired := by
  have hid := (life_item h).2
  have hcount := attemptCount_life h
  have hprep : ∀ k : CheckpointRow → Bool, (s.checkpoints.any fun c => isLivePrepared s id c && k c)
      = l.checkpoints.any fun c => l.isLivePrepared c && k c := by
    intro k
    rw [Bool.eq_iff_iff, List.any_eq_true, List.any_eq_true]
    constructor
    · rintro ⟨c, hc, hp⟩
      have hci : c.workItemId = id := by
        simp only [isLivePrepared, Bool.and_eq_true, decide_eq_true_eq] at hp
        exact hp.1.1.1
      have hcl := (mem_life_checkpoints h).mpr ⟨hc, hci⟩
      exact ⟨c, hcl, by rwa [isLivePrepared_eq hw h hcl] at hp⟩
    · rintro ⟨c, hc, hp⟩
      exact ⟨c, ((mem_life_checkpoints h).mp hc).1, by rwa [isLivePrepared_eq hw h hc]⟩
  have hone := hprep fun _ => true
  simp only [Bool.and_true] at hone
  simp only [expiredRow, Life.expired, hid, hprep, hone, hcount]

omit hw in
theorem life_lapse_eq {now : Int} {row : ExpiredRow} (he : row.id = id)
    (hrow : row = l.expired) (hrun : l.item.status = .running) :
    (lapse now s row).life? id = some (l.lapse now) := by
  have hid := (life_item h).2
  have hattempts : ∀ a ∈ l.attempts,
      decide (a.workItemId = row.id ∧ a.status.isLive) = decide (a.status.isLive = true) := by
    intro a ha
    simp [((mem_life_attempts h).mp ha).2, he]
  have hq : updateWhere (fun a => decide (a.workItemId = row.id ∧ a.status.isLive))
      (fun a => { a with status := row.attemptStatus, error := some row.error }) l.attempts
      = (l.lapse now).attempts := by
    rw [Life.lapse, ← hrow]
    exact updateWhere_congr fun a ha => by simp only [hattempts a ha, decide_eq_true_eq]
  by_cases hpark : row.parked = true
  · have hu : (lapse now s row).life? id = _ :=
      life?_updateAttempts rfl rfl (if_pos hpark) (fun _ => rfl) fun _ => rfl
    rw [hu, h, Option.map_some, if_pos (by simp [hid, he, hrun]), hq]
    simp [Life.lapse, ← hrow, hpark]
  · have hu : (lapse now s row).life? id = _ :=
      life?_update rfl rfl (if_neg hpark) (fun _ => rfl) (fun _ => rfl) fun _ => rfl
    rw [hu, h, Option.map_some, if_pos (by simp [hid, he, hrun]), hq]
    have hpred : (fun c : CheckpointRow => c.phase = .prepared && s.attempts.any fun a =>
        a.id = c.attemptId ∧ a.workItemId = row.id ∧ a.status.isLive) = l.isLivePrepared := by
      funext c
      rw [Life.isLivePrepared, (life?_eq_some.mp h).2.1, List.any_filter, he]
      congr 2
      funext a
      by_cases h₁ : a.workItemId = id <;> simp [h₁]
    rw [hpred]
    simp [Life.lapse, ← hrow, hpark]

end Shared

/-! ## Current claims -/

section Claims

variable {now : Int} {claim : WorkClaim} (hw : WellFormed s) (h : s.life? id = some l)
  (hcur : s.claimCurrent now claim = true)

include hw hcur

theorem claimCurrent_item {a : AttemptRow} (ha : a ∈ s.attempts) (he : a.id = claim.attempt.id) :
    a.workItemId = claim.workItem.id := by
  obtain ⟨w, -, a', ha', hwi, -, -, -, -, -, haw, hai, -⟩ := claimCurrent_iff.mp hcur
  cases hw.attempt_eq ha ha' (he.trans hai.symm)
  exact haw.trans hwi

include h

theorem claimCurrent_holds (hid : claim.workItem.id = id) :
    ∃ a, l.Holds a ∧ a.id = claim.attempt.id ∧ l.item.goalId = claim.attempt.goalId ∧
      ∃ leaseUntil, l.item.leaseUntil = some leaseUntil ∧ now ≤ leaseUntil := by
  obtain ⟨w, hwm, a, ham, hwi, hwg, hrun, htok, hfen, hlease, haw, hai, hat, haf, hlive⟩ :=
    claimCurrent_iff.mp hcur
  obtain ⟨hmem, hlid⟩ := life_item h
  cases hw.item_eq hwm hmem (hwi.trans (hid.trans hlid.symm))
  refine ⟨a, ⟨(mem_life_attempts h).mpr ⟨ham, haw.trans hlid⟩, hlive, hrun, ?_, ?_⟩, hai, hwg, hlease⟩
  · rw [htok, hat]
  · rw [hfen, haf]

theorem claimCurrent_frame (hne : claim.workItem.id ≠ id) :
    (∀ a ∈ l.attempts, a.id ≠ claim.attempt.id) ∧
      ∀ c ∈ l.checkpoints, c.attemptId ≠ claim.attempt.id := by
  have hattempts : ∀ a ∈ l.attempts, a.id ≠ claim.attempt.id := by
    intro a ha he
    obtain ⟨ham, hai⟩ := (mem_life_attempts h).mp ha
    exact hne ((claimCurrent_item hw hcur ham he).symm.trans hai)
  refine ⟨hattempts, fun c hc he => ?_⟩
  obtain ⟨-, a, ha, hai⟩ := hw.life_checkpoint h hc
  exact hattempts a ha (hai.trans he)

end Claims

/-! ## Recovery -/

/-- The committed checkpoints of a list, reconciled one after the other. -/
theorem life_reconciles {cs : List CheckpointRow} (hnd : (cs.map (·.id)).Nodup)
    (hcs : ∀ c ∈ cs, c ∈ s.checkpoints ∧ c.phase = .committed) (hw : WellFormed s)
    (h : s.life? id = some l) : ∃ es l', (cs.foldl Store.reconcile s).life? id = some l' ∧
      Life.Path l es l' ∧ ∀ e ∈ es, ∃ c ∈ cs, c.workItemId = id ∧ e = .reconcile c.id := by
  induction cs generalizing s l with
  | nil => exact ⟨[], l, h, .nil l, by simp⟩
  | cons c cs ih =>
    rw [List.map_cons, List.nodup_cons] at hnd
    obtain ⟨hc, hphase⟩ := hcs c List.mem_cons_self
    have hrest : ∀ c' ∈ cs, c' ∈ (s.reconcile c).checkpoints ∧ c'.phase = .committed := by
      intro c' hc'
      obtain ⟨hmem, hp⟩ := hcs c' (List.mem_cons_of_mem _ hc')
      have hne : c'.id ≠ c.id := fun he => hnd.1 (he ▸ List.mem_map_of_mem hc')
      exact ⟨mem_updateWhere.mpr ⟨c', hmem, if_neg (by simp [hne])⟩, hp⟩
    obtain ⟨es, l', hl', hpath, hes⟩ := ih hnd.2 hrest
      (wellFormed_of_origin (origin_reconcile s c) hw) (life_reconcile hw h hc)
    have hes' : ∀ e ∈ es, ∃ c' ∈ c :: cs, c'.workItemId = id ∧ e = .reconcile c'.id := by
      intro e he
      obtain ⟨c', hc', h'⟩ := hes e he
      exact ⟨c', List.mem_cons_of_mem _ hc', h'⟩
    rw [List.foldl_cons]
    by_cases he : c.workItemId = id
    · rw [if_pos he] at hpath
      have hcl := (mem_life_checkpoints h).mpr ⟨hc, he⟩
      refine ⟨.reconcile c.id :: es, l', hl', .cons (.reconcile c hcl hphase) hpath, ?_⟩
      intro e hmem
      rcases List.mem_cons.mp hmem with rfl | hmem
      · exact ⟨c, List.mem_cons_self, he, rfl⟩
      · exact hes' e hmem
    · rw [if_neg he] at hpath
      exact ⟨es, l', hl', hpath, hes'⟩

theorem nodup_committedCheckpoints (hw : WellFormed s) (goalId : String) :
    ((committedCheckpoints goalId s).map (·.id)).Nodup :=
  hw.checkpointIds.sublist (List.filter_sublist.map _)

theorem mem_committedCheckpoints {goalId : String} {c : CheckpointRow} :
    c ∈ committedCheckpoints goalId s ↔
      c ∈ s.checkpoints ∧ c.goalId = goalId ∧ c.phase = .committed := by
  rw [committedCheckpoints, List.mem_filter, decide_eq_true_eq]

theorem life_reconcileAll (hw : WellFormed s) (h : s.life? id = some l) (goalId : String) :
    ∃ es l', (reconcileAll goalId s).life? id = some l' ∧ Life.Path l es l' ∧
      ∀ e ∈ es, l.item.goalId = goalId ∧ ∃ c, e = .reconcile c := by
  obtain ⟨es, l', hl', hpath, hes⟩ := life_reconciles (nodup_committedCheckpoints hw goalId)
    (fun _ hc => ⟨(mem_committedCheckpoints.mp hc).1, (mem_committedCheckpoints.mp hc).2.2⟩) hw h
  refine ⟨es, l', hl', hpath, fun e he => ?_⟩
  obtain ⟨c, hc, hci, rfl⟩ := hes e he
  obtain ⟨hcm, hcg, -⟩ := mem_committedCheckpoints.mp hc
  have hcl := (mem_life_checkpoints h).mpr ⟨hcm, hci⟩
  exact ⟨(hw.life_checkpoint h hcl).1.symm.trans hcg, c.id, rfl⟩

theorem reconcileAll_committed {goalId : String} :
    ∀ c ∈ (reconcileAll goalId s).checkpoints, c.goalId = goalId → c.phase ≠ .committed := by
  have hloop : ∀ (cs : List CheckpointRow) (s : Store),
      (∀ c ∈ s.checkpoints, c.goalId = goalId → c.phase = .committed → c ∈ cs) →
      ∀ c ∈ (cs.foldl Store.reconcile s).checkpoints, c.goalId = goalId → c.phase ≠ .committed := by
    intro cs
    induction cs with
    | nil =>
      intro s hs c hc hg hp
      cases hs c hc hg hp
    | cons x cs ih =>
      intro s hs
      refine ih (s.reconcile x) fun c hc hg hp => ?_
      obtain ⟨c₀, hc₀, rfl⟩ := mem_updateWhere.mp hc
      by_cases hx : c₀.id = x.id ∧ c₀.phase = .committed
      · rw [if_pos (by simpa using hx)] at hp
        cases hp
      · rw [if_neg (by simpa using hx)] at hg hp ⊢
        rcases List.mem_cons.mp (hs c₀ hc₀ hg hp) with rfl | hmem
        · exact absurd ⟨rfl, hp⟩ hx
        · exact hmem
  exact hloop _ s fun c hc hg hp => mem_committedCheckpoints.mpr ⟨hc, hg, hp⟩

theorem life?_lapse_ne (hw : WellFormed s) {now : Int} {row : ExpiredRow} (he : row.id ≠ id) :
    (lapse now s row).life? id = s.life? id := by
  cases h : s.life? id with
  | some l => exact life_lapse_ne hw h he
  | none =>
    rw [life?_eq_none, workItem?_eq_none] at h ⊢
    rwa [itemIds_of_origin (origin_lapse s now row)]

theorem mem_expiredRows {goalId : String} {now : Int} {row : ExpiredRow} :
    row ∈ expiredRows goalId now s ↔ ∃ w ∈ s.workItems, w.goalId = goalId ∧ w.status = .running ∧
      leaseExpired now w = true ∧ row = expiredRow s w := by
  simp only [expiredRows, List.mem_map, List.mem_filter, Bool.and_eq_true, decide_eq_true_eq]
  constructor
  · rintro ⟨w, ⟨hw, ⟨hg, hs⟩, hl⟩, rfl⟩
    exact ⟨w, hw, hg, hs, hl, rfl⟩
  · rintro ⟨w, hw, hg, hs, hl, rfl⟩
    exact ⟨w, ⟨hw, ⟨hg, hs⟩, hl⟩, rfl⟩

theorem nodup_expiredRows (hw : WellFormed s) (goalId : String) (now : Int) :
    ((expiredRows goalId now s).map (·.id)).Nodup := by
  have hid : (expiredRows goalId now s).map (·.id) = (s.workItems.filter fun w =>
      (w.goalId = goalId ∧ w.status = .running) && leaseExpired now w).map (·.id) := by
    rw [expiredRows, List.map_map]
    rfl
  rw [hid]
  exact hw.itemIds.sublist (List.filter_sublist.map _)

theorem life_lapseAll (hw : WellFormed s) (h : s.life? id = some l) (goalId : String) (now : Int) :
    (lapseAll goalId now s).life? id = some
      (if l.item.goalId = goalId ∧ l.item.status = .running ∧ leaseExpired now l.item = true
        then l.lapse now else l) := by
  obtain ⟨hmem, hid⟩ := life_item h
  have hI : ∀ s row, WellFormed s → WellFormed (lapse now s row) :=
    fun s row hw => wellFormed_of_origin (origin_lapse s now row) hw
  have hframe : ∀ row ∈ expiredRows goalId now s, row.id ≠ id →
      ∀ s, WellFormed s → (lapse now s row).life? id = s.life? id :=
    fun row _ hne s hw => life?_lapse_ne hw hne
  by_cases he : l.item.goalId = goalId ∧ l.item.status = .running ∧ leaseExpired now l.item = true
  · have hrow : expiredRow s l.item ∈ expiredRows goalId now s :=
      mem_expiredRows.mpr ⟨l.item, hmem, he.1, he.2.1, he.2.2, rfl⟩
    obtain ⟨s₁, -, h₁, h₂⟩ := foldl_once ExpiredRow.id (π := fun s => s.life? id) hI hw
      (nodup_expiredRows hw goalId now) hrow
      (fun row hr hne => hframe row hr (fun e => hne (e.trans hid.symm)))
    rw [if_pos he, lapseAll, h₂]
    exact life_lapse_eq (h₁.trans h) hid (expiredRow_eq hw h) he.2.1
  · rw [if_neg he, lapseAll]
    rw [foldl_frame (π := fun s => s.life? id) hI hw fun row hr => hframe row hr ?_]
    · exact h
    · rintro rfl
      obtain ⟨w, hwm, hg, hs, hl, hrow⟩ := mem_expiredRows.mp hr
      have hwl : w = l.item := hw.item_eq hwm hmem (by rw [hid, hrow]; rfl)
      exact he (hwl ▸ ⟨hg, hs, hl⟩)

end Xiaomaolv
