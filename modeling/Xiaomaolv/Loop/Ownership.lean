import Xiaomaolv.Loop.Refine

/-!
# Who owns a work item

* `Life.Sequenced`: the attempts of an item carry growing numbers and fencing tokens, and a running
  item has a lease. Every event keeps it (`Step.sequenced`).
* `Life.Owned`: a live attempt owns the running item, a running item has a live attempt, and an item
  with a settled checkpoint is over or still owned by the attempt that committed. Every event keeps
  it but one: handing back an item whose attempt has committed (`Life.Event.Settles`, `Step.owned`).
* `Life.Tracked`: a checkpoint of a live attempt is prepared or committed (`Step.tracked`).
* **`sound_exec`**: a transaction keeps all three of every item, unless it hands back a committed one
  (`KeepsCommit`).
-/

namespace Xiaomaolv

open Table LoopStore

/-- The status that no transaction of the item leaves. -/
def WorkItemStatus.isFinal : WorkItemStatus → Bool
  | succeeded | failed | canceled => true
  | _ => false

/-- The checkpoint's effect is recorded for good. -/
def CheckpointPhase.isSettled : CheckpointPhase → Bool
  | committed | reconciled => true
  | _ => false

/-- What orders the attempts of an item. -/
def AttemptRow.order (a : AttemptRow) : Nat × Nat := (a.attemptNumber, a.fencingToken)

namespace Life

variable {l l' : Life} {e : Event} {a b : AttemptRow}

theorem Step.final (h : l.Step e l') (hf : l.item.status.isFinal = true) :
    l'.item.status.isFinal = true := by
  have hne : ∀ st : WorkItemStatus, st.isFinal = false → l.item.status ≠ st := by
    intro st hst heq
    rw [heq, hst] at hf
    cases hf
  cases h with
  | unlock h => exact absurd h (hne _ rfl)
  | block h => exact absurd h (not_or.mpr ⟨hne _ rfl, hne _ rfl⟩)
  | requeue h => exact absurd h (hne _ rfl)
  | claim _ _ h => exact absurd h (hne _ rfl)
  | renew _ h => exact absurd h (hne _ rfl)
  | progress _ _ h | prepare _ _ h | commit _ _ _ h | release _ _ h =>
    exact absurd h.running (hne _ rfl)
  | reconcile c =>
    simp only [Life.reconcile]
    split
    · rfl
    · exact hf
  | lapse _ h => exact absurd h (hne _ rfl)
  | verdict _ _ _ _ _ _ h => exact absurd h (hne _ rfl)
  | close error attemptError status h =>
    simp only [Life.close]
    split
    · exact hf
    · rcases h with rfl | rfl <;> rfl

/-! ## The order of the attempts -/

/-- Attempts in the order of their numbers and fencing tokens, the last token being the item's. -/
structure Sequenced (l : Life) : Prop where
  increasing : (l.attempts.map (·.order)).Pairwise fun p q => p.1 < q.1 ∧ p.2 < q.2
  bound : ∀ p ∈ l.attempts.map (·.order), p.1 ≤ l.attempts.length ∧ p.2 ≤ l.item.fencingToken
  leased : l.item.status = .running → l.item.leaseUntil ≠ none

theorem sequenced_new (h : l.IsNew) : l.Sequenced where
  increasing := by rw [h.attempts]; exact .nil
  bound := by rw [h.attempts]; simp
  leased := by
    intro hrun
    rcases h.item.status with hst | hst <;> rw [hst] at hrun <;> cases hrun

/-- Every event but a claim keeps the order column and the item's token. -/
theorem Step.order (h : l.Step e l') :
    (∃ a, e = .claim a.id ∧ l'.attempts = l.attempts ++ [a] ∧
      a.attemptNumber = l.attempts.length + 1 ∧ a.fencingToken = l.item.fencingToken + 1 ∧
      l'.item.fencingToken = l.item.fencingToken + 1) ∨
    (l'.attempts.map (·.order) = l.attempts.map (·.order) ∧
      l'.item.fencingToken = l.item.fencingToken) := by
  cases h with
  | claim a leaseUntil _ _ _ _ _ _ hfencing hnumber =>
    exact .inl ⟨a, rfl, rfl, hnumber, hfencing, rfl⟩
  | commit a c outcome =>
    refine .inr ⟨?_, rfl⟩
    refine map_updateWhere ?_ _
    exact fun _ => rfl
  | reconcile c =>
    refine .inr ⟨?_, ?_⟩
    · refine map_updateWhere ?_ _
      exact fun _ => rfl
    · simp only [Life.reconcile]
      split <;> rfl
  | release a r =>
    refine .inr ⟨?_, rfl⟩
    refine map_updateWhere ?_ _
    exact fun _ => rfl
  | lapse now =>
    refine .inr ⟨?_, rfl⟩
    refine map_updateWhere ?_ _
    exact fun _ => rfl
  | verdict a c resolution reason exhausted now =>
    refine .inr ⟨?_, rfl⟩
    refine map_updateWhere ?_ _
    exact fun _ => rfl
  | close error attemptError status =>
    refine .inr ⟨?_, ?_⟩
    · refine map_updateWhere ?_ _
      exact fun _ => rfl
    · simp only [Life.close]
      split <;> rfl
  | _ => exact .inr ⟨rfl, rfl⟩

theorem Step.attemptIds (h : l.Step e l') :
    l'.attempts.map (·.id) = l.attempts.map (·.id) ∨ l.item.status = .ready := by
  cases h with
  | claim _ _ h => exact .inr h
  | commit | reconcile | release | lapse | verdict | close =>
    refine .inl (map_updateWhere ?_ _)
    exact fun _ => rfl
  | _ => exact .inl rfl

theorem lapse_status (row : ExpiredRow) :
    row.workStatus = .waitingConfirmation ∨ row.workStatus = .failed ∨ row.workStatus = .ready := by
  unfold ExpiredRow.workStatus
  split
  · exact .inl rfl
  · split
    · exact .inr (.inl rfl)
    · exact .inr (.inr rfl)

theorem verdict_status (resolution : ConfirmationResolution) (exhausted : Bool) :
    resolution.itemStatus exhausted = .succeeded ∨ resolution.itemStatus exhausted = .failed ∨
      resolution.itemStatus exhausted = .ready := by
  cases resolution <;> cases exhausted <;> simp [ConfirmationResolution.itemStatus]

theorem Step.leased (h : l.Step e l') (hl : l.item.status = .running → l.item.leaseUntil ≠ none)
    (hrun : l'.item.status = .running) : l'.item.leaseUntil ≠ none := by
  cases h with
  | unlock | block | requeue => cases hrun
  | claim | renew => exact Option.some_ne_none _
  | progress | prepare | commit => exact hl hrun
  | reconcile c =>
    simp only [Life.reconcile] at hrun ⊢
    split at hrun
    · cases hrun
    · rename_i hne
      exact absurd hrun hne
  | release a r _ hstatus =>
    rcases hstatus with hst | hst | hst <;> cases hst.symm.trans hrun
  | lapse =>
    rcases lapse_status l.expired with hst | hst | hst <;> cases hst.symm.trans hrun
  | verdict a c resolution reason exhausted now =>
    rcases verdict_status resolution exhausted with hst | hst | hst <;> cases hst.symm.trans hrun
  | close error attemptError status hstatus =>
    simp only [Life.close] at hrun ⊢
    split at hrun
    · rename_i hkept
      rcases hstatus with rfl | rfl <;> rw [hrun] at hkept <;> simp at hkept
    · rcases hstatus with rfl | rfl <;> cases hrun

theorem Step.sequenced (h : l.Step e l') (hl : l.Sequenced) : l'.Sequenced := by
  refine ⟨?_, ?_, h.leased hl.leased⟩
  · rcases h.order with ⟨a, -, ha, hnumber, hfencing, -⟩ | ⟨horder, -⟩
    · rw [ha, List.map_append, List.pairwise_append]
      refine ⟨hl.increasing, List.pairwise_singleton _ _, fun p hp q hq => ?_⟩
      rw [List.map_singleton, List.mem_singleton] at hq
      have hb := hl.bound p hp
      rw [hq]
      simp only [AttemptRow.order]
      omega
    · rw [horder]
      exact hl.increasing
  · rcases h.order with ⟨a, -, ha, hnumber, hfencing, hitem⟩ | ⟨horder, hitem⟩
    · intro p hp
      rw [ha, List.map_append, List.mem_append, List.map_singleton, List.mem_singleton] at hp
      rw [ha, List.length_append, List.length_singleton, hitem]
      rcases hp with hp | rfl
      · have hb := hl.bound p hp
        omega
      · simp only [AttemptRow.order]
        omega
    · have hlen : l'.attempts.length = l.attempts.length := by
        simpa using congrArg List.length horder
      rw [horder, hitem, hlen]
      exact hl.bound

theorem Sequenced.eq_of_fencing (hl : l.Sequenced) (ha : a ∈ l.attempts) (hb : b ∈ l.attempts)
    (h : a.fencingToken = b.fencingToken) : a = b := by
  have hk : (l.attempts.map (·.fencingToken)).Nodup :=
    List.pairwise_map.mpr ((List.pairwise_map.mp hl.increasing).imp fun h => Nat.ne_of_lt h.2)
  exact eq_of_key_eq hk ha hb h

theorem Sequenced.unique (hl : l.Sequenced) (ha : l.Holds a) (hb : l.Holds b) : a = b :=
  hl.eq_of_fencing ha.mem hb.mem (ha.fencingToken.symm.trans hb.fencingToken)

/-! ## Checkpoints and their attempts -/

/-- A checkpoint is of a stored attempt, and open as long as that attempt is live. -/
structure Tracked (l : Life) : Prop where
  ids : (l.attempts.map (·.id)).Nodup
  checkpointIds : (l.checkpoints.map (·.id)).Nodup
  attempted : ∀ c ∈ l.checkpoints, ∃ a ∈ l.attempts, a.id = c.attemptId
  working : ∀ c ∈ l.checkpoints, ∀ a ∈ l.attempts, a.id = c.attemptId → a.status.isLive = true →
    c.phase = .prepared ∨ c.phase = .committed

theorem tracked_new (h : l.IsNew) : l.Tracked := by
  constructor <;> simp [h.attempts, h.checkpoints]

/-- Updates that keep the keys, revive no attempt and close no checkpoint of a live one. -/
theorem Tracked.update (hl : l.Tracked) {p : AttemptRow → Bool} {f : AttemptRow → AttemptRow}
    {q : CheckpointRow → Bool} {g : CheckpointRow → CheckpointRow}
    (ha : l'.attempts = updateWhere p f l.attempts)
    (hc : l'.checkpoints = updateWhere q g l.checkpoints) (hf : ∀ a, (f a).id = a.id)
    (hg : ∀ c, (g c).id = c.id ∧ (g c).attemptId = c.attemptId)
    (hlive : ∀ a, p a = true → (f a).status.isLive = true → a.status.isLive = true)
    (hopen : ∀ c ∈ l.checkpoints, q c = true → (g c).phase = .committed ∨
      ∀ a ∈ l.attempts, a.id = c.attemptId → a.status.isLive = true →
        p a = true ∧ (f a).status.isLive = false) : l'.Tracked := by
  have hids : l'.attempts.map (·.id) = l.attempts.map (·.id) := by
    rw [ha]
    exact map_updateWhere hf _
  have hcids : l'.checkpoints.map (·.id) = l.checkpoints.map (·.id) := by
    rw [hc]
    exact map_updateWhere (fun c => (hg c).1) _
  have hattempt : ∀ c, (if q c then g c else c).attemptId = c.attemptId := by
    intro c
    split
    · exact (hg c).2
    · rfl
  have hid : ∀ a, (if p a then f a else a).id = a.id := by
    intro a
    split
    · exact hf a
    · rfl
  refine ⟨hids ▸ hl.ids, hcids ▸ hl.checkpointIds, fun c hm => ?_, fun c hm a ham hac hlv => ?_⟩
  · rw [hc] at hm
    obtain ⟨c₀, hm₀, rfl⟩ := mem_updateWhere.mp hm
    obtain ⟨a, ham, hac⟩ := hl.attempted c₀ hm₀
    refine ⟨_, ha ▸ mem_updateWhere.mpr ⟨a, ham, rfl⟩, ?_⟩
    rw [hid, hac, hattempt]
  · rw [hc] at hm
    rw [ha] at ham
    obtain ⟨c₀, hm₀, rfl⟩ := mem_updateWhere.mp hm
    obtain ⟨a₀, ham₀, rfl⟩ := mem_updateWhere.mp ham
    rw [hid, hattempt] at hac
    have hlv₀ : a₀.status.isLive = true := by
      split at hlv
      · exact hlive a₀ (by assumption) hlv
      · exact hlv
    by_cases hq : q c₀ = true
    · rw [if_pos hq]
      rcases hopen c₀ hm₀ hq with hcom | hend
      · exact .inr hcom
      · obtain ⟨hp, hdead⟩ := hend a₀ ham₀ hac hlv₀
        rw [if_pos hp, hdead] at hlv
        cases hlv
    · rw [if_neg hq]
      exact hl.working c₀ hm₀ a₀ ham₀ hac hlv₀

theorem Tracked.updateAttempts (hl : l.Tracked) {p : AttemptRow → Bool} {f : AttemptRow → AttemptRow}
    (ha : l'.attempts = updateWhere p f l.attempts) (hc : l'.checkpoints = l.checkpoints)
    (hf : ∀ a, (f a).id = a.id)
    (hlive : ∀ a, p a = true → (f a).status.isLive = true → a.status.isLive = true) : l'.Tracked :=
  hl.update (q := fun _ => false) (g := fun c => c) ha
    (hc.trans (updateWhere_eq_self fun _ _ => rfl).symm) hf (fun _ => ⟨rfl, rfl⟩) hlive
    (fun _ _ h => by cases h)

theorem Tracked.congr (hl : l.Tracked) (ha : l'.attempts = l.attempts)
    (hc : l'.checkpoints = l.checkpoints) : l'.Tracked :=
  hl.updateAttempts (p := fun _ => false) (f := fun a => a)
    (ha.trans (updateWhere_eq_self fun _ _ => rfl).symm) hc (fun _ => rfl) (fun _ h => by cases h)

theorem lapse_dead (row : ExpiredRow) : row.attemptStatus.isLive = false := by
  unfold ExpiredRow.attemptStatus
  split_ifs <;> rfl

/-- **Every event keeps the checkpoints tracked.** -/
theorem Step.tracked (h : l.Step e l') (hl : l.Tracked) : l'.Tracked := by
  cases h with
  | unlock | block | requeue | renew | progress => exact hl.congr rfl rfl
  | claim a leaseUntil _ _ _ _ hfresh =>
    refine ⟨nodup_concat hl.ids hfresh, hl.checkpointIds, fun c hc => ?_, fun c hc b hb hid hlive => ?_⟩
    · obtain ⟨b, hb, hid⟩ := hl.attempted c hc
      exact ⟨b, List.mem_append_left _ hb, hid⟩
    · rcases List.mem_append.mp hb with hb | hb
      · exact hl.working c hc b hb hid hlive
      · rw [List.mem_singleton.mp hb] at hid
        obtain ⟨x, hx, hxid⟩ := hl.attempted c hc
        exact absurd (hxid.trans hid.symm) (hfresh x hx)
  | prepare a c ha hattempt hfresh hphase =>
    refine ⟨hl.ids, nodup_concat hl.checkpointIds hfresh, fun x hx => ?_,
      fun x hx b hb hid hlive => ?_⟩
    · rcases List.mem_append.mp hx with hx | hx
      · exact hl.attempted x hx
      · rw [List.mem_singleton.mp hx]
        exact ⟨a, ha.mem, hattempt.symm⟩
    · rcases List.mem_append.mp hx with hx | hx
      · exact hl.working x hx b hb hid hlive
      · rw [List.mem_singleton.mp hx]
        exact .inl hphase
  | commit a c outcome ha =>
    refine hl.update rfl rfl ?_ ?_ ?_ ?_
    · exact fun _ => rfl
    · exact fun _ => ⟨rfl, rfl⟩
    · intro x hp _
      rw [(of_decide_eq_true hp).2]
      rfl
    · exact fun _ _ _ => .inl rfl
  | reconcile c hc hphase =>
    refine hl.update rfl rfl ?_ ?_ ?_ ?_
    · exact fun _ => rfl
    · exact fun _ => ⟨rfl, rfl⟩
    · exact fun x hp _ => (of_decide_eq_true hp).2
    · intro x hx hq
      have hxc : x = c := eq_of_key_eq hl.checkpointIds hx hc (of_decide_eq_true hq).1
      exact .inr fun b hb hid hlive => ⟨decide_eq_true ⟨hxc ▸ hid, hlive⟩, rfl⟩
  | release a r ha _ hattempt =>
    have hdead : r.attemptStatus.isLive = false := by
      rcases hattempt with h | h <;> rw [h] <;> rfl
    cases hv : r.voids with
    | false =>
      refine hl.updateAttempts rfl ?_ ?_ ?_
      · simp [Life.release, hv]
      · exact fun _ => rfl
      · exact fun x hp _ => (of_decide_eq_true hp).2
    | true =>
      have hc : (l.release a.id r).checkpoints = voidPrepared a.id l.checkpoints := by
        simp [Life.release, hv]
      refine hl.update rfl hc ?_ ?_ ?_ ?_
      · exact fun _ => rfl
      · exact fun _ => ⟨rfl, rfl⟩
      · exact fun x hp _ => (of_decide_eq_true hp).2
      · intro x hx hq
        exact .inr fun b hb hid hlive =>
          ⟨decide_eq_true ⟨hid.trans (of_decide_eq_true hq).2, hlive⟩, hdead⟩
  | lapse now =>
    cases hp : l.expired.parked with
    | true =>
      refine hl.updateAttempts rfl ?_ ?_ ?_
      · simp [Life.lapse, hp]
      · exact fun _ => rfl
      · exact fun x hx _ => hx
    | false =>
      have hc : (l.lapse now).checkpoints
          = updateWhere l.isLivePrepared (fun c => { c with phase := .voided }) l.checkpoints := by
        simp [Life.lapse, hp]
      refine hl.update rfl hc ?_ ?_ ?_ ?_
      · exact fun _ => rfl
      · exact fun _ => ⟨rfl, rfl⟩
      · exact fun x hx _ => hx
      · exact fun x hx hq => .inr fun b hb hid hlive => ⟨hlive, lapse_dead _⟩
  | verdict a c resolution reason exhausted now h ha hparked hc hattempt =>
    have hdead : resolution.attemptStatus.isLive = false := by cases resolution <;> rfl
    refine hl.update rfl rfl ?_ ?_ ?_ ?_
    · exact fun _ => rfl
    · intro x
      cases resolution <;> exact ⟨rfl, rfl⟩
    · intro x _ h
      rw [hdead] at h
      cases h
    · intro x hx hq
      refine .inr fun b hb hid hlive => ?_
      -- The attempt of the settled checkpoint is the parked one.
      have hxc : x = c := eq_of_key_eq hl.checkpointIds hx hc (of_decide_eq_true hq).1
      have hba : b = a := eq_of_key_eq hl.ids hb ha (hid.trans (hxc ▸ hattempt))
      rw [hba, hparked] at hlive
      cases hlive
  | close error attemptError status =>
    refine hl.updateAttempts rfl rfl ?_ ?_
    · exact fun _ => rfl
    · intro x _ h
      cases h

/-! ## Ownership -/

/-- The live attempt of an item is its owner, and a running item has one. -/
structure Owned (l : Life) : Prop where
  owner : ∀ a ∈ l.attempts, a.status.isLive = true → l.Holds a
  held : l.item.status = .running → ∃ a ∈ l.attempts, a.status.isLive = true
  settled : ∀ c ∈ l.checkpoints, c.phase.isSettled = true →
    l.item.status.isFinal = true ∨ (c.phase = .committed ∧ ∃ a, l.Holds a ∧ a.id = c.attemptId)

theorem owned_of_idle (hrun : l.item.status ≠ .running)
    (hlive : ∀ a ∈ l.attempts, a.status.isLive = false)
    (hsettled : ∀ c ∈ l.checkpoints, c.phase.isSettled = true → l.item.status.isFinal = true) :
    l.Owned where
  owner := fun a ha h => absurd h (by rw [hlive a ha]; decide)
  held := fun h => absurd h hrun
  settled := fun c hc h => .inl (hsettled c hc h)

theorem owned_new (h : l.IsNew) : l.Owned := by
  refine owned_of_idle ?_ ?_ ?_
  · rcases h.item.status with hst | hst <;> rw [hst] <;> decide
  · rw [h.attempts]
    simp
  · rw [h.checkpoints]
    simp

theorem Owned.congr (hl : l.Owned) (hstatus : l'.item.status = l.item.status)
    (htoken : l'.item.leaseToken = l.item.leaseToken)
    (hfencing : l'.item.fencingToken = l.item.fencingToken) (ha : l'.attempts = l.attempts)
    (hc : ∀ c ∈ l'.checkpoints, c.phase.isSettled = true → c ∈ l.checkpoints) : l'.Owned := by
  have hholds : ∀ a, l.Holds a → l'.Holds a := fun a h =>
    ⟨ha ▸ h.mem, h.live, hstatus.trans h.running, htoken.trans h.leaseToken,
      hfencing.trans h.fencingToken⟩
  refine ⟨fun a hm h => hholds a (hl.owner a (ha ▸ hm) h), fun h => ?_, fun c hm h => ?_⟩
  · rw [ha]
    exact hl.held (hstatus.symm.trans h)
  · rw [hstatus]
    rcases hl.settled c (hc c hm h) h with hf | ⟨hp, a, hold, hid⟩
    · exact .inl hf
    · exact .inr ⟨hp, a, hholds a hold, hid⟩

section Idle

variable (hl : l.Owned) (hrun : l.item.status ≠ .running)

include hl hrun

theorem Owned.idle : ∀ a ∈ l.attempts, a.status.isLive = false := by
  intro a ha
  by_contra h
  exact hrun (hl.owner a ha (by simpa using h)).running

theorem Owned.unsettled (hopen : l.item.status.isFinal = false) :
    ∀ c ∈ l.checkpoints, c.phase.isSettled = false := by
  intro c hc
  by_contra h
  rcases hl.settled c hc (by simpa using h) with hf | ⟨-, a, hold, -⟩
  · rw [hf] at hopen
    cases hopen
  · exact hrun hold.running

theorem Owned.withStatus (hopen : l.item.status.isFinal = false) {item : WorkItemRow}
    (hrun' : item.status ≠ .running) : Owned { l with item } := by
  refine owned_of_idle hrun' (hl.idle hrun) fun c hc h => ?_
  rw [hl.unsettled hrun hopen c hc] at h
  cases h

end Idle

/-- A handback whose attempt has committed fails the item. -/
def Event.Settles : Event → Prop
  | .release _ status true => status = .failed
  | _ => True

theorem Owned.claim (hl : l.Owned) (h : l.item.status = .ready) (ha : a.status = .running)
    (hfencing : a.fencingToken = l.item.fencingToken + 1) (leaseUntil : Int) :
    (l.claim a leaseUntil).Owned := by
  have hne : l.item.status ≠ .running := by rw [h]; decide
  have hold : (l.claim a leaseUntil).Holds a :=
    ⟨List.mem_append_right _ (List.mem_singleton_self a), by rw [ha]; rfl, rfl, rfl, hfencing.symm⟩
  refine ⟨fun x hx hlive => ?_, fun _ => ⟨a, hold.mem, hold.live⟩, fun c hc hs => ?_⟩
  · rcases List.mem_append.mp hx with hx | hx
    · rw [hl.idle hne x hx] at hlive
      cases hlive
    · cases List.mem_singleton.mp hx
      exact hold
  · rw [hl.unsettled hne (by rw [h]; rfl) c hc] at hs
    cases hs

theorem Owned.commit (hl : l.Owned) (ha : l.Holds a) (checkpointId : String)
    (outcome : WorkOutcome) : (l.commit a.id checkpointId outcome).Owned := by
  -- The holder stays the holder; at most its status becomes `committing`.
  have hholds : ∀ x, l.Holds x →
      ∃ x', (l.commit a.id checkpointId outcome).Holds x' ∧ x'.id = x.id := by
    intro x hx
    refine ⟨_, ⟨mem_updateWhere.mpr ⟨x, hx.mem, rfl⟩, ?_, hx.running, ?_, ?_⟩, ?_⟩
    · split
      · rfl
      · exact hx.live
    · rw [apply_ite AttemptRow.leaseToken, ite_self]
      exact hx.leaseToken
    · rw [apply_ite AttemptRow.fencingToken, ite_self]
      exact hx.fencingToken
    · rw [apply_ite AttemptRow.id, ite_self]
  obtain ⟨a', ha', hai⟩ := hholds a ha
  refine ⟨fun x hx hlive => ?_, fun _ => ⟨a', ha'.mem, ha'.live⟩, fun x hx hs => .inr ?_⟩
  · obtain ⟨x₀, hx₀, rfl⟩ := mem_updateWhere.mp hx
    have hlive₀ : x₀.status.isLive = true := by
      split at hlive
      · rename_i hp
        rw [(of_decide_eq_true hp).2]
        rfl
      · exact hlive
    have hold := hl.owner x₀ hx₀ hlive₀
    exact ⟨hx, hlive, hold.running, by split <;> exact hold.leaseToken,
      by split <;> exact hold.fencingToken⟩
  · obtain ⟨x₀, hx₀, rfl⟩ := mem_updateWhere.mp hx
    split at hs
    · rename_i hp
      have hp := of_decide_eq_true hp
      rw [if_pos (decide_eq_true hp)]
      exact ⟨rfl, a', ha', hai.trans hp.2.2.symm⟩
    · rename_i hp
      rw [if_neg hp]
      rcases hl.settled x₀ hx₀ hs with hf | ⟨hphase, b, hb, hbid⟩
      · rw [ha.running] at hf
        cases hf
      · obtain ⟨b', hb', hbi⟩ := hholds b hb
        exact ⟨hphase, b', hb', hbi.trans hbid⟩

theorem Owned.reconcile (hl : l.Owned) (hq : l.Sequenced) {c : CheckpointRow}
    (hc : c ∈ l.checkpoints) (hphase : c.phase = .committed) : (l.reconcile c).Owned := by
  have hsettled := hl.settled c hc (by rw [hphase]; rfl)
  refine owned_of_idle ?_ (fun x hx => ?_) fun x hx hs => ?_
  · simp only [Life.reconcile]
    split
    · exact fun h => by cases h
    · assumption
  · obtain ⟨x₀, hx₀, rfl⟩ := mem_updateWhere.mp hx
    split
    · rfl
    · rename_i hp
      by_contra hlive
      have hold := hl.owner x₀ hx₀ (by simpa using hlive)
      rcases hsettled with hf | ⟨-, a, ha, hid⟩
      · rw [hold.running] at hf
        cases hf
      · cases hq.unique hold ha
        exact hp (by simp [hid, hold.live])
  · simp only [Life.reconcile]
    split
    · rfl
    · rename_i hne
      rcases hsettled with hf | ⟨-, a, ha, -⟩
      · exact hf
      · exact absurd ha.running hne

theorem Owned.release (hl : l.Owned) (hq : l.Sequenced) (ha : l.Holds a) {r : Release}
    (hstatus : r.status = .ready ∨ r.status = .blocked ∨ r.status = .failed)
    (hattempt : r.attemptStatus = .failed ∨ r.attemptStatus = .void)
    (hcommitted : l.hasCommitted a.id = true → r.status = .failed) : (l.release a.id r).Owned := by
  refine owned_of_idle ?_ (fun x hx => ?_) fun x hx hs => ?_
  · intro hrun
    rcases hstatus with h | h | h <;> cases h.symm.trans hrun
  · obtain ⟨x₀, hx₀, rfl⟩ := mem_updateWhere.mp hx
    split
    · rcases hattempt with h | h <;> simp [h, AttemptStatus.isLive]
    · rename_i hp
      by_contra hlive
      have hold := hl.owner x₀ hx₀ (by simpa using hlive)
      cases hq.unique hold ha
      exact hp (by simp [hold.live])
  · -- Voiding settles nothing, so the checkpoint was settled before.
    have hx₀ : x ∈ l.checkpoints := by
      simp only [Life.release] at hx
      split at hx
      · obtain ⟨x₀, hx₀, rfl⟩ := mem_updateWhere.mp hx
        split at hs
        · cases hs
        · rwa [if_neg (by assumption)]
      · exact hx
    rcases hl.settled x hx₀ hs with hf | ⟨hphase, b, hb, hbid⟩
    · rw [ha.running] at hf
      cases hf
    · have hba := congrArg AttemptRow.id (hq.unique hb ha)
      have hfailed := hcommitted
        (List.any_eq_true.mpr ⟨x, hx₀, decide_eq_true ⟨hbid.symm.trans hba, hphase⟩⟩)
      rw [show (l.release a.id r).item.status = r.status from rfl, hfailed]
      rfl

theorem Owned.lapse (hl : l.Owned) (h : l.item.status = .running)
    (hcommitted : ∀ c ∈ l.checkpoints, c.phase ≠ .committed) (now : Int) : (l.lapse now).Owned := by
  refine owned_of_idle ?_ (fun x hx => ?_) fun x hx hs => ?_
  · intro hrun
    rcases lapse_status l.expired with hst | hst | hst <;> cases hst.symm.trans hrun
  · obtain ⟨x₀, hx₀, rfl⟩ := mem_updateWhere.mp hx
    split
    · exact lapse_dead _
    · rename_i hp
      simpa using hp
  · have hx₀ : x ∈ l.checkpoints := by
      simp only [Life.lapse] at hx
      split at hx
      · exact hx
      · obtain ⟨x₀, hx₀, rfl⟩ := mem_updateWhere.mp hx
        split at hs
        · cases hs
        · rwa [if_neg (by assumption)]
    rcases hl.settled x hx₀ hs with hf | ⟨hphase, -⟩
    · rw [h] at hf
      cases hf
    · exact absurd hphase (hcommitted x hx₀)

theorem Owned.verdict (hl : l.Owned) (h : l.item.status = .waitingConfirmation) (a : AttemptRow)
    (c : CheckpointRow) (resolution : ConfirmationResolution) (reason : String) (exhausted : Bool)
    (now : Int) : (l.verdict a c resolution reason exhausted now).Owned := by
  have hne : l.item.status ≠ .running := by rw [h]; decide
  refine owned_of_idle ?_ (fun x hx => ?_) fun x hx hs => ?_
  · intro hrun
    rcases verdict_status resolution exhausted with hst | hst | hst <;> cases hst.symm.trans hrun
  · obtain ⟨x₀, hx₀, rfl⟩ := mem_updateWhere.mp hx
    split
    · cases resolution <;> rfl
    · exact hl.idle hne x₀ hx₀
  · obtain ⟨x₀, hx₀, rfl⟩ := mem_updateWhere.mp hx
    split at hs
    · -- Only a confirmation settles, and it ends the item.
      cases resolution with
      | confirmed => rfl
      | retry => cases hs
      | abandoned => cases hs
    · rw [hl.unsettled hne (by rw [h]; rfl) x₀ hx₀] at hs
      cases hs

theorem owned_close {error attemptError : String} {status : WorkItemStatus}
    (h : status = .failed ∨ status = .canceled) : (l.close error attemptError status).Owned := by
  have hfinal : (l.close error attemptError status).item.status.isFinal = true := by
    simp only [Life.close]
    split
    · rename_i hkept
      simp only [List.mem_cons, List.not_mem_nil, or_false] at hkept
      rcases hkept with hst | hst | hst
      · rw [hst]; rfl
      · rw [hst]; rfl
      · rw [hst]
        rcases h with rfl | rfl <;> rfl
    · rcases h with rfl | rfl <;> rfl
  refine owned_of_idle ?_ (fun x hx => ?_) fun _ _ _ => hfinal
  · intro hrun
    rw [hrun] at hfinal
    cases hfinal
  · obtain ⟨x₀, hx₀, rfl⟩ := mem_updateWhere.mp hx
    split
    · rfl
    · rename_i hp
      cases hst : x₀.status <;> simp_all [AttemptStatus.isOpen, AttemptStatus.isLive]

/-- **Ownership is kept** by every event but a handback that reopens a committed attempt's item. -/
theorem Step.owned (h : l.Step e l') (he : e.Settles) (hq : l.Sequenced) (hl : l.Owned) :
    l'.Owned := by
  cases h with
  | unlock h => exact hl.withStatus (by rw [h]; decide) (by rw [h]; rfl) nofun
  | block h =>
    rcases h with h | h <;> exact hl.withStatus (by rw [h]; decide) (by rw [h]; rfl) nofun
  | requeue h => exact hl.withStatus (by rw [h]; decide) (by rw [h]; rfl) nofun
  | claim a leaseUntil h _ _ _ _ hlive hfencing => exact hl.claim h hlive hfencing leaseUntil
  | renew | progress => exact hl.congr rfl rfl rfl rfl fun _ hc _ => hc
  | prepare a c _ _ _ hphase =>
    refine hl.congr rfl rfl rfl rfl fun x hx hs => ?_
    rcases List.mem_append.mp hx with hx | hx
    · exact hx
    · cases List.mem_singleton.mp hx
      rw [hphase] at hs
      cases hs
  | commit a c outcome ha => exact hl.commit ha c.id outcome
  | reconcile c hc hphase => exact hl.reconcile hq hc hphase
  | release a r ha hstatus hattempt =>
    refine hl.release hq ha hstatus hattempt fun hc => ?_
    rw [hc] at he
    exact he
  | lapse now h _ hcommitted => exact hl.lapse h hcommitted now
  | verdict a c resolution reason exhausted now h =>
    exact hl.verdict h a c resolution reason exhausted now
  | close error attemptError status h => exact owned_close h

/-! ## Committed checkpoints -/

/-- A committed checkpoint was committed before, or is the one that is committed now. -/
theorem Step.committed (h : l.Step e l') {c : CheckpointRow} (hc : c ∈ l'.checkpoints)
    (hp : c.phase = .committed) :
    c ∈ l.checkpoints ∨ e = .commit c.attemptId c.id := by
  -- An update that leaves no row committed.
  have hupdate : ∀ {p : CheckpointRow → Bool} {f : CheckpointRow → CheckpointRow},
      (∀ x, (f x).phase ≠ .committed) → c ∈ updateWhere p f l.checkpoints → c ∈ l.checkpoints := by
    intro p f hf hm
    obtain ⟨x, hx, rfl⟩ := mem_updateWhere.mp hm
    split at hp
    · exact absurd hp (hf x)
    · rwa [if_neg (by assumption)]
  cases h with
  | prepare a c' _ _ _ hphase =>
    rcases List.mem_append.mp hc with hc | hc
    · exact .inl hc
    · rw [List.mem_singleton.mp hc, hphase] at hp
      cases hp
  | commit a c' outcome =>
    obtain ⟨x, hx, rfl⟩ := mem_updateWhere.mp hc
    split
    · rename_i h
      have hx := of_decide_eq_true h
      exact .inr (by rw [← hx.1, ← hx.2.2])
    · exact .inl hx
  | reconcile c' => exact .inl (hupdate (fun _ h => by cases h) hc)
  | release a r =>
    left
    simp only [Life.release] at hc
    split at hc
    · exact hupdate (fun _ h => by cases h) hc
    · exact hc
  | lapse now =>
    left
    simp only [Life.lapse] at hc
    split at hc
    · exact hc
    · exact hupdate (fun _ h => by cases h) hc
  | verdict a c' resolution =>
    refine .inl (hupdate (fun x h => ?_) hc)
    cases resolution <;> cases h
  | _ => exact .inl hc

theorem Path.committed {es : List Event} (h : Path l es l') {c : CheckpointRow}
    (hc : c ∈ l'.checkpoints) (hp : c.phase = .committed) :
    c ∈ l.checkpoints ∨ .commit c.attemptId c.id ∈ es := by
  induction h with
  | nil => exact .inl hc
  | cons hstep _ ih =>
    rcases ih hc with hc' | he
    · rcases hstep.committed hc' hp with h | h
      · exact .inl h
      · exact .inr (h ▸ List.mem_cons_self)
    · exact .inr (List.mem_cons_of_mem _ he)

end Life

section

variable {enc : Encoding} {s : Store} {t : Txn}

theorem Txn.Emits.commit {w : WorkItemRow} {attemptId id : String}
    (h : t.Emits s w (.commit attemptId id)) :
    ∃ claim outcome actor now, t = .commitCheckpoint claim id outcome actor now ∧
      claim.attempt.id = attemptId := by
  cases t with
  | commitCheckpoint claim checkpointId outcome actor now =>
    obtain ⟨-, he⟩ := h
    cases he
    exact ⟨claim, outcome, actor, now, rfl, rfl⟩
  | recoverGoalState | resolveWaitingConfirmation | finishAttempt | failAttempt =>
    simp [Txn.Emits] at h
  | cancelGoal | markGoalForReplan | requeueBlockedItems | claimWork | prepareCheckpoint | renewClaim
  | blockWorkItem | deferAttempt | continueAttempt | recordPhaseProgress => cases h.2
  | _ => cases h

/-- A checkpoint becomes committed by a commit of its attempt. -/
theorem hasCommitted_exec (hw : WellFormed s) {attemptId : String}
    (hne : ∀ claim id outcome actor now, t = .commitCheckpoint claim id outcome actor now →
      claim.attempt.id ≠ attemptId) (h : s.hasCommitted attemptId = false) :
    (exec enc s t).hasCommitted attemptId = false := by
  rcases exec_cases enc s t with he | he
  · rw [he]
    exact h
  by_contra hcon
  obtain ⟨c, hc, hca⟩ := List.any_eq_true.mp (Bool.not_eq_false _ ▸ hcon)
  obtain ⟨hattempt, hphase⟩ := of_decide_eq_true hca
  have hold : c ∉ s.checkpoints := fun hm =>
    Bool.false_ne_true (h.symm.trans (List.any_eq_true.mpr ⟨c, hm, hca⟩))
  have hw' : WellFormed (exec enc s t) := wellFormed_exec t hw
  obtain ⟨a, ham, -, haw, -⟩ := hw'.checkpointAttempt c hc
  obtain ⟨w, hwm, hwi, -⟩ := hw'.attemptItem a ham
  have hl' := hw'.life? hwm
  have hcl := (mem_life_checkpoints hl').mpr ⟨hc, haw.symm.trans hwi.symm⟩
  cases hl : s.life? w.id with
  | none =>
    rw [(life_born hw he hl hl').checkpoints] at hcl
    cases hcl
  | some l =>
    obtain ⟨es, l₁, h₁, hpath, hemits, -⟩ := life_apply hw hl he
    cases h₁.symm.trans hl'
    rcases hpath.committed hcl hphase with hcl | hmem
    · exact hold ((mem_life_checkpoints hl).mp hcl).1
    · obtain ⟨claim, outcome, actor, now, ht, hid⟩ := (hemits _ hmem).commit
      exact hne claim c.id outcome actor now ht (hid.trans hattempt)

/-- The claim a holder hands back, the status it leaves its item in and the clock. -/
def Txn.handback? (s : Store) : Txn → Option (WorkClaim × WorkItemStatus × Int)
  | .failAttempt claim _ retryable _ now => some (claim, failStatus s claim retryable, now)
  | .blockWorkItem claim _ _ now => some (claim, .blocked, now)
  | .deferAttempt claim _ _ now | .continueAttempt claim _ _ _ now => some (claim, .ready, now)
  | _ => none

theorem handback_holder {claim : WorkClaim} {status : WorkItemStatus} {now : Int}
    (h : t.handback? s = some (claim, status, now)) : t.holder? = some claim := by
  cases t <;> cases h <;> rfl

/-- A holder that hands its item back after its attempt has committed fails it for good. -/
def KeepsCommit (s : Store) (t : Txn) : Prop :=
  ∀ claim status now, t.handback? s = some (claim, status, now) → s.claimCurrent now claim = true →
    s.hasCommitted claim.attempt.id = true → status = .failed

instance (s : Store) (t : Txn) : Decidable (KeepsCommit s t) :=
  decidable_of_iff (∀ x ∈ t.handback? s, s.claimCurrent x.2.2 x.1 = true →
      s.hasCommitted x.1.attempt.id = true → x.2.1 = .failed)
    ⟨fun h claim status now hb => h (claim, status, now) hb, fun h x hx => h x.1 x.2.1 x.2.2 hx⟩

theorem handback_current {s' : Store} {claim : WorkClaim} {status : WorkItemStatus} {now : Int}
    (ht : s.apply enc t = .ok s') (h : t.handback? s = some (claim, status, now)) :
    s.claimCurrent now claim = true := by
  cases t with
  | failAttempt => cases h; exact (failAttemptTx_ok ht).1
  | blockWorkItem => cases h; exact (blockWorkItemTx_ok ht).1
  | deferAttempt => cases h; exact (deferAttemptTx_ok ht).1
  | continueAttempt => cases h; exact (continueAttemptTx_ok ht).1
  | _ => cases h

theorem Txn.Emits.release {w : WorkItemRow} {attemptId : String} {status : WorkItemStatus}
    {committed : Bool} (h : t.Emits s w (.release attemptId status committed)) :
    ∃ claim now, t.handback? s = some (claim, status, now) ∧ w.id = claim.workItem.id ∧
      attemptId = claim.attempt.id ∧ committed = s.hasCommitted claim.attempt.id := by
  cases t with
  | failAttempt claim error retryable actor now =>
    rcases h with h | ⟨hw, h⟩
    · cases h
    · cases h
      exact ⟨claim, now, rfl, hw, rfl, rfl⟩
  | blockWorkItem claim reason actor now =>
    obtain ⟨hw, h⟩ := h
    cases h
    exact ⟨claim, now, rfl, hw, rfl, rfl⟩
  | deferAttempt claim untilUnix actor now =>
    obtain ⟨hw, h⟩ := h
    cases h
    exact ⟨claim, now, rfl, hw, rfl, rfl⟩
  | continueAttempt claim continuation actor started now =>
    obtain ⟨hw, h⟩ := h
    cases h
    exact ⟨claim, now, rfl, hw, rfl, rfl⟩
  | recoverGoalState | resolveWaitingConfirmation | finishAttempt => simp [Txn.Emits] at h
  | cancelGoal | markGoalForReplan | requeueBlockedItems | claimWork | prepareCheckpoint | renewClaim
  | commitCheckpoint | recordPhaseProgress => cases h.2
  | _ => cases h

theorem Txn.Emits.verdict {w : WorkItemRow} {resolution : ConfirmationResolution}
    (h : t.Emits s w (.verdict resolution)) : ∃ goalId reason actor now,
      t = .resolveWaitingConfirmation goalId w.id resolution reason actor now := by
  cases t with
  | resolveWaitingConfirmation goalId workItemId resolution' reason actor now =>
    obtain ⟨-, h | ⟨rfl, h⟩⟩ := h
    · cases h
    · cases h
      exact ⟨goalId, reason, actor, now, rfl⟩
  | recoverGoalState | finishAttempt | failAttempt => simp [Txn.Emits] at h
  | cancelGoal | markGoalForReplan | requeueBlockedItems | claimWork | prepareCheckpoint | renewClaim
  | commitCheckpoint | blockWorkItem | deferAttempt | continueAttempt | recordPhaseProgress => cases h.2
  | _ => cases h

theorem KeepsCommit.settles {s' : Store} (h : KeepsCommit s t) (ht : s.apply enc t = .ok s')
    {w : WorkItemRow} {e : Life.Event} (he : t.Emits s w e) : e.Settles := by
  cases e with
  | release attemptId status committed =>
    obtain ⟨claim, now, hb, -, -, rfl⟩ := he.release
    cases hc : s.hasCommitted claim.attempt.id with
    | false => trivial
    | true => exact h claim status now hb (handback_current ht hb) hc
  | _ => trivial

/-- What holds of every item whose holders keep what they commit. -/
structure Life.Sound (l : Life) : Prop where
  sequenced : l.Sequenced
  tracked : l.Tracked
  owned : l.Owned

theorem Life.Step.sound {l l' : Life} {e : Life.Event} (h : l.Step e l') (he : e.Settles)
    (hl : l.Sound) : l'.Sound :=
  ⟨h.sequenced hl.sequenced, h.tracked hl.tracked, h.owned he hl.sequenced hl.owned⟩

theorem sound_exec (hw : WellFormed s) (h : KeepsCommit s t) (hs : s.Lives Life.Sound) :
    (exec enc s t).Lives Life.Sound :=
  lives_exec
    (fun _ hnew => ⟨Life.sequenced_new hnew, Life.tracked_new hnew, Life.owned_new hnew⟩)
    (fun _ _ _ he hl hstep => hstep.sound he hl) hw (fun _ ht _ _ he => h.settles ht he) hs

theorem sequenced_exec (hw : WellFormed s) (hs : s.Lives Life.Sequenced) :
    (exec enc s t).Lives Life.Sequenced :=
  lives_exec (fun _ hnew => Life.sequenced_new hnew)
    (fun _ _ _ (_ : True) hl hstep => hstep.sequenced hl) hw (fun _ _ _ _ _ => trivial) hs

end

end Xiaomaolv
