import Mathlib.Data.List.Dedup
import Xiaomaolv.Loop.Dependencies
import Xiaomaolv.Loop.Uncertain

/-!
# The outcomes that reach an item

* `CheckpointRow.Moves`, **`Life.Step.checkpoints`**: what an event makes of each checkpoint of its item.
* `Life.Delivered`: an item settles one checkpoint at most, and has succeeded by it; `Life.Step.delivered`.
* `Txn.recorded?`: the outcome that a transaction records for an attempt; **`settled_apply`**: what is settled
  has a recorded outcome.
* `upstreamOutcomes`: the query of the source.
* **`dataflow_complete`**: what the query returns in every pool of workers.
-/

namespace Xiaomaolv

open Table LoopStore

/-! ## What becomes of a checkpoint -/

/-- What an event makes of the checkpoint `c`; `id` is the one that it may settle. -/
inductive CheckpointRow.Moves (e : Life.Event) (id : String) (c : CheckpointRow) : CheckpointRow → Prop
  | stay : Moves e id c c
  | void (h : c.phase = .prepared) : Moves e id c { c with phase := .voided }
  | commit (h : c.phase = .prepared) (hid : c.id = id) (outcome : WorkOutcome)
      (he : e = .commit c.attemptId c.id) : Moves e id c { c with phase := .committed, outcome := some outcome }
  | confirm (h : c.phase = .prepared) (hid : c.id = id) (outcome : WorkOutcome)
      (he : e = .verdict .confirmed) : Moves e id c { c with phase := .reconciled, outcome := some outcome }
  | reconcile (h : c.phase = .committed) (he : e = .reconcile c.id) :
      Moves e id c { c with phase := .reconciled }

namespace CheckpointRow.Moves

variable {e : Life.Event} {id : String} {c c' : CheckpointRow}

theorem key (h : c.Moves e id c') : c'.id = c.id ∧ c'.attemptId = c.attemptId := by
  cases h <;> exact ⟨rfl, rfl⟩

theorem settled (h : c.Moves e id c') (hs : c.phase.isSettled = true) :
    c'.phase.isSettled = true ∧ c'.outcome = c.outcome ∧ (c.phase = .reconciled → c' = c) := by
  cases h with
  | stay => exact ⟨hs, rfl, fun _ => rfl⟩
  | void h | commit h | confirm h => rw [h] at hs; cases hs
  | reconcile h => exact ⟨rfl, rfl, fun hr => by rw [h] at hr; cases hr⟩

theorem settles (h : c.Moves e id c') (hs : c'.phase.isSettled = true) (hc : c.phase.isSettled = false) :
    c.id = id ∧ (e = .commit c.attemptId c.id ∨ (e = .verdict .confirmed ∧ c'.phase = .reconciled)) := by
  cases h with
  | stay => rw [hc] at hs; cases hs
  | void => cases hs
  | commit h hid outcome he => exact ⟨hid, .inl he⟩
  | confirm h hid outcome he => exact ⟨hid, .inr ⟨he, rfl⟩⟩
  | reconcile h => rw [h] at hc; cases hc

end CheckpointRow.Moves

namespace Life

variable {l l' : Life} {e : Event}

theorem moves_update {id : String} {p : CheckpointRow → Bool} {f : CheckpointRow → CheckpointRow}
    (h : ∀ c ∈ l.checkpoints, p c = true → c.Moves e id (f c)) (hc : l'.checkpoints = updateWhere p f l.checkpoints) :
    ∃ g, l'.checkpoints = l.checkpoints.map g ∧ ∀ c ∈ l.checkpoints, c.Moves e id (g c) := by
  refine ⟨fun c => if p c then f c else c, hc, fun c hm => ?_⟩
  show c.Moves e id (if p c then f c else c)
  by_cases hp : p c = true
  · rw [if_pos hp]
    exact h c hm hp
  · rw [if_neg hp]
    exact .stay

/-- **What an event makes of the checkpoints**: a new prepared one, or each one moves. -/
theorem Step.checkpoints (h : l.Step e l') :
    (∃ c, c.phase = .prepared ∧ l'.checkpoints = l.checkpoints ++ [c]) ∨
    ∃ id g, l'.checkpoints = l.checkpoints.map g ∧ ∀ c ∈ l.checkpoints, c.Moves e id (g c) := by
  have hsame : l'.checkpoints = l.checkpoints →
      ∃ id g, l'.checkpoints = l.checkpoints.map g ∧ ∀ c ∈ l.checkpoints, c.Moves e id (g c) :=
    fun hc => ⟨"", id, hc.trans (List.map_id _).symm, fun _ _ => .stay⟩
  cases h with
  | unlock | block | requeue | claim | renew | progress | close => exact .inr (hsame rfl)
  | prepare a c _ _ _ hphase => exact .inl ⟨c, hphase, rfl⟩
  | commit a c outcome _ hc hattempt hphase =>
    refine .inr ⟨c.id, moves_update (fun x _ hp => ?_) rfl⟩
    obtain ⟨hid, hprepared, hx⟩ := of_decide_eq_true hp
    exact .commit hprepared hid outcome (by rw [hx, hid])
  | reconcile c hc hphase =>
    refine .inr ⟨c.id, moves_update (fun x _ hp => ?_) rfl⟩
    obtain ⟨hid, hcommitted⟩ := of_decide_eq_true hp
    exact .reconcile hcommitted (by rw [hid])
  | release a r =>
    cases hv : r.voids with
    | false => exact .inr (hsame (by simp [Life.release, hv]))
    | true =>
      refine .inr ⟨"", moves_update (fun x _ hp => ?_)
        (show (l.release a.id r).checkpoints = _ by rw [Life.release, hv]; rfl)⟩
      exact .void (of_decide_eq_true hp).1
  | lapse now =>
    cases hv : l.expired.parked with
    | true => exact .inr (hsame (by simp [Life.lapse, hv]))
    | false =>
      refine .inr ⟨"", moves_update (p := l.isLivePrepared) (f := fun c => { c with phase := .voided })
        (fun x _ hp => ?_) (by simp [Life.lapse, hv])⟩
      exact .void (of_decide_eq_true ((Bool.and_eq_true _ _).mp hp).1)
  | verdict a c resolution reason exhausted now =>
    refine .inr ⟨c.id, moves_update (fun x _ hp => ?_) rfl⟩
    obtain ⟨hid, hprepared⟩ := of_decide_eq_true hp
    cases resolution with
    | confirmed => exact .confirm hprepared hid _ rfl
    | retry | abandoned => exact .void hprepared

theorem Step.settled_kept (h : l.Step e l') {c : CheckpointRow} (hc : c ∈ l.checkpoints)
    (hs : c.phase.isSettled = true) : ∃ c' ∈ l'.checkpoints, c'.attemptId = c.attemptId ∧
      c'.phase.isSettled = true ∧ c'.outcome = c.outcome ∧ (c.phase = .reconciled → c' = c) := by
  rcases h.checkpoints with ⟨new, -, hl'⟩ | ⟨id, g, hl', hmoves⟩
  · exact ⟨c, hl' ▸ List.mem_append_left _ hc, rfl, hs, rfl, fun _ => rfl⟩
  · obtain ⟨hsettled, houtcome, hsame⟩ := (hmoves c hc).settled hs
    exact ⟨g c, hl' ▸ List.mem_map_of_mem hc, (hmoves c hc).key.2, hsettled, houtcome, hsame⟩

theorem Step.settled_old (h : l.Step e l') {c' : CheckpointRow} (hc' : c' ∈ l'.checkpoints)
    (hs : c'.phase.isSettled = true) :
    (∃ c ∈ l.checkpoints, c.phase.isSettled = true ∧ c.attemptId = c'.attemptId ∧ c.outcome = c'.outcome) ∨
      e = .commit c'.attemptId c'.id ∨ e = .verdict .confirmed := by
  rcases h.checkpoints with ⟨new, hnew, hl'⟩ | ⟨id, g, hl', hmoves⟩
  · rw [hl'] at hc'
    rcases List.mem_append.mp hc' with hc | hc
    · exact .inl ⟨c', hc, hs, rfl, rfl⟩
    · rw [List.mem_singleton.mp hc, hnew] at hs
      cases hs
  · rw [hl'] at hc'
    obtain ⟨c, hc, rfl⟩ := List.mem_map.mp hc'
    obtain ⟨hid, hattempt⟩ := (hmoves c hc).key
    cases hcs : c.phase.isSettled with
    | true => exact .inl ⟨c, hc, hcs, hattempt.symm, ((hmoves c hc).settled hcs).2.1.symm⟩
    | false =>
      rw [hid, hattempt]
      rcases ((hmoves c hc).settles hs hcs).2 with he | ⟨he, -⟩
      · exact .inr (.inl he)
      · exact .inr (.inr he)

theorem Path.settled_old {es : List Event} (h : Path l es l') (hcommit : ∀ e ∈ es, ∀ attemptId id, e ≠ .commit attemptId id)
    (hverdict : ∀ e ∈ es, e ≠ .verdict .confirmed) {c' : CheckpointRow} (hc' : c' ∈ l'.checkpoints)
    (hs : c'.phase.isSettled = true) :
    ∃ c ∈ l.checkpoints, c.phase.isSettled = true ∧ c.attemptId = c'.attemptId ∧ c.outcome = c'.outcome := by
  induction h with
  | nil => exact ⟨c', hc', hs, rfl, rfl⟩
  | cons hstep _ ih =>
    obtain ⟨x, hx, hxs, hxa, hxo⟩ := ih (fun e he => hcommit e (List.mem_cons_of_mem _ he))
      (fun e he => hverdict e (List.mem_cons_of_mem _ he)) hc'
    rcases hstep.settled_old hx hxs with ⟨c, hc, hcs, hca, hco⟩ | he | he
    · exact ⟨c, hc, hcs, hca.trans hxa, hco.trans hxo⟩
    · exact absurd he (hcommit _ List.mem_cons_self _ _)
    · exact absurd he (hverdict _ List.mem_cons_self)

theorem Step.succeeded_kept (h : l.Step e l') {a : AttemptRow} (ha : a ∈ l.attempts)
    (hs : a.status = .succeeded) : ∃ a' ∈ l'.attempts, a'.id = a.id ∧ a'.status = .succeeded := by
  -- An update that meets no attempt that has succeeded, or leaves it so.
  have hupdate : ∀ {p : AttemptRow → Bool} {f : AttemptRow → AttemptRow},
      l'.attempts = updateWhere p f l.attempts → (p a = true → (f a).id = a.id ∧ (f a).status = .succeeded) →
      ∃ a' ∈ l'.attempts, a'.id = a.id ∧ a'.status = .succeeded := by
    intro p f he hf
    refine ⟨_, he ▸ mem_updateWhere.mpr ⟨a, ha, rfl⟩, ?_⟩
    by_cases hp : p a = true
    · rw [if_pos hp]
      exact hf hp
    · rw [if_neg hp]
      exact ⟨rfl, hs⟩
  cases h with
  | unlock | block | requeue | renew | progress | prepare => exact ⟨a, ha, rfl, hs⟩
  | claim => exact ⟨a, List.mem_append_left _ ha, rfl, hs⟩
  | reconcile => exact hupdate rfl fun _ => ⟨rfl, rfl⟩
  | commit => exact hupdate rfl fun hp => by simp [hs] at hp
  | release => exact hupdate rfl fun hp => by simp [hs, AttemptStatus.isLive] at hp
  | lapse => exact hupdate rfl fun hp => by simp [hs, AttemptStatus.isLive] at hp
  | verdict => exact hupdate rfl fun hp => by simp [hs] at hp
  | close => exact hupdate rfl fun hp => by simp [hs, AttemptStatus.isOpen] at hp

/-- An attempt succeeds when its checkpoint is reconciled. -/
theorem Step.succeeded_old (h : l.Step e l') {a' : AttemptRow} (ha' : a' ∈ l'.attempts)
    (hs : a'.status = .succeeded) : (∃ a ∈ l.attempts, a.id = a'.id ∧ a.status = .succeeded) ∨
      ∃ c ∈ l'.checkpoints, c.phase = .reconciled ∧ c.attemptId = a'.id := by
  have hupdate : ∀ {p : AttemptRow → Bool} {f : AttemptRow → AttemptRow},
      l'.attempts = updateWhere p f l.attempts →
      (∀ a, p a = true → (f a).status = .succeeded → ∃ c ∈ l'.checkpoints, c.phase = .reconciled ∧
        c.attemptId = (f a).id) →
      (∃ a ∈ l.attempts, a.id = a'.id ∧ a.status = .succeeded) ∨
        ∃ c ∈ l'.checkpoints, c.phase = .reconciled ∧ c.attemptId = a'.id := by
    intro p f he hf
    rw [he] at ha'
    obtain ⟨a, ha, rfl⟩ := mem_updateWhere.mp ha'
    by_cases hp : p a = true
    · rw [if_pos hp] at hs ⊢
      exact .inr (hf a hp hs)
    · rw [if_neg hp] at hs ⊢
      exact .inl ⟨a, ha, rfl, hs⟩
  cases h with
  | unlock | block | requeue | renew | progress | prepare => exact .inl ⟨a', ha', rfl, hs⟩
  | claim a _ _ _ _ _ _ hlive =>
    rcases List.mem_append.mp ha' with ha | ha
    · exact .inl ⟨a', ha, rfl, hs⟩
    · rw [List.mem_singleton.mp ha, hlive] at hs
      cases hs
  | commit => exact hupdate rfl fun _ _ h => by cases h
  | reconcile c hc hphase =>
    refine hupdate rfl fun a hp _ => ⟨{ c with phase := .reconciled }, mem_updateWhere.mpr ⟨c, hc, ?_⟩, rfl, ?_⟩
    · rw [if_pos (decide_eq_true ⟨rfl, hphase⟩)]
    · exact (of_decide_eq_true hp).1.symm
  | release a r _ _ hattempt =>
    refine hupdate rfl fun _ _ h => ?_
    rcases hattempt with hst | hst <;> cases hst.symm.trans h
  | lapse now =>
    refine hupdate rfl fun _ _ h => ?_
    simp only [ExpiredRow.attemptStatus] at h
    split_ifs at h
  | verdict a c resolution reason exhausted now _ _ _ hc hattempt hphase =>
    refine hupdate rfl fun x hp h => ?_
    cases resolution with
    | confirmed =>
      refine ⟨_, mem_updateWhere.mpr ⟨c, hc, if_pos (decide_eq_true ⟨rfl, hphase⟩)⟩, rfl, ?_⟩
      exact hattempt.trans (of_decide_eq_true hp).1.symm
    | retry | abandoned => cases h
  | close => exact hupdate rfl fun _ _ h => by cases h

/-! ## One outcome for each item -/

/-- At most one checkpoint is settled; an item has succeeded, and so has an attempt, by a reconciled one. -/
structure Delivered (l : Life) : Prop where
  single : ∀ c ∈ l.checkpoints, ∀ d ∈ l.checkpoints, c.phase.isSettled = true → d.phase.isSettled = true → c = d
  succeeded : l.item.status = .succeeded →
    ∃ c ∈ l.checkpoints, c.phase = .reconciled ∧ ∃ a ∈ l.attempts, a.id = c.attemptId ∧ a.status = .succeeded
  earned : ∀ a ∈ l.attempts, a.status = .succeeded → ∃ c ∈ l.checkpoints, c.phase = .reconciled ∧ c.attemptId = a.id

theorem delivered_new (h : l.IsNew) : l.Delivered := by
  refine ⟨by simp [h.checkpoints], fun hs => ?_, by simp [h.attempts]⟩
  rcases h.item.status with hst | hst <;> rw [hst] at hs <;> cases hs

/-- The event settles a checkpoint of an item that has settled none. -/
def Fresh (l : Life) (e : Event) : Prop :=
  ∀ attemptId id, e = .commit attemptId id → ∀ c ∈ l.checkpoints, c.phase.isSettled = false

/-- An item comes to succeed by a checkpoint that is reconciled with its attempt. -/
theorem Step.succeeds (h : l.Step e l') (hl : l.Sound) (hs : l'.item.status = .succeeded) :
    l.item.status = .succeeded ∨ ∃ c ∈ l'.checkpoints, c.phase = .reconciled ∧
      ∃ a ∈ l'.attempts, a.id = c.attemptId ∧ a.status = .succeeded := by
  cases h with
  | unlock | block | requeue | claim => cases hs
  | renew | progress | prepare | commit => exact .inl hs
  | reconcile c hc hphase =>
    by_cases hrun : l.item.status = .running
    · right
      rcases hl.owned.settled c hc (by rw [hphase]; rfl) with hf | ⟨-, a, ha, hid⟩
      · rw [hrun] at hf
        cases hf
      · refine ⟨_, mem_updateWhere.mpr ⟨c, hc, if_pos (decide_eq_true ⟨rfl, hphase⟩)⟩, rfl, _,
          mem_updateWhere.mpr ⟨a, ha.mem, if_pos (decide_eq_true ⟨hid, ha.live⟩)⟩, hid, rfl⟩
    · simp only [Life.reconcile, if_neg hrun] at hs
      exact .inl hs
  | release a r _ hstatus =>
    rcases hstatus with hst | hst | hst <;> cases hst.symm.trans hs
  | lapse now =>
    rcases lapse_status l.expired with hst | hst | hst <;> cases hst.symm.trans hs
  | verdict a c resolution reason exhausted now _ ha hparked hc hattempt hphase =>
    right
    cases resolution with
    | confirmed =>
      exact ⟨_, mem_updateWhere.mpr ⟨c, hc, if_pos (decide_eq_true ⟨rfl, hphase⟩)⟩, rfl, _,
        mem_updateWhere.mpr ⟨a, ha, if_pos (decide_eq_true ⟨rfl, hparked⟩)⟩, hattempt.symm, rfl⟩
    | retry => cases exhausted <;> cases hs
    | abandoned => cases hs
  | close error attemptError status hstatus =>
    simp only [Life.close] at hs
    split at hs
    · exact .inl hs
    · rcases hstatus with rfl | rfl <;> cases hs

theorem Step.unsettled (h : l.Step e l') (hf : l.Fresh e) (hl : l.Sound)
    (he : (∃ attemptId id, e = .commit attemptId id) ∨ e = .verdict .confirmed) :
    ∀ c ∈ l.checkpoints, c.phase.isSettled = false := by
  rcases he with ⟨attemptId, id, he⟩ | he
  · exact hf attemptId id he
  · cases h with
    | verdict _ _ _ _ _ _ hwaiting =>
      exact hl.owned.unsettled (by rw [hwaiting]; decide) (by rw [hwaiting]; rfl)
    | _ => cases he

/-- **Every event keeps one outcome at most.** -/
theorem Step.delivered (h : l.Step e l') (hf : l.Fresh e) (hl : l.Sound) (hd : l.Delivered) : l'.Delivered := by
  have hkept : ∀ c ∈ l.checkpoints, c.phase = .reconciled → c ∈ l'.checkpoints := by
    intro c hc hphase
    obtain ⟨c', hc', -, -, -, hsame⟩ := h.settled_kept hc (by rw [hphase]; rfl)
    exact hsame hphase ▸ hc'
  refine ⟨fun c hc d hd' hcs hds => ?_, fun hs => ?_, fun a' ha' hs => ?_⟩
  · rcases h.checkpoints with ⟨new, hnew, hl'⟩ | ⟨id, g, hl', hmoves⟩
    · have hold : ∀ x ∈ l'.checkpoints, x.phase.isSettled = true → x ∈ l.checkpoints := by
        intro x hx hxs
        rw [hl'] at hx
        refine (List.mem_append.mp hx).resolve_right fun hx => ?_
        rw [List.mem_singleton.mp hx, hnew] at hxs
        cases hxs
      exact hd.single c (hold c hc hcs) d (hold d hd' hds) hcs hds
    · rw [hl'] at hc hd'
      obtain ⟨c, hcm, rfl⟩ := List.mem_map.mp hc
      obtain ⟨d, hdm, rfl⟩ := List.mem_map.mp hd'
      -- If one of them is settled by the event, then so is the other.
      have hnew : ∀ x ∈ l.checkpoints, (g x).phase.isSettled = true → x.phase.isSettled = false →
          x.id = id ∧ ∀ y ∈ l.checkpoints, y.phase.isSettled = false := by
        intro x hx hxs hxo
        obtain ⟨hid, he⟩ := (hmoves x hx).settles hxs hxo
        exact ⟨hid, h.unsettled hf hl (he.imp (fun he => ⟨_, _, he⟩) fun he => he.1)⟩
      congr 1
      cases hco : c.phase.isSettled with
      | false =>
        obtain ⟨hcid, hopen⟩ := hnew c hcm hcs hco
        obtain ⟨hdid, -⟩ := hnew d hdm hds (hopen d hdm)
        exact eq_of_key_eq hl.tracked.checkpointIds hcm hdm (hcid.trans hdid.symm)
      | true =>
        cases hdo : d.phase.isSettled with
        | false =>
          rw [(hnew d hdm hds hdo).2 c hcm] at hco
          cases hco
        | true => exact hd.single c hcm d hdm hco hdo
  · rcases h.succeeds hl hs with hold | hnew
    · obtain ⟨c, hc, hphase, a, ha, hid, hst⟩ := hd.succeeded hold
      obtain ⟨a', ha', hid', hst'⟩ := h.succeeded_kept ha hst
      exact ⟨c, hkept c hc hphase, hphase, a', ha', hid'.trans hid, hst'⟩
    · exact hnew
  · rcases h.succeeded_old ha' hs with ⟨a, ha, hid, hst⟩ | hnew
    · obtain ⟨c, hc, hphase, hattempt⟩ := hd.earned a ha hst
      exact ⟨c, hkept c hc hphase, hphase, hattempt.trans hid⟩
    · exact hnew

end Life

/-! ## Transactions -/

/-- The attempt and the checkpoint that the transaction commits. -/
def Txn.commits? : Txn → Option (String × String)
  | .commitCheckpoint claim checkpointId .. => some (claim.attempt.id, checkpointId)
  | _ => none

/-- An attempt that commits has not committed before. -/
def CommitsOnce (s : Store) (t : Txn) : Prop := ∀ key ∈ t.commits?, s.hasCommitted key.1 = false

/-- The outcome that the transaction records for an attempt: its own, or the one of an operator's confirmation. -/
def Txn.recorded? (enc : Encoding) (s : Store) (t : Txn) : Option (String × WorkOutcome) :=
  match s.apply enc t, t with
  | .ok _, .commitCheckpoint claim _ outcome _ _ => some (claim.attempt.id, outcome)
  | .ok _, .resolveWaitingConfirmation _ workItemId .confirmed reason _ _ =>
    (pickBy (fun a b : AttemptRow => b.attemptNumber ≤ a.attemptNumber)
      (s.attempts.filter fun a => a.workItemId = workItemId ∧ a.status = .waitingConfirmation)).map
      fun attempt => (attempt.id, confirmedOutcome (trim reason))
  | _, _ => none

section Steps

variable {enc : Encoding} {s s' : Store} {t : Txn}

/-- The committed checkpoints of the attempt that commits are the one it commits. -/
def Life.Only (t : Txn) (l : Life) : Prop :=
  ∀ key ∈ t.commits?, ∀ c ∈ l.checkpoints, c.phase = .committed → c.attemptId = key.1 → c.id = key.2

theorem Life.Step.fresh {l l' : Life} {e : Life.Event} (h : l.Step e l') (hl : l.Sound) (ho : l.Only t)
    (he : ∀ attemptId id, e = .commit attemptId id → t.commits? = some (attemptId, id)) : l.Fresh e := by
  rintro attemptId id rfl d hd
  cases h with
  | commit a c outcome ha hc hattempt hphase =>
    cases hds : d.phase.isSettled with
    | false => rfl
    | true =>
      rcases hl.owned.settled d hd hds with hf | ⟨hcommitted, b, hb, hbid⟩
      · rw [ha.running] at hf
        cases hf
      · rw [hl.sequenced.unique hb ha] at hbid
        have hid := ho _ (he a.id c.id rfl) d hd hcommitted hbid.symm
        rw [eq_of_key_eq hl.tracked.checkpointIds hd hc hid, hphase] at hcommitted
        cases hcommitted

theorem Life.Step.only {l l' : Life} {e : Life.Event} (h : l.Step e l') (ho : l.Only t)
    (he : ∀ attemptId id, e = .commit attemptId id → t.commits? = some (attemptId, id)) : l'.Only t := by
  intro key hkey c hc hphase hattempt
  rcases h.committed hc hphase with hold | hnew
  · exact ho key hkey c hold hphase hattempt
  · have hcommits := he c.attemptId c.id hnew
    cases hkey.symm.trans hcommits
    rfl

/-- **One outcome at most**, along transactions that keep what is committed and commit once. -/
theorem delivered_exec (hw : WellFormed s) (hkeeps : KeepsCommit s t) (honce : CommitsOnce s t)
    (hs : s.Lives Life.Sound) (hd : s.Lives Life.Delivered) : (exec enc s t).Lives Life.Delivered := by
  have hlives : (exec enc s t).Lives fun l => l.Sound ∧ l.Delivered ∧ l.Only t := by
    refine lives_exec (p := fun e => e.Settles ∧
      ∀ attemptId id, e = .commit attemptId id → t.commits? = some (attemptId, id)) ?_ ?_ hw ?_ ?_
    · intro l hnew
      refine ⟨⟨Life.sequenced_new hnew, Life.tracked_new hnew, Life.owned_new hnew⟩, Life.delivered_new hnew, ?_⟩
      intro key _ c hc
      rw [hnew.checkpoints] at hc
      cases hc
    · rintro l e l' ⟨hsettles, hcommits⟩ ⟨hsound, hdelivered, honly⟩ hstep
      exact ⟨hstep.sound hsettles hsound, hstep.delivered (hstep.fresh hsound honly hcommits) hsound hdelivered,
        hstep.only honly hcommits⟩
    · intro s' ht w e he
      refine ⟨hkeeps.settles ht he, ?_⟩
      rintro attemptId id rfl
      obtain ⟨claim, outcome, actor, now, rfl, rfl⟩ := he.commit
      rfl
    · intro id l hl
      refine ⟨hs id l hl, hd id l hl, fun key hkey c hc hphase hattempt => ?_⟩
      have hnone := honce key hkey
      rw [Store.hasCommitted, List.any_eq_false] at hnone
      exact absurd (decide_eq_true ⟨hattempt, hphase⟩) (hnone c ((mem_life_checkpoints hl).mp hc).1)
  exact fun id l hl => (hlives id l hl).2.1

/-- **What is settled has an outcome that was recorded**, before or by the transaction. -/
theorem settled_apply (hw : WellFormed s) (ht : s.apply enc t = .ok s') {c' : CheckpointRow}
    (hc' : c' ∈ s'.checkpoints) (hs : c'.phase.isSettled = true) :
    (∃ c ∈ s.checkpoints, c.phase.isSettled = true ∧ c.attemptId = c'.attemptId ∧ c.outcome = c'.outcome) ∨
      ∃ outcome, t.recorded? enc s = some (c'.attemptId, outcome) ∧ c'.outcome = some outcome := by
  have hold : (∀ attemptId id w, ¬ t.Emits s w (.commit attemptId id)) →
      (∀ w, ¬ t.Emits s w (.verdict .confirmed)) →
      ∃ c ∈ s.checkpoints, c.phase.isSettled = true ∧ c.attemptId = c'.attemptId ∧ c.outcome = c'.outcome := by
    intro hcommit hverdict
    have hw' := wellFormed_apply hw ht
    obtain ⟨a, ham, -, haw, -⟩ := hw'.checkpointAttempt c' hc'
    obtain ⟨w, hwm, hwi, -⟩ := hw'.attemptItem a ham
    have hl' := hw'.life? hwm
    have hcl := (mem_life_checkpoints hl').mpr ⟨hc', haw.symm.trans hwi.symm⟩
    cases hl : s.life? w.id with
    | none =>
      rw [(life_born hw ht hl hl').checkpoints] at hcl
      cases hcl
    | some l =>
      obtain ⟨es, l₁, h₁, hpath, hemits, -⟩ := life_apply hw hl ht
      cases h₁.symm.trans hl'
      obtain ⟨c, hc, hfound⟩ := hpath.settled_old
        (fun e he attemptId id h => hcommit attemptId id l.item (h ▸ hemits e he))
        (fun e he h => hverdict l.item (h ▸ hemits e he)) hcl hs
      exact ⟨c, ((mem_life_checkpoints hl).mp hc).1, hfound⟩
  have hupdate : ∀ {p : CheckpointRow → Bool} {f : CheckpointRow → CheckpointRow} {attemptId : String}
      {outcome : WorkOutcome}, c' ∈ updateWhere p f s.checkpoints →
      (∀ c ∈ s.checkpoints, p c = true → (f c).attemptId = attemptId ∧ (f c).outcome = some outcome) →
      t.recorded? enc s = some (attemptId, outcome) →
      (∃ c ∈ s.checkpoints, c.phase.isSettled = true ∧ c.attemptId = c'.attemptId ∧ c.outcome = c'.outcome) ∨
        ∃ outcome, t.recorded? enc s = some (c'.attemptId, outcome) ∧ c'.outcome = some outcome := by
    intro p f attemptId outcome hm hf hrecorded
    obtain ⟨c, hc, rfl⟩ := mem_updateWhere.mp hm
    by_cases hp : p c = true
    · rw [if_pos hp, (hf c hc hp).1, (hf c hc hp).2]
      exact .inr ⟨outcome, hrecorded, rfl⟩
    · rw [if_neg hp] at hs ⊢
      exact .inl ⟨c, hc, hs, rfl, rfl⟩
  cases t with
  | commitCheckpoint claim checkpointId outcome actor now =>
    have hrecorded : (Txn.commitCheckpoint claim checkpointId outcome actor now).recorded? enc s
        = some (claim.attempt.id, outcome) := by
      unfold Txn.recorded?
      rw [ht]
    obtain ⟨-, current, -, -, ⟨-, -, rfl⟩ | ⟨-, rfl⟩⟩ := commitCheckpointTx_ok ht
    · exact .inl ⟨c', hc', hs, rfl, rfl⟩
    · exact hupdate hc' (fun c _ hp => ⟨(of_decide_eq_true hp).2.2, rfl⟩) hrecorded
  | resolveWaitingConfirmation goalId workItemId resolution reason actor now =>
    cases resolution with
    | confirmed =>
      obtain ⟨item, attempt, checkpoint, -, -, hparked, hlast, -, rfl⟩ := resolveWaitingConfirmation_ok ht
      have hrecorded : (Txn.resolveWaitingConfirmation goalId workItemId .confirmed reason actor now).recorded? enc s
          = some (attempt.id, confirmedOutcome (trim reason)) := by
        unfold Txn.recorded?
        rw [ht]
        exact congrArg (Option.map _) hparked
      have htables : (((applyVerdict item attempt checkpoint .confirmed (trim reason) now s).unlockReady
          goalId).refreshGoalStatus goalId).checkpoints
            = settlePrepared checkpoint.id (ConfirmationResolution.confirmed.settle (trim reason)) s.checkpoints :=
        (refreshGoalStatus_tables goalId).2.2.1
      refine hupdate (htables ▸ hc') (fun c hc hp => ⟨?_, rfl⟩) hrecorded
      obtain ⟨hcm, hcp⟩ := List.mem_filter.mp (List.mem_of_getLast? hlast)
      have hsame : c = checkpoint := eq_of_key_eq hw.checkpointIds hc hcm (of_decide_eq_true hp).1
      rw [hsame]
      exact (of_decide_eq_true hcp).1
    | retry | abandoned =>
      refine .inl (hold (fun _ _ _ h => ?_) fun _ h => ?_)
      · obtain ⟨_, _, _, _, he, -⟩ := h.commit
        cases he
      · obtain ⟨_, _, _, _, he⟩ := h.verdict
        cases he
  | _ =>
    refine .inl (hold (fun _ _ _ h => ?_) fun _ h => ?_)
    · obtain ⟨_, _, _, _, he, -⟩ := h.commit
      cases he
    · obtain ⟨_, _, _, _, he⟩ := h.verdict
      cases he

end Steps

/-! ## The query -/

/-- The checkpoints that `work_item_outcome` and `upstream_outcomes` read of an item. -/
def outcomeRows (workItemId : String) (s : Store) : List CheckpointRow :=
  s.checkpoints.filter fun c =>
    c.workItemId = workItemId ∧ (c.phase = .committed ∨ c.phase = .reconciled) ∧ c.outcome.isSome

/-- `a` comes before `b` in `ORDER BY updated_at DESC, id DESC`; `updatedAt` is the column by checkpoint id. -/
def isUpdatedAfter (updatedAt : String → Int) (a b : CheckpointRow) : Bool :=
  updatedAt b.id < updatedAt a.id ∨ (updatedAt b.id = updatedAt a.id ∧ b.id < a.id)

/-- `work_item_outcome`: the row ranked first, if there is one. -/
def workItemOutcome (updatedAt : String → Int) (workItemId : String) (s : Store) : Option WorkOutcome :=
  (pickBy (fun a b => !isUpdatedAfter updatedAt b a) (outcomeRows workItemId s)).bind (·.outcome)

/-- The rows of `upstream_outcomes`: for each dependency the step id and the checkpoint ranked first. -/
def upstreamRows (updatedAt : String → Int) (workItemId : String) (s : Store) : List (String × WorkOutcome) :=
  ((s.dependencies.filter fun d => d.workItemId = workItemId).map (·.dependsOnWorkItemId)).dedup.filterMap
    fun dep => do
      let outcome ← workItemOutcome updatedAt dep s
      let item ← s.workItem? dep
      pure (item.stepId, outcome)

/-- `BTreeMap::insert`, up to the order of the keys. -/
def insertEntry {β : Type} (entries : List (String × β)) (entry : String × β) : List (String × β) :=
  entries.filter (fun e => e.1 ≠ entry.1) ++ [entry]

/-- `upstream_outcomes`: a map from step ids to outcomes. -/
def upstreamOutcomes (updatedAt : String → Int) (workItemId : String) (s : Store) :
    List (String × WorkOutcome) :=
  (upstreamRows updatedAt workItemId s).foldl insertEntry []

theorem foldl_insertEntry {β : Type} {rows entries : List (String × β)}
    (h : ((entries ++ rows).map (·.1)).Nodup) : rows.foldl insertEntry entries = entries ++ rows := by
  induction rows generalizing entries with
  | nil => rw [List.foldl_nil, List.append_nil]
  | cons row rows ih =>
    have hkept : entries.filter (fun e => e.1 ≠ row.1) = entries := by
      refine List.filter_eq_self.mpr fun e he => ?_
      rw [List.map_append, List.nodup_append] at h
      have hne := h.2.2 e.1 (List.mem_map_of_mem he) row.1 (List.mem_map_of_mem List.mem_cons_self)
      simpa using hne
    rw [List.append_cons entries row rows] at h ⊢
    rw [List.foldl_cons, insertEntry, hkept]
    exact ih h

section Query

variable {s : Store} {w : WorkItemRow} {updatedAt : String → Int}

/-- The item has succeeded, and `outcome` is what its one succeeded attempt left in the one reconciled
checkpoint; `recorded` are the outcomes that were recorded. -/
structure Store.Delivers (s : Store) (recorded : List (String × WorkOutcome)) (w : WorkItemRow)
    (outcome : WorkOutcome) : Prop where
  succeeded : w.status = .succeeded
  checkpoint : ∃ c ∈ s.checkpoints, c.workItemId = w.id ∧ c.phase = .reconciled ∧ c.outcome = some outcome ∧
    (∀ d ∈ s.checkpoints, d.workItemId = w.id → d.phase = .committed ∨ d.phase = .reconciled → d = c) ∧
    ∃ a ∈ s.attempts, a.workItemId = w.id ∧ a.id = c.attemptId ∧ a.status = .succeeded ∧
      (∀ b ∈ s.attempts, b.workItemId = w.id → b.status = .succeeded → b = a) ∧ (a.id, outcome) ∈ recorded

/-- What is settled has a recorded outcome. -/
def Store.Recorded (s : Store) (recorded : List (String × WorkOutcome)) : Prop :=
  ∀ c ∈ s.checkpoints, c.phase.isSettled = true →
    ∃ outcome, (c.attemptId, outcome) ∈ recorded ∧ c.outcome = some outcome

/-- **A succeeded item has one outcome.** -/
theorem delivers_of_succeeded (hw : WellFormed s) (hs : s.Lives Life.Sound) (hd : s.Lives Life.Delivered)
    {recorded : List (String × WorkOutcome)} (hr : s.Recorded recorded) (hwm : w ∈ s.workItems)
    (hst : w.status = .succeeded) : ∃ outcome, s.Delivers recorded w outcome := by
  have hl := hw.life? hwm
  have hdelivered := hd w.id _ hl
  have htracked := (hs w.id _ hl).tracked
  obtain ⟨c, hc, hphase, a, ha, hid, hast⟩ := hdelivered.succeeded hst
  obtain ⟨hcm, hcw⟩ := (mem_life_checkpoints hl).mp hc
  obtain ⟨ham, haw⟩ := (mem_life_attempts hl).mp ha
  obtain ⟨outcome, hmem, houtcome⟩ := hr c hcm (by rw [hphase]; rfl)
  refine ⟨outcome, hst, c, hcm, hcw, hphase, houtcome, fun d hdm hdw hdp => ?_, a, ham, haw, hid, hast,
    fun b hbm hbw hbs => ?_, hid ▸ hmem⟩
  · refine hdelivered.single d ((mem_life_checkpoints hl).mpr ⟨hdm, hdw⟩) c hc ?_ (by rw [hphase]; rfl)
    rcases hdp with hdp | hdp <;> rw [hdp] <;> rfl
  · have hb := (mem_life_attempts hl).mpr ⟨hbm, hbw⟩
    obtain ⟨d, hdm, hdp, hda⟩ := hdelivered.earned b hb hbs
    have hsame := hdelivered.single d hdm c hc (by rw [hdp]; rfl) (by rw [hphase]; rfl)
    rw [hsame] at hda
    exact eq_of_key_eq htracked.ids hb ha (hda.symm.trans hid.symm)

theorem workItemOutcome_eq {recorded : List (String × WorkOutcome)} {outcome : WorkOutcome}
    (h : s.Delivers recorded w outcome) : workItemOutcome updatedAt w.id s = some outcome := by
  obtain ⟨c, hcm, hcw, hphase, houtcome, hone, -⟩ := h.checkpoint
  have hmem : c ∈ outcomeRows w.id s := by
    refine List.mem_filter.mpr ⟨hcm, decide_eq_true ⟨hcw, .inr hphase, ?_⟩⟩
    rw [houtcome]
    rfl
  rw [workItemOutcome]
  cases hpick : pickBy (fun a b => !isUpdatedAfter updatedAt b a) (outcomeRows w.id s) with
  | none =>
    rw [pickBy_eq_none.mp hpick] at hmem
    cases hmem
  | some d =>
    obtain ⟨hdm, hd⟩ := List.mem_filter.mp (pickBy_mem hpick)
    obtain ⟨hdw, hdp, -⟩ := of_decide_eq_true hd
    rw [hone d hdm hdw hdp]
    exact houtcome

theorem nodup_keys {α β : Type} {l : List α} (hl : l.Nodup) {f : α → Option (String × β)}
    (hinj : ∀ a ∈ l, ∀ b ∈ l, ∀ x y, f a = some x → f b = some y → x.1 = y.1 → a = b) :
    ((l.filterMap f).map (·.1)).Nodup := by
  rw [List.Nodup, List.pairwise_map, List.pairwise_filterMap]
  refine hl.imp_of_mem fun ha hb hne x hx y hy he => ?_
  exact hne (hinj _ ha _ hb x y hx hy he)

/-- The item waits for items of different steps. -/
def Store.HasDistinctSources (s : Store) (w : WorkItemRow) : Prop :=
  ∀ d ∈ s.dependencies, d.workItemId = w.id → ∀ e ∈ s.dependencies, e.workItemId = w.id →
    ∀ p ∈ s.workItems, ∀ q ∈ s.workItems, p.id = d.dependsOnWorkItemId → q.id = e.dependsOnWorkItemId →
      p.stepId = q.stepId → p = q

/-- **One entry for each dependency**, once all of them have succeeded. -/
theorem upstream_complete (hw : WellFormed s) {recorded : List (String × WorkOutcome)}
    (hdelivers : ∀ p ∈ s.workItems, p.status = .succeeded → ∃ outcome, s.Delivers recorded p outcome)
    (hall : s.DependenciesSucceeded w.id) (hdistinct : s.HasDistinctSources w) :
    ((upstreamOutcomes updatedAt w.id s).map (·.1)).Nodup ∧
    (∀ d ∈ s.dependencies, d.workItemId = w.id → ∃ p ∈ s.workItems, p.id = d.dependsOnWorkItemId ∧
      ∃ outcome, s.Delivers recorded p outcome ∧ (p.stepId, outcome) ∈ upstreamOutcomes updatedAt w.id s) ∧
    ∀ entry ∈ upstreamOutcomes updatedAt w.id s, ∃ d ∈ s.dependencies, d.workItemId = w.id ∧
      ∃ p ∈ s.workItems, p.id = d.dependsOnWorkItemId ∧ p.stepId = entry.1 ∧ s.Delivers recorded p entry.2 := by
  have hsource : ∀ dep ∈ ((s.dependencies.filter fun d => d.workItemId = w.id).map (·.dependsOnWorkItemId)).dedup,
      ∃ d ∈ s.dependencies, d.workItemId = w.id ∧ d.dependsOnWorkItemId = dep := by
    intro dep hdep
    obtain ⟨d, hd, rfl⟩ := List.mem_map.mp (List.mem_dedup.mp hdep)
    obtain ⟨hdm, hdw⟩ := List.mem_filter.mp hd
    exact ⟨d, hdm, of_decide_eq_true hdw, rfl⟩
  have hrow : ∀ d ∈ s.dependencies, d.workItemId = w.id → ∃ p ∈ s.workItems, p.id = d.dependsOnWorkItemId ∧
      ∃ outcome, s.Delivers recorded p outcome ∧
        (do
          let outcome ← workItemOutcome updatedAt d.dependsOnWorkItemId s
          let item ← s.workItem? d.dependsOnWorkItemId
          pure (item.stepId, outcome)) = some (p.stepId, outcome) := by
    intro d hd hdw
    obtain ⟨p, hp, hid, hst⟩ := hall d hd hdw
    obtain ⟨outcome, hdel⟩ := hdelivers p hp hst
    have hfound : s.workItem? p.id = some p := find?_of_mem hw.itemIds hp
    refine ⟨p, hp, hid, outcome, hdel, ?_⟩
    rw [← hid, workItemOutcome_eq hdel, hfound]
    rfl
  have hkeys : ((upstreamRows updatedAt w.id s).map (·.1)).Nodup := by
    refine nodup_keys (List.nodup_dedup _) fun a ha b hb x y hx hy he => ?_
    obtain ⟨d, hd, hdw, rfl⟩ := hsource a ha
    obtain ⟨e, hem, hew, rfl⟩ := hsource b hb
    obtain ⟨p, hp, hpid, _, -, hprow⟩ := hrow d hd hdw
    obtain ⟨q, hq, hqid, _, -, hqrow⟩ := hrow e hem hew
    cases hx.symm.trans hprow
    cases hy.symm.trans hqrow
    rw [← hpid, ← hqid, hdistinct d hd hdw e hem hew p hp q hq hpid hqid he]
  have hentries : upstreamOutcomes updatedAt w.id s = upstreamRows updatedAt w.id s :=
    foldl_insertEntry hkeys
  rw [hentries]
  refine ⟨hkeys, fun d hd hdw => ?_, fun entry hentry => ?_⟩
  · obtain ⟨p, hp, hpid, outcome, hdel, hprow⟩ := hrow d hd hdw
    refine ⟨p, hp, hpid, outcome, hdel, List.mem_filterMap.mpr ⟨d.dependsOnWorkItemId, ?_, hprow⟩⟩
    exact List.mem_dedup.mpr (List.mem_map.mpr ⟨d, List.mem_filter.mpr ⟨hd, decide_eq_true hdw⟩, rfl⟩)
  · obtain ⟨dep, hdep, hx⟩ := List.mem_filterMap.mp hentry
    obtain ⟨d, hd, hdw, rfl⟩ := hsource dep hdep
    obtain ⟨p, hp, hpid, outcome, hdel, hprow⟩ := hrow d hd hdw
    cases hx.symm.trans hprow
    exact ⟨d, hd, hdw, p, hp, hpid, rfl, hdel⟩

end Query

/-! ## Pools of workers -/

namespace Pool

variable {enc : Encoding} {p : Pool} {a : Action}

/-- The outcome that an action records. -/
def recorded? (enc : Encoding) (p : Pool) (a : Action) : Option (String × WorkOutcome) :=
  (p.txn? enc a).bind fun t => t.recorded? enc p.store

/-- The outcomes that a run records. -/
def recorded (enc : Encoding) (acts : List Action) : List (String × WorkOutcome) :=
  Machine.collect (step enc) (recorded? enc) .empty acts

theorem Inv.commitsOnce_txn (h : p.Inv) {t : Txn} (ht : p.txn? enc a = some t) : CommitsOnce p.store t := by
  intro key hkey
  cases t with
  | commitCheckpoint claim checkpointId outcome actor now =>
    cases hkey
    obtain ⟨j, input, w, phase, -, hj, hclaim, hacts⟩ := txn_holder ht rfl
    cases hacts with
    | commit _ _ hphase =>
      exact h.uncommitted w (List.mem_of_getElem? hj) (by rw [hphase]; rfl)
  | _ => cases hkey

/-- What every run keeps of the outcomes. -/
structure Flows (p : Pool) (recorded : List (String × WorkOutcome)) : Prop where
  inv : p.Inv
  delivered : p.store.Lives Life.Delivered
  ordered : p.store.Ordered
  started : ∀ a ∈ p.store.attempts, p.store.DependenciesSucceeded a.workItemId
  recorded : p.store.Recorded recorded

theorem flows_empty : Flows .empty [] where
  inv := inv_empty
  delivered := lives_empty _
  ordered := Store.ordered_empty
  started := by simp [empty, Store.empty]
  recorded := by simp [empty, Store.empty, Store.Recorded]

theorem started_exec {s : Store} (hw : WellFormed s) (ho : s.Ordered)
    (hs : ∀ a ∈ s.attempts, s.DependenciesSucceeded a.workItemId) (t : Txn) :
    ∀ a ∈ (exec enc s t).attempts, (exec enc s t).DependenciesSucceeded a.workItemId := by
  intro a ha
  by_cases hnew : ∀ b ∈ s.attempts, b.id ≠ a.id
  · exact dependenciesSucceeded_attempt hw ho ha hnew
  · simp only [not_forall, not_not] at hnew
    obtain ⟨b, hb, hid⟩ := hnew
    obtain ⟨b', hb', he⟩ := attempt_exec enc t hb
    have hsame : b' = a := eq_of_key_eq (wellFormed_exec t hw).attemptIds hb' ha
      ((congrArg AttemptRow.id he).trans hid)
    have hitem : b.workItemId = a.workItemId := hsame ▸ (congrArg AttemptRow.workItemId he).symm
    intro d hd hdw
    obtain ⟨w, hwm, hwi, -⟩ := hw.attemptItem b hb
    rcases exec_cases enc s t with hsame | ht
    · rw [hsame] at hd ⊢
      exact hs b hb d hd (hdw.trans hitem.symm)
    · have hold := dependency_old hw ht hwm hd (hdw.trans (hitem.symm.trans hwi.symm))
      exact hasSucceeded_exec enc hw (hs b hb d hold (hdw.trans hitem.symm)) t

/-- **Every action keeps the outcomes.** -/
theorem flows_step (recorded : List (String × WorkOutcome)) (h : p.Flows recorded) :
    (p.step enc a).Flows (recorded ++ (p.recorded? enc a).toList) := by
  have hinv := inv_step enc p a h.inv
  cases ht : p.txn? enc a with
  | none =>
    have hstore : (p.step enc a).store = p.store := by simp only [step, ht]
    have hout : p.recorded? enc a = none := by rw [recorded?, ht]; rfl
    rw [hout, Option.toList_none, List.append_nil]
    exact ⟨hinv, hstore ▸ h.delivered, hstore ▸ h.ordered, hstore ▸ h.started, hstore ▸ h.recorded⟩
  | some t =>
    have hstore : (p.step enc a).store = exec enc p.store t := by simp only [step, ht]
    have hout : p.recorded? enc a = t.recorded? enc p.store := by rw [recorded?, ht]; rfl
    have hw := h.inv.wellFormed
    rw [hout]
    refine ⟨hinv, ?_, ?_, ?_, ?_⟩
    · rw [hstore]
      exact delivered_exec hw (h.inv.keepsCommit_txn ht) (h.inv.commitsOnce_txn ht) h.inv.sound h.delivered
    · rw [hstore]
      exact ordered_exec hw t h.ordered
    · rw [hstore]
      exact started_exec hw h.ordered h.started t
    · rw [hstore]
      intro c' hc' hs
      rcases exec_cases enc p.store t with hsame | hok
      · obtain ⟨outcome, hmem, ho⟩ := h.recorded c' (hsame ▸ hc') hs
        exact ⟨outcome, List.mem_append_left _ hmem, ho⟩
      · rcases settled_apply hw hok hc' hs with ⟨c, hc, hcs, hattempt, houtcome⟩ | ⟨outcome, hrec, ho⟩
        · obtain ⟨outcome, hmem, ho⟩ := h.recorded c hc hcs
          exact ⟨outcome, List.mem_append_left _ (hattempt ▸ hmem), houtcome ▸ ho⟩
        · refine ⟨outcome, List.mem_append_right _ ?_, ho⟩
          rw [hrec]
          exact List.mem_singleton_self _

theorem flows_run (enc : Encoding) (acts : List Action) : (run enc acts).Flows (recorded enc acts) := by
  have hrun : Flows (Machine.run (step enc) .empty acts)
      ([] ++ Machine.collect (step enc) (recorded? enc) .empty acts) :=
    Machine.collect_invariant (G := fun _ _ => True) (J := Flows)
      (fun _ _ recorded _ h => flows_step recorded h)
      (Machine.along_of_forall fun _ _ _ => trivial) flows_empty
  exact hrun

end Pool

/-- **Dataflow completeness**, in every pool that any run reaches and for all update times: a succeeded item has one
outcome, that of its one reconciled checkpoint and its one succeeded attempt, as it was recorded; and for an item
that has been claimed the query returns one entry for each dependency, with that outcome. -/
theorem dataflow_complete (enc : Encoding) (acts : List Action) (updatedAt : String → Int) :
    (∀ w ∈ (Pool.run enc acts).store.workItems, w.status = .succeeded →
      ∃ outcome, (Pool.run enc acts).store.Delivers (Pool.recorded enc acts) w outcome ∧
        workItemOutcome updatedAt w.id (Pool.run enc acts).store = some outcome) ∧
    ∀ w ∈ (Pool.run enc acts).store.workItems,
      (∃ a ∈ (Pool.run enc acts).store.attempts, a.workItemId = w.id) →
      (Pool.run enc acts).store.HasDistinctSources w →
      ((upstreamOutcomes updatedAt w.id (Pool.run enc acts).store).map (·.1)).Nodup ∧
      (∀ d ∈ (Pool.run enc acts).store.dependencies, d.workItemId = w.id →
        ∃ p ∈ (Pool.run enc acts).store.workItems, p.id = d.dependsOnWorkItemId ∧
          ∃ outcome, (Pool.run enc acts).store.Delivers (Pool.recorded enc acts) p outcome ∧
            (p.stepId, outcome) ∈ upstreamOutcomes updatedAt w.id (Pool.run enc acts).store) ∧
      ∀ entry ∈ upstreamOutcomes updatedAt w.id (Pool.run enc acts).store,
        ∃ d ∈ (Pool.run enc acts).store.dependencies, d.workItemId = w.id ∧
          ∃ p ∈ (Pool.run enc acts).store.workItems, p.id = d.dependsOnWorkItemId ∧ p.stepId = entry.1 ∧
            (Pool.run enc acts).store.Delivers (Pool.recorded enc acts) p entry.2 := by
  have h := Pool.flows_run enc acts
  have hw := h.inv.wellFormed
  have hdelivers : ∀ w ∈ (Pool.run enc acts).store.workItems, w.status = .succeeded →
      ∃ outcome, (Pool.run enc acts).store.Delivers (Pool.recorded enc acts) w outcome :=
    fun w hwm hst => delivers_of_succeeded hw h.inv.sound h.delivered h.recorded hwm hst
  refine ⟨fun w hwm hst => ?_, fun w _ ⟨a, ha, haw⟩ hdistinct => ?_⟩
  · obtain ⟨outcome, hdel⟩ := hdelivers w hwm hst
    exact ⟨outcome, hdel, workItemOutcome_eq hdel⟩
  · exact upstream_complete hw hdelivers (haw ▸ h.started a ha) hdistinct

end Xiaomaolv
