import Xiaomaolv.Loop.Worker

/-!
# Exclusive ownership and fencing

* **`exclusive_ownership`**: in every reachable pool an item has exactly one live attempt when it runs
  and none otherwise, under the item's tokens, and the tokens of its attempts grow.
* **`fenced`**: a claim that a later attempt supersedes, or whose lease has passed, changes nothing;
  and a running item's lease is either current or expired.
-/

namespace Xiaomaolv

open Table LoopStore

/-- The attempts of an item, in the order of their creation. -/
def Store.attemptsOf (s : Store) (id : String) : List AttemptRow :=
  s.attempts.filter fun a => a.workItemId = id

/-! ## Exclusive ownership -/

/-- One live attempt when the item runs and none otherwise, under the item's tokens; later attempts
carry higher tokens. -/
structure Exclusive (w : WorkItemRow) (attempts : List AttemptRow) : Prop where
  count : (attempts.filter fun a => a.status.isLive).length = if w.status = .running then 1 else 0
  tokens : ∀ a ∈ attempts, a.status.isLive = true →
    w.leaseToken = some a.leaseToken ∧ w.fencingToken = a.fencingToken
  increasing : attempts.Pairwise fun a b =>
    a.attemptNumber < b.attemptNumber ∧ a.fencingToken < b.fencingToken

namespace Life

variable {l : Life} (hq : l.Sequenced) (hl : l.Owned)

include hq hl

theorem count_live : (l.attempts.filter fun a => a.status.isLive).length
    = if l.item.status = .running then 1 else 0 := by
  split_ifs with hrun
  · obtain ⟨a, ha, hlive⟩ := hl.held hrun
    have hmem : a ∈ l.attempts.filter fun a => a.status.isLive := List.mem_filter.mpr ⟨ha, hlive⟩
    have hall : ∀ b ∈ l.attempts.filter fun a => a.status.isLive, b = a := fun b hb =>
      hq.unique (hl.owner b (List.mem_filter.mp hb).1 (List.mem_filter.mp hb).2) (hl.owner a ha hlive)
    have hnodup : (l.attempts.filter fun a => a.status.isLive).Nodup := by
      have hne : l.attempts.Pairwise fun x y => x ≠ y :=
        (List.pairwise_map.mp hq.increasing).imp fun {x y} h (he : x = y) =>
          Nat.ne_of_lt h.2 (congrArg (fun a : AttemptRow => a.order.2) he)
      exact hne.filter _
    rw [List.eq_replicate_of_mem hall, List.nodup_replicate] at hnodup
    have hpos := List.length_pos_of_mem hmem
    omega
  · rw [List.length_eq_zero_iff, List.filter_eq_nil_iff]
    exact fun a ha hlive => hrun (hl.owner a ha hlive).running

theorem exclusive : Exclusive l.item l.attempts where
  count := count_live hq hl
  tokens := fun a ha hlive =>
    ⟨(hl.owner a ha hlive).leaseToken, (hl.owner a ha hlive).fencingToken⟩
  increasing := List.pairwise_map.mp hq.increasing

end Life

/-- **Exclusive ownership of work items**, in every pool that any run reaches. -/
theorem exclusive_ownership (enc : Encoding) (acts : List Action) :
    ∀ w ∈ (Pool.run enc acts).store.workItems,
      Exclusive w ((Pool.run enc acts).store.attemptsOf w.id) := by
  intro w hw
  have hinv := Pool.inv_run enc acts
  have hsound := hinv.sound w.id _ (hinv.wellFormed.life? hw)
  exact Life.exclusive hsound.sequenced hsound.owned

namespace Sample

/-- A worker claims the step of `solo`. -/
def claimed : List Action :=
  (admission solo).map .shared ++ [.claim "goal" none "w1" 300 "lease" "attempt" 0]

/-- The item after the claim. -/
def runningItem : WorkItemRow where
  id := "first"
  goalId := "goal"
  workflowId := "plan"
  stepId := "build"
  status := .running
  handler := "provider_analysis"
  effectClass := .read
  input := .object .nil
  maxAttempts := 2
  backoffSecs := 0
  ordinal := 0
  leaseToken := some "lease"
  leaseUntil := some 300
  fencingToken := 1

end Sample

theorem exclusive_ownership_claimed :
    Exclusive Sample.runningItem ((Pool.run Sample.encoding Sample.claimed).store.attemptsOf "first") :=
  exclusive_ownership Sample.encoding Sample.claimed Sample.runningItem (by decide +kernel)

/-! ## Fencing -/

/-- The operations that present a claim, each with the clock of its transaction. -/
inductive HolderOp (enc : Encoding) (claim : WorkClaim) (now : Int) : (α : Type) → Op α → Prop
  | renewClaim (leaseSecs : Nat) :
      HolderOp enc claim now Int (renewClaim claim leaseSecs now)
  | prepareCheckpoint (idempotencyKey : String) (replaySafe : Bool) (actor checkpointId : String) :
      HolderOp enc claim now CheckpointRow
        (prepareCheckpoint claim idempotencyKey replaySafe actor checkpointId now)
  | commitCheckpoint (checkpointId : String) (outcome : WorkOutcome) (actor : String) :
      HolderOp enc claim now Unit (commitCheckpoint enc claim checkpointId outcome actor now)
  | finishAttempt (checkpointId actor : String) (later : Int) :
      HolderOp enc claim now ResumeReport (finishAttempt claim checkpointId actor now later)
  | failAttempt (error : String) (retryable : Bool) (actor : String) (later : Int) :
      HolderOp enc claim now ResumeReport (failAttempt claim error retryable actor now later)
  | deferAttempt (untilUnix : Int) (actor : String) (later : Int) :
      HolderOp enc claim now ResumeReport (deferAttempt claim untilUnix actor now later)
  | continueAttempt (continuation : WorkContinuation) (actor : String) (started later : Int) :
      HolderOp enc claim now ResumeReport
        (continueAttempt enc claim continuation actor started now later)
  | recordPhaseProgress (continuation : WorkContinuation) (actor : String) :
      HolderOp enc claim now WorkPhaseProgress (recordPhaseProgress enc claim continuation actor now)
  | blockWorkItem (reason actor : String) :
      HolderOp enc claim now WorkItemRecord (blockWorkItem claim reason actor now)

/-- A later attempt of the claim's item exists. -/
def Superseded (s : Store) (claim : WorkClaim) : Prop :=
  ∃ a ∈ s.attempts, ∃ b ∈ s.attempts, claim.IsOf a ∧ b.workItemId = a.workItemId ∧
    a.attemptNumber < b.attemptNumber

instance (s : Store) (claim : WorkClaim) : Decidable (Superseded s claim) :=
  inferInstanceAs (Decidable (∃ a ∈ s.attempts, ∃ b ∈ s.attempts, claim.IsOf a ∧
    b.workItemId = a.workItemId ∧ a.attemptNumber < b.attemptNumber))

/-- The `lease_until` of the claim's item is below the clock. -/
def LeasePassed (s : Store) (claim : WorkClaim) (now : Int) : Prop :=
  ∃ w ∈ s.workItems, w.id = claim.workItem.id ∧ ∃ leaseUntil, w.leaseUntil = some leaseUntil ∧
    leaseUntil < now

/-- The operation fails and leaves every table as it was. -/
def Refused {α : Type} (op : Op α) (s : Store) : Prop := ∃ error, op s = (.error error, s)

section

variable {α β : Type} {s : Store}

theorem refused_transact {tx : Store → Except String (α × Store)} (h : ∀ r, tx s ≠ .ok r) :
    Refused (transact tx) s := by
  cases hx : tx s with
  | ok r => exact absurd hx (h r)
  | error error => exact ⟨error, by simp [transact, ExceptT.mk, hx]⟩

theorem refused_transact_ {tx : Store → Except String Store} (h : ∀ s', tx s ≠ .ok s') :
    Refused (transact_ tx) s := by
  refine refused_transact fun r hr => ?_
  obtain ⟨s', hs', -⟩ := map_eq_ok.mp hr
  exact h s' hs'

theorem Refused.bind {op : Op α} (h : Refused op s) (rest : α → Op β) : Refused (op >>= rest) s := by
  obtain ⟨error, he⟩ := h
  refine ⟨error, ?_⟩
  have hbind : (op >>= rest) s = ExceptT.bindCont rest (op s).1 (op s).2 := rfl
  rw [hbind, he]
  rfl

end

namespace Life

variable {l : Life} {a b : AttemptRow}

theorem Sequenced.fencing_lt (hq : l.Sequenced) (ha : a ∈ l.attempts) (hb : b ∈ l.attempts)
    (h : a.attemptNumber < b.attemptNumber) : a.fencingToken < l.item.fencingToken := by
  have hbound := (hq.bound b.order (List.mem_map_of_mem hb)).2
  have hlt : a.fencingToken < b.fencingToken := by
    obtain ⟨i, hi, rfl⟩ := List.getElem_of_mem ha
    obtain ⟨j, hj, rfl⟩ := List.getElem_of_mem hb
    have hpair := List.pairwise_iff_getElem.mp (List.pairwise_map.mp hq.increasing)
    rcases Nat.lt_trichotomy i j with hij | hij | hij
    · exact (hpair i j hi hj hij).2
    · subst hij
      omega
    · have hlt := (hpair j i hj hi hij).1
      simp only [AttemptRow.order] at hlt
      omega
  simp only [AttemptRow.order] at hbound
  omega

end Life

section

variable {enc : Encoding} {s : Store} {claim : WorkClaim} {now : Int} {w : WorkItemRow}

theorem outdated_item (hw : WellFormed s) (hq : s.Lives Life.Sequenced)
    (h : Superseded s claim ∨ LeasePassed s claim now) (hwm : w ∈ s.workItems)
    (hid : w.id = claim.workItem.id) :
    w.fencingToken ≠ claim.attempt.fencingToken ∨ leaseCurrent now w = false := by
  rcases h with ⟨a, ha, b, hb, hof, hitem, hlt⟩ | ⟨w', hwm', hid', leaseUntil, hlease, hpassed⟩
  · left
    have hl := hw.life? hwm
    have hai : a.workItemId = w.id := hof.workItem.symm.trans hid.symm
    have hfencing := (hq w.id _ hl).fencing_lt ((mem_life_attempts hl).mpr ⟨ha, hai⟩)
      ((mem_life_attempts hl).mpr ⟨hb, hitem.trans hai⟩) hlt
    rw [hof.fencingToken]
    exact Nat.ne_of_gt hfencing
  · right
    cases hw.item_eq hwm hwm' (hid.trans hid'.symm)
    simp [leaseCurrent, hlease, hpassed]

/-- **An outdated claim is refused** by every operation. -/
theorem refused_of_outdated (hw : WellFormed s) (hq : s.Lives Life.Sequenced)
    (h : Superseded s claim ∨ LeasePassed s claim now) {α : Type} {op : Op α}
    (hop : HolderOp enc claim now α op) : Refused op s := by
  have hcurrent : s.claimCurrent now claim ≠ true := by
    intro hcur
    obtain ⟨w, hwm, a, -, hid, -, -, -, hfencing, ⟨leaseUntil, hlease, hle⟩, -⟩ :=
      claimCurrent_iff.mp hcur
    rcases outdated_item hw hq h hwm hid with hne | hpassed
    · exact hne hfencing
    · simp [leaseCurrent, hlease, Int.not_lt.mpr hle] at hpassed
  cases hop with
  | renewClaim leaseSecs =>
    refine (refused_transact_ fun s' hs' => ?_).bind _
    obtain ⟨w, hwm, hr⟩ := List.any_eq_true.mp (renewClaimTx_ok hs').1
    simp only [isRenewable, Bool.and_eq_true, decide_eq_true_eq] at hr
    rcases outdated_item hw hq h hwm hr.1.1 with hne | hpassed
    · exact hne hr.1.2.2.2
    · rw [hr.2] at hpassed
      cases hpassed
  | prepareCheckpoint => exact refused_transact fun _ hx => hcurrent (prepareCheckpointTx_ok hx).1
  | commitCheckpoint => exact refused_transact_ fun _ hx => hcurrent (commitCheckpointTx_ok hx).1
  | finishAttempt =>
    exact (refused_transact_ fun _ hx => hcurrent (finishAttemptTx_ok hx).1).bind _
  | failAttempt => exact (refused_transact_ fun _ hx => hcurrent (failAttemptTx_ok hx).1).bind _
  | deferAttempt => exact (refused_transact_ fun _ hx => hcurrent (deferAttemptTx_ok hx).1).bind _
  | continueAttempt =>
    exact (refused_transact_ fun _ hx => hcurrent (continueAttemptTx_ok hx).1).bind _
  | recordPhaseProgress =>
    exact refused_transact fun _ hx => hcurrent (recordPhaseProgressTx_ok hx).1
  | blockWorkItem => exact (refused_transact_ fun _ hx => hcurrent (blockWorkItemTx_ok hx).1).bind _

theorem leaseCurrent_eq (h : w.leaseUntil ≠ none) : leaseCurrent now w = !leaseExpired now w := by
  unfold leaseCurrent leaseExpired
  cases hl : w.leaseUntil with
  | none => exact absurd hl h
  | some leaseUntil =>
    simp only [Option.any_some, ← decide_not, Int.not_lt]

end

/-- **Fencing**: after every run of transactions, a claim that a later attempt supersedes or whose lease
has passed is refused by every operation; and at every clock a running item passes the lease test of
its holder exactly when recovery may not expire it. -/
theorem fenced (enc : Encoding) (ts : List Txn) :
    (∀ claim now, (Superseded (Machine.run (exec enc) .empty ts) claim ∨
        LeasePassed (Machine.run (exec enc) .empty ts) claim now) →
      ∀ α op, HolderOp enc claim now α op → Refused op (Machine.run (exec enc) .empty ts)) ∧
    ∀ w ∈ (Machine.run (exec enc) .empty ts).workItems, w.status = .running →
      ∀ now, leaseCurrent now w = !leaseExpired now w := by
  have hinv : WellFormed (Machine.run (exec enc) .empty ts) ∧
      (Machine.run (exec enc) .empty ts).Lives Life.Sequenced :=
    Machine.run_invariant' (I := fun s => WellFormed s ∧ s.Lives Life.Sequenced)
      (fun s t h => ⟨wellFormed_exec t h.1, sequenced_exec h.1 h.2⟩) ⟨wellFormed_empty, lives_empty _⟩
  refine ⟨fun claim now h α op hop => refused_of_outdated hinv.1 hinv.2 h hop, fun w hw hrun now => ?_⟩
  exact leaseCurrent_eq ((hinv.2 w.id _ (hinv.1.life? hw)).leased hrun)

namespace Sample

/-- The lease of the first claim of `solo` runs out, and a second worker claims the step. -/
def reclaimed : List Txn :=
  admission solo ++ [.claimWork "goal" none "w1" 300 "runtime:w1" "lease1" "attempt1" 0,
    .recoverGoalState "goal" "janitor" 301,
    .claimWork "goal" none "w2" 300 "runtime:w2" "lease2" "attempt2" 301]

end Sample

theorem fenced_reclaimed :
    Refused (finishAttempt (Sample.firstClaim "lease1" "attempt1") "checkpoint" "runtime:w1" 302 302)
      (Machine.run (exec Sample.encoding) .empty Sample.reclaimed) :=
  (fenced Sample.encoding Sample.reclaimed).1 (Sample.firstClaim "lease1" "attempt1") 302
    (.inl (by decide +kernel)) _ _ (.finishAttempt "checkpoint" "runtime:w1" 302)

end Xiaomaolv
