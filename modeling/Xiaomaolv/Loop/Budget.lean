import Xiaomaolv.Loop.Handback
import Xiaomaolv.Loop.Numbers

/-!
# The attempt budget

A claim, a failure, an expiry and an operator's retry each count the attempts that are not void.

* `Tried`: every step is to be tried once at least; **`tried_exec`**: every transaction keeps it.
* `Life.tries`: the attempts that count; `Life.WithinBudget`: the invariant of one item.
* `withinBudget_step`, `withinBudget_release`: every event keeps it, and every handback.
* **`attempt_budget`**: no item exceeds its budget in any run, and none waits with its budget spent.
-/

namespace Xiaomaolv

open Table LoopStore

/-! ## Steps are tried -/

/-- The steps of every plan, and every item, may be tried once at least. -/
structure Tried (s : Store) : Prop where
  plans : ∀ p ∈ s.workflows, ∀ step ∈ p.workflow.steps, 1 ≤ step.retry.maxAttempts
  items : ∀ w ∈ s.workItems, 1 ≤ w.maxAttempts

theorem tried_empty : Tried .empty := by
  constructor <;> simp [Store.empty]

/-- **Every transaction keeps it.** -/
theorem tried_exec {enc : Encoding} {s : Store} (t : Txn) (h : Tried s) : Tried (exec enc s t) := by
  refine exec_keeps h fun s' ht => ⟨fun p hp => ?_, fun w hwm => ?_⟩
  · rcases plans_written ht hp with hp | ⟨request, externalWrite, hv, hworkflow⟩
    · exact h.plans p hp
    · rw [hworkflow]
      intro step hs
      obtain ⟨-, -, -, hmax, -⟩ := (withinLimits_of_validate hv).each step hs
      exact hmax
  · rcases items_written ht hwm with ⟨w₀, hw₀, ho⟩ | ⟨goalId, plan, hplan, workId, i, step, hi, rfl⟩ |
      ⟨goalId, planId, manifest, externalWrite, seen, workId, steps, i, step, -, hcheck, hi, rfl⟩
    · have hmax := congrArg WorkItemRow.maxAttempts ho
      exact (h.items w₀ hw₀).trans_eq hmax.symm
    · exact h.plans plan hplan step (List.mem_of_getElem? hi)
    · exact (checkExtension_maxAttempts hcheck step (List.mem_of_getElem? hi)).1

/-! ## The attempts that count -/

/-- The attempts that count against the budget. -/
def Life.tries (l : Life) : Nat := (l.attempts.filter fun a => a.status ≠ .void).length

section Tries

variable {p : AttemptRow → Bool} {f : AttemptRow → AttemptRow} {attempts : List AttemptRow}

theorem tries_kept (h : ∀ a, p a = true → a.status ≠ .void ∧ (f a).status ≠ .void) :
    ((updateWhere p f attempts).filter fun a => a.status ≠ .void).length
      = (attempts.filter fun a => a.status ≠ .void).length := by
  rw [filter_updateWhere, length_updateWhere]
  intro a ha
  simp [h a ha]

theorem countP_voided (hf : ∀ a, (f a).status = .void) :
    (updateWhere p f attempts).countP (fun a => a.status ≠ .void)
        + attempts.countP (fun a => p a ∧ a.status ≠ .void)
      = attempts.countP fun a => a.status ≠ .void := by
  induction attempts with
  | nil => rfl
  | cons x attempts ih =>
    rw [updateWhere_cons, List.countP_cons, List.countP_cons, List.countP_cons, ← ih]
    by_cases hx : p x = true
    · simp [hx, hf]
      omega
    · simp [hx]
      omega

theorem tries_voided (hf : ∀ a, (f a).status = .void) {a : AttemptRow} (ha : a ∈ attempts)
    (hp : p a = true) (hcounts : a.status ≠ .void) :
    ((updateWhere p f attempts).filter fun a => a.status ≠ .void).length
      < (attempts.filter fun a => a.status ≠ .void).length := by
  have hsum : (updateWhere p f attempts).countP (fun a => a.status ≠ .void) + _ = _ := countP_voided hf
  rw [← List.countP_eq_length_filter, ← List.countP_eq_length_filter]
  have hpos : 0 < attempts.countP fun a => p a ∧ a.status ≠ .void :=
    List.countP_pos_iff.mpr ⟨a, ha, by simp [hp, hcounts]⟩
  omega

end Tries

theorem isLive_ne_void {st : AttemptStatus} (h : st.isLive = true) : st ≠ .void := by
  rintro rfl
  cases h

theorem isOpen_ne_void {st : AttemptStatus} (h : st.isOpen = true) : st ≠ .void := by
  rintro rfl
  cases h

namespace Life

variable {l l' : Life} {e : Event}

/-- An item stays within its budget, and one that waits, or may wait again, has not spent it. -/
structure WithinBudget (l : Life) : Prop where
  most : l.tries ≤ l.item.maxAttempts
  waits : l.item.status = .pending ∨ l.item.status = .ready ∨ l.item.status = .blocked →
    l.tries < l.item.maxAttempts

theorem withinBudget_new (h : l.IsNew) (hmax : 1 ≤ l.item.maxAttempts) : l.WithinBudget := by
  have hnone : l.tries = 0 := by rw [tries, h.attempts]; rfl
  exact ⟨by omega, fun _ => by omega⟩

theorem withinBudget_of_lt (h : l.tries < l.item.maxAttempts) : l.WithinBudget := ⟨h.le, fun _ => h⟩

theorem withinBudget_of_status {st : WorkItemStatus} (h : l.tries ≤ l.item.maxAttempts)
    (hst : l.item.status = st) (hne : ¬ (st = .pending ∨ st = .ready ∨ st = .blocked)) : l.WithinBudget :=
  ⟨h, fun hw => absurd (hst ▸ hw) hne⟩

theorem lapse_tries (l : Life) (now : Int) : (l.lapse now).tries = l.tries := by
  refine tries_kept fun a ha => ⟨isLive_ne_void ha, ?_⟩
  simp only [ExpiredRow.attemptStatus]
  split_ifs <;> decide

theorem verdict_tries (l : Life) (a : AttemptRow) (c : CheckpointRow) (resolution : ConfirmationResolution)
    (reason : String) (exhausted : Bool) (now : Int) :
    (l.verdict a c resolution reason exhausted now).tries = l.tries := by
  refine tries_kept fun x hx => ⟨?_, ?_⟩
  · rw [(of_decide_eq_true hx).2]
    decide
  · cases resolution <;> simp [ConfirmationResolution.attemptStatus]

/-- **Every event but a release keeps the budget.** -/
theorem Step.withinBudget (h : l.Step e l') (he : e.isRelease = false) (hl : l.WithinBudget) :
    l'.WithinBudget := by
  have hmax := congrArg WorkItemRow.maxAttempts h.origin
  change l'.item.maxAttempts = l.item.maxAttempts at hmax
  cases h with
  | unlock hst => exact withinBudget_of_lt (hl.waits (.inl hst))
  | block hst => exact withinBudget_of_lt (hl.waits (by tauto))
  | requeue hst => exact withinBudget_of_lt (hl.waits (.inr (.inr hst)))
  | claim a leaseUntil hst hbudget hitem hgoal hfresh hlive =>
    refine @withinBudget_of_status _ .running ?_ rfl (by decide)
    have htries : (l.claim a leaseUntil).tries = l.tries + 1 := by
      simp [tries, Life.claim, List.filter_append, hlive]
    rw [htries]
    exact hbudget
  | renew => exact ⟨hl.most, hl.waits⟩
  | progress => exact ⟨hl.most, hl.waits⟩
  | prepare => exact ⟨hl.most, hl.waits⟩
  | commit a c outcome =>
    have htries : (l.commit a.id c.id outcome).tries = l.tries :=
      tries_kept fun x hx => ⟨by rw [(of_decide_eq_true hx).2]; decide, by simp⟩
    exact ⟨htries ▸ hl.most, fun hst => htries ▸ hl.waits hst⟩
  | reconcile c =>
    have htries : (l.reconcile c).tries = l.tries :=
      tries_kept fun x hx => ⟨isLive_ne_void (of_decide_eq_true hx).2, by simp⟩
    by_cases hrun : l.item.status = .running
    · have hst : (l.reconcile c).item.status = .succeeded := by simp [Life.reconcile, hrun]
      exact withinBudget_of_status (by rw [htries, hmax]; exact hl.most) hst (by decide)
    · have hitem : (l.reconcile c).item = l.item := if_neg hrun
      exact ⟨by rw [htries, hitem]; exact hl.most, by rw [htries, hitem]; exact hl.waits⟩
  | release => cases he
  | lapse now hst hlease =>
    refine ⟨(lapse_tries l now).trans_le hl.most, fun hwaits => ?_⟩
    rw [lapse_tries]
    by_contra hspent
    have hstatus : l.expired.workStatus = .waitingConfirmation ∨ l.expired.workStatus = .failed := by
      have hcount : l.expired.maxAttempts ≤ l.expired.attemptCount := Nat.not_lt.mp hspent
      simp only [ExpiredRow.workStatus, if_pos hcount]
      split_ifs
      · exact .inl rfl
      · exact .inr rfl
    change l.expired.workStatus = _ ∨ l.expired.workStatus = _ ∨ l.expired.workStatus = _ at hwaits
    rcases hstatus with hst | hst <;> simp [hst] at hwaits
  | verdict a c resolution reason exhausted now hst ha hparked hc hattempt hphase hbudget =>
    refine ⟨(verdict_tries ..).trans_le hl.most, fun hwaits => ?_⟩
    rw [verdict_tries]
    by_contra hspent
    have hexhausted : exhausted = true := hbudget.mpr (Nat.not_lt.mp hspent)
    change resolution.itemStatus exhausted = _ ∨ resolution.itemStatus exhausted = _ ∨
      resolution.itemStatus exhausted = _ at hwaits
    rw [hexhausted] at hwaits
    cases resolution <;> simp [ConfirmationResolution.itemStatus] at hwaits
  | close error attemptError status hst =>
    have htries : (l.close error attemptError status).tries = l.tries :=
      tries_kept fun x hx => ⟨isOpen_ne_void hx, by simp⟩
    by_cases hkept : l.item.status ∈ [.succeeded, .failed, status]
    · have hitem : (l.close error attemptError status).item = l.item := if_pos hkept
      exact ⟨by rw [htries, hitem]; exact hl.most, by rw [htries, hitem]; exact hl.waits⟩
    · have hclosed : (l.close error attemptError status).item.status = status := by
        simp only [Life.close, if_neg hkept]
      exact withinBudget_of_status (by rw [htries, hmax]; exact hl.most) hclosed
        (by rcases hst with rfl | rfl <;> decide)

/-- **A handback that voids its attempt, or leaves budget for another, keeps the budget.** -/
theorem release_withinBudget {a : AttemptRow} {r : Release} (hold : l.Holds a) (hl : l.WithinBudget)
    (hr : r.attemptStatus = .void ∨
      r.attemptStatus = .failed ∧ (r.status = .failed ∨ r.status = .ready ∧ l.tries < l.item.maxAttempts)) :
    (l.release a.id r).WithinBudget := by
  have hmost := hl.most
  rcases hr with hvoid | ⟨hfailed, hst⟩
  · have hfreed : (l.release a.id r).tries < l.tries :=
      tries_voided (fun _ => hvoid) hold.mem (by simpa using hold.live) (isLive_ne_void hold.live)
    exact withinBudget_of_lt (hfreed.trans_le hmost)
  · have htries : (l.release a.id r).tries = l.tries :=
      tries_kept fun x hx => ⟨isLive_ne_void (of_decide_eq_true hx).2, by simp [hfailed]⟩
    rcases hst with hst | ⟨-, hlt⟩
    · exact withinBudget_of_status (htries.trans_le hmost) hst (by decide)
    · exact withinBudget_of_lt (htries.trans_lt hlt)

end Life

/-! ## Runs -/

section Runs

variable {enc : Encoding} {s : Store} {t : Txn}

/-- A handback voids its attempt, or has found budget for another. -/
theorem released_budget {id : String} {l : Life} {claim : WorkClaim} {r : Release} (h : s.life? id = some l)
    (hr : t.released? s = some (claim, r)) (hid : l.item.id = claim.workItem.id) :
    r.attemptStatus = .void ∨
      r.attemptStatus = .failed ∧ (r.status = .failed ∨ r.status = .ready ∧ l.tries < l.item.maxAttempts) := by
  cases t with
  | failAttempt c error retryable actor now =>
    obtain ⟨row, hrow, he⟩ := Option.map_eq_some_iff.mp hr
    cases he
    refine .inr ⟨rfl, ?_⟩
    obtain rfl : row = l.item := by
      rw [← hid, (life_item h).2, (life?_eq_some.mp h).1] at hrow
      exact (Option.some.inj hrow).symm
    by_cases hretry : willRetry s l.item retryable = true
    · right
      refine ⟨if_pos hretry, ?_⟩
      simp only [willRetry, Bool.and_eq_true, decide_eq_true_eq] at hretry
      rw [Life.tries, ← attemptCount_life h, ← (life_item h).2]
      exact hretry.2
    · exact .inl (if_neg hretry)
  | blockWorkItem | deferAttempt =>
    cases hr
    exact .inl rfl
  | continueAttempt c continuation actor started now =>
    simp only [Txn.released?] at hr
    split at hr
    · cases hr
      exact .inl rfl
    · cases hr
  | _ => cases hr

theorem withinBudget_exec (hw : WellFormed s) (htried : Tried s) (hs : s.Lives Life.WithinBudget) :
    (exec enc s t).Lives Life.WithinBudget := by
  refine lives_handback (fun id l h h' => ?_) (fun _ _ _ he hl hstep => hstep.withinBudget he hl)
    (fun id l a claim r h hl hr hid hold _ => Life.release_withinBudget hold hl (released_budget h hr hid))
    hw hs
  rcases exec_cases enc s t with he | he
  · rw [he, h] at h'
    cases h'
  · exact Life.withinBudget_new (life_born hw he h h') ((tried_exec t htried).items _ (life_item h').1)

/-- **Attempt budget.** In every run the attempts of an item that are not void are at most its `max_attempts`,
and fewer while the item is ready or pending. -/
theorem attempt_budget (enc : Encoding) (ts : List Txn) :
    ∀ w ∈ (Machine.run (exec enc) .empty ts).workItems,
      (Machine.run (exec enc) .empty ts).attemptCount w.id ≤ w.maxAttempts ∧
      (w.status = .ready ∨ w.status = .pending →
        (Machine.run (exec enc) .empty ts).attemptCount w.id < w.maxAttempts) := by
  obtain ⟨hw, -, hs⟩ : WellFormed (Machine.run (exec enc) .empty ts) ∧
      Tried (Machine.run (exec enc) .empty ts) ∧ (Machine.run (exec enc) .empty ts).Lives Life.WithinBudget :=
    Machine.run_invariant' (I := fun s => WellFormed s ∧ Tried s ∧ s.Lives Life.WithinBudget)
      (fun _ t h => ⟨wellFormed_exec t h.1, tried_exec t h.2.1, withinBudget_exec h.1 h.2.1 h.2.2⟩)
      ⟨wellFormed_empty, tried_empty, lives_empty _⟩
  intro w hwm
  have h := hw.life? hwm
  have hl := hs _ _ h
  rw [attemptCount_life h]
  exact ⟨hl.most, fun hst => hl.waits (by tauto)⟩

/-- After one admission the item of the plan has been tried less than twice. -/
theorem attempt_budget_admission :
    (Machine.run (exec Sample.encoding) .empty (Sample.admission Sample.solo)).attemptCount
      (Sample.waiting 0 none).id < 2 := by
  have hw : Sample.waiting 0 none ∈
      (Machine.run (exec Sample.encoding) .empty (Sample.admission Sample.solo)).workItems := by
    decide +kernel
  exact (attempt_budget Sample.encoding (Sample.admission Sample.solo) (Sample.waiting 0 none) hw).2 (.inl rfl)

end Runs

end Xiaomaolv
