import Xiaomaolv.Telegram.Admissions

/-!
# The polling loop

* `PollingSystem.exec`: the loop of the polling worker, with its offset, the ledger of admissions and the updates
  that Telegram keeps, among arrivals, crashes and restarts at any clock.
* `Settled`: the processing of an update has finished, or its attempts are used up; it stays so.
* `Reclaims`: no admission meets the lease of a dead process, no sweep an update that is not settled.
* **`no_update_lost`**: along such runs the offset passes settled updates only.
-/

namespace Xiaomaolv

open AdmissionTable

/-- The attempts of an update are used up. -/
def Ledger.spent (l : Ledger) (u : Int) : Bool :=
  (l.row? u).any fun r => telegramAdmissionMaxAttempts ≤ r.attempts

/-- The ledger, the clock, the updates that Telegram keeps and those it has dropped; the offset, the batch and
the update in hand of the process; and the updates whose processing has finished. -/
structure PollingSystem where
  ledger : Ledger := .empty
  now : Int := 0
  server : List Int := []
  acknowledged : List Int := []
  offset : Int := 0
  batch : List Int := []
  processing : Option Int := none
  processed : List Int := []

inductive PollingStep
  | setClock (now : Int)
  | arrive (updateId : Int)
  /-- The reply to `getUpdates` has at most `limit` updates, or is lost. -/
  | fetch (limit : Nat) (received : Bool)
  /-- The next update of the batch; a call of the ledger may fail. -/
  | take (kind summaryJson : String) (ledgerOk : Bool)
  | finish (result : Except String Unit) (ledgerOk : Bool)
  | sweep
  /-- The process dies, and a new one starts. -/
  | crash

namespace PollingSystem

/-- A new update: identifiers are positive and increase. -/
def arrive (s : PollingSystem) (updateId : Int) : PollingSystem :=
  if 0 < updateId ∧ ∀ v ∈ s.acknowledged ++ s.server, v < updateId then
    { s with server := s.server ++ [updateId] }
  else s

/-- `getUpdates` at the offset: Telegram drops the updates below it. -/
def fetch (s : PollingSystem) (limit : Nat) (received : Bool) : PollingSystem :=
  if s.batch = [] ∧ s.processing = none then
    let kept := s.server.filter fun u => s.offset ≤ u
    { s with
      server := kept
      acknowledged := s.acknowledged ++ s.server.filter fun u => u < s.offset
      batch := if received then kept.take limit else [] }
  else s

/-- The head of the loop over the batch: the offset first, then the admission. -/
def take (s : PollingSystem) (kind summaryJson : String) (ledgerOk : Bool) : PollingSystem :=
  match s.batch, s.processing with
  | u :: rest, none =>
    let moved := { s with batch := rest, offset := max s.offset (u + 1) }
    if ledgerOk then
      { moved with
        ledger := s.ledger.exec (.admitUpdate u kind summaryJson 120 s.now)
        processing := if (s.ledger.table.admitTelegramUpdate u kind summaryJson 120 s.now).1 then some u else none }
    -- A ledger failure fails open so messages keep flowing.
    else { moved with processing := some u }
  | _, _ => s

/-- The processing of the update in hand ends, and its admission with it. -/
def finish (s : PollingSystem) (result : Except String Unit) (ledgerOk : Bool) : PollingSystem :=
  match s.processing with
  | some u =>
    let call : AdmissionCall := match result with
      | .ok _ => .finish 0 u "processed"
      | .error e => .fail 0 u e
    { s with
      ledger := if ledgerOk then s.ledger.exec call else s.ledger
      processing := none
      processed := u :: s.processed }
  | none => s

def exec (s : PollingSystem) : PollingStep → PollingSystem
  | .setClock now => { s with now }
  | .arrive updateId => s.arrive updateId
  | .fetch limit received => s.fetch limit received
  | .take kind summaryJson ledgerOk => s.take kind summaryJson ledgerOk
  | .finish result ledgerOk => s.finish result ledgerOk
  | .sweep =>
    if s.batch = [] ∧ s.processing = none then { s with ledger := s.ledger.exec (.sweepStale 300 s.now) } else s
  | .crash => { s with offset := 0, batch := [], processing := none }

/-- The processing of the update has finished, or its attempts are used up. -/
def Settled (s : PollingSystem) (u : Int) : Prop := u ∈ s.processed ∨ s.ledger.spent u = true

instance (s : PollingSystem) (u : Int) : Decidable (s.Settled u) := inferInstanceAs (Decidable (_ ∨ _))

/-- The next update is not one that a dead process holds under a lease that is still open; a sweep fails settled
updates only. -/
def Reclaims (s : PollingSystem) : PollingStep → Prop
  | .take _ _ true => ∀ r ∈ s.ledger.table.rows, s.batch.head? = some r.updateId → r.status = .processing →
      ¬ s.Settled r.updateId → r.leaseUntil < s.now
  | .sweep => ∀ r ∈ s.ledger.table.rows, isStale (s.now - 300) r = true → s.Settled r.updateId
  | _ => True

instance (s : PollingSystem) : (step : PollingStep) → Decidable (s.Reclaims step)
  | .take _ _ true => inferInstanceAs (Decidable (∀ r ∈ s.ledger.table.rows, s.batch.head? = some r.updateId →
      r.status = .processing → ¬ s.Settled r.updateId → r.leaseUntil < s.now))
  | .sweep => inferInstanceAs (Decidable (∀ r ∈ s.ledger.table.rows, isStale (s.now - 300) r = true →
      s.Settled r.updateId))
  | .take _ _ false | .setClock _ | .arrive _ | .fetch .. | .finish .. | .crash => isTrue trivial

end PollingSystem

/-! ## What a call leaves of an admission -/

namespace Ledger

variable {l : Ledger} {u : Int}

theorem row?_exec (call : AdmissionCall) {r' : AdmissionRow} (h : (l.exec call).row? u = some r') :
    (l.row? u = none ∧ r'.status = .processing) ∨ ∃ r, l.row? u = some r ∧ r.attempts ≤ r'.attempts ∧
      (r' = r ∨ r'.status = .processing ∨ r' = settle call r) := by
  rcases exec_settles (l := l) call with ⟨v, kind, summaryJson, leaseSecs, now, rfl⟩ | ⟨hsettle, -⟩
  · rw [row?_exec_admitUpdate] at h
    split_ifs at h with hu
    · subst hu
      cases h
      show (l.table.row? u = none ∧ _) ∨ _
      unfold delivered
      cases hrow : l.table.row? u with
      | none => exact .inl ⟨rfl, rfl⟩
      | some r =>
        refine .inr ⟨r, hrow, ?_⟩
        dsimp only
        split_ifs
        · exact ⟨Nat.le_succ _, .inr (.inl rfl)⟩
        · exact ⟨Nat.le_refl _, .inl rfl⟩
    · exact .inr ⟨r', h, Nat.le_refl _, .inl rfl⟩
  · rw [hsettle, Option.map_eq_some_iff] at h
    obtain ⟨r, hr, rfl⟩ := h
    exact .inr ⟨r, hr, Nat.le_of_eq (settle_lease call r).1.symm, .inr (.inr rfl)⟩

theorem row?_kept (call : AdmissionCall) {r : AdmissionRow} (h : l.row? u = some r) :
    ∃ r', (l.exec call).row? u = some r' := by
  rcases exec_settles (l := l) call with ⟨v, kind, summaryJson, leaseSecs, now, rfl⟩ | ⟨hsettle, -⟩
  · rw [row?_exec_admitUpdate]
    split_ifs
    · exact ⟨_, rfl⟩
    · exact ⟨r, h⟩
  · rw [hsettle, h]
    exact ⟨_, rfl⟩

theorem spent_exec (call : AdmissionCall) (h : l.spent u = true) : (l.exec call).spent u = true := by
  obtain ⟨r, hr, hspent⟩ := (Option.any_eq_true _ _).mp h
  obtain ⟨r', hr'⟩ := row?_kept call hr
  rcases row?_exec call hr' with ⟨hnone, -⟩ | ⟨r₀, hr₀, hle, -⟩
  · rw [hr] at hnone
    cases hnone
  · obtain rfl : r = r₀ := Option.some.inj (hr.symm.trans hr₀)
    rw [decide_eq_true_eq] at hspent
    exact (Option.any_eq_true _ _).mpr ⟨r', hr', decide_eq_true (Nat.le_trans hspent hle)⟩

end Ledger

/-! ## The invariant -/

namespace PollingSystem

variable {s : PollingSystem} {u : Int}

/-- Everything below the offset is settled or in hand; what Telegram has dropped is settled; an admission ends
with its update settled. The batch is where Telegram goes on from the offset, which follows an update. -/
structure Kept (s : PollingSystem) : Prop where
  sorted : s.server.Pairwise (· < ·)
  positive : ∀ v ∈ s.server, 0 < v
  offset : s.offset ≤ 0 ∨ ∃ v ∈ s.acknowledged ++ s.server, s.offset = v + 1
  batch : s.batch <+: s.server.filter fun u => s.offset ≤ u
  handled : ∀ u ∈ s.server, u < s.offset → s.Settled u ∨ s.processing = some u
  acknowledged : ∀ u ∈ s.acknowledged, s.Settled u
  ended : ∀ u r, s.ledger.row? u = some r → r.status ≠ .processing → s.Settled u

theorem kept_arrive (h : Kept s) (updateId : Int) : Kept (s.arrive updateId) := by
  unfold arrive
  split_ifs with hnew
  · obtain ⟨hpos, hnew⟩ := hnew
    have hlast : ∀ v ∈ s.server, v < updateId := fun v hv => hnew v (List.mem_append_right _ hv)
    have hoffset : s.offset ≤ updateId := by
      rcases h.offset with hzero | ⟨v, hv, heq⟩
      · omega
      · have := hnew v hv
        omega
    refine ⟨?_, fun v hv => ?_, h.offset.imp_right ?_, ?_, fun v hv hlt => ?_, h.acknowledged, h.ended⟩
    · rw [List.pairwise_append]
      exact ⟨h.sorted, List.pairwise_singleton _ _, fun v hv w hw => List.mem_singleton.mp hw ▸ hlast v hv⟩
    · rcases List.mem_append.mp hv with hv | hv
      · exact h.positive v hv
      · exact List.mem_singleton.mp hv ▸ hpos
    · rintro ⟨v, hv, heq⟩
      exact ⟨v, by rw [← List.append_assoc]; exact List.mem_append_left _ hv, heq⟩
    · rw [List.filter_append]
      exact h.batch.trans (List.prefix_append _ _)
    · rcases List.mem_append.mp hv with hv | hv
      · exact h.handled v hv hlt
      · rw [List.mem_singleton.mp hv] at hlt
        dsimp only at hlt
        omega
  · exact h

theorem kept_fetch (h : Kept s) (limit : Nat) (received : Bool) : Kept (s.fetch limit received) := by
  by_cases hidle : s.batch = [] ∧ s.processing = none
  · rw [fetch, if_pos hidle]
    refine ⟨h.sorted.filter _, fun v hv => h.positive v (List.mem_of_mem_filter hv), h.offset.imp_right ?_, ?_, fun v hv hlt => ?_, fun v hv => ?_, h.ended⟩
    · rintro ⟨v, hv, heq⟩
      refine ⟨v, ?_, heq⟩
      rcases List.mem_append.mp hv with hv | hv
      · exact List.mem_append_left _ (List.mem_append_left _ hv)
      · refine List.mem_append_left _ (List.mem_append_right _ (List.mem_filter.mpr ⟨hv, ?_⟩))
        rw [decide_eq_true_eq]
        omega
    · dsimp only
      rw [List.filter_filter]
      simp only [Bool.and_self]
      split_ifs
      · exact List.take_prefix _ _
      · exact List.nil_prefix
    · exact h.handled v (List.mem_of_mem_filter hv) hlt
    · rcases List.mem_append.mp hv with hv | hv
      · exact h.acknowledged v hv
      · obtain ⟨hv, hlt⟩ := List.mem_filter.mp hv
        rcases h.handled v hv (of_decide_eq_true hlt) with hsettled | hbusy
        · exact hsettled
        · rw [hidle.2] at hbusy
          cases hbusy
  · rw [fetch, if_neg hidle]
    exact h

/-- Where the batch begins, the offset ends: no update that Telegram keeps lies between. -/
theorem Kept.head (h : Kept s) {rest : List Int} (hbatch : s.batch = u :: rest) :
    u ∈ s.server ∧ s.offset ≤ u ∧ (∀ v ∈ s.server, s.offset ≤ v → v < u + 1 → v = u) ∧
      rest <+: s.server.filter fun v => u + 1 ≤ v := by
  obtain ⟨tail, htail⟩ := h.batch
  rw [hbatch, List.cons_append] at htail
  have hsorted : (u :: (rest ++ tail)).Pairwise (· < ·) := htail ▸ h.sorted.filter _
  have hu : u ∈ s.server.filter fun v => s.offset ≤ v := htail ▸ List.mem_cons_self
  obtain ⟨hmem, hoffset⟩ := List.mem_filter.mp hu
  rw [decide_eq_true_eq] at hoffset
  refine ⟨hmem, hoffset, fun v hv hle hlt => ?_, tail, ?_⟩
  · have hv' : v ∈ u :: (rest ++ tail) := htail ▸ List.mem_filter.mpr ⟨hv, decide_eq_true hle⟩
    rcases List.mem_cons.mp hv' with rfl | hv'
    · rfl
    · have := (List.pairwise_cons.mp hsorted).1 v hv'
      omega
  · have hfilter : (s.server.filter fun v => u + 1 ≤ v) =
        (s.server.filter fun v => s.offset ≤ v).filter fun v => u + 1 ≤ v := by
      rw [List.filter_filter]
      refine List.filter_congr fun v _ => ?_
      by_cases hv : u + 1 ≤ v
      · have : s.offset ≤ v := by omega
        simp [hv, this]
      · simp [hv]
    rw [hfilter, ← htail, List.filter_cons, if_neg (by rw [decide_eq_true_eq]; omega)]
    refine (List.filter_eq_self.mpr fun v hv => ?_).symm
    have := (List.pairwise_cons.mp hsorted).1 v hv
    rw [decide_eq_true_eq]
    omega

theorem Settled.mono {s' : PollingSystem} (hprocessed : s.processed ⊆ s'.processed)
    (hledger : s'.ledger = s.ledger ∨ ∃ call, s'.ledger = s.ledger.exec call) (h : s.Settled u) :
    s'.Settled u := by
  rcases h with h | h
  · exact .inl (hprocessed h)
  · rcases hledger with heq | ⟨call, heq⟩
    · exact .inr (heq ▸ h)
    · exact .inr (heq ▸ Ledger.spent_exec call h)

theorem Kept.moved (h : Kept s) {rest : List Int} (hbatch : s.batch = u :: rest) (hidle : s.processing = none)
    {ledger : Ledger} {processing : Option Int}
    (hledger : ledger = s.ledger ∨ ∃ call, ledger = s.ledger.exec call)
    (hu : s.Settled u ∨ processing = some u)
    (hended : ∀ v r, ledger.row? v = some r → r.status ≠ .processing → s.ledger.row? v = some r) :
    Kept { s with batch := rest, offset := max s.offset (u + 1), ledger, processing } := by
  obtain ⟨hmem, hoffset, hbetween, hrest⟩ := h.head hbatch
  have hmax : max s.offset (u + 1) = u + 1 := by omega
  have hmono : ∀ v, s.Settled v →
      Settled { s with batch := rest, offset := max s.offset (u + 1), ledger, processing } v :=
    fun v => Settled.mono (List.Subset.refl _) hledger
  refine ⟨h.sorted, h.positive, .inr ⟨u, List.mem_append_right _ hmem, hmax⟩, ?_, fun v hv hlt => ?_,
    fun v hv => hmono v (h.acknowledged v hv), fun v r hr hst => hmono v (h.ended v r (hended v r hr hst) hst)⟩
  · dsimp only
    rw [hmax]
    exact hrest
  · dsimp only at hlt
    rw [hmax] at hlt
    by_cases hold : v < s.offset
    · rcases h.handled v hv hold with hsettled | hbusy
      · exact .inl (hmono v hsettled)
      · rw [hidle] at hbusy
        cases hbusy
    · rw [hbetween v hv (by omega) hlt]
      exact hu.imp_left (hmono u)

theorem kept_take (h : Kept s) {kind summaryJson : String} {ledgerOk : Bool}
    (hreclaims : s.Reclaims (.take kind summaryJson ledgerOk)) : Kept (s.take kind summaryJson ledgerOk) := by
  unfold take
  split
  · next u rest hbatch hidle =>
    cases ledgerOk with
    | false => exact h.moved hbatch hidle (.inl rfl) (.inr rfl) fun v r hr _ => hr
    | true =>
      refine h.moved hbatch hidle (.inr ⟨_, rfl⟩) ?_ fun v r hr hst => ?_
      · rw [admitTelegramUpdate_granted]
        by_cases hgranted : (s.ledger.table.row? u).all (isReclaimable s.now) = true
        · rw [if_pos hgranted]
          exact .inr rfl
        -- The update is not granted: its admission has ended, or has no attempt left, or its lease is open.
        left
        obtain ⟨r, hr⟩ : ∃ r, s.ledger.table.row? u = some r := by
          cases hrow : s.ledger.table.row? u with
          | none =>
            rw [hrow] at hgranted
            exact absurd rfl hgranted
          | some r => exact ⟨r, rfl⟩
        obtain ⟨hrows, hid⟩ := row?_eq_some_iff.mp hr
        rw [hr, Option.all_some] at hgranted
        by_contra hunsettled
        have hst : r.status = .processing := by
          by_contra hst
          exact hunsettled (h.ended u r hr hst)
        have hattempts : r.attempts < telegramAdmissionMaxAttempts := by
          by_contra hle
          exact hunsettled (.inr ((Option.any_eq_true _ _).mpr ⟨r, hr, decide_eq_true (Nat.le_of_not_lt hle)⟩))
        have hlease := hreclaims r hrows (by rw [hbatch, hid]; rfl) hst (by rw [hid]; exact hunsettled)
        exact hgranted (by simp [isReclaimable, hst, hattempts, hlease])
      · rcases Ledger.row?_exec _ hr with ⟨-, hnew⟩ | ⟨r₀, hr₀, -, rfl | hnew | hsame⟩
        · exact absurd hnew hst
        · exact hr₀
        · exact absurd hnew hst
        · rw [hsame]
          exact hr₀
  · exact h

theorem Kept.ended_exec (h : Kept s) {call : AdmissionCall} {s' : PollingSystem}
    (hmono : ∀ v, s.Settled v → s'.Settled v)
    (hsettle : ∀ v r, s.ledger.row? v = some r → Ledger.settle call r = r ∨ s'.Settled v)
    {v : Int} {r : AdmissionRow} (hr : (s.ledger.exec call).row? v = some r) (hst : r.status ≠ .processing) :
    s'.Settled v := by
  rcases Ledger.row?_exec _ hr with ⟨-, hnew⟩ | ⟨r₀, hr₀, -, rfl | hnew | hsame⟩
  · exact absurd hnew hst
  · exact hmono v (h.ended v r hr₀ hst)
  · exact absurd hnew hst
  · rcases hsettle v r₀ hr₀ with heq | hdone
    · rw [hsame, heq] at hst
      exact hmono v (h.ended v r₀ hr₀ hst)
    · exact hdone

theorem kept_finish (h : Kept s) (result : Except String Unit) (ledgerOk : Bool) :
    Kept (s.finish result ledgerOk) := by
  unfold finish
  split
  · next u hbusy =>
    dsimp only
    have hledger : ∀ call : AdmissionCall, (if ledgerOk then s.ledger.exec call else s.ledger) = s.ledger ∨
        ∃ call', (if ledgerOk then s.ledger.exec call else s.ledger) = s.ledger.exec call' := by
      intro call
      split_ifs
      · exact .inr ⟨call, rfl⟩
      · exact .inl rfl
    have hmono : ∀ v, s.Settled v → Settled { s with
        ledger := if ledgerOk then s.ledger.exec (match result with
          | .ok _ => .finish 0 u "processed"
          | .error e => .fail 0 u e) else s.ledger
        processing := none, processed := u :: s.processed } v :=
      fun v => Settled.mono (List.subset_cons_self u s.processed) (hledger _)
    refine ⟨h.sorted, h.positive, h.offset, h.batch, fun v hv hlt => ?_, fun v hv => hmono v (h.acknowledged v hv),
      fun v r hr hst => ?_⟩
    · rcases h.handled v hv hlt with hsettled | hin
      · exact .inl (hmono v hsettled)
      · rw [hbusy] at hin
        cases hin
        exact .inl (.inl List.mem_cons_self)
    · dsimp only at hr
      split_ifs at hr with hok
      · refine h.ended_exec hmono (fun w r₀ hr₀ => ?_) hr hst
        by_cases hw : w = u
        · exact .inr (.inl (hw ▸ List.mem_cons_self))
        · left
          have hother : isProcessing u r₀ = false := by
            have hid := (row?_eq_some_iff.mp hr₀).2
            simp [isProcessing, hid, hw]
          cases result with
          | ok _ => simp [Ledger.settle, hother]
          | error e => simp [Ledger.settle, hother]
      · exact hmono v (h.ended v r hr hst)
  · exact h

theorem kept_sweep (h : Kept s) (hreclaims : s.Reclaims .sweep) : Kept (s.exec .sweep) := by
  simp only [exec]
  split_ifs
  · have hmono : ∀ v, s.Settled v → Settled { s with ledger := s.ledger.exec (.sweepStale 300 s.now) } v :=
      fun v => Settled.mono (List.Subset.refl _) (.inr ⟨.sweepStale 300 s.now, rfl⟩)
    refine ⟨h.sorted, h.positive, h.offset, h.batch, fun v hv hlt => (h.handled v hv hlt).imp_left (hmono v),
      fun v hv => hmono v (h.acknowledged v hv), fun v r hr hst => h.ended_exec hmono (fun w r₀ hr₀ => ?_) hr hst⟩
    obtain ⟨hrows, hid⟩ := row?_eq_some_iff.mp hr₀
    by_cases hstale : isStale (s.now - 300) r₀ = true
    · exact .inr (hmono w (hid ▸ hreclaims r₀ hrows hstale))
    · exact .inl (if_neg hstale)
  · exact h

theorem kept_exec (step : PollingStep) (hreclaims : s.Reclaims step) (h : Kept s) : Kept (s.exec step) := by
  cases step with
  | setClock now => exact ⟨h.sorted, h.positive, h.offset, h.batch, h.handled, h.acknowledged, h.ended⟩
  | arrive updateId => exact kept_arrive h updateId
  | fetch limit received => exact kept_fetch h limit received
  | take kind summaryJson ledgerOk => exact kept_take h hreclaims
  | finish result ledgerOk => exact kept_finish h result ledgerOk
  | sweep => exact kept_sweep h hreclaims
  | crash =>
    refine ⟨h.sorted, h.positive, .inl (Int.le_refl 0), List.nil_prefix, fun v hv hlt => ?_, h.acknowledged,
      h.ended⟩
    have hpos := h.positive v hv
    have hzero : v < 0 := hlt
    omega

theorem kept_new : Kept {} where
  sorted := List.Pairwise.nil
  positive := nofun
  offset := .inl (Int.le_refl 0)
  batch := List.prefix_rfl
  handled := nofun
  acknowledged := nofun
  ended := nofun

end PollingSystem

/-- **No update is lost**: in every run in which no admission meets the lease of a dead process and no sweep an
update that is not settled, with crashes, restarts and failures of the ledger at any point and any clock, an
update that Telegram has dropped is settled, and so is one below the offset unless it is in hand. -/
theorem no_update_lost (steps : List PollingStep)
    (h : Machine.Along PollingSystem.exec PollingSystem.Reclaims {} steps) :
    let s := Machine.run PollingSystem.exec {} steps
    (∀ u ∈ s.acknowledged, s.Settled u) ∧
      ∀ u ∈ s.server, u < s.offset → s.Settled u ∨ s.processing = some u := by
  intro s
  have hkept : s.Kept := Machine.run_invariant (fun _ step => PollingSystem.kept_exec step) h
    PollingSystem.kept_new
  exact ⟨hkept.acknowledged, hkept.handled⟩

namespace Sample

/-- The process dies with update 5 in hand, and the next one meets the update at the given clock. -/
def interrupted (restart : Int) : List PollingStep :=
  [.arrive 5, .fetch 100 true, .take "message" "" true, .crash, .setClock restart, .fetch 100 true,
    .take "message" "" true]

/-- After the lease the update is processed again. -/
def takenBack : List PollingStep := interrupted 121 ++ [.finish (.ok ()) true, .fetch 100 true]

/-- Before the end of the lease the update is taken for one in hand. -/
def skipped : List PollingStep := interrupted 10 ++ [.fetch 100 true]

end Sample

theorem no_update_lost_reclaimed : (Machine.run PollingSystem.exec {} Sample.takenBack).acknowledged = [5] ∧
    ∀ u ∈ (Machine.run PollingSystem.exec {} Sample.takenBack).acknowledged,
      (Machine.run PollingSystem.exec {} Sample.takenBack).Settled u :=
  ⟨by decide +kernel, (no_update_lost Sample.takenBack (by decide +kernel)).1⟩

/-- The offset passes an update whose processing has not finished, with two attempts left. -/
theorem no_update_lost_skipped : (Machine.run PollingSystem.exec {} Sample.skipped).acknowledged = [5] ∧
    ¬ (Machine.run PollingSystem.exec {} Sample.skipped).Settled 5 ∧
    (((Machine.run PollingSystem.exec {} Sample.skipped).ledger.row? 5).map fun r => (r.status, r.attempts)) =
      some (.processing, 1) := by
  decide +kernel

end Xiaomaolv
