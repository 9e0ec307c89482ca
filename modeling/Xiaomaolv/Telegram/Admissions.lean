import Xiaomaolv.Lib.Lease
import Xiaomaolv.Lib.Machine
import Xiaomaolv.Lib.Table
import Xiaomaolv.Loop.Data

/-!
# The admission ledger of Telegram updates

* `AdmissionTable`: the table `telegram_admissions`, with its primary key; the four operations on it.
* `Ledger`: the table with the log of the grants it gave; a run is any list of `AdmissionCall`s.
* **`admission_ledger`**: one holder at a clock, at most three grants, absorbing ends, no lost update.
-/

namespace Xiaomaolv

open Table Lease

/-- The `status` of an admission. -/
inductive AdmissionStatus
  | processing
  | done
  | failed
deriving DecidableEq, Repr

/-- A row of `telegram_admissions`. -/
structure AdmissionRow where
  updateId : Int
  status : AdmissionStatus
  kind : String
  summaryJson : String
  detail : Option String
  attempts : Nat
  leaseUntil : Int
deriving DecidableEq, Repr

/-- `TELEGRAM_ADMISSION_MAX_ATTEMPTS`. -/
def telegramAdmissionMaxAttempts : Nat := 3

/-- The table `telegram_admissions`: no two rows share an `update_id`. -/
structure AdmissionTable where
  rows : List AdmissionRow
  primaryKey : (rows.map AdmissionRow.updateId).Nodup

namespace AdmissionTable

def empty : AdmissionTable := ⟨[], List.nodup_nil⟩

/-- The row of an update. -/
def row? (t : AdmissionTable) (updateId : Int) : Option AdmissionRow :=
  t.rows.find? fun r => r.updateId = updateId

/-- An `UPDATE` that keeps the primary key. -/
def update (t : AdmissionTable) (p : AdmissionRow → Bool) (f : AdmissionRow → AdmissionRow)
    (hf : ∀ r, (f r).updateId = r.updateId) : AdmissionTable where
  rows := updateWhere p f t.rows
  primaryKey := by rw [map_updateWhere hf]; exact t.primaryKey

/-- `INSERT OR IGNORE`: a stored key makes it do nothing. -/
def insertOrIgnore (t : AdmissionTable) (r : AdmissionRow) : AdmissionTable :=
  if h : (t.row? r.updateId).isSome then t
  else
    { rows := t.rows ++ [r]
      primaryKey := nodup_concat t.primaryKey fun x hx => by
        have hnone := List.find?_eq_none.mp (Option.not_isSome_iff_eq_none.mp h) x hx
        simpa using hnone }

/-! ## The operations -/

/-- A `processing` row whose lease is over, while attempts remain. -/
def isReclaimable (now : Int) (r : AdmissionRow) : Bool :=
  r.status = .processing && r.leaseUntil < now && r.attempts < telegramAdmissionMaxAttempts

/-- What the reclaim writes. -/
def reclaim (leaseUntil : Int) (r : AdmissionRow) : AdmissionRow :=
  { r with status := .processing, leaseUntil, attempts := r.attempts + 1, detail := none }

theorem reclaim_updateId (leaseUntil : Int) (r : AdmissionRow) :
    (reclaim leaseUntil r).updateId = r.updateId := rfl

/-- `admit_telegram_update`, at the clock `now`. -/
def admitTelegramUpdate (t : AdmissionTable) (updateId : Int) (kind summaryJson : String)
    (leaseSecs now : Int) : Bool × AdmissionTable :=
  if (t.row? updateId).isNone then
    (true, t.insertOrIgnore
      { updateId, status := .processing, kind, summaryJson, detail := none, attempts := 1
        leaseUntil := now + leaseSecs })
  else
    let reclaimed := fun r : AdmissionRow => decide (r.updateId = updateId) && isReclaimable now r
    (t.rows.countP reclaimed == 1, t.update reclaimed (reclaim (now + leaseSecs)) (reclaim_updateId _))

/-- `SET status = ?, detail = ?`. -/
def close (status : AdmissionStatus) (detail : String) (r : AdmissionRow) : AdmissionRow :=
  { r with status, detail := some detail }

theorem close_updateId (status : AdmissionStatus) (detail : String) (r : AdmissionRow) :
    (close status detail r).updateId = r.updateId := rfl

/-- The rows of an update that still process it. -/
def isProcessing (updateId : Int) (r : AdmissionRow) : Bool :=
  decide (r.updateId = updateId) && decide (r.status = .processing)

/-- `finish_telegram_admission`. -/
def finishTelegramAdmission (t : AdmissionTable) (updateId : Int) (detail : String) : AdmissionTable :=
  t.update (isProcessing updateId) (close .done detail) (close_updateId _ _)

/-- `fail_telegram_admission`. -/
def failTelegramAdmission (t : AdmissionTable) (updateId : Int) (error : String) : AdmissionTable :=
  t.update (isProcessing updateId) (close .failed (takeChars 2000 error)) (close_updateId _ _)

/-- A `processing` row whose lease ended before the clock `staleBefore`. -/
def isStale (staleBefore : Int) (r : AdmissionRow) : Bool :=
  r.status = .processing && r.leaseUntil < staleBefore

/-- `sweep_stale_telegram_admissions`, at the clock `now`: the lost updates. -/
def sweepStaleTelegramAdmissions (t : AdmissionTable) (olderThanSecs now : Int) :
    List Int × AdmissionTable :=
  let staleBefore := now - olderThanSecs
  ((t.rows.filter (isStale staleBefore)).map AdmissionRow.updateId,
    t.update (isStale staleBefore) (close .failed "lost mid-processing") (close_updateId _ _))

/-! ## What one operation does to the row of an update -/

variable {t : AdmissionTable} {u v : Int}

theorem row?_eq_some_iff {r : AdmissionRow} : t.row? u = some r ↔ r ∈ t.rows ∧ r.updateId = u := by
  constructor
  · intro h
    exact ⟨List.mem_of_find?_eq_some h, by simpa using List.find?_some h⟩
  · rintro ⟨h, rfl⟩
    exact find?_of_mem t.primaryKey h

theorem row?_update {p : AdmissionRow → Bool} {f : AdmissionRow → AdmissionRow}
    (hf : ∀ r, (f r).updateId = r.updateId) :
    (t.update p f hf).row? u = (t.row? u).map fun r => if p r then f r else r :=
  find?_updateWhere (fun r _ => by rw [hf r]) t.rows

theorem row?_insertOrIgnore {r : AdmissionRow} (h : t.row? r.updateId = none) :
    (t.insertOrIgnore r).row? u = if u = r.updateId then some r else t.row? u := by
  have hrows : (t.insertOrIgnore r).rows = t.rows ++ [r] := by
    unfold insertOrIgnore
    rw [dif_neg (by simp [h])]
  unfold row? at h ⊢
  rw [hrows, List.find?_append]
  split_ifs with hu
  · rw [hu, h]
    simp
  · have hr : decide (r.updateId = u) = false := by simpa using Ne.symm hu
    simp [hr]

/-- The row of `u` after a delivery of `u`: a new one, a reclaimed one, or the old one. -/
def delivered (t : AdmissionTable) (u : Int) (kind summaryJson : String) (leaseSecs now : Int) :
    AdmissionRow :=
  match t.row? u with
  | none => ⟨u, .processing, kind, summaryJson, none, 1, now + leaseSecs⟩
  | some r => if isReclaimable now r then reclaim (now + leaseSecs) r else r

theorem row?_admitTelegramUpdate {kind summaryJson : String} {leaseSecs now : Int} :
    (t.admitTelegramUpdate v kind summaryJson leaseSecs now).2.row? u
      = if u = v then some (t.delivered v kind summaryJson leaseSecs now) else t.row? u := by
  cases h : t.row? v with
  | none =>
    simp only [admitTelegramUpdate, h, Option.isNone_none, if_true, delivered]
    exact row?_insertOrIgnore h
  | some r =>
    simp only [admitTelegramUpdate, h, Option.isNone_some, Bool.false_eq_true, if_false, delivered]
    rw [row?_update]
    split_ifs with hu hr
    · subst hu
      simp [h, hr, (row?_eq_some_iff.mp h).2]
    · subst hu
      simp [h, hr]
    · cases hx : t.row? u with
      | none => rfl
      | some x => simp [(row?_eq_some_iff.mp hx).2, hu]

theorem admitTelegramUpdate_granted {kind summaryJson : String} {leaseSecs now : Int} :
    (t.admitTelegramUpdate u kind summaryJson leaseSecs now).1
      = (t.row? u).all (isReclaimable now) := by
  cases h : t.row? u with
  | none => simp [admitTelegramUpdate, h]
  | some r =>
    have hcount := countP_key t.primaryKey u (isReclaimable now)
    simp only [admitTelegramUpdate, h, Option.isNone_some, Bool.false_eq_true, if_false, hcount]
    rw [show t.rows.find? (fun r => r.updateId = u) = some r from h]
    cases hr : isReclaimable now r <;> simp [hr]

theorem mem_sweepStaleTelegramAdmissions {olderThanSecs now : Int} {r : AdmissionRow}
    (h : t.row? u = some r) : u ∈ (t.sweepStaleTelegramAdmissions olderThanSecs now).1
      ↔ r.status = .processing ∧ r.leaseUntil < now - olderThanSecs := by
  obtain ⟨hr, hu⟩ := row?_eq_some_iff.mp h
  simp only [sweepStaleTelegramAdmissions, List.mem_map, List.mem_filter, isStale, Bool.and_eq_true,
    decide_eq_true_eq]
  constructor
  · rintro ⟨x, ⟨hx, hs⟩, hxu⟩
    have hxr : x = r := eq_of_key_eq t.primaryKey hx hr (hxu.trans hu.symm)
    rwa [← hxr]
  · intro hs
    exact ⟨r, ⟨hr, hs⟩, hu⟩

end AdmissionTable

/-! ## Runs -/

/-- The table with the grants it gave, the latest last. -/
structure Ledger where
  table : AdmissionTable
  grants : List (Int × Grant)

/-- A call of the ledger's interface, with the clock of its transaction. The `holder` of a `finish` or
`fail` is the number of the grant the consumer acts under; the code does not see it. -/
inductive AdmissionCall
  | admitUpdate (updateId : Int) (kind summaryJson : String) (leaseSecs now : Int)
  | finish (holder : Nat) (updateId : Int) (detail : String)
  | fail (holder : Nat) (updateId : Int) (error : String)
  | sweepStale (olderThanSecs now : Int)

/-- The lease of a delivery does not end before it begins. -/
def AdmissionCall.leasesForward : AdmissionCall → Prop
  | .admitUpdate _ _ _ leaseSecs _ => 0 ≤ leaseSecs
  | _ => True

namespace Ledger

open AdmissionTable

def empty : Ledger := ⟨.empty, []⟩

/-- One call. -/
def exec (l : Ledger) : AdmissionCall → Ledger
  | .admitUpdate updateId kind summaryJson leaseSecs now =>
    let (granted, table) := l.table.admitTelegramUpdate updateId kind summaryJson leaseSecs now
    { table
      grants := if granted then l.grants ++ [(updateId, ⟨now, now + leaseSecs⟩)] else l.grants }
  | .finish _ updateId detail => { l with table := l.table.finishTelegramAdmission updateId detail }
  | .fail _ updateId error => { l with table := l.table.failTelegramAdmission updateId error }
  | .sweepStale olderThanSecs now =>
    { l with table := (l.table.sweepStaleTelegramAdmissions olderThanSecs now).2 }

/-- The row of an update. -/
def row? (l : Ledger) (updateId : Int) : Option AdmissionRow := l.table.row? updateId

/-- The grants of an update. -/
def grantsOf (l : Ledger) (updateId : Int) : List Grant :=
  (l.grants.filter fun g => g.1 = updateId).map Prod.snd

/-- The ledger that a list of calls leaves. -/
def run (calls : List AdmissionCall) : Ledger := Machine.run exec empty calls

/-! ## One call -/

variable {l : Ledger} {u : Int}

theorem row?_exec_admitUpdate {v leaseSecs now : Int} {kind summaryJson : String} :
    (l.exec (.admitUpdate v kind summaryJson leaseSecs now)).row? u
      = if u = v then some (l.table.delivered v kind summaryJson leaseSecs now) else l.row? u :=
  row?_admitTelegramUpdate

theorem grantsOf_exec_admitUpdate {v leaseSecs now : Int} {kind summaryJson : String} :
    (l.exec (.admitUpdate v kind summaryJson leaseSecs now)).grantsOf u
      = if u = v ∧ (l.row? v).all (isReclaimable now)
        then l.grantsOf u ++ [⟨now, now + leaseSecs⟩] else l.grantsOf u := by
  have hgranted : (l.table.admitTelegramUpdate v kind summaryJson leaseSecs now).1
      = (l.row? v).all (isReclaimable now) := admitTelegramUpdate_granted
  unfold grantsOf exec
  simp only [hgranted]
  by_cases hall : (l.row? v).all (isReclaimable now) = true
  · by_cases hu : u = v
    · simp [hu, hall]
    · have huv : decide (v = u) = false := by simpa using Ne.symm hu
      simp [hu, hall, List.filter_append, huv]
  · simp [hall]

/-- What a call other than a delivery does to a row. -/
def settle (call : AdmissionCall) (r : AdmissionRow) : AdmissionRow :=
  match call with
  | .admitUpdate .. => r
  | .finish _ v detail => if isProcessing v r then close .done detail r else r
  | .fail _ v error => if isProcessing v r then close .failed (takeChars 2000 error) r else r
  | .sweepStale olderThanSecs now =>
    if isStale (now - olderThanSecs) r then close .failed "lost mid-processing" r else r

theorem exec_settles (call : AdmissionCall) :
    (∃ v kind summaryJson leaseSecs now, call = .admitUpdate v kind summaryJson leaseSecs now) ∨
    (∀ u, (l.exec call).row? u = (l.row? u).map (settle call)) ∧ (l.exec call).grants = l.grants := by
  cases call with
  | admitUpdate v kind summaryJson leaseSecs now => exact .inl ⟨v, kind, summaryJson, leaseSecs, now, rfl⟩
  | finish | fail | sweepStale => exact .inr ⟨fun u => row?_update (close_updateId _ _), rfl⟩

theorem settle_cases (call : AdmissionCall) (r : AdmissionRow) :
    (r.status = .processing ∧ ∃ status detail, status ≠ .processing ∧
      settle call r = close status detail r) ∨ settle call r = r := by
  cases call with
  | admitUpdate => exact .inr rfl
  | finish holder v detail =>
    by_cases h : isProcessing v r = true
    · have hr : r.status = .processing := by simpa using (Bool.and_eq_true_iff.mp h).2
      exact .inl ⟨hr, .done, detail, nofun, if_pos h⟩
    · exact .inr (if_neg h)
  | fail holder v error =>
    by_cases h : isProcessing v r = true
    · have hr : r.status = .processing := by simpa using (Bool.and_eq_true_iff.mp h).2
      exact .inl ⟨hr, .failed, takeChars 2000 error, nofun, if_pos h⟩
    · exact .inr (if_neg h)
  | sweepStale olderThanSecs now =>
    by_cases h : isStale (now - olderThanSecs) r = true
    · have hr : r.status = .processing := by simpa using (Bool.and_eq_true_iff.mp h).1
      exact .inl ⟨hr, .failed, "lost mid-processing", nofun, if_pos h⟩
    · exact .inr (if_neg h)

theorem settle_lease (call : AdmissionCall) (r : AdmissionRow) :
    (settle call r).attempts = r.attempts ∧ (settle call r).leaseUntil = r.leaseUntil := by
  rcases settle_cases call r with ⟨-, status, detail, -, h⟩ | h <;> rw [h] <;> exact ⟨rfl, rfl⟩

theorem settle_ended (call : AdmissionCall) {r : AdmissionRow} (hr : r.status ≠ .processing) :
    settle call r = r := by
  rcases settle_cases call r with ⟨h, -⟩ | h
  · exact absurd h hr
  · exact h

/-! ## The invariant -/

/-- The row of an update tells its grants: their number, and where the last one ends. -/
def Accounted : Option AdmissionRow → List Grant → Prop
  | none, grants => grants = []
  | some r, grants => grants.length = r.attempts ∧ r.attempts ≤ telegramAdmissionMaxAttempts ∧
      Successive grants ∧ grants.getLast?.map Grant.expiresAt = some r.leaseUntil

theorem accounted_exec (h : ∀ u, Accounted (l.row? u) (l.grantsOf u)) (call : AdmissionCall) :
    ∀ u, Accounted ((l.exec call).row? u) ((l.exec call).grantsOf u) := by
  intro u
  rcases l.exec_settles call with ⟨v, kind, summaryJson, leaseSecs, now, rfl⟩ | ⟨hrow, hgrants⟩
  · rw [row?_exec_admitUpdate, grantsOf_exec_admitUpdate]
    by_cases hu : u = v
    · subst hu
      have hacc := h u
      simp only [if_true, true_and]
      unfold delivered
      rw [show l.table.row? u = l.row? u from rfl]
      cases hr : l.row? u with
      | none =>
        rw [hr] at hacc
        have hnil : l.grantsOf u = [] := hacc
        simp [Accounted, hnil, Successive, telegramAdmissionMaxAttempts]
      | some r =>
        rw [hr] at hacc
        obtain ⟨hlen, hmax, hsucc, hlast⟩ := hacc
        simp only [Option.all_some]
        by_cases hre : isReclaimable now r = true
        · -- The row of the last grant had run out, and an attempt was left.
          simp only [hre, if_true]
          simp only [isReclaimable, Bool.and_eq_true, decide_eq_true_eq] at hre
          refine ⟨by simp [reclaim, hlen], hre.2, successive_concat.mpr ⟨hsucc, fun g hg => ?_⟩,
            by simp [reclaim]⟩
          rw [Option.mem_def.mp hg, Option.map_some, Option.some_inj] at hlast
          rw [hlast]
          exact hre.1.2
        · simp only [hre, Bool.false_eq_true, if_false]
          exact ⟨hlen, hmax, hsucc, hlast⟩
    · simp only [hu, if_false, false_and]
      exact h u
  · have hof : (l.exec call).grantsOf u = l.grantsOf u := by rw [grantsOf, hgrants, grantsOf]
    rw [hrow u, hof]
    have hacc := h u
    cases hr : l.row? u with
    | none => rwa [hr] at hacc
    | some r =>
      rw [hr] at hacc
      obtain ⟨hattempts, hlease⟩ := settle_lease call r
      simp only [Option.map_some, Accounted, hattempts, hlease]
      exact hacc

theorem accounted_run (calls : List AdmissionCall) :
    ∀ u, Accounted ((run calls).row? u) ((run calls).grantsOf u) :=
  Machine.run_invariant' (I := fun l : Ledger => ∀ u, Accounted (l.row? u) (l.grantsOf u))
    (fun _ call h => accounted_exec h call) fun _ => rfl

theorem ended_exec {r : AdmissionRow} (h : l.row? u = some r) (hr : r.status ≠ .processing)
    (call : AdmissionCall) : (l.exec call).row? u = some r := by
  rcases l.exec_settles call with ⟨v, kind, summaryJson, leaseSecs, now, rfl⟩ | ⟨hrow, -⟩
  · rw [row?_exec_admitUpdate]
    split_ifs with hu
    · subst hu
      have hre : isReclaimable now r = false := by simp [isReclaimable, hr]
      unfold delivered
      rw [show l.table.row? u = some r from h]
      simp [hre]
    · exact h
  · rw [hrow, h, Option.map_some, settle_ended call hr]

theorem forward_run {calls : List AdmissionCall} (h : ∀ call ∈ calls, call.leasesForward) :
    ∀ g ∈ (run calls).grantsOf u, g.takenAt ≤ g.expiresAt := by
  have hall : ∀ g ∈ (run calls).grants, g.2.takenAt ≤ g.2.expiresAt := by
    refine Machine.run_invariant (G := fun _ call => call.leasesForward)
      (I := fun l : Ledger => ∀ g ∈ l.grants, g.2.takenAt ≤ g.2.expiresAt) ?_
      (Machine.along_of_forall fun _ call hcall => h call hcall) (by simp [empty])
    intro l call hcall hl
    rcases l.exec_settles call with ⟨v, kind, summaryJson, leaseSecs, now, rfl⟩ | ⟨-, hgrants⟩
    · simp only [AdmissionCall.leasesForward] at hcall
      simp only [exec]
      split_ifs
      · intro g hg
        rcases List.mem_append.mp hg with hg | hg
        · exact hl g hg
        · rw [List.mem_singleton] at hg
          rw [hg]
          show now ≤ now + leaseSecs
          omega
      · exact hl
    · rw [hgrants]
      exact hl
  intro g hg
  obtain ⟨x, hx, rfl⟩ := List.mem_map.mp hg
  exact hall x (List.mem_filter.mp hx).1

/-! ## The guarantees -/

/-- A `finish` or `fail` under a grant of `u` that a later grant took over. -/
def TakenOver (l : Ledger) (u : Int) : AdmissionCall → Prop
  | .finish holder v _ => v = u ∧ holder + 1 < (l.grantsOf u).length
  | .fail holder v _ => v = u ∧ holder + 1 < (l.grantsOf u).length
  | _ => False

/-- A delivery of `u` at the clock is granted. -/
def Reclaimable (l : Ledger) (u clock : Int) : Prop :=
  ∀ kind summaryJson leaseSecs,
    (l.table.admitTelegramUpdate u kind summaryJson leaseSecs clock).1 = true

/-- The lease of the row is over at the clock, and a sweep reports the update lost once its lease has
been over for the time the sweep waits. -/
def Sweepable (l : Ledger) (r : AdmissionRow) (clock : Int) : Prop :=
  r.leaseUntil < clock ∧ ∀ olderThanSecs now, r.leaseUntil < now - olderThanSecs →
    r.updateId ∈ (l.table.sweepStaleTelegramAdmissions olderThanSecs now).1

/-- What holds of an update in every ledger that a run leaves. -/
structure Sound (l : Ledger) (u : Int) : Prop where
  successive : Successive (l.grantsOf u)
  attempts : (l.grantsOf u).length ≤ telegramAdmissionMaxAttempts
  absorbing : ∀ r, l.row? u = some r → r.status = .done ∨ r.status = .failed →
    ∀ later, (Machine.run exec l later).row? u = some r
  takenOver : ∀ call, l.TakenOver u call → ∀ r, l.row? u = some r →
    ∃ r', (l.exec call).row? u = some r' ∧ r'.attempts = r.attempts ∧ r'.leaseUntil = r.leaseUntil ∧
      (r' = r ∨ r.status = .processing ∧ (r'.status = .done ∨ r'.status = .failed))
  kept : l.grantsOf u ≠ [] → ∀ clock, ∃ r, l.row? u = some r ∧
    (r.status = .done ∨ r.status = .failed ∨ (r.status = .processing ∧ clock ≤ r.leaseUntil) ∨
      (r.attempts < telegramAdmissionMaxAttempts → l.Reclaimable u clock) ∧ l.Sweepable r clock)

theorem absorbing_run {r : AdmissionRow} (h : l.row? u = some r)
    (hr : r.status = .done ∨ r.status = .failed) (later : List AdmissionCall) :
    (Machine.run exec l later).row? u = some r := by
  have hne : r.status ≠ .processing := by rcases hr with hr | hr <;> rw [hr] <;> nofun
  exact Machine.run_invariant' (I := fun l : Ledger => l.row? u = some r)
    (fun _ call h => ended_exec h hne call) h

theorem takenOver_exec {call : AdmissionCall} (hcall : l.TakenOver u call) {r : AdmissionRow}
    (h : l.row? u = some r) : ∃ r', (l.exec call).row? u = some r' ∧ r'.attempts = r.attempts ∧
      r'.leaseUntil = r.leaseUntil ∧
      (r' = r ∨ r.status = .processing ∧ (r'.status = .done ∨ r'.status = .failed)) := by
  rcases l.exec_settles call with ⟨v, kind, summaryJson, leaseSecs, now, rfl⟩ | ⟨hrow, -⟩
  · exact absurd hcall id
  · refine ⟨settle call r, by rw [hrow, h, Option.map_some], (settle_lease call r).1,
      (settle_lease call r).2, ?_⟩
    rcases settle_cases call r with ⟨hr, status, detail, hs, heq⟩ | heq
    · refine .inr ⟨hr, ?_⟩
      rw [heq]
      show status = .done ∨ status = .failed
      cases status with
      | processing => exact absurd rfl hs
      | done => exact .inl rfl
      | failed => exact .inr rfl
    · exact .inl heq

theorem kept_of_accounted (hacc : Accounted (l.row? u) (l.grantsOf u)) (h : l.grantsOf u ≠ [])
    (clock : Int) : ∃ r, l.row? u = some r ∧
      (r.status = .done ∨ r.status = .failed ∨ (r.status = .processing ∧ clock ≤ r.leaseUntil) ∨
        (r.attempts < telegramAdmissionMaxAttempts → l.Reclaimable u clock) ∧ l.Sweepable r clock) := by
  cases hrow : l.row? u with
  | none =>
    rw [hrow] at hacc
    exact absurd hacc h
  | some r =>
    refine ⟨r, rfl, ?_⟩
    cases hr : r.status with
    | done => exact .inl rfl
    | failed => exact .inr (.inl rfl)
    | processing =>
      by_cases hlease : clock ≤ r.leaseUntil
      · exact .inr (.inr (.inl ⟨rfl, hlease⟩))
      · have hover : r.leaseUntil < clock := by omega
        refine .inr (.inr (.inr ⟨fun hleft kind summaryJson leaseSecs => ?_, hover,
          fun olderThanSecs now hstale => ?_⟩))
        · rw [admitTelegramUpdate_granted, show l.table.row? u = some r from hrow]
          simp [isReclaimable, hr, hover, hleft]
        · have hu : r.updateId = u := (row?_eq_some_iff.mp hrow).2
          rw [hu]
          exact (mem_sweepStaleTelegramAdmissions hrow).mpr ⟨hr, hstale⟩

end Ledger

open Ledger in
/-- **The admission ledger**, in every ledger that any calls at any clocks leave: the grants of an
update follow one another, at most three of them, an ended update stays, an overtaken holder may only
end an update that still is processed, and no update is lost. With leases that run forward, one holder
at a time. -/
theorem admission_ledger (calls : List AdmissionCall) (u : Int) :
    (Ledger.run calls).Sound u ∧
    ((∀ call ∈ calls, call.leasesForward) → ∀ clock,
      (((Ledger.run calls).grantsOf u).filter fun g => g.OpenAt clock).length ≤ 1) := by
  have hacc := accounted_run calls u
  have hsucc : Successive ((Ledger.run calls).grantsOf u) ∧
      ((Ledger.run calls).grantsOf u).length ≤ telegramAdmissionMaxAttempts := by
    cases hrow : (Ledger.run calls).row? u with
    | none =>
      rw [hrow] at hacc
      have hnil : (Ledger.run calls).grantsOf u = [] := hacc
      simp [hnil]
    | some r =>
      rw [hrow] at hacc
      obtain ⟨hlen, hmax, hsucc, -⟩ := hacc
      exact ⟨hsucc, hlen ▸ hmax⟩
  refine ⟨⟨hsucc.1, hsucc.2, fun r h hr => absorbing_run h hr, fun call hcall r h =>
    takenOver_exec hcall h, kept_of_accounted hacc⟩, fun hforward clock => ?_⟩
  exact hsucc.1.length_open_le_one (forward_run hforward) clock

namespace Sample

/-- An update is delivered, and delivered again after its lease. -/
def redelivered : List AdmissionCall :=
  [.admitUpdate 1 "message" "{}" 120 0, .admitUpdate 1 "message" "{}" 120 121]

end Sample

theorem admission_ledger_redelivered :
    (Ledger.run Sample.redelivered).Sound 1 ∧ ∀ clock,
      (((Ledger.run Sample.redelivered).grantsOf 1).filter fun g => g.OpenAt clock).length ≤ 1 := by
  refine ⟨(admission_ledger Sample.redelivered 1).1, (admission_ledger Sample.redelivered 1).2 ?_⟩
  simp [Sample.redelivered, AdmissionCall.leasesForward]

/-- The first holder of a redelivered update, late, ends it under the second one. -/
theorem overtaken_holder_ends :
    ¬ ∀ calls u call, (Ledger.run calls).TakenOver u call →
      ((Ledger.run calls).exec call).row? u = (Ledger.run calls).row? u := by
  intro h
  have hrow := h Sample.redelivered 1 (.finish 0 1 "processed")
    (show (1 : Int) = 1 ∧ 0 + 1 < ((Ledger.run Sample.redelivered).grantsOf 1).length by decide +kernel)
  revert hrow
  decide +kernel

end Xiaomaolv
