import Xiaomaolv.Telegram.OutboundQueue

/-!
# What draining the queue costs

* `Undisputed`: a step in which no two processes are after one id or one row, and no delivery goes unmarked.
* `Effect`, `effect_exec`: what an undisputed step does.
* `Stored`, `Hands`: every request has its row, and every row in hand is pending and in one hand only.
* **`accounts_effect`**: a pending row was delivered once for each of its attempts, and no row 50 times.
-/

namespace Xiaomaolv

open Table

namespace OutboundQueue

variable {s : OutboundQueue}

/-! ## What is marked -/

/-- What the janitor marks on a row. -/
def settleRow (now : Int) (attempts : Nat) (sentAt : Int) (result : Except String Unit)
    (r : TelegramOutboundQueueRow) : TelegramOutboundQueueRow :=
  match result with
  | .ok () => { r with status := .sent, sentAt := some sentAt, lastError := none }
  | .error e =>
    if 48 ≤ attempts then { r with status := .dead, lastError := some e }
    else
      { r with
        attempts := r.attempts + 1, nextAttemptAt := now + outboundBackoff attempts, lastError := some e }

theorem markDelivery_eq (rows : List TelegramOutboundQueueRow) (now : Int) (row : TelegramOutboundQueueRow)
    (sentAt : Int) (result : Except String Unit) : markDelivery rows now row sentAt result =
      updateWhere (fun r => r.id = row.id) (settleRow now row.attempts sentAt result) rows := by
  unfold markDelivery settleRow
  cases result with
  | ok => rfl
  | error e => split_ifs <;> rfl

section

variable (now : Int) (attempts : Nat) (sentAt : Int) (result : Except String Unit) (r : TelegramOutboundQueueRow)

theorem settleRow_fixed :
    (settleRow now attempts sentAt result r).id = r.id ∧
    (settleRow now attempts sentAt result r).request = r.request ∧
    (settleRow now attempts sentAt result r).createdAt = r.createdAt ∧
    (settleRow now attempts sentAt result r).second = r.second ∧
    (settleRow now attempts sentAt result r).counter = r.counter := by
  unfold settleRow
  cases result with
  | ok => exact ⟨rfl, rfl, rfl, rfl, rfl⟩
  | error e => split_ifs <;> exact ⟨rfl, rfl, rfl, rfl, rfl⟩

@[simp] theorem settleRow_id : (settleRow now attempts sentAt result r).id = r.id :=
  (settleRow_fixed now attempts sentAt result r).1

@[simp] theorem settleRow_createdAt : (settleRow now attempts sentAt result r).createdAt = r.createdAt :=
  (settleRow_fixed now attempts sentAt result r).2.2.1

variable {now attempts sentAt result r}

theorem settleRow_pending (h : (settleRow now attempts sentAt result r).status = .pending) :
    attempts < 48 ∧ (settleRow now attempts sentAt result r).attempts = r.attempts + 1 := by
  unfold settleRow at h ⊢
  cases result with
  | ok => cases h
  | error e =>
    dsimp only at h ⊢
    split_ifs at h ⊢ with hlast
    exact ⟨by omega, rfl⟩

theorem settleRow_sent (hr : r.status = .pending) (h : (settleRow now attempts sentAt result r).status = .sent) :
    result = .ok () := by
  unfold settleRow at h
  cases result with
  | ok => rfl
  | error e =>
    dsimp only at h
    split_ifs at h
    rw [show r.status = .sent from h] at hr
    cases hr

end

/-! ## The stored rows -/

/-- The listed rows that a process still has. -/
def due (s : OutboundQueue) (p : Nat) : List TelegramOutboundQueueRow := (s.processes p).due

/-- A row of a later time is stored. -/
def HasPassed (s : OutboundQueue) (createdAt : Int) : Prop := ∃ x ∈ s.rows, createdAt < x.createdAt

/-- **What keeps the processes apart**: no two rows get one id, and none gets a time that has passed while an
older row is pending; no process lists a row that another one has in hand; and every delivery is marked. -/
def Undisputed (s : OutboundQueue) : OutboundStep → Prop
  | .enqueue p second createdAt _ =>
    (∀ r ∈ s.rows, ¬ (r.second = second ∧ r.counter % 10000 = (s.processes p).outSeq % 10000)) ∧
      ∀ r ∈ s.rows, r.status = .pending → s.HasPassed r.createdAt → r.createdAt < createdAt
  | .listDue p _ order => ∀ r ∈ order.take outboundBatch, ∀ q, q ≠ p → ∀ h ∈ s.due q, h.id ≠ r.id
  | .deliver _ _ => True
  | .mark p _ stored => (s.processes p).result.isSome → stored = true
  | .restart p => (s.processes p).result = none

/-- The rows are those of the requests, each with an id of its own. -/
structure Stored (s : OutboundQueue) : Prop where
  ids : (s.rows.map fun r => r.id).Nodup
  made : ∀ r ∈ s.rows, r.id = outboundId r.second r.counter
  requests : s.rows.map (fun r => r.request) = s.enqueued

theorem enqueue_rows (h : Stored s) {p second : Nat} {createdAt : Int} {request : EnqueueTelegramOutboundRequest}
    (hstep : s.Undisputed (.enqueue p second createdAt request)) :
    (∀ r ∈ s.rows, r.id ≠ outboundId second (s.processes p).outSeq) ∧
    (s.enqueue p second createdAt request).rows =
      s.rows ++ [newOutboundRow second (s.processes p).outSeq createdAt request] := by
  have hfresh : ∀ r ∈ s.rows, r.id ≠ outboundId second (s.processes p).outSeq := by
    intro r hr hid
    rw [h.made r hr] at hid
    exact hstep.1 r hr (outboundId_inj hid)
  refine ⟨hfresh, ?_⟩
  unfold enqueue
  have hinsert : insertRow (fun r : TelegramOutboundQueueRow =>
      r.id = (newOutboundRow second (s.processes p).outSeq createdAt request).id)
      "failed to enqueue telegram outbound" (newOutboundRow second (s.processes p).outSeq createdAt request)
      s.rows = .ok (s.rows ++ [newOutboundRow second (s.processes p).outSeq createdAt request]) :=
    insertRow_eq_ok.mpr ⟨fun r hr => decide_eq_false (hfresh r hr), rfl⟩
  simp only [hinsert]

/-! ## What a step does -/

/-- What an undisputed step does. -/
inductive Effect (s : OutboundQueue) : OutboundQueue → Prop
  | unchanged : Effect s s
  | enqueued (p second : Nat) (createdAt : Int) (request : EnqueueTelegramOutboundRequest)
      (hfresh : ∀ r ∈ s.rows, r.id ≠ outboundId second (s.processes p).outSeq)
      (hclock : ∀ r ∈ s.rows, r.status = .pending → s.HasPassed r.createdAt → r.createdAt < createdAt) :
      Effect s
        { s with
          rows := s.rows ++ [newOutboundRow second (s.processes p).outSeq createdAt request]
          processes := Function.update s.processes p
            { s.processes p with outSeq := ((s.processes p).outSeq + 1) % 2 ^ 64 }
          enqueued := s.enqueued ++ [request] }
  | listed (p : Nat) (now : Int) (order : List TelegramOutboundQueueRow) (hidle : s.due p = [])
      (horder : IsOldestFirst s.rows "telegram" now order)
      (halone : ∀ r ∈ order.take outboundBatch, ∀ q, q ≠ p → ∀ h ∈ s.due q, h.id ≠ r.id) :
      Effect s
        { s with
          processes := Function.update s.processes p
            { s.processes p with
              now
              due := order.take outboundBatch
              leftOut := (order.drop outboundBatch).map fun r => r.id
              result := none } }
  | delivered (p : Nat) (row : TelegramOutboundQueueRow) (rest : List TelegramOutboundQueueRow)
      (result : Except String Unit) (hdue : s.due p = row :: rest) (hresult : (s.processes p).result = none) :
      Effect s
        { s with
          processes := Function.update s.processes p { s.processes p with result := some result }
          deliveries := Tally.bump [row.id] s.deliveries
          failures := Tally.bump (if result.isOk then [] else [row.id]) s.failures
          overtaken := Tally.bump (s.processes p).leftOut s.overtaken }
  | marked (p : Nat) (row : TelegramOutboundQueueRow) (rest : List TelegramOutboundQueueRow)
      (result : Except String Unit) (sentAt : Int) (hdue : s.due p = row :: rest)
      (hresult : (s.processes p).result = some result) :
      Effect s
        { s with
          rows := updateWhere (fun r => r.id = row.id)
            (settleRow (s.processes p).now row.attempts sentAt result) s.rows
          processes := Function.update s.processes p { s.processes p with due := rest, result := none } }
  | restarted (p : Nat) (hresult : (s.processes p).result = none) :
      Effect s { s with processes := Function.update s.processes p {} }

theorem effect_exec (h : Stored s) {step : OutboundStep} (hstep : s.Undisputed step) :
    Effect s (s.exec step) := by
  cases step with
  | enqueue p second createdAt request =>
    obtain ⟨hfresh, hrows⟩ := enqueue_rows h hstep
    have hexec : s.exec (.enqueue p second createdAt request) =
        { s with
          rows := (s.enqueue p second createdAt request).rows
          processes := Function.update s.processes p
            { s.processes p with outSeq := ((s.processes p).outSeq + 1) % 2 ^ 64 }
          enqueued := s.enqueued ++ [request] } := rfl
    rw [hexec, hrows]
    exact .enqueued p second createdAt request hfresh hstep.2
  | listDue p now order =>
    simp only [exec, listDue]
    split_ifs with hguard
    · exact .listed p now order hguard.1 hguard.2 hstep
    · exact .unchanged
  | deliver p result =>
    simp only [exec, deliver]
    split
    · next row rest hdue hresult => exact .delivered p row rest result hdue hresult
    · exact .unchanged
  | mark p sentAt stored =>
    simp only [exec, mark]
    split
    · next row rest result hdue hresult =>
      have hstored : stored = true := hstep (by rw [hresult]; rfl)
      rw [hstored, if_pos rfl, markDelivery_eq]
      exact .marked p row rest result sentAt hdue hresult
    · exact .unchanged
  | restart p => exact .restarted p hstep

/-! ## The rows and their ids -/

theorem stored_effect {s' : OutboundQueue} (he : Effect s s') (h : Stored s) : Stored s' := by
  cases he with
  | unchanged | listed | delivered | restarted => exact ⟨h.ids, h.made, h.requests⟩
  | enqueued p second createdAt request hfresh _ =>
    constructor
    case ids => exact nodup_concat h.ids hfresh
    case made =>
      intro r hr
      rcases List.mem_append.mp hr with hr | hr
      · exact h.made r hr
      · rw [List.mem_singleton.mp hr]
        rfl
    case requests =>
      change (s.rows ++ _).map _ = _
      rw [List.map_append, h.requests]
      rfl
  | marked p row rest result sentAt _ _ =>
    constructor
    case ids =>
      change ((updateWhere _ _ s.rows).map fun r => r.id).Nodup
      rw [map_updateWhere (settleRow_id _ _ _ _)]
      exact h.ids
    case made =>
      intro r hr
      obtain ⟨r₀, hr₀, rfl⟩ := mem_updateWhere.mp hr
      split_ifs
      · obtain ⟨hid, -, -, hsecond, hcounter⟩ :=
          settleRow_fixed (s.processes p).now row.attempts sentAt result r₀
        rw [hid, hsecond, hcounter]
        exact h.made r₀ hr₀
      · exact h.made r₀ hr₀
    case requests =>
      change (updateWhere _ _ s.rows).map _ = s.enqueued
      rw [map_updateWhere fun r => (settleRow_fixed _ _ _ _ r).2.1]
      exact h.requests

/-! ## The rows in hand -/

/-- The rows in hand are pending, as they were listed, and no row is in two hands. -/
structure Hands (s : OutboundQueue) : Prop where
  held : ∀ p, ∀ h ∈ s.due p, ∃ r ∈ s.rows,
    r.id = h.id ∧ r.status = .pending ∧ r.attempts = h.attempts ∧ r.createdAt = h.createdAt
  apart : ∀ p, ((s.due p).map fun r => r.id).Nodup
  alone : ∀ p q, p ≠ q → ∀ h ∈ s.due p, ∀ h' ∈ s.due q, h.id ≠ h'.id

theorem due_update (processes : Nat → OutboundProcess) (p : Nat) (process : OutboundProcess) (q : Nat) :
    (Function.update processes p process q).due = if q = p then process.due else (processes q).due := by
  rw [Function.update_apply]
  split_ifs <;> rfl

theorem Hands.sublist (h : Hands s) {s' : OutboundQueue} (hdue : ∀ p, (s'.due p).Sublist (s.due p))
    (hrows : ∀ p, ∀ x ∈ s'.due p, ∀ r ∈ s.rows, r.id = x.id → r ∈ s'.rows) : Hands s' where
  held p x hx := by
    obtain ⟨r, hr, hid, hrest⟩ := h.held p x ((hdue p).subset hx)
    exact ⟨r, hrows p x hx r hr hid, hid, hrest⟩
  apart p := ((hdue p).map _).nodup (h.apart p)
  alone p q hpq x hx y hy := h.alone p q hpq x ((hdue p).subset hx) y ((hdue q).subset hy)

theorem hands_effect {s' : OutboundQueue} (he : Effect s s') (hstored : Stored s) (h : Hands s) :
    Hands s' := by
  cases he with
  | unchanged => exact h
  | enqueued p second createdAt request hfresh _ =>
    refine h.sublist (fun q => ?_) fun q x _ r hr _ => List.mem_append_left _ hr
    simp only [due, due_update]
    split_ifs with hq
    · rw [hq]
    · exact List.Sublist.refl _
  | delivered p row rest result _ _ =>
    refine h.sublist (fun q => ?_) fun q x _ r hr _ => hr
    simp only [due, due_update]
    split_ifs with hq
    · rw [hq]
    · exact List.Sublist.refl _
  | restarted p _ =>
    refine h.sublist (fun q => ?_) fun q x _ r hr _ => hr
    simp only [due, due_update]
    split_ifs with hq
    · exact List.nil_sublist _
    · exact List.Sublist.refl _
  | marked p row rest result sentAt hdue _ =>
    refine h.sublist (fun q => ?_) fun q x hx r hr hid => ?_
    · simp only [due, due_update]
      split_ifs with hq
      · rw [hq, show (s.processes p).due = row :: rest from hdue]
        exact List.sublist_cons_self row rest
      · exact List.Sublist.refl _
    · -- The row that is marked is in no hand any more.
      have hne : x.id ≠ row.id := by
        simp only [due, due_update] at hx
        split_ifs at hx with hq
        · have hapart := h.apart p
          rw [hdue, List.map_cons, List.nodup_cons] at hapart
          intro hsame
          exact hapart.1 (hsame ▸ List.mem_map_of_mem hx)
        · exact h.alone q p hq x hx row (hdue ▸ List.mem_cons_self)
      exact mem_updateWhere.mpr ⟨r, hr, if_neg (by simpa [hid] using hne)⟩
  | listed p now order hidle horder halone =>
    have hlisted : ∀ x ∈ order, x ∈ s.rows ∧ x.status = .pending := by
      intro x hx
      obtain ⟨hrow, hsel⟩ := List.mem_filter.mp (horder.1.mem_iff.mp hx)
      simp only [isOutboundDue, Bool.and_eq_true, decide_eq_true_eq] at hsel
      exact ⟨hrow, hsel.1.2⟩
    have hdue : ∀ q, OutboundQueue.due { s with
        processes := Function.update s.processes p
          { s.processes p with
            now
            due := order.take outboundBatch
            leftOut := (order.drop outboundBatch).map fun r => r.id
            result := none } } q = if q = p then order.take outboundBatch else s.due q :=
      fun q => due_update _ _ _ _
    constructor
    case held =>
      intro q x hx
      rw [hdue] at hx
      split_ifs at hx
      · obtain ⟨hrow, hpending⟩ := hlisted x (List.mem_of_mem_take hx)
        exact ⟨x, hrow, rfl, hpending, rfl, rfl⟩
      · exact h.held q x hx
    case apart =>
      intro q
      rw [hdue]
      split_ifs
      · have horderIds : (order.map fun r => r.id).Nodup :=
          (horder.1.map _).nodup_iff.mpr ((List.filter_sublist.map _).nodup hstored.ids)
        exact ((List.take_sublist _ _).map _).nodup horderIds
      · exact h.apart q
    case alone =>
      intro q q' hqq' x hx y hy
      rw [hdue] at hx hy
      split_ifs at hx hy with hq hq'
      · exact absurd (hq.trans hq'.symm) hqq'
      · exact (halone x hx q' hq' y hy).symm
      · exact halone y hy q hq x hx
      · exact h.alone q q' hqq' x hx y hy

theorem Hands.pending_of_id (h : Hands s) (hstored : Stored s) {p : Nat} {x r : TelegramOutboundQueueRow}
    (hx : x ∈ s.due p) (hr : r ∈ s.rows) (hid : r.id = x.id) :
    r.status = .pending ∧ r.attempts = x.attempts ∧ r.createdAt = x.createdAt := by
  obtain ⟨r₀, hr₀, hid₀, hrest⟩ := h.held p x hx
  rw [eq_of_key_eq hstored.ids hr hr₀ (hid.trans hid₀.symm)]
  exact hrest

/-! ## Deliveries that are not marked yet -/

end OutboundQueue

/-- The row whose delivery has returned and is not marked yet. -/
def OutboundProcess.unmarked (process : OutboundProcess) : Option String :=
  match process.due, process.result with
  | row :: _, some _ => some row.id
  | _, _ => none

namespace OutboundQueue

/-- A delivery of the row has returned and is not marked yet. -/
def Unmarked (s : OutboundQueue) (id : String) : Prop := ∃ p, (s.processes p).unmarked = some id

theorem unmarked_eq_none {process : OutboundProcess} (h : process.due = [] ∨ process.result = none) :
    process.unmarked = none := by
  unfold OutboundProcess.unmarked
  split
  · next hdue hresult =>
    rcases h with h | h
    · rw [hdue] at h
      cases h
    · rw [hresult] at h
      cases h
  · rfl

theorem unmarked_eq_some {process : OutboundProcess} {id : String} (h : process.unmarked = some id) :
    ∃ x ∈ process.due, x.id = id := by
  unfold OutboundProcess.unmarked at h
  split at h
  · next row rest _ hdue _ => exact ⟨row, hdue ▸ List.mem_cons_self, Option.some.inj h⟩
  · cases h

theorem unmarked_update {processes : Nat → OutboundProcess} {p : Nat} {process : OutboundProcess}
    {id : String} : (∃ q, (Function.update processes p process q).unmarked = some id) ↔
      process.unmarked = some id ∨ ∃ q, q ≠ p ∧ (processes q).unmarked = some id := by
  constructor
  · rintro ⟨q, hq⟩
    by_cases hqp : q = p
    · rw [hqp, Function.update_self] at hq
      exact .inl hq
    · rw [Function.update_of_ne hqp] at hq
      exact .inr ⟨q, hqp, hq⟩
  · rintro (h | ⟨q, hqp, hq⟩)
    · exact ⟨p, by rw [Function.update_self]; exact h⟩
    · exact ⟨q, by rw [Function.update_of_ne hqp]; exact hq⟩

theorem unmarked_iff (s : OutboundQueue) (p : Nat) (id : String) : s.Unmarked id ↔
    (s.processes p).unmarked = some id ∨ ∃ q, q ≠ p ∧ (s.processes q).unmarked = some id := by
  rw [← unmarked_update, Function.update_eq_self, Unmarked]

theorem Hands.not_unmarked (h : Hands s) {p : Nat} {row : TelegramOutboundQueueRow} (hrow : row ∈ s.due p)
    (hresult : (s.processes p).result = none) : ¬ s.Unmarked row.id := by
  rw [unmarked_iff s p, unmarked_eq_none (.inr hresult)]
  rintro (hnone | ⟨q, hqp, hq⟩)
  · cases hnone
  · obtain ⟨x, hx, hid⟩ := unmarked_eq_some hq
    exact h.alone q p hqp x hx row hrow hid

/-! ## What a row has cost -/

/-- A pending row has been delivered once for each of its attempts, and once more before this is marked; and no
row more often than 49 times. -/
structure Account (deliveries : Nat) (unmarked : Prop) (r : TelegramOutboundQueueRow) : Prop where
  attempts : r.status = .pending → r.attempts ≤ 48
  delivered : r.status = .pending → deliveries ≤ r.attempts + 1
  marked : r.status = .pending → ¬ unmarked → deliveries ≤ r.attempts
  spent : deliveries ≤ 49

theorem Account.imp {deliveries : Nat} {unmarked unmarked' : Prop} {r : TelegramOutboundQueueRow}
    (h : Account deliveries unmarked r) (himp : unmarked → unmarked') : Account deliveries unmarked' r where
  attempts := h.attempts
  delivered := h.delivered
  marked hr hnot := h.marked hr fun hu => hnot (himp hu)
  spent := h.spent

structure Accounts (s : OutboundQueue) : Prop where
  rows : ∀ r ∈ s.rows, Account (s.deliveries r.id) (s.Unmarked r.id) r
  fresh : ∀ id, (∀ r ∈ s.rows, r.id ≠ id) → s.deliveries id = 0

theorem accounts_effect {s' : OutboundQueue} (he : Effect s s') (hstored : Stored s) (hhands : Hands s)
    (h : Accounts s) : Accounts s' := by
  have hsame : ∀ {p process id}, process.unmarked = (s.processes p).unmarked → s.Unmarked id →
      ∃ q, (Function.update s.processes p process q).unmarked = some id := by
    intro p process id heq hu
    rw [unmarked_update, heq]
    exact (unmarked_iff s p id).mp hu
  cases he with
  | unchanged => exact h
  | enqueued p second createdAt request hfresh _ =>
    constructor
    case rows =>
      intro r hr
      rcases List.mem_append.mp hr with hr | hr
      · exact (h.rows r hr).imp (hsame rfl)
      · have hzero : s.deliveries (outboundId second (s.processes p).outSeq) = 0 := h.fresh _ hfresh
        rw [List.mem_singleton.mp hr]
        change Account (s.deliveries (outboundId second (s.processes p).outSeq)) _ _
        rw [hzero]
        constructor <;> simp [newOutboundRow]
    case fresh =>
      exact fun id hid => h.fresh id fun r hr => hid r (List.mem_append_left _ hr)
  | listed p now order hidle _ _ =>
    refine ⟨fun r hr => (h.rows r hr).imp (hsame ?_), h.fresh⟩
    rw [unmarked_eq_none (.inr rfl), unmarked_eq_none (.inl hidle)]
  | restarted p hresult =>
    refine ⟨fun r hr => (h.rows r hr).imp (hsame ?_), h.fresh⟩
    rw [unmarked_eq_none (.inr rfl), unmarked_eq_none (.inr hresult)]
  | delivered p row rest result hdue hresult =>
    have hrow : row ∈ s.due p := hdue ▸ List.mem_cons_self
    have hunmarked : OutboundProcess.unmarked { s.processes p with result := some result } = some row.id := by
      unfold OutboundProcess.unmarked
      rw [show (s.processes p).due = row :: rest from hdue]
    constructor
    case rows =>
      intro r hr
      change Account (Tally.bump [row.id] s.deliveries r.id) (∃ q, _) r
      rw [unmarked_update, hunmarked]
      by_cases hid : r.id = row.id
      · obtain ⟨hpending, -, -⟩ := hhands.pending_of_id hstored hrow hr hid
        have hle := (h.rows r hr).marked hpending (hid ▸ hhands.not_unmarked hrow hresult)
        have hlast := (h.rows r hr).attempts hpending
        rw [hid, Tally.bump_self, ← hid]
        exact ⟨fun _ => hlast, fun _ => by omega, fun _ hnot => absurd (.inl rfl) hnot, by omega⟩
      · rw [Tally.bump_singleton_of_ne hid]
        refine (h.rows r hr).imp fun hu => .inr ?_
        rcases (unmarked_iff s p r.id).mp hu with hp | hq
        · rw [unmarked_eq_none (.inr hresult)] at hp
          cases hp
        · exact hq
    case fresh =>
      intro id hid
      obtain ⟨r, hr, hrid, -⟩ := hhands.held p row hrow
      change Tally.bump [row.id] s.deliveries id = 0
      rw [Tally.bump_singleton_of_ne fun heq => hid r hr (hrid.trans heq.symm)]
      exact h.fresh id hid
  | marked p row rest result sentAt hdue hresult =>
    have hrow : row ∈ s.due p := hdue ▸ List.mem_cons_self
    constructor
    case rows =>
      intro r' hr'
      obtain ⟨r, hr, rfl⟩ := mem_updateWhere.mp hr'
      by_cases hid : r.id = row.id
      · obtain ⟨hpending, hattempts, -⟩ := hhands.pending_of_id hstored hrow hr hid
        rw [if_pos (decide_eq_true hid)]
        change Account (s.deliveries (settleRow _ _ _ _ r).id) _ _
        rw [settleRow_id]
        have hle := (h.rows r hr).delivered hpending
        refine ⟨fun hp => ?_, fun hp => ?_, fun hp _ => ?_, (h.rows r hr).spent⟩
        all_goals
          obtain ⟨hlast, hnext⟩ := settleRow_pending hp
          rw [hnext]
          omega
      · rw [if_neg (by simpa using hid)]
        refine (h.rows r hr).imp fun hu => ?_
        change ∃ q, _
        rw [unmarked_update]
        rcases (unmarked_iff s p r.id).mp hu with hp | hq
        · unfold OutboundProcess.unmarked at hp
          rw [show (s.processes p).due = row :: rest from hdue, hresult] at hp
          exact absurd (Option.some.inj hp).symm hid
        · exact .inr hq
    case fresh =>
      intro id hid
      refine h.fresh id fun r hr heq => ?_
      refine hid _ (mem_updateWhere.mpr ⟨r, hr, rfl⟩) ?_
      split_ifs
      · rw [settleRow_id, heq]
      · exact heq

end OutboundQueue

end Xiaomaolv
