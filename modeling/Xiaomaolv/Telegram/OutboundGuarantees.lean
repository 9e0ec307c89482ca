import Xiaomaolv.Telegram.OutboundDrain

/-!
# What the queue guarantees

* `Delivered`: a row is marked as sent only after a delivery that succeeded.
* `Overtaken`: every delivery from a listing that left out a due row is one of a row at least as old.
* `settled_effect`: a row that is sent or dead stays as it is.
* `AtLeastOnce`: what is asked of a run; **`outbound_at_least_once`**: it holds in every undisputed run.
-/

namespace Xiaomaolv

open Table

namespace OutboundQueue

variable {s s' : OutboundQueue}

/-! ## Deliveries that succeeded -/

/-- A row that is sent, or about to be marked so, was delivered. -/
structure Delivered (s : OutboundQueue) : Prop where
  failed : ∀ id, s.failures id ≤ s.deliveries id
  accepted : ∀ p row rest, s.due p = row :: rest → (s.processes p).result = some (.ok ()) →
    s.failures row.id < s.deliveries row.id
  sent : ∀ r ∈ s.rows, r.status = .sent → s.failures r.id < s.deliveries r.id

theorem result_update (processes : Nat → OutboundProcess) (p : Nat) (process : OutboundProcess) (q : Nat) :
    (Function.update processes p process q).result = if q = p then process.result else (processes q).result := by
  rw [Function.update_apply]
  split_ifs <;> rfl

theorem delivered_effect (he : Effect s s') (hstored : Stored s) (hhands : Hands s) (h : Delivered s) :
    Delivered s' := by
  cases he with
  | unchanged => exact h
  | enqueued p second createdAt request _ _ =>
    refine ⟨h.failed, fun q row rest hdue hok => ?_, fun r hr hsent => ?_⟩
    · refine h.accepted q row rest ?_ ?_
      · simp only [due, due_update] at hdue
        split_ifs at hdue with hq
        · rw [hq]
          exact hdue
        · exact hdue
      · simp only [result_update] at hok
        split_ifs at hok with hq
        · rw [hq]
          exact hok
        · exact hok
    · rcases List.mem_append.mp hr with hr | hr
      · exact h.sent r hr hsent
      · rw [List.mem_singleton.mp hr] at hsent
        cases hsent
  | listed p now order _ _ _ =>
    refine ⟨h.failed, fun q row rest hdue hok => ?_, h.sent⟩
    simp only [due, due_update, result_update] at hdue hok
    split_ifs at hdue hok
    exact h.accepted q row rest hdue hok
  | restarted p _ =>
    refine ⟨h.failed, fun q row rest hdue hok => ?_, h.sent⟩
    simp only [due, due_update, result_update] at hdue hok
    split_ifs at hdue hok
    exact h.accepted q row rest hdue hok
  | delivered p row rest result hdue hresult =>
    have hkeys : (if result.isOk then [] else [row.id]) ⊆ [row.id] := by
      split_ifs
      · exact List.nil_subset _
      · exact List.Subset.refl _
    refine ⟨fun id => Tally.bump_le_bump hkeys (h.failed id), fun q row' rest' hdue' hok => ?_,
      fun r hr hsent => Tally.bump_lt_bump hkeys (h.sent r hr hsent)⟩
    simp only [due, due_update, result_update] at hdue' hok
    split_ifs at hdue' hok with hq
    · rw [show (s.processes p).due = row :: rest from hdue] at hdue'
      cases hdue'
      cases hok
      change Tally.bump [] s.failures row.id < Tally.bump [row.id] s.deliveries row.id
      rw [Tally.bump_nil, Tally.bump_self]
      exact Nat.lt_succ_of_le (h.failed row.id)
    · exact Tally.bump_lt_bump hkeys (h.accepted q row' rest' hdue' hok)
  | marked p row rest result sentAt hdue hresult =>
    refine ⟨h.failed, fun q row' rest' hdue' hok => ?_, fun r' hr' hsent => ?_⟩
    · simp only [due, due_update, result_update] at hdue' hok
      split_ifs at hdue' hok
      exact h.accepted q row' rest' hdue' hok
    · obtain ⟨r, hr, rfl⟩ := mem_updateWhere.mp hr'
      by_cases hid : r.id = row.id
      · obtain ⟨hpending, -, -⟩ :=
          hhands.pending_of_id hstored (hdue ▸ List.mem_cons_self : row ∈ s.due p) hr hid
        rw [if_pos (decide_eq_true hid)] at hsent ⊢
        have hok : result = .ok () := settleRow_sent hpending hsent
        rw [settleRow_id, hid]
        exact h.accepted p row rest hdue (by rw [hresult, hok])
      · rw [if_neg (by simpa using hid)] at hsent ⊢
        exact h.sent r hr hsent

/-! ## Rows that are left out -/

/-- The rows that are at least as old. -/
def rowsAsOld (s : OutboundQueue) (createdAt : Int) : List TelegramOutboundQueueRow :=
  s.rows.filter fun r => r.createdAt ≤ createdAt

/-- A row is overtaken by the deliveries of rows that are at least as old. -/
structure Overtaken (s : OutboundQueue) : Prop where
  fresh : ∀ id, (∀ r ∈ s.rows, r.id ≠ id) → s.overtaken id = 0
  leftOut : ∀ p, ∀ id ∈ (s.processes p).leftOut,
    ∃ r ∈ s.rows, r.id = id ∧ ∀ x ∈ s.due p, x.createdAt ≤ r.createdAt
  paid : ∀ r ∈ s.rows,
    s.overtaken r.id ≤ ((s.rowsAsOld r.createdAt).map fun x => s.deliveries x.id).sum

theorem leftOut_update (processes : Nat → OutboundProcess) (p : Nat) (process : OutboundProcess) (q : Nat) :
    (Function.update processes p process q).leftOut =
      if q = p then process.leftOut else (processes q).leftOut := by
  rw [Function.update_apply]
  split_ifs <;> rfl

theorem rowsAsOld_settle (rows : List TelegramOutboundQueueRow) (id : String) (now : Int) (attempts : Nat)
    (sentAt : Int) (result : Except String Unit) (createdAt : Int) {β : Type} (f : String → β) :
    (((updateWhere (fun r => r.id = id) (settleRow now attempts sentAt result) rows).filter
      fun r => r.createdAt ≤ createdAt).map fun r => f r.id) =
      (rows.filter fun r => r.createdAt ≤ createdAt).map fun r => f r.id := by
  rw [filter_updateWhere fun r _ => by rw [settleRow_createdAt], map_updateWhere fun r => by rw [settleRow_id]]

theorem overtaken_effect (he : Effect s s') (hstored : Stored s) (hhands : Hands s) (h : Overtaken s) :
    Overtaken s' := by
  cases he with
  | unchanged => exact h
  | enqueued p second createdAt request hfresh _ =>
    constructor
    case fresh => exact fun id hid => h.fresh id fun r hr => hid r (List.mem_append_left _ hr)
    case leftOut =>
      intro q id hid
      simp only [leftOut_update] at hid
      obtain ⟨r, hr, hrid, hold⟩ := h.leftOut q id (by split_ifs at hid with hq <;> simpa [hq] using hid)
      refine ⟨r, List.mem_append_left _ hr, hrid, fun x hx => hold x ?_⟩
      simp only [due, due_update] at hx
      split_ifs at hx with hq
      · rw [hq]
        exact hx
      · exact hx
    case paid =>
      intro r hr
      rcases List.mem_append.mp hr with hr | hr
      · refine (h.paid r hr).trans ?_
        change _ ≤ (((s.rows ++ _).filter _).map _).sum
        rw [List.filter_append, List.map_append, List.sum_append]
        exact Nat.le_add_right _ _
      · have hzero : s.overtaken (outboundId second (s.processes p).outSeq) = 0 := h.fresh _ hfresh
        rw [List.mem_singleton.mp hr]
        change s.overtaken (outboundId second (s.processes p).outSeq) ≤ _
        rw [hzero]
        exact Nat.zero_le _
  | listed p now order hidle horder _ =>
    refine ⟨h.fresh, fun q id hid => ?_, h.paid⟩
    simp only [leftOut_update] at hid
    simp only [due, due_update]
    split_ifs at hid ⊢
    · obtain ⟨r, hr, rfl⟩ := List.mem_map.mp hid
      have hrow : r ∈ s.rows :=
        (List.mem_filter.mp (horder.1.mem_iff.mp (List.mem_of_mem_drop hr))).1
      have hsplit := horder.2
      rw [← List.take_append_drop outboundBatch order, List.pairwise_append] at hsplit
      exact ⟨r, hrow, rfl, fun x hx => hsplit.2.2 x hx r hr⟩
    · exact h.leftOut q id hid
  | restarted p _ =>
    refine ⟨h.fresh, fun q id hid => ?_, h.paid⟩
    simp only [leftOut_update] at hid
    simp only [due, due_update]
    split_ifs at hid ⊢
    · cases hid
    · exact h.leftOut q id hid
  | delivered p row rest result hdue hresult =>
    constructor
    case fresh =>
      intro id hid
      change Tally.bump (s.processes p).leftOut s.overtaken id = 0
      rw [Tally.bump_of_not_mem]
      · exact h.fresh id hid
      · intro hleft
        obtain ⟨r, hr, hrid, -⟩ := h.leftOut p id hleft
        exact hid r hr hrid
    case leftOut =>
      intro q id hid
      simp only [leftOut_update] at hid
      simp only [due, due_update]
      split_ifs at hid ⊢ with hq
      · exact h.leftOut p id hid
      · exact h.leftOut q id hid
    case paid =>
      intro r hr
      have hpaid := h.paid r hr
      change Tally.bump (s.processes p).leftOut s.overtaken r.id ≤
        ((s.rowsAsOld r.createdAt).map fun x => Tally.bump [row.id] s.deliveries x.id).sum
      by_cases hleft : r.id ∈ (s.processes p).leftOut
      · -- The row that is delivered is one of those at least as old.
        obtain ⟨r', hr', hrid, hold⟩ := h.leftOut p r.id hleft
        have hrow : row ∈ s.due p := hdue ▸ List.mem_cons_self
        obtain ⟨r₀, hr₀, hid₀, -, -, hcreated⟩ := hhands.held p row hrow
        have hasOld : r₀ ∈ s.rowsAsOld r.createdAt := by
          refine List.mem_filter.mpr ⟨hr₀, decide_eq_true ?_⟩
          rw [hcreated, ← eq_of_key_eq hstored.ids hr' hr hrid]
          exact hold row hrow
        have hsum := Tally.sum_lt_sum_bump (fun x : TelegramOutboundQueueRow => x.id) s.deliveries hasOld
        rw [Tally.bump_of_mem hleft, ← hid₀]
        omega
      · rw [Tally.bump_of_not_mem hleft]
        exact hpaid.trans (Tally.sum_le_sum_bump _ _ [row.id])
  | marked p row rest result sentAt hdue hresult =>
    constructor
    case fresh =>
      intro id hid
      refine h.fresh id fun r hr heq => hid _ (mem_updateWhere.mpr ⟨r, hr, rfl⟩) ?_
      split_ifs
      · rw [settleRow_id, heq]
      · exact heq
    case leftOut =>
      intro q id hid
      simp only [leftOut_update] at hid
      obtain ⟨r, hr, hrid, hold⟩ := h.leftOut q id (by split_ifs at hid with hq <;> simpa [hq] using hid)
      refine ⟨_, mem_updateWhere.mpr ⟨r, hr, rfl⟩, ?_, fun x hx => ?_⟩
      · split_ifs
        · rw [settleRow_id, hrid]
        · exact hrid
      · have hmem : x ∈ s.due q := by
          simp only [due, due_update] at hx
          split_ifs at hx with hq
          · rw [hq, hdue]
            exact List.mem_cons_of_mem _ hx
          · exact hx
        have := hold x hmem
        split_ifs
        · rw [settleRow_createdAt]
          exact this
        · exact this
    case paid =>
      intro r' hr'
      obtain ⟨r, hr, rfl⟩ := mem_updateWhere.mp hr'
      have hfixed : ∀ b : Prop, [Decidable b] →
          (if b then settleRow (s.processes p).now row.attempts sentAt result r else r).id = r.id ∧
          (if b then settleRow (s.processes p).now row.attempts sentAt result r else r).createdAt =
            r.createdAt := by
        intro b _
        split_ifs
        · exact ⟨settleRow_id .., settleRow_createdAt ..⟩
        · exact ⟨rfl, rfl⟩
      rw [(hfixed _).1, (hfixed _).2]
      change s.overtaken r.id ≤ (((updateWhere _ _ s.rows).filter _).map fun x => s.deliveries x.id).sum
      rw [rowsAsOld_settle]
      exact h.paid r hr

/-! ## Rows that are settled -/

/-- **A row that is sent or dead** stays as it is. -/
theorem settled_effect (he : Effect s s') (hstored : Stored s) (hhands : Hands s)
    {r : TelegramOutboundQueueRow} (hr : r ∈ s.rows) (hsettled : r.status ≠ .pending) : r ∈ s'.rows := by
  cases he with
  | unchanged | listed | delivered | restarted => exact hr
  | enqueued => exact List.mem_append_left _ hr
  | marked p row rest result sentAt hdue _ =>
    refine mem_updateWhere.mpr ⟨r, hr, if_neg ?_⟩
    rw [decide_eq_true_eq]
    intro hid
    exact hsettled (hhands.pending_of_id hstored (hdue ▸ List.mem_cons_self : row ∈ s.due p) hr hid).1

/-- The clock has passed a row, and while the row is pending there are so many rows at least as old. -/
def Waits (s : OutboundQueue) (id : String) (createdAt : Int) (count : Nat) : Prop :=
  s.HasPassed createdAt ∧ ∃ r ∈ s.rows, r.id = id ∧ r.createdAt = createdAt ∧
    (r.status = .pending → (s.rowsAsOld createdAt).length = count)

/-- **A row that the clock has passed** gets no further rows ahead of it. -/
theorem waits_effect (he : Effect s s') (hstored : Stored s) (hhands : Hands s) {id : String}
    {createdAt : Int} {count : Nat} (h : Waits s id createdAt count) : Waits s' id createdAt count := by
  obtain ⟨⟨x, hx, hlt⟩, r, hr, hid, hcreated, hcount⟩ := h
  cases he with
  | unchanged | listed | delivered | restarted => exact ⟨⟨x, hx, hlt⟩, r, hr, hid, hcreated, hcount⟩
  | enqueued p second createdAt' request _ hclock =>
    refine ⟨⟨x, List.mem_append_left _ hx, hlt⟩, r, List.mem_append_left _ hr, hid, hcreated,
      fun hpending => ?_⟩
    have hnew : ¬ (newOutboundRow second (s.processes p).outSeq createdAt' request).createdAt ≤ createdAt :=
      not_le.mpr (hcreated ▸ hclock r hr hpending ⟨x, hx, hcreated ▸ hlt⟩)
    rw [← hcount hpending]
    change ((s.rows ++ _).filter _).length = _
    rw [List.filter_append, List.filter_singleton, decide_eq_false hnew]
    simp [rowsAsOld]
  | marked p row rest result sentAt hdue _ =>
    have hlength := congrArg List.length (rowsAsOld_settle s.rows row.id (s.processes p).now row.attempts
      sentAt result createdAt fun id => id)
    rw [List.length_map, List.length_map] at hlength
    refine ⟨⟨_, mem_updateWhere.mpr ⟨x, hx, rfl⟩, ?_⟩, _, mem_updateWhere.mpr ⟨r, hr, rfl⟩, ?_, ?_, ?_⟩
    · split_ifs
      · rw [settleRow_createdAt]
        exact hlt
      · exact hlt
    · split_ifs
      · rw [settleRow_id, hid]
      · exact hid
    · split_ifs
      · rw [settleRow_createdAt, hcreated]
      · exact hcreated
    · intro hpending
      refine hlength.trans (hcount ?_)
      split_ifs at hpending with hrow
      · have hrow : r.id = row.id := by simpa using hrow
        exact (hhands.pending_of_id hstored (hdue ▸ List.mem_cons_self : row ∈ s.due p) hr hrow).1
      · exact hpending

/-! ## Runs -/

/-- What holds of the queue in an undisputed run. -/
structure Kept (s : OutboundQueue) : Prop where
  stored : Stored s
  hands : Hands s
  accounts : Accounts s
  delivered : Delivered s
  overtaken : Overtaken s

theorem kept_exec {step : OutboundStep} (hstep : s.Undisputed step) (h : Kept s) : Kept (s.exec step) := by
  have he := effect_exec h.stored hstep
  exact ⟨stored_effect he h.stored, hands_effect he h.stored h.hands,
    accounts_effect he h.stored h.hands h.accounts, delivered_effect he h.stored h.hands h.delivered,
    overtaken_effect he h.stored h.hands h.overtaken⟩

theorem kept_empty : Kept {} := by
  have hdue : ∀ p, due {} p = [] := fun _ => rfl
  constructor
  case stored => constructor <;> simp
  case hands => constructor <;> simp [hdue]
  case accounts => constructor <;> simp
  case delivered => constructor <;> simp [hdue]
  case overtaken => constructor <;> simp

theorem kept_run {steps : List OutboundStep} (h : Machine.Along exec Undisputed {} steps) : Kept (run steps) :=
  Machine.run_invariant (fun _ _ => kept_exec) h kept_empty

theorem kept_onwards {P : OutboundQueue → Prop} {l m : List OutboundStep}
    (h : Machine.Along exec Undisputed {} (l ++ m))
    (hstep : ∀ s s', Effect s s' → Kept s → P s → P s') (hP : P (run l)) : P (run (l ++ m)) := by
  obtain ⟨hl, hm⟩ := Machine.along_append.mp h
  rw [run, Machine.run_append]
  exact (Machine.run_invariant (I := fun s => Kept s ∧ P s)
    (fun s step hundisputed hs => ⟨kept_exec hundisputed hs.1,
      hstep s _ (effect_exec hs.1.stored hundisputed) hs.1 hs.2⟩) hm ⟨kept_run hl, hP⟩).2

/-! ## What is asked of a run -/

theorem enqueued_exec (step : OutboundStep) : (s.exec step).enqueued = s.enqueued ++ step.request?.toList := by
  cases step with
  | enqueue => rfl
  | restart => exact (List.append_nil _).symm
  | listDue p now order =>
    simp only [exec, listDue, OutboundStep.request?, Option.toList_none, List.append_nil]
    split_ifs <;> rfl
  | deliver p result =>
    simp only [exec, deliver, OutboundStep.request?, Option.toList_none, List.append_nil]
    split <;> rfl
  | mark p sentAt stored =>
    simp only [exec, mark, OutboundStep.request?, Option.toList_none, List.append_nil]
    split <;> rfl

theorem enqueued_run (steps : List OutboundStep) : (run steps).enqueued = steps.filterMap OutboundStep.request? := by
  have hrun : ∀ s, (Machine.run exec s steps).enqueued = s.enqueued ++ steps.filterMap OutboundStep.request? := by
    induction steps with
    | nil => exact fun s => (List.append_nil _).symm
    | cons step steps ih =>
      intro s
      rw [Machine.run_cons, ih, enqueued_exec, List.append_assoc, List.filterMap_cons]
      cases step.request? <;> rfl
  exact hrun {}

/-- **At least once.** Every request has a row of its own. A row is sent only after a delivery that succeeded,
and stays sent, as a dead row stays dead. A row of which 49 deliveries failed is settled once this is marked. And
a due row is left out for at most 49 deliveries of each of the rows that are as old, which become no more while it
is pending once the clock has passed it. -/
structure AtLeastOnce (steps : List OutboundStep) : Prop where
  stored : (run steps).rows.map (fun r => r.request) = steps.filterMap OutboundStep.request?
  ids : ((run steps).rows.map fun r => r.id).Nodup
  sent : ∀ r ∈ (run steps).rows, r.status = .sent → (run steps).failures r.id < (run steps).deliveries r.id
  absorbing : ∀ l m, steps = l ++ m → ∀ r ∈ (run l).rows, r.status ≠ .pending → r ∈ (run steps).rows
  bounded : ∀ r ∈ (run steps).rows, (run steps).failures r.id ≤ 49 ∧
    (r.status = .pending → ¬ (run steps).Unmarked r.id → (run steps).failures r.id ≤ 48)
  served : ∀ r ∈ (run steps).rows,
    (run steps).overtaken r.id ≤ 49 * ((run steps).rowsAsOld r.createdAt).length
  passed : ∀ l m, steps = l ++ m → ∀ r ∈ (run l).rows, (run l).HasPassed r.createdAt →
    ∀ r' ∈ (run steps).rows, r'.id = r.id → r'.status = .pending →
      ((run steps).rowsAsOld r.createdAt).length = ((run l).rowsAsOld r.createdAt).length

/-- **The queue of undelivered messages** does what is asked of it in every undisputed run: no id is given twice,
no row is put before a pending one that the clock has passed, no row is listed while another process has it in
hand, and every delivery is marked. -/
theorem outbound_at_least_once (steps : List OutboundStep)
    (h : Machine.Along exec Undisputed {} steps) : AtLeastOnce steps := by
  have hkept := kept_run h
  have hfailed : ∀ r ∈ (run steps).rows, (run steps).failures r.id ≤ (run steps).deliveries r.id :=
    fun r _ => hkept.delivered.failed r.id
  constructor
  case stored => rw [hkept.stored.requests, enqueued_run]
  case ids => exact hkept.stored.ids
  case sent => exact hkept.delivered.sent
  case absorbing =>
    rintro l m rfl r hr hsettled
    exact kept_onwards (P := fun s => r ∈ s.rows) h
      (fun s s' he hs hr => settled_effect he hs.stored hs.hands hr hsettled) hr
  case bounded =>
    intro r hr
    have haccount := hkept.accounts.rows r hr
    refine ⟨(hfailed r hr).trans haccount.spent, fun hpending hmarked => ?_⟩
    exact (hfailed r hr).trans ((haccount.marked hpending hmarked).trans (haccount.attempts hpending))
  case served =>
    intro r hr
    refine (hkept.overtaken.paid r hr).trans (Tally.sum_le_mul fun x hx => ?_)
    exact (hkept.accounts.rows x (List.mem_of_mem_filter hx)).spent
  case passed =>
    rintro l m rfl r hr hpassed r' hr' hid hpending
    obtain ⟨-, r₀, hr₀, hid₀, -, hcount⟩ := kept_onwards
      (P := fun s => Waits s r.id r.createdAt ((run l).rowsAsOld r.createdAt).length) h
      (fun s s' he hs => waits_effect he hs.stored hs.hands) ⟨hpassed, r, hr, rfl, rfl, fun _ => rfl⟩
    rw [eq_of_key_eq hkept.stored.ids hr' hr₀ (hid.trans hid₀.symm)] at hpending
    exact hcount hpending

end OutboundQueue

/-! ## Runs in dispute -/

namespace Sample

open OutboundQueue

def outboundRequest : EnqueueTelegramOutboundRequest := queued "Done."

/-- The row of the request, enqueued at second 100. -/
def outboundRow : TelegramOutboundQueueRow := newOutboundRow 100 0 100 outboundRequest

/-- The row after some failed deliveries, the janitor's clock going on by an hour between them. -/
def retriedRow : Nat → TelegramOutboundQueueRow
  | 0 => outboundRow
  | i + 1 =>
    { outboundRow with
      attempts := i + 1, nextAttemptAt := 100 + 3600 * i + outboundBackoff i, lastError := some "timeout" }

/-- The message is enqueued, and its first delivery succeeds. -/
def deliveredAtOnce : List OutboundStep :=
  [.enqueue 0 100 100 outboundRequest, .listDue 0 100 [outboundRow], .deliver 0 (.ok ()), .mark 0 100 true]

/-- The process restarts between two requests of one second. -/
def restartedInSecond : List OutboundStep :=
  [.enqueue 0 100 100 outboundRequest, .restart 0, .enqueue 0 100 100 outboundRequest]

/-- After 48 failures two processes list the row: one delivers it. -/
def deliveredByOne : List OutboundStep :=
  .enqueue 0 100 100 outboundRequest ::
    ((List.range 48).flatMap fun (i : Nat) => [OutboundStep.listDue 0 (100 + 3600 * i) [retriedRow i],
      .deliver 0 (.error "timeout"), .mark 0 100 true]) ++
    [.listDue 0 172900 [retriedRow 48], .listDue 1 172900 [retriedRow 48],
      .deliver 0 (.ok ()), .deliver 1 (.error "timeout"), .mark 0 172900 true]

/-- A failure, and a restart of the process before it is marked. -/
def unmarkedFailure : List OutboundStep :=
  [.listDue 0 100 [outboundRow], .deliver 0 (.error "timeout"), .restart 0]

def restartedUnmarked (n : Nat) : List OutboundStep :=
  .enqueue 0 100 100 outboundRequest :: (List.replicate n unmarkedFailure).flatten

theorem unmarkedFailure_run {s : OutboundQueue} (hrows : s.rows = [outboundRow]) (hidle : s.due 0 = []) :
    (Machine.run OutboundQueue.exec s unmarkedFailure).rows = [outboundRow] ∧
    (Machine.run OutboundQueue.exec s unmarkedFailure).due 0 = [] ∧
    (Machine.run OutboundQueue.exec s unmarkedFailure).failures outboundRow.id = s.failures outboundRow.id + 1 := by
  have horder : IsOldestFirst [outboundRow] "telegram" 100 [outboundRow] := by decide +kernel
  have hlisted : s.exec (.listDue 0 100 [outboundRow]) = s.setProcess 0
      { s.processes 0 with now := 100, due := [outboundRow], leftOut := [], result := none } := by
    simp only [OutboundQueue.exec, listDue]
    rw [if_pos ⟨hidle, hrows ▸ horder⟩]
    rfl
  rw [unmarkedFailure, Machine.run_cons, hlisted, Machine.run_cons, Machine.run_cons, Machine.run_nil]
  simp only [OutboundQueue.exec, deliver, setProcess, Function.update_self]
  exact ⟨hrows, rfl, Tally.bump_self⟩

theorem restartedUnmarked_run (n : Nat) :
    (run (restartedUnmarked n)).rows = [outboundRow] ∧ (run (restartedUnmarked n)).due 0 = [] ∧
    (run (restartedUnmarked n)).failures outboundRow.id = n := by
  induction n with
  | zero => decide +kernel
  | succ n ih =>
    obtain ⟨hrows, hidle, hfailures⟩ := ih
    have hsplit : restartedUnmarked (n + 1) = restartedUnmarked n ++ unmarkedFailure := by
      rw [restartedUnmarked, List.replicate_succ', List.flatten_append, List.flatten_singleton]
      rfl
    rw [hsplit, run, Machine.run_append]
    obtain ⟨hrows', hidle', hfailures'⟩ := unmarkedFailure_run hrows hidle
    exact ⟨hrows', hidle', hfailures'.trans (by rw [hfailures])⟩

end Sample

open OutboundQueue in
/-- An undisputed run. -/
theorem outbound_at_least_once_delivered : AtLeastOnce Sample.deliveredAtOnce := by
  refine outbound_at_least_once Sample.deliveredAtOnce ?_
  simp only [Sample.deliveredAtOnce, Machine.along_cons, Machine.along_nil, and_true]
  refine ⟨?_, ?_, ?_, ?_⟩
  · exact ⟨List.forall_mem_nil _, List.forall_mem_nil _⟩
  · intro r _ q hq h hh
    simp only [due, OutboundQueue.exec, enqueue, setProcess, due_update, if_neg hq] at hh
    cases hh
  · exact trivial
  · exact fun _ => rfl

open OutboundQueue in
/-- **What is not guaranteed**: a second request of one second is lost after a restart; of two processes that
have a row in hand one marks it as dead after the other one has sent it; and a process that restarts before it
marks a failure goes on for ever. -/
theorem outbound_broken :
    ¬ AtLeastOnce Sample.restartedInSecond ∧
    ¬ AtLeastOnce (Sample.deliveredByOne ++ [.mark 1 172900 true]) ∧
    ∀ n, ∃ r ∈ (run (Sample.restartedUnmarked n)).rows,
      r.status = .pending ∧ (run (Sample.restartedUnmarked n)).failures r.id = n := by
  refine ⟨fun h => absurd h.stored (by decide +kernel), fun h => ?_, fun n => ?_⟩
  · have hsent : (run Sample.deliveredByOne).rows.map (fun r => r.status) = [.sent] := by decide +kernel
    have hdead : (run (Sample.deliveredByOne ++ [.mark 1 172900 true])).rows.map (fun r => r.status) = [.dead] := by
      decide +kernel
    obtain ⟨r, hrows, hr⟩ := List.map_eq_singleton_iff.mp hsent
    have hkept := h.absorbing Sample.deliveredByOne _ rfl r (hrows ▸ List.mem_cons_self) (by rw [hr]; exact nofun)
    have hstatus := List.mem_map_of_mem (f := fun r : TelegramOutboundQueueRow => r.status) hkept
    rw [hdead, List.mem_singleton, hr] at hstatus
    cases hstatus
  · obtain ⟨hrows, -, hfailures⟩ := Sample.restartedUnmarked_run n
    exact ⟨Sample.outboundRow, hrows ▸ List.mem_cons_self, rfl, hfailures⟩

end Xiaomaolv
