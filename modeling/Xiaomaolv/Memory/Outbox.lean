import Xiaomaolv.Lib.HeadOfLine
import Xiaomaolv.Lib.Ranking
import Xiaomaolv.Lib.Table
import Xiaomaolv.Loop.Data
import Mathlib.Data.List.Nodup

/-!
# The outbox of the memory sidecar

A chunk and the upsert that the sidecar still has to take are stored together. A reconcile pass lists the oldest
pending rows, up to a limit, deletes the rows that the sidecar takes, and counts one more attempt on the others.

* `Outbox`: the table, with one row for each chunk; `listSidecarOutbox`, `reconcileSidecarOutbox`: a pass.
* `pending`: the rows in the order of the listing, without their attempts.
* `reconcile_pending`: a pass serves the rows from the head of that order.
* **`outbox_progress_iff`**: a row that the sidecar would take is delivered at all exactly when fewer undeliverable
  rows than the limit are listed before it, and then within one pass more than there are rows before it.
-/

namespace Xiaomaolv

/-! ## The table -/

structure OutboxRow where
  chunkId : String
  docJson : String
  attempts : Int
  lastError : Option String
  createdAt : Int
deriving DecidableEq

/-- A row that could not be delivered once more. -/
def OutboxRow.bump (error : String) (row : OutboxRow) : OutboxRow :=
  { row with attempts := row.attempts + 1, lastError := some error }

/-- `memory_sidecar_outbox`, in row order. -/
structure Outbox where
  rows : List OutboxRow
  keys : (rows.map (·.chunkId)).Nodup

namespace Outbox

def deleteSidecarOutbox (o : Outbox) (chunkId : String) : Outbox where
  rows := o.rows.filter fun row => row.chunkId ≠ chunkId
  keys := o.keys.sublist (List.filter_sublist.map _)

def bumpSidecarOutboxAttempt (o : Outbox) (chunkId error : String) : Outbox where
  rows := Table.updateWhere (fun row => row.chunkId = chunkId) (OutboxRow.bump error) o.rows
  keys := by
    rw [Table.map_updateWhere (f := OutboxRow.bump error) (g := fun row => row.chunkId) fun _ => rfl]
    exact o.keys

/-- `ORDER BY created_at ASC`. -/
def Older (a b : OutboxRow) : Prop := a.createdAt ≤ b.createdAt

instance : DecidableRel Older := fun a b => inferInstanceAs (Decidable (a.createdAt ≤ b.createdAt))

/-- The limit is bound as an `i64`. -/
def listSidecarOutbox (o : Outbox) (limit : Nat) : Except String (List (String × String × Int)) :=
  if limit < 2 ^ 63 then
    .ok (((o.rows.insertionSort Older).take limit).map fun row => (row.chunkId, row.docJson, row.attempts))
  else .error "limit"

end Outbox

/-! ## A pass -/

/-- The two calls of a pass whose code is not the store's. -/
structure Sidecar (Doc : Type) where
  /-- `serde_json::from_str`. -/
  parse : String → Except String Doc
  /-- `ZvecSidecarClient::upsert`. -/
  upsert : Doc → Except String Unit

section Pass

variable {Doc : Type} (sidecar : Sidecar Doc)

/-- One turn of the loop over the listed rows, with the chunks that were counted as delivered. -/
def reconcileRow (st : Outbox × List String) (entry : String × String × Int) : Outbox × List String :=
  match sidecar.parse entry.2.1 with
  | .error err => (st.1.bumpSidecarOutboxAttempt entry.1 ("corrupt outbox doc: " ++ err), st.2)
  | .ok doc =>
    match sidecar.upsert doc with
    | .ok () => (st.1.deleteSidecarOutbox entry.1, st.2 ++ [entry.1])
    | .error err => (st.1.bumpSidecarOutboxAttempt entry.1 err, st.2)

def reconcileSidecarOutbox (limit : Nat) (o : Outbox) : Except String (Outbox × List String) :=
  match o.listSidecarOutbox limit with
  | .ok entries => .ok (entries.foldl (reconcileRow sidecar) (o, []))
  | .error err => .error err

/-- Passes of the reconciler one after another, which goes on after one that failed. -/
def reconcilePasses (limit : Nat) : Nat → Outbox → Outbox × List String
  | 0, o => (o, [])
  | passes + 1, o =>
    match reconcileSidecarOutbox sidecar limit o with
    | .ok (o', delivered) =>
      let rest := reconcilePasses limit passes o'
      (rest.1, delivered ++ rest.2)
    | .error _ => reconcilePasses limit passes o

/-- The sidecar would take the row. -/
def deliverable (row : OutboxRow) : Bool :=
  match sidecar.parse row.docJson with
  | .ok doc => (sidecar.upsert doc).isOk
  | .error _ => false

end Pass

/-! ## The order of the listing -/

/-- A row without its attempts. -/
def OutboxRow.core (row : OutboxRow) : OutboxRow := { row with attempts := 0, lastError := none }

namespace Outbox

/-- The pending rows in the order of the listing, without their attempts. -/
def pending (o : Outbox) : List OutboxRow := (o.rows.map OutboxRow.core).insertionSort Older

theorem older_total (a b : OutboxRow) : Older a b ∨ Older b a := Int.le_total _ _

theorem older_trans (a b c : OutboxRow) : Older a b → Older b c → Older a c := Int.le_trans

theorem map_core_sorted (o : Outbox) : (o.rows.insertionSort Older).map OutboxRow.core = o.pending :=
  List.map_insertionSort _ _ _ _ fun _ _ _ _ => Iff.rfl

theorem pending_perm (o : Outbox) : o.pending.Perm (o.rows.map OutboxRow.core) := List.perm_insertionSort _ _

theorem pending_keys (o : Outbox) : (o.pending.map (·.chunkId)).Nodup := by
  rw [(o.pending_perm.map _).nodup_iff, List.map_map]
  exact o.keys

theorem pending_delete (o : Outbox) (chunkId : String) :
    (o.deleteSidecarOutbox chunkId).pending = o.pending.filter fun row => row.chunkId ≠ chunkId := by
  rw [pending, pending, Ranking.filter_insertionSort older_total older_trans, List.filter_map]
  rfl

theorem pending_bump (o : Outbox) (chunkId error : String) :
    (o.bumpSidecarOutboxAttempt chunkId error).pending = o.pending := by
  have hcore := Table.map_updateWhere (p := fun row => decide (row.chunkId = chunkId))
    (f := OutboxRow.bump error) (g := OutboxRow.core) (fun _ => rfl) o.rows
  rw [pending, pending, ← hcore]
  rfl

end Outbox

/-! ## What a pass does to that order -/

section Progress

variable {Doc : Type} {sidecar : Sidecar Doc} {limit : Nat} {o : Outbox}

/-- The part of a row that the loop reads. -/
def OutboxRow.entry (row : OutboxRow) : String × String × Int := (row.chunkId, row.docJson, row.attempts)

variable (sidecar) in
theorem reconcileRow_pending (row : OutboxRow) (st : Outbox × List String) :
    (reconcileRow sidecar st row.entry).1.pending =
        st.1.pending.filter (fun x => !(deliverable sidecar row && x.chunkId = row.chunkId)) ∧
      (reconcileRow sidecar st row.entry).2 =
        st.2 ++ if deliverable sidecar row then [row.chunkId] else [] := by
  have hkeep : st.1.pending.filter (fun _ => true) = st.1.pending := List.filter_true _
  unfold reconcileRow deliverable
  dsimp only [OutboxRow.entry]
  rcases hparse : sidecar.parse row.docJson with err | doc
  · simp [Outbox.pending_bump]
  · rcases hupsert : sidecar.upsert doc with err | u
    · simp [Outbox.pending_bump, hupsert, Except.isOk, Except.toBool]
    · simp [Outbox.pending_delete, hupsert, Except.isOk, Except.toBool]

variable (sidecar) in
theorem reconcileRows_pending : ∀ (batch : List OutboxRow) (st : Outbox × List String),
    ((batch.map OutboxRow.entry).foldl (reconcileRow sidecar) st).1.pending =
        st.1.pending.filter (fun x => !(batch.any fun row => deliverable sidecar row && x.chunkId = row.chunkId)) ∧
      ((batch.map OutboxRow.entry).foldl (reconcileRow sidecar) st).2 =
        st.2 ++ (batch.filter (deliverable sidecar)).map (·.chunkId)
  | [], st => by simp
  | row :: batch, st => by
    obtain ⟨hpending, hcount⟩ := reconcileRow_pending sidecar row st
    obtain ⟨ihPending, ihCount⟩ := reconcileRows_pending batch (reconcileRow sidecar st row.entry)
    rw [List.map_cons, List.foldl_cons]
    constructor
    · rw [ihPending, hpending, List.filter_filter]
      refine List.filter_congr fun x _ => ?_
      rw [List.any_cons, Bool.not_or, Bool.and_comm]
    · rw [ihCount, hcount, List.append_assoc]
      by_cases hrow : deliverable sidecar row
      · simp [hrow]
      · simp [hrow]

theorem filter_batch {rows : List OutboxRow} (hkeys : (rows.map (·.chunkId)).Nodup) :
    rows.filter (fun x => !((rows.take limit).any fun row => deliverable sidecar row && x.chunkId = row.chunkId)) =
      HeadOfLine.serve (deliverable sidecar) limit rows := by
  have heq : ∀ x ∈ rows, ∀ row ∈ rows, x.chunkId = row.chunkId → row = x :=
    fun x hx row hrow hkey => Table.eq_of_key_eq hkeys hrow hx hkey.symm
  have hnodup : (rows.take limit ++ rows.drop limit).Nodup := by
    rw [List.take_append_drop]
    exact hkeys.of_map _
  conv_lhs => rw [← List.take_append_drop limit rows, List.filter_append]
  rw [List.take_append_drop, HeadOfLine.serve]
  congr 1
  · refine List.filter_congr fun x hx => ?_
    rw [Bool.not_inj_iff, Bool.eq_iff_iff, List.any_eq_true]
    constructor
    · rintro ⟨row, hrow, hgood⟩
      rw [Bool.and_eq_true, decide_eq_true_eq] at hgood
      exact heq x (List.mem_of_mem_take hx) row (List.mem_of_mem_take hrow) hgood.2 ▸ hgood.1
    · intro hgood
      exact ⟨x, hx, by simp [hgood]⟩
  · refine List.filter_eq_self.mpr fun x hx => ?_
    rw [Bool.not_eq_true', List.any_eq_false]
    intro row hrow hgood
    rw [Bool.and_eq_true, decide_eq_true_eq] at hgood
    have hsame := heq x (List.mem_of_mem_drop hx) row (List.mem_of_mem_take hrow) hgood.2
    exact (List.disjoint_of_nodup_append hnodup) (hsame ▸ hrow) hx

variable (sidecar o) in
theorem reconcile_pending (hlimit : limit < 2 ^ 63) :
    ∃ o' delivered, reconcileSidecarOutbox sidecar limit o = .ok (o', delivered) ∧
      o'.pending = HeadOfLine.serve (deliverable sidecar) limit o.pending ∧
      delivered = ((o.pending.take limit).filter (deliverable sidecar)).map (·.chunkId) := by
  obtain ⟨batch, hbatch⟩ : ∃ batch, batch = (o.rows.insertionSort Outbox.Older).take limit := ⟨_, rfl⟩
  have hlist : o.listSidecarOutbox limit = .ok (batch.map OutboxRow.entry) := by
    rw [Outbox.listSidecarOutbox, if_pos hlimit, hbatch]
    rfl
  have hcore : batch.map OutboxRow.core = o.pending.take limit := by
    rw [hbatch, List.map_take, Outbox.map_core_sorted]
  obtain ⟨hpending, hcount⟩ := reconcileRows_pending sidecar batch (o, [])
  refine ⟨_, _, ?_, hpending.trans ?_, hcount.trans ?_⟩
  · rw [reconcileSidecarOutbox, hlist]
  · rw [← filter_batch o.pending_keys, ← hcore]
    simp only [List.any_map]
    rfl
  · rw [List.nil_append, ← hcore, List.filter_map, List.map_map]
    rfl

/-! ## Passes one after another -/

/-- The rows that are listed before a row. -/
def Outbox.rowsAhead (o : Outbox) (row : OutboxRow) : List OutboxRow :=
  o.pending.takeWhile fun x => x.chunkId ≠ row.chunkId

/-- Some of the first passes delivers the row. -/
def DeliveredWithin (sidecar : Sidecar Doc) (limit passes : Nat) (o : Outbox) (row : OutboxRow) : Prop :=
  row.chunkId ∈ (reconcilePasses sidecar limit passes o).2

theorem pending_split {row : OutboxRow} (hrow : row ∈ o.rows) :
    ∃ after, o.pending = o.rowsAhead row ++ row.core :: after := by
  have hmem : row.core ∈ o.pending := o.pending_perm.mem_iff.mpr (List.mem_map_of_mem hrow)
  obtain ⟨before, after, hsplit⟩ := List.append_of_mem hmem
  have hkeys := o.pending_keys
  rw [hsplit, List.map_append, List.map_cons] at hkeys
  have hbefore : ∀ x ∈ before, decide (x.chunkId ≠ row.chunkId) = true := by
    intro x hx
    rw [decide_eq_true_eq]
    intro hkey
    exact List.disjoint_of_nodup_append hkeys (List.mem_map_of_mem hx) (hkey ▸ List.mem_cons_self)
  have hahead : o.rowsAhead row = before := by
    rw [Outbox.rowsAhead, hsplit, List.takeWhile_append_of_pos hbefore,
      List.takeWhile_cons_of_neg (by simp [OutboxRow.core]), List.append_nil]
  exact ⟨after, by rw [hahead, hsplit]⟩

/-- A row is delivered by the first pass whose batch reaches it. -/
theorem deliveredWithin_iff {row : OutboxRow} (hlimit : limit < 2 ^ 63) (hgood : deliverable sidecar row) :
    ∀ (passes : Nat) {o : Outbox} {before after : List OutboxRow}, o.pending = before ++ row.core :: after →
      (DeliveredWithin sidecar limit passes o row ↔
        ∃ k < passes, ((HeadOfLine.serve (deliverable sidecar) limit)^[k] before).length < limit)
  | 0, _, _, _, _ => by simp [DeliveredWithin, reconcilePasses]
  | passes + 1, o, before, after, hsplit => by
    obtain ⟨o', delivered, hpass, hpending, hdelivered⟩ := reconcile_pending sidecar o hlimit
    have hnow : row.chunkId ∈ delivered ↔ before.length < limit := by
      rw [hdelivered, hsplit, List.mem_map]
      constructor
      · rintro ⟨x, hx, hkey⟩
        by_contra hfar
        have hbefore : x ∈ before := by
          have htake := List.mem_of_mem_filter hx
          rw [List.take_append_of_le_length (by omega)] at htake
          exact List.mem_of_mem_take htake
        have hkeys := o.pending_keys
        rw [hsplit, List.map_append, List.map_cons] at hkeys
        exact List.disjoint_of_nodup_append hkeys (List.mem_map_of_mem hbefore)
          (hkey ▸ List.mem_cons_self)
      · intro hnear
        refine ⟨row.core, List.mem_filter.mpr ⟨?_, hgood⟩, rfl⟩
        rw [List.mem_take_iff_getElem]
        exact ⟨before.length, by simp; omega, by simp⟩
    have hstep : DeliveredWithin sidecar limit (passes + 1) o row ↔
        row.chunkId ∈ delivered ∨ DeliveredWithin sidecar limit passes o' row := by
      rw [DeliveredWithin, reconcilePasses, hpass]
      exact List.mem_append
    rw [hstep, hnow]
    by_cases hnear : before.length < limit
    · exact iff_of_true (Or.inl hnear) ⟨0, Nat.succ_pos _, hnear⟩
    · rw [hsplit, HeadOfLine.serve_append (by omega)] at hpending
      rw [deliveredWithin_iff hlimit hgood passes hpending]
      constructor
      · rintro (h | ⟨k, hk, hreach⟩)
        · exact absurd h hnear
        · exact ⟨k + 1, by omega, hreach⟩
      · rintro ⟨k, hk, hreach⟩
        cases k with
        | zero => exact absurd hreach hnear
        | succ k => exact Or.inr ⟨k, by omega, hreach⟩

theorem not_deliveredWithin {row : OutboxRow} (hlimit : ¬ limit < 2 ^ 63) (passes : Nat) :
    ¬ DeliveredWithin sidecar limit passes o row := by
  have hfail : reconcileSidecarOutbox sidecar limit o = .error "limit" := by
    rw [reconcileSidecarOutbox, Outbox.listSidecarOutbox, if_neg hlimit]
  have hnone : (reconcilePasses sidecar limit passes o).2 = [] := by
    induction passes with
    | zero => rfl
    | succ passes ih =>
      rw [reconcilePasses, hfail]
      exact ih
  rw [DeliveredWithin, hnone]
  exact List.not_mem_nil

/-- **A pending row that the sidecar would take is delivered** exactly when fewer undeliverable rows than the limit
are listed before it, and then within one pass more than there are rows before it. -/
theorem outbox_progress_iff {row : OutboxRow} (hrow : row ∈ o.rows) (hgood : deliverable sidecar row) :
    (DeliveredWithin sidecar limit ((o.rowsAhead row).length + 1) o row ↔
        limit < 2 ^ 63 ∧ (o.rowsAhead row).countP (fun x => !deliverable sidecar x) < limit) ∧
      ((∃ passes, DeliveredWithin sidecar limit passes o row) ↔
        limit < 2 ^ 63 ∧ (o.rowsAhead row).countP (fun x => !deliverable sidecar x) < limit) := by
  by_cases hlimit : limit < 2 ^ 63
  · obtain ⟨after, hsplit⟩ := pending_split hrow
    have hwithin := fun passes => deliveredWithin_iff hlimit hgood passes hsplit
    have hsome : (o.rowsAhead row).countP (fun x => !deliverable sidecar x) < limit →
        DeliveredWithin sidecar limit ((o.rowsAhead row).length + 1) o row := by
      intro hstuck
      obtain ⟨k, hk, hreach⟩ :=
        @HeadOfLine.reached_of_stuck_lt _ (deliverable sidecar) limit (o.rowsAhead row) hstuck
      exact (hwithin _).mpr ⟨k, by omega, hreach⟩
    have hnever : ∀ passes, DeliveredWithin sidecar limit passes o row →
        (o.rowsAhead row).countP (fun x => !deliverable sidecar x) < limit := by
      intro passes hdelivered
      obtain ⟨k, -, hreach⟩ := (hwithin passes).mp hdelivered
      by_contra hstuck
      have hlong := @HeadOfLine.not_reached_of_le_stuck _ (deliverable sidecar) limit (o.rowsAhead row)
        (Nat.le_of_not_lt hstuck) k
      omega
    refine ⟨⟨fun h => ⟨hlimit, hnever _ h⟩, fun h => hsome h.2⟩, ⟨?_, fun h => ⟨_, hsome h.2⟩⟩⟩
    rintro ⟨passes, h⟩
    exact ⟨hlimit, hnever passes h⟩
  · refine ⟨iff_of_false (not_deliveredWithin hlimit _) fun h => hlimit h.1, iff_of_false ?_ fun h => hlimit h.1⟩
    rintro ⟨passes, h⟩
    exact not_deliveredWithin hlimit passes h

end Progress

/-! ## A table with corrupt rows -/

namespace Sample

/-- A sidecar that takes every document that parses. -/
def openSidecar : Sidecar String where
  parse text := if startsWith text "\x7b" then .ok text else .error "expected value at line 1 column 1"
  upsert _ := .ok ()

def outboxRow (chunkId docJson : String) (createdAt : Int) : OutboxRow := ⟨chunkId, docJson, 0, none, createdAt⟩

/-- A row that the sidecar would take behind `n` corrupt ones. -/
def blockedOutbox (n : Nat) : List OutboxRow :=
  (List.range n).map (fun i => outboxRow ("c" ++ toString i) "corrupt" i) ++ [outboxRow "good" "\x7b\x7d" n]

def fullOutbox : Outbox := ⟨blockedOutbox 32, by decide +kernel⟩

def nearlyFullOutbox : Outbox := ⟨blockedOutbox 31, by decide +kernel⟩

/-- A row behind one corrupt row less than the limit is delivered. -/
theorem outbox_progress_nearly_full :
    DeliveredWithin openSidecar 32 32 nearlyFullOutbox (outboxRow "good" "\x7b\x7d" 31) :=
  (@outbox_progress_iff _ openSidecar 32 nearlyFullOutbox (outboxRow "good" "\x7b\x7d" 31)
    (by decide +kernel) (by decide +kernel)).1.mpr
    ⟨by decide, by decide +kernel⟩

/-- A row behind as many corrupt rows as the limit is never delivered. -/
theorem outbox_blocked : outboxRow "good" "\x7b\x7d" 32 ∈ fullOutbox.rows ∧
    deliverable openSidecar (outboxRow "good" "\x7b\x7d" 32) = true ∧
    ∀ passes, ¬ DeliveredWithin openSidecar 32 passes fullOutbox (outboxRow "good" "\x7b\x7d" 32) := by
  have hrow : outboxRow "good" "\x7b\x7d" 32 ∈ fullOutbox.rows := by decide +kernel
  have hgood : deliverable openSidecar (outboxRow "good" "\x7b\x7d" 32) = true := by decide +kernel
  refine ⟨hrow, hgood, fun passes h => ?_⟩
  obtain ⟨after, hsplit⟩ := pending_split hrow
  obtain ⟨k, -, hreach⟩ := (deliveredWithin_iff (by decide) hgood passes hsplit).mp h
  have hlong := @HeadOfLine.not_reached_of_le_stuck _ (deliverable openSidecar) 32
    (fullOutbox.rowsAhead (outboxRow "good" "\x7b\x7d" 32)) (by decide +kernel) k
  omega

end Sample

end Xiaomaolv
