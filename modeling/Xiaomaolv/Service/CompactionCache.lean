import Xiaomaolv.Lib.Framed
import Xiaomaolv.Lib.Memo
import Xiaomaolv.Service.Compactor

/-!
# The cache of compaction summaries

A summary is stored under the session, the strategy and a digest of the history and its metadata. A later
compaction that finds one puts it in the place of what it drops, and what it drops depends on the clock and on the
number of recent messages that are kept as well.

* `buildCompactionSourceKey`: the key; `sourceText_inj`: what the digest is taken of determines the strategy, the
  history and the metadata.
* `applyCompaction`: a compaction with the cache; `compactionRows`: the stored summaries after some of them.
* `CompactionCall.retained`: how many messages are kept at the end of the history.
* **`reused_summary_covers_iff`**: a reused summary was generated from exactly the messages that are dropped now
  if and only if the compaction that stored it kept as many messages at the end.
* **`reused_summary_misses`**: a second later a message goes that no summary is about.
-/

namespace Xiaomaolv

/-! ## The key of a summary -/

structure StoredMessageRecord where
  id : Int
  message : StoredMessage
  createdAt : Int
  deriving DecidableEq, Repr

/-- The record of each message, where there is one: the first that no earlier message has taken. -/
def alignCompactionMetadata : List StoredMessage → List StoredMessageRecord → List CompactionMessageMetadata
  | [], _ => []
  | message :: history, recentRecords =>
    match recentRecords.find? fun record => record.message = message with
    | none => {} :: alignCompactionMetadata history recentRecords
    | some record => ⟨some record.id, some record.createdAt⟩ ::
        alignCompactionMetadata history (recentRecords.eraseP fun record => record.message = message)

theorem length_alignCompactionMetadata (history : List StoredMessage) (recentRecords : List StoredMessageRecord) :
    (alignCompactionMetadata history recentRecords).length = history.length := by
  induction history generalizing recentRecords with
  | nil => rfl
  | cons message history ih =>
    rw [alignCompactionMetadata]
    split <;> rw [List.length_cons, List.length_cons, ih]

def compactionStrategyName : CompactionStrategy → String
  | .headTail headCount tailCount => "head_tail:" ++ toString headCount ++ ":" ++ toString tailCount
  | .ageBased maxAgeDays => "age_based:" ++ toString maxAgeDays
  | .budgetBased maxTokens => "budget_based:" ++ toString maxTokens

/-- The bytes given to the hasher so far, and those of one more value. -/
def updateCompactionSourceHash (hasher : List UInt8) (label value : String) : List UInt8 :=
  hasher ++ Utf8.encode label.toList ++ [0] ++ Utf8.encode (toString (Utf8.encode value.toList).length).toList ++
    [0] ++ Utf8.encode value.toList ++ [0]

/-- What the digest is taken of. -/
def sourceText (history : List StoredMessage) (strategy : CompactionStrategy)
    (metadata : List CompactionMessageMetadata) : List UInt8 :=
  let hasher := updateCompactionSourceHash [] "strategy" (compactionStrategyName strategy)
  let hasher := updateCompactionSourceHash hasher "history_len" (toString history.length)
  let hasher := history.foldl (fun hasher message =>
    let hasher := updateCompactionSourceHash hasher "message.role" message.role.asStr
    updateCompactionSourceHash hasher "message.content" message.content) hasher
  metadata.foldl (fun hasher entry =>
    let hasher := updateCompactionSourceHash hasher "metadata.source_id" ((entry.sourceId.map toString).getD "")
    updateCompactionSourceHash hasher "metadata.created_at" ((entry.createdAt.map toString).getD "")) hasher

structure CompactionSourceKey where
  strategy : String
  sourceHash : String
  sourceMessageIds : List Int
  sourceFirstMessageId : Option Int
  sourceLastMessageId : Option Int
  sourceMessageCount : Nat
  deriving DecidableEq, Repr

/-- `sha256Hex` is the digest of some bytes, in hexadecimal digits. -/
def buildCompactionSourceKey (sha256Hex : List UInt8 → String) (history : List StoredMessage)
    (strategy : CompactionStrategy) (metadata : List CompactionMessageMetadata) : CompactionSourceKey :=
  let sourceMessageIds := metadata.filterMap CompactionMessageMetadata.sourceId
  { strategy := compactionStrategyName strategy
    sourceHash := sha256Hex (sourceText history strategy metadata)
    sourceMessageIds := sourceMessageIds
    sourceFirstMessageId := sourceMessageIds.head?
    sourceLastMessageId := sourceMessageIds.getLast?
    sourceMessageCount := history.length }

/-! ## The stored summaries -/

/-- A row of `compaction_summaries`. -/
structure CompactionSummaryRow where
  sessionId : String
  strategy : String
  sourceHash : String
  sourceMessageIds : List Int
  sourceFirstMessageId : Option Int
  sourceLastMessageId : Option Int
  sourceMessageCount : Nat
  summary : String
  tokensSaved : Nat
  invalidatedAt : Option Int
  deriving DecidableEq, Repr

/-- No two rows share these. -/
def CompactionSummaryRow.key (row : CompactionSummaryRow) : String × String × String :=
  (row.sessionId, row.strategy, row.sourceHash)

def loadCompactionSummary (rows : List CompactionSummaryRow) (key : String × String × String) :
    Option CompactionSummaryRow :=
  rows.find? fun row => row.key = key ∧ row.invalidatedAt.isNone

def upsertCompactionSummary (row : CompactionSummaryRow) (rows : List CompactionSummaryRow) :
    List CompactionSummaryRow :=
  Memo.upsert CompactionSummaryRow.key row rows

/-! ## Compaction with the cache -/

structure AgentCompactionSettings where
  enabled : Bool
  strategy : CompactionStrategy
  messageCountThreshold : Nat
  deriving DecidableEq, Repr

/-- A call of `apply_compaction`: its arguments, the settings of the service, and what the memory, the clock and
the provider answer. -/
structure CompactionCall where
  agentCompaction : AgentCompactionSettings
  compactor : Option Compactor
  contextMinRecentMessages : Nat
  sessionId : String
  history : List StoredMessage
  /-- What `load_recent_records` answers. -/
  recentRecords : Except String (List StoredMessageRecord)
  /-- Does the memory answer the query for a summary? -/
  loads : Bool
  /-- Does the memory store a summary? -/
  upserts : Bool
  nowUnix : Int
  provider : Compactor.Model

namespace CompactionCall

section Parts

variable (sha256Hex : List UInt8 → String) (call : CompactionCall)

/-- The metadata of the history; none are known where the records cannot be loaded. -/
def metadata : List CompactionMessageMetadata :=
  match call.recentRecords with
  | .ok recentRecords => alignCompactionMetadata call.history recentRecords
  | .error _ => List.replicate call.history.length {}

def sourceKey : CompactionSourceKey :=
  buildCompactionSourceKey sha256Hex call.history call.agentCompaction.strategy call.metadata

def request : CompactionRequest where
  messages := call.history
  strategy := call.agentCompaction.strategy
  metadata := call.metadata
  nowUnix := some call.nowUnix
  minRecentMessages := call.contextMinRecentMessages

/-- The key that the call looks for and stores under. -/
def key : String × String × String :=
  (call.sessionId, (call.sourceKey sha256Hex).strategy, (call.sourceKey sha256Hex).sourceHash)

/-- The summary that the memory answers. -/
def cached (rows : List CompactionSummaryRow) : Option CompactionSummaryRow :=
  if call.loads then loadCompactionSummary rows (call.key sha256Hex) else none

/-- The row of a summary. -/
def rowOf (result : CompactionResult) : CompactionSummaryRow :=
  let sourceKey := call.sourceKey sha256Hex
  { sessionId := call.sessionId
    strategy := sourceKey.strategy
    sourceHash := sourceKey.sourceHash
    sourceMessageIds := sourceKey.sourceMessageIds
    sourceFirstMessageId := sourceKey.sourceFirstMessageId
    sourceLastMessageId := sourceKey.sourceLastMessageId
    sourceMessageCount := sourceKey.sourceMessageCount
    summary := result.summary
    tokensSaved := result.tokensSaved
    invalidatedAt := none }

end Parts

end CompactionCall

/-- What a compaction returns, and the stored summaries after it. -/
def applyCompaction (sha256Hex : List UInt8 → String) (call : CompactionCall)
    (rows : List CompactionSummaryRow) : Except Failure (List StoredMessage) × List CompactionSummaryRow :=
  if !call.agentCompaction.enabled then (.ok call.history, rows)
  else if call.history.length < call.agentCompaction.messageCountThreshold then (.ok call.history, rows)
  else
    match call.compactor with
    | none => (.ok call.history, rows)
    | some compactor =>
      match call.cached sha256Hex rows with
      | some cached =>
        ((compactor.compactWithSummary call.nowUnix call.request cached.summary).map
          CompactionResult.compactedMessages, rows)
      | none =>
        match compactor.compact call.nowUnix call.request call.provider with
        | .error e => (.error e, rows)
        | .ok result =>
          (.ok result.compactedMessages,
            if !isBlank result.summary && decide (0 < result.tokensSaved) && call.upserts then
              upsertCompactionSummary (call.rowOf sha256Hex result) rows
            else rows)

/-- The stored summaries after some calls, the latest first. -/
def compactionRows (sha256Hex : List UInt8 → String) : List CompactionCall → List CompactionSummaryRow
  | [] => []
  | call :: earlier => (applyCompaction sha256Hex call (compactionRows sha256Hex earlier)).2

/-! ## What the digest is taken of -/

section Source

open Framed

theorem updateCompactionSourceHash_eq (hasher : List UInt8) (label value : String) :
    updateCompactionSourceHash hasher label value = hasher ++ record label value := by
  simp only [updateCompactionSourceHash, record, List.append_assoc]

/-- The records of a message. -/
def messageFields (message : StoredMessage) : List (String × String) :=
  [("message.role", message.role.asStr), ("message.content", message.content)]

/-- The records of a metadata entry. -/
def metadataFields (entry : CompactionMessageMetadata) : List (String × String) :=
  [("metadata.source_id", (entry.sourceId.map toString).getD ""),
    ("metadata.created_at", (entry.createdAt.map toString).getD "")]

theorem foldl_append_records {α : Type} (fields : α → List (String × String))
    {step : List UInt8 → α → List UInt8} (hstep : ∀ hasher a, step hasher a = hasher ++ records (fields a)) (l : List α) (hasher : List UInt8) :
    l.foldl step hasher = hasher ++ records (l.flatMap fields) := by
  induction l generalizing hasher with
  | nil => rw [List.foldl_nil, List.flatMap_nil, records, List.append_nil]
  | cons a l ih =>
    rw [List.foldl_cons, ih, hstep, List.flatMap_cons, records_append, List.append_assoc]

theorem sourceText_eq (history : List StoredMessage) (strategy : CompactionStrategy)
    (metadata : List CompactionMessageMetadata) : sourceText history strategy metadata =
      records [("strategy", compactionStrategyName strategy), ("history_len", toString history.length)] ++
        (records (history.flatMap messageFields) ++ records (metadata.flatMap metadataFields)) := by
  rw [sourceText, foldl_append_records metadataFields _, foldl_append_records messageFields _]
  · simp only [updateCompactionSourceHash_eq, records, List.nil_append, List.append_nil, List.append_assoc]
  · intro hasher message
    simp only [updateCompactionSourceHash_eq, messageFields, records, List.append_nil, List.append_assoc]
  · intro hasher entry
    simp only [updateCompactionSourceHash_eq, metadataFields, records, List.append_nil, List.append_assoc]

theorem map_fst_flatMap {α : Type} {fields : α → List (String × String)} {labels : List String}
    (hlabels : ∀ a, (fields a).map Prod.fst = labels) (l : List α) :
    (l.flatMap fields).map Prod.fst = (List.replicate l.length labels).flatten := by
  induction l with
  | nil => rfl
  | cons a l ih =>
    rw [List.flatMap_cons, List.map_append, hlabels, ih, List.length_cons, List.replicate_succ, List.flatten_cons]

theorem flatMap_fields_inj {α : Type} {fields : α → List (String × String)} {n : Nat}
    (hlen : ∀ a, (fields a).length = n) (hinj : ∀ a b, fields a = fields b → a = b) {l l' : List α}
    (hsame : l.length = l'.length) (h : l.flatMap fields = l'.flatMap fields) : l = l' := by
  induction l generalizing l' with
  | nil => exact (List.length_eq_zero_iff.mp hsame.symm).symm
  | cons a l ih =>
    cases l' with
    | nil => cases hsame
    | cons b l' =>
      rw [List.flatMap_cons, List.flatMap_cons] at h
      obtain ⟨hfirst, hrest⟩ := List.append_inj h ((hlen a).trans (hlen b).symm)
      rw [hinj a b hfirst, ih (by simpa using hsame) hrest]

theorem messageFields_labels (message : StoredMessage) :
    (messageFields message).map Prod.fst = ["message.role", "message.content"] := rfl

theorem metadataFields_labels (entry : CompactionMessageMetadata) :
    (metadataFields entry).map Prod.fst = ["metadata.source_id", "metadata.created_at"] := rfl

theorem messageFields_inj (a b : StoredMessage) (h : messageFields a = messageFields b) : a = b := by
  obtain ⟨role, content⟩ := a
  obtain ⟨role', content'⟩ := b
  simp only [messageFields, List.cons.injEq, Prod.mk.injEq, true_and, and_true] at h
  obtain ⟨hrole, rfl⟩ := h
  have : role = role' := by
    revert hrole
    cases role <;> cases role' <;> decide
  rw [this]

theorem optionText_inj {a b : Option Int} (h : (a.map toString).getD "" = (b.map toString).getD "") : a = b := by
  cases a with
  | none =>
    cases b with
    | none => rfl
    | some n => exact absurd h.symm (Decimal.toString_ne_empty n)
  | some m =>
    cases b with
    | none => exact absurd h (Decimal.toString_ne_empty m)
    | some n => exact congrArg some (Decimal.toString_inj h)

theorem metadataFields_inj (a b : CompactionMessageMetadata) (h : metadataFields a = metadataFields b) : a = b := by
  obtain ⟨sourceId, createdAt⟩ := a
  obtain ⟨sourceId', createdAt'⟩ := b
  simp only [metadataFields, List.cons.injEq, Prod.mk.injEq, true_and, and_true] at h
  rw [optionText_inj h.1, optionText_inj h.2]

theorem compactionStrategyName_inj {a b : CompactionStrategy}
    (h : compactionStrategyName a = compactionStrategyName b) : a = b := by
  have hlist := congrArg String.toList h
  cases a with
  | headTail m n =>
    cases b with
    | headTail m' n' =>
      simp only [compactionStrategyName, String.toList_append, List.append_assoc] at hlist
      have hcounts := List.append_cancel_left hlist
      obtain ⟨hm, hn⟩ := append_cons_inj (Decimal.not_mem_repr (c := ':') (by decide) m)
        (Decimal.not_mem_repr (by decide) m') hcounts
      rw [Decimal.repr_inj (String.toList_inj.mp hm), Decimal.repr_inj (String.toList_inj.mp hn)]
    | ageBased d => simp [compactionStrategyName] at hlist
    | budgetBased t => simp [compactionStrategyName] at hlist
  | ageBased d =>
    cases b with
    | headTail m n => simp [compactionStrategyName] at hlist
    | ageBased d' =>
      simp only [compactionStrategyName, String.toList_append] at hlist
      rw [Decimal.repr_inj (String.toList_inj.mp (List.append_cancel_left hlist))]
    | budgetBased t => simp [compactionStrategyName] at hlist
  | budgetBased t =>
    cases b with
    | headTail m n => simp [compactionStrategyName] at hlist
    | ageBased d => simp [compactionStrategyName] at hlist
    | budgetBased t' =>
      simp only [compactionStrategyName, String.toList_append] at hlist
      rw [Decimal.repr_inj (String.toList_inj.mp (List.append_cancel_left hlist))]

theorem sourceText_inj {history history' : List StoredMessage} {strategy strategy' : CompactionStrategy}
    {metadata metadata' : List CompactionMessageMetadata} (hlen : metadata.length = history.length)
    (hlen' : metadata'.length = history'.length)
    (h : sourceText history strategy metadata = sourceText history' strategy' metadata') :
    strategy = strategy' ∧ history = history' ∧ metadata = metadata' := by
  rw [sourceText_eq, sourceText_eq] at h
  obtain ⟨hfields, hrest⟩ := records_append_inj (by rfl) h
  simp only [List.cons.injEq, Prod.mk.injEq, true_and, and_true] at hfields
  have hcount : history.length = history'.length := Decimal.repr_inj hfields.2
  have hmeta : metadata.length = metadata'.length := by rw [hlen, hlen', hcount]
  have hlabels : (history.flatMap messageFields).map Prod.fst = (history'.flatMap messageFields).map Prod.fst := by
    rw [map_fst_flatMap messageFields_labels, map_fst_flatMap messageFields_labels, hcount]
  obtain ⟨hmessages, hentries⟩ := records_append_inj hlabels hrest
  have hlabels' : (metadata.flatMap metadataFields).map Prod.fst =
      (metadata'.flatMap metadataFields).map Prod.fst := by
    rw [map_fst_flatMap metadataFields_labels, map_fst_flatMap metadataFields_labels, hmeta]
  rw [← List.append_nil (records _), ← List.append_nil (records (metadata'.flatMap _))] at hentries
  have hfields' := (records_append_inj hlabels' hentries).1
  exact ⟨compactionStrategyName_inj hfields.1,
    flatMap_fields_inj (n := 2) (fun _ => rfl) messageFields_inj hcount hmessages,
    flatMap_fields_inj (n := 2) (fun _ => rfl) metadataFields_inj hmeta hfields'⟩

end Source

/-! ## Reuse -/

namespace CompactionCall

section Calls

variable (sha256Hex : List UInt8 → String) (call : CompactionCall)

/-- The compactor of the call, where the history is to be compacted. -/
def activeCompactor : Option Compactor :=
  if call.agentCompaction.enabled = true ∧ call.agentCompaction.messageCountThreshold ≤ call.history.length then
    call.compactor
  else none

/-- What the call drops from the history. -/
def dropped : List StoredMessage :=
  match call.activeCompactor with
  | some compactor => compactor.dropped call.nowUnix call.request
  | none => []

/-- How many messages at the front are older than the strategy allows. -/
def oldCount (maxAgeDays : Nat) : Nat :=
  (call.metadata.takeWhile fun entry => entry.createdAt.any fun createdAt =>
    decide (createdAt < Compactor.clampI64 (call.nowUnix -
      Compactor.clampI64 (Compactor.asI64 maxAgeDays * 86400)))).length

/-- How many messages the call keeps at the end of the history. -/
def retained : Nat :=
  let recent := call.contextMinRecentMessages
  match call.agentCompaction.strategy with
  | .headTail _ tailCount => max tailCount recent
  | .ageBased maxAgeDays =>
    call.history.length - min (call.oldCount maxAgeDays) (call.history.length - max 6 recent)
  | .budgetBased _ => min (call.history.length - 1) (max 6 recent)

/-- The row that the call stores, where it finds none. -/
def stores : Option CompactionSummaryRow :=
  match call.activeCompactor with
  | none => none
  | some compactor =>
    match compactor.compact call.nowUnix call.request call.provider with
    | .error _ => none
    | .ok result =>
      if !isBlank result.summary && decide (0 < result.tokensSaved) && call.upserts then
        some (call.rowOf sha256Hex result)
      else none

/-- The calls as requests for the rows. -/
def memo : Memo CompactionCall (String × String × String) CompactionSummaryRow where
  key := CompactionCall.key sha256Hex
  keyOf := CompactionSummaryRow.key
  looks call := call.activeCompactor.isSome && call.loads
  makes := CompactionCall.stores sha256Hex
  keyOf_makes call row h := by
    unfold stores at h
    split at h
    · cases h
    · split at h
      · cases h
      · split_ifs at h
        obtain rfl := Option.some.inj h
        rfl

/-- The call puts a stored summary in the place of what it drops. -/
structure Reuses (rows : List CompactionSummaryRow) (row : CompactionSummaryRow) : Prop where
  cached : call.cached sha256Hex rows = some row
  drops : call.dropped ≠ []

/-- The summary of the row is what the provider said about what the call drops. -/
def Generated (row : CompactionSummaryRow) : Prop :=
  ∃ reply, call.provider (Compactor.summaryRequest call.dropped) = .ok reply ∧
    row.summary = sanitizeSummary reply

end Calls

variable {sha256Hex : List UInt8 → String} {call : CompactionCall} {rows : List CompactionSummaryRow}
  {row : CompactionSummaryRow}

theorem applyCompaction_of_inactive (h : call.activeCompactor = none) :
    applyCompaction sha256Hex call rows = (.ok call.history, rows) := by
  unfold activeCompactor at h
  unfold applyCompaction
  split_ifs at h with hactive
  · simp only [hactive.1, Bool.not_true, if_neg Bool.false_ne_true, if_neg (Nat.not_lt.mpr hactive.2), h]
  · by_cases henabled : call.agentCompaction.enabled = true
    · have hfew : call.history.length < call.agentCompaction.messageCountThreshold :=
        Nat.not_le.mp fun hle => hactive ⟨henabled, hle⟩
      simp only [henabled, Bool.not_true, if_neg Bool.false_ne_true, if_pos hfew]
    · rw [if_pos (by simpa using henabled)]

theorem applyCompaction_of_active {compactor : Compactor} (h : call.activeCompactor = some compactor) :
    applyCompaction sha256Hex call rows =
      match call.cached sha256Hex rows with
      | some cached =>
        ((compactor.compactWithSummary call.nowUnix call.request cached.summary).map
          CompactionResult.compactedMessages, rows)
      | none =>
        match compactor.compact call.nowUnix call.request call.provider with
        | .error e => (.error e, rows)
        | .ok result =>
          (.ok result.compactedMessages,
            if !isBlank result.summary && decide (0 < result.tokensSaved) && call.upserts then
              upsertCompactionSummary (call.rowOf sha256Hex result) rows
            else rows) := by
  unfold activeCompactor at h
  split_ifs at h with hactive
  rw [applyCompaction, hactive.1, Bool.not_true, if_neg Bool.false_ne_true, if_neg (Nat.not_lt.mpr hactive.2), h]

/-- No row was invalidated. -/
def Valid (rows : List CompactionSummaryRow) : Prop := ∀ row ∈ rows, row.invalidatedAt = none

theorem loadCompactionSummary_eq (sha256Hex : List UInt8 → String) (hrows : Valid rows) (key : String × String × String) :
    loadCompactionSummary rows key = (memo sha256Hex).find rows key := by
  induction rows with
  | nil => rfl
  | cons row rows ih =>
    have hvalid : row.invalidatedAt = none := hrows row List.mem_cons_self
    have hrest := ih fun other hother => hrows other (List.mem_cons_of_mem _ hother)
    unfold loadCompactionSummary Memo.find at hrest ⊢
    rw [List.find?_cons, List.find?_cons, hrest, hvalid]
    by_cases hkey : row.key = key <;> simp [memo, hkey]

theorem cached_eq (hrows : Valid rows) (hactive : call.activeCompactor.isSome = true) :
    call.cached sha256Hex rows = (memo sha256Hex).hit rows call := by
  unfold cached Memo.hit
  rw [loadCompactionSummary_eq sha256Hex hrows]
  simp [memo, hactive]

theorem stores_valid (h : call.stores sha256Hex = some row) : row.invalidatedAt = none := by
  unfold stores at h
  split at h
  · cases h
  · split at h
    · cases h
    · split_ifs at h
      obtain rfl := Option.some.inj h
      rfl

theorem applyCompaction_rows (sha256Hex : List UInt8 → String) (call : CompactionCall) (hrows : Valid rows) :
    (applyCompaction sha256Hex call rows).2 = (memo sha256Hex).next rows call := by
  unfold Memo.next
  cases hactive : call.activeCompactor with
  | none =>
    have hmakes : (memo sha256Hex).makes call = none := by
      change call.stores sha256Hex = none
      rw [stores, hactive]
    rw [applyCompaction_of_inactive hactive, hmakes]
    split <;> first | rfl | contradiction
  | some compactor =>
    rw [applyCompaction_of_active hactive, cached_eq hrows (by rw [hactive]; rfl)]
    have hmakes : (memo sha256Hex).makes call = call.stores sha256Hex := rfl
    rw [hmakes, stores, hactive]
    cases (memo sha256Hex).hit rows call with
    | some cached => rfl
    | none =>
      dsimp only
      cases compactor.compact call.nowUnix call.request call.provider with
      | error e => rfl
      | ok result =>
        dsimp only
        split_ifs <;> rfl

theorem valid_compactionRows (sha256Hex : List UInt8 → String) (calls : List CompactionCall) : Valid (compactionRows sha256Hex calls) ∧
    compactionRows sha256Hex calls = (memo sha256Hex).table calls := by
  induction calls with
  | nil => exact ⟨fun row hrow => (by cases hrow), rfl⟩
  | cons call earlier ih =>
    have hnext := applyCompaction_rows sha256Hex call ih.1
    refine ⟨?_, ?_⟩
    · intro row hrow
      rw [compactionRows, hnext, Memo.next] at hrow
      split at hrow
      · rename_i made hmade
        rcases Memo.mem_upsert _ hrow with rfl | hrow
        · exact stores_valid hmade
        · exact ih.1 row hrow
      · exact ih.1 row hrow
    · rw [compactionRows, hnext, ih.2]
      rfl

theorem generated_of_stores (h : call.stores sha256Hex = some row) : call.dropped ≠ [] ∧ call.Generated row := by
  unfold stores at h
  cases hactive : call.activeCompactor with
  | none => simp [hactive] at h
  | some compactor =>
    simp only [hactive] at h
    cases hresult : compactor.compact call.nowUnix call.request call.provider with
    | error e => simp [hresult] at h
    | ok result =>
      simp only [hresult] at h
      split_ifs at h with hstored
      obtain rfl := Option.some.inj h
      have hsome : result.summary ≠ "" := by
        rintro hempty
        simp [hempty, isBlank] at hstored
      obtain ⟨hdropped, reply, hreply, -, hsummary⟩ := Compactor.reply_of_compact hresult hsome
      have heq : call.dropped = compactor.dropped call.nowUnix call.request := by rw [dropped, hactive]
      rw [← heq] at hdropped hreply
      exact ⟨hdropped, reply, hreply, hsummary⟩

/-- How many messages the call keeps at the front of the history. -/
def headCount (call : CompactionCall) : Nat :=
  match call.agentCompaction.strategy with
  | .headTail headCount _ => headCount
  | .ageBased _ => 0
  | .budgetBased _ => 1

theorem split_request {split : Split} (h : call.request.split call.nowUnix = .ok (some split)) :
    split = Split.at call.history call.headCount (call.history.length - call.retained) := by
  unfold CompactionRequest.split request at h
  unfold headCount retained
  cases hstrategy : call.agentCompaction.strategy with
  | headTail head tail =>
    simp only [hstrategy] at h ⊢
    cases hkept : Compactor.addUsize head (max tail call.contextMinRecentMessages) with
    | error e => simp [hkept, bind, Except.bind] at h
    | ok kept =>
      simp only [hkept, bind, Except.bind, pure, Except.pure] at h
      split_ifs at h
      · cases h
      · exact (Option.some.inj (Except.ok.inj h)).symm
  | ageBased maxAgeDays =>
    simp only [hstrategy] at h ⊢
    split_ifs at h with hnone
    · cases h
    · obtain rfl := Option.some.inj (Except.ok.inj h)
      have hcount : Compactor.ageBasedCompactCount call.history.length call.metadata maxAgeDays call.nowUnix
          call.contextMinRecentMessages =
            min (call.oldCount maxAgeDays) (call.history.length - max 6 call.contextMinRecentMessages) := by
        rw [Option.getD_some] at hnone
        unfold Compactor.ageBasedCompactCount at hnone ⊢
        dsimp only at hnone ⊢
        split_ifs at hnone ⊢
        · exact absurd rfl hnone
        · rfl
      rw [Option.getD_some, hcount]
      congr 1
      omega
  | budgetBased maxTokens =>
    simp only [hstrategy] at h ⊢
    split_ifs at h
    · cases h
    · exact (Option.some.inj (Except.ok.inj h)).symm

theorem dropped_eq (h : call.dropped ≠ []) :
    call.dropped = (Split.at call.history call.headCount (call.history.length - call.retained)).middle := by
  unfold dropped at h ⊢
  cases hactive : call.activeCompactor with
  | none => simp [hactive] at h
  | some compactor =>
    simp only [hactive] at h ⊢
    unfold Compactor.dropped at h ⊢
    cases henabled : compactor.enabled with
    | false => simp [henabled] at h
    | true =>
      cases hsplit : call.request.split call.nowUnix with
      | error e => simp [henabled, hsplit] at h
      | ok split =>
        cases split with
        | none => simp [henabled, hsplit] at h
        | some split => simp only [split_request hsplit]

theorem length_dropped (h : call.dropped ≠ []) :
    call.dropped.length = call.history.length - call.retained - call.headCount := by
  rw [dropped_eq h, Split.length_middle _ (Nat.sub_le _ _)]

theorem dropped_eq_iff {source : CompactionCall}
    (hstrategy : source.agentCompaction.strategy = call.agentCompaction.strategy)
    (hhistory : source.history = call.history) (hsource : source.dropped ≠ []) (hcall : call.dropped ≠ []) :
    source.dropped = call.dropped ↔ source.retained = call.retained := by
  have hhead : source.headCount = call.headCount := by rw [headCount, headCount, hstrategy]
  constructor
  · intro heq
    have hlen := congrArg List.length heq
    have hpos := List.length_pos_iff.mpr hsource
    rw [length_dropped hsource, length_dropped hcall, hhistory, hhead] at hlen
    rw [length_dropped hsource, hhistory, hhead] at hpos
    omega
  · intro heq
    rw [dropped_eq hsource, dropped_eq hcall, hhistory, hhead, heq]

theorem length_metadata (call : CompactionCall) : call.metadata.length = call.history.length := by
  unfold metadata
  split
  · exact length_alignCompactionMetadata _ _
  · exact List.length_replicate

/-- The bytes that the digest of the call is taken of. -/
def text (call : CompactionCall) : List UInt8 :=
  sourceText call.history call.agentCompaction.strategy call.metadata

/-- **A reused summary was generated from exactly the messages that are dropped now** if and only if the call that
stored it kept as many messages at the end of the history. The calls are in any order, the latest first; the
digests of different texts in them differ. -/
theorem reused_summary_covers_iff {earlier : List CompactionCall}
    (hsha : ∀ source ∈ earlier, sha256Hex source.text = sha256Hex call.text → source.text = call.text)
    (hreuse : call.Reuses sha256Hex (compactionRows sha256Hex earlier) row) :
    ∃ source, (memo sha256Hex).writer (call.key sha256Hex) earlier = some source ∧ source.Generated row ∧
      (source.dropped = call.dropped ↔ source.retained = call.retained) := by
  obtain ⟨hvalid, htable⟩ := valid_compactionRows sha256Hex earlier
  obtain ⟨hcached, hdrops⟩ := hreuse
  have hfind : (memo sha256Hex).find ((memo sha256Hex).table earlier) (call.key sha256Hex) = some row := by
    unfold cached at hcached
    split_ifs at hcached
    rw [loadCompactionSummary_eq sha256Hex hvalid, htable] at hcached
    exact hcached
  obtain ⟨source, hwriter, hstores⟩ := Memo.writer_of_find hfind
  obtain ⟨hmem, hkey⟩ := Memo.mem_of_writer hwriter
  have hsame : sha256Hex source.text = sha256Hex call.text := congrArg (fun key => key.2.2) hkey
  obtain ⟨hstrategy, hhistory, -⟩ := sourceText_inj (length_metadata source) (length_metadata call)
    (hsha source hmem hsame)
  obtain ⟨hdropped, hgenerated⟩ := generated_of_stores hstores
  exact ⟨source, hwriter, hgenerated, dropped_eq_iff hstrategy hhistory hdropped hdrops⟩

/-! ## Two turns that load the same history -/

/-- Eight messages of a session, the second a second after the first. The last two are those of the turns. -/
def sessionRecords : List StoredMessageRecord :=
  [⟨1, ⟨.user, "Please remember that the appointment with the dentist was moved from Tuesday to Thursday morning."⟩,
      1000⟩,
    ⟨2, ⟨.user, "And that the invoice of the garage is still to be paid."⟩, 1001⟩,
    ⟨3, ⟨.assistant, "Noted."⟩, 60000⟩,
    ⟨4, ⟨.user, "Thanks."⟩, 60001⟩,
    ⟨5, ⟨.assistant, "You are welcome."⟩, 60002⟩,
    ⟨6, ⟨.user, "How is the weather?"⟩, 60003⟩,
    ⟨7, ⟨.user, "What is to be paid?"⟩, 87400⟩,
    ⟨8, ⟨.user, "And when is the dentist?"⟩, 87401⟩]

/-- A turn that compacts what is older than a day. -/
def turnAt (nowUnix : Int) : CompactionCall where
  agentCompaction := ⟨true, .ageBased 1, 8⟩
  compactor := some ⟨true⟩
  contextMinRecentMessages := 0
  sessionId := "tg:7"
  history := sessionRecords.map StoredMessageRecord.message
  recentRecords := .ok sessionRecords
  loads := true
  upserts := true
  nowUnix := nowUnix
  provider _ := .ok "The dentist is on Thursday."

/-- The digest of the text of the two turns. -/
def turnDigest (_ : List UInt8) : String := "72954bf31756c9f4216be136a28f1c23e5c2badbc11474bcf7f7300e8de57743"

/-- The row that the first turn stores. -/
def turnRow : CompactionSummaryRow where
  sessionId := "tg:7"
  strategy := "age_based:1"
  sourceHash := "72954bf31756c9f4216be136a28f1c23e5c2badbc11474bcf7f7300e8de57743"
  sourceMessageIds := [1, 2, 3, 4, 5, 6, 7, 8]
  sourceFirstMessageId := some 1
  sourceLastMessageId := some 8
  sourceMessageCount := 8
  summary := "The dentist is on Thursday."
  tokensSaved := 6
  invalidatedAt := none

/-- **A second later a message goes that no summary is about.** The first turn drops one message and stores a summary
of it; the second drops two and reuses that summary. -/
theorem reused_summary_misses :
    (turnAt 87402).Reuses turnDigest (compactionRows turnDigest [turnAt 87401]) turnRow ∧
      (turnAt 87401).dropped = (turnAt 87401).history.take 1 ∧
      (turnAt 87402).dropped = (turnAt 87402).history.take 2 ∧
      ∀ source ∈ [turnAt 87401], source.dropped ≠ (turnAt 87402).dropped := by
  refine ⟨⟨by decide +kernel, by decide +kernel⟩, by decide +kernel, by decide +kernel, fun source hsource => ?_⟩
  rw [List.mem_singleton.mp hsource]
  decide +kernel

/-- The row of the second turn was written by the first, and is about the messages that the second drops only if
both keep as many. -/
theorem reused_summary_covers_iff_turns :
    ∃ source, (memo turnDigest).writer ((turnAt 87402).key turnDigest) [turnAt 87401] = some source ∧
      source.Generated turnRow ∧
      (source.dropped = (turnAt 87402).dropped ↔ source.retained = (turnAt 87402).retained) := by
  refine reused_summary_covers_iff (fun source hsource _ => ?_) ⟨by decide +kernel, by decide +kernel⟩
  rw [List.mem_singleton.mp hsource]
  rfl

end CompactionCall

end Xiaomaolv
