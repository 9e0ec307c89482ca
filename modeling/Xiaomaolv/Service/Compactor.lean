import Xiaomaolv.Lib.Replace
import Xiaomaolv.Loop.Text
import Xiaomaolv.Provider.Stream
import Mathlib.Tactic.SplitIfs

/-!
# Compaction of a message history

A compaction keeps the first and the last messages of a history and puts a summary in the place of those between
them. The summary is asked of the provider, or it is one that an earlier compaction was given.

* `sanitizeSummary`: the text of a summary; **`sanitizeSummary_sanitizeSummary`**: it is its own sanitised text.
* `Compactor.compact`, `Compactor.compactWithSummary`: the two compactions.
* `CompactionRequest.split`: what a request keeps and what it drops; `compact_eq`, `compactWithSummary_eq`.
* **`fresh_cached_agree`**: both split the history in the same way, and the summary that one returns is to the
  other what the reply of the provider was to it.
-/

namespace Xiaomaolv

open Replace

/-! ## Sanitising a summary -/

/-- The markers of the tool protocol. -/
def summaryMarkers : List String :=
  ["MCP_TOOL_RESULT_JSON", "MCP_TOOL_VERIFICATION_FAILED_JSON", "CODE_MODE_TOOL_RESULT_JSON"]

/-- The markers give way to `[tool-json]`, one after the other. -/
def replaceMarkers (summary : String) : String :=
  String.ofList (cleanse (summaryMarkers.map String.toList) "[tool-json]".toList summary.toList)

/-- The first characters of a text that has more than `maxChars` of them. -/
def truncateSummary (maxChars : Nat) (summary : String) : String :=
  if maxChars < charCount summary then takeChars maxChars summary ++ "...(truncated)" else summary

def sanitizeSummary (summary : String) : String :=
  let summary := trim summary
  let summary := if summary.isEmpty then "Summary unavailable." else summary
  truncateSummary 4000 (replaceMarkers summary)

/-! ## Requests and results -/

inductive CompactionStrategy where
  | headTail (headCount tailCount : Nat)
  | ageBased (maxAgeDays : Nat)
  | budgetBased (maxTokens : Nat)
  deriving DecidableEq, Repr

structure CompactionMessageMetadata where
  sourceId : Option Int := none
  createdAt : Option Int := none
  deriving DecidableEq, Repr

structure CompactionRequest where
  messages : List StoredMessage
  strategy : CompactionStrategy
  metadata : List CompactionMessageMetadata
  nowUnix : Option Int
  minRecentMessages : Nat
  deriving DecidableEq, Repr

structure CompactionResult where
  compactedMessages : List StoredMessage
  tokensSaved : Nat
  summary : String
  deriving DecidableEq, Repr

def unchanged (messages : List StoredMessage) : CompactionResult := ⟨messages, 0, ""⟩

namespace Compactor

def estimateMessageTokens (msg : StoredMessage) : Nat := max ((charCount msg.content + 3) / 4) 1 + 4

def estimateMessagesTokens (messages : List StoredMessage) : Nat := (messages.map estimateMessageTokens).sum

/-- `a + b` of two `usize`. Where the sum wraps instead, the slices that the caller takes next panic. -/
def addUsize (a b : Nat) : Except Failure Nat := if a + b < 2 ^ 64 then .ok (a + b) else .error .panicked

/-- `n as i64`. -/
def asI64 (n : Nat) : Int := Int.bmod n (2 ^ 64)

/-- The value of `i64` closest to a number. -/
def clampI64 (n : Int) : Int := max (-(2 ^ 63)) (min n (2 ^ 63 - 1))

/-! ## Summaries -/

/-- What the provider is asked for some messages. -/
def summaryRequest (messages : List StoredMessage) : CompletionRequest where
  messages := [⟨.user, "Summarize the following conversation in 2-3 sentences:\n" ++
    "\n".intercalate (messages.map fun m => m.role.asStr ++ ": " ++ m.content)⟩]

/-- A provider, which replies or fails. -/
abbrev Model := CompletionRequest → Except ProviderError String

def summarize (messages : List StoredMessage) (model : Model) : Except Failure String :=
  if messages.isEmpty then .ok "" else (model (summaryRequest messages)).mapError .error

/-! ## The strategies -/

section Strategies

variable (messages : List StoredMessage)

def compactHeadTailWithSummary (headCount tailCount : Nat) (summary : String) :
    Except Failure CompactionResult := do
  if messages.length ≤ (← addUsize headCount tailCount) then
    return unchanged messages
  let head := messages.take headCount
  let middleLen := messages.length - headCount - tailCount
  let tail := messages.drop (messages.length - tailCount)
  let middleSummary := sanitizeSummary summary
  let compacted := [head,
    [⟨.system, "[Earlier " ++ toString middleLen ++ " messages summarized: " ++ middleSummary ++ "]"⟩],
    tail].flatten
  return ⟨compacted, estimateMessagesTokens messages - estimateMessagesTokens compacted, middleSummary⟩

/-- Keep the first and the last messages, and summarise the middle. -/
def compactHeadTail (headCount tailCount : Nat) (model : Model) : Except Failure CompactionResult := do
  if messages.length ≤ (← addUsize headCount tailCount) then
    return unchanged messages
  let middle := (messages.take (messages.length - tailCount)).drop headCount
  let middleSummary ← summarize middle model
  compactHeadTailWithSummary messages headCount tailCount middleSummary

def compactBudgetBasedWithSummary (maxTokens minRecentMessages : Nat) (summary : String) : CompactionResult :=
  let originalTokens := estimateMessagesTokens messages
  if originalTokens ≤ maxTokens ∨ messages.length ≤ 3 then unchanged messages
  else
    let tailCount := min (messages.length - 1) (max 6 minRecentMessages)
    let headCount := 1
    if messages.length ≤ headCount + tailCount then unchanged messages
    else
      let head := messages.take headCount
      let middleLen := messages.length - headCount - tailCount
      let tail := messages.drop (messages.length - tailCount)
      let summary := sanitizeSummary summary
      let compacted := [head,
        [⟨.system, "[Budget compacted " ++ toString middleLen ++ " earlier messages: " ++ summary ++ "]"⟩],
        tail].flatten
      ⟨compacted, originalTokens - estimateMessagesTokens compacted, summary⟩

def compactBudgetBased (maxTokens minRecentMessages : Nat) (model : Model) :
    Except Failure CompactionResult :=
  let originalTokens := estimateMessagesTokens messages
  if originalTokens ≤ maxTokens ∨ messages.length ≤ 3 then .ok (unchanged messages)
  else
    let tailCount := min (messages.length - 1) (max 6 minRecentMessages)
    let headCount := 1
    if messages.length ≤ headCount + tailCount then .ok (unchanged messages)
    else do
      let middle := (messages.take (messages.length - tailCount)).drop headCount
      let summary := sanitizeSummary (← summarize middle model)
      return compactBudgetBasedWithSummary messages maxTokens minRecentMessages summary

def ageBasedCompactCount (messageCount : Nat) (metadata : List CompactionMessageMetadata) (maxAgeDays : Nat)
    (nowUnix : Int) (minRecentMessages : Nat) : Nat :=
  let retainedTail := max 6 minRecentMessages
  if messageCount ≤ retainedTail ∨ metadata.length ≠ messageCount then 0
  else
    let maxAgeSecs := clampI64 (asI64 maxAgeDays * 86400)
    let cutoff := clampI64 (nowUnix - maxAgeSecs)
    let stalePrefix := (metadata.takeWhile fun entry =>
      entry.createdAt.any fun createdAt => decide (createdAt < cutoff)).length
    min stalePrefix (messageCount - retainedTail)

variable (metadata : List CompactionMessageMetadata) (maxAgeDays : Nat) (nowUnix : Int) (minRecentMessages : Nat)

def compactAgeBasedWithSummary (summary : String) : CompactionResult :=
  let compactCount := ageBasedCompactCount messages.length metadata maxAgeDays nowUnix minRecentMessages
  if compactCount = 0 then unchanged messages
  else
    let originalTokens := estimateMessagesTokens messages
    let tail := messages.drop compactCount
    let summary := sanitizeSummary summary
    let compacted := [
      [⟨.system, "[Age compacted " ++ toString compactCount ++ " messages older than " ++ toString maxAgeDays ++
        " days: " ++ summary ++ "]"⟩],
      tail].flatten
    ⟨compacted, originalTokens - estimateMessagesTokens compacted, summary⟩

def compactAgeBased (model : Model) : Except Failure CompactionResult :=
  let compactCount := ageBasedCompactCount messages.length metadata maxAgeDays nowUnix minRecentMessages
  if compactCount = 0 then .ok (unchanged messages)
  else do
    let stale := messages.take compactCount
    let summary := sanitizeSummary (← summarize stale model)
    return compactAgeBasedWithSummary messages metadata maxAgeDays nowUnix minRecentMessages summary

end Strategies

end Compactor

structure Compactor where
  enabled : Bool
  deriving DecidableEq, Repr

namespace Compactor

variable (compactor : Compactor) (unixTs : Int)

/-- Compact messages according to the specified strategy; `unixTs` is the clock. -/
def compact (request : CompactionRequest) (model : Model) : Except Failure CompactionResult :=
  if !compactor.enabled then .ok (unchanged request.messages)
  else
    match request.strategy with
    | .headTail headCount tailCount =>
      compactHeadTail request.messages headCount (max tailCount request.minRecentMessages) model
    | .ageBased maxAgeDays =>
      compactAgeBased request.messages request.metadata maxAgeDays (request.nowUnix.getD unixTs)
        request.minRecentMessages model
    | .budgetBased maxTokens => compactBudgetBased request.messages maxTokens request.minRecentMessages model

def compactWithSummary (request : CompactionRequest) (summary : String) : Except Failure CompactionResult :=
  if !compactor.enabled then .ok (unchanged request.messages)
  else
    let summary := sanitizeSummary summary
    match request.strategy with
    | .headTail headCount tailCount =>
      compactHeadTailWithSummary request.messages headCount (max tailCount request.minRecentMessages) summary
    | .ageBased maxAgeDays =>
      .ok (compactAgeBasedWithSummary request.messages request.metadata maxAgeDays (request.nowUnix.getD unixTs)
        request.minRecentMessages summary)
    | .budgetBased maxTokens =>
      .ok (compactBudgetBasedWithSummary request.messages maxTokens request.minRecentMessages summary)

end Compactor

/-! ## The sanitised text -/

theorem infix_of_truncateSummary {maxChars : Nat} {pattern : List Char} {summary : String} (hpattern : pattern ≠ [])
    (hlast : ∀ c ∈ "...(truncated)".toList, c ∉ pattern)
    (h : pattern <:+: (truncateSummary maxChars summary).toList) : pattern <:+: summary.toList := by
  rw [truncateSummary] at h
  split_ifs at h
  · rw [takeChars, String.toList_append, String.toList_ofList] at h
    rcases List.infix_append_iff_ne_nil.mp h with h | h | ⟨s, t, -, ht, rfl, -, hsuffix⟩
    · exact h.trans (List.take_prefix _ _).isInfix
    · obtain ⟨c, pattern, rfl⟩ := List.exists_cons_of_ne_nil hpattern
      exact absurd List.mem_cons_self (hlast c (h.subset List.mem_cons_self))
    · obtain ⟨c, t, rfl⟩ := List.exists_cons_of_ne_nil ht
      exact absurd (List.mem_append_right _ List.mem_cons_self) (hlast c (hsuffix.subset List.mem_cons_self))
  · exact h

theorem truncateSummary_truncateSummary (maxChars : Nat) (summary : String) :
    truncateSummary maxChars (truncateSummary maxChars summary) = truncateSummary maxChars summary := by
  by_cases h : maxChars < charCount summary
  · have hcut : truncateSummary maxChars summary = takeChars maxChars summary ++ "...(truncated)" := if_pos h
    have hlen : (takeChars maxChars summary).toList.length = maxChars := by
      rw [takeChars, String.toList_ofList, List.length_take]
      exact Nat.min_eq_left h.le
    have hlonger : maxChars < charCount (truncateSummary maxChars summary) := by
      rw [hcut, charCount, String.toList_append, List.length_append, hlen]
      exact Nat.lt_add_of_pos_right (by decide)
    rw [truncateSummary, if_pos hlonger, hcut, takeChars, String.toList_append]
    congr 1
    rw [List.take_append_of_le_length hlen.ge, List.take_of_length_le hlen.le, String.ofList_toList]
  · have hcut : truncateSummary maxChars summary = summary := if_neg h
    rw [hcut, hcut]

theorem ends_truncateSummary {maxChars : Nat} {summary : String} {P : Char → Prop} (hpos : 0 < maxChars)
    (hlast : P ')') (h : Ends P summary.toList) : Ends P (truncateSummary maxChars summary).toList := by
  rw [truncateSummary]
  split_ifs with hlong
  · rw [takeChars, String.toList_append, String.toList_ofList]
    refine ⟨fun c hc => h.1 c ?_, fun c hc => ?_⟩
    · rw [List.head?_append_of_ne_nil] at hc
      · rwa [List.head?_take, if_neg hpos.ne'] at hc
      · refine fun hnil => ?_
        have hlen := congrArg List.length hnil
        rw [List.length_take, List.length_nil] at hlen
        unfold charCount at hlong
        omega
    · rw [List.getLast?_append] at hc
      obtain rfl : ')' = c := by simpa using hc
      exact hlast
  · exact h

theorem summaryMarkers_fresh : ∀ pattern ∈ summaryMarkers.map String.toList,
    pattern ≠ [] ∧ ∀ c ∈ "[tool-json]".toList, c ∉ pattern := by
  decide

theorem trimmed_replaceMarkers {text : String} (h : Trimmed text) : Trimmed (replaceMarkers text) := by
  unfold Trimmed replaceMarkers
  rw [String.toList_ofList]
  exact ends_cleanse summaryMarkers_fresh (by decide) ⟨by decide, by decide⟩ h

/-- What holds of a sanitised text, and lets it pass a second time unchanged. -/
structure Sanitized (text : String) : Prop where
  nonempty : text ≠ ""
  trimmed : Trimmed text
  unmarked : ∀ marker ∈ summaryMarkers.map String.toList, ¬ marker <:+: text.toList
  short : truncateSummary 4000 text = text

theorem sanitizeSummary_of_sanitized {text : String} (h : Sanitized text) : sanitizeSummary text = text := by
  have hsome : text.isEmpty = false := by
    rw [Bool.eq_false_iff, ne_eq, String.isEmpty_iff]
    exact h.nonempty
  have hclean : replaceMarkers text = text := by
    rw [replaceMarkers, cleanse_eq_self h.unmarked, String.ofList_toList]
  rw [sanitizeSummary, trim_of_trimmed h.trimmed, hsome, if_neg Bool.false_ne_true, hclean, h.short]

theorem sanitized_sanitizeSummary (summary : String) : Sanitized (sanitizeSummary summary) := by
  have hbase : ∃ text, text ≠ "" ∧ Trimmed text ∧
      sanitizeSummary summary = truncateSummary 4000 (replaceMarkers text) := by
    by_cases h : (trim summary).isEmpty
    · refine ⟨"Summary unavailable.", by decide, ⟨by decide, by decide⟩, ?_⟩
      rw [sanitizeSummary, if_pos h]
    · refine ⟨trim summary, fun he => h (String.isEmpty_iff.mpr he), trimmed_trim summary, ?_⟩
      rw [sanitizeSummary, if_neg h]
  obtain ⟨text, hne, htrimmed, heq⟩ := hbase
  rw [heq]
  have hclean : replaceMarkers text ≠ "" := by
    intro h
    have hsome : text.toList ≠ [] := fun hnil => hne (String.toList_eq_nil_iff.mp hnil)
    refine cleanse_ne_nil summaryMarkers_fresh (by decide) hsome ?_
    rw [← String.toList_ofList (l := cleanse _ _ _)]
    exact congrArg String.toList h
  refine ⟨?_, ?_, ?_, ?_⟩
  · rw [truncateSummary]
    split_ifs
    · exact fun h => absurd (congrArg (fun t => t.toList.length) h) (by simp)
    · exact hclean
  · exact ends_truncateSummary (by decide) (by decide) (trimmed_replaceMarkers htrimmed)
  · intro marker hmarker hinfix
    have hfresh : marker ≠ [] ∧ ∀ c ∈ "...(truncated)".toList, c ∉ marker :=
      (by decide : ∀ marker ∈ summaryMarkers.map String.toList,
        marker ≠ [] ∧ ∀ c ∈ "...(truncated)".toList, c ∉ marker) marker hmarker
    have hin := infix_of_truncateSummary hfresh.1 hfresh.2 hinfix
    rw [replaceMarkers, String.toList_ofList] at hin
    exact not_infix_cleanse summaryMarkers_fresh (by decide) hmarker hin
  · exact truncateSummary_truncateSummary 4000 _

/-- **A sanitised text is sanitised once more into itself.** -/
theorem sanitizeSummary_sanitizeSummary (summary : String) :
    sanitizeSummary (sanitizeSummary summary) = sanitizeSummary summary :=
  sanitizeSummary_of_sanitized (sanitized_sanitizeSummary summary)

/-! ## What is kept and what is dropped -/

/-- A history in three parts. -/
structure Split where
  head : List StoredMessage
  middle : List StoredMessage
  tail : List StoredMessage
  deriving DecidableEq, Repr

/-- The parts before `start`, up to `stop` and from there on. -/
def Split.at (messages : List StoredMessage) (start stop : Nat) : Split :=
  ⟨messages.take start, (messages.take stop).drop start, messages.drop stop⟩

section Split

open Compactor

/-- The message that stands for so many dropped ones. -/
def CompactionStrategy.note (strategy : CompactionStrategy) (count : Nat) (summary : String) : StoredMessage :=
  match strategy with
  | headTail _ _ => ⟨.system, "[Earlier " ++ toString count ++ " messages summarized: " ++ summary ++ "]"⟩
  | ageBased maxAgeDays => ⟨.system, "[Age compacted " ++ toString count ++ " messages older than " ++
      toString maxAgeDays ++ " days: " ++ summary ++ "]"⟩
  | budgetBased _ => ⟨.system, "[Budget compacted " ++ toString count ++ " earlier messages: " ++ summary ++ "]"⟩

/-- The history with a note in the place of the middle. -/
def Split.result (split : Split) (strategy : CompactionStrategy) (summary : String) : CompactionResult :=
  let compacted := split.head ++ strategy.note split.middle.length summary :: split.tail
  ⟨compacted, estimateMessagesTokens (split.head ++ split.middle ++ split.tail) - estimateMessagesTokens compacted,
    summary⟩

@[simp] theorem Split.summary_result (split : Split) (strategy : CompactionStrategy) (summary : String) :
    (split.result strategy summary).summary = summary := rfl

/-- How a request splits its history, where it drops anything. -/
def CompactionRequest.split (unixTs : Int) (request : CompactionRequest) : Except Failure (Option Split) :=
  let messages := request.messages
  match request.strategy with
  | .headTail headCount tailCount => do
    let tailCount := max tailCount request.minRecentMessages
    if messages.length ≤ (← addUsize headCount tailCount) then return none
    return some (.at messages headCount (messages.length - tailCount))
  | .ageBased maxAgeDays =>
    let count := ageBasedCompactCount messages.length request.metadata maxAgeDays (request.nowUnix.getD unixTs)
      request.minRecentMessages
    .ok (if count = 0 then none else some (.at messages 0 count))
  | .budgetBased maxTokens =>
    let tailCount := min (messages.length - 1) (max 6 request.minRecentMessages)
    .ok (if estimateMessagesTokens messages ≤ maxTokens ∨ messages.length ≤ 3 ∨ messages.length ≤ 1 + tailCount
      then none else some (.at messages 1 (messages.length - tailCount)))

end Split

theorem Split.at_parts {messages : List StoredMessage} {start stop : Nat} (h : start ≤ stop) :
    (Split.at messages start stop).head ++ (Split.at messages start stop).middle ++
      (Split.at messages start stop).tail = messages := by
  unfold Split.at
  have hstart : (messages.take stop).take start = messages.take start := by
    rw [List.take_take, Nat.min_eq_left h]
  rw [← hstart, List.take_append_drop, List.take_append_drop]

theorem Split.length_middle {messages : List StoredMessage} {stop : Nat} (start : Nat) (h : stop ≤ messages.length) :
    (Split.at messages start stop).middle.length = stop - start := by
  rw [Split.at, List.length_drop, List.length_take, Nat.min_eq_left h]

/-- What a split of a request is to the history. -/
structure Split.Of (split : Split) (messages : List StoredMessage) : Prop where
  parts : split.head ++ split.middle ++ split.tail = messages
  nonempty : split.middle ≠ []

theorem Split.Of.at {messages : List StoredMessage} {start stop : Nat} (h : start < stop)
    (hle : stop ≤ messages.length) : (Split.at messages start stop).Of messages := by
  refine ⟨Split.at_parts h.le, fun hnil => ?_⟩
  have hlen := Split.length_middle start hle
  rw [hnil, List.length_nil] at hlen
  omega

theorem Split.result_at {messages : List StoredMessage} {start stop : Nat} (h : start ≤ stop)
    (hle : stop ≤ messages.length) (strategy : CompactionStrategy) (summary : String) :
    (Split.at messages start stop).result strategy summary =
      let compacted := messages.take start ++ strategy.note (stop - start) summary :: messages.drop stop
      ⟨compacted, Compactor.estimateMessagesTokens messages - Compactor.estimateMessagesTokens compacted,
        summary⟩ := by
  rw [Split.result, Split.at_parts h, Split.length_middle start hle]
  rfl

namespace Compactor

theorem addUsize_eq_ok {a b n : Nat} : addUsize a b = .ok n ↔ a + b < 2 ^ 64 ∧ a + b = n := by
  unfold addUsize
  by_cases h : a + b < 2 ^ 64
  · rw [if_pos h, Except.ok.injEq]
    exact ⟨fun heq => ⟨h, heq⟩, And.right⟩
  · rw [if_neg h]
    exact ⟨fun heq => (by cases heq), fun heq => absurd heq.1 h⟩

theorem ageBasedCompactCount_le {count : Nat} {metadata : List CompactionMessageMetadata} {maxAgeDays : Nat}
    {nowUnix : Int} {minRecentMessages : Nat} :
    ageBasedCompactCount count metadata maxAgeDays nowUnix minRecentMessages ≤ count := by
  rw [ageBasedCompactCount]
  split_ifs
  · exact Nat.zero_le count
  · exact (Nat.min_le_right _ _).trans (Nat.sub_le _ _)

theorem split_of {unixTs : Int} {request : CompactionRequest} {split : Split}
    (h : request.split unixTs = .ok (some split)) : split.Of request.messages := by
  unfold CompactionRequest.split at h
  cases hstrategy : request.strategy with
  | headTail headCount tailCount =>
    simp only [hstrategy] at h
    cases hkept : addUsize headCount (max tailCount request.minRecentMessages) with
    | error e => simp [hkept, bind, Except.bind] at h
    | ok kept =>
      obtain ⟨-, rfl⟩ := addUsize_eq_ok.mp hkept
      simp only [hkept, bind, Except.bind, pure, Except.pure] at h
      split_ifs at h with hfew
      · cases h
      · obtain rfl := Option.some.inj (Except.ok.inj h)
        exact Split.Of.at (by omega) (Nat.sub_le _ _)
  | ageBased maxAgeDays =>
    simp only [hstrategy] at h
    split_ifs at h with hnone
    · cases h
    · obtain rfl := Option.some.inj (Except.ok.inj h)
      exact Split.Of.at (Nat.pos_of_ne_zero hnone) ageBasedCompactCount_le
  | budgetBased maxTokens =>
    simp only [hstrategy] at h
    split_ifs at h with hfew
    · cases h
    · obtain rfl := Option.some.inj (Except.ok.inj h)
      exact Split.Of.at (by omega) (Nat.sub_le _ _)

section Equations

variable {compactor : Compactor} {unixTs : Int} {request : CompactionRequest}

/-- A compaction with a summary is the split with the note of the sanitised summary in its middle. -/
theorem compactWithSummary_eq (henabled : compactor.enabled = true) (summary : String) :
    compactor.compactWithSummary unixTs request summary = (request.split unixTs).map fun
      | none => unchanged request.messages
      | some split => split.result request.strategy (sanitizeSummary summary) := by
  unfold compactWithSummary CompactionRequest.split
  rw [henabled, Bool.not_true, if_neg Bool.false_ne_true]
  cases hstrategy : request.strategy with
  | headTail headCount tailCount =>
    simp only [compactHeadTailWithSummary, sanitizeSummary_sanitizeSummary]
    cases hkept : addUsize headCount (max tailCount request.minRecentMessages) with
    | error e => rfl
    | ok kept =>
      obtain ⟨-, rfl⟩ := addUsize_eq_ok.mp hkept
      simp only [bind, Except.bind, pure, Except.pure]
      split_ifs with hfew
      · rfl
      · simp only [Except.map]
        rw [Split.result_at (by omega) (Nat.sub_le _ _), Nat.sub_right_comm]
        simp only [List.flatten_cons, List.flatten_nil, List.append_nil]
        rfl
  | ageBased maxAgeDays =>
    simp only [compactAgeBasedWithSummary, sanitizeSummary_sanitizeSummary, Except.map]
    split_ifs with hnone
    · rfl
    · dsimp only
      rw [Split.result_at (Nat.zero_le _) ageBasedCompactCount_le]
      simp only [List.flatten_cons, List.flatten_nil, List.append_nil]
      rfl
  | budgetBased maxTokens =>
    simp only [compactBudgetBasedWithSummary, sanitizeSummary_sanitizeSummary, Except.map]
    by_cases hfits : estimateMessagesTokens request.messages ≤ maxTokens ∨ request.messages.length ≤ 3
    · rw [if_pos hfits, if_pos (by tauto)]
    · rw [if_neg hfits]
      split_ifs with hfew hfew'
      · rfl
      · exact absurd (.inr (.inr hfew)) hfew'
      · rename_i h
        rcases h with h | h | h <;> tauto
      · dsimp only
        rw [Split.result_at (by omega) (Nat.sub_le _ _), Nat.sub_right_comm]
        simp only [List.flatten_cons, List.flatten_nil, List.append_nil]
        rfl

theorem compact_eq_withSummary (henabled : compactor.enabled = true) (model : Model) :
    compactor.compact unixTs request model = (request.split unixTs).bind fun
      | none => .ok (unchanged request.messages)
      | some split => (summarize split.middle model).bind (compactor.compactWithSummary unixTs request) := by
  unfold compact compactWithSummary CompactionRequest.split
  simp only [henabled, Bool.not_true, if_neg Bool.false_ne_true]
  cases hstrategy : request.strategy with
  | headTail headCount tailCount =>
    simp only [compactHeadTail, compactHeadTailWithSummary, sanitizeSummary_sanitizeSummary]
    cases hkept : addUsize headCount (max tailCount request.minRecentMessages) with
    | error e => rfl
    | ok kept =>
      simp only [bind, Except.bind, pure, Except.pure]
      split_ifs <;> rfl
  | ageBased maxAgeDays =>
    simp only [compactAgeBased, Except.bind]
    split_ifs <;> rfl
  | budgetBased maxTokens =>
    simp only [compactBudgetBased, Except.bind]
    by_cases hfits : estimateMessagesTokens request.messages ≤ maxTokens ∨ request.messages.length ≤ 3
    · rw [if_pos hfits, if_pos (by tauto)]
    · rw [if_neg hfits]
      by_cases hfew : request.messages.length ≤
          1 + min (request.messages.length - 1) (max 6 request.minRecentMessages)
      · rw [if_pos hfew, if_pos (.inr (.inr hfew))]
      · rw [if_neg hfew, if_neg (by tauto)]
        rfl

end Equations

/-! ## Fresh and cached -/

/-- `middle` is what the summary of a result stands for: the messages before it and behind it are kept as they
are, and where there are any, one message with the summary is in their place. -/
def StandsFor (messages middle : List StoredMessage) (result : CompactionResult) : Prop :=
  ∃ head tail notes, messages = head ++ middle ++ tail ∧ result.compactedMessages = head ++ notes ++ tail ∧
    (middle = [] → notes = []) ∧
    (middle ≠ [] → ∃ note before, notes = [note] ∧ note.role = .system ∧
      note.content = before ++ result.summary ++ "]")

/-- What a request drops. -/
def dropped (compactor : Compactor) (unixTs : Int) (request : CompactionRequest) : List StoredMessage :=
  match compactor.enabled, request.split unixTs with
  | true, .ok (some split) => split.middle
  | _, _ => []

theorem standsFor_unchanged (messages : List StoredMessage) : StandsFor messages [] (unchanged messages) :=
  ⟨messages, [], [], by simp, by simp [unchanged], fun _ => rfl, fun h => absurd rfl h⟩

theorem standsFor_result {split : Split} {messages : List StoredMessage} (h : split.Of messages)
    (strategy : CompactionStrategy) (summary : String) :
    StandsFor messages split.middle (split.result strategy summary) := by
  refine ⟨split.head, split.tail, [strategy.note split.middle.length summary], h.parts.symm, ?_,
    fun hnil => absurd hnil h.nonempty, fun _ => ?_⟩
  · rw [List.append_assoc]
    rfl
  · cases strategy <;> exact ⟨_, _, rfl, rfl, rfl⟩

section Agreement

variable {compactor : Compactor} {unixTs : Int} {request : CompactionRequest} {result : CompactionResult}

theorem compactWithSummary_cases {summary : String}
    (h : compactor.compactWithSummary unixTs request summary = .ok result) :
    compactor.dropped unixTs request = [] ∧ result = unchanged request.messages ∨
      ∃ split : Split, split.Of request.messages ∧ compactor.dropped unixTs request = split.middle ∧
        result = split.result request.strategy (sanitizeSummary summary) := by
  cases henabled : compactor.enabled with
  | false =>
    rw [compactWithSummary, henabled] at h
    exact .inl ⟨by rw [dropped, henabled], (Except.ok.inj h).symm⟩
  | true =>
    rw [compactWithSummary_eq henabled] at h
    cases hsplit : request.split unixTs with
    | error e => simp [hsplit, Except.map] at h
    | ok split =>
      rw [hsplit] at h
      cases split with
      | none => exact .inl ⟨by rw [dropped, henabled, hsplit], (Except.ok.inj h).symm⟩
      | some split =>
        exact .inr ⟨split, split_of hsplit, by rw [dropped, henabled, hsplit], (Except.ok.inj h).symm⟩

theorem compactWithSummary_sanitizeSummary (summary : String) :
    compactor.compactWithSummary unixTs request (sanitizeSummary summary) =
      compactor.compactWithSummary unixTs request summary := by
  unfold compactWithSummary
  rw [sanitizeSummary_sanitizeSummary]

theorem standsFor_compactWithSummary {summary : String}
    (h : compactor.compactWithSummary unixTs request summary = .ok result) :
    StandsFor request.messages (compactor.dropped unixTs request) result := by
  rcases compactWithSummary_cases h with ⟨hnone, rfl⟩ | ⟨split, hof, hdropped, rfl⟩
  · rw [hnone]
    exact standsFor_unchanged _
  · rw [hdropped]
    exact standsFor_result hof _ _

/-- A fresh compaction that drops something is the one with the reply of the provider about it as its summary. -/
theorem compact_cases {model : Model} (h : compactor.compact unixTs request model = .ok result) :
    compactor.dropped unixTs request = [] ∧ result = unchanged request.messages ∨
      ∃ reply, model (summaryRequest (compactor.dropped unixTs request)) = .ok reply ∧
        compactor.compactWithSummary unixTs request reply = .ok result := by
  cases henabled : compactor.enabled with
  | false =>
    rw [compact, henabled] at h
    exact .inl ⟨by rw [dropped, henabled], (Except.ok.inj h).symm⟩
  | true =>
    rw [compact_eq_withSummary henabled] at h
    cases hsplit : request.split unixTs with
    | error e => simp [hsplit, Except.bind] at h
    | ok split =>
      rw [hsplit] at h
      cases split with
      | none => exact .inl ⟨by rw [dropped, henabled, hsplit], (Except.ok.inj h).symm⟩
      | some split =>
        have hdropped : compactor.dropped unixTs request = split.middle := by rw [dropped, henabled, hsplit]
        have hasked : summarize split.middle model =
            (model (summaryRequest split.middle)).mapError .error := by
          rw [summarize, if_neg (by rw [List.isEmpty_iff]; exact (split_of hsplit).nonempty)]
        simp only [Except.bind, hasked] at h
        rw [hdropped]
        cases hreply : model (summaryRequest split.middle) with
        | error e => simp [hreply, Except.mapError] at h
        | ok reply =>
          rw [hreply] at h
          exact .inr ⟨reply, rfl, h⟩

theorem reply_of_compact {model : Model} (h : compactor.compact unixTs request model = .ok result)
    (hsome : result.summary ≠ "") : compactor.dropped unixTs request ≠ [] ∧
    ∃ reply, model (summaryRequest (compactor.dropped unixTs request)) = .ok reply ∧
      compactor.compactWithSummary unixTs request reply = .ok result ∧ result.summary = sanitizeSummary reply := by
  rcases compact_cases h with ⟨-, rfl⟩ | ⟨reply, hreply, hcached⟩
  · exact absurd rfl hsome
  · rcases compactWithSummary_cases hcached with ⟨-, rfl⟩ | ⟨split, hof, hdropped, rfl⟩
    · exact absurd rfl hsome
    · rw [hdropped] at hreply ⊢
      exact ⟨hof.nonempty, reply, hreply, hcached, split.summary_result _ _⟩

theorem summary_ne_empty_of_dropped {model : Model} (h : compactor.compact unixTs request model = .ok result)
    (hdropped : compactor.dropped unixTs request ≠ []) : result.summary ≠ "" := by
  rcases compact_cases h with ⟨hnone, -⟩ | ⟨reply, -, hcached⟩
  · exact absurd hnone hdropped
  · rcases compactWithSummary_cases hcached with ⟨hnone, -⟩ | ⟨split, -, -, rfl⟩
    · exact absurd hnone hdropped
    · rw [Split.summary_result]
      exact (sanitized_sanitizeSummary reply).nonempty

theorem standsFor_compact {model : Model} (h : compactor.compact unixTs request model = .ok result) :
    StandsFor request.messages (compactor.dropped unixTs request) result := by
  rcases compact_cases h with ⟨hnone, rfl⟩ | ⟨reply, -, hcached⟩
  · rw [hnone]
    exact standsFor_unchanged _
  · exact standsFor_compactWithSummary hcached

end Agreement

/-- **Fresh and cached compactions agree.** With the clock fixed, both keep and drop the same messages of a
history: what is kept stands in the result as it was, in its order, and one message with the summary is in the
place of what is dropped. A fresh compaction asks the provider about what it drops and no other message, and one
with the summary that it returns is the same result. -/
theorem fresh_cached_agree (compactor : Compactor) (unixTs : Int) (request : CompactionRequest) (model : Model) :
    (∀ result, compactor.compact unixTs request model = .ok result →
      (result.summary ≠ "" → compactor.compactWithSummary unixTs request result.summary = .ok result) ∧
      StandsFor request.messages (compactor.dropped unixTs request) result ∧
      (compactor.dropped unixTs request ≠ [] → ∃ reply,
        model (summaryRequest (compactor.dropped unixTs request)) = .ok reply ∧
          result.summary = sanitizeSummary reply)) ∧
    ∀ summary result, compactor.compactWithSummary unixTs request summary = .ok result →
      StandsFor request.messages (compactor.dropped unixTs request) result := by
  refine ⟨fun result h => ⟨fun hsome => ?_, standsFor_compact h, fun hdropped => ?_⟩,
    fun summary result h => standsFor_compactWithSummary h⟩
  · obtain ⟨-, reply, -, hcached, hsummary⟩ := reply_of_compact h hsome
    rw [hsummary, compactWithSummary_sanitizeSummary, hcached]
  · obtain ⟨-, reply, hreply, -, hsummary⟩ := reply_of_compact h (summary_ne_empty_of_dropped h hdropped)
    exact ⟨reply, hreply, hsummary⟩

/-- Five messages, of which the first and the last are kept. -/
def fiveMessages : CompactionRequest where
  messages := [⟨.user, "a"⟩, ⟨.assistant, "b"⟩, ⟨.user, "c"⟩, ⟨.assistant, "d"⟩, ⟨.user, "e"⟩]
  strategy := .headTail 1 1
  metadata := []
  nowUnix := none
  minRecentMessages := 0

/-- The summary of three messages, with a marker in the reply. -/
example : (compact ⟨true⟩ 0 fiveMessages fun _ => .ok " MCP_TOOL_RESULT_JSON ").toOption.map
    CompactionResult.compactedMessages =
      some [⟨.user, "a"⟩, ⟨.system, "[Earlier 3 messages summarized: [tool-json]]"⟩, ⟨.user, "e"⟩] := by
  decide +kernel

end Compactor

end Xiaomaolv
