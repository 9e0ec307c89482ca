import Xiaomaolv.Loop.Frames
import Xiaomaolv.Loop.JsonText
import Xiaomaolv.Swarm.OutcomeSize

/-!
# What a trajectory captures of a provider call

Each provider call of a run becomes a frame. The request is cut to a budget of bytes, each message charged with its
content and 48 bytes; the recorder counts the messages and measures their JSON, escapes included.

* `boundedReplayMessages`, `TrajectoryRun.frameDraft`: the draft of a call.
* `charged`, `window`: the newest messages that the budget holds; **`selectReplay_eq_window`**: these are captured.
* **`frame_recordable_iff`**: the draft is recorded exactly if these messages are few enough and their JSON is short
  enough, the heading of the run aside.
* **`drafts_recordable_iff`**: the calls of a run, one after another.
-/

namespace Xiaomaolv

/-! ## The draft -/

/-- The messages from the newest on, while the budget lasts, in this order. -/
def selectReplay (maxBytes : Nat) : Nat → List StoredMessage → List StoredMessage
  | _, [] => []
  | used, message :: rest =>
    let remaining := maxBytes - used
    if remaining < 64 then []
    else
      let content := truncateUtf8 message.content (remaining - 48)
      ⟨message.role, content⟩ :: selectReplay maxBytes (used + byteLen content + 48) rest

def boundedReplayMessages (messages : List StoredMessage) (maxBytes : Nat) : List StoredMessage :=
  let selected := (selectReplay maxBytes 2 messages.reverse).reverse
  if selected.isEmpty then [⟨.system, "[trajectory request omitted by capture budget]"⟩] else selected

/-- A run that has been started with its logger. -/
structure TrajectoryRun where
  id : String
  model : String
  providerCalls : UInt32 := 0

/-- The provider's fingerprint in a run's frames. -/
def fingerprint (model : String) : String := "model:" ++ model ++ ";seed:unknown;config:unavailable"

namespace TrajectoryRun

def frameDraft (run : TrajectoryRun) (messages : List StoredMessage) (requestWasJson : Bool) (response : String) :
    TrajectoryFrameDraft where
  trajectoryId := run.id
  callIndex := run.providerCalls
  model := run.model
  providerFingerprint := fingerprint run.model
  requestMessages := boundedReplayMessages messages (128 * 1024)
  requestWasJson := requestWasJson
  response := truncateUtf8 response (256 * 1024)
  capture := .truncated

/-- `log_provider_call`: the draft for the logger, and the run after it. -/
def logProviderCall (run : TrajectoryRun) (messages : List StoredMessage) (requestWasJson : Bool) (response : String) :
    TrajectoryFrameDraft × TrajectoryRun :=
  (run.frameDraft messages requestWasJson response,
    { run with providerCalls := if run.providerCalls = 0xFFFFFFFF then run.providerCalls else run.providerCalls + 1 })

/-- The heading of the run's frames is within its limits. -/
structure Headed (run : TrajectoryRun) : Prop where
  id : isBlank run.id = false ∧ byteLen run.id ≤ 160
  providerCalls : run.providerCalls ≤ 1024
  model : isBlank run.model = false ∧ byteLen run.model ≤ 200

end TrajectoryRun

/-! ## Cutting a text -/

theorem bytes_fitting_le : ∀ (maxBytes : Nat) (cs : List Char), bytes (fitting maxBytes cs) ≤ maxBytes
  | _, [] => Nat.zero_le _
  | maxBytes, c :: cs => by
    have hrest := bytes_fitting_le (maxBytes - c.utf8Size) cs
    rw [fitting]
    split_ifs
    · rw [bytes_cons]
      omega
    · exact Nat.zero_le _

theorem le_bytes_fitting : ∀ (maxBytes : Nat) (cs : List Char), maxBytes < bytes cs →
    maxBytes ≤ bytes (fitting maxBytes cs) + 3
  | _, [], h => absurd h (Nat.not_lt_zero _)
  | maxBytes, c :: cs, h => by
    have hsize := c.utf8Size_le_four
    rw [bytes_cons] at h
    rw [fitting]
    split_ifs with hfits
    · have hrest := le_bytes_fitting (maxBytes - c.utf8Size) cs (by omega)
      rw [bytes_cons]
      omega
    · omega

theorem byteLen_truncateUtf8_le (value : String) (maxBytes : Nat) : byteLen (truncateUtf8 value maxBytes) ≤ maxBytes := by
  rw [truncateUtf8]
  split_ifs with hfits
  · exact hfits
  · rw [← bytes_toList, String.toList_ofList]
    exact bytes_fitting_le maxBytes value.toList

theorem le_byteLen_truncateUtf8 {value : String} {maxBytes : Nat} (h : maxBytes < byteLen value) :
    maxBytes ≤ byteLen (truncateUtf8 value maxBytes) + 3 := by
  rw [truncateUtf8, if_neg (by omega), ← bytes_toList, String.toList_ofList]
  refine le_bytes_fitting maxBytes value.toList ?_
  rwa [bytes_toList]

/-! ## The window -/

/-- The bytes that the first `i` of the messages are charged. -/
def charged (newest : List StoredMessage) (i : Nat) : Nat :=
  ((newest.take i).map fun message => byteLen message.content + 48).sum

/-- The newest messages before which the budget has 64 bytes left, each cut to what is left of it. -/
def window (maxBytes used : Nat) (newest : List StoredMessage) : List StoredMessage :=
  (newest.zipIdx.filter fun p => used + charged newest p.2 + 64 ≤ maxBytes).map fun p =>
    ⟨p.1.role, truncateUtf8 p.1.content (maxBytes - (used + charged newest p.2) - 48)⟩

theorem charged_cons (message : StoredMessage) (rest : List StoredMessage) (i : Nat) :
    charged (message :: rest) (i + 1) = byteLen message.content + 48 + charged rest i := by
  rw [charged, List.take_succ_cons, List.map_cons, List.sum_cons, charged]

theorem charged_zero (newest : List StoredMessage) : charged newest 0 = 0 := by
  rw [charged, List.take_zero, List.map_nil, List.sum_nil]

theorem window_cons (maxBytes used : Nat) (message : StoredMessage) (rest : List StoredMessage)
    (h : used + 64 ≤ maxBytes) :
    window maxBytes used (message :: rest) =
      ⟨message.role, truncateUtf8 message.content (maxBytes - used - 48)⟩ ::
        window maxBytes (used + (byteLen message.content + 48)) rest := by
  have hshift : ∀ i, used + charged (message :: rest) (i + 1) =
      used + (byteLen message.content + 48) + charged rest i := by
    intro i
    rw [charged_cons]
    omega
  have hfirst : (decide (used + charged (message :: rest) 0 + 64 ≤ maxBytes)) = true := by
    rw [charged_zero]
    exact decide_eq_true h
  rw [window, List.zipIdx_cons, List.filter_cons, if_pos hfirst, List.map_cons, charged_zero, Nat.add_zero, window]
  refine congrArg _ ?_
  rw [Nat.zero_add, List.zipIdx_succ, List.filter_map, List.map_map]
  simp only [Function.comp_def, hshift]

theorem window_of_spent {maxBytes used : Nat} (h : maxBytes < used + 64) (newest : List StoredMessage) :
    window maxBytes used newest = [] := by
  rw [window, List.filter_eq_nil_iff.mpr, List.map_nil]
  intro p _
  simp only [decide_eq_true_eq]
  omega

theorem selectReplay_of_spent {maxBytes used : Nat} (h : maxBytes < used + 64) (newest : List StoredMessage) :
    selectReplay maxBytes used newest = [] := by
  cases newest with
  | nil => rfl
  | cons message rest => exact if_pos (by omega)

/-- **The loop captures the window.** A message that is cut spends the budget, so the bytes of the whole contents say
where the loop stops. -/
theorem selectReplay_eq_window (maxBytes : Nat) : ∀ (newest : List StoredMessage) (used : Nat),
    selectReplay maxBytes used newest = window maxBytes used newest
  | [], _ => rfl
  | message :: rest, used => by
    by_cases hspent : maxBytes < used + 64
    · rw [selectReplay_of_spent hspent, window_of_spent hspent]
    rw [window_cons maxBytes used message rest (by omega), selectReplay, if_neg (by omega)]
    refine congrArg _ ?_
    by_cases hfits : byteLen message.content ≤ maxBytes - used - 48
    · rw [truncateUtf8, if_pos hfits, Nat.add_assoc]
      exact selectReplay_eq_window maxBytes rest _
    · have hcut : maxBytes - used - 48 ≤ byteLen (truncateUtf8 message.content (maxBytes - used - 48)) + 3 :=
        le_byteLen_truncateUtf8 (by omega)
      rw [selectReplay_of_spent (by omega), window_of_spent (by omega)]

theorem lt_length_window {maxBytes : Nat} : ∀ {n : Nat} {newest : List StoredMessage} {used : Nat},
    n < (window maxBytes used newest).length ↔ n < newest.length ∧ used + charged newest n + 64 ≤ maxBytes
  | n, [], used => by simp only [window, List.zipIdx_nil, List.filter_nil, List.map_nil, List.length_nil,
      Nat.not_lt_zero, false_and]
  | n, message :: rest, used => by
    by_cases hspent : maxBytes < used + 64
    · rw [window_of_spent hspent, List.length_nil]
      omega
    rw [window_cons maxBytes used message rest (by omega), List.length_cons, List.length_cons]
    cases n with
    | zero =>
      rw [charged_zero]
      omega
    | succ n =>
      rw [Nat.add_lt_add_iff_right, lt_length_window, Nat.add_lt_add_iff_right, charged_cons]
      refine and_congr_right fun _ => ?_
      omega

/-! ## The request as JSON -/

/-- The bytes of the messages as a JSON array: each message with the comma or the bracket after it. -/
def requestLen (messages : List StoredMessage) : Nat :=
  1 + (messages.map fun message => 21 + jsonStringLen message.role.asStr + jsonStringLen message.content).sum

theorem requestLen_nil : requestLen [] = 1 := rfl

theorem requestLen_cons (role : MessageRole) (content : String) (messages : List StoredMessage) :
    requestLen (⟨role, content⟩ :: messages) =
      21 + jsonStringLen role.asStr + jsonStringLen content + requestLen messages := by
  rw [requestLen, List.map_cons, List.sum_cons, requestLen]
  dsimp only
  omega

theorem jsonLen_value (message : StoredMessage) :
    message.value.jsonLen = 20 + jsonStringLen message.role.asStr + jsonStringLen message.content := by
  have hkeys : jsonStringLen "role" = 6 ∧ jsonStringLen "content" = 9 := by decide
  rw [StoredMessage.value, Value.jsonLen_json, List.map_cons, List.map_cons, List.map_nil, List.sum_cons, List.sum_cons,
    List.sum_nil, Value.jsonLen_string, Value.jsonLen_string, hkeys.1, hkeys.2]
  omega

theorem jsonLen_request {messages : List StoredMessage} (h : messages ≠ []) :
    (Value.array (.ofList (messages.map StoredMessage.value))).jsonLen = requestLen messages := by
  have hrow : (fun message : StoredMessage => message.value.jsonLen + 1) =
      fun message => 21 + jsonStringLen message.role.asStr + jsonStringLen message.content := by
    funext message
    rw [jsonLen_value]
    omega
  obtain ⟨message, rest, rfl⟩ := List.exists_cons_of_ne_nil h
  rw [Value.jsonLen_array, List.map_map, Function.comp_def, hrow, requestLen, List.map_cons, List.sum_cons]
  omega

theorem requestLen_reverse (messages : List StoredMessage) : requestLen messages.reverse = requestLen messages := by
  rw [requestLen, List.map_reverse, List.sum_reverse, requestLen]

theorem boundedReplayMessages_eq (messages : List StoredMessage) {maxBytes : Nat} (h : 66 ≤ maxBytes) :
    boundedReplayMessages messages maxBytes =
      if messages = [] then [⟨.system, "[trajectory request omitted by capture budget]"⟩]
      else (window maxBytes 2 messages.reverse).reverse := by
  rw [boundedReplayMessages, selectReplay_eq_window]
  cases messages using List.reverseRecOn with
  | nil => rfl
  | append_singleton rest message =>
    rw [List.reverse_append, List.reverse_singleton, List.singleton_append,
      window_cons maxBytes 2 message rest.reverse (by omega), List.reverse_cons, if_neg (List.append_ne_nil_of_right_ne_nil
        rest (List.cons_ne_nil message [])), if_neg (by simp)]

theorem fingerprint_bounded {model : String} (h : byteLen model ≤ 200) :
    isBlank (fingerprint model) = false ∧ byteLen (fingerprint model) ≤ 300 := by
  have hstart : byteLen "model:" = 6 := rfl
  have hend : byteLen ";seed:unknown;config:unavailable" = 32 := rfl
  refine ⟨?_, ?_⟩
  · rw [isBlank, fingerprint, String.toList_append, String.toList_append, List.all_append, List.all_append]
    have hletter : "model:".toList.all isWhitespace = false := by decide
    rw [hletter, Bool.false_and, Bool.false_and]
  · unfold byteLen at *
    rw [fingerprint, String.utf8ByteSize_append, String.utf8ByteSize_append, hstart, hend]
    omega

/-- **The draft of a call can be recorded** exactly if the run has its heading within the limits, at most 256 messages
fit into the budget, and what fits is short enough as JSON. -/
theorem frame_recordable_iff (run : TrajectoryRun) (messages : List StoredMessage) (requestWasJson : Bool)
    (response : String) :
    (run.frameDraft messages requestWasJson response).validate = .ok () ↔
      run.Headed ∧ (messages.length ≤ 256 ∨ 131072 < charged messages.reverse 256 + 66) ∧
        requestLen (window 131072 2 messages.reverse) ≤ 131072 := by
  have hfields : (run.frameDraft messages requestWasJson response).validate = .ok () ↔
      run.Headed ∧ ((boundedReplayMessages messages 131072).isEmpty = false ∧
          (boundedReplayMessages messages 131072).length ≤ 256) ∧
        (Value.array (.ofList ((boundedReplayMessages messages 131072).map StoredMessage.value))).jsonLen ≤ 131072 := by
    simp only [TrajectoryFrameDraft.validate, ensure_bind_eq_ok, ensure_eq_ok, Bool.and_eq_true, Bool.not_eq_true',
      decide_eq_true_eq]
    constructor
    · rintro ⟨hid, hcalls, hmodel, -, hcount, hrequest, -⟩
      exact ⟨⟨hid, hcalls, hmodel⟩, hcount, hrequest⟩
    · rintro ⟨⟨hid, hcalls, hmodel⟩, hcount, hrequest⟩
      exact ⟨hid, hcalls, hmodel, fingerprint_bounded hmodel.2, hcount, hrequest,
        byteLen_truncateUtf8_le response 262144⟩
  rw [hfields, boundedReplayMessages_eq messages (by omega)]
  refine and_congr_right fun _ => ?_
  by_cases hnone : messages = []
  · subst hnone
    refine iff_of_true ⟨⟨rfl, Nat.le_of_ble_eq_true rfl⟩, by decide⟩ ⟨Or.inl (Nat.zero_le _), by decide⟩
  · have hlong : 256 < (window 131072 2 messages.reverse).length ↔ 256 < messages.length ∧
        2 + charged messages.reverse 256 + 64 ≤ 131072 := by
      rw [lt_length_window, List.length_reverse]
    have hne : window 131072 2 messages.reverse ≠ [] := by
      rw [← List.length_pos_iff, lt_length_window, List.length_reverse, charged_zero]
      exact ⟨List.length_pos_iff.mpr hnone, by omega⟩
    rw [if_neg hnone, jsonLen_request (mt List.reverse_eq_nil_iff.mp hne), List.length_reverse,
      requestLen_reverse, List.isEmpty_eq_false_iff]
    have hsome : (window 131072 2 messages.reverse).reverse ≠ [] := mt List.reverse_eq_nil_iff.mp hne
    constructor
    · rintro ⟨⟨-, hcount⟩, hrequest⟩
      exact ⟨by omega, hrequest⟩
    · rintro ⟨hcount, hrequest⟩
      exact ⟨⟨hsome, by omega⟩, hrequest⟩

/-- 257 messages of one letter are few bytes, but one message too many for a frame. -/
theorem frame_not_recordable :
    let run : TrajectoryRun := { id := "traj-1", model := "m" }
    run.Headed ∧ (run.frameDraft (List.replicate 257 ⟨.user, "a"⟩) false "").validate =
      .error "trajectory frame must contain 1..=256 request messages" :=
  ⟨⟨by decide, by decide, by decide⟩, by decide +kernel⟩

/-! ## The calls of a run -/

namespace TrajectoryRun

/-- The drafts of provider calls one after another. -/
def drafts (run : TrajectoryRun) : List (List StoredMessage × Bool × String) → List TrajectoryFrameDraft
  | [] => []
  | (messages, requestWasJson, response) :: calls =>
    let (draft, run') := run.logProviderCall messages requestWasJson response
    draft :: run'.drafts calls

/-- **Every call of a run is recorded** exactly if the messages of each are few and short enough, as long as the run's
id and model are within their limits and its calls number 1025 at most. -/
theorem drafts_recordable_iff {run : TrajectoryRun} {calls : List (List StoredMessage × Bool × String)}
    (hid : isBlank run.id = false ∧ byteLen run.id ≤ 160) (hmodel : isBlank run.model = false ∧ byteLen run.model ≤ 200)
    (hcalls : run.providerCalls.toNat + calls.length ≤ 1025) :
    (∀ draft ∈ run.drafts calls, draft.validate = .ok ()) ↔
      ∀ call ∈ calls, (call.1.length ≤ 256 ∨ 131072 < charged call.1.reverse 256 + 66) ∧
        requestLen (window 131072 2 call.1.reverse) ≤ 131072 := by
  induction calls generalizing run with
  | nil => exact iff_of_true (fun _ h => nomatch h) (fun _ h => nomatch h)
  | cons call calls ih =>
    obtain ⟨messages, requestWasJson, response⟩ := call
    rw [List.length_cons] at hcalls
    have hheaded : run.Headed := ⟨hid, UInt32.le_iff_toNat_le.mpr (show run.providerCalls.toNat ≤ 1024 by omega), hmodel⟩
    have hnext : run.providerCalls ≠ 0xFFFFFFFF := by
      intro h
      rw [h] at hcalls
      exact absurd hcalls (by change ¬ 4294967295 + _ ≤ _; omega)
    have hplus : (run.providerCalls + 1).toNat = run.providerCalls.toNat + 1 := by
      rw [UInt32.toNat_add, UInt32.toNat_one]
      omega
    rw [drafts, List.forall_mem_cons, List.forall_mem_cons]
    refine and_congr ((frame_recordable_iff run messages requestWasJson response).trans (and_iff_right hheaded)) ?_
    refine ih hid hmodel ?_
    change (if run.providerCalls = 0xFFFFFFFF then run.providerCalls else run.providerCalls + 1).toNat + _ ≤ _
    rw [if_neg hnext, hplus]
    omega

theorem drafts_recordable_pair :
    let run : TrajectoryRun := { id := "traj-1", model := "m" }
    ∀ draft ∈ run.drafts [([⟨.user, "a"⟩], false, "b"), ([⟨.user, "a"⟩, ⟨.assistant, "b"⟩], true, "c")],
      draft.validate = .ok () :=
  (drafts_recordable_iff ⟨by decide, by decide⟩ ⟨by decide, by decide⟩ (by decide)).mpr (by decide +kernel)

end TrajectoryRun

end Xiaomaolv
