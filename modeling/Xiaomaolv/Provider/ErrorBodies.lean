import Xiaomaolv.Loop.JsonText
import Xiaomaolv.Loop.Text
import Xiaomaolv.Provider.Stream

/-!
# The bodies of error replies

The provider looks into the body of an error reply for the signs of a rejected message shape, in its first 256 bytes,
and quotes it in its error, cut at a number of characters.

* `Inspectable`: the first 256 bytes can be looked into; **`isMessageShapeError_isSome_iff`**.
* `ProviderError.display`: the text of an error.
* **`calls_never_panic_iff`**: the calls to a server never panic exactly if its error bodies are inspectable.
-/

namespace Xiaomaolv

open Emitter

/-! ## Slices -/

/-- A slice succeeds exactly at the end of some characters. -/
theorem sliceTo_eq_some {n : Nat} {text start : List Char} :
    sliceTo n text = some start ↔ start <+: text ∧ bytes start = n := by
  induction text generalizing n start with
  | nil =>
    rw [List.prefix_nil]
    cases n with
    | zero =>
      rw [show sliceTo 0 [] = some [] from rfl, Option.some.injEq]
      constructor
      · rintro rfl
        exact ⟨rfl, rfl⟩
      · exact fun h => h.1.symm
    | succ n =>
      rw [show sliceTo (n + 1) [] = none from rfl]
      constructor
      · intro h
        cases h
      · rintro ⟨rfl, hbytes⟩
        cases hbytes
  | cons c text ih =>
    cases n with
    | zero =>
      rw [show sliceTo 0 (c :: text) = some [] from rfl, Option.some.injEq]
      constructor
      · rintro rfl
        exact ⟨List.nil_prefix, rfl⟩
      · rintro ⟨-, hbytes⟩
        cases start with
        | nil => rfl
        | cons c start =>
          have hsize := c.utf8Size_pos
          rw [bytes_cons] at hbytes
          omega
    | succ n =>
      have hstep : sliceTo (n + 1) (c :: text) =
          if c.utf8Size ≤ n + 1 then (sliceTo (n + 1 - c.utf8Size) text).map (c :: ·) else none := rfl
      rw [hstep]
      split_ifs with hfits
      · rw [Option.map_eq_some_iff]
        constructor
        · rintro ⟨rest, hrest, rfl⟩
          obtain ⟨hpre, hbytes⟩ := ih.mp hrest
          refine ⟨List.cons_prefix_cons.mpr ⟨rfl, hpre⟩, ?_⟩
          rw [bytes_cons]
          omega
        · rintro ⟨hpre, hbytes⟩
          cases start with
          | nil => cases hbytes
          | cons d start =>
            obtain ⟨rfl, hrest⟩ := List.cons_prefix_cons.mp hpre
            rw [bytes_cons] at hbytes
            exact ⟨start, ih.mpr ⟨hrest, by omega⟩, rfl⟩
      · constructor
        · intro h
          cases h
        · rintro ⟨hpre, hbytes⟩
          cases start with
          | nil => cases hbytes
          | cons d start =>
            obtain ⟨rfl, -⟩ := List.cons_prefix_cons.mp hpre
            rw [bytes_cons] at hbytes
            omega

/-- The body is not looked into, or is short, or a character ends at its byte 256. -/
def Inspectable (status : Nat) (body : String) : Prop :=
  status ≠ 400 ∨ byteLen body ≤ 256 ∨ ∃ start, start <+: body.toList ∧ bytes start = 256

/-- **The check on the shape of messages panics** exactly for the other bodies. -/
theorem isMessageShapeError_isSome_iff (status : Nat) (body : String) :
    isMessageShapeError status body ≠ none ↔ Inspectable status body := by
  rw [isMessageShapeError, Inspectable]
  split_ifs with hstatus
  · exact iff_of_true (by simp) (Or.inl hstatus)
  · rw [or_iff_right hstatus, ne_eq, Option.map_eq_none_iff, ← ne_eq, Option.ne_none_iff_exists']
    simp only [sliceTo_eq_some]
    by_cases hshort : byteLen body ≤ 256
    · refine iff_of_true ⟨body.toList, List.prefix_rfl, ?_⟩ (Or.inl hshort)
      rw [bytes_toList]
      exact (Nat.min_eq_left hshort).symm
    · rw [or_iff_right hshort, show min body.utf8ByteSize 256 = 256 from Nat.min_eq_right (by unfold byteLen at hshort; omega)]

/-! ## The text of an error -/

namespace ProviderError

def errorBodyMaxChars : Nat := 512

/-- `truncate_chars` of the provider. -/
def truncateChars (value : String) (maxChars : Nat) : String :=
  if charCount value ≤ maxChars then value else takeChars maxChars value ++ "...(truncated)"

def formatErrorBodySuffix (body : String) : String :=
  let trimmed := trim body
  if trimmed.isEmpty then "" else ": " ++ truncateChars trimmed errorBodyMaxChars

/-- The text of the error. -/
def display : ProviderError → String
  | .http status body => "provider returned status " ++ toString status ++ formatErrorBodySuffix body
  | .other message => message

end ProviderError

/-! ## Calls -/

section

variable {ω : Type} {web : Web ω} {codec : Codec} {p : OpenAiCompatibleProvider} {messages : List StoredMessage}
  {responseFormat : Option ResponseFormat}

/-- The call never panics, whatever its sink answers. -/
abbrev NeverPanics {α : Type} (call : Call ω α) : Prop := Op.Never .panicked call

/-- The error replies of the server have these statuses and bodies. -/
def Web.Rejects (web : Web ω) (codec : Codec) (rejections : Nat → String → Prop) : Prop :=
  ∀ request w status body, (web.send request w).1 = .response status body → isSuccess status = false →
    rejections status (codec.text body)

theorem neverPanics_raise {α : Type} (e : ProviderError) : NeverPanics (raise e : Call ω α) :=
  Op.never_fail (by simp)

theorem neverPanics_onDelta (delta : String) : NeverPanics (onDelta delta : Call ω Unit) := by
  intro w items w' h
  cases h with
  | accepted h => cases (emits_done.mp h).2
  | refused e h => cases (emits_done.mp h).2

theorem NeverPanics.attempt {α : Type} {call : Call ω α} (h : NeverPanics call) : NeverPanics (attempt call) := by
  intro w items w' hr
  obtain ⟨l, ⟨(e | _) | a, w₁⟩, l', hl, hrest, -⟩ := Emitter.emits_bind.mp hr
  · cases (emits_done.mp hrest).2
  · exact h _ _ _ hl
  · cases (emits_done.mp hrest).2

open OpenAiCompatibleProvider

theorem neverPanics_send {α : Type} {stream : Bool} {f : Reply → Call ω α}
    (h : ∀ reply, (∃ request w, (web.send request w).1 = reply) → NeverPanics (f reply)) :
    NeverPanics (send web p messages responseFormat stream >>= f) := by
  refine Op.Never.bind ?_ ?_
  · intro w items w' hr
    cases (emits_done.mp hr).2
  · intro w items reply w' hr
    obtain ⟨-, he⟩ := emits_done.mp hr
    cases he
    exact h _ ⟨_, _, rfl⟩

theorem neverPanics_readPayloads (assembled : String) (payloads : List String) :
    NeverPanics (readPayloads (ω := ω) codec assembled payloads) := by
  induction payloads generalizing assembled with
  | nil => exact Op.never_pure _ _
  | cons payload payloads ih =>
    rw [readPayloads]
    split
    · exact neverPanics_raise _
    · exact ih _
    · exact (neverPanics_onDelta _).bind fun _ _ _ _ _ => ih _

theorem neverPanics_readStream (body : Body) : NeverPanics (readStream (ω := ω) codec body) := by
  rw [readStream_eq]
  refine (neverPanics_readPayloads "" body.payloads).bind fun _ _ _ _ _ => ?_
  split_ifs
  · exact neverPanics_raise _
  · exact Op.never_pure _ _

theorem neverPanics_tryCompat {status : Nat} {body : String} (h : Inspectable status body) :
    NeverPanics (tryCompatNonstreamRecovery web codec p messages status body responseFormat) := by
  rw [tryCompatNonstreamRecovery]
  split
  · next hnone => exact absurd hnone ((isMessageShapeError_isSome_iff status body).mpr h)
  · exact Op.never_pure _ _
  · dsimp only
    split_ifs
    · exact Op.never_pure _ _
    · refine neverPanics_send fun reply _ => ?_
      cases reply with
      | failed message => exact Op.never_pure _ _
      | response status body =>
        dsimp only
        split_ifs <;> exact Op.never_pure _ _

section

variable {rejections : Nat → String → Prop} (hweb : web.Rejects codec rejections)
  (hbodies : ∀ status body, rejections status body → Inspectable status body)

include hweb hbodies

theorem neverPanics_completeAttempts (attempts : Nat) (lastError : Option ProviderError) :
    NeverPanics (completeAttempts web codec p messages responseFormat attempts lastError) := by
  induction attempts generalizing lastError with
  | zero => exact neverPanics_raise _
  | succ attempts ih =>
    rw [completeAttempts]
    refine neverPanics_send fun reply hreply => ?_
    cases reply with
    | failed message => exact ih _
    | response status body =>
      dsimp only
      split_ifs with hsuccess
      · split
        · exact neverPanics_raise _
        · exact neverPanics_raise _
        · exact Op.never_pure _ _
      · obtain ⟨request, w, hsent⟩ := hreply
        have hrejected := hweb request w status body hsent (by simpa using hsuccess)
        refine (neverPanics_tryCompat (hbodies status _ hrejected)).bind fun _ _ recovered _ _ => ?_
        cases recovered with
        | none => exact ih _
        | some text => exact Op.never_pure _ _

theorem neverPanics_complete (req : CompletionRequest) : NeverPanics (p.complete web codec req) :=
  neverPanics_completeAttempts hweb hbodies _ _

omit hweb hbodies in
theorem neverPanics_streamAttempts (attempts : Nat) (lastError : Option ProviderError) :
    NeverPanics (streamAttempts web codec p messages responseFormat attempts lastError) := by
  induction attempts generalizing lastError with
  | zero => exact Op.never_pure _ _
  | succ attempts ih =>
    rw [streamAttempts]
    refine neverPanics_send fun reply _ => ?_
    cases reply with
    | failed message => exact ih _
    | response status body =>
      dsimp only
      split_ifs
      · refine (neverPanics_readStream body).bind fun _ _ assembled _ _ => ?_
        split_ifs
        · exact ih _
        · exact Op.never_pure _ _
      · exact ih _

theorem neverPanics_completeStream (req : CompletionRequest) : NeverPanics (p.completeStream web codec req) := by
  rw [completeStream]
  refine (neverPanics_streamAttempts _ _).bind fun _ _ reply _ _ => ?_
  cases reply with
  | ok text => exact Op.never_pure _ _
  | error lastError =>
    refine (NeverPanics.attempt (neverPanics_complete hweb hbodies _)).bind fun _ _ fallback _ _ => ?_
    cases fallback with
    | error e => exact neverPanics_raise _
    | ok text =>
      dsimp only
      split_ifs
      · exact Op.never_pure _ _
      · exact (neverPanics_onDelta text).bind fun _ _ _ _ _ => Op.never_pure _ _

end

end

/-! ## A server that rejects every request -/

/-- The server answers every request with this error. -/
def rejecting (status : Nat) (body : String) : Web Unit where
  send _ _ := (.response status ⟨[Utf8.encode body.toList], false⟩, ())

/-- A codec that reads the bodies of errors as UTF-8. -/
def utf8Codec : Codec where
  parseEvent _ := none
  parseResponse _ := none
  bodyText bytes := String.ofList (Utf8.decodeLossy bytes)

theorem text_rejecting (body : String) : utf8Codec.text ⟨[Utf8.encode body.toList], false⟩ = body := by
  change String.ofList (Utf8.decodeLossy [Utf8.encode body.toList].flatten) = body
  rw [List.flatten_singleton, Utf8.decodeLossy_encode, String.ofList_toList]

theorem rejects_rejecting {status : Nat} {body : String} :
    (rejecting status body).Rejects utf8Codec fun status' body' => status' = status ∧ body' = body := by
  intro request w status' body' hsent _
  obtain ⟨rfl, rfl⟩ := Reply.response.inj hsent
  exact ⟨rfl, text_rejecting body⟩

theorem retryAttempts_eq_succ (maxRetries : Nat) : ∃ attempts, retryAttempts maxRetries = attempts + 1 :=
  Nat.exists_eq_add_one_of_ne_zero (by unfold retryAttempts; omega)

open OpenAiCompatibleProvider

section

variable {status : Nat} {body : String} (h : ¬ Inspectable status body) (p : OpenAiCompatibleProvider)

include h

theorem status_of_not_inspectable : status = 400 := by
  by_contra hne
  exact h (Or.inl hne)

theorem tryCompat_rejecting (messages : List StoredMessage) (responseFormat : Option ResponseFormat) :
    tryCompatNonstreamRecovery (rejecting status body) utf8Codec p messages status body responseFormat =
      Op.fail .panicked := by
  have hnone : isMessageShapeError status body = none := by
    by_contra hsome
    exact h ((isMessageShapeError_isSome_iff status body).mp hsome)
  rw [tryCompatNonstreamRecovery, hnone]

theorem not_isSuccess_of_not_inspectable : isSuccess status = false := by
  rw [status_of_not_inspectable h]
  rfl

theorem complete_rejecting (req : CompletionRequest) :
    p.complete (rejecting status body) utf8Codec req () = .done (.error .panicked, ()) := by
  obtain ⟨attempts, hattempts⟩ := retryAttempts_eq_succ p.maxRetries
  rw [complete, hattempts, completeAttempts,
    Op.bind_done_ok (show send (rejecting status body) p _ _ _ () =
      .done (.ok (.response status ⟨[Utf8.encode body.toList], false⟩), ()) from rfl)]
  dsimp only
  rw [if_neg (by rw [not_isSuccess_of_not_inspectable h]; exact Bool.false_ne_true), text_rejecting,
    tryCompat_rejecting h]
  rfl

theorem completeStream_rejecting (req : CompletionRequest) :
    p.completeStream (rejecting status body) utf8Codec req () = .done (.error .panicked, ()) := by
  have hattempts : ∀ attempts messages responseFormat lastError, ∃ lastError',
      streamAttempts (rejecting status body) utf8Codec p messages responseFormat attempts lastError () =
        .done (.ok (.error lastError'), ()) := by
    intro attempts messages responseFormat
    induction attempts with
    | zero => exact fun lastError => ⟨lastError, rfl⟩
    | succ attempts ih =>
      intro lastError
      obtain ⟨lastError', hrest⟩ := ih (some (.http status body))
      refine ⟨lastError', ?_⟩
      rw [streamAttempts, Op.bind_done_ok (show send (rejecting status body) p _ _ _ () =
        .done (.ok (.response status ⟨[Utf8.encode body.toList], false⟩), ()) from rfl)]
      dsimp only
      rw [if_neg (by rw [not_isSuccess_of_not_inspectable h]; exact Bool.false_ne_true), text_rejecting, hrest]
  obtain ⟨lastError, hstream⟩ := hattempts (retryAttempts p.maxRetries) (normalizeMessages req.messages)
    req.responseFormat none
  rw [completeStream, Op.bind_done_ok hstream]
  dsimp only
  rw [streamFallback]
  refine Op.bind_done_error ?_
  rw [attempt, complete_rejecting h]
  rfl

end

/-- **Calls to a server never panic** exactly if the bodies of its errors can be looked into: so it is for the check on
the shape of messages, for calls without streaming and for streamed calls. -/
theorem calls_never_panic_iff (rejections : Nat → String → Prop) :
    ((∀ status body, rejections status body → isMessageShapeError status body ≠ none) ↔
      ∀ status body, rejections status body → Inspectable status body) ∧
    ((∀ (ω : Type) (web : Web ω) codec (p : OpenAiCompatibleProvider) req, web.Rejects codec rejections →
        NeverPanics (p.complete web codec req)) ↔
      ∀ status body, rejections status body → Inspectable status body) ∧
    ((∀ (ω : Type) (web : Web ω) codec (p : OpenAiCompatibleProvider) req, web.Rejects codec rejections →
        NeverPanics (p.completeStream web codec req)) ↔
      ∀ status body, rejections status body → Inspectable status body) := by
  have hrejects : ∀ {status body}, rejections status body →
      (rejecting status body).Rejects utf8Codec rejections := by
    intro status body hin request w status' body' hsent hfailed
    obtain ⟨rfl, hbody⟩ := rejects_rejecting request w status' body' hsent hfailed
    rwa [hbody]
  refine ⟨?_, ⟨?_, ?_⟩, ⟨?_, ?_⟩⟩
  · exact forall₂_congr fun status body => imp_congr_right fun _ => isMessageShapeError_isSome_iff status body
  · intro hsafe status body hin
    by_contra hbad
    have hcall := hsafe Unit _ _ ⟨"", "", "", 0, 0⟩ ⟨[], none⟩ (hrejects hin) () [] ()
    rw [Op.Emits, complete_rejecting hbad] at hcall
    exact hcall (.done _)
  · intro hbodies ω web codec p req hweb
    exact neverPanics_complete hweb hbodies req
  · intro hsafe status body hin
    by_contra hbad
    have hcall := hsafe Unit _ _ ⟨"", "", "", 0, 0⟩ ⟨[], none⟩ (hrejects hin) () [] ()
    rw [Op.Emits, completeStream_rejecting hbad] at hcall
    exact hcall (.done _)
  · intro hbodies ω web codec p req hweb
    exact neverPanics_completeStream hweb hbodies req

/-- An error of 86 Chinese characters: byte 256 is inside the last one. -/
def wideError : String := String.ofList (List.replicate 86 '错')

/-- The check and a call panic at such an error. -/
theorem wideError_panics : isMessageShapeError 400 wideError = none ∧
    ¬ NeverPanics (OpenAiCompatibleProvider.complete (rejecting 400 wideError) utf8Codec ⟨"", "", "", 0, 0⟩
      ⟨[⟨.user, "hi"⟩], none⟩) := by
  have hnone : isMessageShapeError 400 wideError = none := by decide +kernel
  have hbad : ¬ Inspectable 400 wideError := fun h => (isMessageShapeError_isSome_iff 400 wideError).mpr h hnone
  refine ⟨hnone, fun hsafe => hsafe () [] () ?_⟩
  rw [Op.Emits, complete_rejecting hbad]
  exact .done _

end Xiaomaolv
