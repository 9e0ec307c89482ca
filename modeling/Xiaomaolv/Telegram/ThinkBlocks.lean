import Xiaomaolv.Telegram.Markdown

/-!
# Think blocks never reach the chat

* `ThinkReply`: plain texts with think blocks between them, the last of which may be unterminated.
* **`splitThinks_reply`**: the loop over the tags separates the blocks from the plain texts.
* **`telegramSource_reply_iff`**: exactly the plain texts are rendered if and only if there is no block, or one
  that says something.
* `telegramSource_of_plain`: a text without a think tag is its own source.
-/

namespace Xiaomaolv

/-- Neither of the tags stands in the text. -/
def Tagless (text : List Char) : Prop := ¬ "<think>".toList <:+: text ∧ ¬ "</think>".toList <:+: text

instance (text : List Char) : Decidable (Tagless text) := inferInstanceAs (Decidable (_ ∧ _))

/-- A text without tags. -/
abbrev TaglessText : Type := { text : List Char // Tagless text }

/-- A reply: plain texts, each with the block that comes behind it, a last plain text, and the text of a block
that is not terminated. Plain texts that follow one another are one, and between two blocks there may be an empty
one. -/
structure ThinkReply where
  segments : List (TaglessText × TaglessText)
  last : TaglessText
  unterminated : Option TaglessText

namespace ThinkReply

def segmentText (segment : TaglessText × TaglessText) : List Char :=
  segment.1.val ++ "<think>".toList ++ (segment.2.val ++ "</think>".toList)

def unterminatedText (unterminated : Option TaglessText) : List Char :=
  unterminated.elim [] fun think => "<think>".toList ++ think.val

def text (reply : ThinkReply) : List Char :=
  reply.segments.flatMap segmentText ++ (reply.last.val ++ unterminatedText reply.unterminated)

/-- The plain texts, one behind the other. -/
def plain (reply : ThinkReply) : List Char :=
  reply.segments.flatMap (fun segment => segment.1.val) ++ reply.last.val

/-- The texts of the blocks. -/
def thinks (reply : ThinkReply) : List (List Char) :=
  reply.segments.map (fun segment => segment.2.val) ++ (reply.unterminated.map Subtype.val).toList

end ThinkReply

open ThinkReply

/-! ## The loop over the tags -/

theorem splitOnce_open {text after : List Char} (h : Tagless text) :
    splitOnce "<think>".toList (text ++ "<think>".toList ++ after) = some (text, after) :=
  splitOnce_append (by decide) h.1

theorem splitOnce_close {text after : List Char} (h : Tagless text) :
    splitOnce "</think>".toList (text ++ "</think>".toList ++ after) = some (text, after) :=
  splitOnce_append (by decide) h.2

theorem splitThinks_segment (segment : TaglessText × TaglessText) (fuel : Nat) (rest : List Char) :
    splitThinks (fuel + 1) (segmentText segment ++ rest) =
      (String.ofList segment.2.val :: (splitThinks fuel rest).1, segment.1.val ++ (splitThinks fuel rest).2) := by
  rw [splitThinks, segmentText, List.append_assoc, splitOnce_open segment.1.property]
  dsimp only
  rw [splitOnce_close segment.2.property]

theorem splitThinks_last (last : TaglessText) (unterminated : Option TaglessText) {fuel : Nat}
    (hfuel : unterminated.toList.length ≤ fuel) :
    splitThinks fuel (last.val ++ unterminatedText unterminated) =
      ((unterminated.map Subtype.val).toList.map String.ofList, last.val) := by
  cases unterminated with
  | none =>
    rw [unterminatedText, Option.elim_none, List.append_nil]
    cases fuel with
    | zero => rfl
    | succ fuel =>
      rw [splitThinks, splitOnce_eq_none (by decide) last.property.1]
      rfl
  | some think =>
    cases fuel with
    | zero => cases hfuel
    | succ fuel =>
      rw [unterminatedText, Option.elim_some, ← List.append_assoc, splitThinks, splitOnce_open last.property]
      dsimp only
      rw [splitOnce_eq_none (by decide) think.property.2]
      rfl

/-- **The loop separates the blocks from the plain texts.** -/
theorem splitThinks_reply (reply : ThinkReply) {fuel : Nat} (hfuel : reply.thinks.length ≤ fuel) :
    splitThinks fuel reply.text = (reply.thinks.map String.ofList, reply.plain) := by
  obtain ⟨segments, last, unterminated⟩ := reply
  simp only [thinks, text, plain, List.length_append, List.length_map] at hfuel ⊢
  induction segments generalizing fuel with
  | nil =>
    rw [List.flatMap_nil, List.flatMap_nil, List.nil_append, List.nil_append, List.map_nil, List.nil_append]
    have hlast : unterminated.toList.length ≤ fuel := by
      cases unterminated with
      | none => exact Nat.zero_le _
      | some think => simpa using hfuel
    exact splitThinks_last last unterminated hlast
  | cons segment segments ih =>
    rw [List.length_cons] at hfuel
    obtain ⟨fuel, rfl⟩ : ∃ k, fuel = k + 1 := ⟨fuel - 1, by omega⟩
    rw [List.flatMap_cons, List.append_assoc, splitThinks_segment, ih (by omega), List.map_cons, List.cons_append,
      List.map_cons, List.flatMap_cons, List.append_assoc]

theorem length_thinks_le (reply : ThinkReply) : reply.thinks.length ≤ reply.text.length := by
  obtain ⟨segments, last, unterminated⟩ := reply
  simp only [thinks, text, List.length_append, List.length_map]
  have hlast : (unterminated.map Subtype.val).toList.length ≤ (unterminatedText unterminated).length := by
    cases unterminated with
    | none => exact Nat.le_refl _
    | some think =>
      have htag : 1 ≤ "<think>".toList.length := by decide
      rw [unterminatedText, Option.elim_some, List.length_append]
      exact Nat.le_add_right_of_le htag
  have hsegments : segments.length ≤ (segments.flatMap segmentText).length := by
    induction segments with
    | nil => exact Nat.le_refl _
    | cons segment segments ih =>
      have hpos : 1 ≤ (segmentText segment).length := by
        rw [segmentText, List.length_append, List.length_append]
        have htag : 1 ≤ "<think>".toList.length := by decide
        omega
      rw [List.flatMap_cons, List.length_append, List.length_cons]
      omega
  omega

theorem splitThinkAndBody_reply (reply : ThinkReply) : splitThinkAndBody (String.ofList reply.text) =
    ("\n\n".intercalate (reply.thinks.map String.ofList), String.ofList reply.plain) := by
  rw [splitThinkAndBody, charCount, String.toList_ofList, splitThinks_reply reply (length_thinks_le reply)]

/-! ## The branch that the renderer takes -/

theorem isBlank_intercalate (thinks : List String) :
    isBlank ("\n\n".intercalate thinks) = true ↔ ∀ think ∈ thinks, isBlank think = true := by
  induction thinks with
  | nil => exact ⟨fun _ _ h => (nomatch h), fun _ => rfl⟩
  | cons think thinks ih =>
    rw [List.forall_mem_cons, ← ih]
    cases thinks with
    | nil => simp [isBlank]
    | cons next thinks =>
      rw [String.intercalate_cons_cons]
      simp only [isBlank, String.toList_append, List.all_append, Bool.and_eq_true]
      constructor
      · exact fun ⟨⟨hthink, _⟩, hrest⟩ => ⟨hthink, hrest⟩
      · exact fun ⟨hthink, hrest⟩ => ⟨⟨hthink, by decide⟩, hrest⟩

theorem telegramSource_reply (reply : ThinkReply) : telegramSource (String.ofList reply.text) =
    if ∀ think ∈ reply.thinks, isBlank (String.ofList think) = true then trim (String.ofList reply.text)
    else trim (String.ofList reply.plain) := by
  rw [telegramSource, splitThinkAndBody_reply]
  dsimp only
  congr 1
  rw [isBlank_intercalate, List.forall_mem_map]

/-! ## What is rendered -/

theorem count_plain_lt (reply : ThinkReply) (h : reply.thinks ≠ []) : reply.plain.count '<' < reply.text.count '<' := by
  obtain ⟨segments, last, unterminated⟩ := reply
  have hopen : "<think>".toList.count '<' = 1 := by decide
  have hsegments : (segments.flatMap fun segment => segment.1.val).count '<' + segments.length ≤
      (segments.flatMap segmentText).count '<' := by
    clear h
    induction segments with
    | nil => exact Nat.le_refl _
    | cons segment segments ih =>
      simp only [List.flatMap_cons, List.count_append, segmentText, List.length_cons, hopen]
      omega
  have hlast : unterminated.toList.length ≤ (unterminatedText unterminated).count '<' := by
    cases unterminated with
    | none => exact Nat.le_refl _
    | some think =>
      rw [unterminatedText, Option.elim_some, List.count_append, hopen]
      exact Nat.le_add_right 1 _
  have hpos : 0 < segments.length + unterminated.toList.length := by
    by_contra hzero
    obtain rfl : segments = [] := List.length_eq_zero_iff.mp (by omega)
    have hnone : unterminated.toList = [] := List.length_eq_zero_iff.mp (by omega)
    obtain rfl : unterminated = none := by simpa using hnone
    exact h rfl
  simp only [text, plain, List.count_append]
  omega

/-- **Exactly the plain texts are rendered** if and only if there is no block, or one that says something. -/
theorem source_eq_plain_iff (reply : ThinkReply) :
    telegramSource (String.ofList reply.text) = trim (String.ofList reply.plain) ↔
      (reply.thinks = [] ∨ ∃ think ∈ reply.thinks, isBlank (String.ofList think) = false) := by
  rw [telegramSource_reply]
  split_ifs with hblank
  · constructor
    · intro h
      refine .inl ?_
      by_contra hne
      have hcount := congrArg (fun s => s.toList.count '<') h
      rw [count_trim (by decide), count_trim (by decide), String.toList_ofList, String.toList_ofList] at hcount
      exact absurd hcount (count_plain_lt reply hne).ne'
    · rintro (hnone | ⟨think, hmem, hsays⟩)
      · obtain ⟨segments, last, unterminated⟩ := reply
        obtain ⟨hsegments, hend⟩ := List.append_eq_nil_iff.mp hnone
        obtain rfl : segments = [] := List.map_eq_nil_iff.mp hsegments
        obtain rfl : unterminated = none := by simpa using hend
        rw [text, plain, unterminatedText, Option.elim_none, List.append_nil]
        rfl
      · rw [hblank think hmem] at hsays
        cases hsays
  · refine ⟨fun _ => .inr ?_, fun _ => rfl⟩
    push Not at hblank
    obtain ⟨think, hmem, hsays⟩ := hblank
    exact ⟨think, hmem, Bool.eq_false_iff.mpr hsays⟩

theorem tagless_trim_iff (text : List Char) : Tagless (trim (String.ofList text)).toList ↔ Tagless text := by
  have hends : ∀ tag ∈ ["<think>".toList, "</think>".toList], tag ≠ [] ∧
      (∀ c ∈ tag.head?, isWhitespace c = false) ∧ ∀ c ∈ tag.getLast?, isWhitespace c = false := by decide
  have hiff : ∀ tag ∈ ["<think>".toList, "</think>".toList],
      (tag <:+: (trim (String.ofList text)).toList ↔ tag <:+: text) := by
    intro tag htag
    rw [infix_trim_iff (hends tag htag).1 (hends tag htag).2, String.toList_ofList]
  rw [Tagless, hiff _ List.mem_cons_self, hiff _ (List.mem_cons_of_mem _ List.mem_cons_self)]
  rfl

/-- **Reasoning stays out of the chat**: exactly the plain texts are rendered if and only if there is no block, or
one that says something; then the source has no tag if and only if the plain texts together make none. -/
theorem telegramSource_reply_iff (reply : ThinkReply) :
    (telegramSource (String.ofList reply.text) = trim (String.ofList reply.plain) ↔
      (reply.thinks = [] ∨ ∃ think ∈ reply.thinks, isBlank (String.ofList think) = false)) ∧
    (telegramSource (String.ofList reply.text) = trim (String.ofList reply.plain) ∧
        Tagless (telegramSource (String.ofList reply.text)).toList ↔
      (reply.thinks = [] ∨ ∃ think ∈ reply.thinks, isBlank (String.ofList think) = false) ∧ Tagless reply.plain) := by
  refine ⟨source_eq_plain_iff reply, ?_⟩
  rw [← source_eq_plain_iff reply]
  refine and_congr_right fun hsource => ?_
  rw [hsource, tagless_trim_iff]

theorem tagless_of_not_mem {text : List Char} (h : '<' ∉ text) : Tagless text := by
  refine ⟨fun hin => h (hin.subset ?_), fun hin => h (hin.subset ?_)⟩
  · decide
  · decide

theorem telegramSource_of_plain {text : List Char} (h : Tagless text) :
    telegramSource (String.ofList text) = trim (String.ofList text) := by
  have htext : (ThinkReply.mk [] ⟨text, h⟩ none).text = text := List.append_nil text
  have hplain : (ThinkReply.mk [] ⟨text, h⟩ none).plain = text := rfl
  have hsource := (source_eq_plain_iff (ThinkReply.mk [] ⟨text, h⟩ none)).mpr (.inl rfl)
  rwa [htext, hplain] at hsource

/-- A model that does not reason may still write an empty block. -/
def blankReply : ThinkReply where
  segments := [(⟨[], by decide⟩, ⟨"\n\n".toList, by decide⟩)]
  last := ⟨"\n\nHello".toList, by decide⟩
  unterminated := none

theorem blankReply_leaks : ¬ ∀ reply : ThinkReply,
    telegramSource (String.ofList reply.text) = trim (String.ofList reply.plain) ∧
      Tagless (telegramSource (String.ofList reply.text)).toList := by
  intro h
  have hsource := (h blankReply).1
  revert hsource
  decide +kernel

end Xiaomaolv
