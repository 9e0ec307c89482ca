import Xiaomaolv.Lib.Decimal
import Xiaomaolv.Telegram.MarkdownV2
import Xiaomaolv.Telegram.ThinkBlocks

/-!
# What the renderer writes is well formed, and where its cuts are

* `WellNested`: the events of a text, each tag with its end.
* `Balanced`, `Fenced`: what the renderer has written, outside of a code block and in one; one lemma for each
  operation.
* **`wellFormed_render`**: the rendering of a text is well formed.
* **`rendered_parts_iff`**: the parts of a reply are well formed, each by itself, if and only if no cut of the
  rendering of a chunk falls inside an entity, a code span, a fence, a link destination or an escape.
* `rendered_parts_broken`: a reply whose first part ends with a backslash.
-/

namespace Xiaomaolv

open MarkdownV2

/-! ## Well-nested events -/

def MarkdownTag.tagEnd : MarkdownTag → MarkdownTagEnd
  | .paragraph => .paragraph
  | .heading => .heading
  | .strong => .strong
  | .emphasis => .emphasis
  | .strikethrough => .strikethrough
  | .codeBlock _ => .codeBlock
  | .list _ => .list
  | .item => .item
  | .link _ => .link
  | .blockQuote => .blockQuote
  | .other => .other

def MarkdownTag.isCodeBlock : MarkdownTag → Bool
  | .codeBlock _ => true
  | _ => false

/-- An event that is no tag and no end of one; a code span is not empty. -/
def MarkdownEvent.IsLeaf : MarkdownEvent → Prop
  | .start _ | .finish _ => False
  | .code span => span ≠ ""
  | _ => True

/-- The events that `pulldown_cmark` reads in a text: every tag has its end, and a code block holds texts only. -/
inductive WellNested : List MarkdownEvent → Prop where
  | nil : WellNested []
  | leaf {event rest} (hleaf : event.IsLeaf) (hrest : WellNested rest) : WellNested (event :: rest)
  | codeBlock {texts : List String} {rest} (kind) (hrest : WellNested rest) :
      WellNested (.start (.codeBlock kind) :: (texts.map .text ++ .finish .codeBlock :: rest))
  | element {tag : MarkdownTag} {inner rest} (htag : tag.isCodeBlock = false) (hinner : WellNested inner)
      (hrest : WellNested rest) : WellNested (.start tag :: (inner ++ .finish tag.tagEnd :: rest))

/-! ## The operations of the renderer -/

/-- Outside of a code block, with these entities open. -/
structure Balanced (s : MarkdownRender) (opened : List Char) : Prop where
  inCodeBlock : s.inCodeBlock = false
  scan : ∃ front, markdownV2.scan markdownV2.start s.out = some ⟨.text, opened, front⟩ ∧
    (s.lineStart = true → front = true)

/-- In a code block. -/
structure Fenced (s : MarkdownRender) (opened : List Char) : Prop where
  inCodeBlock : s.inCodeBlock = true
  scan : markdownV2.scan markdownV2.start s.out = some ⟨.fence, opened, false⟩

variable {s : MarkdownRender} {opened opened' : List Char} {text : List Char}

theorem exists_of_endsWith {text suffix : List Char} (h : endsWith text suffix = true) : ∃ before, text = before ++ suffix := by
  obtain ⟨before, hbefore⟩ := List.isSuffixOf_iff_suffix.mp h
  exact ⟨before, hbefore.symm⟩

theorem front_of_newline {start : ScanState} {front : Bool}
    (h : markdownV2.scan start (text ++ ['\n']) = some ⟨.text, opened, front⟩) : front = true := by
  obtain ⟨⟨mode, opened', f⟩, -, hlast⟩ := Scanner.scan_append_eq_some.mp h
  rw [scan_singleton] at hlast
  obtain ⟨hmode, -⟩ := step_blank (by decide) hlast
  obtain rfl : mode = .text := hmode
  cases hlast
  rfl

theorem needsMarkdownV2Escape_iff {c : Char} : needsMarkdownV2Escape c = true ↔ c ∈ reservedV2 := by
  rw [needsMarkdownV2Escape, decide_eq_true_eq]
  exact List.Perm.mem_iff (by decide)

namespace Balanced

theorem start : Balanced {} [] := ⟨rfl, true, rfl, fun _ => rfl⟩

theorem push (h : Balanced s opened) (hread : ∀ front, (s.lineStart = true → front = true) →
    ∃ f, markdownV2.scan ⟨.text, opened, front⟩ text = some ⟨.text, opened', f⟩) :
    Balanced (s.push text) opened' := by
  obtain ⟨hcode, front, hscan, hfront⟩ := h
  obtain ⟨f, hf⟩ := hread front hfront
  exact ⟨hcode, f, by rw [← hf]; exact Scanner.scan_append_of hscan, nofun⟩

theorem newline (h : Balanced s opened) : Balanced s.newline opened := by
  obtain ⟨hcode, front, hscan, -⟩ := h
  exact ⟨hcode, true, (Scanner.scan_append_of hscan).trans scan_newline, fun _ => rfl⟩

theorem ensureLineBreak (h : Balanced s opened) : Balanced s.ensureLineBreak opened := by
  obtain ⟨hcode, front, hscan, -⟩ := h
  unfold MarkdownRender.ensureLineBreak
  split_ifs with hbreak
  · exact ⟨hcode, true, (Scanner.scan_append_of hscan).trans scan_newline, fun _ => rfl⟩
  · refine ⟨hcode, front, hscan, fun _ => ?_⟩
    simp only [Bool.and_eq_true, Bool.not_eq_true', not_and, Bool.not_eq_false] at hbreak
    by_cases hempty : s.out = []
    · rw [hempty] at hscan
      cases hscan
      rfl
    · obtain ⟨before, hbefore⟩ := exists_of_endsWith (hbreak (by simpa using hempty))
      rw [hbefore] at hscan
      exact front_of_newline hscan

theorem ensureBlankLine (h : Balanced s opened) : Balanced s.ensureBlankLine opened := by
  obtain ⟨hcode, front, hscan, -⟩ := h
  unfold MarkdownRender.ensureBlankLine
  dsimp only
  split_ifs with hempty hblank hbreak
  · refine ⟨hcode, front, hscan, fun _ => ?_⟩
    rw [List.isEmpty_iff.mp hempty] at hscan
    cases hscan
    rfl
  · refine ⟨hcode, front, hscan, fun _ => ?_⟩
    obtain ⟨before, hbefore⟩ := exists_of_endsWith hblank
    rw [hbefore, List.append_cons before '\n' ['\n']] at hscan
    exact front_of_newline hscan
  · exact ⟨hcode, true, (Scanner.scan_append_of hscan).trans scan_newline, fun _ => rfl⟩
  · refine ⟨hcode, true, ?_, fun _ => rfl⟩
    rw [Scanner.scan_append_of hscan]
    rfl

theorem maybePushQuotePrefix (h : Balanced s opened) : Balanced s.maybePushQuotePrefix opened := by
  unfold MarkdownRender.maybePushQuotePrefix
  split_ifs with hquote
  · refine h.push fun front hfront => ?_
    rw [hfront (Bool.and_eq_true_iff.mp hquote).1]
    exact ⟨true, scan_quotes _⟩
  · exact h

theorem appendMarkdownV2Text (h : Balanced s opened) (text : String) :
    Balanced (s.appendMarkdownV2Text text) opened := by
  unfold MarkdownRender.appendMarkdownV2Text
  induction text.toList generalizing s with
  | nil => exact h
  | cons c text ih =>
    refine ih ?_
    rw [MarkdownRender.appendChar]
    split_ifs with hc hescape
    · exact h.newline
    · exact h.maybePushQuotePrefix.push fun _ _ => ⟨_, scan_escaped (needsMarkdownV2Escape_iff.mp hescape)⟩
    · exact h.maybePushQuotePrefix.push fun _ _ =>
        ⟨_, scan_plain fun hmem => hescape (needsMarkdownV2Escape_iff.mpr hmem)⟩

theorem mark {c : Char} (h : Balanced s opened) (hc : c ∈ ['*', '_', '~']) :
    Balanced (s.push [c]) (toggle c opened) :=
  h.push fun _ _ => ⟨_, scan_mark hc⟩

theorem scan_number (front : Bool) (number : Nat) :
    ∃ f, markdownV2.scan ⟨.text, opened, front⟩ ((toString number).toList ++ ['\\', '.', ' ']) =
      some ⟨.text, opened, f⟩ := by
  have hdigits : ∀ c ∈ (toString number).toList, c ∉ reservedV2 := by
    intro c hc hreserved
    have hnone : ∀ c ∈ reservedV2, c.isDigit = false := by decide
    have hdigit := Decimal.mem_repr hc
    rw [hnone c hreserved] at hdigit
    cases hdigit
  obtain ⟨f, hf⟩ := scan_plains opened front hdigits
  exact ⟨_, (Scanner.scan_append_of hf).trans rfl⟩

theorem item (h : Balanced s opened) : Balanced (s.startTag .item) opened := by
  have hbullet : Balanced (s.ensureLineBreak.push ['•', ' ']) opened :=
    h.ensureLineBreak.push fun _ _ => scan_plains opened _ (by decide)
  unfold MarkdownRender.startTag
  dsimp only
  split
  · split_ifs
    · rename_i top _ _ _
      have hnumber := h.ensureLineBreak.push fun front _ => scan_number front top.nextIndex
      exact ⟨hnumber.inCodeBlock, hnumber.scan⟩
    · exact hbullet
  · exact hbullet

/-! ## Tags and leaves -/

/-- The open entities behind the start of a tag. -/
def openedBy (opened : List Char) : MarkdownTag → List Char
  | .heading | .strong => toggle '*' opened
  | .emphasis => toggle '_' opened
  | .strikethrough => toggle '~' opened
  | .link _ => '[' :: opened
  | _ => opened

theorem reduced_openedBy (h : Reduced opened) (tag : MarkdownTag) : Reduced (openedBy opened tag) := by
  cases tag
  case heading | strong | emphasis | strikethrough => exact reduced_toggle h
  case link =>
    cases opened with
    | nil => exact .singleton _
    | cons top rest => exact List.isChain_cons_cons.mpr ⟨fun _ => rfl, h⟩
  all_goals exact h

theorem startTag (h : Balanced s opened) {tag : MarkdownTag} (htag : tag.isCodeBlock = false) :
    Balanced (s.startTag tag) (openedBy opened tag) := by
  cases tag
  case heading => exact h.ensureBlankLine.mark (by decide)
  case strong | emphasis | strikethrough => exact h.mark (by decide)
  case codeBlock => cases htag
  case list => exact ⟨h.ensureLineBreak.inCodeBlock, h.ensureLineBreak.scan⟩
  case item => exact h.item
  case link =>
    have hpush : Balanced (s.push ['[']) ('[' :: opened) := h.push fun _ _ => ⟨false, rfl⟩
    exact ⟨hpush.inCodeBlock, hpush.scan⟩
  case blockQuote => exact ⟨h.ensureLineBreak.inCodeBlock, h.ensureLineBreak.scan⟩
  case paragraph | other => exact h

theorem endTag {tag : MarkdownTag} (h : Balanced s (openedBy opened tag)) (hreduced : Reduced opened)
    (htag : tag.isCodeBlock = false) : Balanced (s.endTag tag.tagEnd) opened := by
  have hmark : ∀ c ∈ ['*', '_', '~'], Balanced s (toggle c opened) → Balanced (s.push [c]) opened := by
    intro c hc hs
    have hpush := hs.mark hc
    rwa [toggle_toggle (by rintro rfl; revert hc; decide) hreduced] at hpush
  cases tag
  case paragraph => exact Balanced.ensureBlankLine h
  case heading => exact (hmark '*' (by decide) h).ensureBlankLine
  case strong => exact hmark '*' (by decide) h
  case emphasis => exact hmark '_' (by decide) h
  case strikethrough => exact hmark '~' (by decide) h
  case codeBlock => cases htag
  case list => exact ⟨(ensureBlankLine h).inCodeBlock, (ensureBlankLine h).scan⟩
  case item => exact ensureLineBreak h
  case link =>
    have hpush : Balanced (s.push ([']', '('] ++ escapeMarkdownV2LinkDestination (s.linkStack.head?.getD "") ++ [')']))
        opened := push h fun _ _ => ⟨false, scan_closeLink _⟩
    exact ⟨hpush.inCodeBlock, hpush.scan⟩
  case blockQuote =>
    have hdepth : Balanced { s with quoteDepth := s.quoteDepth - 1 } opened := ⟨h.inCodeBlock, h.scan⟩
    exact hdepth.ensureLineBreak
  case other => exact h

theorem leaf (h : Balanced s opened) {event : MarkdownEvent} (hleaf : event.IsLeaf) :
    Balanced (s.event event) opened := by
  cases event
  case start | finish => cases hleaf
  case text text =>
    rw [MarkdownRender.event, h.inCodeBlock]
    exact h.appendMarkdownV2Text text
  case code text =>
    have hne : text ≠ "" := hleaf
    exact h.maybePushQuotePrefix.push fun _ _ => ⟨false, scan_code (by simpa using hne)⟩
  case html | inlineHtml | footnoteReference | taskListMarker => exact h.appendMarkdownV2Text _
  case softBreak | hardBreak => exact h.newline
  case rule => exact (h.ensureBlankLine.appendMarkdownV2Text _).ensureBlankLine
  case other => exact h

end Balanced

/-! ## Code blocks -/

theorem openedFence (h : Balanced s opened) (kind : CodeBlockKind) : Fenced (s.startTag (.codeBlock kind)) opened := by
  obtain ⟨-, front, hscan, -⟩ := h.ensureBlankLine
  refine ⟨rfl, ?_⟩
  have hlanguage : ∀ raw : String, ∀ c ∈ (sanitizeCodeFenceLanguage raw).toList, c ∉ ['\\', '`'] := by
    intro raw c hc hspecial
    have hnone : ∀ c ∈ ['\\', '`'], (c.isAlphanum || decide (c ∈ ['_', '-', '+', '.'])) = false := by decide
    rw [sanitizeCodeFenceLanguage, String.toList_ofList, List.mem_filter, hnone c hspecial] at hc
    exact absurd hc.2 (by decide)
  show markdownV2.scan markdownV2.start ((s.ensureBlankLine.out ++ ("```".toList ++ _)) ++ ['\n']) = _
  rw [List.append_assoc, Scanner.scan_append_of hscan]
  cases kind with
  | indented => exact scan_openFence (by decide)
  | fenced lang => exact scan_openFence (hlanguage lang)

namespace Fenced

theorem push (h : Fenced s opened) (hread : markdownV2.scan ⟨.fence, opened, false⟩ text = some ⟨.fence, opened, false⟩) :
    Fenced (s.push text) opened :=
  ⟨h.inCodeBlock, (Scanner.scan_append_of h.scan).trans hread⟩

theorem newline (h : Fenced s opened) : Fenced s.newline opened :=
  ⟨h.inCodeBlock, (Scanner.scan_append_of h.scan).trans rfl⟩

theorem maybePushQuotePrefix (h : Fenced s opened) : Fenced s.maybePushQuotePrefix opened := by
  unfold MarkdownRender.maybePushQuotePrefix
  split_ifs
  · refine h.push ?_
    generalize s.quoteDepth = depth
    induction depth with
    | zero => rfl
    | succ depth ih =>
      rw [List.replicate_succ, List.flatten_cons]
      exact ih
  · exact h

theorem textEvent (h : Fenced s opened) (text : String) : Fenced (s.event (.text text)) opened := by
  rw [MarkdownRender.event, h.inCodeBlock, if_pos rfl, MarkdownRender.appendCodeText]
  induction text.toList generalizing s with
  | nil => exact h
  | cons c text ih =>
    refine ih ?_
    rw [MarkdownRender.appendChar]
    split_ifs with hc htrue
    · exact h.newline
    · refine h.maybePushQuotePrefix.push ?_
      have hescaped := scan_escapeds opened (fun _ => step_fence) rfl (fun _ => rfl) [c]
      rwa [List.flatMap_singleton] at hescaped
    · exact absurd rfl htrue

theorem textEvents (h : Fenced s opened) (texts : List String) :
    Fenced ((texts.map MarkdownEvent.text).foldl MarkdownRender.event s) opened := by
  induction texts generalizing s with
  | nil => exact h
  | cons text texts ih => exact ih (h.textEvent text)

theorem closed (h : Fenced s opened) : Balanced (s.endTag .codeBlock) opened := by
  refine Balanced.ensureBlankLine ⟨rfl, false, ?_, nofun⟩
  have hline : markdownV2.scan markdownV2.start (if endsWith s.out ['\n'] then s.out else s.out ++ ['\n']) =
      some ⟨.fence, opened, false⟩ := by
    split_ifs
    · exact h.scan
    · exact (Scanner.scan_append_of h.scan).trans rfl
  exact (Scanner.scan_append_of hline).trans scan_closeFence

end Fenced

/-! ## The rendering of a text -/

theorem Balanced.events {events : List MarkdownEvent} (hnested : WellNested events) (h : Balanced s opened)
    (hreduced : Reduced opened) : Balanced (events.foldl MarkdownRender.event s) opened := by
  induction hnested generalizing s opened with
  | nil => exact h
  | leaf hleaf _ ih => exact ih (h.leaf hleaf) hreduced
  | codeBlock kind _ ih =>
    rw [List.foldl_cons, List.foldl_append, List.foldl_cons]
    exact ih ((openedFence h kind).textEvents _).closed hreduced
  | element htag _ _ ihinner ihrest =>
    rw [List.foldl_cons, List.foldl_append, List.foldl_cons]
    have hinner := ihinner (h.startTag htag) (reduced_openedBy hreduced _)
    exact ihrest (hinner.endTag hreduced htag) hreduced

section Render

variable {parse : String → List MarkdownEvent} (hparse : ∀ input, WellNested (parse input))

include hparse in
/-- **The rendering of a text is well formed.** -/
theorem wellFormed_render (input : String) : WellFormedV2 (renderMarkdownToTelegramMarkdownV2 parse input).toList := by
  rw [renderMarkdownToTelegramMarkdownV2]
  split_ifs
  · exact Scanner.accepts_nil
  · obtain ⟨-, front, hscan, -⟩ := Balanced.events (hparse input) .start .nil
    exact wellFormedV2_trim (wellFormedV2_iff.mpr ⟨front, hscan⟩)

/-! ## The parts of a reply -/

/-- A place of a message where no escape, code, link destination or entity is open. -/
def OutsideEntities (message : List Char) (place : Nat) : Prop :=
  ∃ front, markdownV2.scan markdownV2.start (message.take place) = some ⟨.text, [], front⟩

include hparse in
theorem renderedPieces_iff {maxChars : Nat} (hmax : 0 < maxChars) (chunk : String) :
    (∀ piece ∈ renderedPieces parse maxChars chunk, WellFormedV2 piece.toList) ↔
      ∀ k, k * maxChars < charCount (renderMarkdownToTelegramMarkdownV2 parse chunk) →
        OutsideEntities (renderMarkdownToTelegramMarkdownV2 parse chunk).toList (k * maxChars) := by
  have hwhole := wellFormed_render hparse chunk
  rw [renderedPieces]
  generalize renderMarkdownToTelegramMarkdownV2 parse chunk = rendered at hwhole ⊢
  have hn : max (max maxChars 1) 1 = maxChars := by omega
  have hblank : (∀ piece ∈ (splitTextChunks rendered (max maxChars 1)).filter (fun split => !isBlank split),
      WellFormedV2 piece.toList) ↔ ∀ part ∈ (textChunks maxChars [] rendered.toList).map String.toList,
        WellFormedV2 part := by
    rw [List.forall_mem_map, splitTextChunks, hn]
    refine ⟨fun h piece hpiece => ?_, fun h piece hpiece => h piece (List.mem_filter.mp hpiece).1⟩
    by_cases hpieceBlank : isBlank piece = true
    · exact wellFormedV2_of_isBlank hpieceBlank
    · exact h piece (List.mem_filter.mpr ⟨hpiece, by simpa using hpieceBlank⟩)
  have hflat : ((textChunks maxChars [] rendered.toList).map String.toList).flatten = rendered.toList := by
    rw [← List.flatMap_def, ← String.toList_join, join_textChunks, List.nil_append, String.toList_ofList]
  have hparts := Scanner.accepts_parts_iff (hflat ▸ hwhole)
  rw [hblank]
  refine hparts.trans (forall_congr' fun k => ?_)
  obtain ⟨htake, hlen⟩ := take_textChunks hmax rendered.toList k
  rw [List.length_map, hlen, ← List.map_take, ← List.flatMap_def, htake]
  exact imp_congr_right fun _ => wellFormedV2_iff

theorem mem_parts_iff {maxChars : Nat} {raw : String} {part : TelegramRenderedText} :
    part ∈ renderTelegramTextParts parse raw maxChars ↔
      ∃ chunk ∈ splitTextChunks (telegramSource raw) (sourceChunkMax maxChars),
        part ∈ renderChunk parse maxChars chunk := by
  rw [renderTelegramTextParts]
  split_ifs with hempty
  · rw [String.isEmpty_iff.mp hempty]
    constructor
    · intro h
      cases h
    · rintro ⟨_, h, -⟩
      cases h
  · exact List.mem_flatMap

include hparse in
theorem parts_wellFormed_iff {maxChars : Nat} (hmax : 0 < maxChars) (raw : String) :
    (∀ part ∈ renderTelegramTextParts parse raw maxChars, WellFormedV2 part.text.toList) ↔
    ∀ chunk ∈ splitTextChunks (telegramSource raw) (sourceChunkMax maxChars),
      ∀ k, k * maxChars < charCount (renderMarkdownToTelegramMarkdownV2 parse chunk) →
        OutsideEntities (renderMarkdownToTelegramMarkdownV2 parse chunk).toList (k * maxChars) := by
  have hpieces : ∀ chunk, (∀ part ∈ renderChunk parse maxChars chunk, WellFormedV2 part.text.toList) ↔
      ∀ k, k * maxChars < charCount (renderMarkdownToTelegramMarkdownV2 parse chunk) →
        OutsideEntities (renderMarkdownToTelegramMarkdownV2 parse chunk).toList (k * maxChars) := by
    intro chunk
    rw [renderChunk_eq, List.forall_mem_map]
    exact renderedPieces_iff hparse hmax chunk
  constructor
  · exact fun h chunk hchunk => (hpieces chunk).mp fun part hpart => h part (mem_parts_iff.mpr ⟨chunk, hchunk, hpart⟩)
  · intro h part hpart
    obtain ⟨chunk, hchunk, hin⟩ := mem_parts_iff.mp hpart
    exact (hpieces chunk).mpr (h chunk hchunk) part hin

include hparse in
/-- **The parts of a reply** are of the size of a message, and each is well formed by itself if and only if the
rendering of no chunk is cut inside an escape, a code span, a fence, a link destination or an entity. -/
theorem rendered_parts_iff {maxChars : Nat} (hmax : 0 < maxChars) (raw : String) :
    (∀ part ∈ renderTelegramTextParts parse raw maxChars,
      charCount part.text ≤ maxChars ∧ WellFormedV2 part.text.toList) ↔
    ∀ chunk ∈ splitTextChunks (telegramSource raw) (sourceChunkMax maxChars),
      ∀ k, k * maxChars < charCount (renderMarkdownToTelegramMarkdownV2 parse chunk) →
        OutsideEntities (renderMarkdownToTelegramMarkdownV2 parse chunk).toList (k * maxChars) := by
  rw [← parts_wellFormed_iff hparse hmax raw]
  refine forall₂_congr fun part hpart => and_iff_right ?_
  have hle := (mem_renderTelegramTextParts hpart).2.1
  omega

end Render

/-! ## A rule and a paragraph of points -/

section Points

def pointsEvents (points : Nat) : List MarkdownEvent :=
  [.rule, .start .paragraph, .text (String.ofList ('a' :: List.replicate points '.')), .finish .paragraph]

/-- A rule, a letter and points: the rule is longer when it is rendered. -/
def pointsReply (points : Nat) : List Char := ['-', '-', '-', '\n', 'a'] ++ List.replicate points '.'

def escapedPoints (points : Nat) : List Char := (List.replicate points ['\\', '.']).flatten

/-- A rule that is rendered. -/
def renderedRule : List Char := ['─', '─', '─', '─', '─', '─', '─', '─', '\n', '\n']

def pointsRendering (points : Nat) : List Char := renderedRule ++ ['a'] ++ escapedPoints points

theorem wellNested_points (points : Nat) : WellNested (pointsEvents points) :=
  .leaf trivial (@WellNested.element .paragraph [.text _] [] rfl (.leaf trivial .nil) .nil)

theorem escapedPoints_succ (points : Nat) : escapedPoints (points + 1) = escapedPoints points ++ ['\\', '.'] := by
  rw [escapedPoints, List.replicate_succ', List.flatten_append, List.flatten_singleton]
  rfl

theorem length_escapedPoints (points : Nat) : (escapedPoints points).length = 2 * points := by
  induction points with
  | zero => rfl
  | succ points ih =>
    rw [escapedPoints_succ, List.length_append, ih]
    rfl

theorem appendPoints (points : Nat) (s : MarkdownRender) (hline : s.lineStart = false) :
    (List.replicate points '.').foldl
      (MarkdownRender.appendChar fun ch => if needsMarkdownV2Escape ch then ['\\', ch] else [ch]) s =
      { s with out := s.out ++ escapedPoints points } := by
  induction points with
  | zero => simp [escapedPoints]
  | succ points ih =>
    have hpoint : ∀ t : MarkdownRender, t.lineStart = false →
        MarkdownRender.appendChar (fun ch => if needsMarkdownV2Escape ch then ['\\', ch] else [ch]) t '.' =
          { t with out := t.out ++ ['\\', '.'] } := by
      intro t ht
      rw [MarkdownRender.appendChar, if_neg (by decide), if_pos (by decide), MarkdownRender.maybePushQuotePrefix, ht]
      show MarkdownRender.push t _ = _
      rw [MarkdownRender.push, ← ht]
    rw [List.replicate_succ', List.foldl_append, ih, List.foldl_cons, List.foldl_nil]
    refine (hpoint { s with out := s.out ++ escapedPoints points } hline).trans ?_
    rw [escapedPoints_succ, List.append_assoc]

theorem pointsRendering_succ (points : Nat) :
    pointsRendering (points + 1) = (renderedRule ++ ['a'] ++ escapedPoints points ++ ['\\']) ++ ['.'] := by
  simp only [pointsRendering, escapedPoints_succ, List.append_assoc, List.cons_append, List.nil_append]

theorem trimmed_of_ends {text : List Char} (first last : Char) (hfirst : isWhitespace first = false)
    (hlast : isWhitespace last = false) : Trimmed (String.ofList (first :: text ++ [last])) := by
  rw [Trimmed, String.toList_ofList]
  refine ⟨fun c hc => ?_, fun c hc => ?_⟩
  · obtain rfl : first = c := Option.some.inj hc
    exact hfirst
  · rw [List.getLast?_concat] at hc
    obtain rfl : last = c := Option.some.inj hc
    exact hlast

theorem trimmed_pointsRendering (points : Nat) : Trimmed (String.ofList (pointsRendering (points + 1))) := by
  rw [pointsRendering_succ]
  exact trimmed_of_ends '─' '.' (by decide) (by decide)

theorem render_points (points : Nat) {input : String} (hinput : isBlank input = false) :
    renderMarkdownToTelegramMarkdownV2 (fun _ => pointsEvents (points + 1)) input =
      String.ofList (pointsRendering (points + 1)) := by
  have hrule : MarkdownRender.event {} .rule = { out := renderedRule } := rfl
  have hletter : MarkdownRender.appendChar (fun ch => if needsMarkdownV2Escape ch then ['\\', ch] else [ch])
      { out := renderedRule } 'a' = { out := renderedRule ++ ['a'], lineStart := false } := rfl
  have htext : MarkdownRender.event { out := renderedRule }
      (.text (String.ofList ('a' :: List.replicate (points + 1) '.'))) =
      { out := pointsRendering (points + 1), lineStart := false } := by
    rw [MarkdownRender.event, if_neg Bool.false_ne_true, MarkdownRender.appendMarkdownV2Text, String.toList_ofList,
      List.foldl_cons, hletter, appendPoints _ _ rfl]
    rfl
  have hend : MarkdownRender.event { out := pointsRendering (points + 1), lineStart := false } (.finish .paragraph) =
      { out := pointsRendering (points + 1) ++ ['\n', '\n'] } := by
    have hline : ∀ blank ∈ [['\n'], ['\n', '\n']], endsWith (pointsRendering (points + 1)) blank = false := by
      intro blank hblank
      rw [pointsRendering_succ, endsWith, List.isSuffixOf, List.reverse_append]
      rcases List.mem_cons.mp hblank with rfl | hblank
      · rfl
      · rw [List.mem_singleton.mp hblank]
        rfl
    have hsome : (pointsRendering (points + 1)).isEmpty = false := by
      rw [pointsRendering_succ]
      simp
    rw [MarkdownRender.event, MarkdownRender.endTag, MarkdownRender.ensureBlankLine]
    dsimp only
    rw [hsome, hline _ (by decide), hline _ (by decide)]
    rfl
  rw [renderMarkdownToTelegramMarkdownV2, hinput, if_neg Bool.false_ne_true, pointsEvents, List.foldl_cons, hrule,
    List.foldl_cons, List.foldl_cons, List.foldl_cons, List.foldl_nil]
  have hstart : MarkdownRender.event { out := renderedRule } (.start .paragraph) = { out := renderedRule } := rfl
  rw [hstart, htext, hend]
  exact trim_append_of_trimmed (by rw [pointsRendering_succ]; simp) (trimmed_pointsRendering points) (by decide)

theorem telegramSource_points (points : Nat) :
    telegramSource (String.ofList (pointsReply (points + 1))) = String.ofList (pointsReply (points + 1)) := by
  have hplain : '<' ∉ pointsReply (points + 1) := by
    intro h
    rcases List.mem_append.mp h with h | h
    · exact absurd h (by decide)
    · exact absurd (List.eq_of_mem_replicate h) (by decide)
  rw [telegramSource_of_plain (tagless_of_not_mem hplain)]
  refine trim_of_trimmed ?_
  rw [pointsReply, List.replicate_succ', ← List.append_assoc]
  exact trimmed_of_ends '-' '.' (by decide) (by decide)

theorem not_outside_points (points : Nat) : ¬ OutsideEntities (pointsRendering (points + 1)) (2 * points + 12) := by
  have hpoints : ∀ k front, ∃ f, markdownV2.scan ⟨.text, [], front⟩ (escapedPoints k) = some ⟨.text, [], f⟩ := by
    intro k front
    induction k with
    | zero => exact ⟨front, rfl⟩
    | succ k ih =>
      obtain ⟨f, hf⟩ := ih
      exact ⟨false, by rw [escapedPoints_succ, Scanner.scan_append_of hf]; exact scan_escaped (by decide)⟩
  have htake : (pointsRendering (points + 1)).take (2 * points + 12) =
      renderedRule ++ ['a'] ++ (escapedPoints points ++ ['\\']) := by
    have hlen : (renderedRule ++ ['a'] ++ (escapedPoints points ++ ['\\'])).length = 2 * points + 12 := by
      simp only [List.length_append, length_escapedPoints, renderedRule, List.length_cons, List.length_nil]
      omega
    rw [pointsRendering_succ, List.append_assoc _ _ ['\\'], ← hlen, List.take_left]
  rintro ⟨front, hscan⟩
  have hrule : markdownV2.scan markdownV2.start (renderedRule ++ ['a']) = some ⟨.text, [], false⟩ := by decide
  obtain ⟨f, hf⟩ := hpoints points false
  rw [htake, Scanner.scan_append_of hrule, Scanner.scan_append_of hf] at hscan
  cases hscan

theorem rendered_parts_iff_points :
    (∀ part ∈ renderTelegramTextParts (fun _ => pointsEvents 2043) (String.ofList (pointsReply 2043)) telegramMaxTextChars,
      charCount part.text ≤ telegramMaxTextChars ∧ WellFormedV2 part.text.toList) ↔
    ∀ chunk ∈ splitTextChunks (telegramSource (String.ofList (pointsReply 2043))) (sourceChunkMax telegramMaxTextChars),
      ∀ k, k * telegramMaxTextChars <
          charCount (renderMarkdownToTelegramMarkdownV2 (fun _ => pointsEvents 2043) chunk) →
        OutsideEntities (renderMarkdownToTelegramMarkdownV2 (fun _ => pointsEvents 2043) chunk).toList
          (k * telegramMaxTextChars) :=
  rendered_parts_iff (fun _ => wellNested_points 2043) (by decide) _

/-- What fits into a chunk of the source does not always fit into a message. -/
theorem rendered_parts_broken : ¬ ∀ parse : String → List MarkdownEvent, (∀ input, WellNested (parse input)) →
    ∀ raw, ∀ part ∈ renderTelegramTextParts parse raw telegramMaxTextChars,
      charCount part.text ≤ telegramMaxTextChars ∧ WellFormedV2 part.text.toList := by
  intro h
  have hnested : ∀ input : String, WellNested ((fun _ => pointsEvents 2043) input) := fun _ => wellNested_points 2043
  have hparts := h _ hnested (String.ofList (pointsReply 2043))
  have hcuts := (parts_wellFormed_iff hnested (by decide) _).mp fun part hpart => (hparts part hpart).2
  have hchunk : String.ofList (pointsReply 2043) ∈
      splitTextChunks (telegramSource (String.ofList (pointsReply 2043))) (sourceChunkMax telegramMaxTextChars) := by
    have hlen : charCount (String.ofList (pointsReply 2043)) = 2048 := by
      rw [charCount, String.toList_ofList, pointsReply, List.length_append, List.length_replicate]
      rfl
    rw [telegramSource_points, splitTextChunks_of_le _ (by rw [hlen]; decide)]
    · exact List.mem_singleton_self _
    · intro hempty
      rw [hempty] at hlen
      exact absurd hlen (by decide)
  have hplace := hcuts _ hchunk 1
  have hinput : isBlank (String.ofList (pointsReply 2043)) = false := by
    rw [isBlank, String.toList_ofList]
    rfl
  rw [render_points 2042 hinput, charCount, String.toList_ofList] at hplace
  refine not_outside_points 2042 (hplace ?_)
  rw [pointsRendering, List.length_append, length_escapedPoints]
  decide

end Points

end Xiaomaolv
