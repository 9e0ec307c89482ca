import Xiaomaolv.Loop.Text

/-!
# The texts of a reply for Telegram

* `MarkdownEvent`: what `pulldown_cmark` reads in a text; the parser itself is a parameter.
* `renderMarkdownToTelegramMarkdownV2`: the events written out as Telegram MarkdownV2, over `MarkdownRender`.
* `splitTextChunks`, `splitThinkAndBody`: the cuts at a number of characters and at think blocks.
* **`splitTextChunks_cuts`**, `mem_splitTextChunks`: the chunks are the text, each of at most so many characters.
* `renderTelegramTextParts`: the parts of a reply; **`mem_renderTelegramTextParts`**: no part is blank or too long.
-/

namespace Xiaomaolv

/-- `str::ends_with`. -/
def endsWith (s suffix : List Char) : Bool := suffix.isSuffixOf s

/-! ## Events -/

/-- `CodeBlockKind`. -/
inductive CodeBlockKind where
  | indented
  | fenced (lang : String)

/-- `pulldown_cmark::Tag`; `other` is a tag that the renderer leaves out. -/
inductive MarkdownTag where
  | paragraph
  | heading
  | strong
  | emphasis
  | strikethrough
  | codeBlock (kind : CodeBlockKind)
  | list (start : Option Nat)
  | item
  | link (destUrl : String)
  | blockQuote
  | other

/-- `pulldown_cmark::TagEnd`. -/
inductive MarkdownTagEnd where
  | paragraph
  | heading
  | strong
  | emphasis
  | strikethrough
  | codeBlock
  | list
  | item
  | link
  | blockQuote
  | other

/-- `pulldown_cmark::Event`. -/
inductive MarkdownEvent where
  | start (tag : MarkdownTag)
  | finish (tagEnd : MarkdownTagEnd)
  | text (text : String)
  | code (text : String)
  | html (html : String)
  | inlineHtml (html : String)
  | footnoteReference (name : String)
  | softBreak
  | hardBreak
  | rule
  | taskListMarker (checked : Bool)
  | other

/-! ## The renderer -/

structure MarkdownListState where
  ordered : Bool
  nextIndex : Nat

/-- The variables of the renderer; the top of a stack comes first. -/
structure MarkdownRender where
  out : List Char := []
  lineStart : Bool := true
  quoteDepth : Nat := 0
  inCodeBlock : Bool := false
  listStack : List MarkdownListState := []
  linkStack : List String := []

def sanitizeCodeFenceLanguage (raw : String) : String :=
  String.ofList (raw.toList.filter fun ch => ch.isAlphanum || ch ∈ ['_', '-', '+', '.'])

def needsMarkdownV2Escape (ch : Char) : Bool :=
  ch ∈ ['\\', '_', '*', '[', ']', '(', ')', '~', '`', '>', '#', '+', '-', '=', '|', '\x7b', '\x7d', '.', '!']

/-- A character with a backslash before it, where it is one of the special ones. -/
def escaped (special : List Char) (ch : Char) : List Char := if ch ∈ special then ['\\', ch] else [ch]

def escapeMarkdownV2Code (input : String) : List Char := input.toList.flatMap (escaped ['\\', '`'])

def escapeMarkdownV2LinkDestination (input : String) : List Char := input.toList.flatMap (escaped ['\\', ')'])

namespace MarkdownRender

/-- `out.push_str`, within a line. -/
def push (s : MarkdownRender) (text : List Char) : MarkdownRender :=
  { s with out := s.out ++ text, lineStart := false }

def ensureLineBreak (s : MarkdownRender) : MarkdownRender :=
  { s with
    out := if !s.out.isEmpty && !endsWith s.out ['\n'] then s.out ++ ['\n'] else s.out
    lineStart := true }

def ensureBlankLine (s : MarkdownRender) : MarkdownRender :=
  let out :=
    if s.out.isEmpty then s.out
    else if endsWith s.out ['\n', '\n'] then s.out
    else if endsWith s.out ['\n'] then s.out ++ ['\n']
    else s.out ++ ['\n', '\n']
  { s with out, lineStart := true }

/-- The marks of the block quotes, at the start of a line. -/
def maybePushQuotePrefix (s : MarkdownRender) : MarkdownRender :=
  if s.lineStart && 0 < s.quoteDepth then s.push (List.replicate s.quoteDepth ['>', ' ']).flatten else s

def newline (s : MarkdownRender) : MarkdownRender := { s with out := s.out ++ ['\n'], lineStart := true }

/-- A character of a code block, or of a text outside of one. -/
def appendChar (write : Char → List Char) (s : MarkdownRender) (ch : Char) : MarkdownRender :=
  if ch = '\n' then s.newline else s.maybePushQuotePrefix.push (write ch)

def appendCodeText (s : MarkdownRender) (input : String) (inCodeBlock : Bool) : MarkdownRender :=
  input.toList.foldl (appendChar fun ch => if inCodeBlock then escaped ['\\', '`'] ch else [ch]) s

def appendMarkdownV2Text (s : MarkdownRender) (input : String) : MarkdownRender :=
  input.toList.foldl (appendChar fun ch => if needsMarkdownV2Escape ch then ['\\', ch] else [ch]) s

def startTag (s : MarkdownRender) : MarkdownTag → MarkdownRender
  | .heading => s.ensureBlankLine.push ['*']
  | .strong => s.push ['*']
  | .emphasis => s.push ['_']
  | .strikethrough => s.push ['~']
  | .codeBlock kind =>
    let language := match kind with
      | .fenced lang => sanitizeCodeFenceLanguage lang
      | .indented => ""
    (({ s.ensureBlankLine with inCodeBlock := true }).push ("```".toList ++ language.toList)).newline
  | .list start =>
    { s.ensureLineBreak with
      listStack := { ordered := start.isSome, nextIndex := start.getD 1 } :: s.listStack }
  | .item =>
    let s := s.ensureLineBreak
    match s.listStack with
    | top :: rest =>
      if top.ordered then
        { s.push ((toString top.nextIndex).toList ++ ['\\', '.', ' ']) with
          listStack := { top with nextIndex := top.nextIndex + 1 } :: rest }
      else s.push ['•', ' ']
    | [] => s.push ['•', ' ']
  | .link destUrl => { s.push ['['] with linkStack := destUrl :: s.linkStack }
  | .blockQuote => { s.ensureLineBreak with quoteDepth := s.quoteDepth + 1 }
  | .paragraph | .other => s

def endTag (s : MarkdownRender) : MarkdownTagEnd → MarkdownRender
  | .paragraph => s.ensureBlankLine
  | .heading => (s.push ['*']).ensureBlankLine
  | .strong => s.push ['*']
  | .emphasis => s.push ['_']
  | .strikethrough => s.push ['~']
  | .codeBlock =>
    let out := if endsWith s.out ['\n'] then s.out else s.out ++ ['\n']
    ({ s with out := out ++ "```".toList, lineStart := false, inCodeBlock := false }).ensureBlankLine
  | .list => { s.ensureBlankLine with listStack := s.listStack.tail }
  | .item => s.ensureLineBreak
  | .link =>
    let dest := s.linkStack.head?.getD ""
    { s.push ([']', '('] ++ escapeMarkdownV2LinkDestination dest ++ [')']) with linkStack := s.linkStack.tail }
  | .blockQuote => ({ s with quoteDepth := s.quoteDepth - 1 }).ensureLineBreak
  | .other => s

def event (s : MarkdownRender) : MarkdownEvent → MarkdownRender
  | .start tag => s.startTag tag
  | .finish tagEnd => s.endTag tagEnd
  | .text text => if s.inCodeBlock then s.appendCodeText text true else s.appendMarkdownV2Text text
  | .code text => s.maybePushQuotePrefix.push (['`'] ++ escapeMarkdownV2Code text ++ ['`'])
  | .softBreak | .hardBreak => s.newline
  | .rule => (s.ensureBlankLine.appendMarkdownV2Text "────────").ensureBlankLine
  | .taskListMarker checked => s.appendMarkdownV2Text (if checked then "☑ " else "☐ ")
  | .html html | .inlineHtml html => s.appendMarkdownV2Text html
  | .footnoteReference name => s.appendMarkdownV2Text ("[" ++ name ++ "]")
  | .other => s

end MarkdownRender

def renderMarkdownToTelegramMarkdownV2 (parse : String → List MarkdownEvent) (input : String) : String :=
  if isBlank input then ""
  else trim (String.ofList ((parse input).foldl MarkdownRender.event {}).out)

/-! ## Cuts of a text -/

/-- The chunks of the characters, after those of the current one. -/
def textChunks (maxChars : Nat) : List Char → List Char → List String
  | current, [] => if current.isEmpty then [] else [String.ofList current]
  | current, ch :: chars =>
    if current.length = maxChars then String.ofList current :: textChunks maxChars [ch] chars
    else textChunks maxChars (current ++ [ch]) chars

def splitTextChunks (input : String) (maxChars : Nat) : List String := textChunks (max maxChars 1) [] input.toList

section Chunks

variable {n : Nat} {current chars : List Char}

theorem join_textChunks (n : Nat) (current chars : List Char) :
    String.join (textChunks n current chars) = String.ofList (current ++ chars) := by
  induction chars generalizing current with
  | nil =>
    rw [textChunks, List.append_nil]
    split_ifs with h
    · rw [List.isEmpty_iff.mp h]
      rfl
    · simp [String.join_cons]
  | cons ch chars ih =>
    rw [textChunks]
    split_ifs with h
    · rw [String.join_cons, ih, ← String.ofList_append]
      rfl
    · rw [ih, List.append_assoc]
      rfl

theorem mem_textChunks (hn : 0 < n) (hcurrent : current.length ≤ n) {chunk : String}
    (h : chunk ∈ textChunks n current chars) : chunk ≠ "" ∧ charCount chunk ≤ n := by
  have hchunk : ∀ {cs : List Char}, cs ≠ [] → cs.length ≤ n → String.ofList cs ≠ "" ∧ charCount (String.ofList cs) ≤ n := by
    intro cs hne hle
    refine ⟨fun hcs => hne ?_, by rwa [charCount, String.toList_ofList]⟩
    have := congrArg String.toList hcs
    rwa [String.toList_ofList] at this
  induction chars generalizing current with
  | nil =>
    rw [textChunks] at h
    split_ifs at h with hempty
    · simp at h
    · rw [List.mem_singleton] at h
      subst h
      exact hchunk (fun hnil => hempty (by rw [hnil]; rfl)) hcurrent
  | cons ch chars ih =>
    rw [textChunks] at h
    split_ifs at h with hfull
    · rcases List.mem_cons.mp h with rfl | h
      · exact hchunk (fun hnil => by rw [hnil] at hfull; simp at hfull; omega) hcurrent
      · exact ih (by rw [List.length_singleton]; omega) h
    · refine ih ?_ h
      rw [List.length_append, List.length_singleton]
      omega

theorem textChunks_of_le (h : current.length + chars.length ≤ n) (hne : current ++ chars ≠ []) :
    textChunks n current chars = [String.ofList (current ++ chars)] := by
  induction chars generalizing current with
  | nil =>
    rw [List.append_nil] at hne ⊢
    rw [textChunks, if_neg (by rwa [List.isEmpty_iff])]
  | cons ch chars ih =>
    rw [List.length_cons] at h
    rw [textChunks, if_neg (by omega), ih (by rw [List.length_append, List.length_singleton]; omega) (by simp),
      List.append_assoc]
    rfl

theorem textChunks_of_lt (hn : 0 < n) (hcurrent : current.length ≤ n) (h : n < current.length + chars.length) :
    textChunks n current chars =
      String.ofList ((current ++ chars).take n) :: textChunks n [] ((current ++ chars).drop n) := by
  induction chars generalizing current with
  | nil =>
    rw [List.length_nil] at h
    omega
  | cons ch chars ih =>
    rw [List.length_cons] at h
    rw [textChunks]
    split_ifs with hfull
    · rw [← hfull, List.take_left, List.drop_left, textChunks, if_neg (by rw [List.length_nil]; omega), List.nil_append]
    · have hlen : (current ++ [ch]).length = current.length + 1 := by rw [List.length_append, List.length_singleton]
      rw [ih (by omega) (by omega), List.append_assoc]
      rfl

/-- The chunks before the `k`-th are the first `k * n` characters. -/
theorem take_textChunks (hn : 0 < n) (chars : List Char) (k : Nat) :
    ((textChunks n [] chars).take k).flatMap String.toList = chars.take (k * n) ∧
    (k < (textChunks n [] chars).length ↔ k * n < chars.length) := by
  induction k generalizing chars with
  | zero =>
    refine ⟨by simp, ?_⟩
    rw [Nat.zero_mul]
    cases chars with
    | nil => rfl
    | cons ch chars =>
      by_cases h : n < (ch :: chars).length
      · rw [textChunks_of_lt hn (Nat.zero_le _) (by simpa using h)]
        simp
      · rw [textChunks_of_le (by simpa using h) (by simp)]
        simp
  | succ k ih =>
    by_cases h : n < chars.length
    · rw [textChunks_of_lt hn (Nat.zero_le _) (by simpa using h), List.nil_append, List.take_succ_cons,
        List.flatMap_cons, (ih _).1, String.toList_ofList, List.length_cons, Nat.succ_lt_succ_iff, (ih _).2,
        List.length_drop]
      have hmul : (k + 1) * n = n + k * n := by rw [Nat.add_mul, Nat.one_mul, Nat.add_comm]
      refine ⟨by rw [hmul, List.take_add], by omega⟩
    · have hfew : (textChunks n [] chars).length ≤ 1 ∧ (textChunks n [] chars).flatMap String.toList = chars := by
        by_cases hempty : chars = []
        · rw [hempty]
          exact ⟨Nat.zero_le _, rfl⟩
        · rw [textChunks_of_le (by simpa using h) (by simpa using hempty)]
          simp
      have hmul : n ≤ (k + 1) * n := Nat.le_mul_of_pos_left n (Nat.succ_pos k)
      rw [List.take_of_length_le (by omega), hfew.2, List.take_of_length_le (by omega)]
      exact ⟨rfl, by omega⟩

theorem join_splitTextChunks (input : String) (maxChars : Nat) : String.join (splitTextChunks input maxChars) = input := by
  rw [splitTextChunks, join_textChunks, List.nil_append, String.ofList_toList]

/-- **A text is cut every `maxChars` characters**, a limit of 0 being one of 1: the chunks join to the text, a `k`-th
chunk is there exactly if more than `k` limits of characters are, and before it stand just these. -/
theorem splitTextChunks_cuts (input : String) (maxChars : Nat) :
    String.join (splitTextChunks input maxChars) = input ∧ ∀ k,
      ((splitTextChunks input maxChars).take k).flatMap String.toList = input.toList.take (k * max maxChars 1) ∧
      (k < (splitTextChunks input maxChars).length ↔ k * max maxChars 1 < charCount input) :=
  ⟨join_splitTextChunks input maxChars, take_textChunks (by omega) input.toList⟩

theorem mem_splitTextChunks {input chunk : String} {maxChars : Nat} (h : chunk ∈ splitTextChunks input maxChars) :
    chunk ≠ "" ∧ charCount chunk ≤ max maxChars 1 :=
  mem_textChunks (by omega) (Nat.zero_le _) h

theorem splitTextChunks_of_le {input : String} {maxChars : Nat} (hne : input ≠ "")
    (h : charCount input ≤ max maxChars 1) : splitTextChunks input maxChars = [input] := by
  rw [splitTextChunks, textChunks_of_le (by simpa [charCount] using h) (by simpa using hne), List.nil_append,
    String.ofList_toList]

end Chunks

/-- The texts in think blocks, and the text outside of them; so many blocks at most. -/
def splitThinks : Nat → List Char → List String × List Char
  | 0, remaining => ([], remaining)
  | fuel + 1, remaining =>
    match splitOnce "<think>".toList remaining with
    | none => ([], remaining)
    | some (before, rest) =>
      match splitOnce "</think>".toList rest with
      | none => ([String.ofList rest], before)
      | some (think, rest) =>
        let (thinks, body) := splitThinks fuel rest
        (String.ofList think :: thinks, before ++ body)

/-- A block takes characters of the text: there are no more blocks than characters. -/
def splitThinkAndBody (raw : String) : String × String :=
  let (thinks, body) := splitThinks (charCount raw) raw.toList
  ("\n\n".intercalate thinks, String.ofList body)

/-! ## The parts of a reply -/

def telegramMaxTextChars : Nat := 4096

structure TelegramRenderedText where
  text : String
  parseMode : Option String
  deriving DecidableEq, Repr

/-- The text that is rendered: without its think blocks, if they say anything. -/
def telegramSource (raw : String) : String :=
  let (think, body) := splitThinkAndBody raw
  if isBlank think then trim raw else trim body

/-- The parts of one chunk of the source. -/
def renderChunk (parse : String → List MarkdownEvent) (maxChars : Nat) (chunk : String) : List TelegramRenderedText :=
  let rendered := renderMarkdownToTelegramMarkdownV2 parse chunk
  if isBlank rendered then []
  else if charCount rendered ≤ max maxChars 1 then [{ text := rendered, parseMode := some "MarkdownV2" }]
  else ((splitTextChunks rendered (max maxChars 1)).filter fun split => !isBlank split).map fun split =>
    { text := split, parseMode := some "MarkdownV2" }

def sourceChunkMax (maxChars : Nat) : Nat := max (max maxChars 1 / 2) 512

def renderTelegramTextParts (parse : String → List MarkdownEvent) (raw : String) (maxChars : Nat) :
    List TelegramRenderedText :=
  let source := telegramSource raw
  if source.isEmpty then []
  else (splitTextChunks source (sourceChunkMax maxChars)).flatMap (renderChunk parse maxChars)

/-! ## What the parts are -/

section Parts

variable (parse : String → List MarkdownEvent) (maxChars : Nat)

/-- What the renderer makes of a chunk, in pieces of the size of a message. -/
def renderedPieces (chunk : String) : List String :=
  (splitTextChunks (renderMarkdownToTelegramMarkdownV2 parse chunk) (max maxChars 1)).filter fun split =>
    !isBlank split

@[simp] theorem trim_renderMarkdown (input : String) :
    trim (renderMarkdownToTelegramMarkdownV2 parse input) = renderMarkdownToTelegramMarkdownV2 parse input := by
  rw [renderMarkdownToTelegramMarkdownV2]
  split_ifs
  · rfl
  · exact trim_trim _

variable {parse maxChars} {chunk : String}

theorem renderedPieces_of_blank (h : isBlank (renderMarkdownToTelegramMarkdownV2 parse chunk) = true) :
    renderedPieces parse maxChars chunk = [] := by
  rw [renderedPieces, ← trim_renderMarkdown, trim_eq_empty h]
  rfl

theorem renderedPieces_of_le (h : isBlank (renderMarkdownToTelegramMarkdownV2 parse chunk) = false)
    (hle : charCount (renderMarkdownToTelegramMarkdownV2 parse chunk) ≤ max maxChars 1) :
    renderedPieces parse maxChars chunk = [renderMarkdownToTelegramMarkdownV2 parse chunk] := by
  have hne : renderMarkdownToTelegramMarkdownV2 parse chunk ≠ "" := by
    intro hempty
    rw [hempty] at h
    exact absurd h (by decide)
  rw [renderedPieces, splitTextChunks_of_le hne (by omega), List.filter_cons_of_pos (by rw [h]; rfl)]
  rfl

variable (parse maxChars)

theorem renderChunk_eq (chunk : String) : renderChunk parse maxChars chunk =
    (renderedPieces parse maxChars chunk).map fun text => { text, parseMode := some "MarkdownV2" } := by
  rw [renderChunk]
  split_ifs with hblank hshort
  · rw [renderedPieces_of_blank hblank]
    rfl
  · rw [renderedPieces_of_le (by simpa using hblank) hshort]
    rfl
  · rfl

/-- **No part is blank or too long**, and each has the parse mode. -/
theorem mem_renderTelegramTextParts {parse : String → List MarkdownEvent} {maxChars : Nat} {raw : String}
    {part : TelegramRenderedText} (h : part ∈ renderTelegramTextParts parse raw maxChars) :
    isBlank part.text = false ∧ charCount part.text ≤ max maxChars 1 ∧ part.parseMode = some "MarkdownV2" := by
  rw [renderTelegramTextParts] at h
  split_ifs at h
  · simp at h
  · obtain ⟨chunk, -, hpart⟩ := List.mem_flatMap.mp h
    rw [renderChunk_eq] at hpart
    obtain ⟨text, htext, rfl⟩ := List.mem_map.mp hpart
    rw [renderedPieces, List.mem_filter] at htext
    refine ⟨by simpa using htext.2, ?_, rfl⟩
    have := (mem_splitTextChunks htext.1).2
    show charCount text ≤ _
    omega

end Parts

end Xiaomaolv
