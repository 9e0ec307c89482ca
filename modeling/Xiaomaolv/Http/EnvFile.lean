import Xiaomaolv.Loop.Text

/-!
# The env file of the configuration page

A save reads the env file, puts the values of its request in, and writes the file anew: the known variables in their
groups, and the others behind them.

* `parseEnvFileValues`, `renderEnvFile`, `acceptSave`: the reader, the writer and the request between them.
* `Reads`: what has been written, and what it is read as; `Reads.next`: one more line.
* `parseEnvLine_render`: a written line is read back; `getElem?_render`: so is the file.
* **`env_round_trip_iff`**: the saved values are read back, and the other variables as they were, exactly when no
  value has a line break.
* `injected_variable`: a value with a line break brings another variable.
-/

namespace Xiaomaolv

open Replace

/-! ## Fields and locales -/

/-- The values of an env file, a `BTreeMap<String, String>`. -/
abbrev EnvValues := Std.ExtTreeMap String String

structure ConfigUiFieldSpec where
  key : String
  groupKey : String
  required : Bool
  defaultValue : String
  deriving DecidableEq

def configUiFields : List ConfigUiFieldSpec :=
  [⟨"MINIMAX_API_KEY", "required", true, ""⟩,
    ⟨"TELEGRAM_BOT_TOKEN", "required", true, ""⟩,
    ⟨"XIAOMAOLV_APP_API_KEY", "system", false, ""⟩,
    ⟨"MINIMAX_MODEL", "model", false, "MiniMax-M2.5-highspeed"⟩,
    ⟨"TELEGRAM_BOT_USERNAME", "telegram", false, ""⟩,
    ⟨"TELEGRAM_STARTUP_ONLINE_TEXT", "telegram", false, "online"⟩,
    ⟨"TELEGRAM_GROUP_TRIGGER_MODE", "group", false, "smart"⟩,
    ⟨"TELEGRAM_SCHEDULER_DEFAULT_TIMEZONE", "scheduler", false, "Asia/Shanghai"⟩,
    ⟨"TELEGRAM_ADMIN_USER_IDS", "scheduler", false, ""⟩,
    ⟨"XIAOMAOLV_LOCALE", "system", false, "en-US"⟩,
    ⟨"HTTP_DIAG_BEARER_TOKEN", "diagnostics", false, ""⟩,
    ⟨"ZVEC_SIDECAR_ENDPOINT", "memory", false, "http://127.0.0.1:3711"⟩,
    ⟨"ZVEC_SIDECAR_TOKEN", "memory", false, ""⟩]

def configUiFieldSpec (key : String) : Option ConfigUiFieldSpec := configUiFields.find? fun spec => spec.key = key

/-- The key has a field on the page. -/
def isKnown (key : String) : Bool := (configUiFieldSpec key).isSome

def normalizeSupportedLocale (raw : String) : Option String :=
  let normalized := toAsciiLowercase (trim raw)
  if normalized ∈ ["en", "en-us"] then some "en-US"
  else if normalized ∈ ["zh", "zh-cn", "zh-hans"] then some "zh-CN"
  else if normalized ∈ ["hi", "hi-in"] then some "hi-IN"
  else if normalized ∈ ["es", "es-es", "es-419"] then some "es-ES"
  else if normalized ∈ ["ar", "ar-sa", "ar-eg"] then some "ar"
  else none

/-- `localized_group_name` in the locale `en-US`. -/
def localizedGroupName (groupKey : String) : String :=
  match groupKey with
  | "required" => "1. Required First Step"
  | "model" => "2. Model & Service"
  | "telegram" => "3. Telegram Basics"
  | "group" => "4. Group Policy"
  | "scheduler" => "5. Scheduler & Access"
  | "system" => "6. System & Access"
  | "diagnostics" => "7. Diagnostics"
  | "memory" => "8. Hybrid Memory"
  | _ => "Other"

def isMissingRequiredValue (value : String) : Bool :=
  let trimmed := trim value
  trimmed.isEmpty || startsWith trimmed "replace_with_"

/-- The value of a field: of the process, of the file or by default. `environ` is `std::env::var`. -/
def effectiveFieldValue (environ : String → Option String) (spec : ConfigUiFieldSpec) (envFileValues : EnvValues) :
    String :=
  match (environ spec.key).filter fun value => !(trim value).isEmpty with
  | some value => value
  | none => ((envFileValues[spec.key]?).filter fun value => !(trim value).isEmpty).getD spec.defaultValue

/-! ## The reader -/

/-- `str::lines`. -/
def lines (text : String) : List String :=
  let cut := takeLines text.toList
  cut.1.map chomp ++ if cut.2.isEmpty then [] else [String.ofList cut.2]

def parseEnvValue (raw : String) : String :=
  let first := raw.toList.head?
  let last := raw.toList.getLast?
  if 2 ≤ byteLen raw ∧ (first = some '"' ∧ last = some '"' ∨ first = some '\x27' ∧ last = some '\x27') then
    String.ofList (replaceAll ['\\', '\\'] ['\\'] (replaceAll ['\\', '"'] ['"'] (raw.toList.drop 1).dropLast))
  else raw

/-- The key and the value of a line, if it has them. -/
def parseEnvLine (rawLine : String) : Option (String × String) :=
  let line := trim rawLine
  if line.isEmpty || startsWith line "#" then none
  else
    match splitOnce ['='] line.toList with
    | none => none
    | some (rawKey, rawValue) =>
      let key := trim (String.ofList rawKey)
      if key.isEmpty then none else some (key, parseEnvValue (trim (String.ofList rawValue)))

def insertEnvLine (values : EnvValues) (rawLine : String) : EnvValues :=
  match parseEnvLine rawLine with
  | some (key, value) => values.insert key value
  | none => values

def parseEnvFileValues (content : String) : EnvValues := (lines content).foldl insertEnvLine ∅

/-- `read_env_file_values` of the file, if there is one. -/
def readEnvFileValues : Option String → EnvValues
  | none => ∅
  | some content => parseEnvFileValues content

/-! ## The writer -/

def formatEnvValue (value : String) : String :=
  if value.isEmpty then ""
  else if value.toList.any fun ch => isWhitespace ch || ch = '#' || ch = '"' || ch = '\x27' then
    "\"" ++ String.ofList (replaceAll ['"'] ['\\', '"'] (replaceAll ['\\'] ['\\', '\\'] value.toList)) ++ "\""
  else value

/-- The line of a variable. -/
def renderEnvLine (key value : String) : String := key ++ "=" ++ formatEnvValue value

/-- What is written of one field: the name of its group where that begins, and its line. -/
def renderField (known : EnvValues) (state : String × String) (spec : ConfigUiFieldSpec) : String × String :=
  let (out, currentGroup) := state
  let out :=
    if spec.groupKey ≠ currentGroup then
      (if currentGroup.isEmpty then out else out ++ "\n") ++
        ("# " ++ localizedGroupName spec.groupKey ++ "\n")
    else out
  (out ++ (renderEnvLine spec.key ((known[spec.key]?).getD "") ++ "\n"), spec.groupKey)

def renderExtra (out : String) (extra : String × String) : String := out ++ (renderEnvLine extra.1 extra.2 ++ "\n")

def envFileHeader : String := "# Managed by xiaomaolv setup UI.\n# You can still edit this file manually.\n\n"

def extrasHeader : String := "\n# Extra variables preserved from previous file\n"

def renderEnvFile (known extras : EnvValues) : String :=
  let out := (configUiFields.foldl (renderField known) (envFileHeader, "")).1
  if extras.isEmpty then out else extras.toList.foldl renderExtra (out ++ extrasHeader)

/-! ## A request -/

structure ConfigUiSaveRequest where
  /-- The entries of a `HashMap`, in the order they come. -/
  values : List (String × String)
  mode : Option String
  distinct : (values.map (·.1)).Nodup

def normalizedValue (key value : String) : String :=
  if key = "XIAOMAOLV_LOCALE" then (normalizeSupportedLocale (trim value)).getD "en-US" else trim value

def acceptValue (envValues : EnvValues) (entry : String × String) : EnvValues :=
  if isKnown entry.1 then envValues.insert entry.1 (normalizedValue entry.1 entry.2) else envValues

def knownValues (envValues : EnvValues) : EnvValues := envValues.filter fun key _ => isKnown key

def extraValues (envValues : EnvValues) : EnvValues := envValues.filter fun key _ => !isKnown key

/-- Whether the required fields are there, in the modes that ask for them. -/
def checkRequired (environ : String → Option String) (saveMode : String) (envValues : EnvValues) :
    Except String Unit :=
  if saveMode = "required" || saveMode = "full" then
    match (configUiFields.filter (·.required)).find? fun spec =>
      isMissingRequiredValue ((envValues[spec.key]?).getD (effectiveFieldValue environ spec ∅)) with
    | some spec => .error ("required field '" ++ spec.key ++ "' is missing")
    | none => .ok ()
  else .ok ()

/-- `post_config_ui_save` from the values of the file to the known values and the extras that it writes. -/
def acceptSave (environ : String → Option String) (fileValues : EnvValues) (req : ConfigUiSaveRequest) :
    Except String (EnvValues × EnvValues) := do
  let envValues := req.values.foldl acceptValue fileValues
  let acceptedKeys := req.values.countP fun entry => isKnown entry.1
  ensure (acceptedKeys ≠ 0) "no supported config keys provided"
  checkRequired environ (req.mode.getD "full") envValues
  pure (knownValues envValues, extraValues envValues)

/-! ## Lines -/

section Lines

variable {line rest : String} {text : List Char} {key value : String} {values : EnvValues}

theorem trim_concat {c : Char} (hc : isWhitespace c = true) (text : List Char) :
    trim (String.ofList (text ++ [c])) = trim (String.ofList text) := by
  rw [trim, trim, String.toList_ofList, String.toList_ofList, List.dropWhile_append]
  split_ifs with hall
  · rw [List.isEmpty_iff.mp hall, List.dropWhile_cons_of_pos hc, List.dropWhile_nil]
  · rw [List.reverse_append, List.reverse_singleton, List.singleton_append, List.dropWhile_cons_of_pos hc]

theorem trim_chomp (text : List Char) : trim (chomp text) = trim (String.ofList text) := by
  rw [chomp]
  split_ifs with hlast
  · obtain ⟨rest, rfl⟩ := List.getLast?_eq_some_iff.mp hlast
    rw [List.dropLast_concat, trim_concat (by decide)]
  · rfl

theorem parseEnvLine_chomp (text : List Char) : parseEnvLine (chomp text) = parseEnvLine (String.ofList text) := by
  unfold parseEnvLine
  rw [trim_chomp]

theorem lines_line (h : '\n' ∉ line.toList) (rest : String) :
    lines (line ++ "\n" ++ rest) = chomp line.toList :: lines rest := by
  have hnewline : ∀ c ∈ line.toList, c ≠ '\n' := fun c hc heq => h (heq ▸ hc)
  have htext : (line ++ "\n" ++ rest).toList = line.toList ++ '\n' :: rest.toList := by
    rw [String.toList_append, String.toList_append, List.append_assoc]
    rfl
  unfold lines
  rw [htext, takeLines_line hnewline]
  rfl

theorem lines_empty : lines "" = [] := rfl

theorem newline_takeLines (text : List Char) :
    (∀ l ∈ (takeLines text).1, '\n' ∉ l) ∧ '\n' ∉ (takeLines text).2 := by
  induction text with
  | nil => exact ⟨fun _ h => absurd h List.not_mem_nil, List.not_mem_nil⟩
  | cons c text ih =>
    obtain ⟨hlines, hrest⟩ := ih
    rw [takeLines]
    dsimp only
    split_ifs with hc
    · exact ⟨List.forall_mem_cons.mpr ⟨List.not_mem_nil, hlines⟩, hrest⟩
    · cases hcut : (takeLines text).1 with
      | nil =>
        exact ⟨fun _ h => absurd h List.not_mem_nil,
          List.not_mem_cons_of_ne_of_not_mem (fun h => hc h.symm) hrest⟩
      | cons l ls =>
        rw [hcut] at hlines
        obtain ⟨hl, hls⟩ := List.forall_mem_cons.mp hlines
        exact ⟨List.forall_mem_cons.mpr ⟨List.not_mem_cons_of_ne_of_not_mem (fun h => hc h.symm) hl, hls⟩, hrest⟩

theorem newline_lines (hline : line ∈ lines rest) : '\n' ∉ line.toList := by
  obtain ⟨hlines, hrest⟩ := newline_takeLines rest.toList
  rcases List.mem_append.mp hline with hin | hin
  · obtain ⟨l, hl, rfl⟩ := List.mem_map.mp hin
    rw [chomp, String.toList_ofList]
    split_ifs
    · exact fun hmem => hlines l hl (List.mem_of_mem_dropLast hmem)
    · exact hlines l hl
  · split_ifs at hin
    · cases hin
    · rw [List.mem_singleton.mp hin, String.toList_ofList]
      exact hrest

/-- What has been written leaves these values, whatever comes behind it. -/
def Reads (out : String) (values : EnvValues) : Prop :=
  ∀ rest, parseEnvFileValues (out ++ rest) = (lines rest).foldl insertEnvLine values

theorem Reads.parse {out : String} (h : Reads out values) : parseEnvFileValues out = values := by
  have hend := h ""
  rwa [String.append_empty, lines_empty, List.foldl_nil] at hend

theorem reads_empty : Reads "" ∅ := fun rest => by rw [String.empty_append, parseEnvFileValues]

theorem Reads.next {out : String} (h : Reads out values) (hline : '\n' ∉ line.toList) :
    Reads (out ++ (line ++ "\n")) (insertEnvLine values line) := by
  intro rest
  have hline' : insertEnvLine values (chomp line.toList) = insertEnvLine values line := by
    unfold insertEnvLine
    rw [parseEnvLine_chomp, String.ofList_toList]
  rw [String.append_assoc, h, lines_line hline, List.foldl_cons, hline']

theorem Reads.skip {out : String} (h : Reads out values) (hline : '\n' ∉ line.toList)
    (hnone : parseEnvLine line = none) : Reads (out ++ (line ++ "\n")) values := by
  have hread := h.next hline
  rwa [insertEnvLine, hnone] at hread

end Lines

/-! ## Variables -/

/-- What a line can have for a key. -/
structure EnvKey (key : String) : Prop where
  trimmed : Trimmed key
  nonempty : key ≠ ""
  equals : '=' ∉ key.toList
  line : '\n' ∉ key.toList
  comment : key.toList.head? ≠ some '#'

section Variables

variable {key value : String} {text before after : List Char}

theorem startsWith_hash (s : String) : startsWith s "#" = true ↔ s.toList.head? = some '#' := by
  have hhash : "#".toList = ['#'] := rfl
  rw [startsWith, List.isPrefixOf_iff_prefix, hhash]
  cases s.toList with
  | nil => simp
  | cons c text => simp [eq_comm]

theorem head?_trim {c : Char} (hc : isWhitespace c = false) (text : List Char) :
    (trim (String.ofList (c :: text))).toList.head? = some c := by
  rw [trim, String.toList_ofList, String.toList_ofList, List.dropWhile_cons_of_neg (by simp [hc]), List.reverse_cons,
    List.dropWhile_append, List.head?_reverse]
  split_ifs
  · rw [List.dropWhile_cons_of_neg (by simp [hc])]
    rfl
  · exact List.getLast?_concat

theorem splitOnce_equals (h : splitOnce ['='] text = some (before, after)) :
    text = before ++ '=' :: after ∧ '=' ∉ before := by
  induction text generalizing before with
  | nil => cases h
  | cons c text ih =>
    rw [splitOnce] at h
    split_ifs at h with hfirst
    · obtain ⟨rfl, rfl⟩ := Prod.mk.inj (Option.some.inj h)
      obtain ⟨rest, hrest⟩ := List.isPrefixOf_iff_prefix.mp hfirst
      refine ⟨?_, List.not_mem_nil⟩
      rw [← hrest]
      rfl
    · obtain ⟨⟨before, after⟩, hrest, heq⟩ := Option.map_eq_some_iff.mp h
      obtain ⟨rfl, rfl⟩ := Prod.mk.inj heq
      obtain ⟨htext, hequals⟩ := ih hrest
      refine ⟨by rw [htext]; rfl, List.not_mem_cons_of_ne_of_not_mem (fun hc => ?_) hequals⟩
      exact hfirst (by simp [← hc])

theorem mem_of_mem_trim {c : Char} {s : String} (h : c ∈ (trim s).toList) : c ∈ s.toList := by
  rw [trim, String.toList_ofList, List.mem_reverse] at h
  exact (List.dropWhile_sublist _).mem (List.mem_reverse.mp ((List.dropWhile_sublist _).mem h))

theorem mem_replaceAll {c : Char} {pattern new : List Char} (hpattern : pattern ≠ [])
    (h : c ∈ replaceAll pattern new text) : c ∈ new ∨ c ∈ text := by
  revert h
  refine replaceAll_induction (motive := fun t r => c ∈ r → c ∈ new ∨ c ∈ t) hpattern (fun h => .inr h)
    (fun a t _ ih h => ?_) (fun a t _ ih h => ?_) text
  · rcases List.mem_append.mp h with h | h
    · exact .inl h
    · exact (ih h).imp_right List.mem_of_mem_drop
  · rcases List.mem_cons.mp h with rfl | h
    · exact .inr List.mem_cons_self
    · exact (ih h).imp_right (List.mem_cons_of_mem _)

theorem newline_parseEnvValue (h : '\n' ∉ value.toList) : '\n' ∉ (parseEnvValue value).toList := by
  unfold parseEnvValue
  dsimp only
  split_ifs
  · rw [String.toList_ofList]
    intro hin
    rcases mem_replaceAll (List.cons_ne_nil _ _) hin with hin | hin
    · exact absurd hin (by decide)
    · rcases mem_replaceAll (List.cons_ne_nil _ _) hin with hin | hin
      · exact absurd hin (by decide)
      · exact h (List.mem_of_mem_drop (List.mem_of_mem_dropLast hin))
  · exact h

/-- **What a line gives.** -/
theorem envKey_of_parse {line : String} (hline : '\n' ∉ line.toList) (h : parseEnvLine line = some (key, value)) :
    EnvKey key ∧ '\n' ∉ value.toList := by
  unfold parseEnvLine at h
  dsimp only at h
  split_ifs at h with hskip
  rw [Bool.or_eq_true, not_or] at hskip
  cases hsplit : splitOnce ['='] (trim line).toList with
  | none =>
    rw [hsplit] at h
    cases h
  | some cut =>
    obtain ⟨rawKey, rawValue⟩ := cut
    rw [hsplit] at h
    dsimp only at h
    split_ifs at h with hkey
    obtain ⟨rfl, rfl⟩ := Prod.mk.inj (Option.some.inj h)
    obtain ⟨htext, hequals⟩ := splitOnce_equals hsplit
    have hnewline : '\n' ∉ (trim line).toList := fun hin => hline (mem_of_mem_trim hin)
    rw [htext, List.mem_append, List.mem_cons, not_or, not_or] at hnewline
    refine ⟨⟨trimmed_trim _, fun hempty => hkey (by rw [hempty]; rfl), fun hin => ?_, fun hin => ?_, ?_⟩,
      newline_parseEnvValue fun hin => ?_⟩
    · have hraw := mem_of_mem_trim hin
      rw [String.toList_ofList] at hraw
      exact hequals hraw
    · have hraw := mem_of_mem_trim hin
      rw [String.toList_ofList] at hraw
      exact hnewline.1 hraw
    · -- The line begins with its key, and is no comment.
      have hne : rawKey ≠ [] := by
        rintro rfl
        exact hkey rfl
      obtain ⟨c, rawKey, rfl⟩ := List.exists_cons_of_ne_nil hne
      have hfirst : (trim line).toList.head? = some c := by
        rw [htext]
        rfl
      rw [head?_trim ((trimmed_trim line).1 c hfirst), ← hfirst]
      exact fun hhash => hskip.2 ((startsWith_hash _).mpr hhash)
    · have hraw := mem_of_mem_trim hin
      rw [String.toList_ofList] at hraw
      exact hnewline.2.2 hraw

theorem toList_quoted (text : List Char) :
    ("\"" ++ String.ofList text ++ "\"").toList = '"' :: (text ++ ['"']) := by
  simp

theorem newline_formatEnvValue (h : '\n' ∉ value.toList) : '\n' ∉ (formatEnvValue value).toList := by
  unfold formatEnvValue
  split_ifs
  · exact List.not_mem_nil
  · rw [toList_quoted, List.mem_cons, List.mem_append]
    rintro (hin | hin | hin)
    · exact absurd hin (by decide)
    · rcases mem_replaceAll (List.cons_ne_nil _ _) hin with hin | hin
      · exact absurd hin (by decide)
      · rcases mem_replaceAll (List.cons_ne_nil _ _) hin with hin | hin
        · exact absurd hin (by decide)
        · exact h hin
    · exact absurd hin (by decide)
  · exact h

theorem parseEnvValue_formatEnvValue (value : String) : parseEnvValue (formatEnvValue value) = value := by
  unfold formatEnvValue
  split_ifs with hempty hquotes
  · rw [String.isEmpty_iff.mp hempty]
    rfl
  · -- The quotes are the first and the last character.
    set escaped := replaceAll ['"'] ['\\', '"'] (replaceAll ['\\'] ['\\', '\\'] value.toList) with hescaped
    have hlen : 2 ≤ byteLen ("\"" ++ String.ofList escaped ++ "\"") := by
      have hquote : "\"".utf8ByteSize = 1 := rfl
      rw [byteLen, String.utf8ByteSize_append, String.utf8ByteSize_append, hquote]
      omega
    have hlast : ('"' :: (escaped ++ ['"'])).getLast? = some '"' := by
      rw [← List.cons_append, List.getLast?_concat]
    have hinner : (('"' :: (escaped ++ ['"'])).drop 1).dropLast = escaped := by
      rw [List.drop_succ_cons, List.drop_zero, List.dropLast_concat]
    unfold parseEnvValue
    rw [toList_quoted, hlast, if_pos ⟨hlen, .inl ⟨rfl, rfl⟩⟩, hinner, hescaped, replaceAll_escape (by decide),
      String.ofList_toList]
  · rw [parseEnvValue]
    refine if_neg fun hquoted => hquotes (List.any_eq_true.mpr ?_)
    rcases hquoted.2 with ⟨hfirst, -⟩ | ⟨hfirst, -⟩
    · exact ⟨_, List.mem_of_mem_head? hfirst, by decide⟩
    · exact ⟨_, List.mem_of_mem_head? hfirst, by decide⟩

theorem trimmed_formatEnvValue (value : String) : Trimmed (formatEnvValue value) := by
  unfold formatEnvValue
  split_ifs with hempty hquotes
  · exact ⟨by decide, by decide⟩
  · rw [Trimmed, toList_quoted]
    refine ⟨fun c hc => ?_, fun c hc => ?_⟩
    · obtain rfl : '"' = c := Option.some.inj hc
      decide
    · rw [← List.cons_append, List.getLast?_concat] at hc
      obtain rfl : '"' = c := Option.some.inj hc
      decide
  · have hsolid : ∀ c ∈ value.toList, isWhitespace c = false := fun c hc => by
      have hno := mt List.any_eq_true.mpr hquotes
      rw [not_exists] at hno
      have hc' := not_and.mp (hno c) hc
      rw [Bool.or_eq_true, Bool.or_eq_true, Bool.or_eq_true, not_or, not_or, not_or] at hc'
      simpa using hc'.1.1.1
    exact ⟨fun c hc => hsolid c (List.mem_of_mem_head? hc), fun c hc => hsolid c (List.mem_of_mem_getLast? hc)⟩

/-- **A written line is read back.** -/
theorem parseEnvLine_render (h : EnvKey key) (value : String) :
    parseEnvLine (renderEnvLine key value) = some (key, value) := by
  have htext : (renderEnvLine key value).toList = key.toList ++ ['='] ++ (formatEnvValue value).toList := by
    rw [renderEnvLine, String.toList_append, String.toList_append]
    rfl
  have hkey : key.toList ≠ [] := fun hnil => h.nonempty (String.toList_eq_nil_iff.mp hnil)
  have hequals : Ends (fun c => isWhitespace c = false) ['='] :=
    ⟨fun c hc => by obtain rfl : '=' = c := Option.some.inj hc; decide,
      fun c hc => by obtain rfl : '=' = c := Option.some.inj hc; decide⟩
  have htrimmed : Trimmed (renderEnvLine key value) := by
    rw [Trimmed, htext]
    exact (h.trimmed.append hequals).append (trimmed_formatEnvValue value)
  have hfirst : (renderEnvLine key value).toList.head? = key.toList.head? := by
    rw [htext, List.append_assoc, List.head?_append_of_ne_nil _ hkey]
  have hnonempty : (renderEnvLine key value).isEmpty = false := by
    rw [Bool.eq_false_iff]
    intro hempty
    rw [String.isEmpty_iff.mp hempty] at hfirst
    exact hkey (List.head?_eq_none_iff.mp hfirst.symm)
  have hcomment : startsWith (renderEnvLine key value) "#" = false := by
    rw [Bool.eq_false_iff, ne_eq, startsWith_hash, hfirst]
    exact h.comment
  have hsplit : splitOnce ['='] (renderEnvLine key value).toList
      = some (key.toList, (formatEnvValue value).toList) := by
    rw [htext]
    exact splitOnce_append List.not_mem_nil fun hin => h.equals ((List.singleton_infix_iff _ _).mp hin)
  have hkey' : key.isEmpty = false := by
    rw [Bool.eq_false_iff]
    exact fun hempty => h.nonempty (String.isEmpty_iff.mp hempty)
  unfold parseEnvLine
  dsimp only
  rw [trim_of_trimmed htrimmed, hnonempty, hcomment, hsplit]
  dsimp only
  rw [String.ofList_toList, String.ofList_toList, trim_of_trimmed h.trimmed,
    trim_of_trimmed (trimmed_formatEnvValue value), parseEnvValue_formatEnvValue, hkey']
  rfl

theorem newline_renderEnvLine (h : EnvKey key) (hvalue : '\n' ∉ value.toList) :
    '\n' ∉ (renderEnvLine key value).toList := by
  rw [renderEnvLine, String.toList_append, String.toList_append, List.mem_append, List.mem_append]
  rintro ((hin | hin) | hin)
  · exact h.line hin
  · exact absurd hin (by decide)
  · exact newline_formatEnvValue hvalue hin

theorem Reads.variable {out : String} {values : EnvValues} (hout : Reads out values) (h : EnvKey key)
    (hvalue : '\n' ∉ value.toList) : Reads (out ++ (renderEnvLine key value ++ "\n")) (values.insert key value) := by
  have hread := hout.next (newline_renderEnvLine h hvalue)
  rwa [insertEnvLine, parseEnvLine_render h] at hread

end Variables

/-! ## Files -/

section Files

variable {values known extras : EnvValues} {entries : List (String × String)} {key value : String}

theorem getElem?_insert (values : EnvValues) (key value key' : String) :
    (values.insert key value)[key']? = if key = key' then some value else values[key']? := by
  rw [Std.ExtTreeMap.getElem?_insert]
  simp only [Std.compare_eq_eq_iff_eq]

/-- The entries are put in, one after the other. -/
def insertAll (values : EnvValues) (entries : List (String × String)) : EnvValues :=
  entries.foldl (fun values entry => values.insert entry.1 entry.2) values

theorem insertAll_of_not_mem (values : EnvValues) (h : key ∉ entries.map (·.1)) :
    (insertAll values entries)[key]? = values[key]? := by
  induction entries generalizing values with
  | nil => rfl
  | cons entry entries ih =>
    rw [List.map_cons, List.mem_cons, not_or] at h
    rw [insertAll, List.foldl_cons]
    exact (ih _ h.2).trans (by rw [getElem?_insert, if_neg (Ne.symm h.1)])

theorem insertAll_of_mem (values : EnvValues) (hkeys : (entries.map (·.1)).Nodup) (h : (key, value) ∈ entries) :
    (insertAll values entries)[key]? = some value := by
  induction entries generalizing values with
  | nil => cases h
  | cons entry entries ih =>
    obtain ⟨hfirst, hrest⟩ := List.nodup_cons.mp hkeys
    rw [insertAll, List.foldl_cons]
    rcases List.mem_cons.mp h with rfl | hin
    · exact (insertAll_of_not_mem _ hfirst).trans (by rw [getElem?_insert, if_pos rfl])
    · exact ih _ hrest hin

theorem nodup_toList (values : EnvValues) : (values.toList.map (·.1)).Nodup := by
  rw [List.Nodup, List.pairwise_map]
  refine values.distinct_keys_toList.imp fun {a b} hne heq => hne ?_
  rw [heq]
  exact Std.compare_eq_eq_iff_eq.mpr rfl

theorem mem_keys_toList : key ∈ values.toList.map (·.1) ↔ values[key]? ≠ none := by
  constructor
  · intro h
    obtain ⟨⟨k, v⟩, hin, rfl⟩ := List.mem_map.mp h
    rw [Std.ExtTreeMap.mem_toList_iff_getElem?_eq_some.mp hin]
    exact Option.some_ne_none v
  · intro h
    obtain ⟨v, hv⟩ := Option.ne_none_iff_exists'.mp h
    exact List.mem_map.mpr ⟨(key, v), Std.ExtTreeMap.mem_toList_iff_getElem?_eq_some.mpr hv, rfl⟩

theorem insertAll_toList (values other : EnvValues) (key : String) :
    (insertAll values other.toList)[key]? = (other[key]?).or values[key]? := by
  cases hother : other[key]? with
  | none => exact insertAll_of_not_mem values fun h => mem_keys_toList.mp h hother
  | some value =>
    exact insertAll_of_mem values (nodup_toList other) (Std.ExtTreeMap.mem_toList_iff_getElem?_eq_some.mpr hother)

/-- What the file says of a field. -/
def fieldEntry (known : EnvValues) (spec : ConfigUiFieldSpec) : String × String :=
  (spec.key, (known[spec.key]?).getD "")

theorem isKnown_iff : isKnown key = true ↔ key ∈ configUiFields.map (·.key) := by
  rw [isKnown, configUiFieldSpec, List.find?_isSome]
  simp

theorem envKey_of_known (h : isKnown key = true) : EnvKey key := by
  have hall : ∀ key ∈ configUiFields.map (·.key), trim key = key ∧ key ≠ "" ∧ '=' ∉ key.toList ∧
      '\n' ∉ key.toList ∧ key.toList.head? ≠ some '#' := by
    decide +kernel
  obtain ⟨htrim, hne, hequals, hline, hcomment⟩ := hall key (isKnown_iff.mp h)
  exact ⟨htrim ▸ trimmed_trim key, hne, hequals, hline, hcomment⟩

theorem Reads.blank {out : String} (h : Reads out values) : Reads (out ++ "\n") values := by
  have hline : '\n' ∉ "".toList := List.not_mem_nil
  have hnone : parseEnvLine "" = none := by decide
  have hread := h.skip hline hnone
  rwa [String.empty_append] at hread

theorem Reads.field {state : String × String} (h : Reads state.1 values) {spec : ConfigUiFieldSpec}
    (hspec : spec ∈ configUiFields) (hvalue : '\n' ∉ ((known[spec.key]?).getD "").toList) :
    Reads (renderField known state spec).1 (values.insert spec.key ((known[spec.key]?).getD "")) := by
  obtain ⟨out, currentGroup⟩ := state
  have hgroups : ∀ spec ∈ configUiFields, '\n' ∉ ("# " ++ localizedGroupName spec.groupKey).toList ∧
      parseEnvLine ("# " ++ localizedGroupName spec.groupKey) = none := by
    decide +kernel
  have hkey : EnvKey spec.key := envKey_of_known (isKnown_iff.mpr (List.mem_map_of_mem hspec))
  refine Reads.variable ?_ hkey hvalue
  obtain ⟨hname, hcomment⟩ := hgroups spec hspec
  split_ifs with hnew hfirst
  · exact h.skip hname hcomment
  · exact h.blank.skip hname hcomment
  · exact h

theorem Reads.fields {specs : List ConfigUiFieldSpec} {state : String × String} (h : Reads state.1 values)
    (hspecs : specs ⊆ configUiFields) (hvalues : ∀ spec ∈ specs, '\n' ∉ ((known[spec.key]?).getD "").toList) :
    Reads (specs.foldl (renderField known) state).1 (insertAll values (specs.map (fieldEntry known))) := by
  induction specs generalizing state values with
  | nil => exact h
  | cons spec specs ih =>
    obtain ⟨hspec, hspecs⟩ := List.cons_subset.mp hspecs
    obtain ⟨hvalue, hvalues⟩ := List.forall_mem_cons.mp hvalues
    exact ih (h.field hspec hvalue) hspecs hvalues

theorem Reads.extra {out : String} (h : Reads out values)
    (hentries : ∀ e ∈ entries, EnvKey e.1 ∧ '\n' ∉ e.2.toList) :
    Reads (entries.foldl renderExtra out) (insertAll values entries) := by
  induction entries generalizing out values with
  | nil => exact h
  | cons entry entries ih =>
    obtain ⟨⟨hkey, hvalue⟩, hentries⟩ := List.forall_mem_cons.mp hentries
    exact ih (h.variable hkey hvalue) hentries

/-- The values can stand in a file. -/
def Writable (values : EnvValues) : Prop :=
  ∀ key value, values[key]? = some value → EnvKey key ∧ '\n' ∉ value.toList

theorem reads_header : Reads envFileHeader ∅ := by
  have htext : envFileHeader = "" ++ ("# Managed by xiaomaolv setup UI." ++ "\n") ++
      ("# You can still edit this file manually." ++ "\n") ++ "\n" := by
    decide +kernel
  rw [htext]
  exact ((reads_empty.skip (by decide +kernel) (by decide +kernel)).skip (by decide +kernel) (by decide +kernel)).blank

theorem Reads.title {out : String} (h : Reads out values) : Reads (out ++ extrasHeader) values := by
  have htext : extrasHeader = "\n" ++ ("# Extra variables preserved from previous file" ++ "\n") := by
    decide +kernel
  rw [htext, ← String.append_assoc]
  exact h.blank.skip (by decide +kernel) (by decide +kernel)

/-- **A written file is read back**: an extra as it was, and a field as its value or as empty. -/
theorem parse_render (hknown : Writable known) (hextras : Writable extras) :
    parseEnvFileValues (renderEnvFile known extras)
      = insertAll (insertAll ∅ (configUiFields.map (fieldEntry known))) extras.toList := by
  have hvalue : ∀ spec ∈ configUiFields, '\n' ∉ ((known[spec.key]?).getD "").toList := fun spec _ => by
    cases hvalue : known[spec.key]? with
    | none => exact List.not_mem_nil
    | some value => exact (hknown _ _ hvalue).2
  have hfields : Reads (configUiFields.foldl (renderField known) (envFileHeader, "")).1
      (insertAll ∅ (configUiFields.map (fieldEntry known))) :=
    Reads.fields reads_header (List.Subset.refl configUiFields) hvalue
  refine Reads.parse ?_
  unfold renderEnvFile
  dsimp only
  split_ifs with hempty
  · have hnil : extras.toList = [] := Std.ExtTreeMap.toList_eq_nil_iff.mpr (Std.ExtTreeMap.isEmpty_iff.mp hempty)
    rw [hnil, insertAll, List.foldl_nil]
    exact hfields
  · refine Reads.extra hfields.title fun e he => ?_
    exact hextras e.1 e.2 (Std.ExtTreeMap.mem_toList_iff_getElem?_eq_some.mp he)

theorem getElem?_render (hknown : Writable known) (hextras : Writable extras)
    (hforeign : ∀ key, isKnown key = true → extras[key]? = none) (key : String) :
    (parseEnvFileValues (renderEnvFile known extras))[key]?
      = if isKnown key then some ((known[key]?).getD "") else extras[key]? := by
  have hkeys : (configUiFields.map (fieldEntry known)).map (·.1) = configUiFields.map (·.key) := by
    rw [List.map_map]
    rfl
  rw [parse_render hknown hextras, insertAll_toList]
  split_ifs with hkey
  · obtain ⟨spec, hspec, rfl⟩ := List.mem_map.mp (isKnown_iff.mp hkey)
    rw [hforeign _ hkey, Option.none_or]
    exact insertAll_of_mem ∅ (by rw [hkeys]; decide +kernel) (List.mem_map_of_mem hspec)
  · rw [insertAll_of_not_mem ∅ (by rwa [hkeys, ← isKnown_iff]), Std.ExtTreeMap.getElem?_empty, Option.or_none]

theorem writable_parse (content : String) : Writable (parseEnvFileValues content) := by
  have hall : ∀ (ls : List String) (values : EnvValues), (∀ l ∈ ls, '\n' ∉ l.toList) → Writable values →
      Writable (ls.foldl insertEnvLine values) := by
    intro ls
    induction ls with
    | nil => exact fun values _ h => h
    | cons l ls ih =>
      intro values hls h
      obtain ⟨hl, hls⟩ := List.forall_mem_cons.mp hls
      refine ih _ hls fun key value hvalue => ?_
      rw [insertEnvLine] at hvalue
      cases hline : parseEnvLine l with
      | none =>
        rw [hline] at hvalue
        exact h key value hvalue
      | some entry =>
        rw [hline, getElem?_insert] at hvalue
        split_ifs at hvalue with hkey
        · obtain rfl := Option.some.inj hvalue
          exact hkey ▸ envKey_of_parse hl hline
        · exact h key value hvalue
  exact hall _ ∅ (fun l hl => newline_lines hl) fun key value hvalue => by
    rw [Std.ExtTreeMap.getElem?_empty] at hvalue
    cases hvalue

theorem writable_readEnvFileValues (file : Option String) : Writable (readEnvFileValues file) := by
  cases file with
  | none =>
    intro key value hvalue
    rw [readEnvFileValues, Std.ExtTreeMap.getElem?_empty] at hvalue
    cases hvalue
  | some content => exact writable_parse content

theorem getElem?_knownValues (values : EnvValues) (key : String) :
    (knownValues values)[key]? = if isKnown key then values[key]? else none := by
  rw [knownValues, Std.ExtTreeMap.getElem?_filter']
  cases isKnown key <;> cases values[key]? <;> rfl

theorem getElem?_extraValues (values : EnvValues) (key : String) :
    (extraValues values)[key]? = if isKnown key then none else values[key]? := by
  rw [extraValues, Std.ExtTreeMap.getElem?_filter']
  cases isKnown key <;> cases values[key]? <;> rfl

theorem getElem?_written (h : Writable values) (key : String) :
    (parseEnvFileValues (renderEnvFile (knownValues values) (extraValues values)))[key]?
      = if isKnown key then some ((values[key]?).getD "") else values[key]? := by
  have hpart : ∀ {part : EnvValues}, (∀ key value, part[key]? = some value → values[key]? = some value) →
      Writable part := fun hpart key value hvalue => h key value (hpart key value hvalue)
  rw [getElem?_render (hpart fun key value hvalue => ?_) (hpart fun key value hvalue => ?_) fun key hkey => ?_,
    getElem?_knownValues, getElem?_extraValues]
  · split_ifs <;> rfl
  · rw [getElem?_knownValues] at hvalue
    split_ifs at hvalue
    exact hvalue
  · rw [getElem?_extraValues] at hvalue
    split_ifs at hvalue
    exact hvalue
  · rw [getElem?_extraValues, if_pos hkey]

end Files

/-! ## Saving -/

section Save

variable {environ : String → Option String} {file : Option String} {fileValues : EnvValues}
  {req : ConfigUiSaveRequest} {known extras : EnvValues}

/-- The entries of a request that are taken. -/
def ConfigUiSaveRequest.accepted (req : ConfigUiSaveRequest) : List (String × String) :=
  (req.values.filter fun entry => isKnown entry.1).map fun entry => (entry.1, normalizedValue entry.1 entry.2)

theorem foldl_acceptValue (fileValues : EnvValues) (entries : List (String × String)) :
    entries.foldl acceptValue fileValues = insertAll fileValues
      ((entries.filter fun entry => isKnown entry.1).map fun entry => (entry.1, normalizedValue entry.1 entry.2)) := by
  induction entries generalizing fileValues with
  | nil => rfl
  | cons entry entries ih =>
    rw [List.foldl_cons, ih, acceptValue, List.filter_cons]
    split_ifs <;> rfl

theorem nodup_accepted (req : ConfigUiSaveRequest) : (req.accepted.map (·.1)).Nodup := by
  have hkeys : req.accepted.map (·.1) = (req.values.filter fun entry => isKnown entry.1).map (·.1) := by
    rw [ConfigUiSaveRequest.accepted, List.map_map]
    rfl
  rw [hkeys]
  exact req.distinct.sublist (List.filter_sublist.map _)

theorem acceptSave_eq_ok (h : acceptSave environ fileValues req = .ok (known, extras)) :
    known = knownValues (insertAll fileValues req.accepted) ∧
      extras = extraValues (insertAll fileValues req.accepted) := by
  unfold acceptSave at h
  dsimp only at h
  obtain ⟨-, h⟩ := ensure_bind_eq_ok.mp h
  obtain ⟨-, -, h⟩ := bind_eq_ok.mp h
  rw [foldl_acceptValue] at h
  obtain ⟨rfl, rfl⟩ := Prod.mk.inj (pure_eq_ok.mp h)
  exact ⟨rfl, rfl⟩

theorem mem_accepted {key value : String} (h : (key, value) ∈ req.accepted) :
    isKnown key = true ∧ ∃ entry ∈ req.values, entry.1 = key ∧ value = normalizedValue key entry.2 := by
  obtain ⟨entry, hentry, heq⟩ := List.mem_map.mp h
  obtain ⟨rfl, rfl⟩ := Prod.mk.inj heq
  obtain ⟨hin, hkey⟩ := List.mem_filter.mp hentry
  exact ⟨hkey, entry, hin, rfl, rfl⟩

theorem getElem?_saved (fileValues : EnvValues) {entry : String × String} (hin : entry ∈ req.values)
    (hkey : isKnown entry.1 = true) :
    (insertAll fileValues req.accepted)[entry.1]? = some (normalizedValue entry.1 entry.2) :=
  insertAll_of_mem fileValues (nodup_accepted req)
    (List.mem_map.mpr ⟨entry, List.mem_filter.mpr ⟨hin, hkey⟩, rfl⟩)

theorem getElem?_unsaved (fileValues : EnvValues) {key : String}
    (h : isKnown key = true → key ∉ req.values.map (·.1)) :
    (insertAll fileValues req.accepted)[key]? = fileValues[key]? := by
  refine insertAll_of_not_mem fileValues fun hin => ?_
  obtain ⟨⟨k, v⟩, haccepted, rfl⟩ := List.mem_map.mp hin
  obtain ⟨hkey, entry, hentry, heq, -⟩ := mem_accepted haccepted
  exact h hkey (List.mem_map.mpr ⟨entry, hentry, heq⟩)

theorem newline_normalizedValue {key value : String} (h : key ≠ "XIAOMAOLV_LOCALE" → '\n' ∉ (trim value).toList) :
    '\n' ∉ (normalizedValue key value).toList := by
  unfold normalizedValue
  split_ifs with hlocale
  · unfold normalizeSupportedLocale
    dsimp only
    split_ifs <;> decide
  · exact h hlocale

theorem writable_accepted (hfile : Writable fileValues)
    (hvalues : ∀ entry ∈ req.values, isKnown entry.1 = true → entry.1 ≠ "XIAOMAOLV_LOCALE" →
      '\n' ∉ (trim entry.2).toList) : Writable (insertAll fileValues req.accepted) := by
  intro key value hvalue
  by_cases hsaved : key ∈ req.accepted.map (·.1)
  · obtain ⟨⟨k, v⟩, haccepted, rfl⟩ := List.mem_map.mp hsaved
    rw [insertAll_of_mem fileValues (nodup_accepted req) haccepted] at hvalue
    obtain rfl := Option.some.inj hvalue
    obtain ⟨hkey, entry, hentry, rfl, rfl⟩ := mem_accepted haccepted
    exact ⟨envKey_of_known hkey, newline_normalizedValue (hvalues entry hentry hkey)⟩
  · rw [insertAll_of_not_mem fileValues hsaved] at hvalue
    exact hfile key value hvalue

/-- A save and the file that it reads: what the file that it writes is read as. -/
structure RoundTrip (fileValues : EnvValues) (req : ConfigUiSaveRequest) (reread : EnvValues) : Prop where
  saved : ∀ entry ∈ req.values, isKnown entry.1 = true →
    reread[entry.1]? = some (normalizedValue entry.1 entry.2)
  /-- A field that is not in the request keeps its value, and may become an empty one. -/
  kept : ∀ key, isKnown key = true → key ∉ req.values.map (·.1) →
    (reread[key]?).getD "" = (fileValues[key]?).getD ""
  /-- No other variable changes, and none is new. -/
  extras : ∀ key, isKnown key = false → reread[key]? = fileValues[key]?
  /-- Loading and saving again changes nothing. -/
  fixed : parseEnvFileValues (renderEnvFile (knownValues reread) (extraValues reread)) = reread

/-- **A save is read back.** What an accepted request writes is read as the saved values and the other variables
as they were, exactly when none of its values has a line break inside. -/
theorem env_round_trip_iff (h : acceptSave environ (readEnvFileValues file) req = .ok (known, extras)) :
    RoundTrip (readEnvFileValues file) req (parseEnvFileValues (renderEnvFile known extras)) ↔
      ∀ entry ∈ req.values, isKnown entry.1 = true → entry.1 ≠ "XIAOMAOLV_LOCALE" →
        '\n' ∉ (trim entry.2).toList := by
  have hfile := writable_readEnvFileValues file
  generalize readEnvFileValues file = fileValues at h hfile ⊢
  constructor
  · intro hround entry hin hkey hlocale
    have hreread := writable_parse _ _ _ (hround.saved entry hin hkey)
    rw [normalizedValue, if_neg hlocale] at hreread
    exact hreread.2
  · intro hvalues
    obtain ⟨rfl, rfl⟩ := acceptSave_eq_ok h
    have hline := writable_accepted hfile hvalues
    have hwritten := getElem?_written hline
    refine ⟨fun entry hin hkey => ?_, fun key hkey hout => ?_, fun key hkey => ?_, ?_⟩
    · rw [hwritten, if_pos hkey, getElem?_saved fileValues hin hkey]
      rfl
    · rw [hwritten, if_pos hkey, getElem?_unsaved fileValues fun _ => hout]
      rfl
    · rw [hwritten, if_neg (by rw [hkey]; exact Bool.false_ne_true),
        getElem?_unsaved fileValues fun hknown => absurd hknown (by rw [hkey]; exact Bool.false_ne_true)]
    · have hagain := getElem?_written (writable_parse (renderEnvFile (knownValues (insertAll fileValues req.accepted))
        (extraValues (insertAll fileValues req.accepted))))
      refine Std.ExtTreeMap.ext_getElem? fun key => ?_
      rw [hagain, hwritten]
      split_ifs <;> rfl

end Save

namespace Sample

/-- No variable of the process has a value. -/
def noEnviron (_ : String) : Option String := none

/-- A request with both required fields. -/
def setup (apiKey : String) : ConfigUiSaveRequest where
  values := [("MINIMAX_API_KEY", apiKey), ("TELEGRAM_BOT_TOKEN", "token")]
  mode := none
  distinct := by simp

end Sample

theorem exists_of_isOk {α β : Type} {x : Except String (α × β)} (h : x.isOk = true) : ∃ a b, x = .ok (a, b) := by
  cases x with
  | error e => cases h
  | ok r => exact ⟨r.1, r.2, rfl⟩

/-- A key with blanks, quotes and a backslash is saved and read back. -/
theorem env_round_trip_quoted : ∃ known extras,
    acceptSave Sample.noEnviron (readEnvFileValues (some "EDITOR=vi\n")) (Sample.setup "a \"b\" \\") =
      .ok (known, extras) ∧
    RoundTrip (readEnvFileValues (some "EDITOR=vi\n")) (Sample.setup "a \"b\" \\")
      (parseEnvFileValues (renderEnvFile known extras)) := by
  have hok : (acceptSave Sample.noEnviron (readEnvFileValues (some "EDITOR=vi\n"))
      (Sample.setup "a \"b\" \\")).isOk = true := by
    decide +kernel
  obtain ⟨known, extras, h⟩ := exists_of_isOk hok
  refine ⟨known, extras, h, (env_round_trip_iff h).mpr ?_⟩
  decide +kernel

/-- A key with a line break brings another variable. -/
theorem injected_variable : ∃ known extras,
    acceptSave Sample.noEnviron (readEnvFileValues none) (Sample.setup "key\nEDITOR=vi") = .ok (known, extras) ∧
    (parseEnvFileValues (renderEnvFile known extras))["EDITOR"]? = some "vi\"" ∧
    ¬ RoundTrip (readEnvFileValues none) (Sample.setup "key\nEDITOR=vi")
      (parseEnvFileValues (renderEnvFile known extras)) := by
  have hok : (acceptSave Sample.noEnviron (readEnvFileValues none) (Sample.setup "key\nEDITOR=vi")).isOk = true := by
    decide +kernel
  obtain ⟨known, extras, h⟩ := exists_of_isOk hok
  obtain ⟨hknown, hextras⟩ := acceptSave_eq_ok h
  have hsaved : known["MINIMAX_API_KEY"]? = some "key\nEDITOR=vi" := by
    rw [hknown]
    decide +kernel
  have hrest : ∀ spec ∈ configUiFields.tail, '\n' ∉ ((known[spec.key]?).getD "").toList := by
    rw [hknown]
    decide +kernel
  have hnone : extras.isEmpty = true := by
    rw [hextras]
    decide +kernel
  -- The value is written on two lines, and each is read as a variable.
  have hfirst : Reads (renderField known (envFileHeader, "") ⟨"MINIMAX_API_KEY", "required", true, ""⟩).1
      (insertAll ∅ [("MINIMAX_API_KEY", "\"key"), ("EDITOR", "vi\"")]) := by
    have hlines : renderEnvLine "MINIMAX_API_KEY" "key\nEDITOR=vi" ++ "\n" =
        "MINIMAX_API_KEY=\"key" ++ "\n" ++ ("EDITOR=vi\"" ++ "\n") := by
      decide +kernel
    have hread : parseEnvLine "MINIMAX_API_KEY=\"key" = some ("MINIMAX_API_KEY", "\"key") ∧
        parseEnvLine "EDITOR=vi\"" = some ("EDITOR", "vi\"") := by
      decide +kernel
    have hcomment : Reads (envFileHeader ++ ("# 1. Required First Step" ++ "\n")) ∅ :=
      reads_header.skip (by decide +kernel) (by decide +kernel)
    have hline : '\n' ∉ "MINIMAX_API_KEY=\"key".toList ∧ '\n' ∉ "EDITOR=vi\"".toList := by decide +kernel
    have hboth := (hcomment.next hline.1).next hline.2
    rw [insertEnvLine, insertEnvLine, hread.1, hread.2, String.append_assoc, ← hlines] at hboth
    have hgroup : "# " ++ localizedGroupName "required" = "# 1. Required First Step" := by decide +kernel
    have hfield : (renderField known (envFileHeader, "") ⟨"MINIMAX_API_KEY", "required", true, ""⟩).1 =
        envFileHeader ++ ("# " ++ localizedGroupName "required" ++ "\n") ++
          (renderEnvLine "MINIMAX_API_KEY" ((known["MINIMAX_API_KEY"]?).getD "") ++ "\n") := by
      simp [renderField]
    rw [hfield, hsaved, Option.getD_some, hgroup]
    exact hboth
  have hfile : parseEnvFileValues (renderEnvFile known extras) =
      insertAll (insertAll ∅ [("MINIMAX_API_KEY", "\"key"), ("EDITOR", "vi\"")])
        (configUiFields.tail.map (fieldEntry known)) := by
    have hfields := Reads.fields hfirst (List.tail_subset configUiFields) hrest
    have hcons : configUiFields = ⟨"MINIMAX_API_KEY", "required", true, ""⟩ :: configUiFields.tail := rfl
    have hfold : configUiFields.foldl (renderField known) (envFileHeader, "") = configUiFields.tail.foldl
        (renderField known) (renderField known (envFileHeader, "") ⟨"MINIMAX_API_KEY", "required", true, ""⟩) :=
      (congrArg (List.foldl (renderField known) (envFileHeader, "")) hcons).trans List.foldl_cons
    unfold renderEnvFile
    dsimp only
    rw [if_pos hnone, hfold]
    exact hfields.parse
  have hother : "EDITOR" ∉ (configUiFields.tail.map (fieldEntry known)).map (·.1) := by
    have hkeys : (configUiFields.tail.map (fieldEntry known)).map (·.1) = configUiFields.tail.map (·.key) := by
      rw [List.map_map]
      rfl
    rw [hkeys]
    decide +kernel
  have hinjected : (parseEnvFileValues (renderEnvFile known extras))["EDITOR"]? = some "vi\"" := by
    rw [hfile, insertAll_of_not_mem _ hother]
    decide +kernel
  refine ⟨known, extras, h, hinjected, fun hround => ?_⟩
  have hextra := hround.extras "EDITOR" (by decide +kernel)
  rw [hinjected, readEnvFileValues, Std.ExtTreeMap.getElem?_empty] at hextra
  cases hextra

end Xiaomaolv
