import Xiaomaolv.Lib.Decimal
import Xiaomaolv.Loop.Json

/-!
# JSON texts

`serde_json::to_string` writes a value without blanks. What it writes says where the value ends, and which value it
is.

* `Value.text`: the text of a value; `length_text`: `Value.jsonLen` counts its bytes.
* `Printed`: the floats of a value are written as `serde_json` writes floats.
* `jsonString_split`: a string ends at its quote.
* **`text_split`**: two texts that go on differently are texts of one value only if they are equal.
-/

namespace Xiaomaolv

/-! ## The text of a value -/

/-- A hexadecimal digit, in lower case. -/
def hexChar (n : Nat) : Char := Char.ofNat (if n < 10 then 48 + n else 87 + n)

/-- A character in a `serde_json` string. -/
def jsonChar (c : Char) : List Char :=
  let n := c.toNat
  if n = 0x22 then ['\\', '"']
  else if n = 0x5C then ['\\', '\\']
  else if n = 0x08 then ['\\', 'b']
  else if n = 0x09 then ['\\', 't']
  else if n = 0x0A then ['\\', 'n']
  else if n = 0x0C then ['\\', 'f']
  else if n = 0x0D then ['\\', 'r']
  else if n < 0x20 then ['\\', 'u', '0', '0', hexChar (n / 16), hexChar (n % 16)]
  else [c]

def jsonString (s : String) : List Char := '"' :: (s.toList.flatMap jsonChar ++ ['"'])

def intText (n : Int) : List Char :=
  if n < 0 then '-' :: Nat.toDigits 10 n.natAbs else Nat.toDigits 10 n.natAbs

mutual

/-- `serde_json::to_string(value)`. -/
def Value.text : Value → List Char
  | .null => ['n', 'u', 'l', 'l']
  | .bool true => ['t', 'r', 'u', 'e']
  | .bool false => ['f', 'a', 'l', 's', 'e']
  | .int n => intText n
  | .float digits => digits.toList
  | .string s => jsonString s
  | .array values => '[' :: values.text true
  | .object fields => '{' :: fields.text true

/-- The entries that are left of an array, and its bracket. -/
def Values.text : Bool → Values → List Char
  | _, .nil => [']']
  | first, .cons value values => (if first then [] else [',']) ++ value.text ++ values.text false

/-- The fields that are left of an object, and its brace. -/
def Fields.text : Bool → Fields → List Char
  | _, .nil => ['}']
  | first, .cons key value fields =>
    (if first then [] else [',']) ++ jsonString key ++ ':' :: value.text ++ fields.text false

end

/-- A character of a number. -/
def isNumberChar (c : Char) : Bool := c.isDigit || c = '-' || c = '+' || c = '.' || c = 'e' || c = 'E'

mutual

/-- Every float is written with a point or an exponent. -/
def Value.Printed : Value → Prop
  | .float digits => (∀ c ∈ digits.toList, isNumberChar c) ∧ ∃ c ∈ digits.toList, c = '.' ∨ c = 'e'
  | .array values => values.Printed
  | .object fields => fields.Printed
  | _ => True

def Values.Printed : Values → Prop
  | .nil => True
  | .cons value values => value.Printed ∧ values.Printed

def Fields.Printed : Fields → Prop
  | .nil => True
  | .cons _ value fields => value.Printed ∧ fields.Printed

end

/-! ## The length of a text -/

/-- The bytes of some characters. -/
def bytes (l : List Char) : Nat := (l.map Char.utf8Size).sum

@[simp] theorem bytes_nil : bytes [] = 0 := rfl

@[simp] theorem bytes_cons (c : Char) (l : List Char) : bytes (c :: l) = c.utf8Size + bytes l := rfl

@[simp] theorem bytes_append (l m : List Char) : bytes (l ++ m) = bytes l + bytes m := by
  simp [bytes]

theorem bytes_toList (s : String) : bytes s.toList = byteLen s := by
  have h : ∀ l : List Char, bytes l = (String.ofList l).utf8ByteSize := by
    intro l
    induction l with
    | nil => rfl
    | cons c l ih => rw [bytes_cons, ih, String.ofList_cons, String.utf8ByteSize_append, String.utf8ByteSize_singleton]
  rw [h, String.ofList_toList, byteLen]

theorem utf8Size_hexChar : ∀ n < 16, (hexChar n).utf8Size = 1 := by decide

theorem bytes_jsonChar (c : Char) : bytes (jsonChar c) = jsonCharLen c := by
  unfold jsonChar jsonCharLen
  dsimp only
  split_ifs with h1 h2 h3 h4 h5 h6 h7 h8
  all_goals first
    | rfl
    | simp_all
  have hlow := utf8Size_hexChar (c.toNat % 16) (by omega)
  have hhigh := utf8Size_hexChar (c.toNat / 16) (by omega)
  rw [hlow, hhigh]
  decide

theorem bytes_jsonString (s : String) : bytes (jsonString s) = jsonStringLen s := by
  have hchars : ∀ l : List Char, bytes (l.flatMap jsonChar) = (l.map jsonCharLen).sum := by
    intro l
    induction l with
    | nil => rfl
    | cons c l ih => rw [List.flatMap_cons, bytes_append, bytes_jsonChar, ih, List.map_cons, List.sum_cons]
  have hquote : ('"' : Char).utf8Size = 1 := by decide
  rw [jsonString, bytes_cons, bytes_append, hchars, bytes_cons, bytes_nil, hquote, jsonStringLen]
  omega

theorem toList_intText (n : Int) : (toString n).toList = intText n := by
  rw [Decimal.toList_toString, intText]
  by_cases hneg : n < 0
  · rw [if_pos hneg, if_neg (by omega), Nat.toList_repr, show (-n).toNat = n.natAbs by omega]
  · rw [if_neg hneg, if_pos (by omega), Nat.toList_repr, show n.toNat = n.natAbs by omega]

theorem mem_intText {n : Int} {c : Char} (h : c ∈ intText n) : c.isDigit = true ∨ c = '-' := by
  rw [← toList_intText] at h
  exact Decimal.mem_toString h

theorem utf8Size_ascii {c : Char} (h : c.isDigit = true ∨ c = '-') : c.utf8Size = 1 := by
  rcases h with h | rfl
  · simp only [Char.isDigit, Bool.and_eq_true, decide_eq_true_eq] at h
    exact Char.utf8Size_eq_one_iff.mpr (UInt32.le_trans h.2 (by decide))
  · decide

theorem bytes_intText (n : Int) : bytes (intText n) = (intText n).length := by
  have hone : ∀ l : List Char, (∀ c ∈ l, c.utf8Size = 1) → bytes l = l.length := by
    intro l hl
    induction l with
    | nil => rfl
    | cons c l ih =>
      rw [bytes_cons, hl c List.mem_cons_self, ih fun c hc => hl c (List.mem_cons_of_mem _ hc), List.length_cons]
      omega
  exact hone _ fun c hc => utf8Size_ascii (mem_intText hc)

mutual

theorem length_text : ∀ v : Value, bytes v.text = v.jsonLen
  | .null => rfl
  | .bool true => rfl
  | .bool false => rfl
  | .int n => by
    change bytes (intText n) = (toString n).length
    rw [bytes_intText, ← toList_intText, String.length_toList]
  | .float digits => bytes_toList digits
  | .string s => bytes_jsonString s
  | .array values => by
    have hopen : ('[' : Char).utf8Size = 1 := by decide
    change ('[' : Char).utf8Size + bytes (values.text true) = 2 + values.jsonLen
    rw [(length_values values).1, hopen]
    omega
  | .object fields => by
    have hopen : ('\x7b' : Char).utf8Size = 1 := by decide
    change ('\x7b' : Char).utf8Size + bytes (fields.text true) = 2 + fields.jsonLen
    rw [(length_fields fields).1, hopen]
    omega

theorem length_values : ∀ values : Values, bytes (values.text true) = values.jsonLen + 1 ∧
    bytes (values.text false) = if values = .nil then 1 else values.jsonLen + 2
  | .nil => ⟨rfl, rfl⟩
  | .cons value values => by
    have hcomma : (',' : Char).utf8Size = 1 := by decide
    have hsum : bytes (value.text ++ values.text false) = (Values.cons value values).jsonLen + 1 := by
      rw [bytes_append, length_text value, (length_values values).2]
      cases values with
      | nil => rfl
      | cons w values =>
        rw [if_neg (by simp)]
        change _ = value.jsonLen + 1 + (Values.cons w values).jsonLen + 1
        omega
    refine ⟨hsum, ?_⟩
    rw [if_neg (by simp)]
    change (',' : Char).utf8Size + bytes (value.text ++ values.text false) = _
    omega

theorem length_fields : ∀ fields : Fields, bytes (fields.text true) = fields.jsonLen + 1 ∧
    bytes (fields.text false) = if fields = .nil then 1 else fields.jsonLen + 2
  | .nil => ⟨rfl, rfl⟩
  | .cons key value fields => by
    have hcomma : (',' : Char).utf8Size = 1 := by decide
    have hcolon : (':' : Char).utf8Size = 1 := by decide
    have hsum : bytes (jsonString key ++ ':' :: value.text ++ fields.text false) =
        (Fields.cons key value fields).jsonLen + 1 := by
      rw [bytes_append, bytes_append, bytes_cons, bytes_jsonString, length_text value, (length_fields fields).2,
        hcolon]
      cases fields with
      | nil =>
        change _ = jsonStringLen key + 1 + value.jsonLen + 1
        rw [if_pos rfl]
        omega
      | cons k w fields =>
        rw [if_neg (by simp)]
        change _ = jsonStringLen key + 1 + value.jsonLen + 1 + (Fields.cons k w fields).jsonLen + 1
        omega
    refine ⟨hsum, ?_⟩
    rw [if_neg (by simp)]
    change (',' : Char).utf8Size + bytes (jsonString key ++ ':' :: value.text ++ fields.text false) = _
    omega

end

/-! ## Strings -/

def hexValue (c : Char) : Nat := if c.toNat < 58 then c.toNat - 48 else c.toNat - 87

theorem hexValue_hexChar : ∀ n < 16, hexValue (hexChar n) = n := by decide

/-- One character back from its text. -/
def unescape : List Char → Option (Char × List Char)
  | '\\' :: 'u' :: '0' :: '0' :: a :: b :: rest => some (Char.ofNat (16 * hexValue a + hexValue b), rest)
  | '\\' :: '"' :: rest => some ('"', rest)
  | '\\' :: '\\' :: rest => some ('\\', rest)
  | '\\' :: 'b' :: rest => some (Char.ofNat 0x08, rest)
  | '\\' :: 't' :: rest => some (Char.ofNat 0x09, rest)
  | '\\' :: 'n' :: rest => some (Char.ofNat 0x0A, rest)
  | '\\' :: 'f' :: rest => some (Char.ofNat 0x0C, rest)
  | '\\' :: 'r' :: rest => some (Char.ofNat 0x0D, rest)
  | c :: rest => some (c, rest)
  | [] => none

theorem eq_ofNat {c : Char} {n : Nat} (h : c.toNat = n) : c = Char.ofNat n := by
  rw [← h, Char.ofNat_toNat]

theorem unescape_jsonChar (c : Char) (rest : List Char) : unescape (jsonChar c ++ rest) = some (c, rest) := by
  unfold jsonChar
  dsimp only
  split_ifs with h1 h2 h3 h4 h5 h6 h7 h8
  · rw [eq_ofNat h1]; rfl
  · rw [eq_ofNat h2]; rfl
  · rw [eq_ofNat h3]; rfl
  · rw [eq_ofNat h4]; rfl
  · rw [eq_ofNat h5]; rfl
  · rw [eq_ofNat h6]; rfl
  · rw [eq_ofNat h7]; rfl
  · change some (Char.ofNat (16 * hexValue (hexChar (c.toNat / 16)) + hexValue (hexChar (c.toNat % 16))), rest) = _
    rw [hexValue_hexChar _ (by omega), hexValue_hexChar _ (by omega), Nat.div_add_mod, Char.ofNat_toNat]
  · have hne : c ≠ '\\' := fun h => h2 (by rw [h]; rfl)
    rw [List.singleton_append]
    unfold unescape
    split
    case h_9 => simp_all
    case h_10 => simp_all
    all_goals
      next heq => exact absurd (List.cons.inj heq).1 hne

theorem jsonChar_head (c : Char) : ∃ a l, jsonChar c = a :: l ∧ a ≠ '"' := by
  unfold jsonChar
  dsimp only
  split_ifs with h1
  · exact ⟨_, _, rfl, by decide⟩
  · exact ⟨_, _, rfl, by decide⟩
  · exact ⟨_, _, rfl, by decide⟩
  · exact ⟨_, _, rfl, by decide⟩
  · exact ⟨_, _, rfl, by decide⟩
  · exact ⟨_, _, rfl, by decide⟩
  · exact ⟨_, _, rfl, by decide⟩
  · exact ⟨_, _, rfl, by decide⟩
  · exact ⟨_, _, rfl, fun h => h1 (by rw [h]; rfl)⟩

theorem chars_split {rest rest' : List Char} : ∀ {cs ds : List Char},
    cs.flatMap jsonChar ++ '"' :: rest = ds.flatMap jsonChar ++ '"' :: rest' → cs = ds ∧ rest = rest'
  | [], [], h => ⟨rfl, (List.cons.inj h).2⟩
  | [], d :: ds, h => by
    obtain ⟨a, l, hd, hne⟩ := jsonChar_head d
    rw [List.flatMap_cons, hd] at h
    exact absurd (List.cons.inj h).1.symm hne
  | c :: cs, [], h => by
    obtain ⟨a, l, hc, hne⟩ := jsonChar_head c
    rw [List.flatMap_cons, hc] at h
    exact absurd (List.cons.inj h).1 hne
  | c :: cs, d :: ds, h => by
    rw [List.flatMap_cons, List.flatMap_cons, List.append_assoc, List.append_assoc] at h
    have hboth := congrArg unescape h
    rw [unescape_jsonChar, unescape_jsonChar, Option.some.injEq, Prod.mk.injEq] at hboth
    obtain ⟨hcs, hrest⟩ := chars_split hboth.2
    exact ⟨by rw [hboth.1, hcs], hrest⟩

theorem jsonString_split {s s' : String} {rest rest' : List Char}
    (h : jsonString s ++ rest = jsonString s' ++ rest') : s = s' ∧ rest = rest' := by
  unfold jsonString at h
  simp only [List.cons_append, List.append_assoc, List.cons.injEq, true_and] at h
  obtain ⟨hchars, hrest⟩ := chars_split h
  exact ⟨String.toList_inj.mp hchars, hrest⟩

/-! ## Numbers -/

/-- What follows a number. -/
def Stops (rest : List Char) : Prop := ∀ c ∈ rest.head?, isNumberChar c = false

theorem number_split {l l' rest rest' : List Char} (hl : ∀ c ∈ l, isNumberChar c)
    (hl' : ∀ c ∈ l', isNumberChar c) (hrest : Stops rest) (hrest' : Stops rest') (h : l ++ rest = l' ++ rest') :
    l = l' ∧ rest = rest' := by
  have hcut : ∀ {m r : List Char}, (∀ c ∈ m, isNumberChar c) → Stops r → (m ++ r).takeWhile isNumberChar = m := by
    intro m r hm hr
    rw [List.takeWhile_append_of_pos hm]
    cases r with
    | nil => simp
    | cons c r => rw [List.takeWhile_cons_of_neg (by simp [hr c rfl]), List.append_nil]
  have hsame := hcut hl hrest
  rw [h, hcut hl' hrest'] at hsame
  subst hsame
  exact ⟨rfl, List.append_cancel_left h⟩

theorem intText_number {n : Int} : ∀ c ∈ intText n, isNumberChar c := by
  intro c hc
  rcases mem_intText hc with h | h
  · simp [isNumberChar, h]
  · simp [isNumberChar, h]

theorem intText_inj {m n : Int} (h : intText m = intText n) : m = n := by
  rw [← toList_intText, ← toList_intText] at h
  exact Decimal.toString_inj (String.toList_inj.mp h)

theorem float_ne_int {digits : String} {n : Int} (hp : (Value.float digits).Printed) :
    digits.toList ≠ intText n := by
  intro h
  obtain ⟨-, c, hc, hpoint⟩ := hp
  rw [h] at hc
  rcases mem_intText hc with hdigit | hminus
  · rcases hpoint with rfl | rfl
    · exact absurd hdigit (by decide)
    · exact absurd hdigit (by decide)
  · rcases hpoint with rfl | rfl
    · exact absurd hminus (by decide)
    · exact absurd hminus (by decide)

/-! ## Values -/

/-- What a first character says about a value. -/
def charKind (c : Char) : Nat :=
  if c = 'n' then 0 else if c = 't' then 1 else if c = 'f' then 2 else if c = '"' then 3
  else if c = '[' then 4 else if c = '\x7b' then 5 else 6

def Value.kind : Value → Nat
  | .null => 0
  | .bool true => 1
  | .bool false => 2
  | .string _ => 3
  | .array _ => 4
  | .object _ => 5
  | .int _ => 6
  | .float _ => 6

theorem charKind_number {c : Char} (h : isNumberChar c) : charKind c = 6 ∧ c ≠ ']' := by
  have hne : ∀ d, isNumberChar d = false → c ≠ d := by
    rintro d hd rfl
    rw [hd] at h
    cases h
  refine ⟨?_, hne _ (by decide)⟩
  unfold charKind
  rw [if_neg (hne _ (by decide)), if_neg (hne _ (by decide)), if_neg (hne _ (by decide)),
    if_neg (hne _ (by decide)), if_neg (hne _ (by decide)), if_neg (hne _ (by decide))]

theorem number_head {l : List Char} (hne : l ≠ []) (h : ∀ c ∈ l, isNumberChar c) :
    ∃ c t, l = c :: t ∧ charKind c = 6 ∧ c ≠ ']' := by
  obtain ⟨c, t, rfl⟩ := List.exists_cons_of_ne_nil hne
  exact ⟨c, t, rfl, charKind_number (h c List.mem_cons_self)⟩

theorem text_head {v : Value} (hp : v.Printed) : ∃ c l, v.text = c :: l ∧ charKind c = v.kind ∧ c ≠ ']' := by
  cases v with
  | null => exact ⟨_, _, rfl, rfl, by decide⟩
  | bool b => cases b <;> exact ⟨_, _, rfl, rfl, by decide⟩
  | int n =>
    refine number_head (fun h => ?_) intText_number
    change intText n = [] at h
    unfold intText at h
    split_ifs at h
    exact Nat.toDigits_ne_nil h
  | float digits =>
    obtain ⟨hall, c, hc, -⟩ := hp
    exact number_head (List.ne_nil_of_mem hc) hall
  | string s => exact ⟨_, _, rfl, rfl, by decide⟩
  | array values => exact ⟨_, _, rfl, rfl, by decide⟩
  | object fields => exact ⟨_, _, rfl, rfl, by decide⟩

theorem values_stops (values : Values) (rest : List Char) : Stops (values.text false ++ rest) := by
  cases values with
  | nil => rintro c ⟨⟩; rfl
  | cons value values => rintro c ⟨⟩; rfl

theorem fields_stops (fields : Fields) (rest : List Char) : Stops (fields.text false ++ rest) := by
  cases fields with
  | nil => rintro c ⟨⟩; rfl
  | cons key value fields => rintro c ⟨⟩; rfl

mutual

/-- **The text of a value says where it ends and which value it is.** -/
theorem text_split : ∀ {v v' : Value} {rest rest' : List Char}, v.Printed → v'.Printed → Stops rest →
    Stops rest' → v.text ++ rest = v'.text ++ rest' → v = v' ∧ rest = rest' := by
  intro v v' rest rest' hp hp' hrest hrest' h
  have hkind : v.kind = v'.kind := by
    obtain ⟨c, l, htext, hc, -⟩ := text_head hp
    obtain ⟨c', l', htext', hc', -⟩ := text_head hp'
    rw [htext, htext'] at h
    rw [← hc, ← hc', (List.cons.inj h).1]
  match v, v', hkind with
  | .null, .null, _ => exact ⟨rfl, List.append_cancel_left h⟩
  | .bool true, .bool true, _ => exact ⟨rfl, List.append_cancel_left h⟩
  | .bool false, .bool false, _ => exact ⟨rfl, List.append_cancel_left h⟩
  | .int n, .int m, _ =>
    obtain ⟨hl, hr⟩ := number_split intText_number intText_number hrest hrest' h
    exact ⟨congrArg Value.int (intText_inj hl), hr⟩
  | .int n, .float digits, _ =>
    exact absurd (number_split intText_number hp'.1 hrest hrest' h).1.symm (float_ne_int hp')
  | .float digits, .int n, _ =>
    exact absurd (number_split hp.1 intText_number hrest hrest' h).1 (float_ne_int hp)
  | .float digits, .float digits', _ =>
    obtain ⟨hl, hr⟩ := number_split hp.1 hp'.1 hrest hrest' h
    exact ⟨congrArg Value.float (String.toList_inj.mp hl), hr⟩
  | .string s, .string s', _ =>
    obtain ⟨hs, hr⟩ := jsonString_split h
    exact ⟨congrArg Value.string hs, hr⟩
  | .array values, .array values', _ =>
    obtain ⟨hv, hr⟩ := values_split hp hp' (List.cons.inj h).2
    exact ⟨congrArg Value.array hv, hr⟩
  | .object fields, .object fields', _ =>
    obtain ⟨hf, hr⟩ := fields_split hp hp' (List.cons.inj h).2
    exact ⟨congrArg Value.object hf, hr⟩

theorem values_split : ∀ {values values' : Values} {first : Bool} {rest rest' : List Char}, values.Printed →
    values'.Printed → values.text first ++ rest = values'.text first ++ rest' → values = values' ∧ rest = rest'
  | .nil, .nil, _, _, _, _, _, h => ⟨rfl, (List.cons.inj h).2⟩
  | .nil, .cons value values, first, _, _, _, hp', h => by
    obtain ⟨c, l, htext, -, hne⟩ := text_head hp'.1
    cases first with
    | false => exact absurd (List.cons.inj h).1 (by decide)
    | true =>
      rw [Values.text, Values.text, htext] at h
      exact absurd (List.cons.inj h).1.symm hne
  | .cons value values, .nil, first, _, _, hp, _, h => by
    obtain ⟨c, l, htext, -, hne⟩ := text_head hp.1
    cases first with
    | false => exact absurd (List.cons.inj h).1 (by decide)
    | true =>
      rw [Values.text, Values.text, htext] at h
      exact absurd (List.cons.inj h).1 hne
  | .cons value values, .cons value' values', first, rest, rest', hp, hp', h => by
    rw [Values.text, Values.text, List.append_assoc, List.append_assoc, List.append_assoc, List.append_assoc,
      List.append_cancel_left_eq] at h
    obtain ⟨hvalue, hr⟩ := text_split hp.1 hp'.1 (values_stops values rest) (values_stops values' rest') h
    obtain ⟨hvalues, hrest⟩ := values_split hp.2 hp'.2 hr
    exact ⟨by rw [hvalue, hvalues], hrest⟩

theorem fields_split : ∀ {fields fields' : Fields} {first : Bool} {rest rest' : List Char}, fields.Printed →
    fields'.Printed → fields.text first ++ rest = fields'.text first ++ rest' → fields = fields' ∧ rest = rest'
  | .nil, .nil, _, _, _, _, _, h => ⟨rfl, (List.cons.inj h).2⟩
  | .nil, .cons key value fields, first, _, _, _, _, h => by
    cases first with
    | false => exact absurd (List.cons.inj h).1 (by decide)
    | true => exact absurd (List.cons.inj h).1 (by decide)
  | .cons key value fields, .nil, first, _, _, _, _, h => by
    cases first with
    | false => exact absurd (List.cons.inj h).1 (by decide)
    | true => exact absurd (List.cons.inj h).1 (by decide)
  | .cons key value fields, .cons key' value' fields', first, rest, rest', hp, hp', h => by
    simp only [Fields.text, List.append_assoc, List.append_cancel_left_eq] at h
    obtain ⟨hkey, hr⟩ := jsonString_split h
    obtain ⟨hvalue, hr⟩ := text_split hp.1 hp'.1 (fields_stops fields rest) (fields_stops fields' rest')
      (List.cons.inj hr).2
    obtain ⟨hfields, hrest⟩ := fields_split hp.2 hp'.2 hr
    exact ⟨by rw [hkey, hvalue, hfields], hrest⟩

end

end Xiaomaolv
