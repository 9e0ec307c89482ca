import Mathlib.Data.List.Basic
import Mathlib.Data.List.DropRight
import Mathlib.Algebra.Group.Int.Defs
import Mathlib.Algebra.Group.Nat.Defs
import Mathlib.Algebra.GroupWithZero.Nat

/-!
# Texts, JSON values and results

* `trim`, `startsWith`, `like`: the text functions of the source and of SQLite that the store uses.
* `Value`: a `serde_json::Value`; `Value.json` builds an object.
* `StoredMessage`: a message of a conversation.
* `ensure`, `context`: `ensure!` and `.context(…)?` on `Except String`, with the lemmas that peel a
  successful computation apart (`ensure_bind_eq_ok`, `context_bind_eq_ok`, `bind_eq_ok`).
-/

namespace Xiaomaolv

/-! ## Texts -/

/-- A condition on the characters of a text is decided on these, not on all characters. -/
instance (priority := 2000) decidableForallMemChars {p : Char → Prop} [DecidablePred p] (l : List Char) :
    Decidable (∀ c ∈ l, p c) :=
  List.decidableBAll p l

instance (priority := 2000) decidableForallMemOptionChar {p : Char → Prop} [DecidablePred p]
    (o : Option Char) : Decidable (∀ c ∈ o, p c) :=
  Option.decidableForallMem o

/-- Unicode `White_Space`, as `str::trim` uses it. -/
def isWhitespace (c : Char) : Bool :=
  let n := c.toNat
  (9 ≤ n && n ≤ 13) || n == 0x20 || n == 0x85 || n == 0xA0 || n == 0x1680 ||
    (0x2000 ≤ n && n ≤ 0x200A) || n == 0x2028 || n == 0x2029 || n == 0x202F || n == 0x205F ||
    n == 0x3000

/-- `str::trim`. -/
def trim (s : String) : String :=
  String.ofList ((s.toList.dropWhile isWhitespace).reverse.dropWhile isWhitespace).reverse

/-- `str::is_empty` of the trimmed text. -/
def isBlank (s : String) : Bool := s.toList.all isWhitespace

/-- `str::len`, in bytes. -/
def byteLen (s : String) : Nat := s.utf8ByteSize

/-- `s.chars().count()`. -/
def charCount (s : String) : Nat := s.toList.length

/-- `str::starts_with`. -/
def startsWith (s pre : String) : Bool := pre.toList.isPrefixOf s.toList

/-- `str::contains`. -/
def contains (s pattern : String) : Bool := s.toList.tails.any fun t => pattern.toList.isPrefixOf t

/-- `str::split_once`. -/
def splitOnce (pattern : List Char) : List Char → Option (List Char × List Char)
  | [] => if pattern.isEmpty then some ([], []) else none
  | c :: cs =>
    if pattern.isPrefixOf (c :: cs) then some ([], (c :: cs).drop pattern.length)
    else (splitOnce pattern cs).map fun r => (c :: r.1, r.2)

/-- `s.chars().take(n).collect()`. -/
def takeChars (n : Nat) (s : String) : String := String.ofList (s.toList.take n)

/-- `str::to_ascii_lowercase`. -/
def toAsciiLowercase (s : String) : String := String.ofList (s.toList.map Char.toLower)

/-- The complete lines of the buffer, and what stays in it. -/
def takeLines : List Char → List (List Char) × List Char
  | [] => ([], [])
  | c :: cs =>
    let (lines, rest) := takeLines cs
    if c = '\n' then ([] :: lines, rest)
    else
      match lines with
      | [] => ([], c :: rest)
      | line :: lines => ((c :: line) :: lines, rest)

/-- A line without the `\r` at its end. -/
def chomp (line : List Char) : String :=
  String.ofList (if line.getLast? = some '\r' then line.dropLast else line)

/-- SQLite's `value LIKE pattern ESCAPE '\'`: `%` is any text, `_` any character, and letters
compare without their ASCII case. -/
def like : List Char → List Char → Bool
  | [], v => v.isEmpty
  | '\\' :: c :: p, v =>
    match v with
    | [] => false
    | x :: v => c.toLower == x.toLower && like p v
  | '%' :: p, v => v.tails.any (like p)
  | '_' :: p, v =>
    match v with
    | [] => false
    | _ :: v => like p v
  | c :: p, v =>
    match v with
    | [] => false
    | x :: v => c.toLower == x.toLower && like p v

/-- Escapes `LIKE` wildcards so a stored reason can be matched by prefix. -/
def escapeLike (value : String) : List Char :=
  value.toList.flatMap fun c => if c == '\\' || c == '%' || c == '_' then ['\\', c] else [c]

theorem dropWhile_reverse_dropWhile {α : Type} (p : α → Bool) {l : List α} (h : l.dropWhile p = l) :
    ((l.reverse.dropWhile p).reverse).dropWhile p = (l.reverse.dropWhile p).reverse := by
  cases l with
  | nil => rfl
  | cons a l =>
    have ha : p a = false := by
      by_contra hp
      rw [List.dropWhile_cons_of_pos (by simpa using hp)] at h
      have := congrArg List.length h
      have hle := (List.dropWhile_sublist p (l := l)).length_le
      simp only [List.length_cons] at this
      omega
    have hcut : ∃ m, (a :: l).reverse.dropWhile p = m ++ [a] := by
      rw [List.reverse_cons, List.dropWhile_append]
      split_ifs with hl
      · exact ⟨[], by simp [ha]⟩
      · exact ⟨_, rfl⟩
    obtain ⟨m, hm⟩ := hcut
    rw [hm, List.reverse_append, List.reverse_singleton, List.singleton_append,
      List.dropWhile_cons_of_neg (by simp [ha])]

@[simp] theorem trim_trim (s : String) : trim (trim s) = trim s := by
  have hstart : ((trim s).toList).dropWhile isWhitespace = (trim s).toList := by
    rw [trim, String.toList_ofList]
    exact dropWhile_reverse_dropWhile _ (List.dropWhile_idempotent _ _)
  have hend : (trim s).toList.reverse.dropWhile isWhitespace = (trim s).toList.reverse := by
    rw [trim, String.toList_ofList, List.reverse_reverse]
    exact List.dropWhile_idempotent _ _
  rw [trim, hstart, hend, List.reverse_reverse, String.ofList_toList]

/-! ## JSON values -/

mutual

/-- A `serde_json::Value`. A number is an integer or, as its text, a float. -/
inductive Value where
  | null
  | bool (b : Bool)
  | int (n : Int)
  | float (digits : String)
  | string (s : String)
  | array (values : Values)
  | object (fields : Fields)

inductive Values where
  | nil
  | cons (value : Value) (values : Values)

inductive Fields where
  | nil
  | cons (key : String) (value : Value) (fields : Fields)

end

deriving instance DecidableEq for Value, Values, Fields

def Values.toList : Values → List Value
  | .nil => []
  | .cons v vs => v :: vs.toList

theorem Fields.along {motive : Fields → Prop} (nil : motive .nil)
    (cons : ∀ key value fields, motive fields → motive (.cons key value fields)) : ∀ fields, motive fields
  | .nil => nil
  | .cons key value fields => cons key value fields (Fields.along nil cons fields)

def Fields.find (key : String) : Fields → Option Value
  | .nil => none
  | .cons k v fs => if k = key then some v else fs.find key

namespace Value

/-- `Value::get` with a string key. -/
def get (key : String) : Value → Option Value
  | object fields => fields.find key
  | _ => none

def asBool : Value → Option Bool
  | bool b => some b
  | _ => none

/-- `Value::as_u64`. -/
def asU64 : Value → Option Nat
  | int n => if 0 ≤ n ∧ n < 2 ^ 64 then some n.toNat else none
  | _ => none

def asStr : Value → Option String
  | string s => some s
  | _ => none

def asArray : Value → Option (List Value)
  | array values => some values.toList
  | _ => none

end Value

def Values.ofList : List Value → Values
  | [] => .nil
  | v :: vs => .cons v (ofList vs)

def Fields.ofList : List (String × Value) → Fields
  | [] => .nil
  | (k, v) :: fs => .cons k v (ofList fs)

namespace Value

/-- `serde_json::json!({…})`. -/
def json (fields : List (String × Value)) : Value := .object (.ofList fields)

def strings (l : List String) : Value := .array (.ofList (l.map .string))

def ofOption : Option String → Value
  | some s => .string s
  | none => .null

end Value

theorem Fields.find_ofList (key : String) (fields : List (String × Value)) :
    (Fields.ofList fields).find key = (fields.find? fun f => f.1 = key).map (·.2) := by
  induction fields with
  | nil => rfl
  | cons f fields ih =>
    rw [ofList, find, List.find?_cons, ih]
    by_cases h : f.1 = key
    · simp [h]
    · simp [h]

theorem Values.toList_ofList (values : List Value) : (Values.ofList values).toList = values := by
  induction values with
  | nil => rfl
  | cons v values ih => rw [ofList, toList, ih]

@[simp] theorem Value.get_json (key : String) (fields : List (String × Value)) :
    (Value.json fields).get key = (fields.find? fun f => f.1 = key).map (·.2) :=
  Fields.find_ofList key fields

/-! ## Messages -/

inductive MessageRole
  | user
  | assistant
  | system
deriving DecidableEq, Repr

def MessageRole.asStr : MessageRole → String
  | user => "user"
  | assistant => "assistant"
  | system => "system"

def MessageRole.ofStr? : String → Option MessageRole
  | "user" => some user
  | "assistant" => some assistant
  | "system" => some system
  | _ => none

structure StoredMessage where
  role : MessageRole
  content : String
deriving DecidableEq, Repr

/-! ## Results -/

/-- `ensure!(cond, message)`. -/
def ensure (cond : Bool) (message : String) : Except String Unit :=
  if cond then .ok () else .error message

/-- `value.context(message)?`. -/
def context {α : Type} (value : Option α) (message : String) : Except String α :=
  match value with
  | some a => .ok a
  | none => .error message

section

variable {α β : Type}

theorem bind_eq_ok {x : Except String α} {f : α → Except String β} {r : β} :
    (x >>= f) = .ok r ↔ ∃ a, x = .ok a ∧ f a = .ok r := by
  cases x with
  | error e => simp [bind, Except.bind]
  | ok a => simp [bind, Except.bind]

theorem ensure_eq_ok {cond : Bool} {message : String} {u : Unit} :
    ensure cond message = .ok u ↔ cond = true := by
  unfold ensure
  cases cond <;> simp

theorem ensure_bind_eq_ok {cond : Bool} {message : String} {f : Unit → Except String β} {r : β} :
    (ensure cond message >>= f) = .ok r ↔ cond = true ∧ f () = .ok r := by
  cases cond <;> simp [ensure, bind, Except.bind]

theorem context_eq_ok {value : Option α} {message : String} {a : α} :
    context value message = .ok a ↔ value = some a := by
  cases value <;> simp [context]

theorem context_bind_eq_ok {value : Option α} {message : String} {f : α → Except String β} {r : β} :
    (context value message >>= f) = .ok r ↔ ∃ a, value = some a ∧ f a = .ok r := by
  simp [bind_eq_ok, context_eq_ok]

theorem bind_eq_error {x : Except String α} {f : α → Except String β} {e : String} :
    (x >>= f) = .error e ↔ x = .error e ∨ ∃ a, x = .ok a ∧ f a = .error e := by
  cases x with
  | error e => simp [bind, Except.bind]
  | ok a => simp [bind, Except.bind]

theorem ensure_eq_error {cond : Bool} {message e : String} :
    ensure cond message = .error e ↔ cond = false ∧ message = e := by
  unfold ensure
  cases cond <;> simp

theorem context_eq_error {value : Option α} {message e : String} :
    context value message = .error e ↔ value = none ∧ message = e := by
  cases value <;> simp [context]

theorem fmap_eq_ok {f : α → β} {x : Except String α} {b : β} :
    f <$> x = .ok b ↔ ∃ a, x = .ok a ∧ f a = b := by
  cases x <;> simp [Functor.map, Except.map]

theorem pure_eq_ok {a b : α} : (pure a : Except String α) = .ok b ↔ a = b := by
  simp [pure, Except.pure]

end

end Xiaomaolv
