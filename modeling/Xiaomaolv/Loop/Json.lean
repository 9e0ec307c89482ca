import Xiaomaolv.Loop.Data

/-!
# The length of JSON texts

* `Value.jsonLen`: the bytes of a value as `serde_json` writes it.
* `jsonLen_array`, `jsonLen_strings`, `jsonLen_json`: a value is as long as its parts and what stands
  between them.
-/

namespace Xiaomaolv

/-! ## The length -/

/-- The bytes of a character in a `serde_json` string. -/
def jsonCharLen (c : Char) : Nat :=
  let n := c.toNat
  if n = 0x22 || n = 0x5C || n = 0x08 || n = 0x09 || n = 0x0A || n = 0x0C || n = 0x0D then 2
  else if n < 0x20 then 6
  else c.utf8Size

def jsonStringLen (s : String) : Nat := 2 + (s.toList.map jsonCharLen).sum

mutual

/-- `serde_json::to_string(value).len()`. -/
def Value.jsonLen : Value → Nat
  | .null => 4
  | .bool true => 4
  | .bool false => 5
  | .int n => (toString n).length
  | .float digits => byteLen digits
  | .string s => jsonStringLen s
  | .array values => 2 + values.jsonLen
  | .object fields => 2 + fields.jsonLen

/-- The entries with the commas between them. -/
def Values.jsonLen : Values → Nat
  | .nil => 0
  | .cons value .nil => value.jsonLen
  | .cons value values => value.jsonLen + 1 + values.jsonLen

def Fields.jsonLen : Fields → Nat
  | .nil => 0
  | .cons key value .nil => jsonStringLen key + 1 + value.jsonLen
  | .cons key value fields => jsonStringLen key + 1 + value.jsonLen + 1 + fields.jsonLen

end

/-! ## Arrays and objects -/

namespace Value

@[simp] theorem jsonLen_bool (b : Bool) : (Value.bool b).jsonLen = if b then 4 else 5 := by
  cases b <;> rfl

@[simp] theorem jsonLen_string (s : String) : (Value.string s).jsonLen = jsonStringLen s := rfl

theorem jsonLen_values (v : Value) (values : List Value) :
    (Values.ofList (v :: values)).jsonLen + 1 = ((v :: values).map fun v => v.jsonLen + 1).sum := by
  induction values generalizing v with
  | nil => rfl
  | cons w values ih =>
    rw [List.map_cons, List.sum_cons, ← ih w]
    change v.jsonLen + 1 + (Values.ofList (w :: values)).jsonLen + 1 = _
    omega

theorem jsonLen_array (values : List Value) :
    (Value.array (.ofList values)).jsonLen = 1 + max 1 (values.map fun v => v.jsonLen + 1).sum := by
  change 2 + (Values.ofList values).jsonLen = _
  cases values with
  | nil => rfl
  | cons v values =>
    have h := jsonLen_values v values
    omega

theorem jsonLen_strings (l : List String) :
    (Value.strings l).jsonLen = 1 + max 1 (l.map fun s => jsonStringLen s + 1).sum := by
  unfold strings
  rw [jsonLen_array, List.map_map]
  rfl

theorem jsonLen_fields (f : String × Value) (fields : List (String × Value)) :
    (Fields.ofList (f :: fields)).jsonLen + 1 =
      ((f :: fields).map fun f => jsonStringLen f.1 + f.2.jsonLen + 2).sum := by
  induction fields generalizing f with
  | nil =>
    rw [List.map_singleton, List.sum_singleton]
    change jsonStringLen f.1 + 1 + f.2.jsonLen + 1 = _
    omega
  | cons g fields ih =>
    rw [List.map_cons, List.sum_cons, ← ih g]
    change jsonStringLen f.1 + 1 + f.2.jsonLen + 1 + (Fields.ofList (g :: fields)).jsonLen + 1 = _
    omega

theorem jsonLen_json (f : String × Value) (fields : List (String × Value)) :
    (Value.json (f :: fields)).jsonLen =
      1 + ((f :: fields).map fun f => jsonStringLen f.1 + f.2.jsonLen + 2).sum := by
  have h := jsonLen_fields f fields
  change 2 + (Fields.ofList (f :: fields)).jsonLen = _
  omega

end Value

/-! ## Fields -/

theorem sum_map_le_of_eqOn {keys : List String} (hkeys : keys.Nodup) {f g : String → Nat} (key : String)
    (h : ∀ k, k ≠ key → f k = g k) : (keys.map f).sum ≤ f key + (keys.map g).sum := by
  induction keys with
  | nil => exact Nat.zero_le _
  | cons k keys ih =>
    obtain ⟨hnotin, hnodup⟩ := List.nodup_cons.mp hkeys
    have hrest := ih hnodup
    rw [List.map_cons, List.sum_cons, List.map_cons, List.sum_cons]
    by_cases hk : k = key
    · have hsame : keys.map f = keys.map g := by
        refine List.map_congr_left fun k' hk' => h k' fun he => hnotin ?_
        rw [hk, ← he]
        exact hk'
      rw [hsame, hk]
      omega
    · rw [h k hk]
      omega

/-- The length of the value under a key. -/
def Fields.findLen (fields : Fields) (key : String) : Nat := ((fields.find key).map Value.jsonLen).getD 0

theorem Fields.sum_findLen_le {keys : List String} (hkeys : keys.Nodup) (fields : Fields) :
    (keys.map fields.findLen).sum ≤ fields.jsonLen := by
  match fields with
  | .nil =>
    have hzero : keys.map Fields.nil.findLen = List.replicate keys.length 0 := List.map_const'
    rw [hzero, List.sum_replicate_nat]
    exact Nat.le_refl _
  | .cons key value fields =>
    have hrest := sum_findLen_le hkeys fields
    have hcons : value.jsonLen + fields.jsonLen ≤ (Fields.cons key value fields).jsonLen := by
      cases fields with
      | nil =>
        change value.jsonLen + 0 ≤ jsonStringLen key + 1 + value.jsonLen
        omega
      | cons key' value' fields =>
        change value.jsonLen + (Fields.cons key' value' fields).jsonLen ≤
          jsonStringLen key + 1 + value.jsonLen + 1 + (Fields.cons key' value' fields).jsonLen
        omega
    have hfirst : (Fields.cons key value fields).findLen key = value.jsonLen := by
      rw [findLen, find, if_pos rfl]
      rfl
    have hadd := sum_map_le_of_eqOn hkeys key (f := (Fields.cons key value fields).findLen)
      (g := fields.findLen) fun k hk => by rw [findLen, find, if_neg hk.symm, findLen]
    omega

/-! ## Texts -/

theorem charCount_le_byteLen (s : String) : charCount s ≤ byteLen s := by
  have h : ∀ l : List Char, l.length ≤ (String.ofList l).utf8ByteSize := by
    intro l
    induction l with
    | nil => exact Nat.zero_le _
    | cons c l ih =>
      have hpos := c.utf8Size_pos
      rw [String.ofList_cons, String.utf8ByteSize_append, String.utf8ByteSize_singleton, List.length_cons]
      omega
  have hs := h s.toList
  rw [String.ofList_toList] at hs
  exact hs

theorem jsonCharLen_le (c : Char) : jsonCharLen c ≤ 6 := by
  have hsize := c.utf8Size_le_four
  unfold jsonCharLen
  simp only
  split_ifs <;> omega

theorem jsonStringLen_le (s : String) : jsonStringLen s ≤ 2 + 6 * charCount s := by
  unfold jsonStringLen charCount
  induction s.toList with
  | nil => exact Nat.le_refl _
  | cons c l ih =>
    have hc := jsonCharLen_le c
    rw [List.map_cons, List.sum_cons, List.length_cons]
    omega

end Xiaomaolv
