import Mathlib.Data.List.Basic

/-!
# Lossy decoding of UTF-8

* `encode`: the bytes of a text; `decodeLossy`: the text of any bytes, where each maximal piece of an
  ill-formed sequence becomes one replacement character.
* **`decodeLossy_encode`**: encoded text decodes to itself.
-/

namespace Utf8

/-- The bytes of a text. -/
def encode (text : List Char) : List UInt8 := text.flatMap String.utf8EncodeChar

/-- The replacement character. -/
def replacement : Char := '\uFFFD'

/-- A continuation byte. -/
def isContinuation (b : UInt8) : Bool := 0x80 ≤ b && b ≤ 0xBF

/-- The second bytes that may follow the first byte of three. -/
def isSecondOfThree (first second : UInt8) : Bool :=
  (first == 0xE0 && 0xA0 ≤ second && second ≤ 0xBF) ||
    (0xE1 ≤ first && first ≤ 0xEC && isContinuation second) ||
    (first == 0xED && 0x80 ≤ second && second ≤ 0x9F) ||
    (0xEE ≤ first && first ≤ 0xEF && isContinuation second)

/-- The second bytes that may follow the first byte of four. -/
def isSecondOfFour (first second : UInt8) : Bool :=
  (first == 0xF0 && 0x90 ≤ second && second ≤ 0xBF) ||
    (0xF1 ≤ first && first ≤ 0xF3 && isContinuation second) ||
    (first == 0xF4 && 0x80 ≤ second && second ≤ 0x8F)

/-- How many bytes one replacement character stands for, at the start of an ill-formed sequence: the
longest start of a well-formed one, and one byte at least. -/
def invalidLength : List UInt8 → Nat
  | first :: second :: third :: _ =>
    if isSecondOfThree first second then 2
    else if isSecondOfFour first second then if isContinuation third then 3 else 2
    else 1
  | [first, second] => if isSecondOfThree first second || isSecondOfFour first second then 2 else 1
  | _ => 1

/-- Decode `fuel` characters at most. -/
def decodeUpTo : Nat → List UInt8 → List Char
  | 0, _ => []
  | _, [] => []
  | fuel + 1, bytes =>
    match (bytes.take 4).toByteArray.utf8DecodeChar? 0 with
    | some c => c :: decodeUpTo fuel (bytes.drop c.utf8Size)
    | none => replacement :: decodeUpTo fuel (bytes.drop (invalidLength bytes))

/-- Decode the bytes. A character takes one byte at least, so as much fuel as there are is enough. -/
def decodeLossy (bytes : List UInt8) : List Char := decodeUpTo bytes.length bytes

theorem length_encodeChar_pos (c : Char) : 0 < (String.utf8EncodeChar c).length := by
  rw [String.length_utf8EncodeChar]
  exact c.utf8Size_pos

theorem decodeChar_encode (c : Char) (rest : List UInt8) :
    ((String.utf8EncodeChar c ++ rest).take 4).toByteArray.utf8DecodeChar? 0 = some c := by
  have hle : (String.utf8EncodeChar c).length ≤ 4 := by
    rw [String.length_utf8EncodeChar]
    exact c.utf8Size_le_four
  rw [List.take_append, List.take_of_length_le hle, List.toByteArray_append]
  exact ByteArray.utf8DecodeChar?_utf8EncodeChar_append

theorem decodeUpTo_encode (text : List Char) (fuel : Nat) (h : (encode text).length ≤ fuel) :
    decodeUpTo fuel (encode text) = text := by
  induction text generalizing fuel with
  | nil => cases fuel <;> rfl
  | cons c text ih =>
    have hpos := length_encodeChar_pos c
    have hcons : encode (c :: text) = String.utf8EncodeChar c ++ encode text := rfl
    rw [hcons, List.length_append] at h
    rw [hcons]
    obtain ⟨fuel, rfl⟩ := Nat.exists_eq_succ_of_ne_zero (n := fuel) (by omega)
    obtain ⟨b, bs, hb⟩ := List.exists_cons_of_length_pos hpos
    have hdecode := decodeChar_encode c (encode text)
    have hdrop : (String.utf8EncodeChar c ++ encode text).drop c.utf8Size = encode text := by
      rw [← String.length_utf8EncodeChar, List.drop_left]
    rw [hb, List.cons_append] at hdecode hdrop ⊢
    rw [decodeUpTo, hdecode]
    · dsimp only
      rw [hdrop, ih fuel (by omega)]
    · nofun

/-- **Encoded text decodes to itself.** -/
theorem decodeLossy_encode (text : List Char) : decodeLossy (encode text) = text :=
  decodeUpTo_encode text _ (Nat.le_refl _)

@[simp] theorem decodeLossy_nil : decodeLossy [] = [] := rfl

@[simp] theorem encode_append (text text' : List Char) :
    encode (text ++ text') = encode text ++ encode text' :=
  List.flatMap_append

theorem decodeLossy_flatten {parts : List (List UInt8)} (h : ∀ p ∈ parts, ∃ text, p = encode text) :
    decodeLossy parts.flatten = parts.flatMap decodeLossy ∧ ∃ text, parts.flatten = encode text := by
  induction parts with
  | nil => exact ⟨rfl, [], rfl⟩
  | cons p parts ih =>
    obtain ⟨text, rfl⟩ := h p List.mem_cons_self
    obtain ⟨hdecode, text', htext'⟩ := ih fun q hq => h q (List.mem_cons_of_mem _ hq)
    rw [List.flatten_cons, List.flatMap_cons, ← hdecode, htext', ← encode_append, decodeLossy_encode,
      decodeLossy_encode, decodeLossy_encode]
    exact ⟨rfl, text ++ text', rfl⟩

end Utf8
