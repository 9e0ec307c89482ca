import Mathlib.Data.List.Basic
import Mathlib.Tactic.FinCases

/-!
# The grammar of JSON

The texts of RFC 8259, as a grammar over characters. A value of the grammar has no whitespace around it; a JSON text
may.

* `JsonGrammar.Derives`: the texts of a nonterminal; `JsonGrammar.Container`: the objects and the arrays.
* `JsonGrammar.Text`: the JSON texts.
* **`JsonGrammar.text_of_bracket`**: a JSON text that begins with an opening bracket is an object or an array with
  whitespace behind it.
-/

namespace JsonGrammar

/-! ## Whitespace, strings and numbers -/

def isWs (c : Char) : Bool := c = ' ' || c = '\t' || c = '\n' || c = '\r'

def Ws (l : List Char) : Prop := ∀ c ∈ l, isWs c

def isHex (c : Char) : Bool := c.isDigit || ('a' ≤ c && c ≤ 'f') || ('A' ≤ c && c ≤ 'F')

/-- The characters that stand for themselves in a string. -/
def unescaped (c : Char) : Bool := 32 ≤ c.toNat && c ≠ '"' && c ≠ '\\'

/-- What stands between the quotes of a string. -/
inductive Chars : List Char → Prop
  | nil : Chars []
  | plain {c : Char} {cs : List Char} (hc : unescaped c) (h : Chars cs) : Chars (c :: cs)
  | escape {c : Char} {cs : List Char} (hc : c ∈ ['"', '\\', '/', 'b', 'f', 'n', 'r', 't']) (h : Chars cs) :
    Chars ('\\' :: c :: cs)
  | unicode {a b c d : Char} {cs : List Char} (hhex : ∀ x ∈ [a, b, c, d], isHex x) (h : Chars cs) :
    Chars ('\\' :: 'u' :: a :: b :: c :: d :: cs)

def Str (l : List Char) : Prop := ∃ cs, Chars cs ∧ l = '"' :: (cs ++ ['"'])

def Digits (l : List Char) : Prop := l ≠ [] ∧ ∀ c ∈ l, c.isDigit

/-- No leading zero. -/
def IntPart (l : List Char) : Prop := l = ['0'] ∨ Digits l ∧ l.head? ≠ some '0'

def Fraction (l : List Char) : Prop := l = [] ∨ ∃ digits, Digits digits ∧ l = '.' :: digits

def Exponent (l : List Char) : Prop :=
  l = [] ∨ ∃ e sign digits, e ∈ ['e', 'E'] ∧ sign ∈ [[], ['+'], ['-']] ∧ Digits digits ∧ l = e :: (sign ++ digits)

def Number (l : List Char) : Prop :=
  ∃ sign int frac exp, sign ∈ [[], ['-']] ∧ IntPart int ∧ Fraction frac ∧ Exponent exp ∧
    l = sign ++ (int ++ (frac ++ exp))

/-! ## Values -/

inductive Nonterminal where
  | value
  | elements
  | members
  deriving DecidableEq, Repr

open Nonterminal

inductive Derives : Nonterminal → List Char → Prop
  | null : Derives value ['n', 'u', 'l', 'l']
  | true : Derives value ['t', 'r', 'u', 'e']
  | false : Derives value ['f', 'a', 'l', 's', 'e']
  | number {l : List Char} (h : Number l) : Derives value l
  | string {l : List Char} (h : Str l) : Derives value l
  | emptyObject {w : List Char} (hw : Ws w) : Derives value ('{' :: (w ++ ['}']))
  | object {l : List Char} (h : Derives members l) : Derives value ('{' :: (l ++ ['}']))
  | emptyArray {w : List Char} (hw : Ws w) : Derives value ('[' :: (w ++ [']']))
  | array {l : List Char} (h : Derives elements l) : Derives value ('[' :: (l ++ [']']))
  | element {w v w' : List Char} (hw : Ws w) (h : Derives value v) (hw' : Ws w') :
    Derives elements (w ++ (v ++ w'))
  | elements {l l' : List Char} (h : Derives elements l) (h' : Derives elements l') :
    Derives elements (l ++ ',' :: l')
  | member {w k w' u v u' : List Char} (hw : Ws w) (hk : Str k) (hw' : Ws w') (hu : Ws u) (h : Derives value v)
      (hu' : Ws u') : Derives members ((w ++ (k ++ w')) ++ ':' :: (u ++ (v ++ u')))
  | members {l l' : List Char} (h : Derives members l) (h' : Derives members l') :
    Derives members (l ++ ',' :: l')

/-- An object or an array, from its opening bracket to its closing one. -/
def Container (l : List Char) : Prop := Derives value l ∧ l.head? ∈ [some '{', some '[']

/-- A JSON text: a value, with whitespace around it. -/
def Text (l : List Char) : Prop := ∃ w v w', Ws w ∧ Derives value v ∧ Ws w' ∧ l = w ++ (v ++ w')

variable {l : List Char}

theorem IntPart.head (h : IntPart l) : ∃ c cs, l = c :: cs ∧ c.isDigit := by
  rcases h with rfl | ⟨⟨hne, hdigits⟩, -⟩
  · exact ⟨'0', [], rfl, rfl⟩
  · obtain ⟨c, cs, rfl⟩ := List.exists_cons_of_ne_nil hne
    exact ⟨c, cs, rfl, hdigits c List.mem_cons_self⟩

theorem Number.head (h : Number l) : ∃ c cs, l = c :: cs ∧ (c = '-' ∨ c.isDigit) := by
  obtain ⟨sign, int, frac, exp, hsign, hint, -, -, rfl⟩ := h
  obtain ⟨c, cs, rfl, hc⟩ := hint.head
  fin_cases hsign
  · exact ⟨c, cs ++ (frac ++ exp), rfl, Or.inr hc⟩
  · exact ⟨'-', c :: cs ++ (frac ++ exp), rfl, Or.inl rfl⟩

theorem Derives.ne_nil (h : Derives value l) : l ≠ [] := by
  cases h with
  | number h =>
    obtain ⟨c, cs, rfl, -⟩ := h.head
    exact List.cons_ne_nil _ _
  | string h =>
    obtain ⟨cs, -, rfl⟩ := h
    exact List.cons_ne_nil _ _
  | _ => simp

/-- **A JSON text that begins with an opening bracket** is an object or an array with whitespace behind it. -/
theorem text_of_bracket (h : Text l) (hhead : l.head? ∈ [some '{', some '[']) :
    ∃ v w, Container v ∧ Ws w ∧ l = v ++ w := by
  obtain ⟨w, v, w', hw, hv, hw', rfl⟩ := h
  cases w with
  | nil =>
    rw [List.nil_append, List.head?_append_of_ne_nil _ hv.ne_nil] at hhead
    exact ⟨v, w', ⟨hv, hhead⟩, hw', rfl⟩
  | cons c w =>
    have hc : isWs c := hw c List.mem_cons_self
    have hc' : c = '{' ∨ c = '[' := by simpa using hhead
    rcases hc' with rfl | rfl <;> cases hc

end JsonGrammar
