import Mathlib.Data.List.Basic

/-!
# Scanners, and texts that are cut into parts

A scanner reads a text from the left and may reject it. A state eases another if it reads whatever that one reads,
and comes to a state that eases the other's.

* `Scanner.scan`: the state after a text; `Scanner.Accepts`: the text ends where another text may begin.
* `Scanner.scan_of_eases`: a state that eases another follows it.
* **`Scanner.accepts_parts_iff`**: the parts of a text that is read as a whole are each accepted if and only if
  what stands before each of them is.
-/

/-- A scanner, with the order of its states. -/
structure Scanner (σ α : Type) where
  step : σ → α → Option σ
  start : σ
  /-- `Eases s t`: `t` reads whatever `s` reads. -/
  Eases : σ → σ → Prop
  refl : ∀ s, Eases s s
  trans : ∀ {s t u}, Eases s t → Eases t u → Eases s u
  step_of_eases : ∀ {s t s' a}, Eases s t → step s a = some s' → ∃ t', step t a = some t' ∧ Eases s' t'
  rest_of_eases : ∀ {s t}, Eases s t → Eases s start → Eases t start

namespace Scanner

variable {σ α : Type} (S : Scanner σ α)

/-- The state after a text. -/
def scan : σ → List α → Option σ
  | s, [] => some s
  | s, a :: text => (S.step s a).bind fun s => scan s text

/-- The text is read, and ends in a state that the first one eases. -/
def Accepts (text : List α) : Prop := ∃ s, S.scan S.start text = some s ∧ S.Eases s S.start

variable {S} {s t s' : σ} {text rest : List α}

@[simp] theorem scan_nil : S.scan s [] = some s := rfl

theorem scan_cons {a : α} (h : S.step s a = some s') : S.scan s (a :: text) = S.scan s' text := by
  rw [scan, h, Option.bind_some]

theorem scan_append (s : σ) (text rest : List α) :
    S.scan s (text ++ rest) = (S.scan s text).bind fun s => S.scan s rest := by
  induction text generalizing s with
  | nil => rfl
  | cons a text ih =>
    rw [List.cons_append, scan, scan]
    cases S.step s a with
    | none => rfl
    | some s' => exact ih s'

theorem scan_append_of (h : S.scan s text = some s') : S.scan s (text ++ rest) = S.scan s' rest := by
  rw [scan_append, h, Option.bind_some]

theorem scan_append_eq_some : S.scan s (text ++ rest) = some t ↔
    ∃ s', S.scan s text = some s' ∧ S.scan s' rest = some t := by
  rw [scan_append, Option.bind_eq_some_iff]

theorem scan_of_eases (heases : S.Eases s t) (h : S.scan s text = some s') :
    ∃ t', S.scan t text = some t' ∧ S.Eases s' t' := by
  induction text generalizing s t with
  | nil =>
    obtain rfl := Option.some.inj h
    exact ⟨t, rfl, heases⟩
  | cons a text ih =>
    obtain ⟨s₁, hs₁, hrest⟩ := Option.bind_eq_some_iff.mp h
    obtain ⟨t₁, ht₁, heases₁⟩ := S.step_of_eases heases hs₁
    obtain ⟨t', ht', heases'⟩ := ih heases₁ hrest
    exact ⟨t', by rw [scan_cons ht₁, ht'], heases'⟩

theorem accepts_nil : S.Accepts [] := ⟨S.start, rfl, S.refl _⟩

theorem accepts_append_iff (hfirst : S.Accepts text) (hread : S.scan S.start (text ++ rest) ≠ none) :
    S.Accepts (text ++ rest) ↔ S.Accepts rest := by
  obtain ⟨s, hs, hrest⟩ := hfirst
  rw [scan_append_of hs] at hread
  obtain ⟨s', hs'⟩ := Option.ne_none_iff_exists'.mp hread
  obtain ⟨t, ht, heases⟩ := scan_of_eases hrest hs'
  constructor
  · rintro ⟨u, hu, hend⟩
    rw [scan_append_of hs, hs'] at hu
    obtain rfl := Option.some.inj hu
    exact ⟨t, ht, S.rest_of_eases heases hend⟩
  · rintro ⟨u, hu, hend⟩
    rw [ht] at hu
    obtain rfl := Option.some.inj hu
    exact ⟨s', by rw [scan_append_of hs, hs'], S.trans heases hend⟩

/-- **The parts of a text that is accepted are each accepted** if and only if what stands before each of them
is. -/
theorem accepts_parts_iff {parts : List (List α)} (h : S.Accepts parts.flatten) :
    (∀ part ∈ parts, S.Accepts part) ↔ ∀ k < parts.length, S.Accepts (parts.take k).flatten := by
  have hread : ∀ k, S.scan S.start (parts.take k).flatten ≠ none := by
    intro k hnone
    obtain ⟨s, hs, -⟩ := h
    rw [← List.take_append_drop k parts, List.flatten_append, scan_append, hnone] at hs
    cases hs
  have hsucc : ∀ k (hk : k < parts.length), (parts.take (k + 1)).flatten = (parts.take k).flatten ++ parts[k] := by
    intro k hk
    rw [List.take_succ_eq_append_getElem hk, List.flatten_append, List.flatten_singleton]
  constructor
  · intro hparts k hk
    induction k with
    | zero => exact accepts_nil
    | succ k ih =>
      have hbefore := ih (by omega)
      have hk' : k < parts.length := by omega
      rw [hsucc k hk', accepts_append_iff hbefore (by rw [← hsucc k hk']; exact hread (k + 1))]
      exact hparts _ (List.getElem_mem hk')
  · intro hbefore part hpart
    obtain ⟨k, hk, rfl⟩ := List.mem_iff_getElem.mp hpart
    rw [← accepts_append_iff (hbefore k hk) (by rw [← hsucc k hk]; exact hread (k + 1)), ← hsucc k hk]
    by_cases hlast : k + 1 < parts.length
    · exact hbefore (k + 1) hlast
    · rw [List.take_of_length_le (by omega)]
      exact h

end Scanner
