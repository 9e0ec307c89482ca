import Mathlib.Data.List.Chain
import Mathlib.Data.List.DropRight

/-!
# Coalescing neighbours

Each element of a list is pushed onto the elements before it: one with the key of the last of them is joined to it.

* `push`, `coalesce`; `Joins`: joining keeps the key, and joins may be made in any order.
* **`coalesce_append`**: parts of a list may be coalesced first.
* **`isChain_coalesce`**, `coalesce_of_isChain`: no neighbours share their key, and such a list stays as it is.
* **`getLast?_coalesce`**: the last element joins the last run.
-/

namespace Coalesce

variable {α κ : Type} [DecidableEq κ] (key : α → κ) (join : α → α → α)

def push (acc : List α) (a : α) : List α :=
  match acc.getLast? with
  | some last => if key last = key a then acc.dropLast ++ [join last a] else acc ++ [a]
  | none => [a]

def coalesce (l : List α) : List α := l.foldl (push key join) []

/-- No neighbours share their key. -/
abbrev Apart (l : List α) : Prop := l.IsChain fun a b => key a ≠ key b

/-- The elements at the end of a list that share their key. -/
def lastRun (l : List α) : List α := l.rtakeWhile fun a => l.getLast?.map key = some (key a)

structure Joins : Prop where
  key_join : ∀ a b, key (join a b) = key a
  assoc : ∀ a b c, join (join a b) c = join a (join b c)

variable {key join}

theorem push_nil (a : α) : push key join [] a = [a] := rfl

theorem push_same {last a : α} (h : key last = key a) (acc : List α) :
    push key join (acc ++ [last]) a = acc ++ [join last a] := by
  simp only [push, List.getLast?_concat, if_pos h, List.dropLast_concat]

theorem push_apart {last a : α} (h : key last ≠ key a) (acc : List α) :
    push key join (acc ++ [last]) a = acc ++ [last] ++ [a] := by
  simp only [push, List.getLast?_concat, if_neg h]

theorem push_ne_nil (acc : List α) (a : α) : push key join acc a ≠ [] := by
  cases acc using List.reverseRecOn with
  | nil => simp [push_nil]
  | append_singleton acc last =>
    by_cases h : key last = key a
    · simp [push_same h]
    · simp [push_apart h]

theorem coalesce_concat (l : List α) (a : α) :
    coalesce key join (l ++ [a]) = push key join (coalesce key join l) a := by
  simp only [coalesce, List.foldl_append, List.foldl_cons, List.foldl_nil]

theorem coalesce_eq_nil {l : List α} : coalesce key join l = [] ↔ l = [] := by
  cases l using List.reverseRecOn with
  | nil => simp [coalesce]
  | append_singleton l a => simp [coalesce_concat, push_ne_nil]

theorem forall_coalesce {P : α → Prop} (hjoin : ∀ a b, P a → P b → P (join a b)) {l : List α} (h : ∀ a ∈ l, P a) :
    ∀ a ∈ coalesce key join l, P a := by
  induction l using List.reverseRecOn with
  | nil => exact fun a ha => nomatch ha
  | append_singleton l a ih =>
    obtain ⟨hl, ha⟩ := List.forall_mem_append.mp h
    have hacc := ih hl
    have hlast : P a := ha a (List.mem_singleton_self a)
    rw [coalesce_concat]
    generalize coalesce key join l = acc at hacc ⊢
    cases acc using List.reverseRecOn with
    | nil => simpa [push_nil] using hlast
    | append_singleton acc last =>
      obtain ⟨hinit, hsecond⟩ := List.forall_mem_append.mp hacc
      by_cases hkey : key last = key a
      · rw [push_same hkey]
        exact List.forall_mem_append.mpr ⟨hinit, by simpa using hjoin last a (by simpa using hsecond) hlast⟩
      · rw [push_apart hkey]
        exact List.forall_mem_append.mpr ⟨hacc, by simpa using hlast⟩

section

variable (hj : Joins key join)
include hj

theorem push_push {a b : α} (h : key a = key b) (acc : List α) :
    push key join (push key join acc a) b = push key join acc (join a b) := by
  cases acc using List.reverseRecOn with
  | nil =>
    rw [push_nil, push_nil]
    exact push_same h []
  | append_singleton acc last =>
    by_cases hlast : key last = key a
    · rw [push_same hlast, push_same (by rw [hj.key_join, hlast, h]), push_same (by rw [hj.key_join, hlast]), hj.assoc]
    · rw [push_apart hlast, push_same h, push_apart (by rwa [hj.key_join])]

theorem foldl_coalesce (acc l : List α) :
    (coalesce key join l).foldl (push key join) acc = l.foldl (push key join) acc := by
  induction l using List.reverseRecOn with
  | nil => rfl
  | append_singleton l a ih =>
    rw [coalesce_concat, List.foldl_append, ← ih, List.foldl_cons, List.foldl_nil]
    generalize coalesce key join l = done
    cases done using List.reverseRecOn with
    | nil => rfl
    | append_singleton done last =>
      by_cases hkey : key last = key a
      · rw [push_same hkey, List.foldl_append, List.foldl_append, List.foldl_cons, List.foldl_cons, List.foldl_nil,
          List.foldl_nil, push_push hj hkey]
      · rw [push_apart hkey, List.foldl_append, List.foldl_cons, List.foldl_nil]

theorem isChain_push {acc : List α} (h : Apart key acc) (a : α) : Apart key (push key join acc a) := by
  cases acc using List.reverseRecOn with
  | nil => exact List.isChain_singleton a
  | append_singleton acc last =>
    by_cases hkey : key last = key a
    · rw [push_same hkey]
      rw [Apart, List.isChain_append] at h ⊢
      refine ⟨h.1, List.isChain_singleton _, ?_⟩
      intro b hb c hc
      obtain rfl : join last a = c := by simpa using hc
      rw [hj.key_join]
      exact h.2.2 b hb last rfl
    · rw [push_apart hkey, Apart, List.isChain_append]
      refine ⟨h, List.isChain_singleton a, ?_⟩
      intro b hb c hc
      obtain rfl : last = b := by simpa using hb
      obtain rfl : a = c := by simpa using hc
      exact hkey

theorem isChain_coalesce (l : List α) : Apart key (coalesce key join l) := by
  induction l using List.reverseRecOn with
  | nil => exact List.isChain_nil
  | append_singleton l a ih =>
    rw [coalesce_concat]
    exact isChain_push hj ih a

end

theorem coalesce_of_isChain {l : List α} (h : Apart key l) : coalesce key join l = l := by
  induction l using List.reverseRecOn with
  | nil => rfl
  | append_singleton l a ih =>
    rw [coalesce_concat, ih (List.isChain_append.mp h).1]
    cases l using List.reverseRecOn with
    | nil => rfl
    | append_singleton l last =>
      exact push_apart ((List.isChain_append.mp h).2.2 last (by simp) a rfl) l

section

variable (hj : Joins key join)
include hj

/-- **Parts may be coalesced first.** -/
theorem coalesce_append (l m : List α) :
    coalesce key join (l ++ m) = coalesce key join (coalesce key join l ++ coalesce key join m) := by
  rw [coalesce, coalesce, List.foldl_append, List.foldl_append, foldl_coalesce hj, foldl_coalesce hj]

end

/-! ## The last run -/

variable (join) in
/-- The elements joined from the first one on. -/
def joinAll : List α → Option α
  | [] => none
  | a :: l => some (l.foldl join a)

theorem joinAll_concat {run : List α} {b : α} (h : joinAll join run = some b) (a : α) :
    joinAll join (run ++ [a]) = some (join b a) := by
  cases run with
  | nil => cases h
  | cons first run =>
    obtain rfl : run.foldl join first = b := Option.some.inj h
    rw [List.cons_append, joinAll, List.foldl_append, List.foldl_cons, List.foldl_nil]

theorem lastRun_concat (l : List α) (a : α) :
    lastRun key (l ++ [a]) = (l.rtakeWhile fun b => key a = key b) ++ [a] := by
  simp [lastRun]

theorem lastRun_same {last a : α} (h : key last = key a) (l : List α) :
    lastRun key (l ++ [last] ++ [a]) = lastRun key (l ++ [last]) ++ [a] := by
  rw [lastRun_concat, List.rtakeWhile_concat_pos _ _ _ (by simp [h]), lastRun_concat, h]

theorem lastRun_apart {last a : α} (h : key last ≠ key a) (l : List α) :
    lastRun key (l ++ [last] ++ [a]) = [a] := by
  rw [lastRun_concat, List.rtakeWhile_concat_neg _ _ _ (by simp [h.symm]), List.nil_append]

theorem getLast?_lastRun (l : List α) : (lastRun key l).getLast? = l.getLast? := by
  cases l using List.reverseRecOn with
  | nil => rfl
  | append_singleton l a => rw [lastRun_concat, List.getLast?_concat, List.getLast?_concat]

section

variable (hj : Joins key join)
include hj

theorem key_getLast?_push (acc : List α) (a : α) : (push key join acc a).getLast?.map key = some (key a) := by
  cases acc using List.reverseRecOn with
  | nil => rfl
  | append_singleton acc last =>
    by_cases hkey : key last = key a
    · rw [push_same hkey, List.getLast?_concat, Option.map_some, hj.key_join, hkey]
    · rw [push_apart hkey, List.getLast?_concat, Option.map_some]

theorem key_getLast?_coalesce (l : List α) : (coalesce key join l).getLast?.map key = l.getLast?.map key := by
  cases l using List.reverseRecOn with
  | nil => rfl
  | append_singleton l a => rw [coalesce_concat, key_getLast?_push hj, List.getLast?_concat, Option.map_some]

/-- **The last element joins the last run.** -/
theorem getLast?_coalesce (l : List α) : (coalesce key join l).getLast? = joinAll join (lastRun key l) := by
  induction l using List.reverseRecOn with
  | nil => rfl
  | append_singleton l a ih =>
    rw [coalesce_concat]
    cases l using List.reverseRecOn with
    | nil =>
      rw [lastRun_concat, List.rtakeWhile_nil]
      rfl
    | append_singleton l last =>
      have hlast := key_getLast?_push hj (coalesce key join l) last
      rw [coalesce_concat] at ih ⊢
      generalize push key join (coalesce key join l) last = acc at ih hlast ⊢
      cases acc using List.reverseRecOn with
      | nil => cases hlast
      | append_singleton acc b =>
        rw [List.getLast?_concat] at ih hlast
        have hb : key b = key last := Option.some.inj hlast
        by_cases hkey : key last = key a
        · rw [push_same (hb.trans hkey), List.getLast?_concat, lastRun_same hkey, joinAll_concat ih.symm]
        · rw [push_apart (by rwa [hb]), List.getLast?_concat, lastRun_apart hkey]
          rfl

end

end Coalesce
