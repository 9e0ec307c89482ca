import Mathlib.Data.List.Basic

/-!
# Runs of a labelled machine

A machine is a total function `exec : σ → τ → σ`; a run is a list of labels.

* `run`, `run_append`; `Along G`: every label of the run meets `G` in the state it is taken from.
* **`run_invariant`**: what every step that meets `G` keeps, every run along `G` keeps.
* **`run_iff_along`**: where a step keeps `P` exactly if it meets `G`, a run keeps `P` exactly along `G`.
* **`exists_exit`**: a run that leaves `P` has a first step that leaves it.
* `Passes`: steps of given kinds occur in a run, in order; `Passes.concat`, `Passes.append`.
* `collect`: what the steps of a run put out; **`collect_invariant`**: the invariant rule with what was put out.
-/

namespace Machine

variable {σ τ : Type} (exec : σ → τ → σ)

/-- The state after the labels `ts`. -/
def run (s : σ) (ts : List τ) : σ := ts.foldl exec s

@[simp] theorem run_nil (s : σ) : run exec s [] = s := rfl

@[simp] theorem run_cons (s : σ) (t : τ) (ts : List τ) :
    run exec s (t :: ts) = run exec (exec s t) ts := rfl

theorem run_append (s : σ) (ts us : List τ) :
    run exec s (ts ++ us) = run exec (run exec s ts) us :=
  List.foldl_append

theorem run_concat (s : σ) (ts : List τ) (t : τ) :
    run exec s (ts ++ [t]) = exec (run exec s ts) t := by
  rw [run_append]; rfl

/-- Every label of the run meets `G` in the state it is taken from. -/
def Along (G : σ → τ → Prop) : σ → List τ → Prop
  | _, [] => True
  | s, t :: ts => G s t ∧ Along G (exec s t) ts

instance decidableAlong (G : σ → τ → Prop) [∀ s t, Decidable (G s t)] :
    (s : σ) → (ts : List τ) → Decidable (Along exec G s ts)
  | _, [] => isTrue trivial
  | s, t :: ts =>
    have := decidableAlong G (exec s t) ts
    inferInstanceAs (Decidable (G s t ∧ Along exec G (exec s t) ts))

variable {exec} {G : σ → τ → Prop}

@[simp] theorem along_nil (s : σ) : Along exec G s [] := trivial

@[simp] theorem along_cons {s : σ} {t : τ} {ts : List τ} :
    Along exec G s (t :: ts) ↔ G s t ∧ Along exec G (exec s t) ts := Iff.rfl

theorem along_append {s : σ} {ts us : List τ} :
    Along exec G s (ts ++ us) ↔ Along exec G s ts ∧ Along exec G (run exec s ts) us := by
  induction ts generalizing s with
  | nil => simp
  | cons t ts ih => simp [ih, and_assoc]

theorem along_of_forall {s : σ} {ts : List τ} (h : ∀ s, ∀ t ∈ ts, G s t) : Along exec G s ts := by
  induction ts generalizing s with
  | nil => trivial
  | cons t ts ih =>
    exact ⟨h s t List.mem_cons_self, ih fun s t' ht' => h s t' (List.mem_cons_of_mem _ ht')⟩

theorem along_iff {s : σ} {ts : List τ} :
    Along exec G s ts ↔ ∀ l t r, ts = l ++ t :: r → G (run exec s l) t := by
  constructor
  · rintro ha l t r rfl
    exact (along_append.mp ha).2.1
  · intro h
    induction ts generalizing s with
    | nil => trivial
    | cons t ts ih =>
      refine ⟨h [] t ts rfl, ih fun l t' r heq => ?_⟩
      exact h (t :: l) t' r (by rw [heq]; rfl)

theorem Along.imp {G' : σ → τ → Prop} (h : ∀ s t, G s t → G' s t) {s : σ} {ts : List τ}
    (ha : Along exec G s ts) : Along exec G' s ts := by
  induction ts generalizing s with
  | nil => trivial
  | cons t ts ih => exact ⟨h s t ha.1, ih ha.2⟩

/-- **The invariant rule**: what every step that meets `G` keeps, every run along `G` keeps. -/
theorem run_invariant {I : σ → Prop} (hstep : ∀ s t, G s t → I s → I (exec s t)) {s : σ}
    {ts : List τ} (ha : Along exec G s ts) (h : I s) : I (run exec s ts) := by
  induction ts generalizing s with
  | nil => exact h
  | cons t ts ih => exact ih ha.2 (hstep s t ha.1 h)

theorem run_invariant' {I : σ → Prop} (hstep : ∀ s t, I s → I (exec s t)) {s : σ} {ts : List τ}
    (h : I s) : I (run exec s ts) :=
  run_invariant (G := fun _ _ => True) (fun s t _ => hstep s t) (along_of_forall fun _ _ _ => trivial) h

/-- **The exact invariant rule**: where a step keeps `P`, for good, exactly if it meets `G`, a run keeps `P`
exactly along `G`. -/
theorem run_iff_along {I P : σ → Prop} (hI : ∀ s t, I s → I (exec s t))
    (hP : ∀ s t, I s → (P (exec s t) ↔ P s ∧ G s t)) {s : σ} {ts : List τ} (hs : I s) :
    P (run exec s ts) ↔ P s ∧ Along exec G s ts := by
  induction ts generalizing s with
  | nil => simp
  | cons t ts ih => rw [run_cons, ih (hI s t hs), hP s t hs, along_cons, and_assoc]

theorem exists_exit {P : σ → Prop} {s : σ} {ts : List τ} (h : P s) (h' : ¬ P (run exec s ts)) :
    ∃ l t r, ts = l ++ t :: r ∧ P (run exec s l) ∧ ¬ P (run exec s (l ++ [t])) := by
  induction ts generalizing s with
  | nil => exact absurd h h'
  | cons t ts ih =>
    by_cases ht : P (exec s t)
    · obtain ⟨l, t', r, rfl, hl, hr⟩ := ih ht h'
      exact ⟨t :: l, t', r, rfl, hl, hr⟩
    · exact ⟨[], t, ts, rfl, h, ht⟩

/-! ## Stages that a run passes -/

section Stages

variable (exec)

/-- Steps that meet the conditions `Ps` occur in the run, in their order. -/
def Passes : List (σ → τ → Prop) → σ → List τ → Prop
  | [], _, _ => True
  | P :: Ps, s, ts => ∃ l t r, ts = l ++ t :: r ∧ P (run exec s l) t ∧ Passes Ps (run exec s (l ++ [t])) r

variable {exec} {Ps Qs : List (σ → τ → Prop)} {P : σ → τ → Prop} {s : σ} {ts us : List τ} {t : τ}

@[simp] theorem passes_nil : Passes exec [] s ts := trivial

theorem Passes.append (h : Passes exec Ps s ts) : Passes exec Ps s (ts ++ us) := by
  induction Ps generalizing s ts with
  | nil => trivial
  | cons P Ps ih =>
    obtain ⟨l, t, r, rfl, hP, hr⟩ := h
    exact ⟨l, t, r ++ us, by rw [List.append_assoc, List.cons_append], hP, ih hr⟩

theorem Passes.of_append (h : Passes exec (Ps ++ Qs) s ts) : Passes exec Ps s ts := by
  induction Ps generalizing s ts with
  | nil => trivial
  | cons P Ps ih =>
    obtain ⟨l, t, r, hts, hP, hr⟩ := h
    exact ⟨l, t, r, hts, hP, ih hr⟩

theorem Passes.concat (h : Passes exec Ps s ts) (hP : P (run exec s ts) t) :
    Passes exec (Ps ++ [P]) s (ts ++ [t]) := by
  induction Ps generalizing s ts with
  | nil => exact ⟨ts, t, [], rfl, hP, trivial⟩
  | cons Q Ps ih =>
    obtain ⟨l, u, r, rfl, hQ, hr⟩ := h
    refine ⟨l, u, r ++ [t], by rw [List.append_assoc, List.cons_append], hQ, ih hr ?_⟩
    rw [← run_append, List.append_assoc]
    exact hP

end Stages

/-! ## What a run puts out -/

section Output

variable {β : Type} (exec) (out : σ → τ → Option β)

/-- What the steps of the run put out, in their order. -/
def collect : σ → List τ → List β
  | _, [] => []
  | s, t :: ts => (out s t).toList ++ collect (exec s t) ts

theorem collect_append (s : σ) (ts us : List τ) :
    collect exec out s (ts ++ us) = collect exec out s ts ++ collect exec out (run exec s ts) us := by
  induction ts generalizing s with
  | nil => rfl
  | cons t ts ih => rw [List.cons_append, collect, collect, ih, List.append_assoc, run_cons]

variable {exec out}

/-- **The invariant rule with what was put out**: a relation of the state to the output so far. -/
theorem collect_invariant {J : σ → List β → Prop}
    (hstep : ∀ s t bs, G s t → J s bs → J (exec s t) (bs ++ (out s t).toList)) {s : σ} {ts : List τ}
    {bs : List β} (ha : Along exec G s ts) (h : J s bs) :
    J (run exec s ts) (bs ++ collect exec out s ts) := by
  induction ts generalizing s bs with
  | nil =>
    rw [collect, List.append_nil]
    exact h
  | cons t ts ih =>
    rw [run_cons, collect, ← List.append_assoc]
    exact ih ha.2 (hstep s t bs ha.1 h)

end Output

end Machine
