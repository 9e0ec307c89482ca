import Xiaomaolv.Loop.Exclusion

/-!
# Committed effects

* `Life.Step.hasSettled`: what is settled stays settled.
* **`committed_effect_not_replayed`**: an item with a settled checkpoint gets no further attempt in a
  run whose holders keep what they commit; `committed_effect_replayed` is a run with a holder that
  fails its attempt after committing.
-/

namespace Xiaomaolv

open Table LoopStore

namespace Life

variable {l l' : Life} {e : Event}

/-- Some checkpoint of the item is settled. -/
def hasSettled (l : Life) : Bool := l.checkpoints.any fun c => c.phase.isSettled

/-- What is settled stays settled. -/
theorem Step.hasSettled (h : l.Step e l') (hs : l.hasSettled = true) : l'.hasSettled = true := by
  obtain ⟨c, hc, hp⟩ := List.any_eq_true.mp hs
  -- An update that settles what it meets, or meets nothing settled.
  have hupdate : ∀ {p : CheckpointRow → Bool} {f : CheckpointRow → CheckpointRow},
      l'.checkpoints = updateWhere p f l.checkpoints →
      (∀ x, p x = true → (f x).phase.isSettled = true ∨ x.phase.isSettled = false) →
      l'.hasSettled = true := by
    intro p f he hf
    refine List.any_eq_true.mpr ⟨_, he ▸ mem_updateWhere.mpr ⟨c, hc, rfl⟩, ?_⟩
    split
    · rename_i h
      rcases hf c h with h | h
      · exact h
      · rw [hp] at h
        cases h
    · exact hp
  cases h with
  | prepare a c' =>
    exact List.any_eq_true.mpr ⟨c, List.mem_append_left _ hc, hp⟩
  | commit => exact hupdate rfl fun _ _ => .inl rfl
  | reconcile => exact hupdate rfl fun _ _ => .inl rfl
  | release a r =>
    cases hv : r.voids with
    | false =>
      have he : (l.release a.id r).checkpoints = l.checkpoints := by simp [Life.release, hv]
      exact List.any_eq_true.mpr ⟨c, he ▸ hc, hp⟩
    | true =>
      have he : (l.release a.id r).checkpoints = voidPrepared a.id l.checkpoints := by
        simp [Life.release, hv]
      refine hupdate he fun x hx => .inr ?_
      rw [(of_decide_eq_true hx).1]
      rfl
  | lapse now =>
    cases hv : l.expired.parked with
    | true =>
      have he : (l.lapse now).checkpoints = l.checkpoints := by simp [Life.lapse, hv]
      exact List.any_eq_true.mpr ⟨c, he ▸ hc, hp⟩
    | false =>
      have he : (l.lapse now).checkpoints
          = updateWhere l.isLivePrepared (fun c => { c with phase := .voided }) l.checkpoints := by
        simp [Life.lapse, hv]
      refine hupdate he fun x hx => .inr ?_
      have hx := (Bool.and_eq_true _ _).mp hx
      rw [of_decide_eq_true hx.1]
      rfl
  | verdict a c' =>
    refine hupdate rfl fun x hx => .inr ?_
    rw [(of_decide_eq_true hx).2]
    rfl
  | _ => exact List.any_eq_true.mpr ⟨c, hc, hp⟩

theorem Sound.not_ready (hl : l.Sound) (hs : l.hasSettled = true) : l.item.status ≠ .ready := by
  intro hready
  obtain ⟨c, hc, hp⟩ := List.any_eq_true.mp hs
  have hopen := hl.owned.unsettled (by rw [hready]; decide) (by rw [hready]; rfl) c hc
  rw [hp] at hopen
  cases hopen

end Life

/-- No attempt is created, from `s` to `s'`, for an item with a settled checkpoint. -/
def NotReplayed (s s' : Store) : Prop :=
  ∀ c ∈ s.checkpoints, c.phase.isSettled = true →
    (s'.attemptsOf c.workItemId).map (·.id) = (s.attemptsOf c.workItemId).map (·.id)

instance (s s' : Store) : Decidable (NotReplayed s s') :=
  inferInstanceAs (Decidable (∀ c ∈ s.checkpoints, c.phase.isSettled = true →
    (s'.attemptsOf c.workItemId).map (·.id) = (s.attemptsOf c.workItemId).map (·.id)))

/-- **A committed effect is not replayed** in a run in which no holder hands back, other than by
failing it for good, an item whose attempt has committed. -/
theorem committed_effect_not_replayed (enc : Encoding) (ts us : List Txn)
    (h : Machine.Along (exec enc) KeepsCommit .empty (ts ++ us)) :
    NotReplayed (Machine.run (exec enc) .empty ts) (Machine.run (exec enc) .empty (ts ++ us)) := by
  intro c hc hs
  obtain ⟨hts, hus⟩ := Machine.along_append.mp h
  rw [Machine.run_append]
  have hinv : WellFormed (Machine.run (exec enc) .empty ts) ∧
      (Machine.run (exec enc) .empty ts).Lives Life.Sound :=
    Machine.run_invariant (I := fun s => WellFormed s ∧ s.Lives Life.Sound)
      (fun s t hG hI => ⟨wellFormed_exec t hI.1, sound_exec hI.1 hG hI.2⟩) hts
      ⟨wellFormed_empty, lives_empty _⟩
  obtain ⟨hw, hsound⟩ := hinv
  obtain ⟨a, ham, -, haw, -⟩ := hw.checkpointAttempt c hc
  obtain ⟨w, hwm, hwi, -⟩ := hw.attemptItem a ham
  obtain ⟨l, hl⟩ : ∃ l, (Machine.run (exec enc) .empty ts).life? c.workItemId = some l :=
    ⟨_, hwi.trans haw ▸ hw.life? hwm⟩
  have hsettled : l.hasSettled = true :=
    List.any_eq_true.mpr ⟨c, (mem_life_checkpoints hl).mpr ⟨hc, rfl⟩, hs⟩
  obtain ⟨l', hl', -, -, hids⟩ := life_run (G := KeepsCommit)
    (I := fun x => x.Sound ∧ x.hasSettled = true ∧ x.attempts.map (·.id) = l.attempts.map (·.id))
    (fun x e x' he hI hstep => ⟨hstep.sound he hI.1, hstep.hasSettled hI.2.1, by
      rcases hstep.attemptIds with hids | hready
      · exact hids.trans hI.2.2
      · exact absurd hready (hI.1.not_ready hI.2.1)⟩)
    (fun s t hG s' ht w e he => hG.settles ht he) hw hl ⟨hsound _ _ hl, hsettled, rfl⟩ hus
  have ha := (life?_eq_some.mp hl).2.1
  have ha' := (life?_eq_some.mp hl').2.1
  rw [Store.attemptsOf, Store.attemptsOf, ← ha, ← ha']
  exact hids

namespace Sample

/-- The first claim of `solo` commits. -/
def committed : List Txn :=
  admission solo ++ [.claimWork "goal" none "w1" 300 "runtime:w1" "lease1" "attempt1" 0,
    .prepareCheckpoint (firstClaim "lease1" "attempt1") "first:attempt1:v1" true "runtime:w1"
      "checkpoint1" 1,
    .commitCheckpoint (firstClaim "lease1" "attempt1") "checkpoint1" outcome "runtime:w1" 2]

/-- Its holder finishes it. -/
def finished : List Txn :=
  [.finishAttempt (firstClaim "lease1" "attempt1") "checkpoint1" "runtime:w1" 3]

/-- Its holder fails it with a retry, and the step is claimed again. -/
def reopened : List Txn :=
  [.failAttempt (firstClaim "lease1" "attempt1") "lost" true "runtime:w1" 3,
    .claimWork "goal" none "w2" 300 "runtime:w2" "lease2" "attempt2" 4]

end Sample

theorem committed_effect_not_replayed_finished :
    NotReplayed (Machine.run (exec Sample.encoding) .empty Sample.committed)
      (Machine.run (exec Sample.encoding) .empty (Sample.committed ++ Sample.finished)) :=
  committed_effect_not_replayed Sample.encoding Sample.committed Sample.finished (by decide +kernel)

/-- A holder that fails its attempt after committing reopens the item. -/
theorem committed_effect_replayed :
    ¬ NotReplayed (Machine.run (exec Sample.encoding) .empty Sample.committed)
      (Machine.run (exec Sample.encoding) .empty (Sample.committed ++ Sample.reopened)) := by
  decide +kernel

end Xiaomaolv
