import Xiaomaolv.Evolution.Resumption

/-!
# Evaluation cursors

* `Underway`, `Resumable`: every cursor belongs to a candidate that is being evaluated, and can be taken up.
* **`resumable_apply`**: every transaction keeps this, but one that takes a candidate with a cursor out of
  `evaluating`.
* `EvolutionWorld.serve`: the atomic calls of a single thread; **`steady_serve`**: one that suits the cursors
  keeps them resumable.
* `Idle`: a candidate without a cursor, whose status may change.
-/

namespace Xiaomaolv

open Interleave Table EvolutionStore

variable {R : Type}

/-! ## The store -/

namespace EvolutionStore

/-- The status of a stored candidate. -/
def status? (s : EvolutionStore R) (id : String) : Option EvolutionCandidateStatus :=
  (s.candidate? id).map (·.status)

/-- The candidate of the cursor is being evaluated, a case is left, the cases before it are answered, and the
baseline is stored. -/
structure Underway (s : EvolutionStore R) (run : EvolutionEvalRun R) : Prop where
  evaluating : s.status? run.candidateId = some .evaluating
  more : run.caseIndex < run.cases.length
  answered : ∀ c ∈ run.cases.take run.caseIndex,
    (run.baselineOutputs.get c.id).isSome ∧ (run.candidateOutputs.get c.id).isSome
  baseline : ∀ b ∈ run.baseline, (s.status? b.1).isSome

structure Resumable (s : EvolutionStore R) : Prop where
  stacked : Stacked s
  named : ∀ id, (s.status? id).isSome → isBlank id = false
  runIds : (s.evalRuns.map (·.id)).Nodup
  owners : (s.evalRuns.map (·.candidateId)).Nodup
  cursors : ∀ run ∈ s.evalRuns, s.Underway run

/-- A candidate with a cursor does not leave `evaluating`, and a cursor that is written is under way. -/
def Suits (s : EvolutionStore R) : EvolutionTxn R → Prop
  | .transitionCandidate candidateId .evaluating _ _ _ => s.evalRun? candidateId = none
  | .upsertEvalRun run => s.Underway run
  | _ => True

variable {s s' : EvolutionStore R}

theorem resumable_empty : (empty : EvolutionStore R).Resumable :=
  ⟨stacked_empty, by simp [status?, candidate?, empty], List.nodup_nil, List.nodup_nil, by simp [empty]⟩

theorem evalRun?_eq_some {candidateId : String} {run : EvolutionEvalRun R}
    (h : s.evalRun? candidateId = some run) : run ∈ s.evalRuns ∧ run.candidateId = candidateId :=
  ⟨List.mem_of_find?_eq_some h, by simpa using List.find?_some h⟩

theorem evalRun?_eq_none {candidateId : String} :
    s.evalRun? candidateId = none ↔ ∀ run ∈ s.evalRuns, run.candidateId ≠ candidateId := by
  simp [evalRun?]

theorem isSome_status? {id : String} : (s.status? id).isSome ↔ ∃ c ∈ s.candidates, c.id = id := by
  simp [status?, candidate?]

theorem Frozen.isSome_status? (h : Frozen s s') {id : String} (hid : (s.status? id).isSome) :
    (s'.status? id).isSome := by
  obtain ⟨c, hc, rfl⟩ := EvolutionStore.isSome_status?.mp hid
  obtain ⟨c', hc', hid', -⟩ := h.candidate hc
  exact EvolutionStore.isSome_status?.mpr ⟨c', hc', hid'⟩

theorem status?_congr (hc : s'.candidates = s.candidates) (id : String) : s'.status? id = s.status? id := by
  rw [status?, candidate?, hc]
  rfl

theorem Underway.congr {run : EvolutionEvalRun R} (h : s.Underway run) (hc : s'.candidates = s.candidates) :
    s'.Underway run where
  evaluating := (status?_congr hc _).trans h.evaluating
  more := h.more
  answered := h.answered
  baseline b hb := by
    rw [status?_congr hc]
    exact h.baseline b hb

theorem status?_transition {candidateId actor : String} {expected next : EvolutionCandidateStatus} {details : Value}
    (h : s.transitionCandidate candidateId expected next actor details = .ok s') :
    s.status? candidateId = some expected ∧ s'.status? candidateId = some next ∧
      ∀ id, id ≠ candidateId → s'.status? id = s.status? id := by
  obtain ⟨-, ⟨c, hc, hstatus⟩, rfl⟩ := transitionCandidate_ok h
  have hcid : c.id = candidateId := by simpa using List.find?_some hc
  have hfind : ∀ id, (updateWhere (fun c => c.id = candidateId ∧ c.status = expected) (setStatus next)
      s.candidates).find? (fun c => c.id = id)
        = (s.candidate? id).map fun c => if c.id = candidateId ∧ c.status = expected then setStatus next c else c := by
    intro id
    rw [find?_updateWhere (f := setStatus next) fun _ _ => rfl]
    simp [candidate?]
  refine ⟨?_, ?_, fun id hne => ?_⟩
  · rw [status?, hc, Option.map_some, hstatus]
  · rw [status?, candidate?, hfind, hc]
    simp [hcid, hstatus, setStatus]
  · rw [status?, candidate?, hfind, Option.map_map, status?]
    cases hx : s.candidate? id with
    | none => rfl
    | some x =>
      have hxid : x.id = id := by simpa using List.find?_some hx
      have hxne : x.id ≠ candidateId := fun he => hne (hxid.symm.trans he)
      simp [hxne]

theorem Resumable.congr (h : s.Resumable) (hstacked : Stacked s') (hfrozen : Frozen s s')
    (hnamed : ∀ id, (s'.status? id).isSome → isBlank id = false) (hruns : s'.evalRuns.Sublist s.evalRuns)
    (hstatus : ∀ run ∈ s'.evalRuns, s'.status? run.candidateId = s.status? run.candidateId) : s'.Resumable where
  stacked := hstacked
  named := hnamed
  runIds := h.runIds.sublist (hruns.map _)
  owners := h.owners.sublist (hruns.map _)
  cursors run hrun := by
    obtain ⟨hevaluating, hmore, hanswered, hbaseline⟩ := h.cursors run (hruns.subset hrun)
    refine ⟨(hstatus run hrun).trans hevaluating, hmore, hanswered, fun b hb => ?_⟩
    exact hfrozen.isSome_status? (hbaseline b hb)

theorem Resumable.transition [Host R] (h : s.Resumable) {candidateId actor : String}
    {expected next : EvolutionCandidateStatus} {details : Value}
    (ht : s.apply (.transitionCandidate candidateId expected next actor details) = .ok s') {s'' : EvolutionStore R}
    (hs'' : Stacked s'') (hc : s''.candidates = s'.candidates) (hd : s''.deployments = s'.deployments)
    (hruns : s''.evalRuns.Sublist s.evalRuns) (hfree : ∀ run ∈ s''.evalRuns, run.candidateId ≠ candidateId) :
    s''.Resumable := by
  obtain ⟨hold, hnew, hother⟩ := status?_transition ht
  have hstatus := status?_congr hc
  have hfrozen := frozen_apply ht
  refine h.congr hs'' ⟨hc ▸ hfrozen.patches, hd ▸ hfrozen.links⟩ (fun id hid => ?_) hruns fun run hrun => ?_
  · rw [hstatus] at hid
    by_cases hne : id = candidateId
    · subst hne
      exact h.named id (by rw [hold]; rfl)
    · exact h.named id (hother id hne ▸ hid)
  · rw [hstatus, hother _ (hfree run hrun)]

theorem isSome_status?_concat {row : EvolutionCandidateRow} (hc : s'.candidates = s.candidates ++ [row]) {id : String}
    (h : (s'.status? id).isSome) : (s.status? id).isSome ∨ id = row.id := by
  obtain ⟨c, hmem, rfl⟩ := isSome_status?.mp h
  rw [hc] at hmem
  rcases List.mem_append.mp hmem with hmem | hmem
  · exact .inl (isSome_status?.mpr ⟨c, hmem, rfl⟩)
  · exact .inr (by rw [List.mem_singleton.mp hmem])

theorem status?_concat {row : EvolutionCandidateRow} (hc : s'.candidates = s.candidates ++ [row]) {id : String}
    (h : (s.status? id).isSome) : s'.status? id = s.status? id := by
  rw [status?, Option.isSome_map] at h
  obtain ⟨c, hfound⟩ := Option.isSome_iff_exists.mp h
  rw [status?, status?, candidate?, hc, List.find?_append, ← candidate?, hfound]
  rfl

theorem Resumable.createCandidate [Host R] (h : s.Resumable) {draft : EvolutionCandidateDraft} {actor : String}
    (ht : s.apply (.createCandidate draft actor) = .ok s') : s'.Resumable := by
  have hstacked := stacked_apply h.stacked ht
  have hfrozen := frozen_apply ht
  simp only [apply, EvolutionStore.createCandidate, bind_eq_ok, insertRow_eq_ok] at ht
  obtain ⟨_, hvalid, _, -, _, -, _, -, candidates, ⟨-, hcandidates⟩, ht⟩ := ht
  have hs' := insertAuditEvent_ok ht
  have hc := (congrArg EvolutionStore.candidates hs').trans hcandidates
  have hruns : s'.evalRuns = s.evalRuns := by rw [hs']
  simp only [EvolutionCandidateDraft.validate, bind_eq_ok, ensure_eq_ok] at hvalid
  obtain ⟨_, hid, -⟩ := hvalid
  refine h.congr hstacked hfrozen (fun id hsome => ?_) (hruns ▸ List.Sublist.refl _) fun run hrun => ?_
  · rcases isSome_status?_concat hc hsome with hold | rfl
    · exact h.named id hold
    · simpa using hid
  · have hevaluating := (h.cursors run (hruns ▸ hrun)).evaluating
    exact status?_concat hc (by rw [hevaluating]; rfl)

theorem evalRun?_upsertEvalRun {run : EvolutionEvalRun R} (h : s.upsertEvalRun run = .ok s') :
    s'.evalRun? run.candidateId = some run := by
  cases upsertEvalRun_ok h
  have hnone : (s.evalRuns.filter fun r => r.candidateId ≠ run.candidateId).find?
      (fun r => r.candidateId = run.candidateId) = none :=
    List.find?_eq_none.mpr fun r hr => by simpa using (List.mem_filter.mp hr).2
  rw [evalRun?, List.find?_append, hnone]
  simp

theorem Resumable.upsertEvalRun [Host R] (h : s.Resumable) {run : EvolutionEvalRun R} (hrun : s.Underway run)
    (ht : s.apply (.upsertEvalRun run) = .ok s') : s'.Resumable := by
  have hstacked := stacked_apply h.stacked ht
  simp only [apply, EvolutionStore.upsertEvalRun, bind_eq_ok, ensure_eq_ok, pure_eq_ok] at ht
  obtain ⟨_, hids, rfl⟩ := ht
  refine ⟨hstacked, h.named, ?_, ?_, fun r hr => ?_⟩
  · refine nodup_concat (h.runIds.sublist (List.filter_sublist.map _)) fun r hr hid => ?_
    obtain ⟨hmem, hne⟩ := List.mem_filter.mp hr
    simp only [Bool.not_eq_true', List.any_eq_false, Bool.and_eq_true, not_and] at hids
    exact hids r hmem (by simpa using hid) hne
  · refine nodup_concat (h.owners.sublist (List.filter_sublist.map _)) fun r hr hid => ?_
    simpa [hid] using (List.mem_filter.mp hr).2
  · rcases List.mem_append.mp hr with hr | hr
    · exact (h.cursors r (List.mem_filter.mp hr).1).congr rfl
    · rw [List.mem_singleton.mp hr]
      exact hrun.congr rfl

/-- **Every transaction that suits the cursors keeps them resumable.** -/
theorem resumable_apply [Host R] {t : EvolutionTxn R} (h : s.Resumable) (hsuits : s.Suits t)
    (ht : s.apply t = .ok s') : s'.Resumable := by
  have hstacked := stacked_apply h.stacked ht
  have hfrozen := frozen_apply ht
  have hsame : s'.candidates = s.candidates → s'.evalRuns.Sublist s.evalRuns → s'.Resumable := by
    intro hc hruns
    have hstatus := status?_congr hc
    exact h.congr hstacked hfrozen (fun id hid => h.named id (hstatus id ▸ hid)) hruns fun run _ => hstatus _
  cases t with
  | createCandidate draft actor => exact h.createCandidate ht
  | upsertEvalRun run => exact h.upsertEvalRun hsuits ht
  | transitionCandidate candidateId expected next actor details =>
    have hruns : s'.evalRuns = s.evalRuns := by rw [(transitionCandidate_ok ht).2.2]
    refine h.transition ht hstacked rfl rfl (hruns ▸ List.Sublist.refl _) fun run hrun hid => ?_
    rw [hruns] at hrun
    have hstatus := (status?_transition ht).1
    rw [← hid, (h.cursors run hrun).evaluating, Option.some.injEq] at hstatus
    subst hstatus
    exact evalRun?_eq_none.mp hsuits run hrun hid
  | upsertEvalCase evalCase actor =>
    obtain ⟨_, _, rfl⟩ := upsertEvalCase_ok ht
    exact hsame rfl (List.Sublist.refl _)
  | recordEvaluation draft now =>
    obtain ⟨_, rfl⟩ := recordEvaluation_ok ht
    exact hsame rfl (List.Sublist.refl _)
  | clearEvalRun candidateId =>
    cases Except.ok.inj ht
    exact hsame rfl List.filter_sublist
  | activateCandidate candidateId actor reason deploymentId now =>
    obtain ⟨⟨d, _⟩, hd, rfl⟩ := fmap_eq_ok.mp ht
    obtain ⟨-, -, -, -, _, rfl⟩ := activateCandidate_ok hd
    exact hsame rfl (List.Sublist.refl _)
  | rollbackActive actor reason now =>
    obtain ⟨⟨result, _⟩, hr, rfl⟩ := fmap_eq_ok.mp ht
    obtain ⟨_, _, -, -, -, -, -, rfl⟩ := rollbackActive_ok hr
    exact hsame rfl (List.Sublist.refl _)
  | recordAuditEvent event =>
    cases insertAuditEvent_ok ht
    exact hsame rfl (List.Sublist.refl _)

theorem Resumable.settle [Host R] (h : s.Resumable) {candidateId actor : String}
    {expected next : EvolutionCandidateStatus} {details : Value}
    (ht : s.apply (.transitionCandidate candidateId expected next actor details) = .ok s') :
    (s'.clearEvalRun candidateId).Resumable := by
  have hruns : s'.evalRuns = s.evalRuns := by rw [(transitionCandidate_ok ht).2.2]
  have hstacked := stacked_apply (t := .clearEvalRun candidateId) (stacked_apply h.stacked ht) rfl
  refine h.transition ht hstacked rfl rfl ?_ fun run hrun => ?_
  · rw [← hruns]
    exact List.filter_sublist
  · simpa using (List.mem_filter.mp hrun).2

end EvolutionStore

/-! ## The world of one caller -/

namespace EvolutionWorld

/-- The cursors are resumable, and the policy in memory is a deployed one. -/
structure Steady (w : EvolutionWorld R) : Prop where
  resumable : w.store.Resumable
  runtime : ∀ p ∈ w.policyRuntime, Deployed w.store p

/-- The atomic calls of a single thread: the one after `k` others is given `env k`. -/
def serve [Host R] (env : Nat → EvolutionEnv) (a : EvolutionAction R) (s : Nat × EvolutionWorld R) :
    Except String a.Resp × (Nat × EvolutionWorld R) :=
  match s.2.perform (env s.1) 0 a with
  | none => (.error "evaluation is locked", (s.1 + 1, s.2))
  | some (answer, w) => (answer, (s.1 + 1, w))

end EvolutionWorld

open EvolutionWorld

section

variable [Host R] {env : Nat → EvolutionEnv} {s : Nat × EvolutionWorld R} {a : EvolutionAction R}

theorem serve_eq {answer : Except String a.Resp} {w : EvolutionWorld R}
    (h : s.2.perform (env s.1) 0 a = some (answer, w)) : serve env a s = (answer, (s.1 + 1, w)) := by
  rw [serve, h]

theorem serve_cases (env : Nat → EvolutionEnv) (a : EvolutionAction R) (s : Nat × EvolutionWorld R) :
    (serve env a s).2.2 = s.2 ∧ (∃ e, (serve env a s).1 = .error e) ∨
      s.2.perform (env s.1) 0 a = some ((serve env a s).1, (serve env a s).2.2) := by
  cases h : s.2.perform (env s.1) 0 a with
  | none =>
    refine .inl ?_
    rw [serve, h]
    exact ⟨rfl, _, rfl⟩
  | some result =>
    refine .inr ?_
    rw [serve, h]

theorem EvolutionWorld.Steady.apply {w : EvolutionWorld R} {store : EvolutionStore R} {t : EvolutionTxn R}
    (h : w.Steady) (hsuits : w.store.Suits t) (ht : w.store.apply t = .ok store) : Steady { w with store } :=
  ⟨resumable_apply h.resumable hsuits ht, fun p hp => (h.runtime p hp).mono (frozen_apply ht)⟩

/-- **An atomic call that suits the cursors keeps the world steady.** -/
theorem steady_serve (h : s.2.Steady) (hsuits : ∀ t ∈ a.txn (env s.1), s.2.store.Suits t)
    (hpolicy : ∀ policy, a ≠ .replacePolicy policy) : (serve env a s).2.2.Steady := by
  rcases serve_cases env a s with ⟨hsame, -⟩ | hperform
  · rw [hsame]
    exact h
  · obtain ⟨-, hfrozen⟩ := stacked_perform h.resumable.stacked hperform
    refine ⟨?_, fun p hp => ?_⟩
    · rw [perform_store hperform]
      cases ht : a.txn (env s.1) with
      | none => exact h.resumable
      | some t => exact exec_keeps h.resumable fun s' => resumable_apply h.resumable (hsuits t ht)
    · rcases policyRuntime_perform hperform with hsame | ⟨policy, ha, -⟩
      · exact (h.runtime p (hsame ▸ hp)).mono hfrozen
      · exact absurd ha (hpolicy policy)

/-! ### Calls on one candidate -/

/-- The calls that change the status of one candidate only and write no cursor. -/
def Confined (candidateId : String) : EvolutionAction R → Prop
  | .transitionCandidate id _ _ _ _ => id = candidateId
  | .upsertEvalRun _ | .replacePolicy _ => False
  | _ => True

/-- The world is steady, and the candidate has no cursor. -/
structure Idle (candidateId : String) (w : EvolutionWorld R) : Prop where
  steady : w.Steady
  none : w.store.evalRun? candidateId = none

theorem Idle.serve {candidateId : String} (h : Idle candidateId s.2) (ha : Confined candidateId a) :
    Idle candidateId (serve env a s).2.2 := by
  refine ⟨steady_serve h.steady (fun t ht => ?_) fun policy hp => ?_, ?_⟩
  · cases a with
    | transitionCandidate id expected next actor details =>
      cases Option.some.inj ht
      cases expected with
      | evaluating => exact (show id = candidateId from ha) ▸ h.none
      | _ => trivial
    | upsertEvalRun run => exact ha.elim
    | createCandidate | upsertEvalCase | recordEvaluation | clearEvalRun | activateCandidate | rollbackActive =>
      cases Option.some.inj ht
      trivial
    | _ => cases ht
  · subst hp
    exact ha
  · rcases serve_cases env a s with ⟨hsame, -⟩ | hperform
    · rw [hsame]
      exact h.none
    · rw [evalRun?_eq_none]
      intro run hrun
      rcases (tables_perform hperform).1 run hrun with hold | hup
      · exact evalRun?_eq_none.mp h.none run hold
      · subst hup
        exact ha.elim

theorem Idle.transition {candidateId actor : String} {expected next : EvolutionCandidateStatus} {details : Value}
    {w : EvolutionWorld R} {store : EvolutionStore R} (h : Idle candidateId w)
    (ht : w.store.apply (.transitionCandidate candidateId expected next actor details) = .ok store) :
    Idle candidateId { w with store } := by
  have hsuits : w.store.Suits (.transitionCandidate candidateId expected next actor details) := by
    cases expected with
    | evaluating => exact h.none
    | _ => trivial
  have hruns : store.evalRuns = w.store.evalRuns := by rw [(transitionCandidate_ok ht).2.2]
  refine ⟨h.steady.apply hsuits ht, ?_⟩
  exact evalRun?_eq_none.mpr fun run hrun => evalRun?_eq_none.mp h.none run (hruns ▸ hrun)

/-! ### What is answered -/

omit [Host R] in
theorem getCandidate_eq_some {s : EvolutionStore R} {id : String} {r : EvolutionCandidateRecord}
    (h : s.getCandidate id = .ok (some r)) : r.id = id ∧ s.status? id = some r.status := by
  rw [getCandidate] at h
  split at h
  · cases h
  · rename_i c hc
    obtain ⟨r', hr, he⟩ := fmap_eq_ok.mp h
    cases Option.some.inj he
    simp only [EvolutionCandidateRow.record, bind_eq_ok, pure_eq_ok] at hr
    obtain ⟨p, -, rfl⟩ := hr
    exact ⟨by simpa using List.find?_some hc, by rw [status?, hc]; rfl⟩

omit [Host R] in
theorem exists_getCandidate {s : EvolutionStore R} (hs : Stacked s) (id : String) (h : (s.status? id).isSome) :
    ∃ r, s.getCandidate id = .ok (some r) := by
  rw [status?, Option.isSome_map] at h
  obtain ⟨c, hc⟩ := Option.isSome_iff_exists.mp h
  obtain ⟨p, hp⟩ := hs.patches c (List.mem_of_find?_eq_some hc)
  refine ⟨{ c with promptPatch := p }, ?_⟩
  simp only [getCandidate, hc, EvolutionCandidateRow.record, hp, PromptPatch.new_text]
  rfl

variable {candidateId : String}

theorem serve_transition (h : s.2.Steady) (env : Nat → EvolutionEnv) (candidateId : String)
    (expected next : EvolutionCandidateStatus) (actor : String) (details : Value) :
    (∃ e, serve env (.transitionCandidate candidateId expected next actor details) s = (.error e, (s.1 + 1, s.2)) ∧
      s.2.store.transitionCandidate candidateId expected next actor details = .error e) ∨
    ∃ r store, s.2.store.transitionCandidate candidateId expected next actor details = .ok store ∧
      serve env (.transitionCandidate candidateId expected next actor details) s
        = (.ok r, (s.1 + 1, { s.2 with store })) := by
  cases ht : s.2.store.transitionCandidate candidateId expected next actor details with
  | error e =>
    refine .inl ⟨e, serve_eq ?_, rfl⟩
    simp only [EvolutionWorld.perform, ht, commit]
  | ok store =>
    have hnew := (status?_transition ht).2.1
    have hstacked : Stacked store :=
      stacked_apply (t := .transitionCandidate candidateId expected next actor details) h.resumable.stacked ht
    obtain ⟨r, hr⟩ := exists_getCandidate hstacked candidateId (by rw [hnew]; rfl)
    refine .inr ⟨r, store, rfl, serve_eq ?_⟩
    simp only [EvolutionWorld.perform, ht, commit, readBack, hr]
    rfl

omit [Host R] in
theorem idle_of_status {w : EvolutionWorld R} (h : w.Steady) {status : EvolutionCandidateStatus}
    (hstatus : w.store.status? candidateId = some status) (hne : status ≠ .evaluating) : Idle candidateId w := by
  refine ⟨h, evalRun?_eq_none.mpr fun run hrun hid => hne ?_⟩
  have hevaluating := (h.resumable.cursors run hrun).evaluating
  rw [hid, hstatus] at hevaluating
  exact Option.some.inj hevaluating

end

end Xiaomaolv
