import Xiaomaolv.Lib.Ranking
import Xiaomaolv.Lib.Sequential
import Xiaomaolv.Loop.Confirmations

/-!
# Repeated signals

A signal that repeats another one is answered with that one. Three keys are tried: the external id and the fingerprint,
the normalised content, and the similarity to the latest signals.

* `Ingestion`, `SignalWorld.ingest`: a call of `ingest_signal`, alone on the database.
* `Distinct`: no two signals of a source share a key; `distinct_run`: so it is after any calls.
* `Stays`: what must not have come between two ingestions of a request.
* **`ingestion_stable`**: then the second one is answered as the first, and changes nothing.
* `ingestion_unstable`: a signal absorbed for its content is answered otherwise once its external id is taken, and so is
  a near-duplicate when a nearer one comes.
-/

namespace Xiaomaolv

open Interleave Table LoopStore

/-! ## Calls one after another -/

/-- A call of `ingest_signal`, with the id and the time that it would give a new signal. -/
structure Ingestion where
  request : CreateSignalRequest
  actor : String
  id : String
  now : Int

/-- The row of a new signal. -/
def newSignal (senc : SignalEncoding) (request : CreateSignalRequest) (actor id : String) (now : Int) : SignalRow where
  id := id
  kind := request.kind
  trust := request.trust
  source := trim request.source
  externalId := request.externalId
  content := trim request.content
  contentHash := senc.contentHash request.content
  fingerprint := senc.fingerprint request
  normalizedHash := senc.normalizedHash request.kind request.content
  metadata := request.metadata
  createdBy := actor
  createdAt := now

namespace SignalWorld

variable (enc : Encoding) (senc : SignalEncoding)

/-- What the database answers to a caller that is alone. -/
def answer (env : SignalEnv) (a : SignalAction) (s : SignalWorld) : Except String a.Resp × SignalWorld :=
  (s.perform enc senc env 0 a).getD (.error "", s)

/-- A call to its end: the signal, and whether it was there before. -/
def ingest (s : SignalWorld) (c : Ingestion) : Except String (SignalRecord × Bool) × SignalWorld :=
  (SignalOps.ingestSignal senc c.request c.actor).runs (answer enc senc ⟨c.now, c.id⟩) s

/-- The database after a call, which may be rejected. -/
def ingested (s : SignalWorld) (c : Ingestion) : SignalWorld := (s.ingest enc senc c).2

/-- The database with a new signal. -/
def added (s : SignalWorld) (row : SignalRow) : SignalWorld where
  store := s.store
  signals := s.signals ++ [row]
  signalEvents := s.signalEvents ++
    [⟨row.id, .observed, row.createdBy, .json [("fingerprint", .string row.fingerprint)]⟩]

end SignalWorld

section Calls

variable {enc : Encoding} {senc : SignalEncoding} {s s' : SignalWorld} {request : CreateSignalRequest}
  {actor id : String} {now : Int}

theorem ingestSignal_iff {r : String × Bool} :
    s.ingestSignal senc request actor id now = .ok (r, s') ↔
      (∃ existing, s.duplicate? senc request = some existing ∧ r = (existing, true) ∧ s' = s) ∨
      (s.duplicate? senc request = none ∧ (∀ row ∈ s.signals, row.id ≠ id) ∧ r = (id, false) ∧
        s' = s.added (newSignal senc request actor id now)) := by
  unfold SignalWorld.ingestSignal
  cases s.duplicate? senc request with
  | some existing =>
    simp only [Except.ok.injEq, Prod.mk.injEq, Option.some.injEq, exists_eq_left', reduceCtorEq, false_and, or_false]
    exact and_congr eq_comm eq_comm
  | none =>
    simp only [bind_eq_ok, insertRow_eq_ok, pure_eq_ok, reduceCtorEq, false_and, exists_false, false_or, true_and,
      decide_eq_false_iff_not, Prod.mk.injEq]
    constructor
    · rintro ⟨signals, ⟨hfresh, rfl⟩, t, ht, rfl, rfl⟩
      obtain ⟨-, rfl⟩ := insertSignalEvent_ok ht
      exact ⟨hfresh, rfl, rfl⟩
    · rintro ⟨hfresh, rfl, rfl⟩
      refine ⟨_, ⟨hfresh, rfl⟩, _, ?_, rfl, rfl⟩
      unfold SignalWorld.insertSignalEvent
      rw [ensure_bind_eq_ok, List.any_eq_true]
      exact ⟨⟨_, List.mem_append_right _ (List.mem_singleton.mpr rfl), decide_eq_true rfl⟩, rfl⟩

section Program

variable (enc senc s) (c : Ingestion)

theorem runs_ingestSignal :
    (SignalOps.call (.ingestSignal c.request c.actor)).runs (SignalWorld.answer enc senc ⟨c.now, c.id⟩) s =
      s.commit (s.ingestSignal senc c.request c.actor c.id c.now) := rfl

theorem runs_findSignal (env : SignalEnv) (signalId message : String) :
    (SignalOps.findSignal signalId message).runs (SignalWorld.answer enc senc env) s =
      (context (s.getSignal signalId) message, s) := rfl

end Program

theorem ingest_eq_ok {c : Ingestion} {signal : SignalRecord} {dedup : Bool} :
    s.ingest enc senc c = (.ok (signal, dedup), s') ↔
      c.request.validate senc = .ok () ∧ validateActor c.actor = .ok () ∧
        ∃ id, s.ingestSignal senc c.request c.actor c.id c.now = .ok ((id, dedup), s') ∧
          s'.getSignal id = some signal := by
  have hcommit : ∀ {r : String × Bool} {t : SignalWorld},
      s.commit (s.ingestSignal senc c.request c.actor c.id c.now) = (.ok r, t) ↔
        s.ingestSignal senc c.request c.actor c.id c.now = .ok (r, t) := by
    intro r t
    cases s.ingestSignal senc c.request c.actor c.id c.now with
    | error e => simp [SignalWorld.commit]
    | ok r' => simp [SignalWorld.commit, Prod.ext_iff]
  unfold SignalWorld.ingest SignalOps.ingestSignal
  simp only [Prog.runs_bind_eq_ok, runs_findSignal, Prog.runs_liftM, Prog.runs_pure, Prod.mk.injEq, context_eq_ok,
    Except.ok.injEq]
  constructor
  · rintro ⟨⟨⟩, t, ⟨hvalid, rfl⟩, ⟨⟩, t', ⟨hactor, rfl⟩, ⟨id, b⟩, t'', htx, found, t₃, ⟨hfound, rfl⟩, ⟨rfl, rfl⟩, rfl⟩
    exact ⟨hvalid, hactor, id, hcommit.mp htx, hfound⟩
  · rintro ⟨hvalid, hactor, id, htx, hfound⟩
    exact ⟨(), s, ⟨hvalid, rfl⟩, (), s, ⟨hactor, rfl⟩, (id, dedup), s', hcommit.mpr htx, signal, s', ⟨hfound, rfl⟩,
      ⟨rfl, rfl⟩, rfl⟩

/-- What a call leaves: the database as it was, or with the new signal. -/
theorem ingested_cases (enc : Encoding) (senc : SignalEncoding) (s : SignalWorld) (c : Ingestion) :
    s.ingested enc senc c = s ∨
      (s.duplicate? senc c.request = none ∧ (∀ row ∈ s.signals, row.id ≠ c.id) ∧
        s.ingested enc senc c = s.added (newSignal senc c.request c.actor c.id c.now)) := by
  have herror : ∀ {α : Type} {f : α → SignalM (SignalRecord × Bool)} {p : SignalM α} {e : String},
      p.runs (SignalWorld.answer enc senc ⟨c.now, c.id⟩) s = (.error e, s) →
        ((p >>= f).runs (SignalWorld.answer enc senc ⟨c.now, c.id⟩) s).2 = s := by
    intro α f p e hp
    rw [Prog.runs_bind_error _ hp]
  unfold SignalWorld.ingested SignalWorld.ingest SignalOps.ingestSignal
  cases hvalid : c.request.validate senc with
  | error e => exact .inl (herror (e := e) (by rw [Prog.runs_liftM]))
  | ok _ =>
    rw [Prog.runs_bind_ok _ (Prog.runs_liftM ..)]
    cases hactor : validateActor c.actor with
    | error e => exact .inl (herror (e := e) (by rw [Prog.runs_liftM]))
    | ok _ =>
      rw [Prog.runs_bind_ok _ (Prog.runs_liftM ..)]
      cases htx : s.ingestSignal senc c.request c.actor c.id c.now with
      | error e => exact .inl (herror (e := e) (by rw [runs_ingestSignal, htx]; rfl))
      | ok r =>
        have hcall : (SignalOps.call (.ingestSignal c.request c.actor)).runs
            (SignalWorld.answer enc senc ⟨c.now, c.id⟩) s = (.ok r.1, r.2) := by
          rw [runs_ingestSignal, htx]
          rfl
        have hread : ∀ t : SignalWorld, ((SignalOps.findSignal r.1.1 "created signal disappeared" >>= fun signal =>
            pure (signal, r.1.2)).runs (SignalWorld.answer enc senc ⟨c.now, c.id⟩) t).2 = t := by
          intro t
          have hfind := runs_findSignal enc senc t ⟨c.now, c.id⟩ r.1.1 "created signal disappeared"
          cases hfound : context (t.getSignal r.1.1) "created signal disappeared" with
          | ok signal => rw [Prog.runs_bind_ok _ (hfind.trans (by rw [hfound])), Prog.runs_pure]
          | error e => rw [Prog.runs_bind_error _ (hfind.trans (by rw [hfound]))]
        rw [Prog.runs_bind_ok _ hcall]
        rcases ingestSignal_iff.mp htx with ⟨existing, -, -, hs⟩ | ⟨hnone, hfresh, -, hs⟩
        · exact .inl ((hread r.2).trans hs)
        · exact .inr ⟨hnone, hfresh, (hread r.2).trans hs⟩

end Calls

/-! ## Keys -/

section Keys

variable {senc : SignalEncoding} {s s' : SignalWorld} {request r : CreateSignalRequest} {row x y : SignalRow}

/-- The signal has the external id or the fingerprint of the request. -/
def SignalRow.Repeats (senc : SignalEncoding) (request : CreateSignalRequest) (row : SignalRow) : Prop :=
  (request.externalId.isSome = true ∧ row.externalId = request.externalId) ∨
    row.fingerprint = senc.fingerprint request

/-- Two signals share a key of their source. -/
def SignalRow.SharesKey (x y : SignalRow) : Prop :=
  (x.externalId.isSome = true ∧ x.externalId = y.externalId) ∨ x.fingerprint = y.fingerprint ∨
    x.normalizedHash = y.normalizedHash

/-- The signal has the source and the keys of the request. -/
structure SignalRow.MadeOf (senc : SignalEncoding) (request : CreateSignalRequest) (row : SignalRow) : Prop where
  source : row.source = trim request.source
  externalId : row.externalId = request.externalId
  normalizedHash : row.normalizedHash = senc.normalizedHash request.kind request.content

/-- No two signals of a source share a key, and a signal with the fingerprint of `request` is made of it. -/
structure Distinct (senc : SignalEncoding) (request : CreateSignalRequest) (s : SignalWorld) : Prop where
  ids : ∀ x ∈ s.signals, ∀ y ∈ s.signals, x.id = y.id → x = y
  keys : ∀ x ∈ s.signals, ∀ y ∈ s.signals, x.source = y.source → x.SharesKey y → x = y
  made : ∀ x ∈ s.signals, x.fingerprint = senc.fingerprint request → x.MadeOf senc request

theorem SignalRow.SharesKey.symm (h : x.SharesKey y) : y.SharesKey x := by
  rcases h with ⟨hsome, h⟩ | h | h
  · exact .inl ⟨h ▸ hsome, h.symm⟩
  · exact .inr (.inl h.symm)
  · exact .inr (.inr h.symm)

/-- The first two keys find nothing. -/
def Unkeyed (senc : SignalEncoding) (request : CreateSignalRequest) (s : SignalWorld) : Prop :=
  ∀ row ∈ s.signals, row.source = trim request.source →
    ¬ row.Repeats senc request ∧ row.normalizedHash ≠ senc.normalizedHash request.kind request.content

/-- Whether the first key finds the signal. -/
def isRepeat (senc : SignalEncoding) (request : CreateSignalRequest) (row : SignalRow) : Bool :=
  row.source = trim request.source &&
    ((request.externalId.isSome && row.externalId = request.externalId) || row.fingerprint = senc.fingerprint request)

/-- Whether the second key finds the signal. -/
def isSameContent (senc : SignalEncoding) (request : CreateSignalRequest) (row : SignalRow) : Bool :=
  row.source = trim request.source && row.normalizedHash = senc.normalizedHash request.kind request.content

theorem isRepeat_iff : isRepeat senc request row = true ↔ row.source = trim request.source ∧ row.Repeats senc request := by
  simp only [isRepeat, SignalRow.Repeats, Bool.and_eq_true, Bool.or_eq_true, decide_eq_true_eq]

theorem isSameContent_iff : isSameContent senc request row = true ↔
    row.source = trim request.source ∧ row.normalizedHash = senc.normalizedHash request.kind request.content := by
  simp only [isSameContent, Bool.and_eq_true, decide_eq_true_eq]

theorem duplicate?_eq : s.duplicate? senc request =
    ((s.earliest? (isRepeat senc request)).or (s.earliest? (isSameContent senc request))).or
      (s.nearDuplicate? senc request) := by
  unfold SignalWorld.duplicate?
  simp only [Option.orElse_eq_orElse, Option.orElse_eq_or, Option.or_assoc]
  rfl

theorem unkeyed_iff : Unkeyed senc request s ↔
    s.earliest? (isRepeat senc request) = none ∧ s.earliest? (isSameContent senc request) = none := by
  simp only [earliest?_eq_none, Bool.eq_false_iff, ne_eq, isRepeat_iff, isSameContent_iff, not_and, Unkeyed]
  exact ⟨fun h => ⟨fun row hrow hs => (h row hrow hs).1, fun row hrow hs => (h row hrow hs).2⟩,
    fun h row hrow hs => ⟨h.1 row hrow hs, h.2 row hrow hs⟩⟩

theorem earliest?_of_unique {test : SignalRow → Bool} (hrow : row ∈ s.signals) (htest : test row = true)
    (hunique : ∀ x ∈ s.signals, test x = true → x = row) : s.earliest? test = some row.id := by
  cases h : s.earliest? test with
  | none =>
    rw [earliest?_eq_none.mp h row hrow] at htest
    cases htest
  | some id =>
    obtain ⟨x, hx, hxtest, rfl⟩ := earliest?_eq_some h
    rw [hunique x hx hxtest]

theorem duplicate?_of_unkeyed (h : Unkeyed senc request s) : s.duplicate? senc request = s.nearDuplicate? senc request := by
  obtain ⟨hfirst, hsecond⟩ := unkeyed_iff.mp h
  rw [duplicate?_eq, hfirst, hsecond, Option.none_or, Option.none_or]

theorem unkeyed_of_none (h : s.duplicate? senc request = none) : Unkeyed senc request s := by
  rw [duplicate?_eq, Option.or_eq_none_iff, Option.or_eq_none_iff] at h
  exact unkeyed_iff.mpr h.1

theorem duplicate?_cases {id : String} (h : s.duplicate? senc request = some id) :
    (∃ row ∈ s.signals, row.id = id ∧ row.source = trim request.source ∧ row.Repeats senc request) ∨
    ((∀ row ∈ s.signals, row.source = trim request.source → ¬ row.Repeats senc request) ∧
      ∃ row ∈ s.signals, row.id = id ∧ row.source = trim request.source ∧
        row.normalizedHash = senc.normalizedHash request.kind request.content) ∨
    (Unkeyed senc request s ∧ s.nearDuplicate? senc request = some id) := by
  have hall := h
  rw [duplicate?_eq] at h
  cases hfirst : s.earliest? (isRepeat senc request) with
  | some first =>
    rw [hfirst, Option.some_or, Option.some_or] at h
    cases h
    obtain ⟨row, hrow, htest, hid⟩ := earliest?_eq_some hfirst
    exact .inl ⟨row, hrow, hid, isRepeat_iff.mp htest⟩
  | none =>
    cases hsecond : s.earliest? (isSameContent senc request) with
    | some second =>
      rw [hfirst, hsecond, Option.none_or, Option.some_or] at h
      cases h
      obtain ⟨row, hrow, htest, hid⟩ := earliest?_eq_some hsecond
      refine .inr (.inl ⟨fun x hx hsource hrepeats => ?_, row, hrow, hid, isSameContent_iff.mp htest⟩)
      have htest := earliest?_eq_none.mp hfirst x hx
      rw [isRepeat_iff.mpr ⟨hsource, hrepeats⟩] at htest
      cases htest
    | none =>
      have hunkeyed := unkeyed_iff.mpr ⟨hfirst, hsecond⟩
      exact .inr (.inr ⟨hunkeyed, duplicate?_of_unkeyed hunkeyed ▸ hall⟩)

/-! ### Near-duplicates -/

theorem mem_of_foldl_choice {α : Type} {step : Option α → α → Option α}
    (hstep : ∀ best a, step best a = some a ∨ step best a = best) :
    ∀ (l : List α) (best : Option α) {x : α}, l.foldl step best = some x → x ∈ l ∨ best = some x
  | [], _, _, hx => .inr hx
  | a :: l, best, x, hx => by
    rcases mem_of_foldl_choice hstep l (step best a) hx with hmem | hbest
    · exact .inl (List.mem_cons_of_mem _ hmem)
    · rcases hstep best a with he | he
      · rw [he] at hbest
        cases hbest
        exact .inl List.mem_cons_self
      · exact .inr (he ▸ hbest)

theorem nearDuplicate?_source {id : String} (h : s.nearDuplicate? senc request = some id) :
    ∃ row ∈ s.signals, row.id = id ∧ row.source = trim request.source := by
  unfold SignalWorld.nearDuplicate? at h
  obtain ⟨row, hrow, hid⟩ := Option.map_eq_some_iff.mp h
  have hmem := (mem_of_foldl_choice (fun best a => by
    cases best with
    | none => exact .inl rfl
    | some b =>
      simp only
      split_ifs
      · exact .inl rfl
      · exact .inr rfl) _ _ hrow).resolve_right (Option.some_ne_none row).symm
  have hrecent := (List.mem_filter.mp hmem).1
  unfold SignalWorld.recentSignals at hrecent
  have hsorted := List.mem_of_mem_take hrecent
  rw [List.mem_insertionSort, List.mem_filter, decide_eq_true_eq] at hsorted
  exact ⟨row, hsorted.1, hid, hsorted.2.1⟩

theorem filter_recentSignals {source : String} {kind : SignalKind}
    (hfew : (s.signals.filter fun row => row.source = source ∧ row.kind = kind).length ≤ 128) (p : SignalRow → Bool) :
    (s.recentSignals source kind).filter p =
      ((s.signals.filter fun row => row.source = source ∧ row.kind = kind).filter p).insertionSort
        fun x y => y.createdAt < x.createdAt ∨ (x.createdAt = y.createdAt ∧ y.id ≤ x.id) := by
  unfold SignalWorld.recentSignals
  rw [List.take_of_length_le (by rw [List.length_insertionSort]; exact hfew)]
  refine Ranking.filter_insertionSort (fun x y => ?_) (fun x y z hxy hyz => ?_) p _
  · rcases lt_trichotomy x.createdAt y.createdAt with hlt | he | hgt
    · exact .inr (.inl hlt)
    · rcases String.le_total y.id x.id with hle | hle
      · exact .inl (.inr ⟨he, hle⟩)
      · exact .inr (.inr ⟨he.symm, hle⟩)
    · exact .inl (.inl hgt)
  · rcases hxy with hxy | ⟨hxy, hid⟩ <;> rcases hyz with hyz | ⟨hyz, hid'⟩
    · exact .inl (hyz.trans hxy)
    · exact .inl (hyz ▸ hxy)
    · exact .inl (hxy ▸ hyz)
    · exact .inr ⟨hxy.trans hyz, String.le_trans hid' hid⟩

end Keys

/-! ## Runs -/

section Runs

variable {enc : Encoding} {senc : SignalEncoding} {s s' : SignalWorld} {request : CreateSignalRequest} {c : Ingestion}

/-- No other request has the fingerprint of this one. -/
def Collides (senc : SignalEncoding) (request : CreateSignalRequest) (c : Ingestion) : Prop :=
  senc.fingerprint c.request = senc.fingerprint request ∧ c.request ≠ request

theorem distinct_added (h : Distinct senc request s) (hc : ¬ Collides senc request c)
    (hnone : s.duplicate? senc c.request = none) (hfresh : ∀ row ∈ s.signals, row.id ≠ c.id) :
    Distinct senc request (s.added (newSignal senc c.request c.actor c.id c.now)) := by
  have hunkeyed := unkeyed_of_none hnone
  have hnew : ∀ x ∈ s.signals, x.source = trim c.request.source →
      ¬ x.SharesKey (newSignal senc c.request c.actor c.id c.now) := by
    intro x hx hsource hshares
    obtain ⟨hrepeats, hhash⟩ := hunkeyed x hx hsource
    rcases hshares with ⟨hsome, he⟩ | hfp | hnh
    · have hexternal : x.externalId = c.request.externalId := he
      exact hrepeats (.inl ⟨hexternal ▸ hsome, hexternal⟩)
    · exact hrepeats (.inr hfp)
    · exact hhash hnh
  refine ⟨fun x hx y hy hid => ?_, fun x hx y hy hsource hshares => ?_, fun x hx hfp => ?_⟩
  · rcases List.mem_append.mp hx with hx | hx <;> rcases List.mem_append.mp hy with hy | hy
    · exact h.ids x hx y hy hid
    · cases List.mem_singleton.mp hy
      exact absurd hid (hfresh x hx)
    · cases List.mem_singleton.mp hx
      exact absurd hid.symm (hfresh y hy)
    · rw [List.mem_singleton.mp hx, List.mem_singleton.mp hy]
  · rcases List.mem_append.mp hx with hx | hx <;> rcases List.mem_append.mp hy with hy | hy
    · exact h.keys x hx y hy hsource hshares
    · cases List.mem_singleton.mp hy
      exact absurd hshares (hnew x hx hsource)
    · cases List.mem_singleton.mp hx
      exact absurd hshares.symm (hnew y hy hsource.symm)
    · rw [List.mem_singleton.mp hx, List.mem_singleton.mp hy]
  · rcases List.mem_append.mp hx with hx | hx
    · exact h.made x hx hfp
    · cases List.mem_singleton.mp hx
      have hsame : c.request = request := by
        by_contra hne
        exact hc ⟨hfp, hne⟩
      subst hsame
      exact ⟨rfl, rfl, rfl⟩

theorem distinct_ingested (h : Distinct senc request s) (hc : ¬ Collides senc request c) :
    Distinct senc request (s.ingested enc senc c) := by
  rcases ingested_cases enc senc s c with hsame | ⟨hnone, hfresh, hadded⟩
  · rw [hsame]
    exact h
  · rw [hadded]
    exact distinct_added h hc hnone hfresh

variable (enc) in
/-- **No two signals of a source share a key, after any calls.** -/
theorem distinct_run {calls : List Ingestion} (h : Distinct senc request s)
    (hcalls : ∀ c ∈ calls, ¬ Collides senc request c) :
    Distinct senc request (Machine.run (SignalWorld.ingested enc senc) s calls) :=
  Machine.run_invariant (G := fun _ c => ¬ Collides senc request c) (fun _ _ hc hs => distinct_ingested hs hc)
    (Machine.along_of_forall fun _ c hc => hcalls c hc) h

theorem distinct_empty (senc : SignalEncoding) (request : CreateSignalRequest) : Distinct senc request .empty :=
  ⟨fun _ hx => absurd hx List.not_mem_nil, fun _ hx => absurd hx List.not_mem_nil,
    fun _ hx => absurd hx List.not_mem_nil⟩

/-- The signals of a database are those of an earlier one, each as it was, and new ones. -/
structure Continues (s s' : SignalWorld) : Prop where
  signals : ∃ new, s'.signals = s.signals ++ new ∧ ∀ row ∈ new, row ∉ s.signals
  kept : ∀ row ∈ s.signals, s'.getSignal row.id = s.getSignal row.id

theorem continues_ingested {start : SignalWorld} (h : Continues start s) (c : Ingestion) :
    Continues start (s.ingested enc senc c) := by
  rcases ingested_cases enc senc s c with hsame | ⟨-, hfresh, hadded⟩
  · rw [hsame]
    exact h
  · rw [hadded]
    obtain ⟨new, hsignals, hnew⟩ := h.signals
    have hold : ∀ row ∈ start.signals, row ∈ s.signals := fun row hrow => hsignals ▸ List.mem_append_left _ hrow
    refine ⟨⟨new ++ [newSignal senc c.request c.actor c.id c.now], ?_, fun row hrow => ?_⟩, fun row hrow => ?_⟩
    · rw [SignalWorld.added, hsignals, List.append_assoc]
    · rcases List.mem_append.mp hrow with hrow | hrow
      · exact hnew row hrow
      · cases List.mem_singleton.mp hrow
        exact fun hmem => hfresh _ (hold _ hmem) rfl
    · rw [← h.kept row hrow]
      have hne : c.id ≠ row.id := (hfresh row (hold row hrow)).symm
      have hsome : (s.signals.find? fun x => x.id = row.id).isSome = true :=
        List.find?_isSome.mpr ⟨row, hold row hrow, decide_eq_true rfl⟩
      have hstatus : ∀ id, id ≠ c.id →
          (s.added (newSignal senc c.request c.actor c.id c.now)).statusOf id = s.statusOf id := by
        intro id hid
        unfold SignalWorld.statusOf SignalWorld.eventsOf SignalWorld.added
        rw [List.filter_append, List.filter_cons_of_neg (fun he => hid (of_decide_eq_true he).symm), List.filter_nil,
          List.append_nil]
      obtain ⟨found, hfound⟩ := Option.isSome_iff_exists.mp hsome
      have hid : found.id = row.id := by simpa using List.find?_some hfound
      unfold SignalWorld.getSignal
      rw [SignalWorld.added, List.find?_append, hfound, Option.some_or, Option.map_some, Option.map_some]
      rw [← hstatus found.id (hid ▸ hne.symm)]
      rfl

variable (enc senc) in
theorem continues_run (start : SignalWorld) (calls : List Ingestion) :
    Continues start (Machine.run (SignalWorld.ingested enc senc) start calls) :=
  Machine.run_invariant' (I := Continues start) (fun _ c h => continues_ingested h c)
    ⟨⟨[], (List.append_nil _).symm, fun _ h => absurd h List.not_mem_nil⟩, fun _ _ => rfl⟩

/-! ## Stability -/

/-- The signal has the external id of the request. -/
def SignalRow.TakesExternalId (request : CreateSignalRequest) (row : SignalRow) : Prop :=
  request.externalId.isSome = true ∧ row.externalId = request.externalId

/-- What a signal `id` that answered the request on `s₁` needs, to answer it on `s₂`: it has the external id or the
fingerprint of the request; or it has the content, and no signal has come to have the external id; or no new signal has
a key of the request or is a near-duplicate of it, and the latest signals are all of them. -/
def Stays (senc : SignalEncoding) (request : CreateSignalRequest) (id : String) (s₁ s₂ : SignalWorld) : Prop :=
  (∃ row ∈ s₁.signals, row.id = id ∧ row.Repeats senc request) ∨
  ((∃ row ∈ s₁.signals, row.id = id ∧ row.normalizedHash = senc.normalizedHash request.kind request.content) ∧
    ∀ row ∈ s₂.signals, row.source = trim request.source → ¬ row.TakesExternalId request) ∨
  ((s₂.signals.filter fun row => row.source = trim request.source ∧ row.kind = request.kind).length ≤ 128 ∧
    ∀ row ∈ s₂.signals, row ∉ s₁.signals → row.source = trim request.source → ¬ row.TakesExternalId request ∧
      row.normalizedHash ≠ senc.normalizedHash request.kind request.content ∧
      (row.kind = request.kind →
        SignalWorld.isNearDuplicate (senc.tokens request.content) (senc.tokens row.content) = false))

theorem repeats_unique (h : Distinct senc request s) {x y : SignalRow} (hx : x ∈ s.signals) (hy : y ∈ s.signals)
    (hxs : x.source = trim request.source) (hys : y.source = trim request.source) (hxr : x.Repeats senc request)
    (hyr : y.Repeats senc request) : x = y := by
  have hexternal : ∀ z ∈ s.signals, z.Repeats senc request → request.externalId.isSome = true →
      z.externalId = request.externalId := by
    intro z hz hzr hsome
    rcases hzr with ⟨-, he⟩ | hfp
    · exact he
    · exact (h.made z hz hfp).externalId
  refine h.keys x hx y hy (hxs.trans hys.symm) ?_
  by_cases hsome : request.externalId.isSome = true
  · have he := hexternal x hx hxr hsome
    exact .inl ⟨he ▸ hsome, he.trans (hexternal y hy hyr hsome).symm⟩
  · have hfp : ∀ z : SignalRow, z.Repeats senc request → z.fingerprint = senc.fingerprint request := fun z hz =>
      hz.resolve_left fun ⟨hs, _⟩ => hsome hs
    exact .inr (.inl ((hfp x hxr).trans (hfp y hyr).symm))

theorem duplicate?_of_repeats (h : Distinct senc request s) {row : SignalRow} (hrow : row ∈ s.signals)
    (hsource : row.source = trim request.source) (hrepeats : row.Repeats senc request) :
    s.duplicate? senc request = some row.id := by
  have hfirst : s.earliest? (isRepeat senc request) = some row.id := by
    refine earliest?_of_unique hrow (isRepeat_iff.mpr ⟨hsource, hrepeats⟩) fun x hx htest => ?_
    obtain ⟨hxs, hxr⟩ := isRepeat_iff.mp htest
    exact repeats_unique h hx hrow hxs hsource hxr hrepeats
  rw [duplicate?_eq, hfirst, Option.some_or, Option.some_or]

theorem duplicate?_of_content (h : Distinct senc request s) {row : SignalRow} (hrow : row ∈ s.signals)
    (hsource : row.source = trim request.source)
    (hhash : row.normalizedHash = senc.normalizedHash request.kind request.content)
    (hfree : ∀ x ∈ s.signals, x.source = trim request.source → ¬ x.TakesExternalId request) :
    s.duplicate? senc request = some row.id := by
  by_cases hrepeats : row.Repeats senc request
  · exact duplicate?_of_repeats h hrow hsource hrepeats
  have hsame : ∀ x ∈ s.signals, x.source = trim request.source →
      x.normalizedHash = senc.normalizedHash request.kind request.content → x = row := fun x hx hxs hxh =>
    h.keys x hx row hrow (hxs.trans hsource.symm) (.inr (.inr (hxh.trans hhash.symm)))
  have hfirst : s.earliest? (isRepeat senc request) = none := by
    refine earliest?_eq_none.mpr fun x hx => Bool.eq_false_iff.mpr fun htest => ?_
    obtain ⟨hxs, hxr⟩ := isRepeat_iff.mp htest
    rcases hxr with htakes | hfp
    · exact hfree x hx hxs htakes
    · exact hrepeats (hsame x hx hxs (h.made x hx hfp).normalizedHash ▸ .inr hfp)
  have hsecond : s.earliest? (isSameContent senc request) = some row.id := by
    refine earliest?_of_unique hrow (isSameContent_iff.mpr ⟨hsource, hhash⟩) fun x hx htest => ?_
    obtain ⟨hxs, hxh⟩ := isSameContent_iff.mp htest
    exact hsame x hx hxs hxh
  rw [duplicate?_eq, hfirst, hsecond, Option.none_or, Option.some_or]

/-- A near-duplicate is still the one found when nothing nearer has come. -/
theorem duplicate?_of_near {s₁ s₂ : SignalWorld} (h : Distinct senc request s₂) (hext : Continues s₁ s₂)
    (hunkeyed : Unkeyed senc request s₁)
    (hfew : (s₂.signals.filter fun row => row.source = trim request.source ∧ row.kind = request.kind).length ≤ 128)
    (hnew : ∀ row ∈ s₂.signals, row ∉ s₁.signals → row.source = trim request.source → ¬ row.TakesExternalId request ∧
      row.normalizedHash ≠ senc.normalizedHash request.kind request.content ∧
      (row.kind = request.kind →
        SignalWorld.isNearDuplicate (senc.tokens request.content) (senc.tokens row.content) = false)) :
    s₂.duplicate? senc request = s₁.nearDuplicate? senc request := by
  obtain ⟨new, hsignals, hfresh⟩ := hext.signals
  have hunkeyed₂ : Unkeyed senc request s₂ := by
    intro row hrow hsource
    by_cases hold : row ∈ s₁.signals
    · exact hunkeyed row hold hsource
    · obtain ⟨hfree, hhash, -⟩ := hnew row hrow hold hsource
      refine ⟨fun hrepeats => ?_, hhash⟩
      rcases hrepeats with htakes | hfp
      · exact hfree htakes
      · exact hhash (h.made row hrow hfp).normalizedHash
  have hnone : ∀ row ∈ new, (row.source = trim request.source ∧ row.kind = request.kind) →
      SignalWorld.isNearDuplicate (senc.tokens request.content) (senc.tokens row.content) = false := fun row hrow hkey =>
    (hnew row (hsignals ▸ List.mem_append_right _ hrow) (hfresh row hrow) hkey.1).2.2 hkey.2
  have hfew₁ : (s₁.signals.filter fun row => row.source = trim request.source ∧ row.kind = request.kind).length ≤ 128 := by
    rw [hsignals, List.filter_append, List.length_append] at hfew
    omega
  have hnear : (new.filter fun row => row.source = trim request.source ∧ row.kind = request.kind).filter (fun row =>
      SignalWorld.isNearDuplicate (senc.tokens request.content) (senc.tokens row.content)) = [] := by
    refine List.filter_eq_nil_iff.mpr fun row hrow => ?_
    obtain ⟨hmem, hkey⟩ := List.mem_filter.mp hrow
    exact Bool.eq_false_iff.mp (hnone row hmem (of_decide_eq_true hkey))
  rw [duplicate?_of_unkeyed hunkeyed₂]
  unfold SignalWorld.nearDuplicate?
  simp only [filter_recentSignals hfew, filter_recentSignals hfew₁]
  rw [hsignals, List.filter_append, List.filter_append, hnear, List.append_nil]

theorem answered_cases {s₁ : SignalWorld} {actor id newId : String} {now : Int} {dedup : Bool}
    (h : s.ingestSignal senc request actor newId now = .ok ((id, dedup), s₁)) :
    ∃ row ∈ s₁.signals, row.id = id ∧ row.source = trim request.source ∧ (row.Repeats senc request ∨
      ((∀ x ∈ s₁.signals, x.source = trim request.source → ¬ x.Repeats senc request) ∧
        row.normalizedHash = senc.normalizedHash request.kind request.content) ∨
      (Unkeyed senc request s₁ ∧ s₁.nearDuplicate? senc request = some id)) := by
  rcases ingestSignal_iff.mp h with ⟨existing, hdup, he, rfl⟩ | ⟨-, -, he, rfl⟩
  · cases he
    rcases duplicate?_cases hdup with ⟨row, hrow, hid, hsource, hrepeats⟩ |
      ⟨hnone, row, hrow, hid, hsource, hhash⟩ | ⟨hunkeyed, hnear⟩
    · exact ⟨row, hrow, hid, hsource, .inl hrepeats⟩
    · exact ⟨row, hrow, hid, hsource, .inr (.inl ⟨hnone, hhash⟩)⟩
    · obtain ⟨row, hrow, hid, hsource⟩ := nearDuplicate?_source hnear
      exact ⟨row, hrow, hid, hsource, .inr (.inr ⟨hunkeyed, hnear⟩)⟩
  · cases he
    exact ⟨_, List.mem_append_right _ (List.mem_singleton.mpr rfl), rfl, rfl, .inl (.inr rfl)⟩

theorem row_of_getSignal {id : String} {signal : SignalRecord} (h : s.getSignal id = some signal) :
    ∃ row ∈ s.signals, row.id = id ∧ row.id = signal.id := by
  unfold SignalWorld.getSignal at h
  obtain ⟨row, hrow, rfl⟩ := Option.map_eq_some_iff.mp h
  exact ⟨row, List.mem_of_find?_eq_some hrow, by simpa using List.find?_some hrow, rfl⟩

/-- **A request is answered as before**, whatever other requests came between, if the signal stays its answer. -/
theorem ingestion_stable (enc : Encoding) (senc : SignalEncoding) {earlier between : List Ingestion}
    {c again : Ingestion} {signal : SignalRecord} {dedup : Bool} {s₁ : SignalWorld}
    (hcalls : ∀ other ∈ earlier ++ between, ¬ Collides senc c.request other)
    (hfirst : (Machine.run (SignalWorld.ingested enc senc) .empty earlier).ingest enc senc c = (.ok (signal, dedup), s₁))
    (hsame : again.request = c.request) (hactor : validateActor again.actor = .ok ())
    (hstays : Stays senc c.request signal.id s₁ (Machine.run (SignalWorld.ingested enc senc) s₁ between)) :
    (Machine.run (SignalWorld.ingested enc senc) s₁ between).ingest enc senc again =
      (.ok (signal, true), Machine.run (SignalWorld.ingested enc senc) s₁ between) := by
  have hcalled : ¬ Collides senc c.request c := fun h => h.2 rfl
  have hstart := distinct_run enc (distinct_empty senc c.request) fun other hother =>
    hcalls other (List.mem_append_left between hother)
  generalize Machine.run (SignalWorld.ingested enc senc) .empty earlier = s at hfirst hstart
  obtain ⟨hvalid, -, id, htx, hget⟩ := ingest_eq_ok.mp hfirst
  have hs₁ : s₁ = s.ingested enc senc c := (congrArg Prod.snd hfirst).symm
  have hdistinct₁ : Distinct senc c.request s₁ := hs₁ ▸ distinct_ingested hstart hcalled
  have hdistinct₂ := distinct_run enc hdistinct₁ fun other hother =>
    hcalls other (List.mem_append_right earlier hother)
  have hext := continues_run enc senc s₁ between
  generalize Machine.run (SignalWorld.ingested enc senc) s₁ between = s₂ at hstays hdistinct₂ hext
  obtain ⟨row, -, hrowId, hsignal⟩ := row_of_getSignal hget
  obtain ⟨answer, hanswer, rfl, hsource, hfound⟩ := answered_cases htx
  have hid : signal.id = answer.id := hsignal.symm.trans hrowId
  have hunique : ∀ x ∈ s₁.signals, x.id = signal.id → x = answer := fun x hx he =>
    hdistinct₁.ids x hx answer hanswer (he.trans hid)
  have hmem₂ : answer ∈ s₂.signals := by
    obtain ⟨new, hsignals, -⟩ := hext.signals
    exact hsignals ▸ List.mem_append_left _ hanswer
  have hdup : s₂.duplicate? senc c.request = some answer.id := by
    rcases hstays with ⟨x, hx, hxid, hrepeats⟩ | ⟨⟨x, hx, hxid, hhash⟩, hfree⟩ | ⟨hfew, hnew⟩
    · rw [hunique x hx hxid] at hrepeats
      exact duplicate?_of_repeats hdistinct₂ hmem₂ hsource hrepeats
    · rw [hunique x hx hxid] at hhash
      exact duplicate?_of_content hdistinct₂ hmem₂ hsource hhash hfree
    · rcases hfound with hrepeats | ⟨hnone, hhash⟩ | ⟨hunkeyed, hnear⟩
      · exact duplicate?_of_repeats hdistinct₂ hmem₂ hsource hrepeats
      · refine duplicate?_of_content hdistinct₂ hmem₂ hsource hhash fun x hx hxs htakes => ?_
        by_cases hold : x ∈ s₁.signals
        · exact hnone x hold hxs (.inl htakes)
        · exact (hnew x hx hold hxs).1 htakes
      · rw [duplicate?_of_near hdistinct₂ hext hunkeyed hfew hnew, hnear]
  refine ingest_eq_ok.mpr ⟨hsame ▸ hvalid, hactor, answer.id, ?_, (hext.kept answer hanswer).trans hget⟩
  exact ingestSignal_iff.mpr (.inl ⟨answer.id, hsame ▸ hdup, rfl, rfl⟩)

end Runs

namespace Sample

/-- The flaky deploy again, from a job. -/
def renamed : CreateSignalRequest := ⟨.manual, .internal, "cli", some "ci-7", "Flaky deploy!", []⟩

/-- The next report of the job. -/
def reused : CreateSignalRequest := ⟨.manual, .internal, "cli", some "ci-7", "disk full", []⟩

def letters : List String :=
  ["a", "b", "c", "d", "e", "f", "g", "h", "i", "j", "k", "l", "m", "n", "o", "p", "q", "r", "s", "t", "u"]

/-- A report of so many words. -/
def words (count : Nat) : CreateSignalRequest :=
  ⟨.manual, .internal, "cli", none, " ".intercalate (letters.take count), []⟩

/-- A table of digests. -/
def digest {α : Type} [DecidableEq α] (table : List (α × String)) (a : α) : String :=
  "sha256:" ++ ((table.find? fun row => row.1 = a).map (·.2)).getD ""

/-- The digests and the words of these reports. -/
def reportEncoding : SignalEncoding where
  fingerprint := digest
    [(flaky, "4137a02e5775c8105f3400056333313b7ec23f13a61840896ef9989b89160fdf"),
     (renamed, "cab5143f9b41df501ce304060ef890cf8935d18bee22d71d0ecf4be5f814b31e"),
     (reused, "7db3417b3d743a244399310157a0d02c63632c0487615545a2d96082f9842508"),
     (words 18, "21b3a830fe21abc37435037735b3e5d5222303227c013c3e416d79f9c2d23a56"),
     (words 20, "b9850aab18ee20057afda6e770ec88d98e7e60a02d20cb67e78ae0e168feb49e"),
     (words 21, "1a5852f571b3737606a1d4b77e26174687d8ee66ba3aef28d1137fc27bfa2fc3")]
  contentHash := digest
    [(flaky.content, "ed103faa5bc39715a985d4c54ac023cb18667a52fe688259ad397f9e9881e677"),
     (renamed.content, "07171107e736d4bfabb6673ad5733b721dc163a8d58aed38d132167f851e0ed9"),
     (reused.content, "b4793f9954bb144ababe9f687fd7a14040ae1420eef63581d86abe11796d8c43"),
     ((words 18).content, "02d52f55e6adac2bdccf5ef8de05fc6312c984d870da07afea34b7f7cb17b79e"),
     ((words 20).content, "c27ea722f3a67450b50a8c2d42922e516d3fbfabbdb0c9e2c13f345571cebb56"),
     ((words 21).content, "ae2006f0879dd1d6b8923664c068104b56c1435894718ce84b574a3db720f47d")]
  normalizedHash _ := digest
    [(flaky.content, "810030cc60fc3893b4726b766ee28f5fcf3fae4c68127f4ed1aabb7ed84d3a03"),
     (renamed.content, "810030cc60fc3893b4726b766ee28f5fcf3fae4c68127f4ed1aabb7ed84d3a03"),
     (reused.content, "957603acb832a54cd2517224736fa27c7a92cb95b8d8e829cde4db1ea846e570"),
     ((words 18).content, "543cd794cd4b030f0248270d09430ccf0ab88dfd5cca942713c5980e1ddb299a"),
     ((words 20).content, "00dfaa733a6ae46bf85d17c808202461f5788a3ca7e9410ad21bb5db3fff71fb"),
     ((words 21).content, "d3919ad0b6a1e768f8bd9cb7ae2049d3987df1d52a09984457a56634cde2321f")]
  metadataLen _ := 2
  tokens content :=
    if content = flaky.content ∨ content = renamed.content then ["deploy", "flaky"]
    else if content = reused.content then ["disk", "full"]
    else letters.take ((content.length + 1) / 2)

def ingestion (request : CreateSignalRequest) (now : Nat) : Ingestion :=
  ⟨request, "operator", "signal" ++ toString now, now⟩

/-- The signals that answer calls one after another, and whether they were there before. -/
def answers : List Ingestion → SignalWorld → List (Option (String × Bool))
  | [], _ => []
  | c :: calls, s =>
    ((s.ingest encoding reportEncoding c).1.toOption.map fun r => (r.1.id, r.2)) ::
      answers calls (s.ingested encoding reportEncoding c)

/-- After the flaky deploy has been reported, and again by a job. -/
def absorbed : SignalWorld :=
  Machine.run (SignalWorld.ingested encoding reportEncoding) .empty [ingestion flaky 0, ingestion renamed 1]

def flakyRecord : SignalRecord :=
  ⟨"signal0", .manual, .internal, .observed, "cli", none, "flaky deploy",
    "sha256:ed103faa5bc39715a985d4c54ac023cb18667a52fe688259ad397f9e9881e677", [], 0⟩

end Sample

theorem ingestion_stable_absorbed :
    (Machine.run (SignalWorld.ingested Sample.encoding Sample.reportEncoding) Sample.absorbed
        [Sample.ingestion (Sample.words 18) 2]).ingest Sample.encoding Sample.reportEncoding
          (Sample.ingestion Sample.renamed 3) =
      (.ok (Sample.flakyRecord, true), Machine.run (SignalWorld.ingested Sample.encoding Sample.reportEncoding)
        Sample.absorbed [Sample.ingestion (Sample.words 18) 2]) := by
  refine @ingestion_stable Sample.encoding Sample.reportEncoding [Sample.ingestion Sample.flaky 0] _
    (Sample.ingestion Sample.renamed 1) _ _ true _ ?_ ?_ rfl (by decide) ?_
  · unfold Collides
    decide +kernel
  · decide +kernel
  · unfold Stays SignalRow.Repeats SignalRow.TakesExternalId
    decide +kernel

/-- A report that was absorbed for its content is answered otherwise once its external id is taken, and so is a
near-duplicate once a nearer one has come. -/
theorem ingestion_unstable :
    Sample.answers [Sample.ingestion Sample.flaky 0, Sample.ingestion Sample.renamed 1,
        Sample.ingestion Sample.reused 2, Sample.ingestion Sample.renamed 3] .empty =
      [some ("signal0", false), some ("signal0", true), some ("signal2", false), some ("signal2", true)] ∧
    Sample.answers [Sample.ingestion (Sample.words 18) 0, Sample.ingestion (Sample.words 20) 1,
        Sample.ingestion (Sample.words 21) 2, Sample.ingestion (Sample.words 20) 3] .empty =
      [some ("signal0", false), some ("signal0", true), some ("signal2", false), some ("signal2", true)] := by
  decide +kernel

end Xiaomaolv
