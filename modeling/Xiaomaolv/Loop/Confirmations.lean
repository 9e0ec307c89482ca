import Xiaomaolv.Loop.Refine
import Xiaomaolv.Loop.Signals

/-!
# The signals of parked items

Recovery parks items in its transaction and announces them in signals after it; a verdict ignores the signal.

* `GateAction`, `gateSystem`: the operations on the loop engine and on signals, interleaved at every statement;
  recovery and verdicts with what they do to signals.
* `Store.IsParked`, `SignalWorld.Shown`: an item waits for a verdict; a signal for it is open.
* `GateM.Owes`: the program has still to announce the item.
* `GateStep`: what every step has to meet; `Unmatched`: an announcement meets no signal but an open one of its
  item.
* **`parked_gates_visible`**: along such steps, a waiting item is shown whenever no recovery is under way.
* `parked_gates_hidden`: an item that is parked, retried and parked again is not.
-/

namespace Xiaomaolv

open Table Interleave LoopStore

/-! ## Operations -/

/-- What an operation awaits. -/
inductive GateAction where
  | signal (a : SignalAction)
  /-- The transaction of `recover_goal_state`. -/
  | recover (goalId actor : String) (now : Int)
  /-- The transaction of `ingest_signal` for a parked item. -/
  | announce (goalId workItemId actor : String)
  /-- The query of `resolve_waiting_confirmation` for the signal of the item. -/
  | pendingSignal (workItemId : String)

@[reducible] def GateAction.Resp : GateAction → Type
  | signal a => a.Resp
  | recover .. => List String
  | announce .. => String × Bool
  | pendingSignal _ => Option String

/-- A function on the loop engine and the signals. -/
abbrev GateM := Prog GateAction GateAction.Resp

/-- The items that the transaction of `recover_goal_state` parks. -/
def parkedItems (goalId : String) (now : Int) (s : Store) : List String :=
  if s.goals.any fun g => g.id = goalId then
    ((expiredRows goalId now (reconcileAll goalId s)).filter (·.parked)).map (·.id)
  else []

def confirmationRequest (goalId workItemId : String) : CreateSignalRequest where
  kind := .manual
  trust := .internal
  source := "internal:confirmation"
  externalId := some ("confirm:" ++ workItemId)
  content := "goal " ++ goalId ++ ": work item " ++ workItemId ++ " parked awaiting confirmation — an external " ++
    "effect may or may not have landed before the crash"
  metadata := [("goal_id", goalId), ("work_item_id", workItemId)]

/-- The signal is one of the item. -/
def SignalRow.isOf (workItemId : String) (row : SignalRow) : Bool :=
  row.source = "internal:confirmation" && row.externalId = some ("confirm:" ++ workItemId)

namespace SignalWorld

/-- The open signal of the item; there is one signal at most for a source and an external id. -/
def pendingSignal (s : SignalWorld) (workItemId : String) : Option String :=
  (s.signals.find? fun row => row.isOf workItemId && (s.statusOf row.id).isOpen).map (·.id)

/-- The statements; none waits. -/
def performGate (enc : Encoding) (senc : SignalEncoding) (env : SignalEnv) (i : Nat) :
    (a : GateAction) → SignalWorld → Option (Except String a.Resp × SignalWorld)
  | .signal a, s => s.perform enc senc env i a
  | .recover goalId actor now, s =>
    some (s.commit ((recoverGoalState goalId actor now s.store).map fun store =>
      (parkedItems goalId now s.store, { s with store })))
  | .announce goalId workItemId actor, s =>
    some (s.commit (s.ingestSignal senc (confirmationRequest goalId workItemId) actor env.freshId env.now))
  | .pendingSignal workItemId, s => some (.ok (s.pendingSignal workItemId), s)

end SignalWorld

namespace GateOps

/-- An operation on signals. -/
def lift {α : Type} : SignalM α → GateM α
  | .ret r => .ret r
  | .call a k => .call (.signal a) fun r => lift (k r)

def call (a : GateAction) : GateM a.Resp := Prog.perform a

/-- `ingest_signal` for a parked item. -/
def announce (goalId workItemId actor : String) : GateM SignalRecord := do
  let (id, _) ← call (.announce goalId workItemId actor)
  lift (SignalOps.findSignal id "created signal disappeared")

/-- The loop after the transaction; an error is logged. -/
def announceAll (goalId actor : String) : List String → GateM Unit
  | [] => pure ()
  | workItemId :: rest => (announce goalId workItemId actor).attempt fun _ => announceAll goalId actor rest

/-- `recover_goal_state`. -/
def recoverGoalState (goalId actor : String) (now : Int) : GateM Unit := do
  let parked ← call (.recover goalId actor now)
  announceAll goalId actor parked

/-- `resolve_waiting_confirmation`; that the signal cannot be ignored is no error. -/
def resolveWaitingConfirmation (goalId workItemId : String) (resolution : ConfirmationResolution)
    (reason actor : String) (now : Int) : GateM Unit := do
  call (.signal (.store (.resolveWaitingConfirmation goalId workItemId resolution reason actor now)))
  let pending ← call (.pendingSignal workItemId)
  match pending with
  | some signalId => (lift (SignalOps.ignoreSignal signalId "confirmation resolved" actor)).attempt fun _ => pure ()
  | none => pure ()

end GateOps

/-- The operations, recovery and verdicts with what follows their transactions. -/
def SignalOperation.gated (senc : SignalEncoding) : SignalOperation → GateM Unit
  | .store (.recoverGoalState goalId actor now) => GateOps.recoverGoalState goalId actor now
  | .store (.resolveWaitingConfirmation goalId workItemId resolution reason actor now) =>
    GateOps.resolveWaitingConfirmation goalId workItemId resolution reason actor now
  | op => GateOps.lift (op.program senc)

def SignalOperation.isRecovery : SignalOperation → Bool
  | .store (.recoverGoalState ..) => true
  | _ => false

/-- The operations over one database. -/
def gateSystem (enc : Encoding) (senc : SignalEncoding) :
    System SignalWorld SignalOperation GateAction SignalEnv Unit GateAction.Resp where
  program := SignalOperation.gated senc
  perform env i a s := s.performGate enc senc env i a
  release _ s := s
  restart _ s := some s

abbrev GatePool := Pool SignalWorld SignalOperation GateAction GateAction.Resp

abbrev GateThread := Thread SignalOperation GateAction GateAction.Resp

/-! ## Gates -/

/-- The item waits for a verdict. -/
def Store.IsParked (s : Store) (id : String) : Prop :=
  ∃ w ∈ s.workItems, w.id = id ∧ w.status = .waitingConfirmation

namespace SignalWorld

variable (senc : SignalEncoding) (s : SignalWorld) (workItemId : String)

/-- A signal of the item is observed or triaged. -/
def Shown : Prop := ∃ row ∈ s.signals, row.isOf workItemId = true ∧ (s.statusOf row.id).isOpen = true

/-- The announcement of the item meets no signal but an open one of the item. -/
structure Unmatched (request : CreateSignalRequest) : Prop where
  own : ∀ row ∈ s.signals, row.source = trim request.source →
    (row.externalId = request.externalId ∨ row.fingerprint = senc.fingerprint request) →
      row.externalId = request.externalId ∧ (s.statusOf row.id).isOpen = true
  others : (∀ row ∈ s.signals, row.source = trim request.source → row.externalId ≠ request.externalId) →
    (∀ row ∈ s.signals, row.source = trim request.source →
      row.normalizedHash ≠ senc.normalizedHash request.kind request.content) ∧
    ∀ row ∈ s.recentSignals (trim request.source) request.kind,
      isNearDuplicate (senc.tokens request.content) (senc.tokens row.content) = false

end SignalWorld

/-- The program has still to announce the item, whatever it is answered. -/
def GateM.Owes (workItemId : String) : GateM Unit → Prop
  | .ret _ => False
  | .call (.announce _ id _) k => id = workItemId ∨ ∀ r, GateM.Owes workItemId (k r)
  | .call _ k => ∀ r, GateM.Owes workItemId (k r)

/-- The program has returned. -/
def GateM.isDone : GateM Unit → Bool
  | .ret _ => true
  | .call .. => false

/-- No recovery is under way. -/
def NoRecovery (pool : GatePool) : Prop :=
  ∀ t ∈ pool.threads, t.caller.isRecovery = true → GateM.isDone t.prog = true

/-! ## Steps -/

section Conditions

variable (senc : SignalEncoding)

/-- A statement ends no signal of an item that waits; an announcement of one succeeds, and meets no signal but an
open one of the item. -/
def GateCall (env : SignalEnv) (s : SignalWorld) : GateAction → Prop
  | .signal a => ∀ e ∈ a.event?, e.status.isOpen = false →
      ∀ w ∈ s.store.workItems, w.status = .waitingConfirmation →
        ∀ row ∈ s.signals, row.id = e.signalId → row.isOf w.id = false
  | .announce goalId workItemId actor => s.store.IsParked workItemId →
      s.Unmatched senc (confirmationRequest goalId workItemId) ∧
        (s.ingestSignal senc (confirmationRequest goalId workItemId) actor env.freshId env.now).isOk = true
  | _ => True

/-- An operation may stop when the waiting items that it has still to announce are shown. -/
def MayStop (s : SignalWorld) (t : GateThread) : Prop :=
  ∀ workItemId, GateM.Owes workItemId t.prog → s.store.IsParked workItemId → s.Shown workItemId

/-- What a step has to meet. -/
def GateStep (pool : GatePool) : SignalStep → Prop
  | .start _ => True
  | .advance i env => ∀ t, pool.threads[i]? = some t → ∀ a k, t.prog = .call a k → GateCall senc env pool.world a
  | .drop i => ∀ t, pool.threads[i]? = some t → MayStop pool.world t
  | .restart _ => ∀ t ∈ pool.threads, MayStop pool.world t

end Conditions

/-! ## Which items wait -/

section Waiting

variable {enc : Encoding} {s s' : Store} {t : Txn} {id : String} {l l' : Life} {e : Life.Event}

/-- Only a lapse parks an item. -/
theorem Life.Step.not_waiting (h : l.Step e l') (hl : l.item.status ≠ .waitingConfirmation)
    (hlapse : ∀ now, e ≠ .lapse now) : l'.item.status ≠ .waitingConfirmation := by
  cases h with
  | unlock => simp [Life.withStatus]
  | block => simp [Life.withStatus]
  | requeue => simp [Life.requeue]
  | claim => simp [Life.claim]
  | renew => exact hl
  | progress => exact hl
  | prepare => exact hl
  | commit => exact hl
  | reconcile =>
    unfold Life.reconcile
    simp only
    split_ifs
    · simp
    · exact hl
  | release a r _ hstatus =>
    unfold Life.release
    rcases hstatus with h | h | h <;> simp [h]
  | lapse now => exact absurd rfl (hlapse now)
  | verdict a c resolution reason exhausted =>
    unfold Life.verdict
    cases resolution <;> cases exhausted <;> simp [ConfirmationResolution.itemStatus]
  | close _ _ status h =>
    unfold Life.close
    simp only
    split_ifs
    · exact hl
    · rcases h with rfl | rfl <;> simp

theorem Life.Path.not_waiting {es : List Life.Event} (h : l.Path es l') (hl : l.item.status ≠ .waitingConfirmation)
    (hlapse : ∀ e ∈ es, ∀ now, e ≠ .lapse now) : l'.item.status ≠ .waitingConfirmation :=
  h.keeps (I := fun l => l.item.status ≠ .waitingConfirmation) (fun _ _ _ hp hI hstep => hstep.not_waiting hI hp)
    hlapse hl

theorem emits_lapse {w : WorkItemRow} {now : Int} (h : t.Emits s w (.lapse now)) :
    ∃ goalId actor, t = .recoverGoalState goalId actor now := by
  cases t <;> simp [Txn.Emits] at h
  exact ⟨_, _, by rw [h.2]⟩

theorem isParked_iff (hw : WellFormed s) :
    s.IsParked id ↔ ∃ l, s.life? id = some l ∧ l.item.status = .waitingConfirmation := by
  constructor
  · rintro ⟨w, hwm, rfl, hst⟩
    exact ⟨_, hw.life? hwm, hst⟩
  · rintro ⟨l, hl, hst⟩
    exact ⟨l.item, (life_item hl).1, (life_item hl).2, hst⟩

/-- **A transaction other than a recovery parks no item.** -/
theorem isParked_exec (hw : WellFormed s) (ht : ∀ goalId actor now, t ≠ .recoverGoalState goalId actor now)
    (h : (exec enc s t).IsParked id) : s.IsParked id := by
  rcases exec_cases enc s t with he | he
  · rwa [he] at h
  obtain ⟨l', hl', hst⟩ := (isParked_iff (wellFormed_exec t hw)).mp h
  cases hl : s.life? id with
  | none =>
    have hnew := (life_born hw he hl hl').item.status
    rcases hnew with hnew | hnew <;> rw [hst] at hnew <;> cases hnew
  | some l =>
    obtain ⟨es, l'', hl'', hpath, hemits, -⟩ := life_apply hw hl he
    cases hl'.symm.trans hl''
    refine (isParked_iff hw).mpr ⟨l, hl, ?_⟩
    by_contra hne
    refine hpath.not_waiting hne (fun e hmem now heq => ?_) hst
    subst heq
    obtain ⟨goalId, actor, rfl⟩ := emits_lapse (hemits _ hmem)
    exact ht _ _ _ rfl

theorem workStatus_eq_waiting {row : ExpiredRow} : row.workStatus = .waitingConfirmation ↔ row.parked = true := by
  unfold ExpiredRow.workStatus
  split_ifs with hparked <;> simp [hparked]

/-- What recovery makes of an item. -/
theorem life_recovered {goalId actor : String} {now : Int} (hw : WellFormed s) (hl : s.life? id = some l)
    (hl' : (recovered goalId actor now s).life? id = some l') (hst : l'.item.status = .waitingConfirmation) :
    l.item.status = .waitingConfirmation ∨
      ∃ row ∈ expiredRows goalId now (reconcileAll goalId s), row.id = id ∧ row.parked = true := by
  by_cases hne : l.item.status = .waitingConfirmation
  · exact .inl hne
  obtain ⟨es, l₁, hl₁, hpath, hes⟩ := life_reconcileAll hw hl goalId
  have hw₁ : WellFormed (reconcileAll goalId s) := wellFormed_of_origin (origin_reconcileAll s goalId) hw
  have hne₁ : l₁.item.status ≠ .waitingConfirmation := hpath.not_waiting hne fun e he now heq => by
    obtain ⟨-, c, hc⟩ := hes e he
    rw [hc] at heq
    cases heq
  have hl₂ := life_lapseAll hw₁ hl₁ goalId now
  have hlast : (recovered goalId actor now s).life? id =
      ((lapseAll goalId now (reconcileAll goalId s)).unlockReady goalId).life? id := by
    unfold recovered
    simp only
    split_ifs <;> simp
  have hst₂ : (if l₁.item.goalId = goalId ∧ l₁.item.status = .running ∧ leaseExpired now l₁.item = true
      then l₁.lapse now else l₁).item.status = .waitingConfirmation := by
    rw [hlast, life_unlockReady hl₂ goalId, Option.some.injEq] at hl'
    generalize (if l₁.item.goalId = goalId ∧ l₁.item.status = .running ∧ leaseExpired now l₁.item = true
      then l₁.lapse now else l₁) = l₂ at hl' ⊢
    rw [← hl'] at hst
    split_ifs at hst
    · cases hst
    · exact hst
  by_cases hlapse : l₁.item.goalId = goalId ∧ l₁.item.status = .running ∧ leaseExpired now l₁.item = true
  · rw [if_pos hlapse] at hst₂
    obtain ⟨hmem, hid⟩ := life_item hl₁
    refine .inr ⟨_, mem_expiredRows.mpr ⟨l₁.item, hmem, hlapse.1, hlapse.2.1, hlapse.2.2, rfl⟩, hid, ?_⟩
    rw [expiredRow_eq hw₁ hl₁]
    exact workStatus_eq_waiting.mp hst₂
  · rw [if_neg hlapse] at hst₂
    exact absurd hst₂ hne₁

/-- **Recovery parks the items that it announces.** -/
theorem isParked_recover (enc : Encoding) {goalId actor : String} {now : Int} (hw : WellFormed s)
    (ht : recoverGoalState goalId actor now s = .ok s') (h : s'.IsParked id) :
    s.IsParked id ∨ id ∈ parkedItems goalId now s := by
  have happly : s.apply enc (.recoverGoalState goalId actor now) = .ok s' := ht
  obtain ⟨l', hl', hst⟩ := (isParked_iff (wellFormed_apply hw happly)).mp h
  rcases recoverGoalState_ok ht with ⟨hgoal, rfl⟩ | ⟨-, rfl⟩
  · cases hl : s.life? id with
    | none =>
      have hnew := (life_born hw happly hl hl').item.status
      rcases hnew with hnew | hnew <;> rw [hst] at hnew <;> cases hnew
    | some l =>
      rcases life_recovered hw hl hl' hst with hst | ⟨row, hrow, hid, hparked⟩
      · exact .inl ((isParked_iff hw).mpr ⟨l, hl, hst⟩)
      · refine .inr ?_
        unfold parkedItems
        rw [if_pos hgoal]
        exact List.mem_map.mpr ⟨row, List.mem_filter.mpr ⟨hrow, hparked⟩, hid⟩
  · exact .inl h

end Waiting

/-! ## Statements -/

section Statements

variable {enc : Encoding} {senc : SignalEncoding} {env : SignalEnv} {i : Nat} {s s' : SignalWorld} {workItemId : String}

theorem statusOf_concat {e : SignalEventRow} (hevents : s'.signalEvents = s.signalEvents ++ [e]) (id : String) :
    s'.statusOf id = if e.signalId = id then e.status else s.statusOf id := by
  unfold SignalWorld.statusOf
  rw [eventsOf_concat hevents]
  split_ifs with hid <;> simp

theorem shown_writes {a : SignalAction} (h : Writes s a s')
    (hevent : ∀ e ∈ a.event?, e.status.isOpen = false → ∀ row ∈ s.signals, row.id = e.signalId →
      row.isOf workItemId = false) (hs : s.Shown workItemId) : s'.Shown workItemId := by
  obtain ⟨row, hrow, hof, hopen⟩ := hs
  cases h with
  | nothing hsignals hevents =>
    refine ⟨row, hsignals ▸ hrow, hof, ?_⟩
    unfold SignalWorld.statusOf SignalWorld.eventsOf at hopen ⊢
    rw [hevents]
    exact hopen
  | event e he _ hsignals hevents =>
    refine ⟨row, hsignals ▸ hrow, hof, ?_⟩
    rw [statusOf_concat hevents]
    split_ifs with hid
    · rw [← Bool.not_eq_false]
      intro hended
      have hno := hevent e he hended row hrow hid.symm
      rw [hof] at hno
      cases hno
    · exact hopen
  | ingest new e hfresh hid hstatus hsignals hevents =>
    refine ⟨row, hsignals ▸ List.mem_append_left _ hrow, hof, ?_⟩
    rw [statusOf_concat hevents, if_neg fun he => hfresh row hrow (he.symm.trans hid)]
    exact hopen

theorem earliest?_eq_some {test : SignalRow → Bool} {id : String} (h : s.earliest? test = some id) :
    ∃ row ∈ s.signals, test row = true ∧ row.id = id := by
  unfold SignalWorld.earliest? at h
  obtain ⟨row, hrow, hid⟩ := Option.map_eq_some_iff.mp h
  have hmem := List.mem_of_mem_head? hrow
  rw [List.mem_insertionSort, List.mem_filter] at hmem
  exact ⟨row, hmem.1, hmem.2, hid⟩

theorem earliest?_eq_none {test : SignalRow → Bool} :
    s.earliest? test = none ↔ ∀ row ∈ s.signals, test row = false := by
  unfold SignalWorld.earliest?
  rw [Option.map_eq_none_iff, List.head?_eq_none_iff, ← List.length_eq_zero_iff, List.length_insertionSort,
    List.length_eq_zero_iff, List.filter_eq_nil_iff]
  simp only [Bool.not_eq_true]

theorem nearDuplicate?_eq_none {request : CreateSignalRequest}
    (h : ∀ row ∈ s.recentSignals (trim request.source) request.kind,
      SignalWorld.isNearDuplicate (senc.tokens request.content) (senc.tokens row.content) = false) :
    s.nearDuplicate? senc request = none := by
  have hnil : (s.recentSignals (trim request.source) request.kind).filter (fun row =>
      SignalWorld.isNearDuplicate (senc.tokens request.content) (senc.tokens row.content)) = [] :=
    List.filter_eq_nil_iff.mpr fun row hrow => by simp [h row hrow]
  unfold SignalWorld.nearDuplicate?
  simp only [hnil, List.foldl_nil, Option.map_none]

/-- An announcement that meets no other signal is deduplicated against an open one of the item, or not at all. -/
theorem duplicate_of_unmatched {request : CreateSignalRequest} (hsome : request.externalId.isSome = true)
    (h : s.Unmatched senc request) {id : String} (hid : s.duplicate? senc request = some id) :
    ∃ row ∈ s.signals, row.id = id ∧ row.source = trim request.source ∧ row.externalId = request.externalId ∧
      (s.statusOf row.id).isOpen = true := by
  unfold SignalWorld.duplicate? at hid
  simp only [hsome, Bool.true_and, Option.orElse_eq_orElse, Option.orElse_eq_or] at hid
  cases hfirst : s.earliest? fun row => row.source = trim request.source &&
      (row.externalId = request.externalId || row.fingerprint = senc.fingerprint request) with
  | some first =>
    rw [hfirst] at hid
    cases hid
    obtain ⟨row, hrow, htest, hid⟩ := earliest?_eq_some hfirst
    simp only [Bool.and_eq_true, Bool.or_eq_true, decide_eq_true_eq] at htest
    exact ⟨row, hrow, hid, htest.1, h.own row hrow htest.1 htest.2⟩
  | none =>
    have hnone : ∀ row ∈ s.signals, row.source = trim request.source → row.externalId ≠ request.externalId := by
      intro row hrow hsource he
      have htest := earliest?_eq_none.mp hfirst row hrow
      simp [hsource, he] at htest
    obtain ⟨hhash, hnear⟩ := h.others hnone
    have hsecond : (s.earliest? fun row => row.source = trim request.source &&
        row.normalizedHash = senc.normalizedHash request.kind request.content) = none := by
      refine earliest?_eq_none.mpr fun row hrow => ?_
      rw [← Bool.not_eq_true]
      intro htest
      simp only [Bool.and_eq_true, decide_eq_true_eq] at htest
      exact hhash row hrow htest.1 htest.2
    rw [hfirst, hsecond, nearDuplicate?_eq_none hnear] at hid
    cases hid

/-- **An announcement that meets no other signal shows the item.** -/
theorem shown_announce {goalId actor id : String} {now : Int} {r : String × Bool}
    (hunmatched : s.Unmatched senc (confirmationRequest goalId workItemId))
    (h : s.ingestSignal senc (confirmationRequest goalId workItemId) actor id now = .ok (r, s')) :
    s'.Shown workItemId := by
  have htrim : trim "internal:confirmation" = "internal:confirmation" := by decide
  have hsource : trim (confirmationRequest goalId workItemId).source = "internal:confirmation" := htrim
  have hof : ∀ {row : SignalRow}, row.source = "internal:confirmation" →
      row.externalId = (confirmationRequest goalId workItemId).externalId → row.isOf workItemId = true := by
    intro row hs he
    unfold SignalRow.isOf
    rw [hs, he]
    simp [confirmationRequest]
  unfold SignalWorld.ingestSignal at h
  cases hdup : s.duplicate? senc (confirmationRequest goalId workItemId) with
  | some existing =>
    rw [hdup] at h
    cases h
    obtain ⟨row, hrow, -, hs, he, hopen⟩ := duplicate_of_unmatched rfl hunmatched hdup
    exact ⟨row, hrow, hof (hs.trans hsource) he, hopen⟩
  | none =>
    rw [hdup] at h
    simp only [bind_eq_ok, insertRow_eq_ok, pure_eq_ok] at h
    obtain ⟨signals, ⟨-, rfl⟩, t, ht, he⟩ := h
    obtain ⟨-, rfl⟩ := insertSignalEvent_ok ht
    cases he
    refine ⟨_, List.mem_append_right _ (List.mem_singleton_self _), hof hsource rfl, ?_⟩
    rw [statusOf_concat rfl, if_pos rfl]
    rfl

/-- What may be called after the transaction of a recovery, and by the other operations. -/
def GateAction.IsPlain (recovery : Bool) : GateAction → Prop
  | .recover .. => False
  | .announce .. => recovery = true
  | .signal (.store t) => ∀ goalId actor now, t ≠ .recoverGoalState goalId actor now
  | _ => True

theorem GateAction.IsPlain.mono {recovery : Bool} {a : GateAction} (h : a.IsPlain false) : a.IsPlain recovery := by
  cases a with
  | announce => cases h
  | signal a =>
    cases a with
    | store t => exact h
    | _ => trivial
  | recover | pendingSignal => exact h

theorem recover_perform {goalId actor : String} {now : Int} {answer : Except String (List String)}
    (h : s.performGate enc senc env i (.recover goalId actor now) = some (answer, s')) :
    (∃ e, answer = .error e) ∧ s' = s ∨
      ∃ store, recoverGoalState goalId actor now s.store = .ok store ∧
        answer = .ok (parkedItems goalId now s.store) ∧ s' = { s with store } := by
  have h' := Option.some.inj h
  cases hrec : recoverGoalState goalId actor now s.store with
  | error e =>
    rw [hrec] at h'
    cases h'
    exact .inl ⟨⟨e, rfl⟩, rfl⟩
  | ok store =>
    rw [hrec] at h'
    cases h'
    exact .inr ⟨store, rfl, rfl, rfl⟩

/-- **A plain statement** parks nothing, and hides no item unless it ends its signal. -/
theorem plain_perform {recovery : Bool} {a : GateAction} {answer : Except String a.Resp} (ha : a.IsPlain recovery)
    (hw : WellFormed s.store)
    (h : s.performGate enc senc env i a = some (answer, s')) :
    WellFormed s'.store ∧ ∀ id, s'.store.IsParked id → s.store.IsParked id := by
  cases a with
  | signal a =>
    have h' : s.perform enc senc env i a = some (answer, s') := h
    rcases perform_store' h' with hstore | ⟨t, ht, hstore⟩
    · rw [hstore]
      exact ⟨hw, fun _ => id⟩
    · rw [hstore]
      refine ⟨wellFormed_exec t hw, fun _ => isParked_exec hw ?_⟩
      rintro goalId actor now rfl
      rcases ht with rfl | ⟨_, _, _, ht⟩
      · exact ha goalId actor now rfl
      · cases ht
  | recover => exact ha.elim
  | announce goalId workItemId actor =>
    rcases commit_eq (Option.some.inj h) with ⟨e, -, -, rfl⟩ | ⟨r, htx, -⟩
    · exact ⟨hw, fun _ => id⟩
    · rw [(ingestSignal_ok htx).2]
      exact ⟨hw, fun _ => id⟩
  | pendingSignal =>
    cases congrArg Prod.snd (Option.some.inj h)
    exact ⟨hw, fun _ => id⟩

/-- **A statement that meets the condition** keeps what is shown of the items that wait. -/
theorem shown_perform {a : GateAction} {answer : Except String a.Resp} (hcall : GateCall senc env s a)
    (h : s.performGate enc senc env i a = some (answer, s')) (hparked : s.store.IsParked workItemId)
    (hs : s.Shown workItemId) : s'.Shown workItemId := by
  cases a with
  | signal a =>
    have h' : s.perform enc senc env i a = some (answer, s') := h
    obtain ⟨w, hw, rfl, hst⟩ := hparked
    exact shown_writes (perform_writes h') (fun e he hended row hrow hid => hcall e he hended w hw hst row hrow hid) hs
  | recover goalId actor now =>
    rcases recover_perform h with ⟨-, rfl⟩ | ⟨store, -, -, rfl⟩
    · exact hs
    · exact hs
  | announce goalId id actor =>
    rcases commit_eq (Option.some.inj h) with ⟨e, -, -, rfl⟩ | ⟨r, htx, -⟩
    · exact hs
    · refine shown_writes (ingestSignal_ok htx).1 (fun e he => ?_) hs
      cases he
  | pendingSignal =>
    cases congrArg Prod.snd (Option.some.inj h)
    exact hs

end Statements

/-! ## Programs -/

section Programs

variable {senc : SignalEncoding} {workItemId : String} {α β : Type}

theorem owes_call {a : GateAction} {k : Except String a.Resp → GateM Unit} (h : GateM.Owes workItemId (.call a k)) :
    (∃ goalId actor, a = .announce goalId workItemId actor) ∨ ∀ r, GateM.Owes workItemId (k r) := by
  cases a with
  | announce goalId id actor =>
    rcases h with rfl | h
    · exact .inl ⟨goalId, actor, rfl⟩
    · exact .inr h
  | signal | recover | pendingSignal => exact .inr h

theorem owes_attempt {p : GateM α} {f : Except String α → GateM Unit} (h : ∀ r, GateM.Owes workItemId (f r)) :
    GateM.Owes workItemId (p.attempt f) := by
  induction p with
  | ret r => exact h r
  | call a k ih =>
    cases a with
    | announce => exact .inr ih
    | signal | recover | pendingSignal => exact ih

theorem owes_announceAll {goalId actor : String} {items : List String} (h : workItemId ∈ items) :
    GateM.Owes workItemId (GateOps.announceAll goalId actor items) := by
  induction items with
  | nil => cases h
  | cons item rest ih =>
    rcases List.mem_cons.mp h with rfl | h
    · exact .inl rfl
    · exact owes_attempt fun _ => ih h

theorem not_owes_of_uses {p : GateM Unit} (h : p.Uses (GateAction.IsPlain false)) : ¬ GateM.Owes workItemId p := by
  induction p with
  | ret r => exact id
  | call a k ih =>
    intro howes
    rcases owes_call howes with ⟨goalId, actor, rfl⟩ | howes
    · cases h.1
    · exact ih (.error "") (h.2 _) (howes _)

theorem uses_liftSignal {allowed : SignalAction → Prop} {recovery : Bool} {p : SignalM α} (hp : p.Uses allowed)
    (h : ∀ a, allowed a → GateAction.IsPlain recovery (.signal a)) :
    (GateOps.lift p).Uses (GateAction.IsPlain recovery) := by
  induction p with
  | ret r => trivial
  | call a k ih => exact ⟨h a hp.1, fun r => ih r (hp.2 r)⟩

section Operations

variable {allowed : SignalAction → Prop} (hstore : ∀ a, (∀ t, a ≠ .store t) → allowed a)

include hstore

theorem uses_findSignal (signalId message : String) : (SignalOps.findSignal signalId message).Uses allowed :=
  (Prog.uses_perform (hstore _ (by simp))).bind fun _ => Prog.uses_lift _

theorem uses_ignoreSignal (signalId reason actor : String) :
    (SignalOps.ignoreSignal signalId reason actor).Uses allowed := by
  refine Prog.uses_lift_bind fun _ _ => (uses_findSignal hstore _ _).bind fun signal => ?_
  refine Prog.uses_lift_bind fun _ _ => ?_
  exact (Prog.uses_perform (hstore _ (by simp))).bind fun _ => uses_findSignal hstore _ _

theorem uses_triageSignal (signalId actor : String) : (SignalOps.triageSignal signalId actor).Uses allowed := by
  refine (uses_findSignal hstore _ _).bind fun signal => ?_
  split_ifs
  · exact Prog.uses_pure _
  · refine Prog.uses_lift_bind fun _ _ => ?_
    exact (Prog.uses_perform (hstore _ (by simp))).bind fun _ => uses_findSignal hstore _ _

theorem uses_proposeGoalFromSignal (signalId objective actor : String) :
    (SignalOps.proposeGoalFromSignal signalId objective actor).Uses allowed := by
  refine Prog.uses_lift_bind fun _ _ => (uses_findSignal hstore _ _).bind fun signal => ?_
  refine Prog.uses_lift_bind fun _ _ => ?_
  have hcreate : ∀ request, (SignalOps.createGoal request actor).Uses allowed := fun request =>
    Prog.uses_lift_bind fun _ _ => Prog.uses_lift_bind fun _ _ => Prog.uses_perform (hstore _ (by simp))
  refine (hcreate _).bind fun goal => ?_
  exact (Prog.uses_perform (hstore _ (by simp))).bind fun _ => Prog.uses_pure _

theorem uses_ingestSignal (request : CreateSignalRequest) (actor : String) :
    (SignalOps.ingestSignal senc request actor).Uses allowed := by
  refine Prog.uses_lift_bind fun _ _ => Prog.uses_lift_bind fun _ _ => ?_
  refine (Prog.uses_perform (hstore _ (by simp))).bind fun r => ?_
  exact (uses_findSignal hstore _ _).bind fun _ => Prog.uses_pure _

end Operations

theorem uses_signalProgram {allowed : SignalAction → Prop} (hstore : ∀ a, (∀ t, a ≠ .store t) → allowed a)
    {op : SignalOperation} (hop : ∀ t, op = .store t → allowed (.store t)) : (op.program senc).Uses allowed := by
  cases op with
  | ingest request actor => exact (uses_ingestSignal hstore _ _).bind fun _ => Prog.uses_pure _
  | triage signalId actor =>
    exact Prog.uses_lift_bind fun _ _ => (uses_triageSignal hstore _ _).bind fun _ => Prog.uses_pure _
  | ignore signalId reason actor =>
    exact Prog.uses_lift_bind fun _ _ => (uses_ignoreSignal hstore _ _ _).bind fun _ => Prog.uses_pure _
  | markProposed signalId goalId actor => exact Prog.uses_perform (hstore _ (by simp))
  | propose signalId objective actor => exact (uses_proposeGoalFromSignal hstore _ _ _).bind fun _ => Prog.uses_pure _
  | store t => exact Prog.uses_perform (hop t rfl)

theorem isPlain_signal (recovery : Bool) (a : SignalAction) (h : ∀ t, a ≠ .store t) :
    GateAction.IsPlain recovery (.signal a) := by
  cases a with
  | store t => exact absurd rfl (h t)
  | _ => trivial

theorem recoverGoalState_call (goalId actor : String) (now : Int) :
    ∃ k, GateOps.recoverGoalState goalId actor now = .call (.recover goalId actor now) k ∧
      (∀ parked, k (.ok parked) = GateOps.announceAll goalId actor parked) ∧ ∀ e, k (.error e) = .ret (.error e) :=
  ⟨_, rfl, fun _ => rfl, fun _ => rfl⟩

theorem uses_announceAll (goalId actor : String) (items : List String) :
    (GateOps.announceAll goalId actor items).Uses (GateAction.IsPlain true) := by
  induction items with
  | nil => exact Prog.uses_pure _
  | cons item rest ih =>
    have hcall : GateAction.IsPlain true (.announce goalId item actor) := rfl
    have hannounce : (GateOps.announce goalId item actor).Uses (GateAction.IsPlain true) := by
      refine (Prog.uses_perform hcall).bind fun r => ?_
      exact uses_liftSignal (uses_findSignal (fun a ha => isPlain_signal true a ha) _ _) fun _ h => h
    exact hannounce.attempt fun _ => ih

theorem uses_resolve (goalId workItemId : String) (resolution : ConfirmationResolution) (reason actor : String)
    (now : Int) : (GateOps.resolveWaitingConfirmation goalId workItemId resolution reason actor now).Uses
      (GateAction.IsPlain false) := by
  have hcall : GateAction.IsPlain false
      (.signal (.store (.resolveWaitingConfirmation goalId workItemId resolution reason actor now))) := by
    intro _ _ _ h
    cases h
  have hquery : GateAction.IsPlain false (.pendingSignal workItemId) := trivial
  refine (Prog.uses_perform hcall).bind fun _ => (Prog.uses_perform hquery).bind fun pending => ?_
  cases pending with
  | none => exact Prog.uses_pure _
  | some signalId =>
    have hignore : (GateOps.lift (SignalOps.ignoreSignal signalId "confirmation resolved" actor)).Uses
        (GateAction.IsPlain false) :=
      uses_liftSignal (uses_ignoreSignal (fun a ha => isPlain_signal false a ha) _ _ _) fun _ h => h
    exact hignore.attempt fun _ => Prog.uses_pure _

/-- **Only a recovery parks and announces.** -/
theorem uses_gated (op : SignalOperation) : (op.gated senc).Uses (GateAction.IsPlain false) ∨
    ∃ goalId actor now, op = .store (.recoverGoalState goalId actor now) ∧
      op.gated senc = GateOps.recoverGoalState goalId actor now := by
  by_cases hrecovery : ∃ goalId actor now, op = .store (.recoverGoalState goalId actor now)
  · obtain ⟨goalId, actor, now, rfl⟩ := hrecovery
    exact .inr ⟨goalId, actor, now, rfl, rfl⟩
  refine .inl ?_
  have hplain : (GateOps.lift (op.program senc)).Uses (GateAction.IsPlain false) := by
    refine uses_liftSignal (uses_signalProgram (fun a ha => isPlain_signal false a ha) ?_) fun _ h => h
    rintro t rfl goalId actor now rfl
    exact hrecovery ⟨goalId, actor, now, rfl⟩
  unfold SignalOperation.gated
  split
  · exact absurd ⟨_, _, _, rfl⟩ hrecovery
  · exact uses_resolve ..
  · exact hplain

end Programs

/-! ## Runs -/

section Runs

variable {enc : Encoding} {senc : SignalEncoding} {pool : GatePool} {workItemId : String}

/-- The thread is a recovery before its transaction, or parks nothing. -/
def ParksOnce (t : GateThread) : Prop :=
  t.prog.Uses (GateAction.IsPlain t.caller.isRecovery) ∨
    ∃ goalId actor now, t.caller = .store (.recoverGoalState goalId actor now) ∧
      t.prog = GateOps.recoverGoalState goalId actor now

/-- An item that waits is shown, or some operation has still to announce it. -/
structure ShownOrOwed (pool : GatePool) : Prop where
  wellFormed : WellFormed pool.world.store
  threads : ∀ t ∈ pool.threads, ParksOnce t
  parked : ∀ workItemId, pool.world.store.IsParked workItemId →
    pool.world.Shown workItemId ∨ ∃ t ∈ pool.threads, GateM.Owes workItemId t.prog

theorem ParksOnce.recovery {t : GateThread} (h : ParksOnce t) (howes : GateM.Owes workItemId t.prog) :
    t.caller.isRecovery = true := by
  rcases h with h | ⟨goalId, actor, now, hcaller, -⟩
  · rw [← Bool.not_eq_false]
    intro hno
    rw [hno] at h
    exact not_owes_of_uses h howes
  · rw [hcaller]
    rfl

/-- **Between recoveries every waiting item is shown.** -/
theorem ShownOrOwed.shown (h : ShownOrOwed pool) (hrest : NoRecovery pool)
    (hparked : pool.world.store.IsParked workItemId) : pool.world.Shown workItemId := by
  rcases h.parked workItemId hparked with hshown | ⟨t, ht, howes⟩
  · exact hshown
  · have hdone := hrest t ht ((h.threads t ht).recovery howes)
    cases hp : t.prog with
    | ret r =>
      rw [hp] at howes
      exact howes.elim
    | call a k =>
      rw [hp] at hdone
      cases hdone

theorem ParksOnce.stopped (t : GateThread) : ParksOnce t.stopped := .inl trivial

theorem owed_set {i : Nat} {t t' : GateThread} (ht : pool.threads[i]? = some t)
    (howed : ∃ x ∈ pool.threads, GateM.Owes workItemId x.prog)
    (hnext : GateM.Owes workItemId t.prog → GateM.Owes workItemId t'.prog) :
    ∃ x ∈ pool.threads.set i t', GateM.Owes workItemId x.prog := by
  obtain ⟨x, hx, howes⟩ := howed
  obtain ⟨j, hj⟩ := List.mem_iff_getElem?.mp hx
  by_cases hij : i = j
  · subst hij
    cases ht.symm.trans hj
    have hlt := (List.getElem?_eq_some_iff.mp ht).1
    exact ⟨t', List.mem_iff_getElem?.mpr ⟨i, by simp [hlt]⟩, hnext howes⟩
  · exact ⟨x, List.mem_iff_getElem?.mpr ⟨j, by rw [List.getElem?_set_ne hij]; exact hj⟩, howes⟩

/-- **A call** that meets the condition keeps the waiting items shown or owed. -/
theorem gated_advance (hg : ShownOrOwed pool) {i : Nat} {env : SignalEnv} {t : GateThread} {a : GateAction}
    {k : Except String a.Resp → GateM Unit} {answer : Except String a.Resp} {world : SignalWorld}
    (ht : pool.threads[i]? = some t) (hp : t.prog = .call a k) (hcall : GateCall senc env pool.world a)
    (h : pool.world.performGate enc senc env i a = some (answer, world)) :
    ShownOrOwed
      { world
        threads := pool.threads.set i { t with prog := k answer }
        log := pool.log ++ [⟨i, t.caller, pool.world, a, answer⟩] } := by
  have htm : t ∈ pool.threads := List.mem_iff_getElem?.mpr ⟨i, ht⟩
  have hlt := (List.getElem?_eq_some_iff.mp ht).1
  have hthreads : ParksOnce { t with prog := k answer } →
      ∀ x ∈ pool.threads.set i { t with prog := k answer }, ParksOnce x := by
    intro hnew x hx
    rcases List.mem_or_eq_of_mem_set hx with hx | rfl
    · exact hg.threads x hx
    · exact hnew
  -- what was shown or owed before the call still is, or has just been announced
  have hkept : ∀ id, pool.world.store.IsParked id → world.Shown id ∨
      ∃ x ∈ pool.threads.set i { t with prog := k answer }, GateM.Owes id x.prog := by
    intro id hparked
    rcases hg.parked id hparked with hshown | howed
    · exact .inl (shown_perform hcall h hparked hshown)
    by_cases hannounce : ∃ goalId actor, a = .announce goalId id actor
    · obtain ⟨goalId, actor, rfl⟩ := hannounce
      obtain ⟨hunmatched, hok⟩ := hcall hparked
      rcases commit_eq (Option.some.inj h) with ⟨e, htx, -, -⟩ | ⟨r, htx, -⟩
      · rw [htx] at hok
        cases hok
      · exact .inl (shown_announce hunmatched htx)
    · refine .inr (owed_set ht howed fun howes => ?_)
      rw [hp] at howes
      exact (owes_call howes).resolve_left hannounce answer
  rcases hg.threads t htm with hplain | ⟨goalId, actor, now, hcaller, hrecover⟩
  · rw [hp] at hplain
    obtain ⟨hw, hparked⟩ := plain_perform hplain.1 hg.wellFormed h
    exact ⟨hw, hthreads (.inl (hplain.2 _)), fun id hid => hkept id (hparked id hid)⟩
  · obtain ⟨k', hprog, hok, herr⟩ := recoverGoalState_call goalId actor now
    rw [hrecover, hprog] at hp
    cases hp
    have hrecovery : t.caller.isRecovery = true := by
      rw [hcaller]
      rfl
    rcases recover_perform h with ⟨⟨e, rfl⟩, rfl⟩ | ⟨store, hstore, rfl, rfl⟩
    · refine ⟨hg.wellFormed, hthreads (.inl ?_), fun id hid => hkept id hid⟩
      change (k' (.error e)).Uses (GateAction.IsPlain t.caller.isRecovery)
      rw [herr]
      trivial
    · have happly : pool.world.store.apply enc (.recoverGoalState goalId actor now) = .ok store := hstore
      refine ⟨wellFormed_apply hg.wellFormed happly, hthreads (.inl ?_), fun id hid => ?_⟩
      · change (k' (.ok _)).Uses (GateAction.IsPlain t.caller.isRecovery)
        rw [hok, hrecovery]
        exact uses_announceAll ..
      · rcases isParked_recover enc hg.wellFormed hstore hid with hparked | hnew
        · exact hkept id hparked
        · refine .inr ⟨_, List.mem_iff_getElem?.mpr ⟨i, List.getElem?_set_self hlt⟩, ?_⟩
          change GateM.Owes id (k' (.ok _))
          rw [hok]
          exact owes_announceAll hnew

/-- **One step** that meets the condition keeps the waiting items shown or owed. -/
theorem shownOrOwed_step (hg : ShownOrOwed pool) (label : SignalStep) (hstep : GateStep senc pool label) :
    ShownOrOwed (Interleave.step (gateSystem enc senc) pool label) := by
  -- an operation that stops owes nothing but what is shown
  have hstopped : ∀ threads : List GateThread, (∀ t ∈ threads, ParksOnce t) →
      (∀ t ∈ pool.threads, t ∈ threads ∨ MayStop pool.world t) → ShownOrOwed { pool with threads } := by
    intro threads hparks howed
    refine ⟨hg.wellFormed, hparks, fun id hid => ?_⟩
    rcases hg.parked id hid with hshown | ⟨t, ht, howes⟩
    · exact .inl hshown
    · rcases howed t ht with hmem | hstop
      · exact .inr ⟨t, hmem, howes⟩
      · exact .inl (hstop id howes hid)
  cases label with
  | start op =>
    refine hstopped _ (fun t ht => ?_) fun t ht => .inl (List.mem_append_left _ ht)
    rcases List.mem_append.mp ht with ht | ht
    · exact hg.threads t ht
    · cases List.mem_singleton.mp ht
      rcases @uses_gated senc op with hplain | ⟨goalId, actor, now, hop, hprog⟩
      · exact .inl (hplain.imp fun a ha => ha.mono)
      · exact .inr ⟨goalId, actor, now, hop, hprog⟩
  | advance i env =>
    rcases step_advance_cases (gateSystem enc senc) pool i env with hsame | ⟨t, a, k, answer, world, ht, hp, h⟩
    · rw [hsame]
      exact hg
    · rw [step_advance (gateSystem enc senc) ht hp h]
      exact gated_advance hg ht hp (hstep t ht a k hp) h
  | drop i =>
    refine hstopped _ (fun t ht => ?_) fun t ht => ?_
    · obtain ⟨j, hj⟩ := List.mem_iff_getElem?.mp ht
      rw [List.getElem?_modify] at hj
      obtain ⟨t', ht', rfl⟩ := Option.map_eq_some_iff.mp hj
      split_ifs
      · exact .stopped t'
      · exact hg.threads t' (List.mem_iff_getElem?.mpr ⟨j, ht'⟩)
    · obtain ⟨j, hj⟩ := List.mem_iff_getElem?.mp ht
      by_cases hij : i = j
      · subst hij
        exact .inr (hstep t hj)
      · refine .inl (List.mem_iff_getElem?.mpr ⟨j, ?_⟩)
        rw [List.getElem?_modify, hj]
        exact congrArg some (if_neg hij)
  | restart x =>
    refine hstopped _ (fun t ht => ?_) fun t ht => .inr (hstep t ht)
    obtain ⟨t', -, rfl⟩ := List.mem_map.mp ht
    exact .stopped t'

theorem shownOrOwed_initial : ShownOrOwed (.initial .empty : GatePool) where
  wellFormed := wellFormed_empty
  threads t ht := by cases ht
  parked id h := by
    obtain ⟨w, hw, -⟩ := h
    cases hw

/-- **Parked gates stay visible**: in a run along `GateStep`, whenever no recovery is under way, every item that
waits for a verdict has a signal that is observed or triaged. -/
theorem parked_gates_visible (enc : Encoding) (senc : SignalEncoding) (steps : List SignalStep)
    (hsteps : Machine.Along (Interleave.step (gateSystem enc senc)) (GateStep senc) (.initial .empty) steps) :
    ∀ l r, steps = l ++ r → NoRecovery (Machine.run (Interleave.step (gateSystem enc senc)) (.initial .empty) l) →
      ∀ workItemId,
        (Machine.run (Interleave.step (gateSystem enc senc)) (.initial .empty) l).world.store.IsParked workItemId →
        (Machine.run (Interleave.step (gateSystem enc senc)) (.initial .empty) l).world.Shown workItemId := by
  rintro l r rfl hrest workItemId hparked
  have hl := (Machine.along_append.mp hsteps).1
  have hrun := Machine.run_invariant (I := ShownOrOwed) (fun _ label hstep hg => shownOrOwed_step hg label hstep) hl
    shownOrOwed_initial
  exact hrun.shown hrest hparked

end Runs

/-! ## An item that is parked again -/

namespace GateSample

/-- The digests and tokens of the one announcement. -/
def encoding : SignalEncoding where
  fingerprint _ := "sha256:c800b63390723da4e7415e30d75b51e497bbd148a5c8a0dc8f431beb24959c43"
  contentHash _ := "sha256:ea085175fedf2ab9d76fabdcc408473cdc1e3c2b46aafd236eb0a35747a55107"
  normalizedHash _ _ := "sha256:00cfc183a8f5dcff8634c8ae6541536cd3eb982e77212721e46f3fdd0672b2de"
  metadataLen _ := 41
  tokens _ :=
    ["an", "awaiting", "before", "confirmation", "crash", "effect", "external", "first", "goal", "have", "item",
      "landed", "may", "not", "or", "parked", "the", "work"]

/-- One operation after the other, each with the number of its calls. -/
def complete (first : Nat) : List (SignalOperation × Nat × SignalEnv) → List SignalStep
  | [] => []
  | (op, calls, env) :: rest => .start op :: List.replicate calls (.advance first env) ++ complete (first + 1) rest

def transaction (t : Txn) : SignalOperation × Nat × SignalEnv := (.store t, 1, {})

def claim (n : UInt8) (leaseToken attemptId : String) (leaseUntil : Int) : WorkClaim where
  workItem := ⟨"first", "goal", .running, "send", "channel_send", .externalWrite, .object .nil, 2, 0, [], none⟩
  attempt := ⟨attemptId, "goal", "first", n, .running, "w1", leaseToken, n.toNat, leaseUntil - 300, none⟩
  leaseUntilUnix := leaseUntil
  budget := ⟨1, 60, 1024⟩

/-- A worker claims the step at `now` and prepares its effect; its lease runs out. -/
def crashes (n : UInt8) (leaseToken attemptId : String) (now : Int) : List (SignalOperation × Nat × SignalEnv) :=
  [transaction (.claimWork "goal" none "w1" 300 "runtime:w1" leaseToken attemptId now),
    transaction (.prepareCheckpoint (claim n leaseToken attemptId (now + 300)) ("first:" ++ attemptId) false
      "runtime:w1" ("checkpoint " ++ attemptId) now),
    (.store (.recoverGoalState "goal" "janitor" (now + 301)), 3, ⟨now + 301, "signal " ++ attemptId⟩)]

def parked : List SignalStep :=
  complete 0 ((Sample.admission Sample.outbound).map transaction ++ crashes 1 "lease1" "attempt1" 0)

/-- The operator authorizes a retry, and the second attempt ends as the first one. -/
def parkedAgain : List SignalStep :=
  complete 0 ((Sample.admission Sample.outbound).map transaction ++ crashes 1 "lease1" "attempt1" 0 ++
    [(.store (.resolveWaitingConfirmation "goal" "first" .retry "not delivered" "operator" 302), 5, ⟨302, ""⟩)] ++
      crashes 2 "lease2" "attempt2" 310)

def after (steps : List SignalStep) : GatePool :=
  Machine.run (Interleave.step (gateSystem Sample.encoding encoding)) (.initial .empty) steps

end GateSample

section Decidable

variable (senc : SignalEncoding) (env : SignalEnv) (s : SignalWorld)

instance (id : String) : Decidable (s.store.IsParked id) := inferInstanceAs (Decidable (∃ w ∈ s.store.workItems, _))

instance (id : String) : Decidable (s.Shown id) := inferInstanceAs (Decidable (∃ row ∈ s.signals, _))

instance (request : CreateSignalRequest) : Decidable (s.Unmatched senc request) :=
  decidable_of_iff (_ ∧ _) ⟨fun h => ⟨h.1, h.2⟩, fun h => ⟨h.own, h.others⟩⟩

instance : (a : GateAction) → Decidable (GateCall senc env s a)
  | .signal a => inferInstanceAs (Decidable (∀ e ∈ a.event?, _))
  | .announce .. => inferInstanceAs (Decidable (_ → _))
  | .recover .. | .pendingSignal _ => isTrue trivial

/-- A call that meets the condition; nothing is stopped. -/
def isGateStep (pool : GatePool) : SignalStep → Bool
  | .start _ => true
  | .advance i env =>
    match pool.threads[i]? with
    | none => true
    | some t =>
      match t.prog with
      | .ret _ => true
      | .call a _ => decide (GateCall senc env pool.world a)
  | .drop _ | .restart _ => false

theorem gateStep_of_isGateStep {pool : GatePool} {label : SignalStep} (h : isGateStep senc pool label = true) :
    GateStep senc pool label := by
  cases label with
  | start op => trivial
  | advance i env =>
    intro t ht a k hp
    unfold isGateStep at h
    simp only [ht, hp, decide_eq_true_eq] at h
    exact h
  | drop | restart => cases h

end Decidable

/-- An item that is parked for the first time is shown. -/
theorem parked_gates_visible_parked : (GateSample.after GateSample.parked).world.Shown "first" := by
  have hsteps : Machine.Along (Interleave.step (gateSystem Sample.encoding GateSample.encoding))
      (fun pool label => isGateStep GateSample.encoding pool label = true) (.initial .empty) GateSample.parked := by
    decide +kernel
  exact parked_gates_visible Sample.encoding GateSample.encoding GateSample.parked
    (hsteps.imp fun _ _ h => gateStep_of_isGateStep _ h) GateSample.parked [] (List.append_nil _).symm
    (by unfold NoRecovery; decide +kernel) "first" (by decide +kernel)

/-- An item that is parked, retried by the operator and parked again waits without an open signal. -/
theorem parked_gates_hidden :
    NoRecovery (GateSample.after GateSample.parkedAgain) ∧
      (GateSample.after GateSample.parkedAgain).world.store.IsParked "first" ∧
      ¬ (GateSample.after GateSample.parkedAgain).world.Shown "first" := by
  refine ⟨?_, by decide +kernel, by decide +kernel⟩
  unfold NoRecovery
  decide +kernel

end Xiaomaolv
