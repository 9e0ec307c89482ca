import Xiaomaolv.Evolution.Promotion

/-!
# The policy in memory

An activation and a rollback commit their transaction first and swap the policy in memory after it, and two
callers may swap in the other order.

* `activePolicy_activated`, `activePolicy_rolledBack`, `activePolicy_perform`: the policy of the store.
* `Unswapped`: a program up to its swap; **`unswapped_program`**: the engine's are.
* **`policy_cache_agrees`**: with the swaps in order, memory and store agree whenever no such call is in flight;
  `policy_cache_overtaken`: a late swap takes the place of a rollback.
-/

namespace Xiaomaolv

open Interleave Table EvolutionStore

variable {R : Type}

/-! ## The policy of the store -/

section

variable {s s' : EvolutionStore R}

theorem activePolicy_activated [Host R] (hs : Stacked s) {candidateId actor reason id : String} {now : Int}
    {d : EvolutionDeploymentRecord} (h : s.activateCandidate candidateId actor reason id now = .ok (d, s'))
    {patch : PromptPatch} (hpatch : ∃ c ∈ s.candidates, c.id = candidateId ∧ c.promptPatch = patch.text) :
    s'.activePolicy = .ok (some ⟨d.id, candidateId, patch⟩) := by
  have happly : s.apply (.activateCandidate candidateId actor reason id now) = .ok s' :=
    fmap_eq_ok.mpr ⟨_, h, rfl⟩
  have hs' := stacked_apply hs happly
  obtain ⟨hd, -, -, -, event, rfl⟩ := activateCandidate_ok h
  obtain ⟨c, hc, hcid, hp⟩ := hpatch
  have hmem : d ∈ s.deployments ++ [d] := List.mem_append_right _ (List.mem_singleton_self d)
  obtain ⟨p, ⟨c', hc', hcid', hp'⟩, hpolicy⟩ := hs'.policy? hmem (by rw [hd])
  have hcand : d.candidateId = candidateId := by rw [hd]
  have hcc : c = c' := eq_of_key_eq hs.candidateIds hc hc' (hcid.trans (hcand.symm.trans hcid'.symm))
  have hpp : p = patch := PromptPatch.ext (hp'.symm.trans (hcc ▸ hp))
  rw [hcand, hpp] at hpolicy
  have hid : d.id = id := by rw [hd]
  rw [← hpolicy, hid]
  rfl

theorem activePolicy_rolledBack [Host R] (hs : Stacked s) {actor reason : String} {now : Int}
    {result : EvolutionRollbackResult} (h : s.rollbackActive actor reason now = .ok (result, s')) :
    s'.activePolicy = .ok result.restoredPolicy := by
  have happly : s.apply (.rollbackActive actor reason now) = .ok s' := fmap_eq_ok.mpr ⟨_, h, rfl⟩
  have hs' := stacked_apply hs happly
  obtain ⟨d, event, hd, -, -, -, hrestored, hs₁⟩ := rollbackActive_ok h
  have hactive : s'.activeDeploymentId = d.previousDeploymentId := by rw [hs₁]
  have hlive' : s'.Live d.previousDeploymentId := hactive ▸ hs'.live
  rw [hs'.activePolicy, hactive, (frozen_apply happly).restoredPolicy hs hs' (hs.live_previous hd) hlive']
  exact hrestored

theorem activePolicy_exec [Host R] (hs : Stacked s) {t : EvolutionTxn R} (ht : t.isDeploying = false) :
    (s.exec t).activePolicy = s.activePolicy := by
  have hs' := stacked_exec s t hs
  have hactive : (s.exec t).activeDeploymentId = s.activeDeploymentId :=
    exec_keeps (P := fun s' => s'.activeDeploymentId = s.activeDeploymentId) rfl
      fun _ h => (deployments_apply h ht).2
  have hlive' : (s.exec t).Live s.activeDeploymentId := hactive ▸ hs'.live
  rw [hs'.activePolicy, hactive, (frozen_exec s t).restoredPolicy hs hs' hs.live hlive', hs.activePolicy]

end

/-! ## Programs up to their swap -/

/-- The calls that neither deploy nor write the policy in memory. -/
def Calm : EvolutionAction R → Prop
  | .activateCandidate .. | .rollbackActive .. | .replacePolicy _ => False
  | _ => True

/-- The swap to `policy` comes next, and nothing of the kind after it. -/
def Swaps {α : Type} (policy : Option ActiveEvolutionPolicy) (p : EngineM R α) : Prop :=
  ∃ k, p = .call (.replacePolicy policy) k ∧ ∀ r, (k r).Uses Calm

/-- The program has not deployed yet; when it does, its swap follows at once, to the policy that the store
then has. -/
inductive Unswapped {α : Type} : EvolutionStore R → EngineM R α → Prop
  | ret {s : EvolutionStore R} (r : Except String α) : Unswapped s (.ret r)
  | call {s : EvolutionStore R} {a : EvolutionAction R} {k : Except String a.Resp → EngineM R α} (ha : Calm a)
      (h : ∀ s' r, Frozen s s' → (∀ v, r = .ok v → Ensures s' a v) → Unswapped s' (k r)) :
      Unswapped s (.call a k)
  | activate {s : EvolutionStore R} {candidateId actor reason : String} {patch : PromptPatch}
      {k : Except String EvolutionDeploymentRecord → EngineM R α}
      (hpatch : ∃ c ∈ s.candidates, c.id = candidateId ∧ c.promptPatch = patch.text)
      (herr : ∀ e, (k (.error e)).Uses Calm) (hok : ∀ d, Swaps (some ⟨d.id, candidateId, patch⟩) (k (.ok d))) :
      Unswapped s (.call (.activateCandidate candidateId actor reason) k)
  | rollback {s : EvolutionStore R} {actor reason : String}
      {k : Except String EvolutionRollbackResult → EngineM R α} (herr : ∀ e, (k (.error e)).Uses Calm)
      (hok : ∀ result, Swaps result.restoredPolicy (k (.ok result))) :
      Unswapped s (.call (.rollbackActive actor reason) k)

section Programs

variable {s s' : EvolutionStore R} {α β : Type}

theorem unswapped_of_calm {p : EngineM R α} (h : p.Uses Calm) : Unswapped s p := by
  induction p generalizing s with
  | ret r => exact .ret r
  | call a k ih => exact .call h.1 fun s' r _ _ => ih r (h.2 r)

theorem Unswapped.mono {p : EngineM R α} (h : Unswapped s p) (hf : Frozen s s') : Unswapped s' p := by
  cases h with
  | ret r => exact .ret r
  | call ha h => exact .call ha fun s'' r hf' hr => h s'' r (hf.trans hf') hr
  | activate hpatch herr hok =>
    obtain ⟨c, hc, hcid, hp⟩ := hpatch
    obtain ⟨c', hc', hcid', hp'⟩ := hf.candidate hc
    exact .activate ⟨c', hc', hcid'.trans hcid, hp'.trans hp⟩ herr hok
  | rollback herr hok => exact .rollback herr hok

theorem Unswapped.discard {p : EngineM R α} (h : Unswapped s p) :
    Unswapped s (do let _ ← p : EngineM R Unit) := by
  have hcalm : ∀ {q : EngineM R α}, q.Uses Calm → (do let _ ← q : EngineM R Unit).Uses Calm := fun hq =>
    .bind hq fun _ => Prog.uses_pure ()
  have hswaps : ∀ {q : EngineM R α} {policy}, Swaps policy q → Swaps policy (do let _ ← q : EngineM R Unit) := by
    rintro q policy ⟨k, rfl, hk⟩
    exact ⟨_, rfl, fun r => hcalm (hk r)⟩
  induction h with
  | ret r =>
    cases r with
    | ok a => exact .ret _
    | error e => exact .ret _
  | call ha h ih => exact .call ha fun s' r hf hr => ih s' r hf hr
  | activate hpatch herr hok => exact .activate hpatch (fun e => hcalm (herr e)) fun d => hswaps (hok d)
  | rollback herr hok => exact .rollback (fun e => hcalm (herr e)) fun result => hswaps (hok result)

theorem unswapped_lift_bind {x : Except String α} {f : α → EngineM R β}
    (hf : ∀ a, x = .ok a → Unswapped s (f a)) : Unswapped s ((liftM x : EngineM R α) >>= f) := by
  cases x with
  | ok a => exact hf a rfl
  | error e => exact .ret _

theorem unswapped_call_bind {a : EvolutionAction R} {f : a.Resp → EngineM R β} (ha : Calm a)
    (hf : ∀ s' v, Frozen s s' → Ensures s' a v → Unswapped s' (f v)) :
    Unswapped s ((Prog.perform a : EngineM R a.Resp) >>= f) := by
  refine .call ha fun s' r hs hr => ?_
  cases r with
  | ok v => exact hf s' v hs (hr v rfl)
  | error e => exact .ret _

variable {engine : EvolutionEngine R}

theorem unswapped_activateCandidate (candidateId : String) (actor : EvolutionActor) (reason : String) :
    Unswapped s (engine.activateCandidate candidateId actor reason) := by
  refine unswapped_lift_bind fun _ _ => ?_
  refine unswapped_call_bind trivial fun s₁ found _ hfound => ?_
  refine unswapped_lift_bind fun candidate hcandidate => ?_
  obtain ⟨hid, c, hc, hcid, hp⟩ := hfound candidate (context_eq_ok.mp hcandidate)
  refine unswapped_lift_bind fun label _ => ?_
  refine .activate ⟨c, hc, hcid, hp⟩ (fun e => trivial) fun d => ?_
  rw [← hid]
  refine ⟨_, rfl, fun r => ?_⟩
  cases r with
  | ok _ => trivial
  | error e => trivial

theorem unswapped_rollbackActive (actor : EvolutionActor) (reason : String) :
    Unswapped s (engine.rollbackActive actor reason) := by
  refine unswapped_lift_bind fun _ _ => ?_
  refine unswapped_lift_bind fun label _ => ?_
  refine .rollback (fun e => trivial) fun result => ⟨_, rfl, fun r => ?_⟩
  cases r with
  | ok _ => trivial
  | error e => trivial

/-- The calls that the agreement is about. -/
def EvolutionCall.deploys : EvolutionCall R → Bool
  | .activate .. | .rollback .. => true
  | _ => false

theorem calm_of_mayCall {call : EvolutionCall R} (hc : call.deploys = false) {a : EvolutionAction R}
    (ha : call.MayCall a) : Calm a := by
  cases a with
  | activateCandidate candidateId actor reason =>
    cases call with
    | activate => cases hc
    | _ => exact ha
  | rollbackActive actor reason =>
    cases call with
    | rollback => cases hc
    | _ => exact ha
  | replacePolicy policy =>
    cases call with
    | activate | rollback => cases hc
    | _ => exact ha
  | _ => trivial

/-- **Every program of the engine starts unswapped.** -/
theorem unswapped_program [Host R] (call : EvolutionCall R) : Unswapped s (engine.program call) := by
  cases call with
  | activate candidateId actor reason => exact (unswapped_activateCandidate candidateId actor reason).discard
  | rollback actor reason => exact (unswapped_rollbackActive actor reason).discard
  | _ => exact unswapped_of_calm ((uses_program engine _).imp fun _ => calm_of_mayCall rfl)

end Programs

/-! ## Swaps in order -/

/-- A committed activation or rollback. -/
def isDeployed : EvolutionEntry R → Bool
  | ⟨_, _, _, .activateCandidate .., .ok _⟩ => true
  | ⟨_, _, _, .rollbackActive .., .ok _⟩ => true
  | _ => false

/-- The caller whose deployment committed last. -/
def lastDeployer? (log : List (EvolutionEntry R)) : Option Nat := (log.filter isDeployed).getLast?.map (·.thread)

/-- The next call swaps the policy in memory. -/
def swapDue (t : Thread (EvolutionCall R) (EvolutionAction R) EvolutionAction.Resp) : Bool :=
  match t.prog with
  | .call (.replacePolicy _) _ => true
  | _ => false

/-- The caller that deployed last still has its swap to do. -/
def lastDue (pool : EvolutionPool R) : Bool :=
  (lastDeployer? pool.log).any fun i => pool.threads[i]?.any swapDue

/-- No swap comes after that of a later deployment, and the swap of the last deployment is not dropped. -/
def swapsInOrder (pool : EvolutionPool R) : EvolutionStep R → Bool
  | .advance i _ => pool.threads[i]?.all fun t => !swapDue t || lastDue pool
  | .drop i => pool.threads[i]?.all fun t => !swapDue t || lastDeployer? pool.log ≠ some i
  | _ => true

/-- The call has returned, or was dropped. -/
def isFinished (t : Thread (EvolutionCall R) (EvolutionAction R) EvolutionAction.Resp) : Bool :=
  match t.prog with
  | .ret _ => true
  | _ => false

/-- No activation and no rollback is in flight. -/
def Settled (pool : EvolutionPool R) : Prop :=
  ∀ t ∈ pool.threads, t.caller.deploys = true → isFinished t = true

instance (pool : EvolutionPool R) : Decidable (Settled pool) :=
  inferInstanceAs (Decidable (∀ t ∈ pool.threads, t.caller.deploys = true → isFinished t = true))

/-- Memory and store agree, or the caller that deployed last will see to it. -/
structure Coherent (pool : EvolutionPool R) : Prop where
  stacked : Stacked pool.world.store
  threads : ∀ (i : Nat) t, pool.threads[i]? = some t →
    Unswapped pool.world.store t.prog ∨ ∃ policy, Swaps policy t.prog
  calm : ∀ (i : Nat) t, pool.threads[i]? = some t → t.caller.deploys = false → t.prog.Uses Calm
  due : ∀ i t policy, lastDeployer? pool.log = some i → pool.threads[i]? = some t → Swaps policy t.prog →
    pool.world.store.activePolicy = .ok policy
  cache : pool.world.store.activePolicy = .ok pool.world.policyRuntime ∨ lastDue pool = true

section Pools

variable {pool : EvolutionPool R} {t : Thread (EvolutionCall R) (EvolutionAction R) EvolutionAction.Resp}

theorem swapDue_of_swaps {policy : Option ActiveEvolutionPolicy} (h : Swaps policy t.prog) : swapDue t = true := by
  obtain ⟨k, hp, -⟩ := h
  rw [swapDue, hp]

theorem not_swaps_of_unswapped {s : EvolutionStore R} {α : Type} {p : EngineM R α} (h : Unswapped s p)
    {policy : Option ActiveEvolutionPolicy} : ¬ Swaps policy p := by
  rintro ⟨k, rfl, -⟩
  cases h with
  | call ha _ => exact ha

theorem swaps_of_swapDue (h : swapDue t = true) {s : EvolutionStore R}
    (ht : Unswapped s t.prog ∨ ∃ policy, Swaps policy t.prog) : ∃ policy, Swaps policy t.prog := by
  rcases ht with ht | ht
  · exfalso
    unfold swapDue at h
    split at h
    · rename_i policy k hp
      rw [hp] at ht
      cases ht with
      | call ha _ => exact ha
    · cases h
  · exact ht

theorem swaps_unique {α : Type} {p : EngineM R α} {policy policy' : Option ActiveEvolutionPolicy}
    (h : Swaps policy p) (h' : Swaps policy' p) : policy = policy' := by
  obtain ⟨k, rfl, -⟩ := h
  obtain ⟨k', hp, -⟩ := h'
  cases hp
  rfl

theorem lastDeployer?_other {log : List (EvolutionEntry R)} {x : EvolutionEntry R} (h : isDeployed x = false) :
    lastDeployer? (log ++ [x]) = lastDeployer? log := by
  simp [lastDeployer?, List.filter_append, h]

theorem lastDeployer?_deployed {log : List (EvolutionEntry R)} {x : EvolutionEntry R} (h : isDeployed x = true) :
    lastDeployer? (log ++ [x]) = some x.thread := by
  simp [lastDeployer?, List.filter_append, h]

theorem lastDue_iff : lastDue pool = true ↔
    ∃ i t, lastDeployer? pool.log = some i ∧ pool.threads[i]? = some t ∧ swapDue t = true := by
  simp [lastDue, Option.any_eq_true]

/-- **What settles is agreed.** -/
theorem Coherent.agrees (h : Coherent pool) (hsettled : Settled pool) :
    pool.world.store.activePolicy = .ok pool.world.policyRuntime := by
  rcases h.cache with hcache | hdue
  · exact hcache
  · obtain ⟨i, t, -, ht, hswap⟩ := lastDue_iff.mp hdue
    obtain ⟨policy, k, hp, -⟩ := swaps_of_swapDue hswap (h.threads i t ht)
    cases hdeploys : t.caller.deploys with
    | false =>
      have hcalm := h.calm i t ht hdeploys
      rw [hp] at hcalm
      exact hcalm.1.elim
    | true =>
      have hfinished := hsettled t (List.mem_of_getElem? ht) hdeploys
      simp [isFinished, hp] at hfinished

section

variable {world : EvolutionWorld R} {i : Nat} {prog : EngineM R Unit} {x : EvolutionEntry R}

theorem Coherent.threads_set (h : Coherent pool) (hfrozen : Frozen pool.world.store world.store)
    (hprog : Unswapped world.store prog ∨ ∃ policy, Swaps policy prog) (j : Nat)
    (t' : Thread (EvolutionCall R) (EvolutionAction R) EvolutionAction.Resp)
    (ht' : (pool.threads.set i { t with prog })[j]? = some t') :
    Unswapped world.store t'.prog ∨ ∃ policy, Swaps policy t'.prog := by
  rw [List.getElem?_set] at ht'
  split_ifs at ht' with hij hlt
  · cases Option.some.inj ht'
    exact hprog
  · exact (h.threads j t' ht').imp (fun hu => hu.mono hfrozen) id

theorem Coherent.calm_set (h : Coherent pool) (hcalm : t.caller.deploys = false → prog.Uses Calm) (j : Nat)
    (t' : Thread (EvolutionCall R) (EvolutionAction R) EvolutionAction.Resp)
    (ht' : (pool.threads.set i { t with prog })[j]? = some t') (hdeploys : t'.caller.deploys = false) :
    t'.prog.Uses Calm := by
  rw [List.getElem?_set] at ht'
  split_ifs at ht' with hij hlt
  · cases Option.some.inj ht'
    exact hcalm hdeploys
  · exact h.calm j t' ht' hdeploys

theorem Coherent.other (h : Coherent pool) (hstacked : Stacked world.store)
    (hfrozen : Frozen pool.world.store world.store)
    (hactive : world.store.activePolicy = pool.world.store.activePolicy) (hx : isDeployed x = false)
    (hprog : Unswapped world.store prog) (hcalm : t.caller.deploys = false → prog.Uses Calm)
    (hcache : world.store.activePolicy = .ok world.policyRuntime ∨
      ∃ j t', lastDeployer? pool.log = some j ∧ j ≠ i ∧ pool.threads[j]? = some t' ∧ swapDue t' = true) :
    Coherent ⟨world, pool.threads.set i { t with prog }, pool.log ++ [x]⟩ where
  stacked := hstacked
  threads := h.threads_set hfrozen (.inl hprog)
  calm := h.calm_set hcalm
  due j t' policy hlast ht' hswaps := by
    rw [lastDeployer?_other hx] at hlast
    rw [List.getElem?_set] at ht'
    split_ifs at ht' with hij hlt
    · cases Option.some.inj ht'
      exact absurd hswaps (not_swaps_of_unswapped hprog)
    · rw [hactive]
      exact h.due j t' policy hlast ht' hswaps
  cache := by
    refine hcache.imp id ?_
    rintro ⟨j, t', hlast, hne, ht', hdue⟩
    refine lastDue_iff.mpr ⟨j, t', ?_, ?_, hdue⟩
    · rw [lastDeployer?_other hx]
      exact hlast
    · rw [List.getElem?_set_ne (Ne.symm hne)]
      exact ht'

theorem Coherent.deployed (h : Coherent pool) (ht : pool.threads[i]? = some t) (hstacked : Stacked world.store)
    (hfrozen : Frozen pool.world.store world.store) (hx : isDeployed x = true) (hthread : x.thread = i)
    {policy : Option ActiveEvolutionPolicy} (hactive : world.store.activePolicy = .ok policy)
    (hswaps : Swaps policy prog) (hcalm : t.caller.deploys = false → prog.Uses Calm) :
    Coherent ⟨world, pool.threads.set i { t with prog }, pool.log ++ [x]⟩ := by
  have hlt : i < pool.threads.length := (List.getElem?_eq_some_iff.mp ht).1
  have hnow : (pool.threads.set i { t with prog })[i]? = some { t with prog } := by
    rw [List.getElem?_set_self hlt]
  refine ⟨hstacked, h.threads_set hfrozen (.inr ⟨policy, hswaps⟩), h.calm_set hcalm, ?_, .inr ?_⟩
  · intro j t' policy' hlast ht' hswaps'
    rw [lastDeployer?_deployed hx, hthread] at hlast
    cases hlast
    cases hnow.symm.trans ht'
    rw [hactive, swaps_unique hswaps hswaps']
  · refine lastDue_iff.mpr ⟨i, { t with prog }, ?_, hnow, swapDue_of_swaps hswaps⟩
    rw [lastDeployer?_deployed hx, hthread]

end

end Pools

/-! ## The steps -/

section Steps

variable [Host R] {engine : EvolutionEngine R} {pool : EvolutionPool R} {env : EvolutionEnv} {i : Nat}
  {w w' : EvolutionWorld R} {a : EvolutionAction R} {answer : Except String a.Resp}

theorem activePolicy_perform (hs : Stacked w.store) (ha : Calm a) (h : w.perform env i a = some (answer, w')) :
    w'.store.activePolicy = w.store.activePolicy ∧ w'.policyRuntime = w.policyRuntime := by
  constructor
  · rw [perform_store h]
    cases ht : a.txn env with
    | none => rfl
    | some t =>
      refine activePolicy_exec hs ?_
      cases a <;> cases ht <;> first | rfl | exact ha.elim
  · rcases policyRuntime_perform h with hsame | ⟨policy, rfl, -⟩
    · exact hsame
    · exact ha.elim

omit [Host R] in
theorem isDeployed_of_calm {c : EvolutionCall R} (ha : Calm a) : isDeployed ⟨i, c, w, a, answer⟩ = false := by
  cases a <;> first | rfl | exact ha.elim

omit [Host R] in
theorem commitWith_eq {α : Type} {tx : Except String (α × EvolutionStore R)} {answer : Except String α}
    (h : w.commitWith tx = (answer, w')) :
    (∃ e, answer = .error e ∧ w' = w) ∨ ∃ v store, tx = .ok (v, store) ∧ answer = .ok v ∧ w' = { w with store } := by
  unfold EvolutionWorld.commitWith at h
  cases tx with
  | error e =>
    cases h
    exact .inl ⟨e, rfl, rfl⟩
  | ok r =>
    cases h
    exact .inr ⟨r.1, r.2, rfl, rfl, rfl⟩

/-- **A call keeps the agreement** if its swap, when it is one, is in order. -/
theorem coherent_advance (h : Coherent pool) (horder : swapsInOrder pool (.advance i env) = true) :
    Coherent (step engine.system pool (.advance i env)) := by
  rcases step_advance_cases engine.system pool i env with hsame | ⟨t, a, k, answer, world, ht, hp, hanswer⟩
  · rw [hsame]
    exact h
  rw [step_advance engine.system ht hp hanswer]
  have hperform : pool.world.perform env i a = some (answer, world) := hanswer
  obtain ⟨hstacked, hfrozen⟩ := stacked_perform h.stacked hperform
  have hcalm : t.caller.deploys = false → (k answer).Uses Calm := fun hdeploys => by
    have huses := h.calm i t ht hdeploys
    rw [hp] at huses
    exact huses.2 answer
  rcases h.threads i t ht with hu | ⟨policy, k', hp', hk'⟩
  · -- The thread is not the one whose swap is awaited.
    have hcache : pool.world.store.activePolicy = .ok pool.world.policyRuntime ∨ ∃ j t',
        lastDeployer? pool.log = some j ∧ j ≠ i ∧ pool.threads[j]? = some t' ∧ swapDue t' = true := by
      refine h.cache.imp id fun hdue => ?_
      obtain ⟨j, t', hlast, ht', hswap⟩ := lastDue_iff.mp hdue
      refine ⟨j, t', hlast, ?_, ht', hswap⟩
      rintro rfl
      cases ht.symm.trans ht'
      obtain ⟨policy, hswaps⟩ := swaps_of_swapDue hswap (h.threads j t ht)
      exact not_swaps_of_unswapped hu hswaps
    have hsame : world = pool.world → isDeployed ⟨i, t.caller, pool.world, a, answer⟩ = false →
        (k answer).Uses Calm → Coherent ⟨world, pool.threads.set i { t with prog := k answer },
          pool.log ++ [⟨i, t.caller, pool.world, a, answer⟩]⟩ := by
      rintro rfl hx hk
      exact h.other hstacked hfrozen rfl hx (unswapped_of_calm hk) hcalm hcache
    rw [hp] at hu
    cases hu with
    | call ha hk =>
      obtain ⟨hactive, hruntime⟩ := activePolicy_perform h.stacked ha hperform
      refine h.other hstacked hfrozen hactive (isDeployed_of_calm ha) (hk _ _ hfrozen fun v hv => ?_) hcalm ?_
      · subst hv
        exact ensures_perform h.stacked hperform
      · rw [hactive, hruntime]
        exact hcache
    | activate hpatch herr hok =>
      rcases commitWith_eq (Option.some.inj hperform) with ⟨e, rfl, hw⟩ | ⟨d, store, htx, rfl, rfl⟩
      · exact hsame hw rfl (herr e)
      · exact h.deployed ht hstacked hfrozen rfl rfl (activePolicy_activated h.stacked htx hpatch) (hok d) hcalm
    | rollback herr hok =>
      rcases commitWith_eq (Option.some.inj hperform) with ⟨e, rfl, hw⟩ | ⟨result, store, htx, rfl, rfl⟩
      · exact hsame hw rfl (herr e)
      · exact h.deployed ht hstacked hfrozen rfl rfl (activePolicy_rolledBack h.stacked htx) (hok result) hcalm
  · cases hp.symm.trans hp'
    cases congrArg Prod.snd (Option.some.inj hperform)
    have hdue : lastDue pool = true := by
      have hswap : swapDue t = true := swapDue_of_swaps ⟨k', hp', hk'⟩
      simpa [swapsInOrder, ht, hswap] using horder
    obtain ⟨j, t', hlast, ht', hswap⟩ := lastDue_iff.mp hdue
    refine h.other hstacked hfrozen rfl rfl (unswapped_of_calm (hk' answer)) hcalm ?_
    by_cases hij : j = i
    · -- The last deployer swaps, to the policy of the store.
      subst hij
      cases ht.symm.trans ht'
      exact .inl (h.due j t policy hlast ht ⟨k', hp', hk'⟩)
    · exact .inr ⟨j, t', hlast, hij, ht', hswap⟩

omit [Host R] in
theorem Coherent.rethread (h : Coherent pool) {world : EvolutionWorld R} (hstore : world.store = pool.world.store)
    {threads : List (Thread (EvolutionCall R) (EvolutionAction R) EvolutionAction.Resp)}
    (hget : ∀ (j : Nat) t, threads[j]? = some t → pool.threads[j]? = some t ∨
      (Unswapped pool.world.store t.prog ∧ (t.caller.deploys = false → t.prog.Uses Calm)))
    (hcache : world.store.activePolicy = .ok world.policyRuntime ∨
      lastDue ⟨world, threads, pool.log⟩ = true) : Coherent ⟨world, threads, pool.log⟩ where
  stacked := hstore.symm ▸ h.stacked
  threads j t ht := by
    show Unswapped world.store t.prog ∨ _
    rw [hstore]
    rcases hget j t ht with ht | ⟨hu, -⟩
    · exact h.threads j t ht
    · exact .inl hu
  calm j t ht hdeploys := by
    rcases hget j t ht with ht | ⟨-, hcalm⟩
    · exact h.calm j t ht hdeploys
    · exact hcalm hdeploys
  due j t policy hlast ht hswaps := by
    show world.store.activePolicy = _
    rw [hstore]
    rcases hget j t ht with ht | ⟨hu, -⟩
    · exact h.due j t policy hlast ht hswaps
    · exact absurd hswaps (not_swaps_of_unswapped hu)
  cache := hcache

/-- **Every step keeps the agreement** if the swaps are in order. -/
theorem coherent_step (h : Coherent pool) (label : EvolutionStep R) (horder : swapsInOrder pool label = true) :
    Coherent (step engine.system pool label) := by
  cases label with
  | advance i env => exact coherent_advance h horder
  | start c =>
    refine h.rethread rfl (fun j t ht => ?_) (h.cache.imp id fun hdue => ?_)
    · rw [List.getElem?_append] at ht
      split_ifs at ht with hj
      · exact .inl ht
      · rw [List.getElem?_singleton] at ht
        split_ifs at ht
        cases Option.some.inj ht
        exact .inr ⟨unswapped_program c, fun hdeploys => (uses_program engine c).imp fun _ => calm_of_mayCall hdeploys⟩
    · obtain ⟨j, t, hlast, ht, hswap⟩ := lastDue_iff.mp hdue
      refine lastDue_iff.mpr ⟨j, t, hlast, ?_, hswap⟩
      rw [List.getElem?_append_left (List.getElem?_eq_some_iff.mp ht).1]
      exact ht
  | drop i =>
    have hrelease : (pool.world.release i).store = pool.world.store ∧
        (pool.world.release i).policyRuntime = pool.world.policyRuntime := by
      unfold EvolutionWorld.release
      split_ifs <;> exact ⟨rfl, rfl⟩
    refine h.rethread hrelease.1 (fun j t ht => ?_) ?_
    · rw [List.getElem?_modify] at ht
      obtain ⟨t', ht', rfl⟩ := Option.map_eq_some_iff.mp ht
      split_ifs
      · exact .inr ⟨.ret _, fun _ => trivial⟩
      · exact .inl ht'
    · show (pool.world.release i).store.activePolicy = .ok (pool.world.release i).policyRuntime ∨ _
      rw [hrelease.1, hrelease.2]
      refine h.cache.imp id fun hdue => ?_
      obtain ⟨j, t, hlast, ht, hswap⟩ := lastDue_iff.mp hdue
      -- The last deployer is not the one that is dropped.
      have hne : i ≠ j := by
        rintro rfl
        simp [swapsInOrder, ht, hswap, hlast] at horder
      refine lastDue_iff.mpr ⟨j, t, hlast, ?_, hswap⟩
      show (pool.threads.modify i Thread.stopped)[j]? = some t
      rw [List.getElem?_modify, ht]
      exact congrArg some (if_neg hne)
  | restart suite =>
    simp only [step]
    cases hw : engine.system.restart suite pool.world with
    | none => exact h
    | some world =>
      simp only [EvolutionEngine.system, EvolutionWorld.restart] at hw
      split at hw
      · rename_i policy _ hpolicy _
        cases hw
        have hstore : (⟨pool.world.store, policy, suite, none⟩ : EvolutionWorld R).store = pool.world.store := rfl
        refine h.rethread hstore (fun j t ht => ?_) (.inl hpolicy)
        rw [List.getElem?_map] at ht
        obtain ⟨t', -, rfl⟩ := Option.map_eq_some_iff.mp ht
        exact .inr ⟨.ret _, fun _ => trivial⟩
      · cases hw

omit [Host R] in
theorem coherent_initial : Coherent (.initial .initial : EvolutionPool R) where
  stacked := stacked_empty
  threads i t ht := by simp [Pool.initial] at ht
  calm i t ht := by simp [Pool.initial] at ht
  due i t policy hlast := by simp [Pool.initial, lastDeployer?] at hlast
  cache := .inl rfl

/-- **Memory and store agree in every state of a run in which no activation and no rollback is in flight**, if
every swap comes before that of a later deployment, and a caller that owes its swap is dropped only after a
later deployment. -/
theorem policy_cache_agrees (engine : EvolutionEngine R) (steps : List (EvolutionStep R))
    (h : Machine.Along (step engine.system) (fun pool label => swapsInOrder pool label = true)
      (.initial .initial) steps) (l r : List (EvolutionStep R)) (hsteps : steps = l ++ r)
    (hsettled : Settled (Machine.run (step engine.system) (.initial .initial) l)) :
    (Machine.run (step engine.system) (.initial .initial) l).world.store.activePolicy
      = .ok (Machine.run (step engine.system) (.initial .initial) l).world.policyRuntime := by
  subst hsteps
  have hrun : Coherent (Machine.run (step engine.system) (.initial .initial) l) :=
    Machine.run_invariant (I := Coherent) (fun pool label horder h => coherent_step h label horder)
      (Machine.along_append.mp h).1 coherent_initial
  exact hrun.agrees hsettled

end Steps

open EvolutionSample

/-- A candidate is activated and the activation rolled back. -/
theorem policy_cache_agrees_reviewed :
    (Machine.run (step engine.system) (.initial .initial) reviewed).world.store.activePolicy
      = .ok (Machine.run (step engine.system) (.initial .initial) reviewed).world.policyRuntime :=
  policy_cache_agrees engine reviewed (by decide +kernel) reviewed [] (List.append_nil _).symm (by decide +kernel)

/-- The activation commits, the rollback commits and swaps, then the activation swaps. -/
def EvolutionSample.overtaken : List (EvolutionStep Rat) :=
  whole 0 (.create "be brief" "shorter answers" [] none ana)
    ++ whole 1 (.upsertCase (evalCase "a") ana)
    ++ whole 2 (.evaluationStep "id-0" 1000)
    ++ whole 3 (.approve "id-0" ana "reviewed")
    ++ [.start (.activate "id-0" ana "rollout"), .advance 4 (env 4), .advance 4 (env 4)]
    ++ whole 5 (.rollback ana "regressed")
    ++ [.advance 4 (env 4)]

/-- The policy that was rolled back stays in memory. -/
theorem policy_cache_overtaken :
    Settled (Machine.run (step engine.system) (.initial .initial) overtaken) ∧
      (Machine.run (step engine.system) (.initial .initial) overtaken).world.store.activePolicy = .ok none ∧
      (Machine.run (step engine.system) (.initial .initial) overtaken).world.policyRuntime ≠ none := by
  decide +kernel

end Xiaomaolv
