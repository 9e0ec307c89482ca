import Mathlib.Order.Bounds.Defs
import Xiaomaolv.Lib.FixedWidth
import Xiaomaolv.Loop.Text
import Xiaomaolv.Telegram.SchedulerPolicy

/-!
# What the plans of a job compute

* `Calendar.Enumerates`: the library yields the occurrences of an expression after a moment, in order.
* **`cron_next_run_iff`**: the next run is the next occurrence, and the completions of a job skip none, if and only
  if none falls into the second behind the clock.
* `planFailureI64`: the plan of a failed run with the arithmetic of the source; `planFailureI64_eq` connects it to
  `planFailureTransition`.
* **`retry_plan_iff`**: the plan is within its bounds and after the clock if and only if the sum is an `i64`.
-/

namespace Xiaomaolv

/-! ## The next occurrence -/

/-- The first time of an iterator is the first occurrence after its start. -/
structure Calendar.Enumerates (calendar : Calendar) (occurs : String → String → Int → Prop) : Prop where
  next : ∀ {expr timezone start next}, calendar.after expr timezone start = some next →
    IsLeast {t | start < t ∧ occurs expr timezone t} next
  none : ∀ {expr timezone start}, calendar.after expr timezone start = none → ∀ t, start < t → ¬ occurs expr timezone t

/-- The least occurrence after the clock, if there is one. -/
def NextOccurrence (occurs : Int → Prop) (now : Int) : Option Int → Prop
  | some next => IsLeast {t | now < t ∧ occurs t} next
  | none => ∀ t, now < t → ¬ occurs t

section Cron

variable {calendar : Calendar} {occurs : String → String → Int → Prop}

theorem Calendar.Enumerates.after (h : calendar.Enumerates occurs) (expr timezone : String) (start : Int) :
    NextOccurrence (occurs expr timezone) start (calendar.after expr timezone start) := by
  cases hafter : calendar.after expr timezone start with
  | some next => exact h.next hafter
  | none => exact h.none hafter

theorem nextOccurrence_succ_iff {occurs : Int → Prop} {now : Int} {next : Option Int}
    (h : NextOccurrence occurs (now + 1) next) : NextOccurrence occurs now next ↔ ¬ occurs (now + 1) := by
  cases next with
  | some next =>
    obtain ⟨⟨hafter, hoccurs⟩, hleast⟩ := h
    constructor
    · intro hnext hsecond
      have hle : next ≤ now + 1 := hnext.2 ⟨by omega, hsecond⟩
      omega
    · refine fun hnone => ⟨⟨by omega, hoccurs⟩, fun t ht => hleast ⟨?_, ht.2⟩⟩
      obtain ⟨hlt, ht⟩ := ht
      by_contra hle
      obtain rfl : t = now + 1 := by omega
      exact hnone ht
  | none =>
    refine ⟨fun hnext => hnext (now + 1) (by omega), fun hnone t ht hoccurs => ?_⟩
    by_cases hlt : now + 1 < t
    · exact h t hlt hoccurs
    · obtain rfl : t = now + 1 := by omega
      exact hnone hoccurs

theorem computeNextRun_cron {expr timezone : String} {now : Int} {next : Option Int}
    (h : computeNextRunAtUnix calendar (.cron expr) now timezone = .ok next) :
    next = calendar.after (normalizeCronExpr expr) timezone (now + 1) := by
  unfold computeNextRunAtUnix at h
  obtain ⟨_, -, h⟩ := bind_eq_ok.mp h
  obtain ⟨_, -, h⟩ := bind_eq_ok.mp h
  obtain ⟨_, -, h⟩ := bind_eq_ok.mp h
  exact (Except.ok.inj h).symm

/-- A completed run of a job, with the plan that its report has made. -/
structure Completion where
  finishedAt : Int
  runCountAfter : Int
  plan : SchedulerSuccessPlan

/-- The job has had all of its runs. -/
def Completion.last (c : Completion) (maxRuns : Option Int) : Bool := maxRuns.any fun maxRuns => maxRuns ≤ c.runCountAfter

/-- An occurrence after a completion, before the run that it has planned; after the last run there is none. -/
def Skipped (occurs : Int → Prop) (maxRuns : Option Int) (completions : List Completion) (t : Int) : Prop :=
  ∃ c ∈ completions, c.last maxRuns = false ∧ c.finishedAt < t ∧ occurs t ∧ ∀ next ∈ c.plan.nextRunAtUnix, t < next

theorem planSuccess_cron {policy : SchedulerPolicy} {expr timezone : String} {maxRuns : Option Int} {c : Completion}
    (htrigger : policy.trigger = .cron expr timezone)
    (hplan : planSuccessTransition calendar policy c.finishedAt c.runCountAfter maxRuns = .ok c.plan)
    (hlast : c.last maxRuns = false) :
    c.plan.nextRunAtUnix = calendar.after (normalizeCronExpr expr) timezone (c.finishedAt + 1) := by
  unfold planSuccessTransition at hplan
  obtain ⟨_, -, hplan⟩ := bind_eq_ok.mp hplan
  have hgoes : (policy.trigger.isOnce || maxRuns.any fun maxRuns => decide (maxRuns ≤ c.runCountAfter)) = false := by
    rw [htrigger]
    exact hlast
  dsimp only at hplan
  rw [hgoes, if_neg Bool.false_ne_true] at hplan
  obtain ⟨next, hnext, hplan⟩ := bind_eq_ok.mp hplan
  unfold computeNextRunFromPolicy at hnext
  obtain ⟨_, -, hnext⟩ := bind_eq_ok.mp hnext
  rw [htrigger] at hnext
  have hafter := computeNextRun_cron hnext
  cases next with
  | none =>
    rw [← Except.ok.inj hplan, ← hafter]
  | some next =>
    rw [← Except.ok.inj hplan, ← hafter]

theorem nextOccurrence_iff {occurs : Int → Prop} {now : Int} {next : Option Int}
    (h : NextOccurrence occurs (now + 1) next) :
    NextOccurrence occurs now next ↔ ∀ t, now < t → occurs t → ¬ ∀ next' ∈ next, t < next' := by
  cases next with
  | some next =>
    obtain ⟨⟨hafter, hoccurs⟩, -⟩ := h
    constructor
    · intro hnext t hlt ht hbefore
      have hle : next ≤ t := hnext.2 ⟨hlt, ht⟩
      have hlt' := hbefore next rfl
      omega
    · refine fun hnone => ⟨⟨by omega, hoccurs⟩, fun t ht => ?_⟩
      by_contra hlt
      refine hnone t ht.1 ht.2 fun next' hnext' => ?_
      obtain rfl : next = next' := Option.some.inj hnext'
      omega
  | none => exact ⟨fun hnone t hlt ht _ => hnone t hlt ht, fun hnone t hlt ht => hnone t hlt ht nofun⟩

/-- **The next run of a cron job is the next occurrence** if and only if none falls into the second behind the clock;
and the completions of a job skip no occurrence if and only if none falls into the second behind one of them. -/
theorem cron_next_run_iff (h : calendar.Enumerates occurs) :
    (∀ (expr timezone : String) (now : Int) (next : Option Int),
      computeNextRunAtUnix calendar (.cron expr) now timezone = .ok next →
        (NextOccurrence (occurs (normalizeCronExpr expr) timezone) now next ↔
          ¬ occurs (normalizeCronExpr expr) timezone (now + 1))) ∧
    (∀ (policy : SchedulerPolicy) (expr timezone : String) (maxRuns : Option Int) (completions : List Completion),
      policy.trigger = .cron expr timezone →
      (∀ c ∈ completions, planSuccessTransition calendar policy c.finishedAt c.runCountAfter maxRuns = .ok c.plan) →
        ((∀ t, ¬ Skipped (occurs (normalizeCronExpr expr) timezone) maxRuns completions t) ↔
          ∀ c ∈ completions, c.last maxRuns = false →
            ¬ occurs (normalizeCronExpr expr) timezone (c.finishedAt + 1))) := by
  constructor
  · intro expr timezone now next hnext
    rw [computeNextRun_cron hnext]
    exact nextOccurrence_succ_iff (h.after _ _ _)
  · intro policy expr timezone maxRuns completions htrigger hplans
    have hone : ∀ c ∈ completions, c.last maxRuns = false →
        ((∀ t, c.finishedAt < t → occurs (normalizeCronExpr expr) timezone t →
            ¬ ∀ next ∈ c.plan.nextRunAtUnix, t < next) ↔
          ¬ occurs (normalizeCronExpr expr) timezone (c.finishedAt + 1)) := by
      intro c hc hlast
      rw [planSuccess_cron htrigger (hplans c hc) hlast, ← nextOccurrence_iff (h.after _ _ _)]
      exact nextOccurrence_succ_iff (h.after _ _ _)
    constructor
    · intro hnone c hc hlast
      exact (hone c hc hlast).mp fun t hlt ht hbefore => hnone t ⟨c, hc, hlast, hlt, ht, hbefore⟩
    · rintro hnone t ⟨c, hc, hlast, hlt, ht, hbefore⟩
      exact (hone c hc hlast).mpr (hnone c hc hlast) t hlt ht hbefore

/-- Every midnight of UTC. -/
def everyMidnight (expr timezone : String) (t : Int) : Prop :=
  expr = "0 0 0 * * *" ∧ timezone = "UTC" ∧ t % 86400 = 0

/-- The calendar of one expression in UTC. -/
def midnightCalendar : Calendar where
  timezone timezone := timezone = "UTC"
  schedule expr := expr = "0 0 0 * * *"
  isMoment _ _ := true
  after expr timezone start :=
    if expr = "0 0 0 * * *" ∧ timezone = "UTC" then some ((start / 86400 + 1) * 86400) else none

theorem midnight_enumerates : midnightCalendar.Enumerates everyMidnight where
  next {expr timezone start next} h := by
    obtain ⟨hexpr, hnext⟩ := Option.ite_none_right_eq_some.mp h
    cases hnext
    refine ⟨⟨by omega, hexpr.1, hexpr.2, by omega⟩, ?_⟩
    rintro t ⟨hlt, -, -, ht⟩
    omega
  none {expr timezone start} h := by
    rintro t - ⟨hexpr, htimezone, -⟩
    have hafter : midnightCalendar.after expr timezone start = some ((start / 86400 + 1) * 86400) :=
      if_pos ⟨hexpr, htimezone⟩
    rw [hafter] at h
    cases h

theorem cron_next_run_iff_midnight :
    computeNextRunAtUnix midnightCalendar (.cron "0 0 * * *") 100 "UTC" = .ok (some 86400) ∧
      NextOccurrence (everyMidnight "0 0 0 * * *" "UTC") 100 (some 86400) := by
  have hnext : computeNextRunAtUnix midnightCalendar (.cron "0 0 * * *") 100 "UTC" = .ok (some 86400) := by
    decide +kernel
  have hexpr : normalizeCronExpr "0 0 * * *" = "0 0 0 * * *" := by decide +kernel
  refine ⟨hnext, ?_⟩
  rw [← hexpr]
  refine ((cron_next_run_iff midnight_enumerates).1 "0 0 * * *" "UTC" 100 (some 86400) hnext).mpr ?_
  rintro ⟨-, -, hmidnight⟩
  revert hmidnight
  decide

/-- One second before midnight the midnight is left out. -/
theorem cron_next_run_late :
    midnightCalendar.Enumerates everyMidnight ∧
      computeNextRunAtUnix midnightCalendar (.cron "0 0 * * *") 86399 "UTC" = .ok (some 172800) ∧
      ¬ NextOccurrence (everyMidnight "0 0 0 * * *" "UTC") 86399 (some 172800) := by
  refine ⟨midnight_enumerates, by decide +kernel, fun h => ?_⟩
  have hle : (172800 : Int) ≤ 86400 := h.2 ⟨by decide, rfl, rfl, by decide⟩
  revert hle
  decide

end Cron

/-! ## The retry of a failed run -/

section Retry

/-- `clamp`, which panics where its bounds are in the wrong order. -/
def clampOrPanic (secs low high : Int) : Option Int := if low ≤ high then some (max low (min secs high)) else none

/-- `compute_retry_backoff_secs_with_policy`, with the arithmetic of an `i64`; `none` is a panic. -/
def computeRetryBackoffI64 (policy : SchedulerBackoffPolicy) (attempt : Nat) : Option Int :=
  let normalized := normalizeBackoffPolicy policy
  let base := max normalized.baseSecs 1
  let maxSecs := max normalized.maxSecs base
  if normalized.strategy = "fixed" then clampOrPanic base 1 maxSecs
  else if attempt = 0 then clampOrPanic 1 1 maxSecs
  else
    let exp := FixedWidth.saturate 63 (2 ^ min attempt 20)
    clampOrPanic (FixedWidth.saturate 63 (base * exp)) 1 maxSecs

/-- `plan_failure_transition`, with the arithmetic of an `i64`: `none` is a panic, which the sum ends in where the
build has overflow checks. -/
def planFailureI64 (calendar : Calendar) (checked : Bool) (policy : SchedulerPolicy) (nowUnix failureStreakAfter : Int) :
    Option (Except String SchedulerFailurePlan) :=
  match validateSchedulerPolicy calendar policy with
  | .error e => some (.error e)
  | .ok () =>
    let threshold : Int := max policy.execution.maxFailureStreakBeforePause 1
    if threshold ≤ failureStreakAfter then
      some ((applySchedulerStateTransition .active .RunFailedPause).map fun nextState => ⟨nextState, true, none, none⟩)
    else do
      let attempt := (max failureStreakAfter 0).toNat % 2 ^ 32
      let backoffSecs ← computeRetryBackoffI64 policy.execution.backoff attempt
      let backoffSecs := max backoffSecs 1
      match applySchedulerStateTransition .active .RunFailedRetry with
      | .error e => some (.error e)
      | .ok nextState => do
        let nextRunAtUnix ← FixedWidth.add 63 checked nowUnix backoffSecs
        some (.ok ⟨nextState, false, some nextRunAtUnix, some backoffSecs⟩)

/-- What the check of a policy promises of its retries. -/
structure RetryValid (policy : SchedulerPolicy) : Prop where
  strategy : toAsciiLowercase (trim policy.execution.backoff.strategy) = "exponential" ∨
    toAsciiLowercase (trim policy.execution.backoff.strategy) = "fixed"
  base : 0 < policy.execution.backoff.baseSecs
  base_le : policy.execution.backoff.baseSecs ≤ policy.execution.backoff.maxSecs
  threshold : 0 < policy.execution.maxFailureStreakBeforePause
  threshold_le : policy.execution.maxFailureStreakBeforePause ≤ 1024

theorem retryValid_of_ok {calendar : Calendar} {policy : SchedulerPolicy}
    (h : validateSchedulerPolicy calendar policy = .ok ()) : RetryValid policy := by
  unfold validateSchedulerPolicy at h
  obtain ⟨_, -, h⟩ := bind_eq_ok.mp h
  obtain ⟨_, hpos, h⟩ := bind_eq_ok.mp h
  obtain ⟨_, hle, h⟩ := bind_eq_ok.mp h
  obtain ⟨_, hbackoff, -⟩ := bind_eq_ok.mp h
  unfold validateBackoffPolicy at hbackoff
  obtain ⟨_, hstrategy, hbackoff⟩ := bind_eq_ok.mp hbackoff
  obtain ⟨_, hbase, hbackoff⟩ := bind_eq_ok.mp hbackoff
  obtain ⟨_, -, hbaseLe⟩ := bind_eq_ok.mp hbackoff
  simp only [ensure_eq_ok, ne_eq, decide_not, Bool.not_eq_true', Bool.or_eq_true, decide_eq_true_eq, decide_eq_false_iff_not] at *
  exact ⟨hstrategy, hbase, hbaseLe, by omega, hle⟩

/-- The delay of a retry: the base, or twice as much for each failure, up to the largest one. -/
def retryDelay (backoff : SchedulerBackoffPolicy) (failureStreak : Int) : Int :=
  if toAsciiLowercase (trim backoff.strategy) = "fixed" then backoff.baseSecs
  else if failureStreak ≤ 0 then 1
  else min (backoff.baseSecs * 2 ^ min failureStreak.toNat 20) backoff.maxSecs

variable {calendar : Calendar} {policy : SchedulerPolicy}

theorem retryDelay_bounds (h : RetryValid policy) (failureStreak : Int) :
    1 ≤ retryDelay policy.execution.backoff failureStreak ∧
      retryDelay policy.execution.backoff failureStreak ≤ policy.execution.backoff.maxSecs := by
  have hbase := h.base
  have hle := h.base_le
  rw [retryDelay]
  split_ifs
  · omega
  · omega
  · have hpow : (1 : Int) ≤ 2 ^ min failureStreak.toNat 20 := Int.pow_pos (by decide)
    have hmul := Int.mul_le_mul_of_nonneg_left hpow hbase.le
    rw [Int.mul_one] at hmul
    omega

theorem retryDelay_mono (h : RetryValid policy) {s t : Int} (hst : s ≤ t) :
    retryDelay policy.execution.backoff s ≤ retryDelay policy.execution.backoff t := by
  have hbounds := retryDelay_bounds h t
  rw [retryDelay, retryDelay] at *
  split_ifs at * with hfixed hs ht ht
  · exact Int.le_refl _
  · exact Int.le_refl _
  · exact hbounds.1
  · omega
  · have hpow : (2 : Int) ^ min s.toNat 20 ≤ 2 ^ min t.toNat 20 := by
      exact_mod_cast Nat.pow_le_pow_right (by decide) (by omega : min s.toNat 20 ≤ min t.toNat 20)
    have hmul := Int.mul_le_mul_of_nonneg_left hpow h.base.le
    omega

theorem normalizeBackoff_of_valid (h : RetryValid policy) :
    normalizeBackoffPolicy policy.execution.backoff =
      { policy.execution.backoff with strategy := toAsciiLowercase (trim policy.execution.backoff.strategy) } := by
  have hbase := h.base
  have hle := h.base_le
  have hblank : isBlank policy.execution.backoff.strategy = false := by
    by_contra hblank
    have hempty := trim_eq_empty (by simpa using hblank)
    have hstrategy := h.strategy
    rw [hempty] at hstrategy
    revert hstrategy
    decide
  rw [normalizeBackoffPolicy, hblank, if_neg Bool.false_ne_true, Int.max_eq_left (by omega), if_neg (by omega)]

/-- Neither the products nor the bounds of `clamp` go wrong. -/
theorem computeRetryBackoffI64_eq (h : RetryValid policy)
    (hmax : FixedWidth.InRange 63 policy.execution.backoff.maxSecs) {failureStreak : Int} (hstreak : failureStreak < 1024) :
    computeRetryBackoffI64 policy.execution.backoff ((max failureStreak 0).toNat % 2 ^ 32) =
      some (retryDelay policy.execution.backoff failureStreak) := by
  have hbase := h.base
  have hle := h.base_le
  have hattempt : (max failureStreak 0).toNat % 2 ^ 32 = failureStreak.toNat := by omega
  rw [computeRetryBackoffI64, normalizeBackoff_of_valid h, hattempt, retryDelay]
  dsimp only
  rw [Int.max_eq_left (by omega : (1 : Int) ≤ _), Int.max_eq_left hle]
  split_ifs with hfixed hzero hpos hpos
  · rw [clampOrPanic, if_pos (by omega)]
    congr 1
    omega
  · rw [clampOrPanic, if_pos (by omega)]
    congr 1
    omega
  · omega
  · omega
  · have hexp : FixedWidth.saturate 63 (2 ^ min failureStreak.toNat 20) = 2 ^ min failureStreak.toNat 20 := by
      have hpow : (2 : Int) ^ min failureStreak.toNat 20 ≤ 2 ^ 20 := by
        exact_mod_cast Nat.pow_le_pow_right (by decide) (by omega : min failureStreak.toNat 20 ≤ 20)
      have hone : (0 : Int) < 2 ^ min failureStreak.toNat 20 := Int.pow_pos (by decide)
      exact FixedWidth.saturate_of_inRange ⟨by omega, by omega⟩
    have hdelay := retryDelay_bounds h failureStreak
    rw [retryDelay, if_neg hfixed, if_neg hpos] at hdelay
    have hproduct : 0 ≤ policy.execution.backoff.baseSecs * 2 ^ min failureStreak.toNat 20 := by omega
    rw [hexp, clampOrPanic, if_pos (by omega), FixedWidth.min_saturate hproduct hmax.2]
    congr 1
    omega

theorem planFailureI64_eq (checked : Bool) (hvalid : validateSchedulerPolicy calendar policy = .ok ())
    (hmax : FixedWidth.InRange 63 policy.execution.backoff.maxSecs) (nowUnix failureStreak : Int) :
    planFailureI64 calendar checked policy nowUnix failureStreak =
      if policy.execution.maxFailureStreakBeforePause ≤ failureStreak then some (.ok ⟨.paused, true, none, none⟩)
      else (FixedWidth.add 63 checked nowUnix (retryDelay policy.execution.backoff failureStreak)).map fun next =>
        .ok ⟨.active, false, some next, some (retryDelay policy.execution.backoff failureStreak)⟩ := by
  have h := retryValid_of_ok hvalid
  have hpos := h.threshold
  have hle := h.threshold_le
  have hdelay := (retryDelay_bounds h failureStreak).1
  rw [planFailureI64, hvalid]
  dsimp only
  rw [Int.max_eq_left (by omega : (1 : Int) ≤ policy.execution.maxFailureStreakBeforePause)]
  split_ifs with hpause
  · rfl
  · rw [computeRetryBackoffI64_eq h hmax (by omega)]
    show (FixedWidth.add 63 checked nowUnix (max _ 1)).bind _ = _
    rw [Int.max_eq_left hdelay, Option.map_eq_bind]
    rfl

/-- A plan is within its bounds: it pauses the job from the threshold on, and otherwise retries after the clock. -/
def RetryWithinBounds (policy : SchedulerPolicy) (nowUnix failureStreak : Int)
    (planned : Option (Except String SchedulerFailurePlan)) : Prop :=
  ∃ plan, planned = some (.ok plan) ∧
    (plan.pauseJob = true ↔ policy.execution.maxFailureStreakBeforePause ≤ failureStreak) ∧
    (plan.pauseJob = false → ∃ backoff next, plan.backoffSecs = some backoff ∧ plan.nextRunAtUnix = some next ∧
      1 ≤ backoff ∧ backoff ≤ max policy.execution.backoff.baseSecs policy.execution.backoff.maxSecs ∧ nowUnix < next)

/-- **The retry of a failed run**: for every valid policy, whatever the clock and the failures, the plan is within its
bounds if and only if the job is paused or the moment of the retry is an `i64`; and no delay is longer than that of
more failures. -/
theorem retry_plan_iff (calendar : Calendar) (checked : Bool) (policy : SchedulerPolicy)
    (hvalid : validateSchedulerPolicy calendar policy = .ok ())
    (hmax : FixedWidth.InRange 63 policy.execution.backoff.maxSecs) :
    (∀ nowUnix failureStreak, FixedWidth.InRange 63 nowUnix →
      (RetryWithinBounds policy nowUnix failureStreak (planFailureI64 calendar checked policy nowUnix failureStreak) ↔
        (policy.execution.maxFailureStreakBeforePause ≤ failureStreak ∨
          nowUnix + retryDelay policy.execution.backoff failureStreak < 2 ^ 63))) ∧
    (∀ nowUnix nowUnix' failureStreak failureStreak' plan plan' backoff backoff', failureStreak ≤ failureStreak' →
      planFailureI64 calendar checked policy nowUnix failureStreak = some (.ok plan) →
      planFailureI64 calendar checked policy nowUnix' failureStreak' = some (.ok plan') →
      plan.backoffSecs = some backoff → plan'.backoffSecs = some backoff' → backoff ≤ backoff') := by
  have h := retryValid_of_ok hvalid
  constructor
  · intro nowUnix failureStreak hnow
    obtain ⟨hone, hle⟩ := retryDelay_bounds h failureStreak
    have hdelay : FixedWidth.InRange 63 (retryDelay policy.execution.backoff failureStreak) :=
      ⟨by omega, by have hlt := hmax.2; omega⟩
    rw [planFailureI64_eq checked hvalid hmax]
    by_cases hpause : policy.execution.maxFailureStreakBeforePause ≤ failureStreak
    · rw [if_pos hpause]
      exact iff_of_true ⟨_, rfl, iff_of_true rfl hpause, nofun⟩ (.inl hpause)
    · rw [if_neg hpause, or_iff_right hpause, ← FixedWidth.add_gt_iff hnow hdelay (by omega) checked]
      constructor
      · rintro ⟨plan, hplan, -, hretry⟩
        obtain ⟨next, hnext, hok⟩ := Option.map_eq_some_iff.mp hplan
        obtain rfl := Except.ok.inj hok
        obtain ⟨_, next', -, hnext', -, -, hlt⟩ := hretry rfl
        obtain rfl := Option.some.inj hnext'
        exact ⟨next, hnext, hlt⟩
      · rintro ⟨next, hnext, hlt⟩
        rw [Option.mem_def.mp hnext]
        exact ⟨_, rfl, iff_of_false Bool.false_ne_true hpause, fun _ => ⟨_, next, rfl, rfl, hone, by omega, hlt⟩⟩
  · intro nowUnix nowUnix' s t plan plan' backoff backoff' hst hplan hplan' hbackoff hbackoff'
    have hdelay : ∀ now s plan backoff, planFailureI64 calendar checked policy now s = some (.ok plan) →
        plan.backoffSecs = some backoff → backoff = retryDelay policy.execution.backoff s := by
      intro now s plan backoff hplan hbackoff
      rw [planFailureI64_eq checked hvalid hmax] at hplan
      split_ifs at hplan
      · obtain rfl := Except.ok.inj (Option.some.inj hplan)
        cases hbackoff
      · obtain ⟨next, -, hok⟩ := Option.map_eq_some_iff.mp hplan
        obtain rfl := Except.ok.inj hok
        exact (Option.some.inj hbackoff).symm
    rw [hdelay _ _ _ _ hplan hbackoff, hdelay _ _ _ _ hplan' hbackoff']
    exact retryDelay_mono h hst

/-- A policy whose delays are as long as can be. -/
def longestPolicy : SchedulerPolicy where
  trigger := .cron "0 0 * * *" "UTC"
  execution := { backoff := { strategy := "fixed", baseSecs := 2 ^ 63 - 1, maxSecs := 2 ^ 63 - 1 } }

theorem retry_plan_iff_once :
    RetryWithinBounds { trigger := .cron "0 0 * * *" "UTC" } 1700000000 3
      (planFailureI64 midnightCalendar true { trigger := .cron "0 0 * * *" "UTC" } 1700000000 3) :=
  ((retry_plan_iff midnightCalendar true { trigger := .cron "0 0 * * *" "UTC" } (by decide +kernel) (by decide)).1
    1700000000 3 (by decide)).mpr (.inr (by decide +kernel))

/-- The sum of the clock and the delay is no `i64`: it panics, or lies in the past. -/
theorem retry_plan_overflow :
    validateSchedulerPolicy midnightCalendar longestPolicy = .ok () ∧
      planFailureI64 midnightCalendar true longestPolicy 1700000000 1 = none ∧
      ∀ checked, ¬ RetryWithinBounds longestPolicy 1700000000 1
        (planFailureI64 midnightCalendar checked longestPolicy 1700000000 1) := by
  have hwrapped : planFailureI64 midnightCalendar false longestPolicy 1700000000 1 =
      some (.ok ⟨.active, false, some (1700000000 - 1 - 2 ^ 63), some (2 ^ 63 - 1)⟩) := by decide +kernel
  have hpanic : planFailureI64 midnightCalendar true longestPolicy 1700000000 1 = none := by decide +kernel
  refine ⟨by decide +kernel, hpanic, fun checked => ?_⟩
  rintro ⟨plan, hplan, -, hretry⟩
  cases checked with
  | true =>
    rw [hpanic] at hplan
    cases hplan
  | false =>
    rw [hwrapped] at hplan
    obtain rfl := Except.ok.inj (Option.some.inj hplan)
    obtain ⟨_, next, -, hnext, -, -, hlt⟩ := hretry rfl
    obtain rfl := Option.some.inj hnext
    revert hlt
    decide

end Retry

end Xiaomaolv
