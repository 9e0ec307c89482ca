import Mathlib.Algebra.Order.BigOperators.Group.List
import Mathlib.Algebra.Order.Group.Nat
import Xiaomaolv.Lib.Machine
import Xiaomaolv.Lib.Table
import Xiaomaolv.Loop.Data

/-!
# The fixed-window rate limiter

Requests are counted by source and aligned window; sources that find the table full share one bucket.

* `compactSourceWindowsIfNeeded`, `effectiveSource`, `FixedWindowRateLimiter.allowAtForSource`: the limiter.
* `Verdict`: how one request was counted and answered; `FixedWindowRateLimiter.verdicts`: those of a run.
* `Tallied`: the table holds the counts of the current window; `Fair`: what the answers so far amount to.
* `Tallied.advance`, `Tallied.serve`: a later window, and one request.
* **`rate_limited`**: below the largest limit every source stays in one bucket of a window and within the limit.
* `unlimited_at_max`: at the largest limit the counter saturates, and every request is admitted.
-/

namespace Xiaomaolv

open Table

/-! ## The limiter -/

/-- `usize::MAX`. -/
def usizeMax : Nat := 2 ^ 64 - 1

def codeModeDiagOverflowSourceKey : String := "__overflow__"

structure FixedWindowSourceCounter where
  windowStartSecs : Nat
  requestCount : Nat
  deriving DecidableEq

/-- The entries of the `HashMap` of counters. -/
abbrev SourceWindows := List (String × FixedWindowSourceCounter)

structure FixedWindowRateLimiter where
  windowSecs : Nat
  maxRequests : Nat
  maxSources : Nat
  bySource : SourceWindows
  deriving DecidableEq

def FixedWindowRateLimiter.new (windowSecs maxRequests : Nat) : FixedWindowRateLimiter where
  windowSecs := max windowSecs 1
  maxRequests := maxRequests
  maxSources := 4096
  bySource := []

def normalizeSourceKey (sourceKey : String) : String :=
  let trimmed := trim sourceKey
  if trimmed.isEmpty then "unknown"
  else
    let normalized := toAsciiLowercase (takeChars 128 trimmed)
    if normalized.isEmpty then "unknown" else normalized

def activeWindowStart (nowSecs windowSecs : Nat) : Nat :=
  let width := max windowSecs 1
  nowSecs - nowSecs % width

def compactSourceWindowsIfNeeded (currentWindow windowSecs maxSources : Nat) (bySource : SourceWindows) :
    SourceWindows :=
  if bySource.isEmpty then bySource
  else
    let minWindow := currentWindow - windowSecs
    let bySource := bySource.filter fun e => minWindow ≤ e.2.windowStartSecs
    let hardCap := min (maxSources + 1) usizeMax
    if bySource.length ≤ hardCap then bySource
    else
      let bySource := bySource.filter fun e => e.2.windowStartSecs = currentWindow
      if bySource.length ≤ hardCap then bySource
      else
        -- Defensive trim to keep memory bounded if the map was previously overgrown.
        let keys := (bySource.map (·.1)).mergeSort fun a b => a ≤ b
        let removed := keys.take (bySource.length - hardCap)
        bySource.filter fun e => e.1 ∉ removed

/-- The bucket that a request of the source is counted in. -/
def effectiveSource (maxSources : Nat) (bySource : SourceWindows) (source : String) : String :=
  let keys := bySource.map (·.1)
  let hasOverflow := keys.contains codeModeDiagOverflowSourceKey
  let trackedRegularSources := bySource.length - hasOverflow.toNat
  if keys.contains source then source
  else if maxSources ≤ trackedRegularSources then codeModeDiagOverflowSourceKey
  else source

/-- What a request does to the counter of its bucket. -/
def FixedWindowSourceCounter.touch (currentWindow : Nat) (counter : FixedWindowSourceCounter) :
    FixedWindowSourceCounter :=
  let counter := if counter.windowStartSecs ≠ currentWindow then ⟨currentWindow, 0⟩ else counter
  { counter with requestCount := min (counter.requestCount + 1) usizeMax }

/-- `entry(key).or_insert(…)`, and the request counted there. -/
def countRequest (key : String) (currentWindow : Nat) (bySource : SourceWindows) :
    FixedWindowSourceCounter × SourceWindows :=
  match bySource.find? fun e => e.1 = key with
  | some e =>
    let counter := e.2.touch currentWindow
    (counter, updateWhere (fun e => e.1 = key) (fun e => (e.1, counter)) bySource)
  | none =>
    let counter := FixedWindowSourceCounter.touch currentWindow ⟨currentWindow, 0⟩
    (counter, bySource ++ [(key, counter)])

structure SourceRequest where
  nowSecs : Nat
  sourceKey : String
  deriving DecidableEq

/-- How a request is counted and answered. -/
structure Verdict where
  source : String
  bucket : String
  window : Nat
  admitted : Bool
  deriving DecidableEq

namespace FixedWindowRateLimiter

/-- `allow_at_for_source`: the answer, and the limiter after it. -/
def allowAtForSource (limiter : FixedWindowRateLimiter) (nowSecs : Nat) (sourceKey : String) :
    Bool × FixedWindowRateLimiter :=
  if limiter.maxRequests = 0 then (true, limiter)
  else
    let source := normalizeSourceKey sourceKey
    let currentWindow := activeWindowStart nowSecs limiter.windowSecs
    let bySource := compactSourceWindowsIfNeeded currentWindow limiter.windowSecs limiter.maxSources limiter.bySource
    let (counter, bySource) := countRequest (effectiveSource limiter.maxSources bySource source) currentWindow bySource
    (counter.requestCount ≤ limiter.maxRequests, { limiter with bySource })

/-- The table that a request at the time is counted in. -/
def windows (limiter : FixedWindowRateLimiter) (nowSecs : Nat) : SourceWindows :=
  compactSourceWindowsIfNeeded (activeWindowStart nowSecs limiter.windowSecs) limiter.windowSecs limiter.maxSources
    limiter.bySource

def exec (limiter : FixedWindowRateLimiter) (r : SourceRequest) : FixedWindowRateLimiter :=
  (limiter.allowAtForSource r.nowSecs r.sourceKey).2

def verdict (limiter : FixedWindowRateLimiter) (r : SourceRequest) : Verdict where
  source := normalizeSourceKey r.sourceKey
  bucket := effectiveSource limiter.maxSources (limiter.windows r.nowSecs) (normalizeSourceKey r.sourceKey)
  window := activeWindowStart r.nowSecs limiter.windowSecs
  admitted := (limiter.allowAtForSource r.nowSecs r.sourceKey).1

/-- How the requests of a run were answered, in their order. -/
def verdicts (limiter : FixedWindowRateLimiter) (rs : List SourceRequest) : List Verdict :=
  Machine.collect exec (fun limiter r => some (limiter.verdict r)) limiter rs

end FixedWindowRateLimiter

/-! ## Counts -/

/-- What the table counts in the bucket in the window. -/
def usedIn (bySource : SourceWindows) (bucket : String) (window : Nat) : Nat :=
  match bySource.find? fun e => e.1 = bucket with
  | some e => if e.2.windowStartSecs = window then e.2.requestCount else 0
  | none => 0

/-- The entries of the sources. -/
def regularEntries (bySource : SourceWindows) : SourceWindows :=
  bySource.filter fun e => e.1 ≠ codeModeDiagOverflowSourceKey

namespace Verdict

/-- The requests that were counted in the bucket in the window. -/
def countedIn (bucket : String) (window : Nat) (log : List Verdict) : Nat :=
  log.countP fun v => v.bucket = bucket ∧ v.window = window

/-- Those of them that were admitted. -/
def admittedIn (bucket : String) (window : Nat) (log : List Verdict) : Nat :=
  log.countP fun v => v.bucket = bucket ∧ v.window = window ∧ v.admitted = true

/-- The requests of a source that were admitted in the window. -/
def admittedFrom (source : String) (window : Nat) (log : List Verdict) : Nat :=
  log.countP fun v => v.source = source ∧ v.window = window ∧ v.admitted = true

end Verdict

/-- The table holds the counts of the window for the requests of the log. -/
structure Tallied (windowSecs maxSources window : Nat) (bySource : SourceWindows) (log : List Verdict) : Prop where
  keys : (bySource.map (·.1)).Nodup
  regular : (regularEntries bySource).length ≤ maxSources
  fresh : ∀ e ∈ bySource, window - windowSecs ≤ e.2.windowStartSecs ∧ e.2.windowStartSecs ≤ window
  past : ∀ v ∈ log, v.window ≤ window
  used : ∀ bucket, usedIn bySource bucket window = min (Verdict.countedIn bucket window log) usizeMax
  /-- A source that is counted in the shared bucket has no entry, and the table is full. -/
  full : ∀ v ∈ log, v.window = window → v.bucket ≠ v.source →
    v.source ∉ bySource.map (·.1) ∧ maxSources ≤ (regularEntries bySource).length

/-- The answers so far keep to the limit. -/
structure Fair (maxRequests : Nat) (log : List Verdict) : Prop where
  /-- A request is counted in the bucket of its source or in the shared one. -/
  bucket : ∀ v ∈ log, v.bucket = v.source ∨ v.bucket = codeModeDiagOverflowSourceKey
  /-- A source keeps its bucket within a window. -/
  single : ∀ v ∈ log, ∀ u ∈ log, u.source = v.source → u.window = v.window → u.bucket = v.bucket
  /-- A bucket admits the requests of a window up to the limit. -/
  admitted : ∀ bucket window, Verdict.admittedIn bucket window log
    = min (Verdict.countedIn bucket window log) maxRequests
  /-- A request is refused when its bucket has admitted as many as the limit. -/
  refused : ∀ l v r, log = l ++ v :: r → v.admitted = false → Verdict.admittedIn v.bucket v.window l = maxRequests

/-! ## The table -/

section SourceTable

variable {bySource : SourceWindows} {key bucket : String} {window windowSecs maxSources : Nat}

theorem activeWindowStart_mono {a b : Nat} (h : a ≤ b) :
    activeWindowStart a windowSecs ≤ activeWindowStart b windowSecs := by
  have hstart : ∀ n, activeWindowStart n windowSecs = max windowSecs 1 * (n / max windowSecs 1) := fun n => by
    have hdiv := Nat.div_add_mod n (max windowSecs 1)
    rw [activeWindowStart]
    omega
  rw [hstart, hstart]
  exact Nat.mul_le_mul_left _ (Nat.div_le_div_right h)

theorem length_regularEntries (hkeys : (bySource.map (·.1)).Nodup) :
    (regularEntries bySource).length
      = bySource.length - ((bySource.map (·.1)).contains codeModeDiagOverflowSourceKey).toNat := by
  have hsplit := List.length_eq_countP_add_countP (fun e : String × FixedWindowSourceCounter =>
    decide (e.1 = codeModeDiagOverflowSourceKey)) (l := bySource)
  have hcount : bySource.countP (fun e => decide (e.1 = codeModeDiagOverflowSourceKey))
      = ((bySource.map (·.1)).contains codeModeDiagOverflowSourceKey).toNat := by
    have hmap : bySource.countP (fun e => decide (e.1 = codeModeDiagOverflowSourceKey))
        = (bySource.map (·.1)).count codeModeDiagOverflowSourceKey := by
      rw [List.count, List.countP_map]
      rfl
    rw [hmap]
    by_cases hmem : codeModeDiagOverflowSourceKey ∈ bySource.map (·.1)
    · rw [List.count_eq_one_of_mem hkeys hmem, List.contains_iff_mem.mpr hmem]
      rfl
    · rw [List.count_eq_zero_of_not_mem hmem, Bool.eq_false_iff.mpr (mt List.contains_iff_mem.mp hmem)]
      rfl
  rw [regularEntries, ← List.countP_eq_length_filter]
  have hsame : bySource.countP (fun e => decide (e.1 ≠ codeModeDiagOverflowSourceKey))
      = bySource.countP (fun e => decide ¬(decide (e.1 = codeModeDiagOverflowSourceKey)) = true) := by
    congr 1
    funext e
    simp
  omega

theorem compact_eq (hlen : (bySource.filter fun e => window - windowSecs ≤ e.2.windowStartSecs).length
      ≤ min (maxSources + 1) usizeMax) :
    compactSourceWindowsIfNeeded window windowSecs maxSources bySource
      = bySource.filter fun e => window - windowSecs ≤ e.2.windowStartSecs := by
  rw [compactSourceWindowsIfNeeded]
  split_ifs with hempty
  · rw [List.isEmpty_iff.mp hempty, List.filter_nil]
  · exact if_pos hlen

theorem effectiveSource_of_mem (h : key ∈ bySource.map (·.1)) : effectiveSource maxSources bySource key = key := by
  rw [effectiveSource, if_pos (List.contains_iff_mem.mpr h)]

theorem effectiveSource_of_not_mem (hkeys : (bySource.map (·.1)).Nodup) (h : key ∉ bySource.map (·.1)) :
    effectiveSource maxSources bySource key
      = if maxSources ≤ (regularEntries bySource).length then codeModeDiagOverflowSourceKey else key := by
  rw [effectiveSource, if_neg (mt List.contains_iff_mem.mp h), length_regularEntries hkeys]

theorem touch_windowStartSecs (counter : FixedWindowSourceCounter) (window : Nat) :
    (counter.touch window).windowStartSecs = window := by
  unfold FixedWindowSourceCounter.touch
  dsimp only
  split_ifs with h
  · rfl
  · exact not_not.mp h

theorem touch_requestCount (counter : FixedWindowSourceCounter) (window : Nat) :
    (counter.touch window).requestCount
      = min ((if counter.windowStartSecs = window then counter.requestCount else 0) + 1) usizeMax := by
  unfold FixedWindowSourceCounter.touch
  by_cases h : counter.windowStartSecs = window
  · simp [h]
  · simp [h]

theorem countRequest_requestCount (bySource : SourceWindows) (key : String) (window : Nat) :
    (countRequest key window bySource).1.requestCount = min (usedIn bySource key window + 1) usizeMax := by
  unfold countRequest usedIn
  cases bySource.find? fun e => e.1 = key with
  | some e => exact touch_requestCount e.2 window
  | none => simp [touch_requestCount]

/-- A request raises the count of its bucket, and of no other. -/
theorem usedIn_countRequest (bySource : SourceWindows) (key bucket : String) (window : Nat) :
    usedIn (countRequest key window bySource).2 bucket window
      = if bucket = key then min (usedIn bySource key window + 1) usizeMax else usedIn bySource bucket window := by
  have hcount := countRequest_requestCount bySource key window
  unfold countRequest at hcount ⊢
  cases hfind : bySource.find? fun e => e.1 = key with
  | some e =>
    rw [hfind] at hcount
    have hkey : e.1 = key := by simpa using List.find?_some hfind
    have hupdate : (updateWhere (fun e' => e'.1 = key) (fun e' => (e'.1, e.2.touch window)) bySource).find?
          (fun e' => e'.1 = bucket)
        = (bySource.find? fun e' => e'.1 = bucket).map fun e' =>
          if decide (e'.1 = key) = true then (e'.1, e.2.touch window) else e' :=
      find?_updateWhere (f := fun e' => (e'.1, e.2.touch window)) (fun _ _ => rfl) bySource
    by_cases hb : bucket = key
    · subst hb
      simp only [usedIn, hupdate, hfind, Option.map_some, hkey, decide_true, if_true, touch_windowStartSecs]
      simpa [usedIn, hfind] using hcount
    · rw [if_neg hb]
      simp only [usedIn, hupdate]
      cases hother : bySource.find? fun e' => e'.1 = bucket with
      | none => rfl
      | some e' =>
        have hne : e'.1 ≠ key := fun h => hb ((by simpa using List.find?_some hother : e'.1 = bucket).symm.trans h)
        simp [hne]
  | none =>
    rw [hfind] at hcount
    simp only [usedIn, List.find?_append, List.find?_singleton]
    by_cases hb : bucket = key
    · subst hb
      simp only [hfind, Option.none_or, decide_true, if_true, touch_windowStartSecs]
      simpa [usedIn, hfind] using hcount
    · simp [hb, Ne.symm hb]

theorem keys_countRequest (bySource : SourceWindows) (key : String) (window : Nat) :
    (countRequest key window bySource).2.map (·.1)
      = if key ∈ bySource.map (·.1) then bySource.map (·.1) else bySource.map (·.1) ++ [key] := by
  unfold countRequest
  cases hfind : bySource.find? fun e => e.1 = key with
  | some e =>
    have hkey : e.1 = key := by simpa using List.find?_some hfind
    rw [if_pos (List.mem_map.mpr ⟨e, List.mem_of_find?_eq_some hfind, hkey⟩)]
    exact map_updateWhere (f := fun e' => (e'.1, e.2.touch window)) (fun _ => rfl) bySource
  | none =>
    have hnew : key ∉ bySource.map (·.1) := by
      rw [List.mem_map]
      rintro ⟨e, he, hkey⟩
      simpa [hkey] using List.find?_eq_none.mp hfind e he
    rw [if_neg hnew, List.map_append, List.map_singleton]

theorem mem_countRequest {e : String × FixedWindowSourceCounter} (h : e ∈ (countRequest key window bySource).2) :
    e.2.windowStartSecs = window ∨ e ∈ bySource := by
  unfold countRequest at h
  cases hfind : bySource.find? fun e => e.1 = key with
  | some found =>
    rw [hfind] at h
    obtain ⟨e', he', rfl⟩ := mem_updateWhere.mp h
    split_ifs with hkey
    · exact .inl (touch_windowStartSecs found.2 window)
    · exact .inr he'
  | none =>
    rw [hfind] at h
    rcases List.mem_append.mp h with h | h
    · exact .inr h
    · rw [List.mem_singleton.mp h]
      exact .inl (touch_windowStartSecs ⟨window, 0⟩ window)

theorem length_regularEntries_eq (bySource : SourceWindows) : (regularEntries bySource).length
    = ((bySource.map (·.1)).filter fun k => k ≠ codeModeDiagOverflowSourceKey).length := by
  rw [List.filter_map, List.length_map]
  rfl

end SourceTable

/-! ## A window, and a request -/

section Steps

variable {bySource : SourceWindows} {log : List Verdict} {window windowSecs maxSources maxRequests : Nat}

theorem counted_nil (windowSecs maxSources window : Nat) : Tallied windowSecs maxSources window [] [] where
  keys := List.nodup_nil
  regular := Nat.zero_le _
  fresh := by simp
  past := by simp
  used bucket := rfl
  full := by simp

theorem fair_nil (maxRequests : Nat) : Fair maxRequests [] where
  bucket := by simp
  single := by simp
  admitted bucket window := (Nat.zero_min maxRequests).symm
  refused l v r h := by simp at h

theorem usedIn_filter (hkeys : (bySource.map (·.1)).Nodup) {p : String × FixedWindowSourceCounter → Bool}
    (hp : ∀ e ∈ bySource, e.2.windowStartSecs = window → p e = true) (bucket : String) :
    usedIn (bySource.filter p) bucket window = usedIn bySource bucket window := by
  induction bySource with
  | nil => rfl
  | cons e rest ih =>
    rw [List.map_cons, List.nodup_cons] at hkeys
    have ih := ih hkeys.2 fun x hx => hp x (List.mem_cons_of_mem _ hx)
    have hhead : e.2.windowStartSecs = window → p e = true := hp e List.mem_cons_self
    rw [List.filter_cons]
    by_cases hb : e.1 = bucket
    · by_cases hpe : p e = true
      · simp [usedIn, hpe, hb]
      · have hold : e.2.windowStartSecs ≠ window := fun h => hpe (hhead h)
        have hgone : (rest.filter p).find? (fun x => x.1 = bucket) = none := by
          simp only [List.find?_eq_none, decide_eq_true_eq]
          rintro x hx rfl
          exact hkeys.1 (hb ▸ List.mem_map_of_mem (List.mem_filter.mp hx).1)
        simp [usedIn, hpe, hb, hgone, hold]
    · by_cases hpe : p e = true
      · simpa [usedIn, hpe, hb] using ih
      · simpa [usedIn, hpe, hb] using ih

theorem usedIn_of_older (h : ∀ e ∈ bySource, e.2.windowStartSecs ≠ window) (bucket : String) :
    usedIn bySource bucket window = 0 := by
  unfold usedIn
  cases hfind : bySource.find? fun e => e.1 = bucket with
  | some e => exact if_neg (h e (List.mem_of_find?_eq_some hfind))
  | none => rfl

theorem countedIn_of_older (h : ∀ v ∈ log, v.window ≠ window) (bucket : String) :
    Verdict.countedIn bucket window log = 0 := by
  rw [Verdict.countedIn, List.countP_eq_zero]
  intro v hv
  simp [h v hv]

theorem Tallied.length_le (h : Tallied windowSecs maxSources window bySource log) :
    bySource.length ≤ maxSources + 1 := by
  have hregular := h.regular
  rw [length_regularEntries h.keys] at hregular
  have hone := Bool.toNat_le ((bySource.map (·.1)).contains codeModeDiagOverflowSourceKey)
  omega

/-- **A window that is not earlier**: the table keeps what it needs of it. -/
theorem Tallied.advance (hcap : maxSources < usizeMax) (h : Tallied windowSecs maxSources window bySource log)
    {next : Nat} (hle : window ≤ next) :
    Tallied windowSecs maxSources next (compactSourceWindowsIfNeeded next windowSecs maxSources bySource) log := by
  have hlen : (bySource.filter fun e => next - windowSecs ≤ e.2.windowStartSecs).length
      ≤ min (maxSources + 1) usizeMax := by
    have hsub := List.length_filter_le (fun e => decide (next - windowSecs ≤ e.2.windowStartSecs)) bySource
    have hall := h.length_le
    omega
  rw [compact_eq hlen]
  have hkeys : ((bySource.filter fun e => next - windowSecs ≤ e.2.windowStartSecs).map (·.1)).Nodup :=
    (List.filter_sublist.map _).nodup h.keys
  have hregular : (regularEntries (bySource.filter fun e => next - windowSecs ≤ e.2.windowStartSecs)).length
      ≤ (regularEntries bySource).length := (List.filter_sublist.filter _).length_le
  have hfresh : ∀ e ∈ bySource.filter fun e => next - windowSecs ≤ e.2.windowStartSecs,
      next - windowSecs ≤ e.2.windowStartSecs ∧ e.2.windowStartSecs ≤ next := fun e he => by
    obtain ⟨hm, hnew⟩ := List.mem_filter.mp he
    exact ⟨by simpa using hnew, Nat.le_trans (h.fresh e hm).2 hle⟩
  have hpast : ∀ v ∈ log, v.window ≤ next := fun v hv => Nat.le_trans (h.past v hv) hle
  rcases Nat.eq_or_lt_of_le hle with rfl | hlt
  · -- Nothing of the same window is old enough to be lost.
    have hsame : (bySource.filter fun e => window - windowSecs ≤ e.2.windowStartSecs) = bySource :=
      List.filter_eq_self.mpr fun e he => decide_eq_true (h.fresh e he).1
    rw [hsame]
    exact h
  · refine ⟨hkeys, Nat.le_trans hregular h.regular, hfresh, hpast, fun bucket => ?_, fun v hv hwindow => ?_⟩
    · rw [usedIn_filter h.keys (fun e he hstart => ?_),
        usedIn_of_older (fun e he hstart => ?_), countedIn_of_older (fun v hv hwindow => ?_), Nat.zero_min]
      · have hpast := h.past v hv
        omega
      · have hfresh := (h.fresh e he).2
        omega
      · have hfresh := (h.fresh e he).2
        omega
    · have hpast := h.past v hv
      omega

theorem Tallied.mem_of_counted (h : Tallied windowSecs maxSources window bySource log) {v : Verdict} (hv : v ∈ log)
    (hwindow : v.window = window) : v.bucket ∈ bySource.map (·.1) := by
  have hused := h.used v.bucket
  have hpos : 0 < Verdict.countedIn v.bucket window log :=
    List.countP_pos_iff.mpr ⟨v, hv, by simp [hwindow]⟩
  have hmax : 0 < usizeMax := by decide
  unfold usedIn at hused
  cases hfind : bySource.find? fun e => e.1 = v.bucket with
  | some e =>
    exact List.mem_map.mpr ⟨e, List.mem_of_find?_eq_some hfind, by simpa using List.find?_some hfind⟩
  | none =>
    rw [hfind] at hused
    simp only at hused
    omega

theorem countedIn_concat (bucket : String) (window : Nat) (log : List Verdict) (v : Verdict) :
    Verdict.countedIn bucket window (log ++ [v])
      = Verdict.countedIn bucket window log + if v.bucket = bucket ∧ v.window = window then 1 else 0 := by
  simp [Verdict.countedIn, List.countP_append, List.countP_singleton]

theorem admittedIn_concat (bucket : String) (window : Nat) (log : List Verdict) (v : Verdict) :
    Verdict.admittedIn bucket window (log ++ [v]) = Verdict.admittedIn bucket window log
      + if v.bucket = bucket ∧ v.window = window ∧ v.admitted = true then 1 else 0 := by
  simp [Verdict.admittedIn, List.countP_append, List.countP_singleton]

/-- How a request of the source is answered in the window. -/
def answer (maxRequests maxSources window : Nat) (bySource : SourceWindows) (source : String) : Verdict where
  source := source
  bucket := effectiveSource maxSources bySource source
  window := window
  admitted := (countRequest (effectiveSource maxSources bySource source) window bySource).1.requestCount ≤ maxRequests

variable (maxSources) in
theorem effectiveSource_cases (hkeys : (bySource.map (·.1)).Nodup) (source : String) :
    effectiveSource maxSources bySource source = source ∧
        (source ∈ bySource.map (·.1) ∨ (regularEntries bySource).length < maxSources) ∨
      effectiveSource maxSources bySource source = codeModeDiagOverflowSourceKey ∧
        source ∉ bySource.map (·.1) ∧ maxSources ≤ (regularEntries bySource).length := by
  by_cases hmem : source ∈ bySource.map (·.1)
  · exact .inl ⟨effectiveSource_of_mem hmem, .inl hmem⟩
  · rw [effectiveSource_of_not_mem hkeys hmem]
    split_ifs with hfull
    · exact .inr ⟨rfl, hmem, hfull⟩
    · exact .inl ⟨rfl, .inr (by omega)⟩

theorem regularEntries_countRequest (window : Nat) (hkeys : (bySource.map (·.1)).Nodup)
    (hle : (regularEntries bySource).length ≤ maxSources) (source : String) :
    (regularEntries (countRequest (effectiveSource maxSources bySource source) window bySource).2).length
      ≤ maxSources ∧
      (regularEntries bySource).length
        ≤ (regularEntries (countRequest (effectiveSource maxSources bySource source) window bySource).2).length := by
  have hkeys' := keys_countRequest bySource (effectiveSource maxSources bySource source) window
  rw [length_regularEntries_eq (countRequest _ _ _).2, hkeys']
  split_ifs with hmem
  · rw [← length_regularEntries_eq]
    exact ⟨hle, Nat.le_refl _⟩
  · rw [List.filter_append, List.length_append, ← length_regularEntries_eq]
    rcases effectiveSource_cases maxSources hkeys source with ⟨hown, hin | hroom⟩ | ⟨hshared, -, -⟩
    · rw [hown] at hmem
      exact absurd hin hmem
    · have hone := List.length_filter_le (fun k => decide (k ≠ codeModeDiagOverflowSourceKey))
        [effectiveSource maxSources bySource source]
      rw [List.length_singleton] at hone
      omega
    · rw [hshared]
      simp only [ne_eq, not_true_eq_false, decide_false, Bool.false_eq_true, not_false_eq_true,
        List.filter_cons_of_neg, List.filter_nil, List.length_nil]
      omega

/-- **A request of the window** is counted, and the table counts on. -/
theorem Tallied.serve (h : Tallied windowSecs maxSources window bySource log)
    (hf : Fair maxRequests log) (source : String) :
    Tallied windowSecs maxSources window
      (countRequest (effectiveSource maxSources bySource source) window bySource).2
      (log ++ [answer maxRequests maxSources window bySource source]) := by
  obtain ⟨hle, hgrows⟩ := regularEntries_countRequest window h.keys h.regular source
  have hkeys := keys_countRequest bySource (effectiveSource maxSources bySource source) window
  refine ⟨?_, hle, fun e he => ?_, fun v hv => ?_, fun bucket => ?_, fun v hv hwindow hshared => ?_⟩
  · rw [hkeys]
    split_ifs with hmem
    · exact h.keys
    · exact List.nodup_append.mpr ⟨h.keys, List.nodup_singleton _, fun a ha b hb hab =>
        hmem ((List.mem_singleton.mp hb) ▸ hab ▸ ha)⟩
  · rcases mem_countRequest he with hnew | hold
    · omega
    · exact h.fresh e hold
  · rcases List.mem_append.mp hv with hv | hv
    · exact h.past v hv
    · rw [List.mem_singleton.mp hv]
      exact Nat.le_refl _
  · rw [usedIn_countRequest, countedIn_concat, h.used]
    by_cases hb : bucket = effectiveSource maxSources bySource source
    · subst hb
      rw [if_pos rfl, if_pos ⟨rfl, rfl⟩]
      omega
    · rw [if_neg hb, if_neg fun hsame => hb hsame.1.symm, h.used, Nat.add_zero]
  · rcases List.mem_append.mp hv with hv | hv
    · obtain ⟨hout, hfull⟩ := h.full v hv hwindow hshared
      refine ⟨?_, Nat.le_trans hfull hgrows⟩
      rw [hkeys]
      split_ifs with hmem
      · exact hout
      · rw [List.mem_append, List.mem_singleton, not_or]
        refine ⟨hout, fun heq => ?_⟩
        -- The table is full, so the new entry is the shared bucket's.
        rcases effectiveSource_cases maxSources h.keys source with ⟨hown, hin | hroom⟩ | ⟨hother, -, -⟩
        · exact hmem (hown.symm ▸ hin)
        · omega
        · rcases hf.bucket v hv with hb | hb
          · exact hshared hb
          · exact hshared (hb.trans (heq.trans hother).symm)
    · rw [List.mem_singleton.mp hv] at hshared ⊢
      rcases effectiveSource_cases maxSources h.keys source with ⟨hown, -⟩ | ⟨hother, hout, hfull⟩
      · exact absurd hown hshared
      · refine ⟨?_, Nat.le_trans hfull hgrows⟩
        rw [hkeys]
        split_ifs with hmem
        · exact hout
        · rw [List.mem_append, List.mem_singleton, not_or]
          exact ⟨hout, fun heq => hshared heq.symm⟩

/-- **A request of the window** is answered as the limit asks. -/
theorem Fair.serve (hmax : maxRequests < usizeMax) (h : Tallied windowSecs maxSources window bySource log)
    (hf : Fair maxRequests log) (source : String) :
    Fair maxRequests (log ++ [answer maxRequests maxSources window bySource source]) := by
  have hbucket : (answer maxRequests maxSources window bySource source).bucket = source ∨
      (answer maxRequests maxSources window bySource source).bucket = codeModeDiagOverflowSourceKey := by
    rcases effectiveSource_cases maxSources h.keys source with ⟨hown, -⟩ | ⟨hother, -⟩
    · exact .inl hown
    · exact .inr hother
  -- A source that was counted in the window is counted in the same bucket again.
  have hagain : ∀ v ∈ log, v.source = source → v.window = window →
      v.bucket = effectiveSource maxSources bySource source := by
    intro v hv hsource hwindow
    rcases effectiveSource_cases maxSources h.keys source with ⟨hown, hin⟩ | ⟨hother, hout, -⟩
    · by_contra hne
      obtain ⟨hgone, hfull⟩ := h.full v hv hwindow (by rwa [hown, ← hsource] at hne)
      rw [hsource] at hgone
      rcases hin with hin | hroom
      · exact hgone hin
      · omega
    · rcases hf.bucket v hv with hb | hb
      · have hin := h.mem_of_counted hv hwindow
        rw [hb, hsource] at hin
        exact absurd hin hout
      · exact hb.trans hother.symm
  have hcount := countRequest_requestCount bySource (effectiveSource maxSources bySource source) window
  rw [h.used] at hcount
  have hadmit : (answer maxRequests maxSources window bySource source).admitted = true ↔
      Verdict.countedIn (effectiveSource maxSources bySource source) window log < maxRequests := by
    simp only [answer, decide_eq_true_eq, hcount]
    omega
  refine ⟨fun v hv => ?_, fun v hv u hu hsource hwindow => ?_, fun bucket w => ?_, fun l v r hsplit hno => ?_⟩
  · rcases List.mem_append.mp hv with hv | hv
    · exact hf.bucket v hv
    · rw [List.mem_singleton.mp hv]
      exact hbucket
  · rcases List.mem_append.mp hv with hv | hv
    · rcases List.mem_append.mp hu with hu | hu
      · exact hf.single v hv u hu hsource hwindow
      · rw [List.mem_singleton.mp hu] at hsource hwindow ⊢
        exact (hagain v hv hsource.symm hwindow.symm).symm
    · rw [List.mem_singleton.mp hv] at hsource hwindow ⊢
      rcases List.mem_append.mp hu with hu | hu
      · exact hagain u hu hsource hwindow
      · rw [List.mem_singleton.mp hu]
  · rw [admittedIn_concat, countedIn_concat, hf.admitted]
    by_cases hsame : (answer maxRequests maxSources window bySource source).bucket = bucket ∧
        (answer maxRequests maxSources window bySource source).window = w
    · obtain ⟨rfl, rfl⟩ := hsame
      simp only [and_self, true_and, if_true]
      have hadmit' : (answer maxRequests maxSources window bySource source).admitted = true ↔
          Verdict.countedIn (answer maxRequests maxSources window bySource source).bucket
            (answer maxRequests maxSources window bySource source).window log < maxRequests := hadmit
      split_ifs with hyes
      · have hlt := hadmit'.mp hyes
        omega
      · have hge := mt hadmit'.mpr hyes
        omega
    · rw [if_neg hsame, if_neg fun hall => hsame ⟨hall.1, hall.2.1⟩]
      omega
  · rcases List.eq_nil_or_concat r with rfl | ⟨r, x, rfl⟩
    · obtain ⟨rfl, hlast⟩ := List.append_inj' hsplit rfl
      cases hlast
      have hge := mt hadmit.mpr (by rw [hno]; exact Bool.false_ne_true)
      have hadmitted := hf.admitted (effectiveSource maxSources bySource source) window
      change Verdict.admittedIn (effectiveSource maxSources bySource source) window log = maxRequests
      omega
    · rw [List.concat_eq_append, ← List.cons_append, ← List.append_assoc] at hsplit
      exact hf.refused l v r (List.append_inj' hsplit rfl).1 hno

end Steps

/-! ## Runs -/

namespace FixedWindowRateLimiter

variable {limiter : FixedWindowRateLimiter} {rs : List SourceRequest}

theorem exec_fields (limiter : FixedWindowRateLimiter) (r : SourceRequest) :
    (limiter.exec r).windowSecs = limiter.windowSecs ∧ (limiter.exec r).maxRequests = limiter.maxRequests ∧
      (limiter.exec r).maxSources = limiter.maxSources := by
  unfold exec allowAtForSource
  split_ifs
  · exact ⟨rfl, rfl, rfl⟩
  · exact ⟨rfl, rfl, rfl⟩

theorem run_fields (limiter : FixedWindowRateLimiter) (rs : List SourceRequest) :
    (Machine.run exec limiter rs).windowSecs = limiter.windowSecs ∧
      (Machine.run exec limiter rs).maxRequests = limiter.maxRequests ∧
      (Machine.run exec limiter rs).maxSources = limiter.maxSources :=
  Machine.run_invariant' (I := fun l : FixedWindowRateLimiter => l.windowSecs = limiter.windowSecs ∧
      l.maxRequests = limiter.maxRequests ∧ l.maxSources = limiter.maxSources)
    (fun l r h => by
      obtain ⟨hsecs, hmax, hsources⟩ := exec_fields l r
      exact ⟨hsecs.trans h.1, hmax.trans h.2.1, hsources.trans h.2.2⟩) ⟨rfl, rfl, rfl⟩

theorem serve_eq (limiter : FixedWindowRateLimiter) (h : limiter.maxRequests ≠ 0) (r : SourceRequest) :
    (limiter.exec r).bySource = (countRequest
        (effectiveSource limiter.maxSources (limiter.windows r.nowSecs) (normalizeSourceKey r.sourceKey))
        (activeWindowStart r.nowSecs limiter.windowSecs) (limiter.windows r.nowSecs)).2 ∧
      limiter.verdict r = answer limiter.maxRequests limiter.maxSources (activeWindowStart r.nowSecs limiter.windowSecs)
        (limiter.windows r.nowSecs) (normalizeSourceKey r.sourceKey) := by
  unfold exec verdict allowAtForSource
  rw [if_neg h]
  exact ⟨rfl, rfl⟩

theorem verdicts_concat (limiter : FixedWindowRateLimiter) (rs : List SourceRequest) (r : SourceRequest) :
    limiter.verdicts (rs ++ [r]) = limiter.verdicts rs ++ [(Machine.run exec limiter rs).verdict r] := by
  rw [verdicts, Machine.collect_append]
  rfl

/-- **What a run keeps**: at any later time the table holds the counts, and the answers keep to the limit. -/
theorem counted_run (windowSecs : Nat) {maxRequests : Nat} (hpos : 1 ≤ maxRequests) (hmax : maxRequests < usizeMax)
    (hclock : rs.Pairwise fun a b => a.nowSecs ≤ b.nowSecs) (now : Nat) (hnow : ∀ r ∈ rs, r.nowSecs ≤ now) :
    Tallied (max windowSecs 1) 4096 (activeWindowStart now (max windowSecs 1))
        ((Machine.run exec (new windowSecs maxRequests) rs).windows now) ((new windowSecs maxRequests).verdicts rs) ∧
      Fair maxRequests ((new windowSecs maxRequests).verdicts rs) := by
  have hcap : 4096 < usizeMax := by decide
  induction rs using List.reverseRecOn generalizing now with
  | nil => exact ⟨counted_nil _ _ _, fair_nil _⟩
  | append_singleton rs r ih =>
    obtain ⟨hclock, -, hlast⟩ := List.pairwise_append.mp hclock
    obtain ⟨hcounted, hfair⟩ := ih hclock r.nowSecs fun x hx => hlast x hx r (List.mem_singleton_self r)
    obtain ⟨hsecs, hlimit, hsources⟩ := run_fields (new windowSecs maxRequests) rs
    obtain ⟨htable, hverdict⟩ := serve_eq (Machine.run exec (new windowSecs maxRequests) rs)
      (by rw [hlimit]; exact Nat.one_le_iff_ne_zero.mp hpos) r
    rw [hsecs, hlimit, hsources] at hverdict
    rw [hsecs, hsources] at htable
    rw [Machine.run_concat, verdicts_concat, hverdict]
    obtain ⟨hsecs', -, hsources'⟩ := exec_fields (Machine.run exec (new windowSecs maxRequests) rs) r
    refine ⟨?_, hfair.serve hmax hcounted _⟩
    rw [windows, hsecs', hsources', hsecs, hsources, htable]
    exact (hcounted.serve hfair _).advance hcap
      (activeWindowStart_mono (hnow r (List.mem_append_right _ (List.mem_singleton_self r))))

theorem mem_verdicts {v : Verdict} (hv : v ∈ limiter.verdicts rs) :
    ∃ l : FixedWindowRateLimiter, ∃ r ∈ rs, v = l.verdict r ∧ l.windowSecs = limiter.windowSecs ∧
      l.maxRequests = limiter.maxRequests := by
  induction rs using List.reverseRecOn with
  | nil => cases hv
  | append_singleton rs r ih =>
    rw [verdicts_concat] at hv
    rcases List.mem_append.mp hv with hv | hv
    · obtain ⟨l, x, hx, h⟩ := ih hv
      exact ⟨l, x, List.mem_append_left _ hx, h⟩
    · obtain ⟨hsecs, hlimit, -⟩ := run_fields limiter rs
      exact ⟨_, r, List.mem_append_right _ (List.mem_singleton_self r), List.mem_singleton.mp hv, hsecs, hlimit⟩

theorem length_verdicts (limiter : FixedWindowRateLimiter) (rs : List SourceRequest) :
    (limiter.verdicts rs).length = rs.length := by
  induction rs using List.reverseRecOn with
  | nil => rfl
  | append_singleton rs r ih =>
    rw [verdicts_concat, List.length_append, List.length_append, ih, List.length_singleton, List.length_singleton]

theorem length_bySource_run {windowSecs maxRequests : Nat} (hpos : 1 ≤ maxRequests) (hmax : maxRequests < usizeMax)
    (hclock : rs.Pairwise fun a b => a.nowSecs ≤ b.nowSecs) :
    (Machine.run exec (new windowSecs maxRequests) rs).bySource.length
      ≤ (new windowSecs maxRequests).maxSources + 1 := by
  cases rs using List.reverseRecOn with
  | nil => exact Nat.zero_le _
  | append_singleton rs r =>
    obtain ⟨hclock, -, hlast⟩ := List.pairwise_append.mp hclock
    obtain ⟨hcounted, hfair⟩ := counted_run windowSecs hpos hmax hclock r.nowSecs
      fun x hx => hlast x hx r (List.mem_singleton_self r)
    obtain ⟨hsecs, hlimit, hsources⟩ := run_fields (new windowSecs maxRequests) rs
    obtain ⟨htable, -⟩ := serve_eq (Machine.run exec (new windowSecs maxRequests) rs)
      (by rw [hlimit]; exact Nat.one_le_iff_ne_zero.mp hpos) r
    rw [hsecs, hsources] at htable
    rw [Machine.run_concat, htable]
    exact (hcounted.serve hfair _).length_le

end FixedWindowRateLimiter

open FixedWindowRateLimiter

/-- **The limit on every source.** Below `usize::MAX`, whatever the width of the window and the sources, and
while the clock does not go back: a source is admitted at most as often as the limit says in a window, it is
counted in one bucket there, the table stays within its bound, and a request is refused only when its bucket,
the source's own or the shared one, has admitted as many as the limit in the window. -/
theorem rate_limited (windowSecs maxRequests : Nat) (rs : List SourceRequest) (hpos : 1 ≤ maxRequests)
    (hmax : maxRequests < usizeMax) (hclock : rs.Pairwise fun a b => a.nowSecs ≤ b.nowSecs) :
    (∀ source window,
      Verdict.admittedFrom source window ((new windowSecs maxRequests).verdicts rs) ≤ maxRequests) ∧
    (∀ v ∈ (new windowSecs maxRequests).verdicts rs, ∀ u ∈ (new windowSecs maxRequests).verdicts rs,
      u.source = v.source → u.window = v.window → u.bucket = v.bucket) ∧
    (Machine.run exec (new windowSecs maxRequests) rs).bySource.length
      ≤ (new windowSecs maxRequests).maxSources + 1 ∧
    ∀ l v r, (new windowSecs maxRequests).verdicts rs = l ++ v :: r → v.admitted = false →
      (v.bucket = v.source ∨ v.bucket = codeModeDiagOverflowSourceKey) ∧
        Verdict.admittedIn v.bucket v.window l = maxRequests := by
  have hsum : ∀ r ∈ rs, r.nowSecs ≤ (rs.map (·.nowSecs)).sum := fun r hr =>
    List.single_le_sum (fun _ _ => Nat.zero_le _) _ (List.mem_map_of_mem hr)
  obtain ⟨-, hfair⟩ := counted_run windowSecs hpos hmax hclock _ hsum
  refine ⟨fun source window => ?_, hfair.single, length_bySource_run hpos hmax hclock, fun l v r hsplit hno => ?_⟩
  · by_cases hsome : ∃ v ∈ (new windowSecs maxRequests).verdicts rs, v.source = source ∧ v.window = window
    · obtain ⟨v, hv, hsource, hwindow⟩ := hsome
      have hle : Verdict.admittedFrom source window ((new windowSecs maxRequests).verdicts rs)
          ≤ Verdict.admittedIn v.bucket window ((new windowSecs maxRequests).verdicts rs) := by
        refine List.countP_mono_left fun u hu hadmitted => ?_
        simp only [decide_eq_true_eq] at hadmitted ⊢
        exact ⟨hfair.single v hv u hu (hadmitted.1.trans hsource.symm) (hadmitted.2.1.trans hwindow.symm),
          hadmitted.2⟩
      rw [hfair.admitted] at hle
      omega
    · have hnone : Verdict.admittedFrom source window ((new windowSecs maxRequests).verdicts rs) = 0 := by
        rw [Verdict.admittedFrom, List.countP_eq_zero]
        intro v hv hadmitted
        simp only [decide_eq_true_eq] at hadmitted
        exact hsome ⟨v, hv, hadmitted.1, hadmitted.2.1⟩
      rw [hnone]
      exact Nat.zero_le _
  · exact ⟨hfair.bucket v (hsplit ▸ List.mem_append_right _ List.mem_cons_self), hfair.refused l v r hsplit hno⟩

namespace Sample

/-- Three requests of one source in a minute, and one in the next. -/
def hasty : List SourceRequest :=
  [⟨120, "198.51.100.1"⟩, ⟨121, "198.51.100.1"⟩, ⟨122, "198.51.100.1"⟩, ⟨180, "198.51.100.1"⟩]

end Sample

theorem rate_limited_hasty :
    ((new 60 2).verdicts Sample.hasty).map (·.admitted) = [true, true, false, true] ∧
    ∀ source window, Verdict.admittedFrom source window ((new 60 2).verdicts Sample.hasty) ≤ 2 :=
  ⟨by decide +kernel, (rate_limited 60 2 Sample.hasty (by decide) (by decide) (by decide)).1⟩

/-- At the largest limit the counter saturates: `usize::MAX + 1` requests of one source are all admitted within
one window. -/
theorem unlimited_at_max :
    1 ≤ usizeMax ∧
    (List.replicate (2 ^ 64) (⟨0, "a"⟩ : SourceRequest)).Pairwise (fun a b => a.nowSecs ≤ b.nowSecs) ∧
    ¬ Verdict.admittedFrom "a" 0 ((new 60 usizeMax).verdicts (List.replicate (2 ^ 64) ⟨0, "a"⟩)) ≤ usizeMax := by
  refine ⟨by decide, List.pairwise_replicate.mpr (.inr (Nat.le_refl _)), ?_⟩
  have hall : ∀ v ∈ (new 60 usizeMax).verdicts (List.replicate (2 ^ 64) ⟨0, "a"⟩),
      v.source = "a" ∧ v.window = 0 ∧ v.admitted = true := by
    intro v hv
    obtain ⟨l, r, hr, rfl, hsecs, hlimit⟩ := mem_verdicts hv
    obtain rfl := List.eq_of_mem_replicate hr
    obtain ⟨-, hverdict⟩ := serve_eq l (by rw [hlimit]; decide) ⟨0, "a"⟩
    rw [hverdict, hsecs, hlimit]
    have hsource : normalizeSourceKey "a" = "a" := by decide +kernel
    have hwindow : activeWindowStart 0 (new 60 usizeMax).windowSecs = 0 := by decide
    refine ⟨hsource, hwindow, decide_eq_true ?_⟩
    rw [countRequest_requestCount]
    exact Nat.min_le_right _ _
  have hcount : Verdict.admittedFrom "a" 0 ((new 60 usizeMax).verdicts (List.replicate (2 ^ 64) ⟨0, "a"⟩))
      = 2 ^ 64 := by
    rw [Verdict.admittedFrom, List.countP_eq_length.mpr fun v hv => decide_eq_true (hall v hv), length_verdicts,
      List.length_replicate]
  rw [hcount]
  decide

end Xiaomaolv
