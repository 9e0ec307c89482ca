import Xiaomaolv.Lib.Table
import Xiaomaolv.Loop.Domain
import Xiaomaolv.Loop.Json
import Xiaomaolv.Loop.Store
import Mathlib.Data.Fintype.Card
import Mathlib.Data.List.Sort
import Mathlib.Order.Fin.Basic

/-!
# Trajectory frames and their structural replay

The provider calls of a trajectory are recorded as frames, each with the hashes of its request and its response. A
structural replay walks the frames in order and checks their numbers and their hashes.

* `FrameTable`: the recorded frames, one for each trajectory and call index; `recordTrajectoryFrame`.
* `runStructuralReplay`: the replay, with one case for each frame.
* `Intact`: the hashes of a frame are those of its content; `record_intact`: a recorded frame is intact.
* `le_callIndex`: a frame is never numbered below its place.
* **`structural_replay_iff`**: a trajectory with frames passes exactly when its frames are numbered from 0 without
  a gap and are intact, and its first failed case is the first number without an intact frame.
* `replay_recorded`: among frames that were all recorded, only their numbers matter.
-/

namespace Xiaomaolv

/-! ## The frames -/

inductive TrajectoryFrameCapture
  | full
  | redacted
  | truncated
deriving DecidableEq

structure TrajectoryFrameDraft where
  trajectoryId : String
  callIndex : UInt32
  model : String
  providerFingerprint : String
  requestMessages : List StoredMessage
  requestWasJson : Bool
  response : String
  capture : TrajectoryFrameCapture

structure TrajectoryFrame where
  id : String
  trajectoryId : String
  callIndex : UInt32
  model : String
  providerFingerprint : String
  requestMessages : List StoredMessage
  requestWasJson : Bool
  requestHash : String
  response : String
  responseHash : String
  capture : TrajectoryFrameCapture
deriving DecidableEq

/-- A message as `serde_json` writes it. -/
def StoredMessage.value (msg : StoredMessage) : Value :=
  .json [("role", .string msg.role.asStr), ("content", .string msg.content)]

def TrajectoryFrameDraft.validate (draft : TrajectoryFrameDraft) : Except String Unit := do
  ensure (!isBlank draft.trajectoryId && byteLen draft.trajectoryId ≤ 160) "trajectory id must be 1..=160 bytes"
  ensure (draft.callIndex ≤ 1024) "provider call index cannot exceed 1024"
  ensure (!isBlank draft.model && byteLen draft.model ≤ 200) "model must be 1..=200 bytes"
  ensure (!isBlank draft.providerFingerprint && byteLen draft.providerFingerprint ≤ 300)
    "provider fingerprint must be 1..=300 bytes"
  ensure (!draft.requestMessages.isEmpty && draft.requestMessages.length ≤ 256)
    "trajectory frame must contain 1..=256 request messages"
  ensure ((Value.array (.ofList (draft.requestMessages.map StoredMessage.value))).jsonLen ≤ 131072)
    "trajectory frame request cannot exceed 131072 bytes"
  ensure (byteLen draft.response ≤ 262144) "trajectory frame response cannot exceed 262144 bytes"

/-- `hash_serializable` of a request, with its flag, and of a response. -/
structure FrameHash where
  request : List StoredMessage → Bool → String
  response : String → String

/-- `harness_trajectory_frames`. -/
structure FrameTable where
  frames : List TrajectoryFrame
  ids : (frames.map (·.id)).Nodup
  keys : (frames.map fun f => (f.trajectoryId, f.callIndex)).Nodup

section

variable (hash : FrameHash)

/-- The frame of a draft. -/
def TrajectoryFrameDraft.frame (draft : TrajectoryFrameDraft) (id : String) : TrajectoryFrame where
  id := id
  trajectoryId := draft.trajectoryId
  callIndex := draft.callIndex
  model := draft.model
  providerFingerprint := draft.providerFingerprint
  requestMessages := draft.requestMessages
  requestWasJson := draft.requestWasJson
  requestHash := hash.request draft.requestMessages draft.requestWasJson
  response := draft.response
  responseHash := hash.response draft.response
  capture := draft.capture

/-- `INSERT INTO harness_trajectory_frames`. -/
def FrameTable.insert (table : FrameTable) (frame : TrajectoryFrame) : Except String FrameTable :=
  if hid : ∃ f ∈ table.frames, f.id = frame.id then .error (uniqueFailed "harness_trajectory_frames.id")
  else if hkey : ∃ f ∈ table.frames, (f.trajectoryId, f.callIndex) = (frame.trajectoryId, frame.callIndex) then
    .error (uniqueFailed "harness_trajectory_frames.trajectory_id")
  else .ok ⟨table.frames ++ [frame], Table.nodup_concat table.ids fun f hf h => hid ⟨f, hf, h⟩,
    Table.nodup_concat table.keys fun f hf h => hkey ⟨f, hf, h⟩⟩

/-- `record_trajectory_frame` of the engine. -/
def recordTrajectoryFrame (draft : TrajectoryFrameDraft) (actor id : String) (table : FrameTable) :
    Except String (TrajectoryFrame × FrameTable) := do
  draft.validate
  validateActor actor
  match table.frames.find? fun f => f.trajectoryId = draft.trajectoryId ∧ f.callIndex = draft.callIndex with
  | some existing =>
    ensure (existing.requestHash = hash.request draft.requestMessages draft.requestWasJson ∧
        existing.responseHash = hash.response draft.response)
      "provider call index was already recorded with different content"
    pure (existing, table)
  | none =>
    let table ← table.insert (draft.frame hash id)
    pure (draft.frame hash id, table)

/-- A call of `record_trajectory_frame`, with the id that it would give a new frame. -/
structure Recording where
  draft : TrajectoryFrameDraft
  actor : String
  id : String

/-- The table after a recording, which may be rejected. -/
def FrameTable.after (table : FrameTable) (rec : Recording) : FrameTable :=
  match recordTrajectoryFrame hash rec.draft rec.actor rec.id table with
  | .ok (_, table') => table'
  | .error _ => table

/-- The table after recordings one after another. -/
def FrameTable.recordAll (table : FrameTable) (recs : List Recording) : FrameTable :=
  recs.foldl (FrameTable.after hash) table

/-! ## The replay -/

inductive ReplayStatus
  | passed
  | failed
deriving DecidableEq

structure ReplayCaseResult where
  frameId : String
  callIndex : UInt32
  passed : Bool
  details : String
deriving DecidableEq

structure ReplayRun where
  id : String
  trajectoryId : String
  status : ReplayStatus
  exactReplayable : Bool
  liveToolsExecuted : Nat
  cases : List ReplayCaseResult
deriving DecidableEq

/-- `ORDER BY call_index`. -/
def Earlier (f g : TrajectoryFrame) : Prop := f.callIndex ≤ g.callIndex

instance : DecidableRel Earlier := fun f g => inferInstanceAs (Decidable (f.callIndex ≤ g.callIndex))

def FrameTable.listFrames (table : FrameTable) (trajectoryId : String) : List TrajectoryFrame :=
  (table.frames.filter fun f => f.trajectoryId = trajectoryId).insertionSort Earlier

/-- The case of a frame at a place. -/
def replayCase (expectedIndex : Nat) (frame : TrajectoryFrame) : ReplayCaseResult :=
  let requestMatches := hash.request frame.requestMessages frame.requestWasJson = frame.requestHash
  let responseMatches := hash.response frame.response = frame.responseHash
  let ordered := frame.callIndex.toNat = expectedIndex
  let passed := ordered ∧ requestMatches ∧ responseMatches
  { frameId := frame.id
    callIndex := frame.callIndex
    passed := passed
    details :=
      if passed then "frame hashes and order are intact; no live tools executed"
      else "ordered=" ++ toString (decide ordered) ++ ", request_hash_valid=" ++ toString (decide requestMatches) ++
        ", response_hash_valid=" ++ toString (decide responseMatches) }

/-- The loop over the frames, with the place of the first of them. -/
def replayCases : Nat → List TrajectoryFrame → Except String (List ReplayCaseResult)
  | _, [] => .ok []
  | place, frame :: frames => do
    ensure (place < 2 ^ 32) "too many replay frames"
    let rest ← replayCases (place + 1) frames
    pure (replayCase hash place frame :: rest)

/-- `run_structural_replay` of the engine, with the runs that are stored. -/
def runStructuralReplay (trajectoryId actor id : String) (table : FrameTable) (runs : List ReplayRun) :
    Except String (ReplayRun × List ReplayRun) := do
  validateActor actor
  let frames := table.listFrames trajectoryId
  ensure (!frames.isEmpty) "trajectory has no provider frames"
  let fingerprint := (frames.head?.map (·.providerFingerprint)).getD ""
  let exactReplayable := frames.all fun f => f.capture = .full ∧ f.providerFingerprint = fingerprint
  let cases ← replayCases hash 0 frames
  let status := if cases.all (·.passed) then ReplayStatus.passed else .failed
  let run : ReplayRun := { id, trajectoryId, status, exactReplayable, liveToolsExecuted := 0, cases }
  let runs ← Table.insertRow (fun r => r.id = id) (uniqueFailed "harness_replay_runs.id") run runs
  pure (run, runs)

end

/-! ## What is recorded -/

section

variable {hash : FrameHash} {table table' : FrameTable} {frame : TrajectoryFrame} {trajectoryId actor id : String}

/-- The hashes of a frame are those of its content. -/
def Intact (hash : FrameHash) (frame : TrajectoryFrame) : Prop :=
  hash.request frame.requestMessages frame.requestWasJson = frame.requestHash ∧
    hash.response frame.response = frame.responseHash

theorem insert_frames (h : table.insert frame = .ok table') : table'.frames = table.frames ++ [frame] := by
  unfold FrameTable.insert at h
  split_ifs at h
  exact congrArg FrameTable.frames (Except.ok.inj h).symm

theorem record_intact (hall : ∀ f ∈ table.frames, Intact hash f) (rec : Recording) :
    ∀ f ∈ (table.after hash rec).frames, Intact hash f := by
  unfold FrameTable.after
  rcases hrec : recordTrajectoryFrame hash rec.draft rec.actor rec.id table with _ | ⟨frame, table'⟩
  · exact hall
  · dsimp only
    unfold recordTrajectoryFrame at hrec
    simp only [bind_eq_ok] at hrec
    obtain ⟨⟨⟩, -, ⟨⟩, -, hrec⟩ := hrec
    split at hrec
    · simp only [bind_eq_ok, pure_eq_ok, Prod.mk.injEq] at hrec
      obtain ⟨⟨⟩, -, -, rfl⟩ := hrec
      exact hall
    · simp only [bind_eq_ok, pure_eq_ok, Prod.mk.injEq] at hrec
      obtain ⟨_, hinsert, -, rfl⟩ := hrec
      intro f hf
      rw [insert_frames hinsert, List.mem_append, List.mem_singleton] at hf
      rcases hf with hf | rfl
      · exact hall f hf
      · exact ⟨rfl, rfl⟩

theorem recordAll_intact : ∀ (recs : List Recording) {table : FrameTable}, (∀ f ∈ table.frames, Intact hash f) →
    ∀ f ∈ (table.recordAll hash recs).frames, Intact hash f
  | [], _, h => h
  | rec :: recs, _, h => recordAll_intact recs (record_intact h rec)

/-! ## The listed frames -/

theorem mem_listFrames : frame ∈ table.listFrames trajectoryId ↔
    frame ∈ table.frames ∧ frame.trajectoryId = trajectoryId := by
  rw [FrameTable.listFrames, List.mem_insertionSort, List.mem_filter, decide_eq_true_eq]

theorem listFrames_sorted : (table.listFrames trajectoryId).Pairwise fun f g => f.callIndex < g.callIndex := by
  have htotal : Std.Total Earlier := ⟨fun f g => UInt32.le_total f.callIndex g.callIndex⟩
  have htrans : IsTrans TrajectoryFrame Earlier := ⟨fun f g k => UInt32.le_trans⟩
  have hsorted : (table.listFrames trajectoryId).Pairwise Earlier := List.pairwise_insertionSort _ _
  have hnodup : (table.listFrames trajectoryId).Nodup :=
    (List.perm_insertionSort _ _).nodup_iff.mpr ((table.ids.of_map _).filter _)
  refine (hsorted.and hnodup).imp_of_mem fun {f g} hf hg h => ?_
  refine UInt32.lt_of_le_of_ne h.1 fun heq => h.2 ?_
  obtain ⟨hf, hft⟩ := mem_listFrames.mp hf
  obtain ⟨hg, hgt⟩ := mem_listFrames.mp hg
  exact Table.eq_of_key_eq table.keys hf hg (by rw [hft, hgt, heq])

theorem le_callIndex {frames : List TrajectoryFrame} (h : frames.Pairwise fun f g => f.callIndex < g.callIndex) :
    ∀ {i : Nat} (hi : i < frames.length), i ≤ frames[i].callIndex.toNat
  | 0, _ => Nat.zero_le _
  | i + 1, hi => by
    have hbefore := le_callIndex h (i := i) (by omega)
    have hnext := List.pairwise_iff_getElem.mp h i (i + 1) (by omega) hi (by omega)
    rw [UInt32.lt_iff_toNat_lt] at hnext
    omega

/-! ## The walk over the frames -/

/-- Some frame has the number, and is intact. -/
def IntactAt (hash : FrameHash) (frames : List TrajectoryFrame) (n : Nat) : Prop :=
  ∃ f ∈ frames, f.callIndex.toNat = n ∧ Intact hash f

/-- The frame at a place passes its case. -/
def PassesAt (hash : FrameHash) (frames : List TrajectoryFrame) (n : Nat) : Prop :=
  ∃ f, frames[n]? = some f ∧ (replayCase hash n f).passed = true

/-- The frames are numbered from 0 without a gap. -/
def Contiguous (frames : List TrajectoryFrame) : Prop :=
  ∀ n, (∃ f ∈ frames, f.callIndex.toNat = n) ↔ n < frames.length

theorem passed_iff {n : Nat} : (replayCase hash n frame).passed = true ↔
    frame.callIndex.toNat = n ∧ Intact hash frame := by
  simp [replayCase, Intact]

variable (hash) in
theorem replayCases_ok (frames : List TrajectoryFrame) {place : Nat} (h : place + frames.length ≤ 2 ^ 32) :
    replayCases hash place frames = .ok (frames.mapIdx fun i f => replayCase hash (place + i) f) := by
  induction frames generalizing place with
  | nil => rfl
  | cons frame frames ih =>
    rw [List.length_cons] at h
    have hplace : place < 2 ^ 32 := by omega
    rw [replayCases, ih (by omega), List.mapIdx_cons]
    simp only [ensure, hplace, decide_true, if_true, Nat.add_zero]
    have hshift : (fun i f => replayCase hash (place + 1 + i) f) = fun i f => replayCase hash (place + (i + 1)) f := by
      funext i f
      rw [Nat.add_assoc, Nat.add_comm 1 i]
    rw [hshift]
    rfl

section Walk

variable {frames : List TrajectoryFrame} (hsorted : frames.Pairwise fun f g => f.callIndex < g.callIndex)

include hsorted

theorem length_frames_le : frames.length ≤ 2 ^ 32 := by
  by_contra hlong
  have hin : frames.length - 1 < frames.length := by omega
  have hlast := le_callIndex hsorted hin
  have hbound := frames[frames.length - 1].callIndex.toNat_lt
  omega

theorem passesAt_iff {n : Nat} (hn : n < frames.length) (hbefore : ∀ m < n, PassesAt hash frames m) :
    PassesAt hash frames n ↔ IntactAt hash frames n := by
  have hget : frames[n]? = some frames[n] := List.getElem?_eq_getElem hn
  constructor
  · rintro ⟨f, hf, hpassed⟩
    obtain ⟨hnumber, hintact⟩ := passed_iff.mp hpassed
    exact ⟨f, List.mem_of_getElem? hf, hnumber, hintact⟩
  · rintro ⟨f, hf, hnumber, hintact⟩
    obtain ⟨p, hp, rfl⟩ := List.getElem_of_mem hf
    -- An earlier place has another number, and a later one a larger number than the frame at `n`.
    have hnot : ¬ p < n := by
      intro hlt
      obtain ⟨g, hg, hpassed⟩ := hbefore p hlt
      rw [List.getElem?_eq_getElem hp, Option.some.injEq] at hg
      have hnumber' := (passed_iff.mp hpassed).1
      rw [← hg] at hnumber'
      omega
    have hlow := le_callIndex hsorted hn
    have hsame : p = n := by
      by_contra hne
      have hlt := List.pairwise_iff_getElem.mp hsorted n p hn hp (by omega)
      rw [UInt32.lt_iff_toNat_lt] at hlt
      omega
    subst hsame
    exact ⟨frames[p], hget, passed_iff.mpr ⟨hnumber, hintact⟩⟩

theorem passes_upTo_iff : ∀ {n : Nat}, n ≤ frames.length →
    ((∀ m < n, PassesAt hash frames m) ↔ ∀ m < n, IntactAt hash frames m)
  | 0, _ => by simp
  | n + 1, hn => by
    have ih := passes_upTo_iff (n := n) (by omega)
    constructor
    · intro h m hm
      have hbefore : ∀ k < m, PassesAt hash frames k := fun k hk => h k (by omega)
      exact (passesAt_iff hsorted (by omega) hbefore).mp (h m hm)
    · intro h m hm
      have hbefore : ∀ k < n, PassesAt hash frames k := ih.mpr fun k hk => h k (by omega)
      rcases Nat.lt_succ_iff_lt_or_eq.mp hm with hlt | rfl
      · exact hbefore m hlt
      · exact (passesAt_iff hsorted (by omega) hbefore).mpr (h m hm)

theorem passes_all_iff : (∀ m < frames.length, PassesAt hash frames m) ↔
    Contiguous frames ∧ ∀ f ∈ frames, Intact hash f := by
  constructor
  · intro h
    have hplace : ∀ f ∈ frames, f.callIndex.toNat < frames.length ∧ Intact hash f := by
      intro f hf
      obtain ⟨p, hp, rfl⟩ := List.getElem_of_mem hf
      obtain ⟨g, hg, hpassed⟩ := h p hp
      rw [List.getElem?_eq_getElem hp, Option.some.injEq] at hg
      obtain ⟨hnumber, hintact⟩ := passed_iff.mp (hg ▸ hpassed)
      exact ⟨by omega, hintact⟩
    refine ⟨fun n => ⟨?_, fun hn => ?_⟩, fun f hf => (hplace f hf).2⟩
    · rintro ⟨f, hf, rfl⟩
      exact (hplace f hf).1
    · obtain ⟨f, hf, hpassed⟩ := h n hn
      exact ⟨f, List.mem_of_getElem? hf, (passed_iff.mp hpassed).1⟩
  · rintro ⟨hcontiguous, hintact⟩
    refine (passes_upTo_iff hsorted (Nat.le_refl _)).mpr fun m hm => ?_
    obtain ⟨f, hf, hnumber⟩ := (hcontiguous m).mpr hm
    exact ⟨f, hf, hnumber, hintact f hf⟩

end Walk

/-! ## The verdict -/

theorem passed_getElem {frames : List TrajectoryFrame} {n : Nat}
    (hn : n < (frames.mapIdx fun i f => replayCase hash (0 + i) f).length) :
    ((frames.mapIdx fun i f => replayCase hash (0 + i) f)[n]).passed = true ↔ PassesAt hash frames n := by
  have hlen : n < frames.length := by simpa using hn
  rw [List.getElem_mapIdx, Nat.zero_add]
  constructor
  · intro h
    exact ⟨_, List.getElem?_eq_getElem hlen, h⟩
  · rintro ⟨f, hf, hpassed⟩
    rw [List.getElem?_eq_getElem hlen, Option.some.injEq] at hf
    exact hf ▸ hpassed

variable (hash) in
theorem runStructuralReplay_ok {runs : List ReplayRun} (hactor : validateActor actor = .ok ())
    (hfresh : ∀ r ∈ runs, r.id ≠ id) (hframes : table.listFrames trajectoryId ≠ []) :
    ∃ run, runStructuralReplay hash trajectoryId actor id table runs = .ok (run, runs ++ [run]) ∧
      run.cases = (table.listFrames trajectoryId).mapIdx (fun i f => replayCase hash (0 + i) f) ∧
      run.status = if run.cases.all (·.passed) then .passed else .failed := by
  have hcases : replayCases hash 0 (table.listFrames trajectoryId) = _ :=
    replayCases_ok hash _ (by rw [Nat.zero_add]; exact length_frames_le listFrames_sorted)
  have hnonempty : (!(table.listFrames trajectoryId).isEmpty) = true := by simpa using hframes
  have hclash : runs.any (fun r => r.id = id) = false := by simpa using hfresh
  unfold runStructuralReplay
  simp only [hactor, hnonempty, hcases, ensure, if_true, Table.insertRow, hclash, Bool.false_eq_true, if_false]
  exact ⟨_, rfl, rfl, rfl⟩

/-- **A trajectory with frames passes its structural replay** exactly when its frames are numbered from 0 without
a gap and are intact; its first failed case is the first number without an intact frame. A trajectory without
frames is refused. -/
theorem structural_replay_iff (table : FrameTable) (recs : List Recording) {runs : List ReplayRun}
    (hactor : validateActor actor = .ok ()) (hfresh : ∀ r ∈ runs, r.id ≠ id) :
    let frames := (table.recordAll hash recs).listFrames trajectoryId
    (frames = [] → runStructuralReplay hash trajectoryId actor id (table.recordAll hash recs) runs =
        .error "trajectory has no provider frames") ∧
      (frames ≠ [] → ∃ run,
        runStructuralReplay hash trajectoryId actor id (table.recordAll hash recs) runs = .ok (run, runs ++ [run]) ∧
          (run.status = .passed ↔ Contiguous frames ∧ ∀ f ∈ frames, Intact hash f) ∧
          ∀ n, run.cases.findIdx? (fun c => !c.passed) = some n ↔
            n < frames.length ∧ ¬ IntactAt hash frames n ∧ ∀ m < n, IntactAt hash frames m) := by
  intro frames
  constructor
  · intro hnone
    have hempty : (table.recordAll hash recs).listFrames trajectoryId = [] := hnone
    unfold runStructuralReplay
    rw [hactor, hempty]
    rfl
  · intro hframes
    have hsorted : frames.Pairwise fun f g => f.callIndex < g.callIndex := listFrames_sorted
    obtain ⟨run, hrun, hcases, hstatus⟩ := runStructuralReplay_ok hash hactor hfresh hframes
    have hlen : run.cases.length = frames.length := by rw [hcases, List.length_mapIdx]
    have hplace : ∀ n (hn : n < run.cases.length), (run.cases[n]).passed = true ↔ PassesAt hash frames n := by
      intro n hn
      simp only [hcases] at hn ⊢
      exact passed_getElem hn
    refine ⟨run, hrun, ?_, fun n => ?_⟩
    · rw [← passes_all_iff hsorted, hstatus]
      have hall : run.cases.all (·.passed) = true ↔ ∀ m < frames.length, PassesAt hash frames m := by
        rw [List.all_eq_true, ← hlen]
        constructor
        · intro h m hm
          exact (hplace m hm).mp (h _ (List.getElem_mem hm))
        · intro h c hc
          obtain ⟨m, hm, rfl⟩ := List.getElem_of_mem hc
          exact (hplace m hm).mpr (h m hm)
      rw [← hall]
      by_cases h : run.cases.all (·.passed) = true
      · simp [h]
      · simp [h]
    · rw [List.findIdx?_eq_some_iff_getElem]
      constructor
      · rintro ⟨hn, hfails, hbefore⟩
        have hpasses : ∀ m < n, PassesAt hash frames m := by
          intro m hm
          have h := hbefore m hm
          exact (hplace m (by omega)).mp (by simpa using h)
        refine ⟨hlen ▸ hn, ?_, (passes_upTo_iff hsorted (by omega)).mp hpasses⟩
        rw [← passesAt_iff hsorted (by omega) hpasses, ← hplace n hn]
        simpa using hfails
      · rintro ⟨hn, hfails, hbefore⟩
        have hpasses : ∀ m < n, PassesAt hash frames m := (passes_upTo_iff hsorted (by omega)).mpr hbefore
        rw [← passesAt_iff hsorted hn hpasses, ← hplace n (by omega)] at hfails
        refine ⟨by omega, by simpa using hfails, fun m hm => ?_⟩
        simpa using (hplace m (by omega)).mpr (hpasses m hm)

/-! ## A trajectory with frames, and one without -/

namespace Sample

/-- Hashes that keep the texts. -/
def textHash : FrameHash where
  request messages wasJson := String.join (messages.map (·.content)) ++ toString wasJson
  response text := text

def noFrames : FrameTable := ⟨[], List.nodup_nil, List.nodup_nil⟩

/-- A frame of a trajectory under a call index. -/
def recording (trajectoryId : String) (callIndex : UInt32) (id : String) : Recording where
  draft := ⟨trajectoryId, callIndex, "model", "provider", [⟨.user, "hello"⟩], false, "hi", .full⟩
  actor := "runtime"
  id := id

/-- Two frames of one trajectory, the later first, with a frame of another one and a second recording between. -/
def recordings : List Recording :=
  [recording "t" 1 "a", recording "u" 0 "b", recording "t" 1 "c", recording "t" 0 "d"]

theorem structural_replay_recorded : ∃ run,
    runStructuralReplay textHash "t" "handler:session_replay" "run" (noFrames.recordAll textHash recordings) [] =
      .ok (run, [run]) := by
  obtain ⟨run, hrun, -⟩ := (@structural_replay_iff textHash "t" "handler:session_replay" "run" noFrames recordings []
    (by decide +kernel) (by simp)).2 (by decide +kernel)
  exact ⟨run, hrun⟩

/-- A trajectory without frames has no gap and no broken hash, and does not pass. -/
theorem structural_replay_no_frames : ¬ ((∃ run runs,
      runStructuralReplay textHash "t" "handler:session_replay" "run" (noFrames.recordAll textHash []) [] =
        .ok (run, runs) ∧ run.status = .passed) ↔
    Contiguous ((noFrames.recordAll textHash []).listFrames "t") ∧
      ∀ f ∈ (noFrames.recordAll textHash []).listFrames "t", Intact textHash f) := by
  have hnone : (noFrames.recordAll textHash []).listFrames "t" = [] := rfl
  have hfails : runStructuralReplay textHash "t" "handler:session_replay" "run" (noFrames.recordAll textHash []) [] =
      .error "trajectory has no provider frames" := by
    decide +kernel
  rw [hnone, hfails]
  intro h
  obtain ⟨run, runs, hrun, -⟩ := h.mpr ⟨fun n => by simp, by simp⟩
  exact absurd hrun (by simp)

end Sample

theorem replay_recorded (recs : List Recording) {frames : List TrajectoryFrame}
    (hframes : frames = (FrameTable.recordAll hash ⟨[], List.nodup_nil, List.nodup_nil⟩ recs).listFrames trajectoryId) :
    (Contiguous frames ∧ ∀ f ∈ frames, Intact hash f) ↔ Contiguous frames := by
  refine and_iff_left fun f hf => ?_
  rw [hframes] at hf
  exact recordAll_intact recs (fun f hf => absurd hf List.not_mem_nil) f (mem_listFrames.mp hf).1

end

end Xiaomaolv
