import Xiaomaolv.Swarm.CrashRetry

/-!
# The artifact registry

An artifact is published once under its kind, name and version. Handlers look for the artifact of an earlier
attempt before they run again.

* `ArtifactEntry`: a row of the registry; `Registry.publishArtifact`, `Registry.findArtifact`: the two calls.
* `reuseOrPublish`: a handler that looks for its artifact first; `sessionReplay`: one of them.
* `publish_identity`: what a publication leaves under its identity; `identity_publishAll`: and for good.
* **`publish_then_find_iff`**: a publication is found under the strings of its request, and the handler reuses it,
  exactly when the name and the version have no white space around them.
* `mirrors_publish`: the registry of the swarm is this one, without what only a lookup reads.
* **`policy_reference_iff`**: an accepted reference to an evolution policy has the fields and texts it should,
  exactly when its `deployment_id` is a text or left out.
-/

namespace Xiaomaolv

/-! ## The registry -/

/-- A row of `harness_artifacts`, or what is decoded from it. -/
structure ArtifactEntry where
  id : String
  kind : String
  name : String
  version : String
  content : Value
  contentHash : String
  sourceGoalId : Option String
  parentArtifactId : Option String
  createdBy : String
deriving DecidableEq

structure ArtifactPublishResult where
  artifact : ArtifactEntry
  deduplicated : Bool
deriving DecidableEq

/-- How contents are hashed and read back. -/
structure ArtifactCodec where
  /-- `hash_serializable`. -/
  hash : Value → String
  /-- `serde_json::from_str` of the stored text of a value. -/
  reread : Value → Option Value

/-- The goals and the artifacts of a database. -/
structure Registry where
  goalIds : List String
  entries : List ArtifactEntry
deriving DecidableEq

section

variable (codec : ArtifactCodec)

def decodeArtifact (entry : ArtifactEntry) : Except String ArtifactEntry := do
  let content ← context (codec.reread entry.content) "invalid artifact content"
  pure { entry with content }

namespace Registry

/-- The row of an identity. -/
def identity? (r : Registry) (kind name version : String) : Option ArtifactEntry :=
  r.entries.find? fun e => e.kind = kind ∧ e.name = name ∧ e.version = version

/-- `find_artifact`. -/
def findArtifact (r : Registry) (kind name version : String) : Except String (Option ArtifactEntry) :=
  match r.identity? kind name version with
  | some entry => (decodeArtifact codec entry).map some
  | none => .ok none

/-- `artifact_identity_query`. -/
def artifactIdentityQuery (r : Registry) (request : PublishArtifactRequest) : Option ArtifactEntry :=
  r.identity? request.kind (trim request.name) (trim request.version)

/-- A row that a request refers to, if it does: `SELECT COUNT(*) … WHERE id = ?1` is one. -/
def checkExists (ids : List String) (message : String) : Option String → Except String Unit
  | some id => ensure (ids.count id = 1) message
  | none => .ok ()

/-- The row of a new artifact. -/
def newRow (request : PublishArtifactRequest) (actor id : String) : ArtifactEntry where
  id := id
  kind := request.kind
  name := trim request.name
  version := trim request.version
  content := request.content
  contentHash := codec.hash request.content
  sourceGoalId := request.sourceGoalId
  parentArtifactId := request.parentArtifactId
  createdBy := actor

/-- `publish_artifact` of the engine: the checks of the request, and the transaction. -/
def publishArtifact (request : PublishArtifactRequest) (actor id : String) (r : Registry) :
    Except String (ArtifactPublishResult × Registry) := do
  request.validate
  validateActor actor
  checkExists r.goalIds "source goal not found" request.sourceGoalId
  checkExists (r.entries.map (·.id)) "parent artifact not found" request.parentArtifactId
  match r.artifactIdentityQuery request with
  | some row =>
    let existing ← decodeArtifact codec row
    ensure (existing.contentHash = codec.hash request.content)
      "artifact version already exists with different content"
    pure (⟨existing, true⟩, r)
  | none =>
    let row := newRow codec request actor id
    let entries ← Table.insertRow (fun e => e.id = id) (uniqueFailed "harness_artifacts.id") row r.entries
    -- `load_artifact_tx`: a row that cannot be read back is rolled back.
    let artifact ← decodeArtifact codec row
    pure (⟨artifact, false⟩, { r with entries })

end Registry

/-- A call of `publish_artifact`, with the id that it would give a new row. -/
structure Publication where
  request : PublishArtifactRequest
  actor : String
  id : String

/-- The registry after a publication, which may be rejected. -/
def Registry.after (r : Registry) (p : Publication) : Registry :=
  match r.publishArtifact codec p.request p.actor p.id with
  | .ok (_, r') => r'
  | .error _ => r

/-- The registry after publications one after another. -/
def Registry.publishAll (r : Registry) (later : List Publication) : Registry :=
  later.foldl (Registry.after codec) r

/-! ## Handlers that look for their artifact first -/

/-- A handler that takes the artifact of an earlier attempt, or runs and publishes what it made. -/
def reuseOrPublish (kind name version goalId actor : String) (run : Except String Value) (id : String)
    (r : Registry) : Except String (ArtifactEntry × Registry) := do
  match ← r.findArtifact codec kind name version with
  | some existing => pure (existing, r)
  | none =>
    let content ← run
    let request : PublishArtifactRequest :=
      { kind, name, version, content, sourceGoalId := some goalId, parentArtifactId := none }
    let (result, r') ← r.publishArtifact codec request actor id
    pure (result.artifact, r')

/-- `SessionReplayHandler`: its artifact is named after the trajectory, with the work item as version. -/
def sessionReplay (trajectoryId workItemId goalId : String) (run : Except String Value) (id : String)
    (r : Registry) : Except String (ArtifactEntry × Registry) :=
  reuseOrPublish codec "replay_corpus" ("replay-" ++ trajectoryId) workItemId goalId "handler:session_replay" run id r

end

/-! ## What a publication leaves -/

section

variable {codec : ArtifactCodec} {r r' : Registry} {request : PublishArtifactRequest} {actor id : String}
  {result : ArtifactPublishResult} {kind name version : String}

/-- The columns of a row that the registry does not encode. -/
def ArtifactEntry.record (e : ArtifactEntry) : ArtifactRecord := ⟨e.id, e.kind, e.name, e.version, e.contentHash⟩

theorem decode_record {entry artifact : ArtifactEntry} (h : decodeArtifact codec entry = .ok artifact) :
    artifact.record = entry.record := by
  simp only [decodeArtifact, context_bind_eq_ok, pure_eq_ok] at h
  obtain ⟨content, -, rfl⟩ := h
  rfl

theorem identity_some {entry : ArtifactEntry} (h : r.identity? kind name version = some entry) :
    entry.kind = kind ∧ entry.name = name ∧ entry.version = version := by
  simpa using List.find?_some h

/-- The checks of a publication that do not look at the artifacts of its identity. -/
def Registry.admits (r : Registry) (request : PublishArtifactRequest) (actor : String) : Prop :=
  request.validate = .ok () ∧ validateActor actor = .ok () ∧
    Registry.checkExists r.goalIds "source goal not found" request.sourceGoalId = .ok () ∧
    Registry.checkExists (r.entries.map (·.id)) "parent artifact not found" request.parentArtifactId = .ok ()

/-- What a publication that is accepted does. -/
theorem Registry.publish_iff : r.publishArtifact codec request actor id = .ok (result, r') ↔
    r.admits request actor ∧
      ((∃ row, r.artifactIdentityQuery request = some row ∧ decodeArtifact codec row = .ok result.artifact ∧
          result.artifact.contentHash = codec.hash request.content ∧ result.deduplicated = true ∧ r' = r) ∨
        (r.artifactIdentityQuery request = none ∧ (∀ e ∈ r.entries, e.id ≠ id) ∧
          decodeArtifact codec (Registry.newRow codec request actor id) = .ok result.artifact ∧
          result.deduplicated = false ∧ r' = { r with entries := r.entries ++ [Registry.newRow codec request actor id] })) := by
  unfold Registry.publishArtifact Registry.admits
  simp only [bind_eq_ok]
  constructor
  · rintro ⟨⟨⟩, hvalid, ⟨⟩, hactor, ⟨⟩, hg, ⟨⟩, hp, h⟩
    refine ⟨⟨hvalid, hactor, hg, hp⟩, ?_⟩
    rcases hquery : r.artifactIdentityQuery request with _ | row
    · rw [hquery] at h
      simp only [bind_eq_ok, Table.insertRow_eq_ok, pure_eq_ok, Prod.mk.injEq] at h
      obtain ⟨_, ⟨hfresh, rfl⟩, artifact, hdecode, rfl, rfl⟩ := h
      exact .inr ⟨rfl, by simpa using hfresh, hdecode, rfl, rfl⟩
    · rw [hquery] at h
      simp only [bind_eq_ok, ensure_eq_ok, pure_eq_ok, Prod.mk.injEq] at h
      obtain ⟨existing, hdecode, ⟨⟩, hhash, rfl, rfl⟩ := h
      exact .inl ⟨row, rfl, hdecode, by simpa using hhash, rfl, rfl⟩
  · rintro ⟨⟨hvalid, hactor, hg, hp⟩, h⟩
    refine ⟨(), hvalid, (), hactor, (), hg, (), hp, ?_⟩
    obtain ⟨artifact, deduplicated⟩ := result
    rcases h with ⟨row, hquery, hdecode, hhash, rfl, rfl⟩ | ⟨hquery, hfresh, hdecode, rfl, rfl⟩
    · rw [hquery]
      simp only [bind_eq_ok, ensure_eq_ok, pure_eq_ok]
      exact ⟨artifact, hdecode, (), by simpa using hhash, rfl⟩
    · rw [hquery]
      simp only [bind_eq_ok, Table.insertRow_eq_ok, pure_eq_ok]
      exact ⟨_, ⟨by simpa using hfresh, rfl⟩, artifact, hdecode, rfl⟩

/-- A row under an identity, in a registry that would still take the request. -/
structure Registry.Settled (r : Registry) (request : PublishArtifactRequest) (actor : String)
    (row : ArtifactEntry) : Prop where
  admits : r.admits request actor
  row : r.artifactIdentityQuery request = some row

theorem Registry.admits_append {new : ArtifactEntry} (h : r.admits request actor)
    (hfresh : ∀ e ∈ r.entries, e.id ≠ new.id) :
    Registry.admits { r with entries := r.entries ++ [new] } request actor := by
  obtain ⟨hvalid, hactor, hgoal, hparent⟩ := h
  refine ⟨hvalid, hactor, hgoal, ?_⟩
  rcases hp : request.parentArtifactId with _ | parentId
  · rfl
  · rw [hp, Registry.checkExists, ensure_eq_ok, decide_eq_true_eq] at hparent
    rw [Registry.checkExists, ensure_eq_ok, decide_eq_true_eq, List.map_append, List.count_append, hparent]
    have hne : new.id ≠ parentId := by
      rintro rfl
      have hpos : 0 < (r.entries.map (·.id)).count new.id := by omega
      obtain ⟨e, he, heq⟩ := List.mem_map.mp (List.count_pos_iff.mp hpos)
      exact hfresh e he heq
    simp [hne]

theorem Registry.identity_append {row new : ArtifactEntry} (h : r.identity? kind name version = some row) :
    Registry.identity? { r with entries := r.entries ++ [new] } kind name version = some row := by
  unfold Registry.identity? at h ⊢
  rw [List.find?_append, h, Option.some_or]

theorem Registry.Settled.append {row new : ArtifactEntry} (h : r.Settled request actor row)
    (hfresh : ∀ e ∈ r.entries, e.id ≠ new.id) :
    Registry.Settled { r with entries := r.entries ++ [new] } request actor row :=
  ⟨Registry.admits_append h.admits hfresh, Registry.identity_append h.row⟩

theorem Registry.Settled.after {row : ArtifactEntry} (h : r.Settled request actor row) (p : Publication) :
    (r.after codec p).Settled request actor row := by
  unfold Registry.after
  rcases hpub : r.publishArtifact codec p.request p.actor p.id with _ | ⟨result, r'⟩
  · exact h
  · rcases (Registry.publish_iff.mp hpub).2 with ⟨_, _, _, _, _, rfl⟩ | ⟨-, hfresh, -, -, rfl⟩
    · exact h
    · exact h.append hfresh

theorem Registry.Settled.publishAll : ∀ (later : List Publication) {r : Registry} {row : ArtifactEntry},
    r.Settled request actor row → (r.publishAll codec later).Settled request actor row
  | [], _, _, h => h
  | p :: later, _, _, h => Registry.Settled.publishAll later (h.after p)

theorem publish_settles (h : r.publishArtifact codec request actor id = .ok (result, r')) :
    ∃ row, r'.Settled request actor row ∧ decodeArtifact codec row = .ok result.artifact ∧
      row.contentHash = codec.hash request.content := by
  obtain ⟨hadmits, ⟨row, hrow, hdecode, hhash, -, rfl⟩ | ⟨hnone, hfresh, hdecode, -, rfl⟩⟩ :=
    Registry.publish_iff.mp h
  · exact ⟨row, ⟨hadmits, hrow⟩, hdecode, (congrArg ArtifactRecord.contentHash (decode_record hdecode)).symm.trans hhash⟩
  · refine ⟨Registry.newRow codec request actor id, ⟨?_, ?_⟩, hdecode, rfl⟩
    · exact Registry.admits_append hadmits hfresh
    · unfold Registry.artifactIdentityQuery Registry.identity? at hnone ⊢
      rw [List.find?_append, hnone]
      simp [Registry.newRow]

/-! ## Publish, then find -/

/-- The artifact is found under the strings of its request, it is what a second publication returns, and a handler
that looks for it does not run again. -/
structure Registry.Converges (codec : ArtifactCodec) (r : Registry) (request : PublishArtifactRequest)
    (actor : String) (artifact : ArtifactEntry) : Prop where
  found : r.findArtifact codec request.kind request.name request.version = .ok (some artifact)
  again : ∀ id, r.publishArtifact codec request actor id = .ok (⟨artifact, true⟩, r)
  retried : ∀ goalId actor run id,
    reuseOrPublish codec request.kind request.name request.version goalId actor run id r = .ok (artifact, r)

theorem Registry.Settled.again {row artifact : ArtifactEntry} (h : r.Settled request actor row)
    (hdecode : decodeArtifact codec row = .ok artifact) (hhash : row.contentHash = codec.hash request.content) :
    r.publishArtifact codec request actor id = .ok (⟨artifact, true⟩, r) :=
  Registry.publish_iff.mpr
    ⟨h.admits, .inl ⟨row, h.row, hdecode, (congrArg ArtifactRecord.contentHash (decode_record hdecode)).trans hhash, rfl, rfl⟩⟩

/-- **A publication is found again, whatever is published later,** exactly when the name and the version of its
request have no white space around them. -/
theorem publish_then_find_iff (h : r.publishArtifact codec request actor id = .ok (result, r'))
    (later : List Publication) :
    (r'.publishAll codec later).Converges codec request actor result.artifact ↔
      trim request.name = request.name ∧ trim request.version = request.version := by
  obtain ⟨row, hsettled, hdecode, hhash⟩ := publish_settles h
  have hlater : (r'.publishAll codec later).Settled request actor row := hsettled.publishAll later
  obtain ⟨hkind, hname, hversion⟩ := identity_some hlater.row
  constructor
  · rintro ⟨hfound, -, -⟩
    unfold Registry.findArtifact at hfound
    rcases hrow : (r'.publishAll codec later).identity? request.kind request.name request.version with _ | entry
    · rw [hrow] at hfound
      exact absurd hfound (by simp)
    · rw [hrow] at hfound
      obtain ⟨artifact, hentry, hsame⟩ := fmap_eq_ok.mp hfound
      obtain rfl : artifact = result.artifact := Option.some.inj hsame
      obtain ⟨-, hname', hversion'⟩ := identity_some hrow
      -- The two rows are read back as one artifact.
      have hrecord : row.record = entry.record := (decode_record hdecode).symm.trans (decode_record hentry)
      constructor
      · rw [← hname, ← hname']
        exact congrArg ArtifactRecord.name hrecord
      · rw [← hversion, ← hversion']
        exact congrArg ArtifactRecord.version hrecord
  · rintro ⟨hn, hv⟩
    have hfound : (r'.publishAll codec later).findArtifact codec request.kind request.name request.version =
        .ok (some result.artifact) := by
      have hrow := hlater.row
      rw [Registry.artifactIdentityQuery, hn, hv] at hrow
      rw [Registry.findArtifact, hrow]
      exact fmap_eq_ok.mpr ⟨_, hdecode, rfl⟩
    refine ⟨hfound, fun id => hlater.again hdecode hhash, fun goalId actor run id => ?_⟩
    unfold reuseOrPublish
    rw [hfound]
    rfl

end

/-! ## Requests with and without white space -/

namespace Sample

/-- Contents that are texts, which are their own digests. -/
def textCodec : ArtifactCodec where
  hash content := (content.asStr).getD ""
  reread := some

def oneGoal : Registry := ⟨["goal"], []⟩

/-- The request of a session replay. -/
def replayRequest (trajectoryId content : String) : PublishArtifactRequest where
  kind := "replay_corpus"
  name := "replay-" ++ trajectoryId
  version := "work"
  content := .string content
  sourceGoalId := some "goal"
  parentArtifactId := none

/-- The artifact of a replay, as the first attempt publishes it. -/
def replayArtifact (name : String) : ArtifactEntry :=
  ⟨"artifact", "replay_corpus", name, "work", .string "first", "first", some "goal", none, "handler:session_replay"⟩

theorem publish_then_find_replay : (Registry.publishAll textCodec ⟨["goal"], [replayArtifact "replay-t"]⟩
      [⟨replayRequest "u" "other", "handler:session_replay", "artifact2"⟩]).Converges textCodec
    (replayRequest "t" "first") "handler:session_replay" (replayArtifact "replay-t") :=
  (@publish_then_find_iff textCodec oneGoal ⟨["goal"], [replayArtifact "replay-t"]⟩ (replayRequest "t" "first")
    "handler:session_replay" "artifact" ⟨replayArtifact "replay-t", false⟩ (by decide +kernel) _).mpr
    (by decide +kernel)

/-- A replay of a trajectory whose id ends with a blank is published, is not found by the next attempt, and is in
the way of what that attempt makes. -/
theorem replay_not_found :
    oneGoal.publishArtifact textCodec (replayRequest "t " "first") "handler:session_replay" "artifact" =
        .ok (⟨replayArtifact "replay-t", false⟩, ⟨["goal"], [replayArtifact "replay-t"]⟩) ∧
      ¬ (Registry.publishAll textCodec ⟨["goal"], [replayArtifact "replay-t"]⟩ []).Converges textCodec
        (replayRequest "t " "first") "handler:session_replay" (replayArtifact "replay-t") ∧
      sessionReplay textCodec "t " "work" "goal" (.ok (.string "second")) "artifact2"
          ⟨["goal"], [replayArtifact "replay-t"]⟩ =
        .error "artifact version already exists with different content" := by
  refine ⟨by decide +kernel, fun h => ?_, by decide +kernel⟩
  have hnone : Registry.findArtifact textCodec ⟨["goal"], [replayArtifact "replay-t"]⟩ "replay_corpus" "replay-t "
      "work" = .ok none := by
    decide +kernel
  have hfound := hnone.symm.trans h.found
  exact absurd hfound (by simp)

end Sample

/-! ## The registry of the swarm -/

/-- A registry and the world of a swarm over one database. -/
structure Mirrors (r : Registry) (w : SwarmWorld) : Prop where
  goals : w.store.goals.map (·.id) = r.goalIds
  registry : w.registry = r.entries.map ArtifactEntry.record
  artifacts : w.store.artifacts.map (·.id) = r.entries.map (·.id)

theorem length_filter_id {α : Type} {f : α → String} (l : List α) (id : String) :
    (l.filter fun a => f a = id).length = (l.map f).count id := by
  rw [List.count, List.countP_map, List.countP_eq_length_filter]
  rfl

/-- A publication that the registry accepts is accepted by the swarm, with the same id. -/
theorem mirrors_publish {codec : ArtifactCodec} {r r' : Registry} {w : SwarmWorld} {request : PublishArtifactRequest}
    {actor id : String} {result : ArtifactPublishResult} (hm : Mirrors r w)
    (h : r.publishArtifact codec request actor id = .ok (result, r')) :
    ∃ w', w.publish codec.hash request actor id = .ok (result.artifact.id, w') ∧ Mirrors r' w' := by
  obtain ⟨hgoals, hregistry, hartifacts⟩ := hm
  obtain ⟨⟨hvalid, hactor, hgoal, hparent⟩, hcase⟩ := Registry.publish_iff.mp h
  have hfind : w.find? request.kind request.name request.version =
      (r.artifactIdentityQuery request).map ArtifactEntry.record := by
    rw [SwarmWorld.find?, hregistry, List.find?_map]
    rfl
  have hids : w.registry.map (·.id) = r.entries.map (·.id) := by
    rw [hregistry, List.map_map]
    rfl
  have hid : result.artifact.id = result.artifact.record.id := rfl
  have hchecked : w.publish codec.hash request actor id =
      ((r.artifactIdentityQuery request).map ArtifactEntry.record).elim
        (do
          let store ← LoopStore.publishArtifact id request.kind w.store
          let row := (Registry.newRow codec request actor id).record
          pure (id, { store, registry := w.registry ++ [row] }))
        (fun existing => do
          ensure (existing.contentHash = codec.hash request.content)
            "artifact version already exists with different content"
          pure (existing.id, w)) := by
    have hsource : ∀ goalId, request.sourceGoalId = some goalId →
        ((w.store.goals.filter fun g => g.id = goalId).length = 1) := by
      intro goalId hsome
      rw [hsome, Registry.checkExists, ensure_eq_ok, decide_eq_true_eq, ← hgoals] at hgoal
      rw [length_filter_id, hgoal]
    have hof : ∀ parentId, request.parentArtifactId = some parentId →
        ((w.registry.filter fun a => a.id = parentId).length = 1) := by
      intro parentId hsome
      rw [hsome, Registry.checkExists, ensure_eq_ok, decide_eq_true_eq, ← hids] at hparent
      rw [length_filter_id, hparent]
    unfold SwarmWorld.publish
    rw [hvalid, hactor, hfind]
    generalize (r.artifactIdentityQuery request).map ArtifactEntry.record = found
    cases hs : request.sourceGoalId with
    | none =>
      cases hp : request.parentArtifactId with
      | none => cases found <;> rfl
      | some parentId =>
        simp only [hof parentId hp, decide_true, ensure, if_true]
        cases found <;> rfl
    | some goalId =>
      cases hp : request.parentArtifactId with
      | none =>
        simp only [hsource goalId hs, decide_true, ensure, if_true]
        cases found <;> rfl
      | some parentId =>
        simp only [hsource goalId hs, hof parentId hp, decide_true, ensure, if_true]
        cases found <;> rfl
  rw [hchecked]
  rcases hcase with ⟨row, hrow, hdecode, hhash, -, rfl⟩ | ⟨hnone, hfresh, hdecode, -, rfl⟩
  · have hsame : row.record.contentHash = codec.hash request.content := by
      rw [← decode_record hdecode]
      exact hhash
    refine ⟨w, ?_, ⟨hgoals, hregistry, hartifacts⟩⟩
    rw [hrow, Option.map_some, Option.elim_some, hid, decode_record hdecode]
    simp only [hsame, decide_true, ensure, if_true]
    rfl
  · have hclash : w.store.artifacts.any (fun a => a.id = id) = false := by
      rw [List.any_eq_false]
      intro a ha hsame
      have hin : a.id ∈ r.entries.map (·.id) := hartifacts ▸ List.mem_map_of_mem ha
      obtain ⟨e, he, heq⟩ := List.mem_map.mp hin
      exact hfresh e he (heq.trans (by simpa using hsame))
    refine ⟨⟨{ w.store with artifacts := w.store.artifacts ++ [⟨id, request.kind⟩] },
      w.registry ++ [(Registry.newRow codec request actor id).record]⟩, ?_, ⟨hgoals, ?_, ?_⟩⟩
    · rw [hnone, hid, decode_record hdecode, LoopStore.publishArtifact, Table.insertRow, if_neg (by simp [hclash])]
      rfl
    · rw [hregistry, List.map_append]
      rfl
    · rw [List.map_append, List.map_append, hartifacts]
      rfl

/-! ## References to an evolution policy -/

/-- What a reference to an evolution policy is to look like. -/
structure PolicyReference (content : Value) (fields : Fields) : Prop where
  object : content = .object fields
  keys : ∀ key ∈ fields.keys, key = "evolution_candidate_id" ∨ key = "deployment_id"
  texts : ∀ key value, fields.find key = some value →
    ∃ s, value = .string s ∧ 1 ≤ byteLen s ∧ byteLen s ≤ 160

theorem byteLen_pos {s : String} (h : isBlank s = false) : 1 ≤ byteLen s := by
  rw [byteLen, Nat.one_le_iff_ne_zero]
  intro hzero
  rw [String.utf8ByteSize_eq_zero_iff.mp hzero] at h
  exact absurd h (by decide)

theorem Fields.mem_keys {key : String} {value : Value} :
    ∀ {fields : Fields}, fields.find key = some value → key ∈ fields.keys
  | .nil, h => by cases h
  | .cons k v fields, h => by
    rw [Fields.find] at h
    split_ifs at h with hk
    · exact List.mem_cons.mpr (.inl hk.symm)
    · exact List.mem_cons_of_mem _ (Fields.mem_keys h)

/-- What the checks of a reference come to. -/
theorem checkPromptPolicyRef_eq_ok {content : Value} (h : checkPromptPolicyRef content = .ok ()) :
    ∃ fields candidateId, content = .object fields ∧
      (∀ key ∈ fields.keys, key = "evolution_candidate_id" ∨ key = "deployment_id") ∧
      fields.find "evolution_candidate_id" = some (.string candidateId) ∧
      isBlank candidateId = false ∧ byteLen candidateId ≤ 160 ∧
      ∀ deploymentId, fields.find "deployment_id" = some (.string deploymentId) →
        isBlank deploymentId = false ∧ byteLen deploymentId ≤ 160 := by
  cases content with
  | object fields =>
    unfold checkPromptPolicyRef at h
    obtain ⟨hkeys, h⟩ := ensure_bind_eq_ok.mp h
    obtain ⟨hcandidate, h⟩ := ensure_bind_eq_ok.mp h
    -- A missing candidate, or one that is no text, counts as a blank one.
    have hfound : ∃ candidateId, fields.find "evolution_candidate_id" = some (.string candidateId) := by
      by_contra hno
      have hnone : (fields.find "evolution_candidate_id").bind Value.asStr = none := by
        rcases hfind : fields.find "evolution_candidate_id" with _ | value
        · rfl
        · cases value with
          | string candidateId => exact absurd ⟨candidateId, hfind⟩ hno
          | _ => rfl
      rw [hnone] at hcandidate
      exact absurd hcandidate (by decide)
    obtain ⟨candidateId, hfind⟩ := hfound
    simp only [hfind, Option.bind_some, Value.asStr, Option.getD_some, Bool.and_eq_true, Bool.not_eq_true',
      decide_eq_true_eq] at hcandidate
    refine ⟨fields, candidateId, rfl, fun key hkey => ?_, hfind, hcandidate.1, hcandidate.2, fun deploymentId hd => ?_⟩
    · simpa using List.all_eq_true.mp hkeys key hkey
    · rw [hd] at h
      simpa using ensure_eq_ok.mp h
  | _ => cases h

theorem checked_of_validate {request : PublishArtifactRequest} (hkind : request.kind = "prompt_policy_ref")
    (h : request.validate = .ok ()) : checkPromptPolicyRef request.content = .ok () := by
  unfold PublishArtifactRequest.validate at h
  obtain ⟨-, h⟩ := ensure_bind_eq_ok.mp h
  obtain ⟨-, h⟩ := ensure_bind_eq_ok.mp h
  obtain ⟨-, h⟩ := ensure_bind_eq_ok.mp h
  obtain ⟨-, -, h⟩ := bind_eq_ok.mp h
  obtain ⟨-, -, h⟩ := bind_eq_ok.mp h
  rwa [if_pos hkind] at h

/-- **What an accepted reference is.** It has the fields that are allowed, each a text of 1 to 160 bytes, exactly
when its `deployment_id` is a text or left out. -/
theorem policy_reference_iff {request : PublishArtifactRequest} (hkind : request.kind = "prompt_policy_ref")
    (h : request.validate = .ok ()) :
    (∃ fields, PolicyReference request.content fields) ↔
      ∀ value, request.content.get "deployment_id" = some value → ∃ s, value = .string s := by
  obtain ⟨fields, candidateId, hcontent, hkeys, hcandidate, hblank, hlen, hdeployment⟩ :=
    checkPromptPolicyRef_eq_ok (checked_of_validate hkind h)
  rw [hcontent]
  constructor
  · rintro ⟨fields', hobject, -, htexts⟩ value hvalue
    obtain rfl := Value.object.inj hobject
    obtain ⟨s, hs, -⟩ := htexts _ _ hvalue
    exact ⟨s, hs⟩
  · intro hstring
    refine ⟨fields, rfl, hkeys, fun key value hfind => ?_⟩
    rcases hkeys key (Fields.mem_keys hfind) with rfl | rfl
    · obtain rfl : Value.string candidateId = value := Option.some.inj (hcandidate.symm.trans hfind)
      exact ⟨candidateId, rfl, byteLen_pos hblank, hlen⟩
    · obtain ⟨deploymentId, rfl⟩ := hstring value hfind
      obtain ⟨hblank', hlen'⟩ := hdeployment deploymentId hfind
      exact ⟨deploymentId, rfl, byteLen_pos hblank', hlen'⟩

namespace Sample

/-- A reference to a candidate and to a deployment. -/
def policyRequest (deploymentId : Value) : PublishArtifactRequest where
  kind := "prompt_policy_ref"
  name := "policy"
  version := "1"
  content := .object (.cons "evolution_candidate_id" (.string "candidate")
    (.cons "deployment_id" deploymentId .nil))
  sourceGoalId := none
  parentArtifactId := none

theorem policy_reference_text :
    ∃ fields, PolicyReference (policyRequest (.string "deployment")).content fields := by
  refine (@policy_reference_iff (policyRequest (.string "deployment")) rfl (by decide +kernel)).mpr ?_
  intro value hvalue
  exact ⟨"deployment", (Option.some.inj hvalue).symm⟩

/-- A number passes for a deployment. -/
theorem numeric_deployment :
    (policyRequest (.int 7)).validate = .ok () ∧
      ¬ ∃ fields, PolicyReference (policyRequest (.int 7)).content fields := by
  refine ⟨by decide +kernel, ?_⟩
  rintro ⟨fields, hobject, -, htexts⟩
  obtain rfl := Value.object.inj hobject
  obtain ⟨s, hs, -⟩ := htexts "deployment_id" (.int 7) rfl
  cases hs

end Sample

end Xiaomaolv
