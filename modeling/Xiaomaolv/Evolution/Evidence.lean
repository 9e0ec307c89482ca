import Xiaomaolv.Evolution.Data
import Xiaomaolv.Loop.JsonText
import Xiaomaolv.Service.ToolProtocol

/-!
# The evidence of a proposal

A proposal is asked for with the failed runs and with the interventions that were tried before and buried, as one
JSON text that is cut at a number of characters.

* `buildFailureEvidence`: the text; `runsText`: what stands in it before the interventions.
* `evidence_text`: the interventions stand behind the failed runs.
* `cut_differs_iff`: when a cut keeps two texts apart that differ behind a common part.
* **`evidence_differs_iff`**: different interventions make different evidence exactly when their texts differ within
  the characters that the failed runs leave.
-/

namespace Xiaomaolv

/-! ## The failed runs -/

inductive TrajectoryExitReason
  | finalAnswer
  | maxIterations
  | toolError
  | timeout
  | internalError

def TrajectoryExitReason.asStr : TrajectoryExitReason → String
  | finalAnswer => "final_answer"
  | maxIterations => "max_iterations"
  | toolError => "tool_error"
  | timeout => "timeout"
  | internalError => "internal_error"

structure TrajectoryRecord where
  id : String
  channel : String
  toolCalls : List ToolCallRecord
  finalAnswer : Option String
  exitReason : TrajectoryExitReason
  model : String

structure EvolutionFeedbackRecord where
  /-- The score, as `serde_json` writes it. -/
  score : String
  tags : List String
  comment : Option String

/-- `Value::to_string`. -/
def Value.toText (v : Value) : String := String.ofList v.text

/-- The failed runs of a proposal, with their feedback and their scores. -/
structure FailedRuns where
  trajectories : List TrajectoryRecord
  feedbackByTrajectory : String → Option (List EvolutionFeedbackRecord)
  scores : String → Option Int

/-- A failed tool call, its keys in the order of the map. -/
def toolRow (call : ToolCallRecord) : Value :=
  .json [("arguments", .string (truncateChars call.arguments.toText 500)),
    ("result", .string (truncateChars call.result.toText 500)), ("server", .string call.server),
    ("tool", .string call.tool)]

def feedbackRow (record : EvolutionFeedbackRecord) : Value :=
  .json [("comment", .ofOption (record.comment.map fun value => truncateChars value 500)),
    ("score", .float record.score), ("tags", .strings record.tags)]

def FailedRuns.row (runs : FailedRuns) (trajectory : TrajectoryRecord) : Value :=
  .json [("channel", .string trajectory.channel), ("exit_reason", .string trajectory.exitReason.asStr),
    ("failed_tools", .array (.ofList ((trajectory.toolCalls.filter fun call => !call.ok).map toolRow))),
    ("feedback", .array (.ofList (((runs.feedbackByTrajectory trajectory.id).getD []).map feedbackRow))),
    ("final_answer", .ofOption (trajectory.finalAnswer.map fun answer => truncateChars answer 500)),
    ("model", .string trajectory.model),
    ("run_score", match runs.scores trajectory.id with
      | some score => .int score
      | none => .null),
    ("trajectory_id", .string trajectory.id)]

def FailedRuns.rows (runs : FailedRuns) : Value := .array (.ofList (runs.trajectories.map runs.row))

/-! ## The evidence -/

/-- `prior_interventions`. -/
def interventions (priorCandidates rollbacks : List Value) : Value :=
  .json [("rejected_or_failed_candidates", .array (.ofList priorCandidates)),
    ("rolled_back_deployments", .array (.ofList rollbacks))]

def buildFailureEvidence (runs : FailedRuns) (priorCandidates rollbacks : List Value) (maxChars : Nat) : String :=
  truncateChars (Value.json [("failed_runs", runs.rows),
    ("prior_interventions", interventions priorCandidates rollbacks)]).toText maxChars

/-- What stands in the text before the interventions. -/
def FailedRuns.runsText (runs : FailedRuns) : List Char :=
  '\x7b' :: (jsonString "failed_runs" ++ ':' :: runs.rows.text ++ ',' :: jsonString "prior_interventions" ++ [':'])

theorem evidence_text (runs : FailedRuns) (priorCandidates rollbacks : List Value) :
    (Value.json [("failed_runs", runs.rows), ("prior_interventions", interventions priorCandidates rollbacks)]).text =
      runs.runsText ++ ((interventions priorCandidates rollbacks).text ++ ['\x7d']) := by
  simp [Value.json, Fields.ofList, Value.text, Fields.text, FailedRuns.runsText]

/-! ## A cut text -/

section Cut

variable {pre l l' tail : List Char} {maxChars : Nat}

/-- The characters that `truncate_chars` keeps, and the mark of a cut. -/
def cut (l : List Char) (maxChars : Nat) : List Char :=
  if l.length ≤ maxChars then l else l.take maxChars ++ ['…']

theorem truncateChars_ofList (l : List Char) (maxChars : Nat) :
    truncateChars (String.ofList l) maxChars = String.ofList (cut l maxChars) := by
  unfold truncateChars cut charCount takeChars
  rw [String.toList_ofList]
  split_ifs
  · rfl
  · rw [String.ofList_append]

theorem take_cut (l : List Char) (maxChars : Nat) : (cut l maxChars).take maxChars = l.take maxChars := by
  unfold cut
  split_ifs with h
  · rfl
  · rw [List.take_append_of_le_length (by rw [List.length_take]; omega), List.take_take, Nat.min_self]

theorem cut_of_lt (h : maxChars < l.length) : cut l maxChars = l.take maxChars ++ ['…'] := if_neg (by omega)

/-- **A cut keeps two texts apart** that go on, behind a common part, with texts that tell where they end, exactly
when these differ within the characters that are left. -/
theorem cut_differs_iff (hsplit : ∀ rest rest', l ++ rest ≠ l' ++ rest') :
    cut (pre ++ (l ++ tail)) maxChars ≠ cut (pre ++ (l' ++ tail)) maxChars ↔
      l.take (maxChars - pre.length) ≠ l'.take (maxChars - pre.length) := by
  obtain ⟨room, hroom⟩ : ∃ room, room = maxChars - pre.length := ⟨_, rfl⟩
  rw [← hroom, not_iff_not]
  have happend : ∀ m : List Char, (pre ++ (m ++ tail)).take maxChars = pre.take maxChars ++ (m ++ tail).take room :=
    fun m => by rw [List.take_append, hroom]
  -- A text whose first characters are those of the other does not end within them.
  have hlong : ∀ {m m' : List Char}, (∀ rest rest', m ++ rest ≠ m' ++ rest') → m.take room = m'.take room →
      room < m.length := by
    intro m m' hm htake
    by_contra hshort
    rw [List.take_of_length_le (by omega)] at htake
    refine hm (m'.drop room) [] ?_
    rw [htake, List.take_append_drop, List.append_nil]
  constructor
  · intro h
    have htake := congrArg (List.take maxChars) h
    rw [take_cut, take_cut, happend, happend, List.append_cancel_left_eq] at htake
    have hcut : ∀ {m m' : List Char}, (∀ rest rest', m ++ rest ≠ m' ++ rest') →
        (m ++ tail).take room = (m' ++ tail).take room → room ≤ m.length := by
      intro m m' hm hmm
      by_contra hshort
      refine hm (tail.take (room - m.length) ++ (m' ++ tail).drop room) tail ?_
      rw [← List.append_assoc]
      have hm' : m ++ tail.take (room - m.length) = (m ++ tail).take room := by
        rw [List.take_append, List.take_of_length_le (by omega : m.length ≤ room)]
      rw [hm', hmm, List.take_append_drop]
    have hl := hcut hsplit htake
    have hl' := hcut (fun rest rest' => (hsplit rest' rest).symm) htake.symm
    rwa [List.take_append_of_le_length hl, List.take_append_of_le_length hl'] at htake
  · intro h
    have hl := hlong hsplit h
    have hl' := hlong (fun rest rest' => (hsplit rest' rest).symm) h.symm
    have hlen : ∀ {m : List Char}, room < m.length → maxChars < (pre ++ (m ++ tail)).length := by
      intro m hm
      rw [List.length_append, List.length_append]
      omega
    rw [cut_of_lt (hlen hl), cut_of_lt (hlen hl'), happend, happend, List.take_append_of_le_length hl.le,
      List.take_append_of_le_length hl'.le, h]

end Cut

/-! ## What the evidence shows of the interventions -/

theorem printed_ofList : ∀ {values : List Value}, (∀ v ∈ values, v.Printed) → (Values.ofList values).Printed
  | [], _ => trivial
  | v :: _, h => ⟨h v List.mem_cons_self, printed_ofList fun w hw => h w (List.mem_cons_of_mem _ hw)⟩

theorem interventions_split {priorCandidates priorCandidates' rollbacks rollbacks' : List Value}
    (hp : ∀ v ∈ priorCandidates ++ rollbacks, v.Printed) (hp' : ∀ v ∈ priorCandidates' ++ rollbacks', v.Printed)
    (hne : priorCandidates ≠ priorCandidates' ∨ rollbacks ≠ rollbacks') (rest rest' : List Char) :
    (interventions priorCandidates rollbacks).text ++ rest ≠
      (interventions priorCandidates' rollbacks').text ++ rest' := by
  intro h
  have hprinted : ∀ {c r : List Value}, (∀ v ∈ c ++ r, v.Printed) →
      (Fields.ofList [("rejected_or_failed_candidates", .array (.ofList c)),
        ("rolled_back_deployments", .array (.ofList r))]).Printed := by
    intro c r hv
    exact ⟨printed_ofList fun v h => hv v (List.mem_append_left _ h),
      printed_ofList fun v h => hv v (List.mem_append_right _ h), trivial⟩
  have hsame := (fields_split (hprinted hp) (hprinted hp') (List.cons.inj h).2).1
  simp only [Fields.ofList, Fields.cons.injEq, Value.array.injEq, true_and, and_true] at hsame
  have hlist : ∀ {c c' : List Value}, Values.ofList c = Values.ofList c' → c = c' := by
    intro c c' hc
    rw [← Values.toList_ofList c, hc, Values.toList_ofList]
  rcases hne with hne | hne
  · exact hne (hlist hsame.1)
  · exact hne (hlist hsame.2)

/-- **Different interventions make different evidence** exactly when their texts differ within the characters that
the failed runs leave. -/
theorem evidence_differs_iff (runs : FailedRuns) {priorCandidates priorCandidates' rollbacks rollbacks' : List Value}
    (hp : ∀ v ∈ priorCandidates ++ rollbacks, v.Printed) (hp' : ∀ v ∈ priorCandidates' ++ rollbacks', v.Printed)
    (hne : priorCandidates ≠ priorCandidates' ∨ rollbacks ≠ rollbacks') (maxChars : Nat) :
    buildFailureEvidence runs priorCandidates rollbacks maxChars ≠
        buildFailureEvidence runs priorCandidates' rollbacks' maxChars ↔
      (interventions priorCandidates rollbacks).text.take (maxChars - runs.runsText.length) ≠
        (interventions priorCandidates' rollbacks').text.take (maxChars - runs.runsText.length) := by
  have hcut : ∀ c r, buildFailureEvidence runs c r maxChars =
      String.ofList (cut (runs.runsText ++ ((interventions c r).text ++ ['\x7d'])) maxChars) := by
    intro c r
    rw [buildFailureEvidence, Value.toText, evidence_text, truncateChars_ofList]
  rw [hcut, hcut, Ne, String.ofList_inj]
  exact cut_differs_iff (interventions_split hp hp' hne)

namespace EvolutionSample

/-- Runs that all ended in one way, with nothing else to say. -/
def timedOut (ids : List String) : FailedRuns where
  trajectories := ids.map fun id => ⟨id, "telegram", [], none, .timeout, "model"⟩
  feedbackByTrajectory _ := none
  scores _ := none

/-- An intervention that was rolled back. -/
def rolledBack : Value :=
  .json [("candidate_id", .string "candidate"), ("deployment_id", .string "deployment"),
    ("rollback_reason", .string "worse"), ("rolled_back_at", .int 1760000000)]

theorem evidence_shows_rollback :
    buildFailureEvidence (timedOut ["run"]) [] [rolledBack] 512 ≠ buildFailureEvidence (timedOut ["run"]) [] [] 512 :=
  (evidence_differs_iff (timedOut ["run"]) (by simp [rolledBack, Value.json, Fields.ofList, Value.Printed,
    Fields.Printed]) (by simp) (.inr (by simp)) 512).mpr (by decide +kernel)

/-- Four runs fill the evidence, which hides that an intervention was rolled back. -/
theorem evidence_hides_rollback :
    buildFailureEvidence (timedOut ["a", "b", "c", "d"]) [] [rolledBack] 512 =
      buildFailureEvidence (timedOut ["a", "b", "c", "d"]) [] [] 512 := by
  have hfull : 512 - (timedOut ["a", "b", "c", "d"]).runsText.length = 0 := by decide +kernel
  have hcut : ∀ c r, buildFailureEvidence (timedOut ["a", "b", "c", "d"]) c r 512 =
      String.ofList ((timedOut ["a", "b", "c", "d"]).runsText.take 512 ++ ['…']) := by
    intro c r
    rw [buildFailureEvidence, Value.toText, evidence_text, truncateChars_ofList, cut_of_lt (by simp; omega),
      List.take_append_of_le_length (by omega)]
  rw [hcut, hcut]

end EvolutionSample

end Xiaomaolv
