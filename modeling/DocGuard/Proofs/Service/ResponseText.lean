import DocGuard.Proofs.Json.Scanning
import DocGuard.Proofs.Request.Course
import DocGuard.Proofs.Request.ReportText
import DocGuard.Proofs.Service.Invocation

/-! The texts that the service answers with. A success is answered with the JSON text of a report.
Every other answer is the plain wording of what went wrong, which is never a JSON text, and is
announced as JSON like a success. -/
namespace DocGuard
open Json Program

section Wordings

private theorem isForeign_of_beginning (beginning rest : String)
    (foreign : isForeign beginning.toList = true) :
    isForeign (beginning ++ rest).toList = true := by
  rw [String.toList_append]
  exact isForeign_append foreign

private theorem Json.Cause.isForeign_message (cause : Cause) :
    isForeign cause.message.toList = true := by
  cases cause with
  | wrongType found expected =>
    have begun := isForeign_of_beginning "invalid type: " (found ++ ", expected " ++ expected) (by decide)
    rw [← String.append_assoc, ← String.append_assoc] at begun
    exact begun
  | wrongLength found expected =>
    have begun := isForeign_of_beginning "invalid length " (toString found ++ ", expected " ++ expected)
      (by decide)
    rw [← String.append_assoc, ← String.append_assoc] at begun
    exact begun
  | missingField name =>
    have begun := isForeign_of_beginning "missing field `" (name ++ "`") (by decide)
    rwa [← String.append_assoc] at begun
  | duplicateField name =>
    have begun := isForeign_of_beginning "duplicate field `" (name ++ "`") (by decide)
    rwa [← String.append_assoc] at begun
  | _ => decide

private theorem Json.Fault.isForeign_message (fault : Fault) (text : List Char) :
    isForeign (fault.message text).toList = true := by
  simp only [Fault.message, String.append_assoc]
  exact isForeign_of_beginning _ _ fault.cause.isForeign_message

private theorem Error.isForeign_message_of_isFatal {cause : Error} (fatal : cause.isFatal = true) :
    isForeign cause.message.toList = true := by
  cases cause with
  | commitIntegrity path =>
    have begun := isForeign_of_beginning "Commit reported failure but left an output file at '"
      (path ++ "'") (by decide)
    rwa [← String.append_assoc] at begun
  | _ => cases fatal

private theorem Report.isText_json (report : Report) : IsText report.json.toList := by
  obtain ⟨members, tells⟩ := report.exists_tells
  exact isText_iff.1 tells.readsAs.isText

end Wordings

namespace Service
variable {σ : Type} {method : Method} {name body : String} {r : Request} {o : RunOptions}
  {host after : Host} {events : List Event}

private theorem Method.isForeign_message_of_ofName {cause : Error}
    (h : ofName name = .error cause) :
    isForeign cause.message.toList = true := by
  unfold ofName at h
  split at h
  · cases h
  · cases h
    exact isForeign_of_beginning "Invalid argument: " ("Unknown method: " ++ name) (by decide)

private theorem Method.isForeign_of_readBody {text : String}
    (h : method.readBody body = .error text) :
    isForeign text.toList = true := by
  simp only [Method.readBody] at h
  split at h
  · cases h
    exact Fault.isForeign_message _ _
  · cases h

private theorem path_executeToJson {exit : Exit String}
    (h : Path (r.executeToJson o host) events (exit, after)) :
    (∃ report : Report, exit = .value report.json) ∨
      (∃ cause, exit = .error cause ∧ cause.isFatal = true) ∨ exit = .panic := by
  obtain ⟨ended, execution, rfl⟩ := Action.path_bind_return h
  obtain ⟨inner, ran, -, -, rfl⟩ := Schedule.path_execute execution
  cases ran with
  | value outcome => exact .inl ⟨_, rfl⟩
  | error cause =>
    by_cases fatal : cause.isFatal = true
    · exact .inr (.inl ⟨cause, by simp [Schedule.reported, fatal, Exit.map], fatal⟩)
    · exact .inl ⟨⟨r.operation.kind, r.source, .failed cause.message⟩,
        by simp [Schedule.reported, fatal, Exit.map]⟩
  | panic => exact .inr (.inr rfl)

/-- However an invocation ends, its answer is announced as JSON, and is JSON exactly if it is that of a
success. -/
theorem Ending.isText_iff (ending : Ending) {answer : Response}
    (given : ending.response = some answer)
    (answered : ∀ text, ending = .answered text → IsText text.toList)
    (invalid : ∀ text, ending = .invalid text → isForeign text.toList = true)
    (failed : ∀ cause, ending = .failed cause → cause.isFatal = true) :
    answer.code ∈ [200, 400, 404, 500] ∧ (IsText answer.body.toList ↔ answer.code = 200) := by
  cases ending with
  | answered text =>
    cases given
    exact ⟨by simp, iff_of_true (answered text rfl) rfl⟩
  | invalid text =>
    cases given
    exact ⟨by simp, iff_of_false (not_isText_of_foreign (invalid text rfl)) (by simp)⟩
  | failed cause =>
    cases given
    have foreign := Error.isForeign_message_of_isFatal (failed cause rfl)
    exact ⟨by simp, iff_of_false (not_isText_of_foreign foreign) (by simp)⟩
  | panicked => cases given

/-- Every answer of the service is announced as JSON, whatever the method, the body and the
collaborators are. The answer is JSON if it is that of a success, and never otherwise. -/
theorem answer_isText_iff (w : World σ) (state : σ) (files : FileTree) (s : Service) (host : Host)
    (name body : String) (answer : Response)
    (given : (w.run state files (s.invoke host name body)).value.response = some answer) :
    answer.contentType = "application/json" ∧ answer.code ∈ [200, 400, 404, 500] ∧
      (IsText answer.body.toList ↔ answer.code = 200) := by
  have path := path_invoke (w.path_run state files (s.invoke host name body))
  generalize (w.run state files (s.invoke host name body)).value = left at given path
  generalize exchanges (w.run state files (s.invoke host name body)).events = asked at path
  refine ⟨rfl, ?_⟩
  cases path with
  | unknown cause unknown =>
    cases given
    have foreign := Method.isForeign_message_of_ofName unknown
    exact ⟨by simp, iff_of_false (not_isText_of_foreign foreign) (by simp)⟩
  | invalid method text started ended known read =>
    refine Ending.isText_iff (.invalid text) given (fun _ same => ?_) (fun _ same => ?_)
      fun _ same => ?_
    all_goals cases same
    exact Method.isForeign_of_readBody read
  | served method request inner exit after started time ended known read path =>
    refine Ending.isText_iff (.ofExit exit) given (fun _ same => ?_) (fun _ same => ?_)
      fun _ same => ?_
    all_goals rcases path_executeToJson path with ⟨report, rfl⟩ | ⟨fatal, rfl, isFatal⟩ | rfl
    all_goals cases same
    · exact report.isText_json
    · exact isFatal

/-- An inspection is answered with a JSON text. -/
theorem obliging_answers_text :
    let invoked := (World.obliging (some { granted := ["EXPORT"] }) false).run () {}
      (({} : Service).invoke {} "inspect_file"
        "\x7b\"file\":\"report.docx\",\"application_id\":\"app\"\x7d")
    ∃ answer, invoked.value.response = some answer ∧ answer.code = 200 ∧
      answer.contentType = "application/json" ∧ IsText answer.body.toList := by
  intro invoked
  have answered : (invoked.value.response.map Response.code) = some 200 := by
    decide +kernel
  obtain ⟨answer, given, code⟩ := Option.map_eq_some_iff.1 answered
  obtain ⟨announced, -, text⟩ := answer_isText_iff _ _ _ _ _ _ _ answer given
  exact ⟨answer, given, code, announced, text.2 code⟩

/-- The answer to an unknown method is announced as JSON and is none. -/
theorem obliging_answers_plainly :
    let invoked := (World.obliging (some { granted := ["EXPORT"] }) false).run () {}
      (({} : Service).invoke {} "nope" "\x7b\x7d")
    let answer : Response := ⟨404, "Invalid argument: Unknown method: nope"⟩
    invoked.value.response = some answer ∧ answer.contentType = "application/json" ∧
      ¬ IsText answer.body.toList := by
  refine ⟨by decide +kernel, rfl, not_isText_of_foreign (by decide)⟩

end Service
end DocGuard
