import DocGuard.Proofs.Json.Acceptance
import DocGuard.Proofs.Service.Agreement

/-! The bodies that the service takes. A method takes an object that holds its arguments and, which
its description does not say, a list of them. Any other body is refused before anything is done. -/
namespace DocGuard
open Service Json
variable {σ : Type}

namespace Arguments
variable {arguments : Arguments} {method : Method}

/-- The body has the arguments, by their names or in their order. -/
def HeldBy (arguments : Arguments) (body : String) : Prop :=
  IsRecord arguments.fields body.toList ∨ IsListing (arguments.fields.map Prod.snd) body.toList

/-- The method finds arguments of its own in the body. -/
def Accepts (method : Method) (body : String) : Prop :=
  ∃ arguments : Arguments, arguments.method = method ∧ arguments.HeldBy body

private theorem shape_fields (arguments : Arguments) :
    arguments.method.shape.fields = arguments.fields.map Prod.fst := by
  cases arguments <;> rfl

private theorem request_texts (arguments : Arguments) :
    arguments.method.request (arguments.fields.map Prod.snd) = arguments.request := by
  cases arguments <;> rfl

private theorem exists_of_length {texts : List String}
    (count : texts.length = method.shape.fields.length) :
    ∃ arguments : Arguments, arguments.method = method ∧
      arguments.fields.map Prod.snd = texts := by
  cases method with
  | inspectFile =>
    obtain ⟨file, application, rfl⟩ := List.length_eq_two.1 count
    exact ⟨.inspect file application, rfl, rfl⟩
  | unprotectFile =>
    obtain ⟨file, application, token, rfl⟩ := List.length_eq_three.1 count
    exact ⟨.unprotect file application token, rfl, rfl⟩
  | protectFile =>
    obtain ⟨file, texts, rfl⟩ := List.exists_cons_of_length_eq_add_one count
    obtain ⟨application, texts, rfl⟩ := List.exists_cons_of_length_eq_add_one (Nat.succ.inj count)
    obtain ⟨token, user, reference, rfl⟩ := List.length_eq_three.1 (Nat.succ.inj (Nat.succ.inj count))
    exact ⟨.protect file application token user reference, rfl, rfl⟩

/-- The request in a body is that of the arguments which the body has. -/
theorem readBody_iff {body : String} {request : Request} :
    method.readBody body = .ok request ↔
      ∃ arguments : Arguments, arguments.method = method ∧ arguments.HeldBy body ∧
        arguments.request = request := by
  have filled : method.shape.fields ≠ [] := by
    cases method <;> decide
  have once : method.shape.fields.Nodup := by
    cases method <;> decide
  constructor
  · intro h
    simp only [Method.readBody] at h
    split at h
    · cases h
    · rename_i texts read
      cases h
      rcases (parseRecord_iff filled once).1 read with ⟨fields, names, rfl, record⟩ | ⟨count, listing⟩
      · have count : (fields.map Prod.snd).length = method.shape.fields.length := by
          rw [← names, List.length_map, List.length_map]
        obtain ⟨arguments, rfl, texts⟩ := exists_of_length count
        have same : arguments.fields = fields :=
          (List.zip_of_prod arguments.shape_fields.symm texts).trans
            (List.zip_of_prod names rfl).symm
        exact ⟨arguments, rfl, .inl (same ▸ record), by rw [← texts, request_texts]⟩
      · obtain ⟨arguments, rfl, rfl⟩ := exists_of_length count
        exact ⟨arguments, rfl, .inr listing, (request_texts arguments).symm⟩
  · rintro ⟨arguments, rfl, record | listing, rfl⟩
    · exact readBody_eq record
    · have count : (arguments.fields.map Prod.snd).length = arguments.method.shape.fields.length := by
        rw [shape_fields, List.length_map, List.length_map]
      simp only [Method.readBody, listing.parse_eq count, request_texts]

end Arguments

namespace Service
variable (w : World σ) (state : σ) (files : FileTree) (s : Service) (host : Host) (method : Method)
  (body : String)

private theorem run_invoke_invalid {method : Method} {body text : String}
    (read : method.readBody body = .error text) :
    let run := w.run state files (s.invoke host method.name body)
    run.ActsAs ⟨(), state, files, []⟩ ∧ run.value.response = some ⟨400, text⟩ ∧
      run.value.host = host := by
  have opened : s.invoke host method.name body =
      Program.log .info ("Received " ++ method.name ++ " invocation") >>= fun _ =>
        Program.clock >>= fun now =>
          Program.log .info ("Validation error in " ++ method.name ++ ": " ++ text) >>= fun _ =>
            { s with stats := (s.stats.start method now).2 }.finish (s.stats.start method now).1
              .validationError >>= fun after => pure ⟨some ⟨400, text⟩, host, after⟩ := by
    simp only [invoke, Method.ofName_name, read]
  refine ⟨w.run_quiet state files ?_, ?_, ?_⟩
  · rw [opened]
    exact .log (.clock fun _ => .log (.clock fun _ => .done _))
  · rw [opened]
    rfl
  · rw [opened]
    rfl

private theorem Ending.response_ofExit_ne {exit : Exit String} {text : String} :
    (ofExit exit).response ≠ some ⟨400, text⟩ := by
  cases exit <;> simp [ofExit, response]

/-- The service takes exactly the bodies that have arguments of the method, and does the work for
these arguments. Every other body is answered with the code of a bad request, and nothing is called,
and the host, the collaborators and the files are left as they were. -/
theorem accepts_iff :
    let run := w.run state files (s.invoke host method.name body)
    ((∀ text, run.value.response ≠ some ⟨400, text⟩) ↔ Arguments.Accepts method body) ∧
      (¬ Arguments.Accepts method body → ∃ text, run.value.response = some ⟨400, text⟩ ∧
        run.calls = [] ∧ run.value.host = host ∧ run.state = state ∧ run.files = files) ∧
      ∀ arguments : Arguments, arguments.method = method → arguments.HeldBy body →
        Answers run (w.run state files (arguments.request.executeToJson s.options host)) := by
  intro run
  have refused : ¬ Arguments.Accepts method body → ∃ text,
      run.value.response = some ⟨400, text⟩ ∧ run.calls = [] ∧ run.value.host = host ∧
        run.state = state ∧ run.files = files := by
    intro foreign
    cases read : method.readBody body with
    | error text =>
      obtain ⟨acts, response, kept⟩ := run_invoke_invalid w state files s host read
      exact ⟨text, response, acts.calls, kept, acts.state, acts.files⟩
    | ok request =>
      obtain ⟨arguments, own, held, -⟩ := Arguments.readBody_iff.1 read
      exact absurd ⟨arguments, own, held⟩ foreign
  have served : ∀ arguments : Arguments, arguments.method = method → arguments.HeldBy body →
      Answers run (w.run state files (arguments.request.executeToJson s.options host)) :=
    fun arguments own held => run_invoke (Method.ofName_name method)
      (Arguments.readBody_iff.2 ⟨arguments, own, held, rfl⟩)
  refine ⟨⟨fun taken => ?_, fun ⟨arguments, own, held⟩ text given => ?_⟩, refused, served⟩
  · by_contra foreign
    obtain ⟨text, given, -⟩ := refused foreign
    exact taken text given
  · rw [(served arguments own held).response] at given
    exact Ending.response_ofExit_ne given

/-- The texts alone, without their names, are taken and answered as the object with them would be. -/
theorem obliging_accepts_list :
    let body := "[\"report.docx\",\"app\"]"
    let run := (World.obliging (some { granted := ["EXPORT"] }) false).run () {}
      (({} : Service).invoke {} "inspect_file" body)
    run.value.response.map Response.code = some 200 ∧
      ∀ fields, ¬ IsRecord fields body.toList := by
  refine ⟨by decide +kernel, ?_⟩
  rintro fields ⟨opened, -⟩
  have start := congrArg List.head? (opened.dropBlanks_cons (by decide))
  rw [List.head?_cons] at start
  revert start
  decide

end Service
end DocGuard
