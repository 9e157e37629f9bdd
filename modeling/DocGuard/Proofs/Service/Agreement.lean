import DocGuard.Request.Run
import DocGuard.Proofs.Json.Writing
import DocGuard.Proofs.Request.CommitIntegrity
import DocGuard.Proofs.Service.Invocation

/-! The service and the gateway lead to the same work. A request that comes as a JSON body and one
that comes as texts do the same to the world outside, and are answered alike. -/
namespace DocGuard
variable {σ α β γ : Type}

/-- One run does to the world outside what another one does. -/
structure Run.ActsAs (one : Run σ α) (two : Run σ β) : Prop where
  exchanges : exchanges one.events = exchanges two.events
  state : one.state = two.state
  files : one.files = two.files

namespace Run.ActsAs
variable {one : Run σ α} {two : Run σ β} {three : Run σ γ}

theorem symm (h : one.ActsAs two) : two.ActsAs one :=
  ⟨h.exchanges.symm, h.state.symm, h.files.symm⟩

theorem trans (h : one.ActsAs two) (g : two.ActsAs three) : one.ActsAs three :=
  ⟨h.exchanges.trans g.exchanges, h.state.trans g.state, h.files.trans g.files⟩

theorem calls (h : one.ActsAs two) : one.calls = two.calls := by
  rw [calls_eq, calls_eq, h.exchanges]

end Run.ActsAs

namespace Program

/-- The program asks the clock and writes to the log, and does nothing else. -/
inductive Quiet : Program α → Prop where
  | done (value : α) : Quiet (.done value)
  | clock {next : Duration → Program α} : (∀ now, Quiet (next now)) → Quiet (.ask .clock next)
  | log {record : LogRecord} {next : Unit → Program α} : Quiet (next ()) →
      Quiet (.ask (.log record) next)

end Program

namespace World
variable (w : World σ) (state : σ) (files : FileTree)

theorem run_quiet {program : Program α} (h : program.Quiet) :
    (w.run state files program).ActsAs ⟨(), state, files, []⟩ := by
  induction h with
  | done value => exact ⟨rfl, rfl, rfl⟩
  | clock _ ih => exact ⟨(ih (w.time state)).exchanges, (ih _).state, (ih _).files⟩
  | log _ ih => exact ⟨ih.exchanges, ih.state, ih.files⟩

private theorem run_bind_quiet {first : Program α} {next : α → Program β}
    (h : ∀ value, (next value).Quiet) :
    (w.run state files (first.bind next)).ActsAs (w.run state files first) := by
  rw [run_bind]
  have silent := w.run_quiet (w.run state files first).state (w.run state files first).files
    (h (w.run state files first).value)
  refine ⟨?_, silent.state, silent.files⟩
  rw [exchanges_append, silent.exchanges]
  exact List.append_nil _

private theorem run_bind_value {first : Program α} {next : α → Program β} :
    (w.run state files (first.bind next)).value =
      (w.run (w.run state files first).state (w.run state files first).files
        (next (w.run state files first).value)).value := by
  rw [run_bind]

private theorem run_clock_bind (next : Duration → Program α) :
    (w.run state files (Program.clock >>= next)).ActsAs (w.run state files (next (w.time state))) ∧
      (w.run state files (Program.clock >>= next)).value =
        (w.run state files (next (w.time state))).value :=
  ⟨⟨rfl, rfl, rfl⟩, rfl⟩

private theorem run_log_bind (level : LogLevel) (text : String) (next : Unit → Program α) :
    (w.run state files (Program.log level text >>= next)).ActsAs (w.run state files (next ())) ∧
      (w.run state files (Program.log level text >>= next)).value =
        (w.run state files (next ())).value :=
  ⟨⟨rfl, rfl, rfl⟩, rfl⟩

end World

section Answers
variable {w : World σ} {state : σ} {files : FileTree} {host : Host} {r : Request} {o : RunOptions}

/-- The text of the report tells how the run ended, and the work is that of the run. -/
theorem run_executeToJson :
    (w.run state files (r.executeToJson o host)).ActsAs (w.run state files (r.run o host)) ∧
      (w.run state files (r.executeToJson o host)).value.1 =
        (Schedule.reported r (w.run state files (r.run o host)).value.1).map Report.json := by
  have reports :
      (w.run state files (r.execute o host)).ActsAs (w.run state files (r.run o host)) := by
    refine (w.run_bind_quiet state files ?_).trans ?_
    · rintro ⟨⟨cause | outcome⟩ | cause | _, after⟩
      · by_cases fatal : cause.isFatal = true
        · simp only [fatal, if_true]
          exact .done _
        · simp only [fatal]
          exact .done _
      · exact .log (.done _)
      · exact .done _
      · exact .done _
    · rw [World.run_attempt]
      exact ⟨rfl, rfl, rfl⟩
  constructor
  · refine (w.run_bind_quiet state files ?_).trans reports
    rintro ⟨value | cause | _, after⟩ <;> exact .done _
  · rw [← (Schedule.run_execute w state files).1]
    refine (congrArg Prod.fst (w.run_bind_value state files)).trans ?_
    rcases (w.run state files (r.execute o host)).value with ⟨value | cause | _, after⟩ <;> rfl

/-- How the gateway ends when the execution of a request ends so. -/
def Gateway.answered (r : Request) : Exit String → Exit String
  | .value text => .value text
  | .error cause => .value (Report.mk r.operation.kind r.source (.failed cause.message)).json
  | .panic => .panic

theorem Gateway.run_respond :
    let inner := w.run state files (r.executeToJson {} host)
    let run := w.run state files (respond r host)
    run.ActsAs inner ∧ run.value = (answered r inner.value.1, inner.value.2) := by
  constructor
  · refine (w.run_bind_quiet state files ?_).trans ?_
    · rintro ⟨⟨cause | text⟩ | cause | _, after⟩
      · exact .log (.done _)
      · exact .done _
      · exact .done _
      · exact .done _
    · rw [World.run_attempt]
      exact ⟨rfl, rfl, rfl⟩
  · refine (w.run_bind_value state files).trans ?_
    rw [World.run_attempt]
    rcases w.run state files (r.executeToJson {} host) with ⟨⟨value | cause | _, after⟩, _, _, _⟩ <;>
      rfl

namespace Service
variable {s : Service} {method : Method}

/-- An invocation does the work of an execution, and the end of it tells the answer. -/
structure Answers (run : Run σ Invoked) (inner : Run σ (Exit String × Host)) : Prop where
  acts : run.ActsAs inner
  host : run.value.host = inner.value.2
  response : run.value.response = (Ending.ofExit inner.value.1).response

private theorem run_serve {timer : Timer} :
    Answers (w.run state files (s.serve host method timer r))
      (w.run state files (r.executeToJson s.options host)) := by
  generalize serving : w.run state files (s.serve host method timer r) = run
  have begun : run.ActsAs _ ∧ run.value = _ := serving ▸ w.run_clock_bind state files _
  have acts : run.ActsAs (w.run state files (r.executeToJson s.options host)) := by
    refine begun.1.trans (w.run_bind_quiet state files ?_)
    rintro ⟨value | cause | _, after⟩
    · exact .clock fun _ => .clock fun _ => .done _
    · exact .clock fun _ => .log (.clock fun _ => .done _)
    · exact .clock fun _ => .done _
  have last : run.value = _ := begun.2.trans (w.run_bind_value state files)
  generalize w.run state files (r.executeToJson s.options host) = inner at acts last ⊢
  rcases inner with ⟨⟨value | cause | _, after⟩, _, _, _⟩ <;>
    exact ⟨acts, congrArg Invoked.host last, congrArg Invoked.response last⟩

theorem run_invoke {body : String} (known : Method.ofName method.name = .ok method)
    (read : method.readBody body = .ok r) :
    Answers (w.run state files (s.invoke host method.name body))
      (w.run state files (r.executeToJson s.options host)) := by
  let work : Duration → Program Invoked := fun now =>
    { s with stats := (s.stats.start method now).2 }.serve host method
      (s.stats.start method now).1 r
  have opened : s.invoke host method.name body =
      Program.log .info ("Received " ++ method.name ++ " invocation") >>= fun _ =>
        Program.clock >>= work := by
    simp only [invoke, known, read]
    rfl
  have logged := w.run_log_bind state files .info ("Received " ++ method.name ++ " invocation")
    fun _ => Program.clock >>= work
  have timed := w.run_clock_bind state files work
  have served : Answers (w.run state files (work (w.time state)))
      (w.run state files (r.executeToJson s.options host)) := run_serve
  rw [← opened] at logged
  refine ⟨logged.1.trans (timed.1.trans served.acts), ?_, ?_⟩
  · rw [logged.2, timed.2, served.host]
  · rw [logged.2, timed.2, served.response]

end Service
end Answers

namespace Service.Method

theorem ofName_name (method : Method) : ofName method.name = .ok method := by
  cases method <;> decide +kernel

end Service.Method

/-- The arguments of a request that the service and the gateway both take. -/
inductive Arguments where
  | inspect (file applicationId : String)
  | unprotect (file applicationId token : String)
  | protect (file applicationId token user reference : String)

namespace Arguments
open Service

def method : Arguments → Method
  | inspect .. => .inspectFile
  | unprotect .. => .unprotectFile
  | protect .. => .protectFile

/-- The members that a body has for the arguments. -/
def fields : Arguments → List (String × String)
  | inspect file applicationId => [("file", file), ("application_id", applicationId)]
  | unprotect file applicationId token =>
    [("file", file), ("application_id", applicationId), ("scc_token", token)]
  | protect file applicationId token user reference =>
    [("file", file), ("application_id", applicationId), ("scc_token", token), ("user", user),
      ("encrypted_file", reference)]

/-- The entry point for host programs. -/
def gateway : Arguments → Action String
  | inspect file applicationId => Gateway.inspect file applicationId
  | unprotect file applicationId token => Gateway.unprotect token file applicationId
  | protect file applicationId token user reference =>
    Gateway.protect token file reference user applicationId

/-- The request that is made of the arguments. An empty token or user is none. -/
def request : Arguments → Request
  | inspect file applicationId => .inspect file applicationId
  | unprotect file applicationId token => (Request.unprotect file applicationId).withToken token
  | protect file applicationId token user reference =>
    ((Request.protect file reference applicationId).withToken token).withUser user

/-- The payload of a failure. Only that of an inspection tells the path of the source. -/
def failure (arguments : Arguments) (text : String) : Json.Value :=
  let path := match arguments with
    | inspect file _ => file
    | _ => ""
  .object [("error", .string text), ("path", .string path), ("status", .bool false)]

variable {arguments : Arguments}

theorem gateway_eq : arguments.gateway = Gateway.respond arguments.request := by
  cases arguments <;> rfl

private theorem failure_eq (text : String) : (Report.mk arguments.request.operation.kind
    arguments.request.source (.failed text)).json = (arguments.failure text).render := by
  cases arguments <;> rfl

/-- The two ways to a request agree: a body that holds the arguments makes the request that the
gateway makes of them. -/
theorem readBody_eq {body : String} (record : Json.IsRecord arguments.fields body.toList) :
    arguments.method.readBody body = .ok arguments.request := by
  have names : arguments.method.shape.fields = arguments.fields.map Prod.fst := by
    cases arguments <;> rfl
  have once : arguments.method.shape.fields.Nodup := by
    cases arguments.method <;> decide
  have texts : arguments.method.request (arguments.fields.map Prod.snd) = arguments.request := by
    cases arguments <;> rfl
  simp only [Method.readBody, Json.parseRecord_eq names once record, texts]

/-- Whatever the arguments are, there is a body for them. -/
theorem exists_body (arguments : Arguments) :
    ∃ body : String, Json.IsRecord arguments.fields body.toList := by
  refine ⟨(Json.Value.object (Json.textMembers arguments.fields)).render, ?_⟩
  rw [Json.Value.render, String.toList_ofList]
  exact Json.isRecord_written (by cases arguments <;> exact nofun)

end Arguments

/-- The service and the gateway agree. Whatever the collaborators do, an invocation with a body that
holds some arguments makes the calls that the gateway makes for these arguments, and leaves the host,
the collaborators and the files as the gateway does. A run that is not fatal is answered with the
payload of the gateway, and one that is fatal with the wording of its error, for which the gateway
has a payload of failure. -/
theorem Service.agrees_with_gateway (w : World σ) (state : σ) (files : FileTree) (s : Service)
    (standard : s.options = {}) (host : Host) (arguments : Arguments) (body : String)
    (record : Json.IsRecord arguments.fields body.toList) :
    let served := w.run state files (s.invoke host arguments.method.name body)
    let direct := w.run state files (arguments.gateway host)
    let ran := (w.run state files (arguments.request.run {} host)).value.1
    (served.calls = direct.calls ∧ served.ActsAs direct ∧ served.value.host = direct.value.2) ∧
      (ran ≠ .panic → (∀ cause, ran = .error cause → cause.isFatal = false) →
        ∃ payload, direct.value.1 = .value payload ∧
          served.value.response = some ⟨200, payload⟩) ∧
      (∀ cause, ran = .error cause → cause.isFatal = true →
        direct.value.1 = .value (arguments.failure cause.message).render ∧
          served.value.response = some ⟨500, cause.message⟩) ∧
      (ran = .panic → direct.value.1 = .panic ∧ served.value.response = none) := by
  intro served direct ran
  let inner := w.run state files (arguments.request.executeToJson {} host)
  have answers : Answers served inner := by
    have invoked : Answers served
        (w.run state files (arguments.request.executeToJson s.options host)) :=
      run_invoke (Method.ofName_name _) (Arguments.readBody_eq record)
    rwa [standard] at invoked
  have responds : direct.ActsAs inner ∧
      direct.value = (Gateway.answered arguments.request inner.value.1, inner.value.2) := by
    simp only [direct, Arguments.gateway_eq]
    exact Gateway.run_respond
  have ended : inner.value.1 = (Schedule.reported arguments.request ran).map Report.json :=
    run_executeToJson.2
  have same : served.ActsAs direct := answers.acts.trans responds.1.symm
  have left : served.value.host = direct.value.2 := by rw [answers.host, responds.2]
  have told : direct.value.1 = Gateway.answered arguments.request inner.value.1 :=
    congrArg Prod.fst responds.2
  have response := answers.response
  rw [ended] at told response
  refine ⟨⟨same.calls, same, left⟩, ?_, ?_, ?_⟩
  · intro unbroken ordinary
    cases exit : ran with
    | value outcome =>
      rw [exit] at told response
      exact ⟨_, told, response⟩
    | error cause =>
      simp only [exit, Schedule.reported, ordinary cause exit] at told response
      exact ⟨_, told, response⟩
    | panic => exact absurd exit unbroken
  · intro cause failed fatal
    simp only [failed, Schedule.reported, fatal, if_true] at told response
    exact ⟨told.trans (congrArg Exit.value (Arguments.failure_eq _)), response⟩
  · intro broken
    rw [broken] at told response
    exact ⟨told, response⟩

namespace Arguments
open Json

/-- Arguments that a body may hold in many ways. -/
def padded : Arguments :=
  .unprotect "report.docx" "app" "token"

/-- A body for them, with an escape, padding, an order of its own and a further member. -/
def paddedBody : String :=
  " \x7b\"scc_token\" :\n\"t\\u006fken\", \"more\":[-1.5e+3,\x7b\"\":null\x7d],"
    ++ "\t\"file\":\"report.docx\",\"application_id\":\"app\"\x7d\r\n"

private theorem isRecord_padded : Json.IsRecord padded.fields paddedBody.toList := by
  have named (name text : String) (asked : name ∈ padded.fields.map Prod.fst)
      (plain : (name.toList ++ text.toList).all isPlain) (t : List Char) :
      SpansMember (padded.fields.map Prod.fst) [(name, text)]
        ('"' :: (name.toList ++ '"' :: ':' :: '"' :: (text.toList ++ '"' :: t))) t := by
    rw [List.all_append, Bool.and_eq_true] at plain
    obtain ⟨first, second⟩ := plain
    exact .named asked (.ofPlain first) (.none _) (.none _) (.ofPlain second)
  have file := named "file" "report.docx" (by decide) (by decide)
  have application := named "application_id" "app" (by decide) (by decide)
  have token (t : List Char) : SpansMember (padded.fields.map Prod.fst) [("scc_token", "token")]
      ('"' :: ("scc_token".toList ++ '"' :: ' ' :: ':' :: '\n' :: '"' :: 't' :: '\\' :: 'u' :: '0' ::
        '0' :: '6' :: 'f' :: ("ken".toList ++ '"' :: t))) t := by
    refine .named (by decide) (.ofPlain (by decide)) (.more (by decide) (.none _))
      (.more (by decide) (.none _)) ?_
    refine .plain (by decide) (by decide) (by decide) ?_
    refine .unit ⟨0, 0, 6, 15, ?_⟩ (.ofPlain (by decide))
    refine ⟨⟨?_, ?_⟩, ⟨?_, ?_⟩, ⟨?_, ?_⟩, ⟨?_, ?_⟩, ?_⟩ <;> decide
  have number (t : List Char) : SpansNumber ('1' :: '.' :: '5' :: 'e' :: '+' :: '3' :: t) t :=
    .mk (.digits (by decide) (by decide) (.none _)) (.digits (by decide) (.none _))
      (.signed (by decide) (by decide) (by decide) (.none _))
  have object (t : List Char) :
      Spans .value ('\x7b' :: '"' :: '"' :: ':' :: 'n' :: 'u' :: 'l' :: 'l' :: '\x7d' :: t) t :=
    .object (.none _) (.lastMember (.close _) (.none _) (.none _) (.nullWord _) (.none _))
  have more (t : List Char) : SpansMember (padded.fields.map Prod.fst) []
      ('"' :: ("more".toList ++ '"' :: ':' :: '[' :: '-' :: '1' :: '.' :: '5' :: 'e' :: '+' :: '3' ::
        ',' :: '\x7b' :: '"' :: '"' :: ':' :: 'n' :: 'u' :: 'l' :: 'l' :: '\x7d' :: ']' :: t)) t :=
    .further (by decide) (.ofPlain (by decide)) (.none _) (.none _) (.list (.none _)
      (.element (.negative (number _)) (.none _) (.none _) (.lastElement (object _) (.none _))))
  have space (t : List Char) : SpansBlanks (' ' :: t) t := .more (by decide) (.none t)
  have tab (t : List Char) : SpansBlanks ('\t' :: t) t := .more (by decide) (.none t)
  have line : SpansBlanks ['\r', '\n'] [] := .more (by decide) (.more (by decide) (.none _))
  refine .mk (space _) (.none _) (token _)
    (.next (.none _) (space _) (more _) (.next (.none _) (tab _) (file _)
      (.next (.none _) (.none _) (application _) (.close (.none _))))) line ?_
  decide

end Arguments

/-- A body with padding, and a commit that leaves a file but tells that it wrote nothing. -/
theorem Service.obliging_agrees_with_gateway :
    let w := World.obliging (some { granted := ["EXPORT"] }) false
    let files : FileTree :=
      { entries := [(["tmp"], .directory), (["tmp", "documents"], .directory),
          (["tmp", "documents", "report_modified.docx"], .file [])] }
    let served := w.run () files (({} : Service).invoke {} "unprotect_file" Arguments.paddedBody)
    let direct := w.run () files (Gateway.unprotect "token" "report.docx" "app" {})
    let cause := Error.commitIntegrity "report_modified.docx"
    ({} : Service).options = {} ∧
      Json.IsRecord Arguments.padded.fields Arguments.paddedBody.toList ∧
      served.calls = direct.calls ∧ served.ActsAs direct ∧ served.value.host = direct.value.2 ∧
      direct.value.1 = .value (Arguments.padded.failure cause.message).render ∧
      served.value.response = some ⟨500, cause.message⟩ := by
  intro w files served direct cause
  obtain ⟨⟨calls, acts, host⟩, -, fatal, -⟩ := Service.agrees_with_gateway w () files {} rfl {}
    Arguments.padded Arguments.paddedBody Arguments.isRecord_padded
  have failed : (w.run () files (Arguments.padded.request.run {} {})).value.1 = .error cause := by
    decide +kernel
  exact ⟨rfl, Arguments.isRecord_padded, calls, acts, host, fatal cause failed rfl⟩

end DocGuard
