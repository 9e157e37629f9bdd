import DocGuard.Proofs.Request.OwnObjects
import DocGuard.Proofs.Service.Agreement

/-! What becomes of the token of a request at a host that passes tokens on. It is the credential in
the settings of the engine that is made for the request, and nothing else depends on it: with two
tokens a request does the same, as long as the collaborators reply the same to both. -/
namespace DocGuard
open DocGuard.Action

def EngineSettings.withCredential (s : EngineSettings) (secret : Secret) : EngineSettings :=
  { s with auth := { s.auth with credential := secret } }

/-- The call with another credential, if it is one to make an engine. The question for a credential
holds a token too and keeps it. -/
def Call.withCredential (secret : Secret) : Call → Call
  | addEngine profile settings => .addEngine profile (settings.withCredential secret)
  | c => c

/-- A question that is the same with every token: no engine is made, and the clock is not read. -/
def Question.IsCommon : Question → Prop
  | call (.addEngine ..) | clock => False
  | _ => True

private theorem Question.IsOwn.isCommon {known : List Object} {q : Question} (h : q.IsOwn known) :
    q.IsCommon := by
  cases q with
  | call c =>
    cases c with
    | addEngine => cases h.1
    | _ => exact True.intro
  | clock => exact h
  | _ => exact True.intro

private theorem Call.withCredential_of_isCommon {c : Call} (h : (Question.call c).IsCommon)
    (secret : Secret) : c.withCredential secret = c := by
  cases c with
  | addEngine => exact h.elim
  | _ => rfl

namespace Program
variable {α β : Type} {one two : Secret}

/-- Two programs that differ in a credential only: where the first makes an engine with the one, the
second makes one with the other. -/
inductive Twins (one two : Secret) : Program α → Program α → Prop where
  | done (value : α) : Twins one two (.done value) (.done value)
  | ask (q : Question) {next₁ next₂ : q.Answer → Program α} : q.IsCommon →
      (∀ answer, Twins one two (next₁ answer) (next₂ answer)) →
      Twins one two (.ask q next₁) (.ask q next₂)
  | engine (profile : ProfileHandle) (settings : EngineSettings)
      {next₁ next₂ : Option (Completion EngineHandle) → Program α} :
      (∀ answer, Twins one two (next₁ answer) (next₂ answer)) →
      Twins one two (.ask (.call (.addEngine profile (settings.withCredential one))) next₁)
        (.ask (.call (.addEngine profile (settings.withCredential two))) next₂)

namespace Twins
variable {first second : Program α}

theorem refl {program : Program α} (h : program.Asks Question.IsCommon) :
    Twins one two program program := by
  induction program with
  | done value => exact .done value
  | ask q next ih => exact .ask q h.1 fun answer => ih answer (h.2 answer)

theorem bind {next₁ next₂ : α → Program β} (h : Twins one two first second)
    (g : ∀ value, Twins one two (next₁ value) (next₂ value)) :
    Twins one two (first.bind next₁) (second.bind next₂) := by
  induction h with
  | done value => exact g value
  | ask q other _ ih => exact .ask q other ih
  | engine profile settings _ ih => exact .engine profile settings ih

end Twins
end Program

namespace Action
variable {α β : Type} {one two : Secret}

/-- Two actions that differ in a credential only, whatever the host is. -/
def Twins (one two : Secret) (first second : Action α) : Prop :=
  ∀ host, Program.Twins one two (first host) (second host)

private theorem twins_refl {action : Action α} (h : Asks Question.IsCommon action) :
    Twins one two action action :=
  fun host => .refl (h host)

private theorem twins_bind {first second : Action α} {next₁ next₂ : α → Action β}
    (h : Twins one two first second) (g : ∀ value, Twins one two (next₁ value) (next₂ value)) :
    Twins one two (first >>= next₁) (second >>= next₂) := by
  intro host
  refine (h host).bind fun ended => ?_
  obtain ⟨value | cause | _, after⟩ := ended
  · exact g value after
  · exact .done _
  · exact .done _

private theorem twins_behind {first : Action α} {next₁ next₂ : α → Action β}
    (h : Asks Question.IsCommon first)
    (g : ∀ value, Twins one two (next₁ value) (next₂ value)) :
    Twins one two (first >>= next₁) (first >>= next₂) :=
  twins_bind (twins_refl h) g

private theorem twins_addEngine {profile : ProfileHandle} {settings : EngineSettings} :
    Twins one two (call (.addEngine profile (settings.withCredential one)))
      (call (.addEngine profile (settings.withCredential two))) := by
  intro host
  refine .engine profile settings fun answer => ?_
  cases answer <;> exact .done _

end Action

namespace EngineConfig
variable {c : EngineConfig} {policy : Option String} {auth : AuthContext}

private theorem settings_withCredential (credential : Secret) :
    c.settings policy { auth with credential } =
      (c.settings policy auth).map (·.withCredential credential) := by
  simp only [settings, Bind.bind, Except.bind]
  cases c.containerDecryption <;> rfl

private theorem readSettings_bind {α : Type} (next : Except Error EngineSettings → Action α) :
    ofProgram (c.readSettings auth) >>= next = ofProgram c.readPolicy >>= fun read =>
      next (read.bind fun policy => c.settings policy auth) := by
  funext host
  have split : c.readSettings auth = c.readPolicy.bind fun read =>
      .done (read.bind fun policy => c.settings policy auth) := by
    refine congrArg c.readPolicy.bind (funext fun read => ?_)
    cases read <;> rfl
  have whole (program : Program (Except Error EngineSettings)) :
      (ofProgram program >>= next) host = program.bind fun settings => next settings host :=
    Program.bind_assoc program _ _
  have part : (ofProgram c.readPolicy >>= fun read =>
      next (read.bind fun policy => c.settings policy auth)) host =
        c.readPolicy.bind fun read => next (read.bind fun policy => c.settings policy auth) host :=
    Program.bind_assoc c.readPolicy _ _
  rw [whole, part, split, Program.bind_assoc]
  rfl

end EngineConfig

namespace Request
variable {r : Request} {o : RunOptions} {host : Host} {one two : Secret}

private theorem createEngine_of_passThrough (passes : host.config.tokens = .passThrough)
    (token : Secret) :
    (r.bearing (some token)).createEngine host = (Host.profile { id := r.applicationId } >>=
      makeEngine { identity := r.user, credential := token }) host := by
  have authenticates : (r.bearing (some token)).authenticate host =
      .done (.value { identity := r.user, credential := token }, host) := by
    obtain ⟨⟨_, _, _, _, _⟩, _, _, _⟩ := host
    cases passes
    rfl
  have bound : (r.bearing (some token)).createEngine host =
      ((r.bearing (some token)).authenticate host).bind _ := rfl
  rw [bound, authenticates]
  rfl

private theorem twins_makeEngine {auth : AuthContext} {profile : ProfileHandle} :
    Twins one two (makeEngine { auth with credential := one } profile)
      (makeEngine { auth with credential := two } profile) := by
  refine twins_behind asks_get fun host => ?_
  simp only [EngineConfig.readSettings_bind]
  have reads : Asks Question.IsCommon (ofProgram host.config.engine.readPolicy) :=
    asks_of_closed (confined_ofProgram asks_local_readPolicy) fun _ _ => (·.isCommon)
  refine twins_behind reads fun read => ?_
  cases read with
  | error cause => exact twins_refl asks_fail
  | ok policy =>
    simp only [Except.bind, EngineConfig.settings_withCredential]
    cases host.config.engine.settings policy auth with
    | error cause => exact twins_refl asks_fail
    | ok settings =>
      simp only [Except.map, ofExcept_ok, Action.pure_bind]
      exact twins_bind twins_addEngine fun reply => twins_refl asks_ofExcept

private theorem asks_common_profile {application : Application} :
    Asks Question.IsCommon (Host.profile application) :=
  asks_profile (fun _ => True.intro) (fun _ => True.intro) fun _ => True.intro

/-- A run with another token is the same run but for the credential of its engine. -/
theorem twins_run (passes : host.config.tokens = .passThrough) :
    Program.Twins one two ((r.bearing (some one)).run o host)
      ((r.bearing (some two)).run o host) := by
  cases valid : r.validate with
  | error cause =>
    have same (token : Option Secret) : (r.bearing token).run o = fail cause :=
      run_of_invalid valid
    rw [same, same]
    exact .done _
  | ok _ =>
    by_cases inspects : r.operation = .inspect
    · have same (token : Option Secret) : (r.bearing token).run o =
          inspectPath o r.source >>= fun status => Pure.pure (.inspected status) :=
        run_of_inspect valid inspects
      have looks : Asks Question.IsCommon (inspectPath o r.source) :=
        asks_of_closed closed_inspectPath fun _ _ => (·.isCommon)
      rw [same, same]
      exact twins_refl (asks_bind looks fun _ => asks_pure) host
    · obtain ⟨finish, closed, same⟩ := exists_engaged valid inspects (o := o)
      have bound (token : Option Secret) : (r.bearing token).run o host =
          ((r.bearing token).createEngine host).bind _ := congrFun (same token) host
      rw [bound, bound, createEngine_of_passThrough passes, createEngine_of_passThrough passes]
      let auth : AuthContext := ⟨r.user, one⟩
      have made : Twins one two
          (Host.profile { id := r.applicationId } >>= makeEngine { auth with credential := one })
          (Host.profile { id := r.applicationId } >>= makeEngine { auth with credential := two }) :=
        twins_behind asks_common_profile fun profile => twins_makeEngine
      refine (made host).bind fun ended => ?_
      obtain ⟨engine | cause | _, after⟩ := ended
      · have onward : Asks Question.IsCommon (r.engaged o finish engine) :=
          (closed engine).asks fun _ _ => (·.isCommon)
        exact .refl (onward after)
      · exact .done _
      · exact .done _

private theorem twins_execute (passes : host.config.tokens = .passThrough) :
    Program.Twins one two ((r.bearing (some one)).execute o host)
      ((r.bearing (some two)).execute o host) := by
  rw [execute_eq, execute_eq]
  refine Program.Twins.bind ?_ fun ended => .refl ?_
  · refine (twins_run passes).bind fun ended => ?_
    obtain ⟨value | cause | _, after⟩ := ended <;> exact .done _
  · obtain ⟨⟨cause | outcome⟩ | cause | _, after⟩ := ended
    · unfold conclude
      dsimp only
      split <;> exact .done _
    · exact ⟨True.intro, fun _ => .done _⟩
    · exact .done _
    · exact .done _

private theorem twins_executeToJson (passes : host.config.tokens = .passThrough) :
    Program.Twins one two ((r.bearing (some one)).executeToJson o host)
      ((r.bearing (some two)).executeToJson o host) := by
  refine (twins_execute passes).bind fun ended => ?_
  obtain ⟨report | cause | _, after⟩ := ended <;> exact .done _

end Request

/-- Collaborators whose replies do not depend on the credential in the settings of an engine. They may
keep it to themselves: what they keep, and what they leave in the files, is alike as long as no reply
and no look at a file tells it apart. -/
structure World.Tokenless {σ : Type} (w : World σ)
    (alike : σ × FileTree → σ × FileTree → Prop) : Prop where
  reads : ∀ {here there}, alike here there → ∀ path, here.2.read path = there.2.read path
  looks : ∀ {here there}, alike here there →
    ∀ path, here.2.pathExists path = there.2.pathExists path
  replies : ∀ {here there}, alike here there → ∀ c,
    (w.reply here.1 here.2 c).1 = (w.reply there.1 there.2 c).1 ∧
      alike (w.reply here.1 here.2 c).2 (w.reply there.1 there.2 c).2
  engines : ∀ {here there}, alike here there → ∀ profile settings secret,
    let one := w.reply here.1 here.2 (.addEngine profile settings)
    let two := w.reply there.1 there.2 (.addEngine profile (settings.withCredential secret))
    one.1 = two.1 ∧ alike one.2 two.2

/-- Two runs that end alike and differ in a credential only: the calls are the same up to the
credential of the engine, which is the one here and the other there. -/
structure Run.Twins {σ α : Type} (alike : σ × FileTree → σ × FileTree → Prop) (one two : Secret)
    (here there : Run σ α) : Prop where
  value : here.value = there.value
  outside : alike (here.state, here.files) (there.state, there.files)
  calls : there.calls = here.calls.map (Call.withCredential two)
  credential : ∀ c ∈ here.calls, c.withCredential one = c
  log : here.log = there.log

section Secrecy
variable {σ α : Type} {w : World σ} {alike : σ × FileTree → σ × FileTree → Prop} {one two : Secret}
  {here there : σ} {files files' : FileTree}

/-- A first call that differs in the credential only. -/
theorem Run.Twins.call {run run' : Run σ α} (h : run.Twins alike one two run') {c c' : Call}
    {answer : Option c.Reply} {answer' : Option c'.Reply} (first : c.withCredential one = c)
    (second : c' = c.withCredential two) :
    ({ run with events := ⟨.call c, answer⟩ :: run.events } : Run σ α).Twins alike one two
      { run' with events := ⟨.call c', answer'⟩ :: run'.events } where
  value := h.value
  outside := h.outside
  calls := by
    have calls : c' :: run'.calls = (c :: run.calls).map (Call.withCredential two) := by
      rw [h.calls, second, List.map_cons]
    exact calls
  credential := by
    intro other mem
    rcases List.mem_cons.1 mem with rfl | mem
    · exact first
    · exact h.credential other mem
  log := h.log

/-- The runs of two programs that differ in a credential only, by induction on the programs: each
answer is the same, and what is outside stays alike. -/
theorem World.Tokenless.run_twins (tokenless : w.Tokenless alike) {first second : Program α}
    (h : Program.Twins one two first second) (start : alike (here, files) (there, files')) :
    (w.run here files first).Twins alike one two (w.run there files' second) := by
  induction h generalizing here there files files' with
  | done value => exact ⟨rfl, start, rfl, nofun, rfl⟩
  | ask q common _ ih =>
    cases q with
    | call c =>
      obtain ⟨same, next⟩ := tokenless.replies start c
      have kept (secret : Secret) : c.withCredential secret = c :=
        Call.withCredential_of_isCommon common secret
      simp only [World.run, World.answer, same]
      exact (ih _ next).call (kept one) (kept two).symm
    | readFile path =>
      have rest := ih (files'.read path) start
      simp only [World.run, World.answer, tokenless.reads start path]
      exact ⟨rest.value, rest.outside, rest.calls, rest.credential, rest.log⟩
    | fileExists path =>
      have rest := ih (files'.pathExists path) start
      simp only [World.run, World.answer, tokenless.looks start path]
      exact ⟨rest.value, rest.outside, rest.calls, rest.credential, rest.log⟩
    | clock => exact common.elim
    | log record =>
      have rest := ih () start
      exact ⟨rest.value, rest.outside, rest.calls, rest.credential,
        congrArg (record :: ·) rest.log⟩
  | engine profile settings _ ih =>
    obtain ⟨same, next⟩ := tokenless.engines start profile (settings.withCredential one) two
    simp only [World.run, World.answer]
    rw [same]
    exact (ih _ next).call rfl rfl

/-- Nothing but the settings of its engine tells the token of a request at a host that passes tokens
on. With two tokens an execution has the same result or error, writes the same to the log and leaves
the same host; so does one that ends with the JSON text, and the service gives the same response to
two bodies that hold the requests. The calls differ in the credential of the engine only, which is
the token. -/
theorem World.Tokenless.hides_token (tokenless : w.Tokenless alike)
    (start : alike (here, files) (there, files')) {host : Host}
    (passes : host.config.tokens = .passThrough) (r : Request) (o : RunOptions)
    (one two : Secret) :
    let ours := r.bearing (some one)
    let theirs := r.bearing (some two)
    (w.run here files (ours.execute o host)).Twins alike one two
        (w.run there files' (theirs.execute o host)) ∧
      (w.run here files (ours.executeToJson o host)).Twins alike one two
        (w.run there files' (theirs.executeToJson o host)) ∧
      ∀ (s : Service) (method : Service.Method) (body body' : String), s.options = o →
        method.readBody body = .ok ours → method.readBody body' = .ok theirs →
        let served := w.run here files (s.invoke host method.name body)
        let served' := w.run there files' (s.invoke host method.name body')
        served.value.response = served'.value.response ∧
          served.value.host = served'.value.host ∧
          served'.calls = served.calls.map (Call.withCredential two) ∧
          ∀ c ∈ served.calls, c.withCredential one = c := by
  intro ours theirs
  have texts : (w.run here files (ours.executeToJson o host)).Twins alike one two
      (w.run there files' (theirs.executeToJson o host)) :=
    tokenless.run_twins (Request.twins_executeToJson passes) start
  refine ⟨tokenless.run_twins (Request.twins_execute passes) start, texts, ?_⟩
  rintro s method body body' rfl read read' served served'
  have named := Service.Method.ofName_name method
  have answers : Service.Answers served _ := Service.run_invoke named read
  have answers' : Service.Answers served' _ := Service.run_invoke named read'
  rw [answers.response, answers'.response, answers.host, answers'.host, answers.acts.calls,
    answers'.acts.calls, texts.value]
  exact ⟨rfl, rfl, texts.calls, texts.credential⟩

end Secrecy

namespace World

/-- Collaborators that do what they are asked, and remember each credential that they get. -/
def remembering (protection : Option Policy) (written : Bool) : World (List Secret) where
  reply := fun secrets files c =>
    (((obliging protection written).reply () files c).1,
      match c with
      | .addEngine _ settings => settings.auth.credential :: secrets
      | _ => secrets,
      files)
  time := fun secrets => ⟨secrets.length⟩

private theorem tokenless_remembering (protection : Option Policy) (written : Bool) :
    (remembering protection written).Tokenless fun here there => here.2 = there.2 where
  reads := by
    rintro here there same path
    rw [same]
  looks := by
    rintro here there same path
    rw [same]
  replies := by
    rintro ⟨here, _⟩ ⟨there, _⟩ rfl c
    exact ⟨rfl, rfl⟩
  engines := by
    rintro ⟨here, _⟩ ⟨there, _⟩ rfl profile settings secret
    exact ⟨rfl, rfl⟩

end World

/-- A document is unprotected with two tokens, which the collaborators remember. -/
theorem World.remembering_hides_token :
    let w := World.remembering (some { granted := ["EXPORT"] }) true
    let r := Request.unprotect "report.docx" "app"
    let one : Secret := ⟨"first token"⟩
    let two : Secret := ⟨"second"⟩
    let body (token : Secret) := "\x7b\"file\":\"report.docx\",\"application_id\":\"app\","
      ++ "\"scc_token\":\"" ++ token.text ++ "\"\x7d"
    let here := w.run [] {} ((r.bearing (some one)).execute {} {})
    let there := w.run [] {} ((r.bearing (some two)).execute {} {})
    let served := w.run [] {} (({} : Service).invoke {} "unprotect_file" (body one))
    let served' := w.run [] {} (({} : Service).invoke {} "unprotect_file" (body two))
    ({} : Host).config.tokens = .passThrough ∧
      (here.state = [one] ∧ there.state = [two]) ∧
      here.Twins (fun here there => here.2 = there.2) one two there ∧
      served.value.response = served'.value.response ∧ served.calls.length = 10 ∧
      served'.calls = served.calls.map (Call.withCredential two) := by
  intro w r one two body here there served served'
  let alike (here there : List Secret × FileTree) : Prop := here.2 = there.2
  have start : alike ([], {}) ([], {}) := rfl
  have passes : ({} : Host).config.tokens = .passThrough := rfl
  obtain ⟨twins, -, serving⟩ := World.Tokenless.hides_token
    (World.tokenless_remembering (some { granted := ["EXPORT"] }) true) start passes r {} one two
  obtain ⟨response, -, calls, -⟩ :=
    serving {} .unprotectFile (body one) (body two) rfl (by decide +kernel) (by decide +kernel)
  exact ⟨passes, by decide +kernel, twins, response, by decide +kernel, calls⟩

end DocGuard
