import DocGuard.Engine.World

/-! Paths of programs: what a program asks when it is answered so, and the value it ends with. A
path quantifies over every world, also over those that change their mind. The path of a composed
program is the path of its first part and then that of the second, and a run in a world is a path.
-/
namespace DocGuard

/-- The path of a program along some events to a value. -/
inductive Program.Path {α : Type} : Program α → List Event → α → Prop where
  | done (value : α) : Path (.done value) [] value
  | ask (q : Question) (next : q.Answer → Program α) (answer : q.Answer) (events : List Event)
      (value : α) :
      Path (next answer) events value → Path (.ask q next) (⟨q, answer⟩ :: events) value

namespace Program.Path
variable {α β : Type}

theorem done_iff {value v : α} {events : List Event} :
    Path (.done value) events v ↔ events = [] ∧ v = value := by
  constructor
  · intro h
    cases h
    exact ⟨rfl, rfl⟩
  · rintro ⟨rfl, rfl⟩
    exact .done _

theorem ask_iff {q : Question} {next : q.Answer → Program α} {events : List Event} {value : α} :
    Path (.ask q next) events value ↔
      ∃ answer rest, events = ⟨q, answer⟩ :: rest ∧ Path (next answer) rest value := by
  constructor
  · intro h
    cases h with
    | ask _ _ answer rest _ h => exact ⟨answer, rest, rfl, h⟩
  · rintro ⟨answer, rest, rfl, h⟩
    exact .ask _ _ _ _ _ h

theorem bind_iff {first : Program α} {next : α → Program β} {events : List Event} {value : β} :
    Path (first.bind next) events value ↔
      ∃ before after middle, events = before ++ after ∧ Path first before middle ∧
        Path (next middle) after value := by
  induction first generalizing events with
  | done middle =>
    constructor
    · intro h
      exact ⟨[], events, middle, rfl, .done _, h⟩
    · rintro ⟨before, after, _, rfl, h, g⟩
      cases h
      exact g
  | ask q rest ih =>
    simp only [Program.bind, ask_iff, ih]
    constructor
    · rintro ⟨answer, _, rfl, before, after, middle, rfl, h, g⟩
      exact ⟨⟨q, answer⟩ :: before, after, middle, rfl, ⟨answer, before, rfl, h⟩, g⟩
    · rintro ⟨_, after, middle, rfl, ⟨answer, before, rfl, h⟩, g⟩
      exact ⟨answer, before ++ after, rfl, before, after, middle, rfl, h, g⟩

theorem question_iff {q : Question} {events : List Event} {answer : q.Answer} :
    Path (question q) events answer ↔ events = [⟨q, answer⟩] := by
  constructor
  · intro h
    obtain ⟨_, _, rfl, g⟩ := ask_iff.1 h
    obtain ⟨rfl, rfl⟩ := done_iff.1 g
    rfl
  · rintro rfl
    exact .ask _ _ _ _ _ (.done _)

end Program.Path

/-- A run goes along a path to its value. -/
theorem World.path_run {σ α : Type} (w : World σ) (state : σ) (files : FileTree)
    (program : Program α) :
    program.Path (w.run state files program).events (w.run state files program).value := by
  induction program generalizing state files with
  | done value => exact .done value
  | ask q next ih => exact .ask q next _ _ _ (ih _ _ _)

end DocGuard
