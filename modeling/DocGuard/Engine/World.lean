import DocGuard.Engine.Program
import DocGuard.Files.Tree

/-! Worlds in which programs run: collaborators with a state of their own, a file tree that they can
change, and a clock. -/
namespace DocGuard

/-- Collaborators with a state of type `σ`. They reply to calls, and may change the files on the
way; a call without a reply is one that panicked. -/
structure World (σ : Type) where
  reply : σ → FileTree → (c : Call) → Option c.Reply × σ × FileTree
  time : σ → Duration

/-- What a run leaves: its value, the state of the collaborators, the files, and all that happened.
-/
structure Run (σ α : Type) where
  value : α
  state : σ
  files : FileTree
  events : List Event

namespace World
variable {σ α : Type}

/-- The answer of a world to a question. Files are read from the tree; nothing but a call changes
it. -/
def answer (w : World σ) (state : σ) (files : FileTree) :
    (q : Question) → q.Answer × σ × FileTree
  | .call c => w.reply state files c
  | .readFile path => (files.read path, state, files)
  | .fileExists path => (files.pathExists path, state, files)
  | .clock => (w.time state, state, files)
  | .log _ => ((), state, files)

/-- Runs a program in a world. -/
def run (w : World σ) (state : σ) (files : FileTree) : Program α → Run σ α
  | .done value => ⟨value, state, files, []⟩
  | .ask q next =>
    let (answer, state, files) := w.answer state files q
    let rest := w.run state files (next answer)
    { rest with events := ⟨q, answer⟩ :: rest.events }

end World

def Run.log {σ α : Type} (r : Run σ α) : List LogRecord :=
  r.events.filterMap fun e =>
    match e with
    | ⟨.log record, _⟩ => some record
    | _ => none

def Run.calls {σ α : Type} (r : Run σ α) : List Call :=
  r.events.filterMap fun e =>
    match e with
    | ⟨.call c, _⟩ => some c
    | _ => none

end DocGuard
