import DocGuard.Engine.Call

/-! Programs as trees: each step asks the world one question, and what follows depends on the answer
only. A run in a world is one path through the tree. -/
namespace DocGuard

/-- How important a record of the log is. -/
inductive LogLevel where
  | info
  | warn
  | error
  deriving DecidableEq, Repr

def LogLevel.name : LogLevel → String
  | info => "info"
  | warn => "warn"
  | error => "error"

/-- A record of the log. -/
structure LogRecord where
  level : LogLevel
  text : String
  deriving DecidableEq, Repr

/-- What a program asks of the world around it. -/
inductive Question where
  | call (c : Call)
  | readFile (path : String)
  | fileExists (path : String)
  | clock
  | log (record : LogRecord)

/-- The answers to a question. A collaborator that panics gives no reply to its call; the clock
tells the time since some start. -/
def Question.Answer : Question → Type
  | call c => Option c.Reply
  | readFile _ => Except FileError (List UInt8)
  | fileExists _ => Bool
  | clock => Duration
  | log _ => Unit

/-- A program that ends with a value of type `α`. -/
inductive Program (α : Type) where
  | done (value : α)
  | ask (question : Question) (next : question.Answer → Program α)

namespace Program
variable {α β : Type}

/-- Goes on with what the value of the first program tells. -/
def bind (first : Program α) (next : α → Program β) : Program β :=
  match first with
  | done value => next value
  | ask question rest => ask question fun answer => (rest answer).bind next

instance : Monad Program where
  pure := done
  bind := bind

def question (q : Question) : Program q.Answer :=
  ask q done

def log (level : LogLevel) (text : String) : Program Unit :=
  question (.log ⟨level, text⟩)

def readFile (path : String) : Program (Except FileError (List UInt8)) :=
  question (.readFile path)

def fileExists (path : String) : Program Bool :=
  question (.fileExists path)

def clock : Program Duration :=
  question .clock

end Program

/-- A question with the answer that it got. -/
structure Event where
  question : Question
  answer : question.Answer

end DocGuard
