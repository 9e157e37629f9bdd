import DocGuard.Error

/-! Operations that the engine ends when it is ready, and the slot that holds the end of one. -/
namespace DocGuard

/-- How the engine ended an operation: with a value, with an error, or by letting go of it. -/
inductive Completion (α : Type) where
  | succeeded (value : α)
  | failed (cause : Error)
  | dropped
  deriving Repr

/-- What the one who waits gets. An operation that was let go counts as cancelled. -/
def Completion.result {α : Type} : Completion α → Except Error α
  | succeeded value => .ok value
  | failed cause => .error cause
  | dropped => .error .cancelled

/-- The place where an operation is ended, as the engine sees it. -/
structure Slot where
  isAbandoned : Bool := false
  deriving DecidableEq, Repr

namespace Slot

/-- The one who waited has gone. -/
def abandon (_ : Slot) : Slot :=
  ⟨true⟩

def summary (s : Slot) : String :=
  "Completion \x7b abandoned: " ++ toString s.isAbandoned ++ " \x7d"

end Slot
end DocGuard
