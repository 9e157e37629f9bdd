import DocGuard.Settings.Application

/-! Series of a metric: one value for each combination of label values, in the order of the labels.
A series comes into being when it is first touched, be it by a change or by a look at it. In a registry
the name of a metric stands for one metric only. -/
namespace DocGuard.Metrics

/-- The values of a metric by their label values, which ascend. -/
structure Series (α : Type) where
  entries : List (List String × α) := []
  deriving DecidableEq, Repr

namespace Series
variable {α : Type}

/-- Changes the value under some labels; a missing one starts as `zero`. -/
def alter (zero : α) (labels : List String) (change : α → α) :
    List (List String × α) → List (List String × α)
  | [] => [(labels, change zero)]
  | (key, value) :: rest =>
    if labels = key then (key, change value) :: rest
    else if labels < key then (labels, change zero) :: (key, value) :: rest
    else (key, value) :: alter zero labels change rest

/-- The series after a change of one value. -/
def update (s : Series α) (zero : α) (labels : List String) (change : α → α) : Series α :=
  ⟨alter zero labels change s.entries⟩

/-- The series with a value under the labels. -/
def touch (s : Series α) (zero : α) (labels : List String) : Series α :=
  s.update zero labels id

/-- The value under some labels. -/
def value (s : Series α) (zero : α) (labels : List String) : α :=
  (s.entries.lookup labels).getD zero

end Series

/-- Spans of time that were observed, the latest first. -/
structure Histogram where
  observations : List Duration := []
  deriving DecidableEq, Repr

namespace Histogram

def observe (h : Histogram) (d : Duration) : Histogram :=
  ⟨d :: h.observations⟩

def count (h : Histogram) : Nat :=
  h.observations.length

/-- All observations together, to the nanosecond. The times are added as they are, not as seconds in
floating point: where a sum is shown, it may differ from such a sum in its last digits. -/
def sum (h : Histogram) : Duration :=
  ⟨(h.observations.map Duration.nanoseconds).foldr (· + ·) 0⟩

/-- The number of observations up to a bound, which is in milliseconds. -/
def countUpTo (h : Histogram) (bound : Nat) : Nat :=
  h.observations.countP fun d => d.nanoseconds ≤ (Duration.ofMilliseconds bound).nanoseconds

end Histogram

/-- The names that are taken. -/
structure Registry where
  names : List String := []
  deriving DecidableEq, Repr

namespace Registry

/-- Takes a name, unless it is taken. -/
def register (r : Registry) (name : String) : Except Error Registry :=
  if name ∈ r.names then .error (.metrics .alreadyRegistered) else .ok ⟨r.names ++ [name]⟩

/-- Takes some names one after the other. Those before the first that is taken stay. -/
def registerAll (r : Registry) : List String → Except Error Unit × Registry
  | [] => (.ok (), r)
  | name :: names =>
    match r.register name with
    | .ok next => next.registerAll names
    | .error cause => (.error cause, r)

end Registry
end DocGuard.Metrics
