import DocGuard.Metrics.Series

/-! The text format in which metrics are shown: two lines on each family of series, then a line for
each value. -/
namespace DocGuard.Metrics

/-- The kinds of metrics. -/
inductive Kind where
  | counter
  | gauge
  | histogram
  deriving DecidableEq, Repr

def Kind.name : Kind → String
  | counter => "counter"
  | gauge => "gauge"
  | histogram => "histogram"

/-- One value, with what is added to the name of its family and its labels. -/
structure Sample where
  ending : String := ""
  labels : List (String × String)
  value : String
  deriving DecidableEq, Repr

/-- A family of series with its samples. -/
structure Family where
  name : String
  help : String
  kind : Kind
  samples : List Sample
  deriving DecidableEq, Repr

/-- How a character of a label value is written. -/
def writtenLabelChar (c : Char) : List Char :=
  if c = '\\' then ['\\', '\\']
  else if c = '\n' then ['\\', 'n']
  else if c = '"' then ['\\', '"']
  else [c]

/-- A label with its value between quotes. -/
def writeLabel (label : String × String) : String :=
  label.1 ++ "=" ++ String.ofList ('"' :: label.2.toList.flatMap writtenLabelChar ++ ['"'])

def Sample.line (family : String) (s : Sample) : String :=
  family ++ s.ending ++ "\x7b" ++ ",".intercalate (s.labels.map writeLabel) ++ "\x7d " ++ s.value

def Family.lines (f : Family) : List String :=
  ("# HELP " ++ f.name ++ " " ++ f.help) :: ("# TYPE " ++ f.name ++ " " ++ f.kind.name)
    :: f.samples.map (Sample.line f.name)

/-- A bound, given in milliseconds, in seconds. -/
def boundText (bound : Nat) : String :=
  Duration.decimal (bound / 1000) (bound % 1000) 1000

/-- The samples of a histogram: how many observations lie within each bound and within none, their
sum and their number. -/
def Histogram.samples (bounds : List Nat) (labels : List (String × String)) (h : Histogram) :
    List Sample :=
  bounds.map (fun bound =>
      ⟨"_bucket", labels ++ [("le", boundText bound)], toString (h.countUpTo bound)⟩)
    ++ [⟨"_bucket", labels ++ [("le", "+Inf")], toString h.count⟩,
        ⟨"_sum", labels, h.sum.seconds⟩,
        ⟨"_count", labels, toString h.count⟩]

/-- The family of a series whose values make samples in a given way. -/
def Series.family {α : Type} (s : Series α) (name help : String) (kind : Kind)
    (labels : List String) (samples : List (String × String) → α → List Sample) : Family :=
  ⟨name, help, kind, s.entries.flatMap fun (values, value) => samples (labels.zip values) value⟩

def numberSample {α : Type} [ToString α] (labels : List (String × String)) (value : α) :
    List Sample :=
  [⟨"", labels, toString value⟩]

end DocGuard.Metrics
