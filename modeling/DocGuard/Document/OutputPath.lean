import DocGuard.Error
import DocGuard.Text.Basic

/-! Where a changed document is written: next to the name that the engine proposes, with a mark
before the extension. A wrapper extension keeps the extension it wraps. -/
namespace DocGuard.OutputPath

/-- Both kinds of slash separate the parts of a name. -/
def isSeparator (c : Char) : Bool :=
  c == '/' || c == '\\'

/-- The mark of a changed document. -/
def mark : String := "_modified"

/-- The extension of files that wrap another one. -/
def wrapper : String := ".pfile"

/-- The characters from the last point of the final segment on; none if it has no point. -/
def extension (name : List Char) : List Char :=
  let segment := (name.reverse.takeWhile fun c => !isSeparator c).reverse
  if '.' ∈ segment then '.' :: (segment.reverse.takeWhile (· ≠ '.')).reverse else []

/-- The length of what follows the mark: the extension, or a wrapper with the extension before it.
-/
def extensionLength (name : List Char) : Nat :=
  let last := extension name
  if Text.eqIgnoringAsciiCase (String.ofList last) wrapper then
    last.length + (extension (name.take (name.length - last.length))).length
  else last.length

/-- The output path for a proposed name. A name without a final segment has none. -/
def derive (name : String) : Except Error String :=
  let cs := name.toList
  match cs.getLast? with
  | none => .error (.invalidArgument (.noFileName name))
  | some last =>
    if isSeparator last then .error (.invalidArgument (.noFileName name))
    else
      let stem := cs.length - extensionLength cs
      .ok (String.ofList (cs.take stem ++ mark.toList ++ cs.drop stem))

end DocGuard.OutputPath
