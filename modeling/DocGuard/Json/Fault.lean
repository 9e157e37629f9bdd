import DocGuard.Text.Basic

/-! Faults of JSON texts: what is wrong, and where in the text it was found. -/
namespace DocGuard.Json

/-- What is wrong with a text. The last four come from what the text is read for. -/
inductive Cause where
  | endOfList
  | endOfObject
  | endOfString
  | endOfValue
  | expectedColon
  | expectedCommaOrListEnd
  | expectedCommaOrObjectEnd
  | expectedWord
  | expectedValue
  | invalidEscape
  | invalidNumber
  | numberOutOfRange
  | controlCharacter
  | keyNotString
  | loneSurrogate
  | unfinishedSurrogatePair
  | trailingComma
  | trailingCharacters
  | wrongType (found expected : String)
  | wrongLength (found : Nat) (expected : String)
  | missingField (name : String)
  | duplicateField (name : String)
  deriving DecidableEq, Repr

def Cause.message : Cause → String
  | endOfList => "EOF while parsing a list"
  | endOfObject => "EOF while parsing an object"
  | endOfString => "EOF while parsing a string"
  | endOfValue => "EOF while parsing a value"
  | expectedColon => "expected `:`"
  | expectedCommaOrListEnd => "expected `,` or `]`"
  | expectedCommaOrObjectEnd => "expected `,` or `\x7d`"
  | expectedWord => "expected ident"
  | expectedValue => "expected value"
  | invalidEscape => "invalid escape"
  | invalidNumber => "invalid number"
  | numberOutOfRange => "number out of range"
  | controlCharacter => "control character (\\u0000-\\u001F) found while parsing a string"
  | keyNotString => "key must be a string"
  | loneSurrogate => "lone leading surrogate in hex escape"
  | unfinishedSurrogatePair => "unexpected end of hex escape"
  | trailingComma => "trailing comma"
  | trailingCharacters => "trailing characters"
  | wrongType found expected => "invalid type: " ++ found ++ ", expected " ++ expected
  | wrongLength found expected => "invalid length " ++ toString found ++ ", expected " ++ expected
  | missingField name => "missing field `" ++ name ++ "`"
  | duplicateField name => "duplicate field `" ++ name ++ "`"

/-- A fault, and how many bytes of the text were not read when it was found. -/
structure Fault where
  cause : Cause
  unread : Nat
  deriving DecidableEq, Repr

/-- Fails with `rest` not read. -/
def fail {α : Type} (cause : Cause) (rest : List Char) : Except Fault α :=
  .error ⟨cause, Text.utf8Size rest⟩

/-- Fails at the first byte of `rest`, which counts as read. -/
def failAt {α : Type} (cause : Cause) (rest : List Char) : Except Fault α :=
  .error ⟨cause, Text.utf8Size rest - 1⟩

/-- A place in a text: the number of the line from one, and the bytes read of that line. -/
structure Position where
  line : Nat
  column : Nat
  deriving DecidableEq, Repr

/-- Moves on over a text until `count` bytes are read. -/
def Position.advance (p : Position) (count : Nat) : List Char → Position
  | [] => p
  | c :: rest =>
    if count = 0 then p
    else if c = '\n' then Position.advance ⟨p.line + 1, 0⟩ (count - 1) rest
    else Position.advance ⟨p.line, p.column + min c.utf8Size count⟩ (count - c.utf8Size) rest

/-- Where in a text a fault was found. -/
def Fault.position (f : Fault) (text : List Char) : Position :=
  Position.advance ⟨1, 0⟩ (Text.utf8Size text - f.unread) text

def Fault.message (f : Fault) (text : List Char) : String :=
  let p := f.position text
  f.cause.message ++ " at line " ++ toString p.line ++ " column " ++ toString p.column

end DocGuard.Json
