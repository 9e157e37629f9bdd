import DocGuard.Json.Fault

/-! How far the parts of a JSON text reach. A scan gives what is left of the text behind the part,
or the first fault in it; it looks at the form only and keeps nothing of the value. -/
namespace DocGuard.Json

/-- The four characters that may stand between the parts of a text. -/
def isBlank (c : Char) : Bool :=
  c == ' ' || c == '\t' || c == '\n' || c == '\r'

def dropBlanks (s : List Char) : List Char :=
  s.dropWhile isBlank

/-- Passes over the characters of a word one by one. -/
def skipWord : List Char → List Char → Except Fault (List Char)
  | [], rest => .ok rest
  | _ :: _, [] => fail .endOfValue []
  | w :: word, c :: rest => if w = c then skipWord word rest else failAt .expectedWord (c :: rest)

def dropDigits (s : List Char) : List Char :=
  s.dropWhile Char.isDigit

def startsWithDigit (s : List Char) : Bool :=
  s.head?.any Char.isDigit

/-- Passes over the digits of an exponent, of which there is at least one. -/
def skipExponentDigits : List Char → Except Fault (List Char)
  | [] => fail .invalidNumber []
  | c :: rest => if c.isDigit then .ok (dropDigits rest) else failAt .invalidNumber (c :: rest)

/-- Passes over an exponent, which may be absent. -/
def skipExponent : List Char → Except Fault (List Char)
  | [] => .ok []
  | c :: rest =>
    if c = 'e' ∨ c = 'E' then
      match rest with
      | '+' :: digits | '-' :: digits => skipExponentDigits digits
      | digits => skipExponentDigits digits
    else .ok (c :: rest)

/-- Passes over a fraction and an exponent, which may both be absent. -/
def skipFraction : List Char → Except Fault (List Char)
  | [] => .ok []
  | c :: rest =>
    if c = '.' then
      if startsWithDigit rest then skipExponent (dropDigits rest) else failAt .invalidNumber rest
    else skipExponent (c :: rest)

/-- Passes over a number without its sign. A zero has no further digits before the point. -/
def skipNumber : List Char → Except Fault (List Char)
  | [] => fail .invalidNumber []
  | c :: rest =>
    if c = '0' then
      if startsWithDigit rest then failAt .invalidNumber rest else skipFraction rest
    else if c.isDigit then skipFraction (dropDigits rest)
    else failAt .invalidNumber (c :: rest)

/-- The value of a digit in base sixteen. -/
def hexDigit? (c : Char) : Option Nat :=
  if c.isDigit then some (c.toNat - '0'.toNat)
  else if 'a' ≤ c ∧ c ≤ 'f' then some (c.toNat - 'a'.toNat + 10)
  else if 'A' ≤ c ∧ c ≤ 'F' then some (c.toNat - 'A'.toNat + 10)
  else none

/-- The number that four digits of base sixteen make. -/
def hexNumber? (a b c d : Char) : Option Nat := do
  return (((← hexDigit? a) * 16 + (← hexDigit? b)) * 16 + (← hexDigit? c)) * 16 + (← hexDigit? d)

/-- The number in the next four bytes. All four count as read when one is no digit. -/
def readHex (s : List Char) : Except Fault Nat :=
  if Text.utf8Size s < 4 then fail .endOfString []
  else
    match s with
    | a :: b :: c :: d :: _ =>
      match hexNumber? a b c d with
      | some n => .ok n
      | none => .error ⟨.invalidEscape, Text.utf8Size s - 4⟩
    | _ => .error ⟨.invalidEscape, Text.utf8Size s - 4⟩

/-- The character that a letter behind a backslash stands for. -/
def escaped? (c : Char) : Option Char :=
  if c = '"' ∨ c = '\\' ∨ c = '/' then some c
  else if c = 'b' then some '\x08'
  else if c = 'f' then some '\x0c'
  else if c = 'n' then some '\n'
  else if c = 'r' then some '\r'
  else if c = 't' then some '\t'
  else none

/-- The number of characters of an escape behind its backslash. -/
def scanEscape : List Char → Except Fault Nat
  | [] => fail .endOfString []
  | c :: rest =>
    if c = 'u' then do
      let _ ← readHex rest
      return 5
    else if (escaped? c).isSome then .ok 1
    else failAt .invalidEscape (c :: rest)

/-- Passes over a string behind its opening quote. The first argument counts the characters of an
escape that are still to pass. A control character is not read. -/
def skipString : Nat → List Char → Except Fault (List Char)
  | _, [] => fail .endOfString []
  | n + 1, _ :: rest => skipString n rest
  | 0, c :: rest =>
    if c = '"' then .ok rest
    else if c = '\\' then do skipString (← scanEscape rest) rest
    else if c < ' ' then fail .controlCharacter (c :: rest)
    else skipString 0 rest

/-- Passes over a colon, which may have blanks before it. -/
def skipColon (s : List Char) : Except Fault (List Char) :=
  match dropBlanks s with
  | [] => fail .endOfObject []
  | c :: rest => if c = ':' then .ok rest else failAt .expectedColon (c :: rest)

mutual

/-- Passes over the value that the text starts with, blanks before it included. The first argument
bounds the number of nested steps. -/
def skipValueWithin : Nat → List Char → Except Fault (List Char)
  | 0, s => fail .endOfValue s
  | bound + 1, s =>
    match dropBlanks s with
    | [] => fail .endOfValue []
    | c :: rest =>
      if c = 'n' then skipWord ['u', 'l', 'l'] rest
      else if c = 't' then skipWord ['r', 'u', 'e'] rest
      else if c = 'f' then skipWord ['a', 'l', 's', 'e'] rest
      else if c = '-' then skipNumber rest
      else if c.isDigit then skipNumber (c :: rest)
      else if c = '"' then skipString 0 rest
      else if c = '[' then
        match dropBlanks rest with
        | [] => fail .endOfList []
        | d :: after => if d = ']' then .ok after else skipElementsWithin bound (d :: after)
      else if c = '\x7b' then
        match dropBlanks rest with
        | [] => fail .endOfObject []
        | d :: after => if d = '\x7d' then .ok after else skipMembersWithin bound (d :: after)
      else failAt .expectedValue (c :: rest)

/-- Passes over the elements of a list and its end. -/
def skipElementsWithin : Nat → List Char → Except Fault (List Char)
  | 0, s => fail .endOfValue s
  | bound + 1, s => do
    match dropBlanks (← skipValueWithin bound s) with
    | [] => fail .endOfList []
    | c :: rest =>
      if c = ',' then skipElementsWithin bound rest
      else if c = ']' then .ok rest
      else failAt .expectedCommaOrListEnd (c :: rest)

/-- Passes over the members of an object and its end. -/
def skipMembersWithin : Nat → List Char → Except Fault (List Char)
  | 0, s => fail .endOfValue s
  | bound + 1, s =>
    match dropBlanks s with
    | [] => fail .endOfObject []
    | q :: key =>
      if q = '"' then do
        let value ← skipColon (← skipString 0 key)
        match dropBlanks (← skipValueWithin bound value) with
        | [] => fail .endOfObject []
        | c :: rest =>
          if c = ',' then skipMembersWithin bound rest
          else if c = '\x7d' then .ok rest
          else failAt .expectedCommaOrObjectEnd (c :: rest)
      else failAt .keyNotString (q :: key)

end

/-- Passes over the value that the text starts with. Each nested step takes a character, so the
length of the text bounds their number. -/
def skipValue (s : List Char) : Except Fault (List Char) :=
  skipValueWithin (2 * s.length + 1) s

/-- The text is one JSON value with blanks around it. -/
def isText (s : String) : Bool :=
  match skipValue s.toList with
  | .ok rest => (dropBlanks rest).isEmpty
  | .error _ => false

end DocGuard.Json
