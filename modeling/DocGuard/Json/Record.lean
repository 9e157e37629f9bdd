import DocGuard.Json.Number
import DocGuard.Json.Text
import DocGuard.Text.Quoted

/-! Records of texts in JSON: an object with one string for each field, in any order and among
members of other names, or a list of the strings in the order of the fields. -/
namespace DocGuard.Json

/-- What a record is called in faults, and the names of its fields. -/
structure Shape where
  name : String
  fields : List String
  deriving DecidableEq, Repr

/-- The fields that are found so far, with their texts. -/
abbrev Fields := List (String × String)

/-- Fails because the value that the text starts with is not of the expected type. Scalars are read
first, so that a fault in them comes before. -/
def failType {α : Type} (expected : String) : List Char → Except Fault α
  | [] => fail .endOfValue []
  | c :: rest =>
    if c = 'n' then do fail (.wrongType "null" expected) (← skipWord ['u', 'l', 'l'] rest)
    else if c = 't' then do
      fail (.wrongType "boolean `true`" expected) (← skipWord ['r', 'u', 'e'] rest)
    else if c = 'f' then do
      fail (.wrongType "boolean `false`" expected) (← skipWord ['a', 'l', 's', 'e'] rest)
    else if c = '-' then do
      let (number, left) ← readNumber true rest
      fail (.wrongType number.description expected) left
    else if c.isDigit then do
      let (number, left) ← readNumber false (c :: rest)
      fail (.wrongType number.description expected) left
    else if c = '"' then do
      let (text, left) ← readString 0 rest
      fail (.wrongType ("string " ++ Text.quoted (String.ofList text)) expected) left
    else if c = '[' then fail (.wrongType "sequence" expected) (c :: rest)
    else if c = '\x7b' then fail (.wrongType "map" expected) (c :: rest)
    else failAt .expectedValue (c :: rest)

/-- Reads a string value, blanks before it included. -/
def readText (s : List Char) : Except Fault (String × List Char) :=
  match dropBlanks s with
  | [] => fail .endOfValue []
  | c :: rest =>
    if c = '"' then do
      let (text, left) ← readString 0 rest
      return (String.ofList text, left)
    else failType "a string" (c :: rest)

/-- The text behind the bracket that closes a record, if it comes next. -/
def pastEnd (bracket : Char) (s : List Char) : List Char :=
  match dropBlanks s with
  | [] => []
  | c :: rest => if c = bracket then rest else c :: rest

/-- The text behind the opening quote of the next key, or nothing before the end of the object. -/
def nextKey? (isFirst : Bool) (s : List Char) : Except Fault (Option (List Char)) :=
  match dropBlanks s with
  | [] => fail .endOfObject []
  | c :: rest =>
    if c = '\x7d' then .ok none
    else if isFirst then
      if c = '"' then .ok (some rest) else failAt .keyNotString (c :: rest)
    else if c = ',' then
      match dropBlanks rest with
      | [] => fail .endOfValue []
      | d :: key =>
        if d = '"' then .ok (some key)
        else if d = '\x7d' then failAt .trailingComma (d :: key)
        else failAt .keyNotString (d :: key)
    else failAt .expectedCommaOrObjectEnd (c :: rest)

/-- Reads the members of an object up to its end. Each takes a character at least, which bounds
their number by the first argument. -/
def readMembersWithin (fields : List String) :
    Nat → Bool → Fields → List Char → Except Fault (Fields × List Char)
  | 0, _, _, s => fail .endOfValue s
  | bound + 1, isFirst, found, s => do
    match ← nextKey? isFirst s with
    | none => return (found, dropBlanks s)
    | some key =>
      let (name, left) ← readString 0 key
      let name := String.ofList name
      if name ∈ fields then
        if (found.lookup name).isSome then fail (.duplicateField name) (pastEnd '\x7d' left)
        else
          let (text, rest) ← readText (← skipColon left)
          readMembersWithin fields bound false (found ++ [(name, text)]) rest
      else readMembersWithin fields bound false found (← skipValue (← skipColon left))

/-- The texts of the fields in their order, or the first name that is missing. -/
def inOrder (found : Fields) : List String → Except String (List String)
  | [] => .ok []
  | name :: names =>
    match found.lookup name with
    | none => .error name
    | some text => (text :: ·) <$> inOrder found names

/-- Reads a record from an object, behind its opening bracket. -/
def readObject (shape : Shape) (s : List Char) : Except Fault (List String × List Char) := do
  let (found, left) ← readMembersWithin shape.fields (s.length + 1) true [] s
  match inOrder found shape.fields with
  | .error name => fail (.missingField name) (pastEnd '\x7d' left)
  | .ok texts => return (texts, pastEnd '\x7d' left)

/-- The text from the next element of a list on, or nothing before its end. -/
def nextElement? (isFirst : Bool) (s : List Char) : Except Fault (Option (List Char)) :=
  match dropBlanks s with
  | [] => fail .endOfList []
  | c :: rest =>
    if c = ']' then .ok none
    else if isFirst then .ok (some (c :: rest))
    else if c = ',' then
      match dropBlanks rest with
      | [] => fail .endOfValue []
      | d :: more => if d = ']' then failAt .trailingComma (d :: more) else .ok (some (d :: more))
    else failAt .expectedCommaOrListEnd (c :: rest)

/-- What a record with `count` fields is called when it has another number of elements. -/
def Shape.description (shape : Shape) : String :=
  "struct " ++ shape.name ++ " with " ++ toString shape.fields.length ++ " elements"

/-- Reads one element for each field that is left. -/
def readElements (shape : Shape) (done : Nat) :
    List String → List Char → Except Fault (List String × List Char)
  | [], s => .ok ([], s)
  | _ :: fields, s => do
    match ← nextElement? (done == 0) s with
    | none => fail (.wrongLength done shape.description) (pastEnd ']' s)
    | some element =>
      let (text, left) ← readText element
      let (texts, rest) ← readElements shape (done + 1) fields left
      return (text :: texts, rest)

/-- Passes over the end of a list of which all elements are read. -/
def closeList (s : List Char) : Except Fault (List Char) :=
  match dropBlanks s with
  | [] => fail .endOfList []
  | c :: rest =>
    if c = ']' then .ok rest
    else if c = ',' then
      match dropBlanks rest with
      | [] => fail .trailingCharacters []
      | d :: more => failAt (if d = ']' then .trailingComma else .trailingCharacters) (d :: more)
    else failAt .trailingCharacters (c :: rest)

/-- Reads a record from a list, behind its opening bracket. -/
def readList (shape : Shape) (s : List Char) : Except Fault (List String × List Char) := do
  let (texts, left) ← readElements shape 0 shape.fields s
  return (texts, ← closeList left)

/-- Reads a record from the start of a text. -/
def readRecord (shape : Shape) (s : List Char) : Except Fault (List String × List Char) :=
  match dropBlanks s with
  | [] => fail .endOfValue []
  | c :: rest =>
    if c = '\x7b' then readObject shape rest
    else if c = '[' then readList shape rest
    else failType ("struct " ++ shape.name) (c :: rest)

/-- Reads a text that is a record with blanks around it. -/
def parseRecord (shape : Shape) (text : List Char) : Except Fault (List String) := do
  let (texts, left) ← readRecord shape text
  match dropBlanks left with
  | [] => return texts
  | c :: rest => failAt .trailingCharacters (c :: rest)

end DocGuard.Json
