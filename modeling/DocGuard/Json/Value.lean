import DocGuard.Text.Quoted

/-! JSON values and their compact text. -/
namespace DocGuard.Json

/-- A JSON value. A number is kept as the text that spells it. -/
inductive Value where
  | null
  | bool (value : Bool)
  | number (text : String)
  | string (text : String)
  | list (elements : List Value)
  | object (members : List (String × Value))
  deriving Repr

/-- How a character is written in a string: quote, backslash and controls are escaped, all others
stand as they are. -/
def writtenChar (c : Char) : List Char :=
  if c = '"' then ['\\', '"']
  else if c = '\\' then ['\\', '\\']
  else if c = '\x08' then ['\\', 'b']
  else if c = '\t' then ['\\', 't']
  else if c = '\n' then ['\\', 'n']
  else if c = '\x0c' then ['\\', 'f']
  else if c = '\r' then ['\\', 'r']
  else if c < ' ' then
    ['\\', 'u', '0', '0', Nat.digitChar (c.toNat / 16), Nat.digitChar (c.toNat % 16)]
  else [c]

def writeString (s : String) : List Char :=
  '"' :: s.toList.flatMap writtenChar ++ ['"']

mutual

/-- The compact text of a value; members stand in the order in which they are given. -/
def Value.write : Value → List Char
  | .null => "null".toList
  | .bool true => "true".toList
  | .bool false => "false".toList
  | .number text => text.toList
  | .string text => writeString text
  | .list elements => '[' :: writeElements elements
  | .object members => '\x7b' :: writeMembers members

/-- The elements of a list with the end of it. -/
def writeElements : List Value → List Char
  | [] => [']']
  | [v] => v.write ++ [']']
  | v :: vs => v.write ++ ',' :: writeElements vs

/-- The members of an object with the end of it. -/
def writeMembers : List (String × Value) → List Char
  | [] => ['\x7d']
  | [(name, v)] => writeString name ++ ':' :: v.write ++ ['\x7d']
  | (name, v) :: members => writeString name ++ ':' :: v.write ++ ',' :: writeMembers members

end

def Value.render (v : Value) : String :=
  String.ofList v.write

end DocGuard.Json
