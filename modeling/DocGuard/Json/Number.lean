import DocGuard.Decimal.Shortest
import DocGuard.Json.Scan

/-! The value of a number in a JSON text: a whole number while it fits into 64 bits, else a binary64
number computed from the first digits and the power of ten that they leave. -/
namespace DocGuard.Json
open Decimal

/-- A number as it is shown in a fault. -/
inductive Number where
  | whole (value : Int)
  | real (negative : Bool) (magnitude : Binary64)
  deriving DecidableEq, Repr

/-- How a number is named in a fault. -/
def Number.description : Number → String
  | whole value => "integer `" ++ toString value ++ "`"
  | real negative magnitude =>
    "floating point `" ++ (if negative then "-" else "") ++ magnitude.text ++ "`"

/-- The largest number whose digits are all kept. -/
def maxSignificand : Nat := 0xFFFFFFFFFFFFFFFF

/-- The largest power of ten that is a binary64 number. -/
def maxPower : Nat := 308

def digitValue (c : Char) : Nat :=
  c.toNat - '0'.toNat

/-- The quotient by a power of ten, in steps of the largest power that is a number. -/
def scaleDown (x : Binary64) (power : Nat) : Option Binary64 := do
  if power ≤ maxPower then x.div (← Binary64.ofRatio (Nat.pow 10 power) 1)
  else if x.mantissa = 0 then return x
  else scaleDown (← x.div (← Binary64.ofRatio (Nat.pow 10 maxPower) 1)) (power - maxPower)
termination_by power
decreasing_by simp only [maxPower] at *; omega

/-- The product of a significand and a power of ten, each rounded. -/
def scaled (significand : Nat) (power : Int) : Option Binary64 := do
  let x ← Binary64.ofRatio significand 1
  if power < 0 then scaleDown x (-power).toNat
  else if power.toNat ≤ maxPower then x.mul (← Binary64.ofRatio (Nat.pow 10 power.toNat) 1)
  else if x.mantissa = 0 then return x
  else none

/-- The real number of a significand and a power of ten, if it is not too large. -/
def toReal (negative : Bool) (significand : Nat) (power : Int) (rest : List Char) :
    Except Fault (Number × List Char) :=
  match scaled significand power with
  | some x => .ok (.real negative x, rest)
  | none => fail .numberOutOfRange rest

/-- A power of ten, moved by an exponent that leads down or up. -/
def moved (power : Int) (down : Bool) (exponent : Nat) : Int :=
  if down then power - exponent else power + exponent

/-- The largest exponent that is computed. -/
def maxExponentValue : Nat := 0x7FFFFFFF

/-- Reads the further digits of an exponent. One that grows too large makes zero, or a number out of
range. -/
def readExponentDigits (negative : Bool) (significand : Nat) (power : Int) (down : Bool) :
    Nat → List Char → Except Fault (Number × List Char)
  | exponent, [] => toReal negative significand (moved power down exponent) []
  | exponent, c :: rest =>
    if c.isDigit then
      if maxExponentValue < exponent * 10 + digitValue c then
        if significand ≠ 0 ∧ !down then fail .numberOutOfRange rest
        else .ok (.real negative ⟨0, Binary64.minExponent⟩, dropDigits rest)
      else readExponentDigits negative significand power down (exponent * 10 + digitValue c) rest
    else toReal negative significand (moved power down exponent) (c :: rest)

/-- Reads an exponent behind its letter. -/
def readExponent (negative : Bool) (significand : Nat) (power : Int) (s : List Char) :
    Except Fault (Number × List Char) :=
  let (down, digits) :=
    match s with
    | '+' :: rest => (false, rest)
    | '-' :: rest => (true, rest)
    | rest => (false, rest)
  match digits with
  | [] => fail .endOfValue []
  | c :: rest =>
    if c.isDigit then readExponentDigits negative significand power down (digitValue c) rest
    else failAt .invalidNumber (c :: rest)

/-- Reads an exponent, which may be absent. -/
def readOptionalExponent (negative : Bool) (significand : Nat) (power : Int) (s : List Char) :
    Except Fault (Number × List Char) :=
  match s with
  | [] => toReal negative significand power []
  | c :: rest =>
    if c = 'e' ∨ c = 'E' then readExponent negative significand power rest
    else toReal negative significand power (c :: rest)

/-- Reads the digits of a fraction, of which there is at least one. From the first digit on that
would make the significand too large all are left out. `count` tells how many were kept. -/
def readFractionDigits (negative : Bool) (power : Int) (significand count : Nat) :
    List Char → Except Fault (Number × List Char)
  | [] =>
    if count = 0 then fail .endOfValue [] else toReal negative significand (power - count) []
  | c :: rest =>
    if c.isDigit then
      if maxSignificand < significand * 10 + digitValue c then
        readOptionalExponent negative significand (power - count) (dropDigits rest)
      else readFractionDigits negative power (significand * 10 + digitValue c) (count + 1) rest
    else if count = 0 then failAt .invalidNumber (c :: rest)
    else readOptionalExponent negative significand (power - count) (c :: rest)

/-- Reads what follows the digits before the point when some of them were left out. -/
def readLongTail (negative : Bool) (significand : Nat) (power : Nat) (s : List Char) :
    Except Fault (Number × List Char) :=
  match s with
  | '.' :: rest => readFractionDigits negative power significand 0 rest
  | rest => readOptionalExponent negative significand power rest

/-- Reads what follows the digits before the point when all of them were kept. Without fraction and
exponent the number is whole; a negative one below the least of 64 bits is real, as is the negative
zero. -/
def readTail (negative : Bool) (significand : Nat) (s : List Char) :
    Except Fault (Number × List Char) :=
  match s with
  | '.' :: rest => readFractionDigits negative 0 significand 0 rest
  | 'e' :: rest | 'E' :: rest => readExponent negative significand 0 rest
  | rest =>
    if !negative then .ok (.whole significand, rest)
    else if significand = 0 ∨ 0x8000000000000000 < significand then toReal true significand 0 rest
    else .ok (.whole (-significand), rest)

/-- Reads the further digits before the point. From the first one on that would make the significand
too large they are only counted. -/
def readDigits (negative : Bool) : Nat → List Char → Except Fault (Number × List Char)
  | significand, [] => readTail negative significand []
  | significand, c :: rest =>
    if c.isDigit then
      if maxSignificand < significand * 10 + digitValue c then
        let left := dropDigits rest
        readLongTail negative significand (1 + rest.length - left.length) left
      else readDigits negative (significand * 10 + digitValue c) rest
    else readTail negative significand (c :: rest)

/-- Reads a number behind its sign. -/
def readNumber (negative : Bool) : List Char → Except Fault (Number × List Char)
  | [] => fail .endOfValue []
  | c :: rest =>
    if c = '0' then
      if startsWithDigit rest then failAt .invalidNumber rest else readTail negative 0 rest
    else if c.isDigit then readDigits negative (digitValue c) rest
    else failAt .invalidNumber (c :: rest)

end DocGuard.Json
