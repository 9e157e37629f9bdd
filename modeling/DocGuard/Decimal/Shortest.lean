import DocGuard.Decimal.Binary64

/-! The shortest decimal text of a binary64 number: the fewest digits that lie nearer to it than to
every other one, and of those the nearest. -/
namespace DocGuard.Decimal.Binary64

/-- The ends of the interval of numbers that round to `x`, counted in quarters of its step. The step
below a power of two is half as wide as the one above. -/
def interval (x : Binary64) : Nat × Nat :=
  let below := if x.mantissa = mantissaBound / 2 ∧ minExponent < x.exponent then 1 else 2
  (4 * x.mantissa - below, 4 * x.mantissa + 2)

/-- The decimal `digits * 10 ^ power` rounds to `x`. The ends of the interval belong to it when the
mantissa is even. -/
def covers (x : Binary64) (digits : Nat) (power : Int) : Bool :=
  let (num, den) := scale 10 digits 1 power
  let (num, den) := scale 2 num den (2 - x.exponent)
  let (lo, hi) := x.interval
  if x.mantissa % 2 = 0 then lo * den ≤ num && num ≤ hi * den else lo * den < num && num < hi * den

/-- The least power of ten above `num / den`, up to a bound on how far below one it may lie. -/
def magnitude (num den : Nat) : Int :=
  if den ≤ num then (Nat.toDigits 10 (num / den)).length
  else
    match (List.range 400).find? fun k => den ≤ num * Nat.pow 10 (k + 1) with
    | some k => -(k : Int)
    | none => -400

/-- The candidate with `count` digits: of the two decimals around `x` the nearer one that rounds
to it. -/
def candidate? (x : Binary64) (count : Nat) : Option (Nat × Int) :=
  let (num, den) := x.ratio
  let power := magnitude num den - count
  let (n, d) := scale 10 num den (-power)
  let nearest := roundDiv n d
  let other := if nearest = n / d then nearest + 1 else n / d
  if x.covers nearest power then some (nearest, power)
  else if x.covers other power then some (other, power)
  else none

/-- The fewest digits that round to `x`, with the power of ten that they are multiplied by. -/
def shortest (x : Binary64) : Nat × Int :=
  match (List.range 17).findSome? fun k => x.candidate? (k + 1) with
  | some found => found
  | none => (0, 0)

/-- The digits without the zeros at their end, and the place of the first one. -/
def significant (x : Binary64) : List Char × Int :=
  let (n, power) := x.shortest
  let digits := Nat.toDigits 10 n
  ((digits.reverse.dropWhile (· = '0')).reverse, power + digits.length - 1)

/-- Texts write the places from the fifth after the point to the fifteenth before it, and have at
least one digit on both sides of the point. -/
def positional (digits : List Char) (place : Int) : List Char :=
  if place < 0 then ['0', '.'] ++ List.replicate (-place - 1).toNat '0' ++ digits
  else
    let whole := place.toNat + 1
    if digits.length ≤ whole then
      digits ++ List.replicate (whole - digits.length) '0' ++ ['.', '0']
    else digits.take whole ++ '.' :: digits.drop whole

/-- All other numbers have one digit before the point and are followed by the place of it; a place
above zero bears a sign as well. -/
def scientific (digits : List Char) (place : Int) : List Char :=
  let mark := if 0 ≤ place then ['e', '+'] else ['e', '-']
  let body := if digits.length ≤ 1 then digits else digits.take 1 ++ '.' :: digits.drop 1
  body ++ mark ++ Nat.toDigits 10 place.natAbs

/-- The decimal text of a number. -/
def text (x : Binary64) : String :=
  if x.mantissa = 0 then "0.0"
  else
    let (digits, place) := x.significant
    String.ofList <|
      if -5 ≤ place ∧ place ≤ 15 then positional digits place else scientific digits place

end DocGuard.Decimal.Binary64
