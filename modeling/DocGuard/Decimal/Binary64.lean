/-! Rounding to binary64: the nearest number with a mantissa of 53 bits, of two equally near ones
the one with the even mantissa. Signs are kept apart, so all numbers here are not negative. -/
namespace DocGuard.Decimal

/-- The number `mantissa * 2 ^ exponent`. A mantissa below `2 ^ 52` has the least exponent. -/
structure Binary64 where
  mantissa : Nat
  exponent : Int
  deriving DecidableEq, Repr

namespace Binary64

/-- Every mantissa is below this power of two, `2 ^ 53`. -/
def mantissaBound : Nat := 0x20000000000000

/-- The exponent of the smallest steps between two numbers. -/
def minExponent : Int := -1074

/-- The exponent of the largest numbers. -/
def maxExponent : Int := 971

/-- The quotient `num / den` times a power, as numerator and denominator. -/
def scale (base num den : Nat) (exponent : Int) : Nat × Nat :=
  if 0 ≤ exponent then (num * base.pow exponent.toNat, den)
  else (num, den * base.pow (-exponent).toNat)

/-- The quotient rounded to a whole number; a half goes to the even neighbour. -/
def roundDiv (num den : Nat) : Nat :=
  let q := num / den
  let twice := 2 * (num % den)
  if den < twice ∨ (twice = den ∧ q % 2 = 1) then q + 1 else q

/-- The binary64 number nearest to `num / den`, unless it is too large. -/
def ofRatio (num den : Nat) : Option Binary64 :=
  if num = 0 then some ⟨0, minExponent⟩
  else
    let low := max ((Nat.log2 num : Int) - Nat.log2 den - 53) minExponent
    let (n, d) := scale 2 num den (-low)
    let exponent := if mantissaBound ≤ n / d then low + 1 else low
    let (n, d) := scale 2 num den (-exponent)
    let mantissa := roundDiv n d
    let rounded : Binary64 :=
      if mantissa = mantissaBound then ⟨mantissaBound / 2, exponent + 1⟩ else ⟨mantissa, exponent⟩
    if maxExponent < rounded.exponent then none else some rounded

/-- The number as numerator and denominator. -/
def ratio (x : Binary64) : Nat × Nat :=
  scale 2 x.mantissa 1 x.exponent

/-- The rounded product, unless it is too large. -/
def mul (x y : Binary64) : Option Binary64 :=
  ofRatio (x.ratio.1 * y.ratio.1) (x.ratio.2 * y.ratio.2)

/-- The rounded quotient; the divisor is not zero. -/
def div (x y : Binary64) : Option Binary64 :=
  ofRatio (x.ratio.1 * y.ratio.2) (x.ratio.2 * y.ratio.1)

end Binary64
end DocGuard.Decimal
