/-
# Binary64 numbers

Floating-point numbers of 64 bits, as their bit pattern. Every operation goes
through exact integers: a finite number is an integer multiple of the least
positive one, so comparison is comparison of integers, and every result is the
exact one rounded once.

* `Binary64.units?`: a finite number as a multiple of the least positive one
* `Binary64.compare?`: comparison, undefined for NaN
* `Binary64.ofRatio`: the nearest number to a ratio, a tie going to the even one
-/

namespace PageServer

/-- A floating-point number of 64 bits, given by its bits. -/
structure Binary64 where
  /-- The bits: the sign, the exponent, and the fraction. -/
  bits : UInt64
  deriving DecidableEq, Repr, Inhabited

namespace Binary64

/-! ## The parts of a number -/

/-- The value of the sign bit, two to the power 63. -/
def signBit : Nat := 0x8000000000000000

/-- The number of fractions that share an exponent, two to the power 52. -/
def fractions : Nat := 0x10000000000000

/-- Whether the sign bit is set. -/
def negative (x : Binary64) : Bool := decide (signBit ≤ x.bits.toNat)

/-- The bits without the sign: the place of the magnitude among all magnitudes. -/
def rank (x : Binary64) : Nat := x.bits.toNat % signBit

/-- The rank of infinity; all greater ranks are NaN. -/
def infinityRank : Nat := 2047 * fractions

/-- Whether the number is NaN. -/
def isNaN (x : Binary64) : Bool := decide (infinityRank < x.rank)

/-- Whether the number is infinite. -/
def isInfinite (x : Binary64) : Bool := decide (x.rank = infinityRank)

/-- Whether the number is finite. -/
def isFinite (x : Binary64) : Bool := decide (x.rank < infinityRank)

/-- The significand of the magnitude at a finite rank: the magnitude is the significand times
two to the power `scale + minExponent`. -/
def significand (rank : Nat) : Nat :=
  if rank < fractions then rank else rank % fractions + fractions

/-- The exponent of the magnitude at a finite rank, counted from that of the least numbers. -/
def scale (rank : Nat) : Nat := rank / fractions - 1

/-- The exponent of the least positive number. -/
def minExponent : Int := -1074

/-- The number with the given sign and rank. -/
def ofRank (negative : Bool) (rank : Nat) : Binary64 :=
  ⟨UInt64.ofNat (rank + if negative then signBit else 0)⟩

/-- The NaN that results of reading and computing use. -/
def nan : Binary64 := ofRank false (infinityRank + fractions / 2)

/-- Infinity with a sign. -/
def infinity (negative : Bool) : Binary64 := ofRank negative infinityRank

/-- The magnitude at a rank as a multiple of the least positive number; at the rank of infinity
this is the power of two that comes after the finite magnitudes. -/
def magnitudeUnits (rank : Nat) : Nat := significand rank * Nat.pow 2 (scale rank)

/-! ## Comparison -/

/-- The number as a multiple of the least positive one, infinity lying beyond all finite
numbers; NaN has no place. -/
def units? (x : Binary64) : Option Int :=
  if x.isNaN then none
  else if x.negative then some (-(magnitudeUnits x.rank : Int))
  else some (magnitudeUnits x.rank)

/-- Comparison by value; NaN compares with nothing, and the two zeros are equal. -/
def compare? (x y : Binary64) : Option Ordering :=
  match x.units?, y.units? with
  | some a, some b => some (compare a b)
  | _, _ => none

/-- Equality by value, false for NaN. -/
def same (x y : Binary64) : Bool := x.compare? y == some .eq

/-- Whether the number is one of the two zeros. -/
def isZero (x : Binary64) : Bool := decide (x.rank = 0)

/-! ## Rounding -/

/-- The integer nearest to `num / den`, a tie going to the even one. -/
def divideToEven (num den : Nat) : Nat :=
  let quotient := num / den
  let rest := 2 * (num % den)
  if rest < den ∨ (rest = den ∧ quotient % 2 = 0) then quotient else quotient + 1

/-- The rank of the magnitude nearest to `num / den`, a tie going to the even significand. -/
def nearestRank (num den : Nat) : Nat :=
  if num = 0 then 0
  else
    let high : Int := (Nat.log2 num : Int) - Nat.log2 den - 52
    let fits (e : Int) : Bool :=
      decide (fractions * den * Nat.pow 2 e.toNat ≤ num * Nat.pow 2 (-e).toNat)
    let exponent := max (if fits high then high else high - 1) minExponent
    let m := divideToEven (num * Nat.pow 2 (-exponent).toNat) (den * Nat.pow 2 exponent.toNat)
    (exponent - minExponent).toNat * fractions + m

/-- The number nearest to a signed ratio; beyond the finite range this is infinity. -/
def ofRatio (negative : Bool) (num den : Nat) : Binary64 :=
  ofRank negative (min (nearestRank num den) infinityRank)

/-- The number nearest to an integer. -/
def ofInt (n : Int) : Binary64 :=
  ofRatio (decide (n < 0)) n.natAbs 1

/-- The number nearest to `digits` times ten to the power `exponent`. Exponents far outside the
range are answered without computing the power. -/
def ofDecimal (negative : Bool) (digits : Nat) (exponent : Int) : Binary64 :=
  let size : Int := (Nat.toDigits 10 digits).length
  if digits = 0 ∨ exponent + size < -400 then ofRank negative 0
  else if 400 < exponent + size then infinity negative
  else ofRatio negative (digits * Nat.pow 10 exponent.toNat) (Nat.pow 10 (-exponent).toNat)

/-! ## Products and quotients -/

/-- The exact product of two finite magnitudes and its nearest number. -/
def multiply (x y : Binary64) : Binary64 :=
  ofRatio (x.negative != y.negative) (magnitudeUnits x.rank * magnitudeUnits y.rank)
    (Nat.pow 2 (2 * 1074))

/-- The exact quotient of two finite magnitudes, the second not zero, and its nearest number. -/
def divide (x y : Binary64) : Binary64 :=
  ofRatio (x.negative != y.negative) (magnitudeUnits x.rank) (magnitudeUnits y.rank)

end Binary64
end PageServer
