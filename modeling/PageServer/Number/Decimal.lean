/-
# Decimal forms of binary64 numbers

The fewest decimal digits that read back as a given number, the three layouts in
which they are written, and the reader of decimal numbers.

* `Decimal.shortest`: the fewest digits, and the nearest of those
* `Decimal.plain`, `Decimal.general`, `Decimal.data`: the layouts for output, for messages and
  for saved trees
* `Decimal.read?`: reads any of these layouts and more
-/
import PageServer.Number.Binary64
import PageServer.Number.Integer

namespace PageServer

/-- The value `digits` times ten to the power `exponent`. -/
structure Decimal where
  /-- The digits as a number. -/
  digits : Nat
  /-- The power of ten of the last digit. -/
  exponent : Int
  deriving DecidableEq, Repr, Inhabited

namespace Decimal

/-! ## Shortest digits -/

/-- Where the digits go when two candidates are equally near. -/
inductive Tie
  /-- To the greater one. -/
  | up
  /-- To the one whose last digit is even. -/
  | even
  deriving DecidableEq, Repr

/-- The reals that round to a magnitude, as numerators over one common denominator. -/
structure Interval where
  /-- The least of them. -/
  low : Nat
  /-- The magnitude itself. -/
  value : Nat
  /-- The greatest of them. -/
  high : Nat
  /-- Whether the two ends belong to them. -/
  closed : Bool

/-- Whether a numerator lies in the interval; the ends belong to it if it is closed. -/
def Interval.holds (i : Interval) (x : Nat) : Bool :=
  if i.closed then decide (i.low ≤ x ∧ x ≤ i.high) else decide (i.low < x ∧ x < i.high)

/-- The interval around the magnitude at a finite rank, in quarters of the unit of its last
place. -/
def Interval.ofRank (rank : Nat) : Interval :=
  let m := Binary64.significand rank
  let atPower := m = Binary64.fractions ∧ 0 < Binary64.scale rank
  { low := if atPower then 4 * m - 1 else 4 * m - 2
    value := 4 * m
    high := 4 * m + 2
    closed := m % 2 = 0 }

/-- The interval with its numerators multiplied. -/
def Interval.times (k : Nat) (i : Interval) : Interval :=
  { i with low := i.low * k, value := i.value * k, high := i.high * k }

/-- Of the two multiples of `unit` around the value, the one in the interval, or the nearer if
both are. -/
def Interval.hit? (i : Interval) (unit : Nat) (tie : Tie) : Option Nat :=
  let below := i.value / unit
  let above := below + 1
  let belowIn := 0 < below ∧ i.holds (below * unit)
  let aboveIn := i.holds (above * unit)
  if belowIn ∧ aboveIn then
    let rest := 2 * (i.value - below * unit)
    if rest < unit then some below
    else if unit < rest then some above
    else
      match tie with
      | .up => some above
      | .even => if below % 2 = 0 then some below else some above
  else if belowIn then some below
  else if aboveIn then some above
  else none

/-- Tries the powers of ten from `exponent` downwards until a multiple lies in the interval. -/
def search (i : Interval) (shift : Int) (tie : Tie) : Nat → Int → Decimal
  | 0, exponent => ⟨0, exponent⟩
  | steps + 1, exponent =>
    let scaled := i.times (Nat.pow 10 (-exponent).toNat * Nat.pow 2 shift.toNat)
    let unit := Nat.pow 10 exponent.toNat * Nat.pow 2 (-shift).toNat
    match scaled.hit? unit tie with
    | some digits => ⟨digits, exponent⟩
    | none => search i shift tie steps (exponent - 1)

/-- The fewest digits that read back as the magnitude at a finite rank, and of those the nearest
to it. -/
def shortest (tie : Tie) (rank : Nat) : Decimal :=
  if rank = 0 then ⟨0, 0⟩
  else
    let shift : Int := Binary64.scale rank + Binary64.minExponent
    let top : Int := ((Nat.log2 (Binary64.significand rank) : Int) + shift + 1) * 30103 / 100000 + 1
    search (Interval.ofRank rank) (shift - 2) tie 40 top

/-! ## Layouts -/

/-- How many digits stand before the decimal point in positional notation; negative for zeros
behind it. -/
def pointAfter (d : Decimal) : Int :=
  (Text.ofNat d.digits).length + d.exponent

/-- The digits around a point, filled up with zeros: the part before it and the part after it. -/
def around (d : Decimal) : Text × Text :=
  let digits := Text.ofNat d.digits
  let before := d.pointAfter
  if d.digits = 0 then ("0", [])
  else if before ≤ 0 then ("0", List.replicate (-before).toNat '0' ++ digits)
  else if 0 ≤ d.exponent then (digits ++ List.replicate d.exponent.toNat '0', [])
  else (digits.take before.toNat, digits.drop before.toNat)

/-- Positional notation; `whole` is what stands after a number without a fraction. -/
def positional (whole : Text) (d : Decimal) : Text :=
  match d.around with
  | (before, []) => before ++ whole
  | (before, after) => before ++ '.' :: after

/-- One digit, the others behind a point, and the exponent with `plus` before it if it is not
negative. -/
def scientific (plus : Text) (d : Decimal) : Text :=
  let power := d.pointAfter - 1
  let mark := 'e' :: (if power < 0 then [] else plus) ++ Text.ofInt power
  match Text.ofNat d.digits with
  | first :: [] => first :: mark
  | first :: others => first :: '.' :: others ++ mark
  | [] => mark

/-- The sign of a number before the text of its magnitude. -/
def signed (x : Binary64) (magnitude : Text) : Text :=
  if x.negative then '-' :: magnitude else magnitude

/-- The names of the numbers that are not finite, and `finite` for the others. -/
def named (x : Binary64) (finite : Text) : Text :=
  if x.isNaN then "NaN"
  else if x.isInfinite then signed x "inf"
  else signed x finite

/-- The layout of output: positional at every size, without a point for whole numbers. -/
def plain (x : Binary64) : Text :=
  named x (positional [] (shortest .up x.rank))

/-- The layout of messages: positional from 10⁻⁴ to below 10¹⁶, always with a point there, and
with an exponent outside. -/
def general (x : Binary64) : Text :=
  let d := shortest .up x.rank
  let place := d.pointAfter
  named x <|
    if d.digits = 0 ∨ (-3 ≤ place ∧ place ≤ 16) then positional ".0" d
    else scientific [] d

/-- The layout of saved trees: positional from 10⁻⁵ to below 10¹⁶, always with a point there,
and with a signed exponent outside; numbers that are not finite are `null`. -/
def data (x : Binary64) : Text :=
  let d := shortest .even x.rank
  let place := d.pointAfter
  if x.isFinite then
    signed x <|
      if d.digits = 0 ∨ (-4 ≤ place ∧ place ≤ 16) then positional ".0" d
      else scientific "+" d
  else "null"

/-! ## Reading -/

/-- The longest start of digits, and what follows it. -/
def spanDigits (t : Text) : Text × Text :=
  (t.takeWhile Number.isDigit, t.dropWhile Number.isDigit)

/-- The value of a text of digits, which may be empty. -/
def digitsValue (t : Text) : Nat := (Number.readDigits 0 t).getD 0

/-- Whether a text is a word of letters of either case, `word` being in lower case. -/
def isWord (word t : Text) : Bool := t.map Char.toLower = word

/-- Reads an exponent after its letter: an optional sign and at least one digit. -/
def readExponent? (t : Text) : Option Int :=
  match t with
  | '-' :: digits => (Number.readNat? digits).map fun n => -(n : Int)
  | '+' :: digits => (Number.readNat? digits).map Int.ofNat
  | digits => (Number.readNat? digits).map Int.ofNat

/-- Reads an unsigned decimal: digits with an optional point among or around them, at least one
digit in all, and an optional exponent. -/
def readUnsigned? (t : Text) : Option Decimal :=
  let (whole, rest) := spanDigits t
  let (fraction, rest) :=
    match rest with
    | '.' :: rest => spanDigits rest
    | rest => ([], rest)
  if whole.isEmpty && fraction.isEmpty then none
  else
    let value (power : Int) : Decimal :=
      ⟨digitsValue (whole ++ fraction), power - fraction.length⟩
    match rest with
    | [] => some (value 0)
    | c :: rest =>
      if c = 'e' ∨ c = 'E' then (readExponent? rest).map value else none

/-- Reads the magnitude of a number: infinity or NaN by name in letters of either case, or a
decimal rounded to the nearest number. -/
def readMagnitude? (negative : Bool) (t : Text) : Option Binary64 :=
  if isWord "inf" t || isWord "infinity" t then some (.infinity negative)
  else if isWord "nan" t then some .nan
  else (readUnsigned? t).map fun d => .ofDecimal negative d.digits d.exponent

/-- Reads a number with an optional sign; the whole text has to be the number. -/
def read? (t : Text) : Option Binary64 :=
  match t with
  | '-' :: rest => readMagnitude? true rest
  | '+' :: rest => readMagnitude? false rest
  | rest => readMagnitude? false rest

end Decimal
end PageServer
