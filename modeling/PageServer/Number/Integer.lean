/-
# Integers as text

Readers of decimal integers. A reader takes the whole text or nothing; a value
out of range is refused like any other text that is no number.
-/
import PageServer.Text.Basic

namespace PageServer.Number

/-- The value of a decimal digit. -/
def digit? (c : Char) : Option Nat :=
  if '0' ≤ c ∧ c ≤ '9' then some (c.toNat - '0'.toNat) else none

/-- Whether a character is a decimal digit of ASCII. -/
def isDigit (c : Char) : Bool := (digit? c).isSome

/-- Reads the remaining digits of a number that starts with `value`. -/
def readDigits : Nat → Text → Option Nat
  | value, [] => some value
  | value, c :: rest =>
    match digit? c with
    | some d => readDigits (10 * value + d) rest
    | none => none

/-- The natural number that a nonempty text of digits stands for. -/
def readNat? : Text → Option Nat
  | [] => none
  | c :: rest => readDigits 0 (c :: rest)

/-- The value of a hexadecimal digit. -/
def hexDigit? (c : Char) : Option Nat :=
  if '0' ≤ c ∧ c ≤ '9' then some (c.toNat - '0'.toNat)
  else if 'a' ≤ c ∧ c ≤ 'f' then some (c.toNat - 'a'.toNat + 10)
  else if 'A' ≤ c ∧ c ≤ 'F' then some (c.toNat - 'A'.toNat + 10)
  else none

/-- Reads the remaining digits of a number to a base that starts with `value`, and tells how many
there are before the first character that is no digit. -/
def readBase (digitOf? : Char → Option Nat) (base : Nat) : Nat → Text → Nat × Nat × Text
  | value, [] => (value, 0, [])
  | value, c :: rest =>
    match digitOf? c with
    | some d =>
      let (total, count, after) := readBase digitOf? base (base * value + d) rest
      (total, count + 1, after)
    | none => (value, 0, c :: rest)

/-- Largest signed integer of 64 bits: two to the power 63, less one. -/
def maxInt : Int := 0x7FFFFFFFFFFFFFFF

/-- Smallest signed integer of 64 bits. -/
def minInt : Int := -0x8000000000000000

/-- Largest size, an unsigned integer of 64 bits: two to the power 64, less one. -/
def maxSize : Nat := 0xFFFFFFFFFFFFFFFF

/-- A signed integer of 64 bits, with an optional sign. -/
def readInt? (t : Text) : Option Int :=
  let value : Option Int :=
    match t with
    | '-' :: digits => (readNat? digits).map fun n => -(n : Int)
    | '+' :: digits => (readNat? digits).map Int.ofNat
    | digits => (readNat? digits).map Int.ofNat
  value.filter fun n => minInt ≤ n ∧ n ≤ maxInt

/-- A size, with an optional plus sign. -/
def readSize? (t : Text) : Option Nat :=
  let value : Option Nat :=
    match t with
    | '+' :: digits => readNat? digits
    | digits => readNat? digits
  value.filter fun n => n ≤ maxSize

end PageServer.Number
