/-
# Reading JSON

* `Json.read?`: the tree of a text that is JSON from its first to its last character
* `Json.natOf?`, `Json.intOf?`, `Json.floatOf?`: the numbers that a written number can be read as
-/
import PageServer.Json.Basic
import PageServer.Number.Decimal

namespace PageServer.Json

/-! ## Blanks -/

/-- Whether a character may stand between the parts of a JSON text. -/
def isBlank (c : Char) : Bool := c = ' ' || c = '\t' || c = '\n' || c = '\r'

/-- A text without the blanks it starts with. -/
def skip (t : Text) : Text := t.dropWhile isBlank

/-! ## Strings -/

/-- A part of a string: a character, or a unit of 16 bits given by its number. -/
inductive Part where
  /-- A character. -/
  | char (c : Char)
  /-- A unit of 16 bits. -/
  | unit (n : Nat)
  deriving DecidableEq, Repr

/-- The character that an escape of one letter stands for. -/
def escaped? (c : Char) : Option Char :=
  [('\x22', '\x22'), ('\\', '\\'), ('/', '/'), ('b', '\x08'), ('f', '\x0c'), ('n', '\n'),
    ('r', '\r'), ('t', '\t')].lookup c

/-- The parts of a string up to its closing quote, and what follows. -/
def readParts : Text → Option (List Part × Text)
  | [] => none
  | '\x22' :: rest => some ([], rest)
  | '\\' :: 'u' :: a :: b :: c :: d :: rest =>
    match Number.hexDigit? a, Number.hexDigit? b, Number.hexDigit? c, Number.hexDigit? d with
    | some a, some b, some c, some d =>
      (readParts rest).map fun (parts, after) =>
        (.unit (a * 4096 + b * 256 + c * 16 + d) :: parts, after)
    | _, _, _, _ => none
  | '\\' :: e :: rest =>
    match escaped? e with
    | some c => (readParts rest).map fun (parts, after) => (.char c :: parts, after)
    | none => none
  | c :: rest =>
    if c = '\\' ∨ c.toNat < 32 then none
    else (readParts rest).map fun (parts, after) => (.char c :: parts, after)

/-- Whether a unit is the first half of a pair. -/
def isHigh (n : Nat) : Bool := 0xD800 ≤ n && n < 0xDC00

/-- Whether a unit is the second half of a pair. -/
def isLow (n : Nat) : Bool := 0xDC00 ≤ n && n < 0xE000

/-- The text of the parts of a string; half a pair has none. -/
def joinParts : List Part → Option Text
  | [] => some []
  | .char c :: rest => (joinParts rest).map (c :: ·)
  | .unit high :: .unit low :: rest =>
    if isHigh high then
      if isLow low then
        (joinParts rest).map
          (Char.ofNat (0x10000 + (high - 0xD800) * 1024 + (low - 0xDC00)) :: ·)
      else none
    else if isLow high then none
    else (joinParts (.unit low :: rest)).map (Char.ofNat high :: ·)
  | .unit n :: rest =>
    if isHigh n || isLow n then none else (joinParts rest).map (Char.ofNat n :: ·)

/-- A string after its opening quote, and what follows. -/
def readString (t : Text) : Option (Option Text × Text) :=
  (readParts t).map fun (parts, after) => (joinParts parts, after)

/-! ## Numbers -/

/-- The digits that a text starts with, at least one, and what follows. -/
def readDigits (t : Text) : Option (Text × Text) :=
  match Decimal.spanDigits t with
  | ([], _) => none
  | found => some found

/-- The whole part of a number: a zero alone, or digits that start with another one. -/
def readWhole (t : Text) : Option (Text × Text) :=
  match readDigits t with
  | some ('0' :: _ :: _, _) => none
  | found => found

/-- The fraction of a number with its point, empty if there is none. -/
def readFraction (t : Text) : Option (Text × Text) :=
  match t with
  | '.' :: rest => (readDigits rest).map fun (digits, after) => ('.' :: digits, after)
  | _ => some ([], t)

/-- The exponent of a number with its letter and sign, empty if there is none. -/
def readExponent (t : Text) : Option (Text × Text) :=
  match t with
  | c :: rest =>
    if c = 'e' ∨ c = 'E' then
      match rest with
      | '+' :: rest => (readDigits rest).map fun (digits, after) => (c :: '+' :: digits, after)
      | '-' :: rest => (readDigits rest).map fun (digits, after) => (c :: '-' :: digits, after)
      | rest => (readDigits rest).map fun (digits, after) => (c :: digits, after)
    else some ([], t)
  | [] => some ([], t)

/-- A number as it is written, and what follows. -/
def readNumber (t : Text) : Option (Text × Text) :=
  let (sign, rest) : Text × Text :=
    match t with
    | '-' :: rest => (['-'], rest)
    | rest => ([], rest)
  match readWhole rest with
  | none => none
  | some (whole, rest) =>
    match readFraction rest with
    | none => none
    | some (fraction, rest) =>
      match readExponent rest with
      | none => none
      | some (exponent, rest) => some (sign ++ whole ++ fraction ++ exponent, rest)

/-! ## Trees -/

mutual
/-- A tree that starts a text, and what follows. The first argument bounds the depth and the
length of what is read. -/
def readValue : Nat → Text → Option (Json × Text)
  | 0, _ => none
  | fuel + 1, t =>
    match t with
    | 'n' :: 'u' :: 'l' :: 'l' :: rest => some (null, rest)
    | 't' :: 'r' :: 'u' :: 'e' :: rest => some (bool true, rest)
    | 'f' :: 'a' :: 'l' :: 's' :: 'e' :: rest => some (bool false, rest)
    | '\x22' :: rest => (readString rest).map fun (s, after) => (string s, after)
    | '[' :: rest =>
      match skip rest with
      | ']' :: after => some (array [], after)
      | first => (readItems fuel first).map fun (items, after) => (array items, after)
    | '\x7b' :: rest =>
      match skip rest with
      | '\x7d' :: after => some (object [], after)
      | first => (readMembers fuel first).map fun (members, after) => (object members, after)
    | t => (readNumber t).map fun (written, after) => (number written, after)

/-- The items of an array from the first one to the closing bracket. -/
def readItems : Nat → Text → Option (List Json × Text)
  | 0, _ => none
  | fuel + 1, t =>
    match readValue fuel t with
    | none => none
    | some (item, after) =>
      match skip after with
      | ']' :: rest => some ([item], rest)
      | ',' :: rest =>
        (readItems fuel (skip rest)).map fun (items, after) => (item :: items, after)
      | _ => none

/-- The members of an object from the first one to the closing brace. -/
def readMembers : Nat → Text → Option (List (Option Text × Json) × Text)
  | 0, _ => none
  | fuel + 1, t =>
    match t with
    | '\x22' :: rest =>
      match readString rest with
      | none => none
      | some (name, after) =>
        match skip after with
        | ':' :: rest =>
          match readValue fuel (skip rest) with
          | none => none
          | some (value, after) =>
            match skip after with
            | '\x7d' :: rest => some ([(name, value)], rest)
            | ',' :: rest =>
              (readMembers fuel (skip rest)).map fun (members, after) =>
                ((name, value) :: members, after)
            | _ => none
        | _ => none
    | _ => none
end

/-- The tree of a text that is JSON as a whole. -/
def read? (t : Text) : Option Json :=
  match readValue (t.length + 1) (skip t) with
  | some (value, after) => if (skip after).isEmpty then some value else none
  | none => none

/-! ## Meanings of numbers -/

/-- The size that a number is. -/
def natOf? (written : Text) : Option Nat := Number.readSize? written

/-- The signed integer of 64 bits that a number is; minus zero is none. -/
def intOf? (written : Text) : Option Int :=
  if written = "-0".toList then none else Number.readInt? written

/-- The digits of a number that are taken in while their value stays a size, the value, and the
number of the digits that are left out. -/
def takeDigits : Nat → Text → Nat × Nat × Nat
  | value, [] => (value, 0, 0)
  | value, c :: rest =>
    let next := 10 * value + (Number.digit? c).getD 0
    if next ≤ Number.maxSize then
      let (value, taken, left) := takeDigits next rest
      (value, taken + 1, left)
    else (value, 0, rest.length + 1)

/-- Ten to a power of at most 308. -/
def powerOfTen (n : Nat) : Binary64 := .ofDecimal false 1 n

/-- A number scaled by a power of ten, with one rounded operation after another; a result beyond
the finite range is none. Two divisions by the greatest power leave nothing of a size. -/
def scale? : Nat → Binary64 → Int → Option Binary64
  | 0, _, _ => none
  | steps + 1, x, exponent =>
    if exponent.natAbs ≤ 308 then
      if 0 ≤ exponent then
        let product := x.multiply (powerOfTen exponent.natAbs)
        if product.isFinite then some product else none
      else some (x.divide (powerOfTen exponent.natAbs))
    else if x.isZero then some x
    else if 0 ≤ exponent then none
    else scale? steps (x.divide (powerOfTen 308)) (exponent + 308)

/-- The exponent that a number is written with, zero if there is none. -/
def exponentOf (t : Text) : Int :=
  match t with
  | [] => 0
  | _ :: rest => (Decimal.readExponent? rest).getD 0

/-- The greatest exponent that is computed with. -/
def maxExponent : Int := 0x7FFFFFFF

/-- The magnitude of an unsigned number: its leading digits as far as they are a size, scaled by
a power of ten. A number beyond the finite range is none. -/
def magnitudeOf? (written : Text) : Option Binary64 :=
  let (whole, rest) := Decimal.spanDigits written
  let (fraction, rest) : Text × Text :=
    match rest with
    | '.' :: rest => Decimal.spanDigits rest
    | rest => ([], rest)
  let (value, _, left) := takeDigits 0 whole
  let (value, taken, _) := takeDigits value fraction
  let exponent := exponentOf rest
  if maxExponent < exponent then if value = 0 then some (.ofRank false 0) else none
  else if exponent < -maxExponent then some (.ofRank false 0)
  else scale? 4 (.ofInt value) (exponent + left - taken)

/-- The floating-point number that a number is read as. -/
def floatOf? (written : Text) : Option Binary64 :=
  match written with
  | '-' :: rest => (magnitudeOf? rest).map fun x => .ofRank true x.rank
  | rest => magnitudeOf? rest

end PageServer.Json
