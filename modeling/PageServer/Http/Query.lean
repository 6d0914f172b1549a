/-
# Queries

Names with values as they stand in the query of an address and in the body of
a form: pairs between ampersands, name and value around an equals sign, a plus
sign for a space, and any byte as a percent sign with two hexadecimal digits.

* `Query.read`: the table of a query
* `Query.write`: the query of a table
* `Query.extend`: an address whose query has some values set
-/
import PageServer.Number.Integer
import PageServer.Text.Table
import PageServer.Text.Utf8

namespace PageServer.Query

/-! ## Reading -/

/-- The value of a hexadecimal digit. -/
def hexDigit? (b : UInt8) : Option UInt8 :=
  (Number.hexDigit? (Char.ofNat b.toNat)).map UInt8.ofNat

/-- The bytes that escaped bytes stand for; a percent sign without two digits stays. -/
def unescape : Bytes → Bytes
  | 0x25 :: high :: low :: rest =>
    match hexDigit? high, hexDigit? low with
    | some h, some l => (16 * h + l) :: unescape rest
    | _, _ => 0x25 :: unescape (high :: low :: rest)
  | b :: rest => b :: unescape rest
  | [] => []

/-- The character that a character outside escapes stands for. -/
def unplus (c : Char) : Char := if c = '+' then ' ' else c

/-- The text that a written name or value stands for. -/
def readPart (t : Text) : Text :=
  Utf8.decodeLossy (unescape (Utf8.encode (t.map unplus)))

/-- The name and the value of a pair; without an equals sign the value is empty. -/
def readPair (t : Text) : Text × Text :=
  let (name, value) := (Text.cut '=' t).getD (t, [])
  (readPart name, readPart value)

/-- The pairs of a query in order; empty pairs do not count. -/
def pairs (t : Text) : List (Text × Text) :=
  ((Text.splitOn '&' t).filter fun piece => !piece.isEmpty).map readPair

/-- The table of a query; of several values with one name the last counts. -/
def read (t : Text) : Table Text := Table.ofList (pairs t)

/-! ## Writing -/

/-- Whether a byte stands for itself. -/
def isPlain (b : UInt8) : Bool :=
  (0x30 ≤ b && b ≤ 0x39) || (0x41 ≤ b && b ≤ 0x5A) || (0x61 ≤ b && b ≤ 0x7A)
    || b == 0x2A || b == 0x2D || b == 0x2E || b == 0x5F

/-- A hexadecimal digit, with a capital letter beyond nine. -/
def hexDigit (n : Nat) : Char :=
  Char.ofNat (if n < 10 then 0x30 + n else 0x37 + n)

/-- A byte as it is written. -/
def writeByte (b : UInt8) : Text :=
  if isPlain b then [Char.ofNat b.toNat]
  else if b = 0x20 then ['+']
  else ['%', hexDigit (b.toNat / 16), hexDigit (b.toNat % 16)]

/-- A name or a value as it is written. -/
def writePart (t : Text) : Text := (Utf8.encode t).flatMap writeByte

/-- A pair as it is written. -/
def writePair (pair : Text × Text) : Text :=
  writePart pair.1 ++ '=' :: writePart pair.2

/-- Some pairs as they are written, in order. -/
def write (entries : List (Text × Text)) : Text :=
  Text.join "&" (entries.map writePair)

/-! ## Addresses -/

/-- The parts of an address before and after its first question mark. -/
def splitAddress (address : Text) : Text × Text :=
  (Text.cut '?' address).getD (address, [])

/-- An address whose query has each of `params` set, the last of a name counting, and is in the
order of the names. Without `params` the address stays as it is. -/
def extend (address : Text) (params : List (Text × Text)) : Text :=
  if params.isEmpty then address
  else
    let (path, query) := splitAddress address
    let merged := params.foldl (fun table pair => table.insert pair.1 pair.2) (read query)
    path ++ '?' :: write merged

end PageServer.Query
