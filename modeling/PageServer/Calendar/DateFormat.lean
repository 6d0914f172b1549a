/-
# Written dates

A format says in which order year, month, and day are written and what stands
between them. Years have four digits, or a sign and more where they need it;
months and days have two digits.

* `DateFormat.ofText`: the format with `yyyy`, `mm`, and `dd` for the numbers
* `DateFormat.write`: a date in a format
* `DateFormat.read?`: the date of a text in a format, which is lenient
* `DateFormat.accepts`: whether a text is just what would be written for its date
-/
import PageServer.Calendar.Date
import PageServer.Number.Integer
import PageServer.Text.Blank

namespace PageServer

/-- A part of a written date. -/
inductive DatePart where
  /-- The year. -/
  | year
  /-- The month. -/
  | month
  /-- The day. -/
  | day
  /-- A blank. -/
  | blank (c : Char)
  /-- Any other character. -/
  | char (c : Char)
  deriving DecidableEq, Repr

/-- The parts of a written date, in order. -/
abbrev DateFormat := List DatePart

namespace DateFormat

/-! ## Formats -/

/-- The part for a character that is no sign for a number. -/
def plainPart (c : Char) : DatePart :=
  if Text.isBlank c then .blank c else .char c

/-- The format that is written with percent signs; no other letter than `Y`, `m`, and `d` may
follow one, and two stand for one. -/
def ofSigns? : Text → Option DateFormat
  | [] => some []
  | '%' :: letter :: rest =>
    let part : Option DatePart :=
      match letter with
      | 'Y' => some .year
      | 'm' => some .month
      | 'd' => some .day
      | '%' => some (.char '%')
      | _ => none
    match part, ofSigns? rest with
    | some part, some parts => some (part :: parts)
    | _, _ => none
  | c :: rest =>
    if c = '%' then none else (ofSigns? rest).map fun parts => plainPart c :: parts

/-- The format that is written with `yyyy`, `mm`, and `dd`. -/
def ofText? (t : Text) : Option DateFormat :=
  ofSigns? (Text.replaceAll "dd" "%d" (Text.replaceAll "mm" "%m" (Text.replaceAll "yyyy" "%Y" t)))

/-! ## Writing -/

/-- A number with at least so many digits. -/
def padded (width n : Nat) : Text :=
  let digits := Text.ofNat n
  List.replicate (width - digits.length) '0' ++ digits

/-- A year of at least four digits, with a sign if it is negative or has more. -/
def writeYear (year : Int) : Text :=
  if year < 0 then '-' :: padded 4 year.natAbs
  else if 9999 < year then '+' :: padded 4 year.natAbs
  else padded 4 year.natAbs

/-- A part of a date as it is written. -/
def writePart (date : Date) : DatePart → Text
  | .year => writeYear date.year
  | .month => padded 2 date.month
  | .day => padded 2 date.day
  | .blank c | .char c => [c]

/-- A date as it is written. -/
def write (format : DateFormat) (date : Date) : Text := format.flatMap (writePart date)

/-! ## Reading -/

/-- The numbers that have been read. -/
structure Found where
  /-- The year. -/
  year : Option Int := none
  /-- The month. -/
  month : Option Nat := none
  /-- The day. -/
  day : Option Nat := none
  deriving DecidableEq, Repr

/-- A number that may stand again only if it is the same. -/
def agree {α : Type} [DecidableEq α] (old : Option α) (new : α) : Option (Option α) :=
  match old with
  | none => some (some new)
  | some n => if n = new then some old else none

/-- A number of at least one and at most so many digits, and what follows. -/
def readNumber? (most : Nat) (t : Text) : Option (Nat × Text) :=
  match Number.readBase Number.digit? 10 0 (t.take most) with
  | (n, found, rest) => if found = 0 then none else some (n, rest ++ t.drop most)

/-- A year: four digits at most, or with a sign any number of them. -/
def readYear? (t : Text) : Option (Int × Text) :=
  match t with
  | '-' :: rest => (readNumber? rest.length rest).map fun (n, rest) => (-(n : Int), rest)
  | '+' :: rest => (readNumber? rest.length rest).map fun (n, rest) => ((n : Int), rest)
  | _ => (readNumber? 4 t).map fun (n, rest) => ((n : Int), rest)

/-- Reads one part; blanks before a number and any number of blanks for a blank do not matter. -/
def readPart? (found : Found) (part : DatePart) (t : Text) : Option (Found × Text) := do
  let start := t.dropWhile Text.isBlank
  match part with
  | .year =>
    let (n, rest) ← readYear? start
    let year ← agree found.year n
    return ({ found with year }, rest)
  | .month =>
    let (n, rest) ← readNumber? 2 start
    let month ← agree found.month n
    return ({ found with month }, rest)
  | .day =>
    let (n, rest) ← readNumber? 2 start
    let day ← agree found.day n
    return ({ found with day }, rest)
  | .blank _ => return (found, start)
  | .char c =>
    match t with
    | first :: rest => if first = c then some (found, rest) else none
    | [] => none

/-- Reads the parts of a date that fill a text. -/
def readParts? (found : Found) : DateFormat → Text → Option Found
  | [], [] => some found
  | [], _ :: _ => none
  | part :: parts, t =>
    match readPart? found part t with
    | some (found, rest) => readParts? found parts rest
    | none => none

/-- The date that a text says in a format. -/
def read? (format : DateFormat) (t : Text) : Option Date := do
  let found ← readParts? {} format t
  let year ← found.year
  let month ← found.month
  let day ← found.day
  Date.ofParts? year month day

/-- Whether a text is just what is written for the date it says. -/
def accepts (format : DateFormat) (t : Text) : Bool :=
  match read? format t with
  | some date => decide (write format date = t)
  | none => false

end DateFormat
end PageServer
