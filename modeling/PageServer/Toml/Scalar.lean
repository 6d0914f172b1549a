/-
# Texts, numbers, and times in TOML

* `Toml.readText?`: a text in one of the four ways to quote it
* `Toml.ofWord?`: the value of a word without quotes
-/
import PageServer.Calendar.Date
import PageServer.Number.Decimal
import PageServer.Number.Integer
import PageServer.Toml.Basic

namespace PageServer.Toml

/-! ## Texts -/

/-- Whether a character may stand in a comment or between quotes. -/
def isPrintable (c : Char) : Bool :=
  c = '\t' || (0x20 ≤ c.toNat && c.toNat ≠ 0x7F)

/-- The character behind a backslash, and how many characters stand for it. -/
def escape? : Text → Option (Char × Nat)
  | 'u' :: rest => code 4 rest
  | 'U' :: rest => code 8 rest
  | c :: _ =>
    ([('b', '\x08'), ('t', '\t'), ('n', '\n'), ('f', '\x0c'), ('r', '\r'), ('\x22', '\x22'),
      ('\\', '\\')].lookup c).map fun d => (d, 1)
  | [] => none
where
  /-- The character with a code point of so many hexadecimal digits. -/
  code (count : Nat) (t : Text) : Option (Char × Nat) :=
    match Number.readBase Number.hexDigit? 16 0 (t.take count) with
    | (n, found, []) =>
      if found = count ∧ n.isValidChar then some (Char.ofNat n, count + 1) else none
    | _ => none

/-- A character before what has been read of a text. -/
def before (c : Char) (found : Option (Text × Text)) : Option (Text × Text) :=
  found.map fun (t, rest) => (c :: t, rest)

/-- Reads to a closing double quote, after leaving out the rest of the last escape. -/
def readQuoted : Nat → Text → Option (Text × Text)
  | _, [] => none
  | skip + 1, _ :: rest => readQuoted skip rest
  | 0, '\x22' :: rest => some ([], rest)
  | 0, '\\' :: rest =>
    match escape? rest with
    | some (c, size) => before c (readQuoted size rest)
    | none => none
  | 0, c :: rest => if isPrintable c then before c (readQuoted 0 rest) else none

/-- Reads to a closing single quote. -/
def readLiteral : Text → Option (Text × Text)
  | [] => none
  | '\x27' :: rest => some ([], rest)
  | c :: rest => if isPrintable c then before c (readLiteral rest) else none

/-- Whether a character is a space or a tabulator. -/
def isSpace (c : Char) : Bool := c = ' ' || c = '\t'

/-- The number of characters that a backslash at the end of a line takes with it: the blanks up to
the next other character; none if something follows it on its line. -/
def lineJoin (t : Text) : Nat :=
  match t.dropWhile isSpace with
  | '\n' :: _ | '\r' :: '\n' :: _ => (t.takeWhile fun c => isSpace c || c = '\n' || c = '\r').length
  | _ => 0

/-- Closes a text of several lines at a run of quotes: three close it, and up to two more before
them belong to it. -/
def closeLong (quote : Char) (t : Text) : Option (Text × Text) :=
  let run := t.takeWhile (· = quote)
  if run.length ≤ 5 then some (run.drop 3, t.dropWhile (· = quote)) else none

/-- Reads a text of several lines to its closing quotes, after leaving out the rest of the last
escape. A line ends with a line feed, whatever it ends with in the document. -/
def readLong (quote : Char) (escapes : Bool) : Nat → Text → Option (Text × Text)
  | _, [] => none
  | skip + 1, _ :: rest => readLong quote escapes skip rest
  | 0, '\r' :: '\n' :: rest => before '\n' (readLong quote escapes 0 rest)
  | 0, '\n' :: rest => before '\n' (readLong quote escapes 0 rest)
  | 0, c :: rest =>
    if c = quote then
      if Text.startsWith [quote, quote] rest then closeLong quote (c :: rest)
      else before c (readLong quote escapes 0 rest)
    else if c = '\\' ∧ escapes then
      if 0 < lineJoin rest then readLong quote escapes (lineJoin rest) rest
      else
        match escape? rest with
        | some (d, size) => before d (readLong quote escapes size rest)
        | none => none
    else if isPrintable c then before c (readLong quote escapes 0 rest)
    else none

/-- A text without the end of line that it starts with. -/
def dropLineEnd : Text → Text
  | '\n' :: rest => rest
  | '\r' :: '\n' :: rest => rest
  | t => t

/-- A text in quotes, and what follows. -/
def readText? : Text → Option (Text × Text)
  | '\x22' :: '\x22' :: '\x22' :: rest => readLong '\x22' true 0 (dropLineEnd rest)
  | '\x22' :: rest => readQuoted 0 rest
  | '\x27' :: '\x27' :: '\x27' :: rest => readLong '\x27' false 0 (dropLineEnd rest)
  | '\x27' :: rest => readLiteral rest
  | _ => none

/-! ## Numbers -/

/-- The digits of a number without the underscores, each of which must stand between two of
them. -/
def ungroup? (isDigit : Char → Bool) (t : Text) : Option Text :=
  let groups := Text.splitOn '_' t
  if groups.all fun group => !group.isEmpty && group.all isDigit then some groups.flatten else none

/-- The digits of a whole number, which starts with a zero only if it is one. -/
def wholeDigits? (t : Text) : Option Text :=
  match ungroup? Number.isDigit t with
  | some ('0' :: _ :: _) => none
  | digits => digits

/-- The sign of a number, and what follows. -/
def splitSign : Text → Text × Text
  | '-' :: rest => (['-'], rest)
  | '+' :: rest => ([], rest)
  | t => ([], t)

/-- A whole number in the range of those that can be kept. -/
def kept? (n : Int) : Option Toml :=
  if Number.minInt ≤ n ∧ n ≤ Number.maxInt then some (.int n) else none

/-- A whole number to a base with a mark of its own. -/
def ofMarked? (digitOf? : Char → Option Nat) (base : Nat) (t : Text) : Option Toml :=
  (ungroup? (fun c => (digitOf? c).isSome) t).bind fun digits =>
    kept? (Number.readBase digitOf? base 0 digits).1

/-- The value of a digit below a base. -/
def digitBelow? (base : Nat) (c : Char) : Option Nat :=
  (Number.digit? c).filter fun d => d < base

/-- A whole number. -/
def ofInteger? (t : Text) : Option Toml :=
  match t with
  | '0' :: 'x' :: rest => ofMarked? Number.hexDigit? 16 rest
  | '0' :: 'o' :: rest => ofMarked? (digitBelow? 8) 8 rest
  | '0' :: 'b' :: rest => ofMarked? (digitBelow? 2) 2 rest
  | _ =>
    let (sign, rest) := splitSign t
    (wholeDigits? rest).bind fun digits =>
      (Number.readNat? digits).bind fun n => kept? (if sign.isEmpty then n else -n)

/-- Digits with a mark before them, which both may be missing. -/
def markedPart? (digits? : Text → Option Text) (part : Option Text) : Option Text :=
  match part with
  | some t => digits? t
  | none => some []

/-- The digits of an exponent with its sign. -/
def exponentDigits? (t : Text) : Option Text :=
  let (sign, rest) := splitSign t
  (ungroup? Number.isDigit rest).map fun digits => sign ++ digits

/-- A number with a fraction, an exponent, or both, which is not too large. -/
def ofFloat? (t : Text) : Option Toml := do
  let (sign, rest) := splitSign t
  let (number, exponent) :=
    match Text.cut 'e' (rest.map fun c => if c = 'E' then 'e' else c) with
    | some (number, exponent) => (number, some exponent)
    | none => (rest, none)
  let (whole, fraction) :=
    match Text.cut '.' number with
    | some (whole, fraction) => (whole, some fraction)
    | none => (number, none)
  if exponent.isNone ∧ fraction.isNone then none
  let whole ← wholeDigits? whole
  let fraction ← markedPart? (ungroup? Number.isDigit) fraction
  let exponent ← markedPart? exponentDigits? exponent
  let plain := sign ++ whole ++ '.' :: fraction ++ if exponent.isEmpty then [] else 'e' :: exponent
  let value ← Decimal.read? plain
  if value.isFinite then some (.float t) else none

/-- A number that is not finite. -/
def ofNamed? (t : Text) : Option Toml :=
  let (_, name) := splitSign t
  if name = "inf" ∨ name = "nan" then some (.float t) else none

/-! ## Times -/

/-- A number of just so many digits, at most `most`. -/
def field? (width most : Nat) (t : Text) : Option Nat :=
  if t.length = width then (Number.readNat? t).filter fun n => n ≤ most else none

/-- Whether a text is a day of the calendar. -/
def isDay (t : Text) : Bool :=
  match Text.splitOn '-' t with
  | [year, month, day] =>
    let date : Option Date := do
      Date.ofParts? (← field? 4 9999 year) (← field? 2 12 month) (← field? 2 31 day)
    date.isSome
  | _ => false

/-- Whether a text is a time of day with seconds, of which one may be added to a minute. -/
def isTime (t : Text) : Bool :=
  match Text.splitOn ':' t with
  | [hour, minute, second] =>
    let (whole, fraction) := (Text.cut '.' second).getD (second, ['0'])
    (field? 2 23 hour).isSome && (field? 2 59 minute).isSome && (field? 2 60 whole).isSome
      && (Number.readNat? fraction).isSome
  | _ => false

/-- Whether a text is a distance to universal time. -/
def isOffset : Text → Bool
  | [c] => c = 'Z' || c = 'z'
  | sign :: rest =>
    match Text.splitOn ':' rest with
    | [hour, minute] =>
      (sign = '+' || sign = '-') && (field? 2 23 hour).isSome && (field? 2 59 minute).isSome
    | _ => false
  | [] => false

/-- Whether a text is a time of day, which a distance to universal time may follow. -/
def isZonedTime (t : Text) : Bool :=
  let isZone (c : Char) : Bool := c = 'Z' || c = 'z' || c = '+' || c = '-'
  let zone := t.dropWhile fun c => !isZone c
  isTime (t.takeWhile fun c => !isZone c) && (zone.isEmpty || isOffset zone)

/-- A day, a time of day, or a day with a time behind a letter or a space. -/
def ofMoment? (t : Text) : Option Toml :=
  let day := t.take 10
  let isMoment :=
    match t.drop 10 with
    | [] => isDay t || isTime t
    | c :: time =>
      isTime t || (isDay day && (c = 'T' || c = 't' || c = ' ') && isZonedTime time)
  if isMoment then some (.moment t) else none

/-! ## Words -/

/-- The value of a word without quotes. -/
def ofWord? (t : Text) : Option Toml :=
  if t = "true" then some (.bool true)
  else if t = "false" then some (.bool false)
  else (ofInteger? t).or ((ofFloat? t).or ((ofNamed? t).or (ofMoment? t)))

/-- Whether a character may stand in a word without quotes. -/
def isWordChar (c : Char) : Bool :=
  c.isAlphanum || c = '_' || c = '+' || c = '-' || c = '.' || c = ':'

/-- A word without quotes, and what follows. A day takes the time behind a space with it. -/
def splitWord (t : Text) : Text × Text :=
  let word := t.takeWhile isWordChar
  let rest := t.dropWhile isWordChar
  match rest with
  | ' ' :: c :: more =>
    if isDay word && Number.isDigit c then
      let time := (c :: more).takeWhile isWordChar
      (word ++ ' ' :: time, (c :: more).dropWhile isWordChar)
    else (word, rest)
  | _ => (word, rest)

end PageServer.Toml
