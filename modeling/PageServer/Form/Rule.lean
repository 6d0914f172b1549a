/-
# Rules

What may be asked of a text that a user sends. A rule has a name, by which it
can be given together with its parameters, and a message for those whose text
breaks it.

* `Rule.ofName`: the rule with a name and parameters
* `Rule.check`: whether a text keeps a rule
* `Rule.message`: what is said of a field that breaks it
-/
import PageServer.Calendar.DateFormat
import PageServer.Fault
import PageServer.Pattern.Reader
import PageServer.Text.Utf8

namespace PageServer

/-- What may be asked of a text. -/
inductive Rule where
  /-- It says something. -/
  | notEmpty
  /-- It says something. -/
  | required
  /-- It consists of digits. -/
  | isInt
  /-- It has a digit. -/
  | containsInt
  /-- It consists of letters. -/
  | isAlpha
  /-- It has a letter. -/
  | containsAlpha
  /-- It consists of letters and digits. -/
  | isAlphanum
  /-- It consists of letters, digits, and a few signs. -/
  | isAlphanumExtra
  /-- It consists of letters, digits, blanks, and punctuation. -/
  | isText
  /-- It consists of capitals. -/
  | isUpper
  /-- It has a capital. -/
  | containsUpper
  /-- It has a part. -/
  | contains (part : Text)
  /-- It does not have a part. -/
  | notContains (part : Text)
  /-- It has a sign that is no letter, digit, or blank. -/
  | containsSpecialChar
  /-- It is not too short. -/
  | minLength (least : Nat)
  /-- It is not too long. -/
  | maxLength (most : Nat)
  /-- It is neither too short nor too long. -/
  | inRange (least most : Nat)
  /-- It is an address for mail. -/
  | isEmail
  /-- It is an address of a page. -/
  | isUrl
  /-- It fits a pattern. -/
  | matchesPattern (pattern : Text)
  /-- It is a time of day. -/
  | isTime
  /-- It is a date in a format. -/
  | isDate (format : Text)
  /-- It is a date in the usual format. -/
  | isSqlDate
  /-- It is the password that was given before. -/
  | mustMatchPassword (password : Text)
  /-- It is not a password that was used before. -/
  | notPastPassword (password : Text)
  deriving DecidableEq, Repr

namespace Rule

/-! ## Names -/

/-- The name of a rule. -/
def name : Rule → Text
  | notEmpty => "not_empty"
  | required => "required"
  | isInt => "is_int"
  | containsInt => "contains_int"
  | isAlpha => "is_alpha"
  | containsAlpha => "contains_alpha"
  | isAlphanum => "is_alphanum"
  | isAlphanumExtra => "is_alphanum_extra"
  | isText => "is_text"
  | isUpper => "is_upper"
  | containsUpper => "contains_upper"
  | contains _ => "contains"
  | notContains _ => "not_contains"
  | containsSpecialChar => "contains_special_char"
  | minLength _ => "min_length"
  | maxLength _ => "max_length"
  | inRange _ _ => "in_range"
  | isEmail => "is_email"
  | isUrl => "is_url"
  | matchesPattern _ => "matches_regexp"
  | isTime => "is_time"
  | isDate _ => "is_date"
  | isSqlDate => "is_sql_date"
  | mustMatchPassword _ => "must_match_password"
  | notPastPassword _ => "not_past_password"

/-- The format of a date if none is given. -/
def usualDateFormat : Text := "yyyy-mm-dd"

/-- The parameter at a place, counted from zero. -/
def textAt (name : Text) (parameters : List Text) (index : Nat) : Except Fault Text :=
  match parameters[index]? with
  | some parameter => .ok parameter
  | none => .error (.invalidRule
      (name ++ " expects at least " ++ Text.ofNat (index + 1) ++ " parameter(s)"))

/-- The parameter at a place as a size. -/
def sizeAt (name : Text) (parameters : List Text) (index : Nat) : Except Fault Nat := do
  let parameter ← textAt name parameters index
  match Number.readSize? (Text.trim parameter) with
  | some n => return n
  | none => .error (.invalidRule
      (name ++ " expects a number, got \x27" ++ parameter ++ "\x27"))

/-- The rule with a name and parameters; parameters that it does not need do not count. -/
def ofName (name : Text) (parameters : List Text) : Except Fault Rule :=
  match String.ofList name with
  | "not_empty" => .ok notEmpty
  | "required" => .ok required
  | "is_int" => .ok isInt
  | "contains_int" => .ok containsInt
  | "is_alpha" => .ok isAlpha
  | "contains_alpha" => .ok containsAlpha
  | "is_alphanum" => .ok isAlphanum
  | "is_alphanum_extra" => .ok isAlphanumExtra
  | "is_text" => .ok isText
  | "is_upper" => .ok isUpper
  | "contains_upper" => .ok containsUpper
  | "contains" => return contains (← textAt name parameters 0)
  | "not_contains" => return notContains (← textAt name parameters 0)
  | "contains_special_char" => .ok containsSpecialChar
  | "min_length" => return minLength (← sizeAt name parameters 0)
  | "max_length" => return maxLength (← sizeAt name parameters 0)
  | "in_range" => do
    let least ← sizeAt name parameters 0
    let most ← sizeAt name parameters 1
    return inRange least most
  | "is_email" => .ok isEmail
  | "is_url" => .ok isUrl
  | "matches_regexp" => return matchesPattern (← textAt name parameters 0)
  | "is_time" => .ok isTime
  | "is_date" => .ok (isDate (parameters.head?.getD usualDateFormat))
  | "is_sql_date" => .ok isSqlDate
  | "must_match_password" => return mustMatchPassword (← textAt name parameters 0)
  | "not_past_password" => return notPastPassword (← textAt name parameters 0)
  | _ => .error (.invalidRule ("Invalid rule provided [" ++ name ++ "]"))

/-! ## Checks -/

/-- Whether a character is a digit of ASCII. -/
def isDigitChar (c : Char) : Bool := CharSet.asciiDigits.mem c

/-- Whether a character is a letter of ASCII. -/
def isLetter (c : Char) : Bool := CharSet.asciiLetters.mem c

/-- Whether a character is a capital of ASCII. -/
def isCapital (c : Char) : Bool := decide ('A' ≤ c ∧ c ≤ 'Z')

/-- Whether a text is not empty and all its characters are of a kind. -/
def consistsOf (kind : Char → Bool) (t : Text) : Bool := !t.isEmpty && t.all kind

/-- Whether a text says something: more than blanks, and not just a zero. -/
def saysSomething (t : Text) : Bool :=
  let trimmed := Text.trim t
  !trimmed.isEmpty && trimmed ≠ ['0']

/-- A label of the name of a host: letters, digits, and hyphens, of which none is at an end. -/
def hostLabel : Pattern :=
  let plain := Pattern.one .asciiAlphanumeric
  let inner := Pattern.one (.union .asciiAlphanumeric (.single '-'))
  .cat plain (.maybe (.cat (.times inner 0 (some 61)) plain))

/-- The pattern of an address for mail: a name, an at sign, and two labels or more with points
between them. -/
def emailPattern : Pattern :=
  let nameChar := Pattern.one
    (.union .asciiAlphanumeric (.ofText ".!#$%&\x27*+/=?^_`\x7b|\x7d~-"))
  .whole (.ofList [.more nameChar, .char '@', hostLabel, .more (.cat (.char '.') hostLabel)])

/-- The pattern of an address of a page: a scheme, a colon with two slashes, and a host with
anything behind it but blanks. -/
def urlPattern : Pattern :=
  let schemeChar := Pattern.one (.union .asciiAlphanumeric (.ofText "+.-"))
  let hostChar := Pattern.one (.inter (.compl .blanks) (.compl (.ofText "/?#")))
  .whole (.ofList [.one .asciiLetters, .many schemeChar, .char ':', .char '/', .char '/',
    .more hostChar, .many (.one (.compl .blanks))])

/-- The pattern of so many decimal digits, of any script. -/
def digitsPattern (n : Nat) : Pattern := .times (.one (.ranges Pattern.digits)) n (some n)

/-- The pattern of a time of day: two digits each for hours and minutes. -/
def timePattern : Pattern := .whole (.ofList [digitsPattern 2, .char ':', digitsPattern 2])

/-- The number of hours or minutes that two digits stand for; digits beyond ASCII stand for more
than there are. -/
def clockNumber (digits : Text) : Nat := (Number.readNat? digits).getD 99

/-- Whether a text is a time of day. -/
def isTimeOfDay (t : Text) : Bool :=
  timePattern.fits t &&
    decide (clockNumber (t.take 2) ≤ 23 ∧ clockNumber (t.drop 3) ≤ 59)

/-- The pattern of a date with four digits for the year and two each for month and day. -/
def sqlDatePattern : Pattern :=
  .whole (.ofList [digitsPattern 4, .char '-', digitsPattern 2, .char '-', digitsPattern 2])

/-- Whether a text is a date in a format. -/
def isDateIn (format t : Text) : Bool :=
  match DateFormat.ofText? format with
  | some format => format.accepts t
  | none => false

/-- Whether a text keeps a rule. The length of a text is the number of its bytes. -/
def check (rule : Rule) (t : Text) : Except Fault Bool :=
  match rule with
  | notEmpty | required => .ok (saysSomething t)
  | isInt => .ok (consistsOf isDigitChar t)
  | containsInt => .ok (t.any isDigitChar)
  | isAlpha => .ok (consistsOf isLetter t)
  | containsAlpha => .ok (t.any isLetter)
  | isAlphanum => .ok (consistsOf CharSet.asciiAlphanumeric.mem t)
  | isAlphanumExtra =>
    .ok (consistsOf (CharSet.mem (.union .asciiAlphanumeric (.ofText "_.-"))) t)
  | isText =>
    .ok (consistsOf (fun c =>
      Text.isBlank c || CharSet.mem (.union .asciiAlphanumeric (.ofText "_.-,;?!")) c) t)
  | isUpper => .ok (consistsOf isCapital t)
  | containsUpper => .ok (t.any isCapital)
  | contains part => .ok (Text.contains part t)
  | notContains part => .ok (!Text.contains part t)
  | containsSpecialChar =>
    .ok (t.any fun c => !CharSet.asciiAlphanumeric.mem c && !Text.isBlank c)
  | minLength least => .ok (decide (least ≤ Utf8.size t))
  | maxLength most => .ok (decide (Utf8.size t ≤ most))
  | inRange least most => .ok (decide (least ≤ Utf8.size t ∧ Utf8.size t ≤ most))
  | isEmail => .ok (emailPattern.fits t)
  | isUrl => .ok (urlPattern.fits t)
  | matchesPattern pattern =>
    match Pattern.readDelimited? pattern with
    | some pattern => .ok (pattern.fits t)
    | none => .error (.invalidRule "matches_regexp: the pattern can not be read")
  | isTime => .ok (isTimeOfDay t)
  | isDate format => .ok (isDateIn format t)
  | isSqlDate => .ok (sqlDatePattern.fits t && isDateIn usualDateFormat t)
  | mustMatchPassword password => .ok (decide (t = Text.trim password))
  | notPastPassword password => .ok (decide (t ≠ password))

/-! ## Messages -/

/-- What is said of a field whose text breaks a rule. -/
def message (rule : Rule) (field : Text) : Text :=
  match rule with
  | notEmpty => field ++ " can not be empty"
  | required => field ++ " is required"
  | isInt => field ++ " must be a number"
  | containsInt => field ++ " must contain a number"
  | isAlpha => field ++ " must only contain alpha characters"
  | containsAlpha => field ++ " must contain alpha characters"
  | isAlphanum => field ++ " must only contain alpha-numeric characters"
  | isAlphanumExtra =>
    field ++ " must only contain alpha-numeric characters, underscore, period or dash"
  | isText => field ++ " must be English-language text characters"
  | isUpper => field ++ " must be uppercase"
  | containsUpper => field ++ " must contain an uppercase character"
  | contains part => field ++ " must contain " ++ part
  | notContains part => field ++ " must not contain " ++ part
  | containsSpecialChar => field ++ " must contain a special character"
  | minLength least => field ++ " must be a minimum of " ++ Text.ofNat least ++ " characters"
  | maxLength most => field ++ " must be a maximum of " ++ Text.ofNat most ++ " characters"
  | inRange least most =>
    field ++ " must be between " ++ Text.ofNat least ++ " and " ++ Text.ofNat most
      ++ " characters"
  | isEmail => field ++ " must be a valid email address"
  | isUrl => field ++ " must be a valid URL"
  | matchesPattern _ => field ++ " does not match the criteria"
  | isTime => field ++ " must be a valid time in format HH:MM"
  | isDate format => field ++ " must be a valid date in format " ++ format
  | isSqlDate => field ++ " must be a valid date in format yyyy-mm-dd"
  | mustMatchPassword _ => "both passwords must match"
  | notPastPassword _ => field ++ " must not be a previous password"

end Rule
end PageServer
