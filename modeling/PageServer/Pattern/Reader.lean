/-
# Reading patterns

The written form of patterns: characters stand for themselves, and the usual
signs for sets, places, choices, groups, and repetitions.

* `Pattern.read?`: the pattern that is written in a text
* `Pattern.readDelimited?`: the same, with slashes around it left out
-/
import PageServer.Number.Integer
import PageServer.Pattern.Basic

namespace PageServer.Pattern

/-! ## Switches -/

/-- How what follows is read. -/
structure Switches where
  /-- Case does not matter. -/
  ignoreCase : Bool := false
  /-- The signs for the ends of the text stand for the ends of lines. -/
  byLine : Bool := false
  /-- The sign for any character includes the line feed. -/
  dotAll : Bool := false
  /-- Repetitions take as little as possible, which does not change what fits. -/
  lazy : Bool := false
  /-- A carriage return ends a line too. -/
  returns : Bool := false
  /-- Sets hold characters beyond ASCII. -/
  allScripts : Bool := true
  /-- Blanks and comments are left out. -/
  spaced : Bool := false
  deriving DecidableEq, Repr

/-- The switches with that of a letter set, if there is one. -/
def Switches.set? (switches : Switches) (letter : Char) (value : Bool) : Option Switches :=
  match letter with
  | 'i' => some { switches with ignoreCase := value }
  | 'm' => some { switches with byLine := value }
  | 's' => some { switches with dotAll := value }
  | 'U' => some { switches with lazy := value }
  | 'R' => some { switches with returns := value }
  | 'u' => some { switches with allScripts := value }
  | 'x' => some { switches with spaced := value }
  | _ => none

/-- Reads switches up to a colon or a closing parenthesis, and tells which of the two it was. Each
letter may stand once, behind at most one minus sign, which something must follow. -/
def readSwitches (switches : Switches) (seen : List Char) (value : Bool) :
    Text → Option (Switches × Char × Text)
  | [] => none
  | c :: rest =>
    if c = ':' ∨ c = ')' then
      if seen.head? = some '-' then none else some (switches, c, rest)
    else if c ∈ seen then none
    else if c = '-' then readSwitches switches (c :: seen) false rest
    else
      match switches.set? c value with
      | some switches => readSwitches switches (c :: seen) value rest
      | none => none

/-- What is left out before a sign in a spaced pattern. -/
def skipSpace (switches : Switches) : Bool → Text → Text
  | _, [] => []
  | inComment, c :: rest =>
    if !switches.spaced then c :: rest
    else if inComment then skipSpace switches (c ≠ '\n') rest
    else if Text.isBlank c then skipSpace switches false rest
    else if c = '#' then skipSpace switches true rest
    else c :: rest

/-! ## Signs behind a backslash -/

/-- What a sign means. -/
inductive Sign where
  /-- A character. -/
  | char (c : Char)
  /-- A set of characters. -/
  | set (set : CharSet)
  /-- A place. -/
  | look (look : Look)

/-- The digits. -/
def Switches.digits (switches : Switches) : CharSet :=
  if switches.allScripts then .ranges Pattern.digits else .asciiDigits

/-- The characters of words. -/
def Switches.word (switches : Switches) : CharSet :=
  if switches.allScripts then .ranges wordChars
  else .union .asciiAlphanumeric (.single '_')

/-- The blanks. -/
def Switches.blanks (switches : Switches) : CharSet :=
  if switches.allScripts then .blanks else .ofText "\t\n\x0b\x0c\r "

/-- A set without case if case does not matter. -/
def Switches.fold (switches : Switches) (set : CharSet) : CharSet :=
  if switches.ignoreCase then .folded set else set

/-- The other characters; they can not be named where sets hold ASCII only. -/
def Switches.others? (switches : Switches) (set : CharSet) : Option CharSet :=
  if switches.allScripts then some (.compl set) else none

/-- The character with a code point. -/
def charOf? (n : Nat) : Option Char :=
  if n.isValidChar then some (Char.ofNat n) else none

/-- The character given by so many hexadecimal digits, or by some in braces. -/
def readCode? (count : Nat) (t : Text) : Option (Char × Text) :=
  match t with
  | '{' :: rest =>
    match Number.readBase Number.hexDigit? 16 0 rest with
    | (n, found, '}' :: after) =>
      if found = 0 then none else (charOf? n).map fun c => (c, after)
    | _ => none
  | _ =>
    match Number.readBase Number.hexDigit? 16 0 (t.take count) with
    | (n, found, []) =>
      if found = count then (charOf? n).map fun c => (c, t.drop count) else none
    | _ => none

/-- The place that is named in braces behind the sign for the boundary of a word; `none` if there
is no name, and `some none` if there is none of this name. -/
def namedBoundary (word : CharSet) : Text → Option (Option (Look × Text))
  | '{' :: rest =>
    let isNameChar (c : Char) : Bool := CharSet.asciiLetters.mem c || c = '-'
    match rest.takeWhile isNameChar, rest.dropWhile isNameChar with
    | [], _ => none
    | name, '}' :: after =>
      let place : Option Look :=
        [("start", Look.wordStart word), ("end", .wordEnd word),
          ("start-half", .noWordBefore word), ("end-half", .noWordAfter word)].lookup
          (String.ofList name)
      some (place.map fun look => (look, after))
    | _, _ => some none
  | _ => none

/-- Whether a character of ASCII may stand for itself behind a backslash. -/
def isEscapable (c : Char) : Bool :=
  decide (c.toNat < 0x80) && !CharSet.asciiAlphanumeric.mem c && c ≠ '<' && c ≠ '>'

/-- The sign behind a backslash. -/
def readEscape? (switches : Switches) : Text → Option (Sign × Text)
  | [] => none
  | c :: rest =>
    let set (s : CharSet) : Option (Sign × Text) := some (.set (switches.fold s), rest)
    let others (s : CharSet) : Option (Sign × Text) :=
      (switches.others? s).map fun s => (.set (switches.fold s), rest)
    let char (code : Nat) : Option (Sign × Text) := some (.char (Char.ofNat code), rest)
    let look (l : Look) : Option (Sign × Text) := some (.look l, rest)
    let code (count : Nat) : Option (Sign × Text) :=
      (readCode? count rest).map fun (c, after) => (.char c, after)
    match c with
    | 'd' => set switches.digits
    | 's' => set switches.blanks
    | 'w' => set switches.word
    | 'D' => others switches.digits
    | 'S' => others switches.blanks
    | 'W' => others switches.word
    | 'x' => code 2
    | 'u' => code 4
    | 'U' => code 8
    | 'a' => char 7
    | 'f' => char 12
    | 't' => char 9
    | 'n' => char 10
    | 'r' => char 13
    | 'v' => char 11
    | 'A' => look .textStart
    | 'z' => look .textEnd
    | 'b' =>
      match namedBoundary switches.word rest with
      | none => look (.boundary switches.word)
      | some named => named.map fun (l, after) => (.look l, after)
    | 'B' => look (.noBoundary switches.word)
    | '<' => look (.wordStart switches.word)
    | '>' => look (.wordEnd switches.word)
    | c => if isEscapable c then some (.char c, rest) else none

/-! ## Sets in brackets -/

/-- The sets of ASCII with a name. -/
def namedSet? (name : Text) : Option CharSet :=
  ([
    ("alnum", CharSet.asciiAlphanumeric),
    ("alpha", .asciiLetters),
    ("ascii", .range '\x00' '\x7f'),
    ("blank", .ofText "\t "),
    ("cntrl", .union (.range '\x00' '\x1f') (.single '\x7f')),
    ("digit", .asciiDigits),
    ("graph", .range '!' '~'),
    ("lower", .range 'a' 'z'),
    ("print", .range ' ' '~'),
    ("punct", .inter (.range '!' '~') (.compl .asciiAlphanumeric)),
    ("space", .ofText "\t\n\x0b\x0c\r "),
    ("upper", .range 'A' 'Z'),
    ("word", .union .asciiAlphanumeric (.single '_')),
    ("xdigit", .union .asciiDigits (.union (.range 'A' 'F') (.range 'a' 'f')))
  ]).lookup (String.ofList name)

/-- The named set that starts behind an opening bracket. -/
def readNamedSet? : Text → Option (CharSet × Text)
  | ':' :: rest =>
    let (negated, rest) := match rest with
      | '^' :: rest => (true, rest)
      | _ => (false, rest)
    match Text.cut ':' rest with
    | some (name, ']' :: after) =>
      (namedSet? name).map fun set => (if negated then .compl set else set, after)
    | _ => none
  | _ => none

/-- What joins two parts of a set. -/
inductive Joint where
  /-- The characters of both. -/
  | both
  /-- The characters of the first that are not in the second. -/
  | less
  /-- The characters of just one of them. -/
  | either

/-- The set of two parts. -/
def Joint.apply (joint : Joint) (a b : CharSet) : CharSet :=
  match joint with
  | both => .inter a b
  | less => .inter a (.compl b)
  | either => .union (.inter a (.compl b)) (.inter b (.compl a))

/-- A part of a set that is not finished. -/
structure Part where
  /-- What stands before the last joint, with it. -/
  before : Option (CharSet × Joint) := none
  /-- What stands behind the last joint. -/
  current : CharSet := .none

/-- The set so far. -/
def Part.whole (part : Part) : CharSet :=
  match part.before with
  | some (set, joint) => joint.apply set part.current
  | none => part.current

/-- The part with some more characters. -/
def Part.add (part : Part) (set : CharSet) : Part :=
  { part with current := .union part.current set }

/-- The part with a joint behind it. -/
def Part.join (part : Part) (joint : Joint) : Part := { before := some (part.whole, joint) }

/-- A character or a set inside brackets. -/
def readItem? (switches : Switches) : Text → Option (Sign × Text)
  | [] => none
  | '\\' :: rest =>
    match readEscape? switches rest with
    | some (.look _, _) => none
    | found => found
  | c :: rest => some (.char c, rest)

/-- A character, a range, or a set inside brackets. -/
def readRange? (switches : Switches) (t : Text) : Option (CharSet × Text) :=
  let skip := skipSpace switches false
  match readItem? switches t with
  | none => none
  | some (first, rest) =>
    let alone : CharSet := match first with
      | .char c => switches.fold (.single c)
      | .set set => set
      | .look _ => .none
    match skip rest with
    | '-' :: after =>
      match skip after with
      | [] => none
      | ']' :: _ | '-' :: _ => some (alone, '-' :: after)
      | after =>
        match first, readItem? switches after with
        | .char a, some (.char b, rest) =>
          if a ≤ b then some (switches.fold (.range a b), rest) else none
        | _, _ => none
    | rest => some (alone, rest)

/-- What stands at the start of a set: whether it is negated, the minus signs and the closing
bracket that stand for themselves, and what follows. -/
def readSetStart (switches : Switches) (t : Text) : Bool × CharSet × Text :=
  let skip := skipSpace switches false
  let t := skip t
  let (negated, t) := match t with
    | '^' :: rest => (true, skip rest)
    | _ => (false, t)
  match t with
  | '-' :: _ => (negated, .single '-', t.dropWhile (· = '-'))
  | ']' :: rest => (negated, .single ']', rest)
  | _ => (negated, .none, t)

/-- Reads a set up to its closing bracket, at most as many signs of it as the number says. -/
def readSet? (switches : Switches) : Nat → Part → Text → Option (CharSet × Text)
  | 0, _, _ => none
  | more + 1, part, t =>
    match skipSpace switches false t with
    | [] => none
    | ']' :: rest => some (part.whole, rest)
    | '&' :: '&' :: rest => readSet? switches more (part.join .both) rest
    | '-' :: '-' :: rest => readSet? switches more (part.join .less) rest
    | '~' :: '~' :: rest => readSet? switches more (part.join .either) rest
    | '[' :: rest =>
      match readNamedSet? rest with
      | some (set, rest) => readSet? switches more (part.add (switches.fold set)) rest
      | none =>
        let (negated, start, rest) := readSetStart switches rest
        match readSet? switches more { current := start } rest with
        | some (set, rest) =>
          match if negated then switches.others? set else some set with
          | some set => readSet? switches more (part.add set) rest
          | none => none
        | none => none
    | t =>
      match readRange? switches t with
      | some (set, rest) => readSet? switches more (part.add set) rest
      | none => none

/-- The set behind an opening bracket. -/
def readBrackets? (switches : Switches) (t : Text) : Option (CharSet × Text) := do
  let (negated, start, rest) := readSetStart switches t
  let (set, rest) ← readSet? switches (rest.length + 1) { current := start } rest
  let set ← if negated then switches.others? set else some set
  return (set, rest)

/-! ## Repetitions -/

/-- The largest number of repetitions that can be asked for. -/
def maxCount : Nat := 0xFFFFFFFF

/-- A number among blanks, and what follows. -/
def readCount? (t : Text) : Option (Nat × Text) :=
  match Number.readBase Number.digit? 10 0 (t.dropWhile Text.isBlank) with
  | (n, found, rest) =>
    if found = 0 ∨ maxCount < n then none else some (n, rest.dropWhile Text.isBlank)

/-- The bounds of a repetition behind an opening brace. -/
def readBounds? (t : Text) : Option (Nat × Option Nat × Text) :=
  match readCount? t with
  | some (least, '}' :: rest) => some (least, some least, rest)
  | some (least, ',' :: '}' :: rest) => some (least, none, rest)
  | some (least, ',' :: rest) =>
    match readCount? rest with
    | some (most, '}' :: rest) => if least ≤ most then some (least, some most, rest) else none
    | _ => none
  | _ => none

/-! ## The whole pattern -/

/-- A part of a sequence: a pattern that may be repeated, or a change of the switches. -/
inductive Item where
  /-- A pattern. -/
  | part (pattern : Pattern)
  /-- A change of the switches. -/
  | switch

/-- The pattern of the parts of a sequence, the last one first. -/
def ofItems (items : List Item) : Pattern :=
  ofList (items.reverse.filterMap fun
    | .part pattern => some pattern
    | .switch => none)

/-- A group that is not finished: the switches outside it, the choices before its last one, and
the parts of that, each list from its end. -/
structure Level where
  /-- The switches to go back to behind the group. -/
  outer : Switches := {}
  /-- The choices that are finished. -/
  choices : List Pattern := []
  /-- The parts of the last choice. -/
  items : List Item := []

/-- The pattern of a group. -/
def Level.pattern (level : Level) : Pattern :=
  anyOf (ofItems level.items :: level.choices).reverse

/-- The level with one more part. -/
def Level.push (level : Level) (item : Item) : Level :=
  { level with items := item :: level.items }

/-- What has been read: the innermost group, the groups around it, the switches, and the names
of groups. -/
structure Draft where
  /-- The innermost group. -/
  level : Level := {}
  /-- The groups around it. -/
  around : List Level := []
  /-- How what follows is read. -/
  switches : Switches := {}
  /-- The names of the groups. -/
  names : List Text := []

namespace Draft

/-- A draft with one more part. -/
def push (draft : Draft) (pattern : Pattern) : Draft :=
  { draft with level := draft.level.push (.part pattern) }

/-- A draft inside a new group that is read in some way. -/
def enter (draft : Draft) (switches : Switches) : Draft :=
  { draft with
    level := { outer := draft.switches }, around := draft.level :: draft.around, switches }

/-- A draft behind its innermost group. -/
def leave? (draft : Draft) : Option Draft :=
  match draft.around with
  | [] => none
  | level :: around =>
    some { draft with
      level := level.push (.part draft.level.pattern), around, switches := draft.level.outer }

/-- A draft whose last part is repeated. -/
def repeat? (draft : Draft) (least : Nat) (most : Option Nat) : Option Draft :=
  match draft.level.items with
  | .part pattern :: items =>
    some { draft with level := { draft.level with items := .part (times pattern least most) :: items } }
  | _ => none

/-- A draft with one more choice in its innermost group. -/
def choose (draft : Draft) : Draft :=
  { draft with
    level := { draft.level with
      choices := ofItems draft.level.items :: draft.level.choices, items := [] } }

/-- A text without the sign for a repetition that takes as little as possible. -/
def skipLazy (draft : Draft) (t : Text) : Text :=
  match skipSpace draft.switches false t with
  | '?' :: rest => rest
  | _ => t

/-- Whether a character may stand in the name of a group. -/
def isNameChar (first : Bool) (c : Char) : Bool :=
  c = '_' || CharSet.mem (.inter (.ranges wordChars) (.compl (.ranges digits))) c
    || (!first && (c = '.' || c = '[' || c = ']' || CharSet.mem (.ranges digits) c))

/-- The draft behind the name of a group. -/
def name? (draft : Draft) (t : Text) : Option (Draft × Text) :=
  match Text.cut '>' t with
  | some (first :: others, rest) =>
    let name := first :: others
    if isNameChar true first && others.all (isNameChar false) && decide (name ∉ draft.names) then
      some ({ draft with names := name :: draft.names }.enter draft.switches, rest)
    else none
  | _ => none

/-- The draft behind the start of a group. -/
def open? (draft : Draft) (t : Text) : Option (Draft × Text) :=
  match skipSpace draft.switches false t with
  | '?' :: 'P' :: '<' :: rest => draft.name? rest
  | '?' :: '<' :: c :: rest => if c = '=' ∨ c = '!' then none else draft.name? (c :: rest)
  | '?' :: rest =>
    match readSwitches draft.switches [] true rest with
    | some (switches, ':', after) => some (draft.enter switches, after)
    | some (switches, _, after) =>
      if rest.head? = some ')' then none
      else some ({ draft with switches, level := draft.level.push .switch }, after)
    | none => none
  | rest => some (draft.enter draft.switches, rest)

/-- The pattern of a sign. -/
def ofSign (draft : Draft) : Sign → Pattern
  | .char c => one (draft.switches.fold (.single c))
  | .set set => one set
  | .look l => look l

/-- The set of any character. -/
def dot? (draft : Draft) : Option CharSet :=
  draft.switches.others? (if draft.switches.dotAll then .none
    else if draft.switches.returns then .ofText "\r\n" else .single '\n')

/-- Reads one sign. -/
def step (draft : Draft) (c : Char) (rest : Text) : Option (Draft × Text) :=
  let byLine := draft.switches.byLine
  let repeated (least : Nat) (most : Option Nat) (rest : Text) : Option (Draft × Text) :=
    (draft.repeat? least most).map fun next => (next, draft.skipLazy rest)
  match c with
  | '(' => draft.open? rest
  | ')' => draft.leave?.map fun next => (next, rest)
  | '|' => some (draft.choose, rest)
  | '[' => (readBrackets? draft.switches rest).map fun (set, rest) => (draft.push (one set), rest)
  | '?' => repeated 0 (some 1) rest
  | '*' => repeated 0 none rest
  | '+' => repeated 1 none rest
  | '{' => (readBounds? rest).bind fun (least, most, rest) => repeated least most rest
  | '\\' => (readEscape? draft.switches rest).map fun (sign, rest) =>
      (draft.push (draft.ofSign sign), rest)
  | '.' => draft.dot?.map fun set => (draft.push (one set), rest)
  | '^' => some (draft.push (look (if byLine then .lineStart else .textStart)), rest)
  | '$' => some (draft.push (look (if byLine then .lineEnd else .textEnd)), rest)
  | c => some (draft.push (draft.ofSign (.char c)), rest)

/-- Reads signs to the end, at most as many as the number says. -/
def run : Nat → Draft → Text → Option Draft
  | 0, _, _ => none
  | more + 1, draft, t =>
    match skipSpace draft.switches false t with
    | [] => some draft
    | c :: rest =>
      match draft.step c rest with
      | some (next, rest) => run more next rest
      | none => none

end Draft

/-- The largest size of a pattern. -/
def maxSize : Nat := 327680

/-- The pattern that is written in a text. -/
def read? (t : Text) : Option Pattern :=
  match Draft.run (t.length + 1) {} t with
  | some draft =>
    let pattern := draft.level.pattern
    if draft.around.isEmpty && decide (pattern.size ≤ maxSize) then some pattern else none
  | none => none

/-- A text without the slash it starts with and all from its last slash on, if there are both. -/
def dropDelimiters (t : Text) : Text :=
  match t with
  | '/' :: body =>
    match Text.cutLast '/' body with
    | some (inner, _) => inner
    | none => t
  | _ => t

/-- The pattern that is written in a text, which may stand between slashes. -/
def readDelimited? (t : Text) : Option Pattern := read? (dropDelimiters t)

end PageServer.Pattern
