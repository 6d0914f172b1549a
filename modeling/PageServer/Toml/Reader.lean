/-
# Reading TOML

* `Toml.read?`: the table of a document
-/
import PageServer.Toml.Scalar

namespace PageServer.Toml

/-! ## Blanks -/

/-- A text without the spaces it starts with. -/
def skipSpaces (t : Text) : Text := t.dropWhile isSpace

/-- A text without the comment it starts with, which holds no control characters. -/
def skipComment : Text → Option Text
  | '#' :: rest =>
    let isInLine (c : Char) : Bool := c ≠ '\n' && c ≠ '\r'
    if (rest.takeWhile isInLine).all isPrintable then some (rest.dropWhile isInLine) else none
  | t => some t

/-- What follows the end of a line, before which a comment may stand. -/
def endLine? (t : Text) : Option Text :=
  match skipComment (skipSpaces t) with
  | some [] => some []
  | some ('\n' :: rest) => some rest
  | some ('\r' :: '\n' :: rest) => some rest
  | _ => none

/-- A text without the spaces, ends of lines, and comments it starts with, at most as many of
them as the number says. -/
def skipLines : Nat → Text → Option Text
  | 0, t => some t
  | more + 1, t =>
    match skipSpaces t with
    | '#' :: rest => (skipComment ('#' :: rest)).bind (skipLines more)
    | '\n' :: rest => skipLines more rest
    | '\r' :: '\n' :: rest => skipLines more rest
    | rest => some rest

/-- A text without all blanks and comments it starts with. -/
def skip (t : Text) : Option Text := skipLines (t.length + 1) t

/-! ## Keys -/

/-- Whether a character may stand in a key without quotes. -/
def isKeyChar (c : Char) : Bool := c.isAlphanum || c = '_' || c = '-'

/-- A single key. -/
def readKeyPart? (t : Text) : Option (Text × Text) :=
  match t with
  | '\x22' :: rest => readQuoted 0 rest
  | '\x27' :: rest => readLiteral rest
  | _ =>
    match t.takeWhile isKeyChar with
    | [] => none
    | key => some (key, t.dropWhile isKeyChar)

/-- The keys between dots, at most as many as the number says, and what follows. -/
def readKeys? : Nat → Text → Option (List Text × Text)
  | 0, _ => none
  | more + 1, t =>
    match readKeyPart? (skipSpaces t) with
    | none => none
    | some (key, rest) =>
      match skipSpaces rest with
      | '.' :: rest => (readKeys? more rest).map fun (keys, rest) => (key :: keys, rest)
      | rest => some ([key], rest)

/-- A key with dots as the path to a table and the key in it, and what follows. -/
def readKey? (t : Text) : Option (List Text × Text × Text) :=
  match readKeys? (t.length + 1) t with
  | some (keys, rest) => keys.getLast?.map fun key => (keys.dropLast, key, rest)
  | none => none

/-! ## Values -/

mutual

/-- Reads a value, at most as deep as the number says. -/
def readValue? : Nat → Text → Option (Toml × Text)
  | 0, _ => none
  | more + 1, t =>
    match t with
    | '\x22' :: _ | '\x27' :: _ => (readText? t).map fun (text, rest) => (.str text, rest)
    | '[' :: rest => (readItems? more rest).map fun (items, rest) => (.list items, rest)
    | '\x7b' :: rest =>
      match skipSpaces rest with
      | '\x7d' :: rest => some (.table .braces [], rest)
      | _ =>
        (readPairs? more {} rest).map fun (draft, rest) => (.table .braces draft.entries, rest)
    | _ =>
      let (word, rest) := splitWord t
      (ofWord? word).map fun value => (value, rest)

/-- Reads the values between brackets behind the opening one. -/
def readItems? : Nat → Text → Option (List Toml × Text)
  | 0, _ => none
  | more + 1, t =>
    match skip t with
    | none => none
    | some (']' :: rest) => some ([], rest)
    | some t =>
      match readValue? more t with
      | none => none
      | some (value, rest) =>
        match skip rest with
        | some (',' :: rest) =>
          (readItems? more rest).map fun (items, rest) => (value :: items, rest)
        | some (']' :: rest) => some ([value], rest)
        | _ => none

/-- Reads the pairs between braces behind the opening one or a comma. -/
def readPairs? : Nat → Draft → Text → Option (Draft × Text)
  | 0, _, _ => none
  | more + 1, draft, t =>
    match readKey? t with
    | some (path, key, '=' :: rest) =>
      match readValue? more (skipSpaces rest) with
      | none => none
      | some (value, rest) =>
        match draft.define path key value with
        | none => none
        | some draft =>
          match skipSpaces rest with
          | ',' :: rest => readPairs? more draft rest
          | '\x7d' :: rest => some (draft, rest)
          | _ => none
    | _ => none

end

/-! ## Documents -/

/-- Reads the lines of a document, at most as many as the number says; `header` leads to the
table that was started last. -/
def readLines? : Nat → Draft → List Text → Text → Option Draft
  | 0, _, _, _ => none
  | more + 1, draft, header, t =>
    match skipSpaces t with
    | [] => some draft
    | '\n' :: rest | '\r' :: '\n' :: rest => readLines? more draft header rest
    | '#' :: rest =>
      match endLine? ('#' :: rest) with
      | some rest => readLines? more draft header rest
      | none => none
    | '[' :: '[' :: rest =>
      match readKey? rest with
      | some (path, key, ']' :: ']' :: rest) =>
        match draft.openRow path key, endLine? rest with
        | some draft, some rest => readLines? more draft (path ++ [key]) rest
        | _, _ => none
      | _ => none
    | '[' :: rest =>
      match readKey? rest with
      | some (path, key, ']' :: rest) =>
        match draft.openTable path key, endLine? rest with
        | some draft, some rest => readLines? more draft (path ++ [key]) rest
        | _, _ => none
      | _ => none
    | t =>
      match readKey? t with
      | some (path, key, '=' :: rest) =>
        match readValue? (t.length + 1) (skipSpaces rest) with
        | none => none
        | some (value, rest) =>
          match draft.defineUnder header path key value, endLine? rest with
          | some draft, some rest => readLines? more draft header rest
          | _, _ => none
      | _ => none

/-- The table of a document; a mark of the byte order at its start does not count. -/
def read? (t : Text) : Option (Table Toml) :=
  let t := (Text.after? ['\uFEFF'] t).getD t
  (readLines? (t.length + 1) {} [] t).map Draft.entries

end PageServer.Toml
