/-
# JSON

Trees of JSON and their compact text. Numbers are kept as they are written, so
that the reader of a tree decides what they mean. A text read from escapes that
are no characters is `none`.

* `Json.write`: the compact text of a tree
-/
import PageServer.Text.Basic

namespace PageServer

/-- A JSON tree. Members of an object stand in the order in which they are written. -/
inductive Json where
  /-- Nothing. -/
  | null
  /-- A truth value. -/
  | bool (b : Bool)
  /-- A number as it is written. -/
  | number (written : Text)
  /-- A text, if its escapes are characters. -/
  | string (t : Option Text)
  /-- Items in order. -/
  | array (items : List Json)
  /-- Members with their names. -/
  | object (members : List (Option Text × Json))
  deriving Inhabited, Repr

namespace Json

/-- A string that is a text. -/
def text (t : Text) : Json := string (some t)

/-- An object whose names are texts. -/
def fields (members : List (Text × Json)) : Json :=
  object (members.map fun member => (some member.1, member.2))

/-! ## Writing -/

/-- A hexadecimal digit. -/
def hexDigit (n : Nat) : Char := Nat.digitChar n

/-- A character inside a string: quotes, backslashes and controls are escaped. -/
def writeChar (c : Char) : Text :=
  if c = '\x22' ∨ c = '\\' then ['\\', c]
  else if c = '\x08' then ['\\', 'b']
  else if c = '\x0c' then ['\\', 'f']
  else if c = '\n' then ['\\', 'n']
  else if c = '\r' then ['\\', 'r']
  else if c = '\t' then ['\\', 't']
  else if c.toNat < 32 then ['\\', 'u', '0', '0', hexDigit (c.toNat / 16), hexDigit (c.toNat % 16)]
  else [c]

/-- A string with its quotes. -/
def writeText (t : Text) : Text := '\x22' :: t.flatMap writeChar ++ ['\x22']

mutual
/-- The compact text of a tree. -/
def write : Json → Text
  | null => "null"
  | bool true => "true"
  | bool false => "false"
  | number written => written
  | string t => writeText (t.getD [])
  | array items => '[' :: writeItems items ++ [']']
  | object members => '\x7b' :: writeMembers members ++ ['\x7d']

/-- The items of an array with commas between them. -/
def writeItems : List Json → Text
  | [] => []
  | [item] => write item
  | item :: rest => write item ++ ',' :: writeItems rest

/-- The members of an object with commas between them. -/
def writeMembers : List (Option Text × Json) → Text
  | [] => []
  | [(name, value)] => writeText (name.getD []) ++ ':' :: write value
  | (name, value) :: rest =>
    writeText (name.getD []) ++ ':' :: write value ++ ',' :: writeMembers rest
end

end Json
end PageServer
