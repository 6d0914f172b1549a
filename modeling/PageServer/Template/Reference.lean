/-
# Names in templates

What a template names: variables of the page or of the current row of a loop,
and constants. A name has a spelling inside a tag and a spelling as a word of a
condition.

* `Reference.ofTag?`: reads the inside of a print tag
* `Reference.ofWord?`: reads a word of a condition
* `Reference.word`: the word that is spelt for a reference
-/
import PageServer.Text.Basic

namespace PageServer

/-! ## Places and names -/

/-- A place in a template. -/
structure Span where
  /-- The name of the template. -/
  file : Text
  /-- The number of the line, counted from one. -/
  line : Nat
  /-- The text that is shown for the place. -/
  snippet : Text
  deriving DecidableEq, Repr, Inhabited

/-- A variable of the page or of the current row of a loop. -/
structure VarRef where
  /-- The loop; without one the variable is one of the page. -/
  scope : Option Text
  /-- The names that lead to the variable through maps. -/
  path : List Text
  deriving DecidableEq, Repr, Inhabited

/-- What a template can name. -/
inductive Reference where
  /-- A variable. -/
  | var (v : VarRef)
  /-- A constant. -/
  | constant (name : Text)
  deriving DecidableEq, Repr

namespace Reference

/-! ## Letters -/

/-- Whether a character may stand in the name of a variable. -/
def isNameChar (c : Char) : Bool := c.isDigit || c.isUpper || c = '_'

/-- Whether a character may stand in the name of a loop. -/
def isLoopChar (c : Char) : Bool := c.isDigit || c.isLower || c = '_'

/-- Whether a text is a variable name: parts joined by colons, the first of at least two
characters and the others of at least one. -/
def isName (t : Text) : Bool :=
  match Text.splitOn ':' t with
  | first :: others =>
    decide (2 ≤ first.length) && first.all isNameChar
      && others.all fun part => !part.isEmpty && part.all isNameChar
  | [] => false

/-- Whether a text is a chain of loop names joined by dots. -/
def isLoopChain (t : Text) : Bool :=
  (Text.splitOn '.' t).all fun part => !part.isEmpty && part.all isLoopChar

/-! ## Reading and spelling -/

/-- The variable with a name and a scope; a name of digits only is none. -/
def named? (scope : Option Text) (name : Text) : Option VarRef :=
  if isName name && !name.all Char.isDigit then some ⟨scope, Text.splitOn ':' name⟩ else none

/-- The variable that a word spells: its loop before the last dot, if there is one, and its
name. -/
def variableOfWord? (word : Text) : Option VarRef :=
  match Text.cutLast '.' word with
  | none => named? none word
  | some (chain, name) => if isLoopChain chain then named? (some chain) name else none

/-- What the inside of a print tag names. -/
def ofTag? (body : Text) : Option Reference :=
  match Text.after? "C:" body with
  | some name => if isName name then some (constant name) else none
  | none => (variableOfWord? body).map var

/-- What a word of a condition names. A constant may have any nonempty name of name characters
and colons here. -/
def ofWord? (word : Text) : Option Reference :=
  match Text.after? "C:" word with
  | some name =>
    if !name.isEmpty && name.all fun c => isNameChar c || c = ':' then some (constant name)
    else none
  | none => (variableOfWord? word).map var

/-- The word that spells a reference. -/
def word : Reference → Text
  | constant name => "C:" ++ name
  | var ⟨none, path⟩ => Text.join ":" path
  | var ⟨some scope, path⟩ => scope ++ '.' :: Text.join ":" path

end Reference
end PageServer
