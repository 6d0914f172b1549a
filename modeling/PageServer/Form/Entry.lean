/-
# Entries

A text with the rules that it has to keep. There is at most one rule of each
name; setting one again gives it other parameters at its old place.

* `Form.Entry.addRules`: sets rules
* `Form.Entry.check`: finds the rules that the text breaks
-/
import PageServer.Form.Rule

namespace PageServer.Form

/-- A text with its rules. -/
structure Entry where
  /-- The text. -/
  value : Text
  /-- The rules, in the order in which they were first set. -/
  rules : List Rule := []
  /-- The rules that the text broke when it was last checked. -/
  broken : List Rule := []
  deriving DecidableEq, Repr, Inhabited

namespace Entry

/-- Some rules with one more, which takes the place of one with its name. -/
def setRule (rule : Rule) : List Rule → List Rule
  | [] => [rule]
  | other :: rest =>
    if other.name = rule.name then rule :: rest else other :: setRule rule rest

/-- An entry with some more rules, set in order. -/
def addRules (entry : Entry) (rules : List Rule) : Entry :=
  { entry with rules := rules.foldl (fun known rule => setRule rule known) entry.rules }

/-- A text with some rules. -/
def ofRules (value : Text) (rules : List Rule) : Entry := addRules { value } rules

/-- What is asked of every password. -/
def passwordRules : List Rule :=
  [.containsInt, .containsUpper, .containsAlpha, .containsSpecialChar, .inRange 5 40]

/-- A password with some more rules. -/
def password (value : Text) (rules : List Rule) : Entry :=
  (ofRules value passwordRules).addRules rules

/-- An entry with one more rule, given by its name. -/
def addNamed (entry : Entry) (name : Text) (parameters : List Text) : Except Fault Entry := do
  let rule ← Rule.ofName name parameters
  return entry.addRules [rule]

/-- The rules that a text breaks, in order. -/
def brokenBy (value : Text) : List Rule → Except Fault (List Rule)
  | [] => .ok []
  | rule :: rest => do
    let kept ← rule.check value
    let broken ← brokenBy value rest
    return if kept then broken else rule :: broken

/-- An entry that knows which rules its text breaks. -/
def check (entry : Entry) : Except Fault Entry := do
  let broken ← brokenBy entry.value entry.rules
  return { entry with broken }

/-- Whether no rule was broken when the entry was last checked. -/
def isValid (entry : Entry) : Bool := entry.broken.isEmpty

/-- What is said of the broken rules. -/
def messages (entry : Entry) (field : Text) : List Text :=
  entry.broken.map fun rule => rule.message field

end Entry
end PageServer.Form
