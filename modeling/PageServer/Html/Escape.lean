/-
# Escaped text

Text inside a page has its five special characters written as entities.

* `Html.escape`: writes the entities
* `Html.unescape`: reads them back in one pass from the left
-/
import PageServer.Text.Basic

namespace PageServer.Html

/-- The characters that are written as entities, with the entities. -/
def entities : List (Char × Text) :=
  [('&', "&amp;"), ('<', "&lt;"), ('>', "&gt;"), ('\x22', "&quot;"), ('\x27', "&#039;")]

/-- A character as it is written in a page. -/
def escapeChar (c : Char) : Text :=
  (entities.lookup c).getD [c]

/-- A text as it is written in a page. -/
def escape (t : Text) : Text := t.flatMap escapeChar

/-- The character and the length of the entity that a text starts with. -/
def entityAt? (t : Text) : Option (Char × Nat) :=
  (entities.find? fun entry => Text.startsWith entry.2 t).map fun entry =>
    (entry.1, entry.2.length)

/-- Reads entities from the left after leaving out the rest of the last one. -/
def unescapeFrom : Nat → Text → Text
  | _, [] => []
  | skip + 1, _ :: rest => unescapeFrom skip rest
  | 0, c :: rest =>
    match entityAt? (c :: rest) with
    | some (plain, size) => plain :: unescapeFrom (size - 1) rest
    | none => c :: unescapeFrom 0 rest

/-- The text that an escaped text stands for. -/
def unescape (t : Text) : Text := unescapeFrom 0 t

end PageServer.Html
