/-
# Quoted text

A text as messages show it: between double quotes, with escapes for what would
not show by itself.
-/
import PageServer.Text.Printable

namespace PageServer.Text

/-- A character as it stands between double quotes. -/
def quotedChar (c : Char) : Text :=
  if c = '\x00' then ['\\', '0']
  else if c = '\t' then ['\\', 't']
  else if c = '\r' then ['\\', 'r']
  else if c = '\n' then ['\\', 'n']
  else if c = '\\' ∨ c = '\x22' then ['\\', c]
  else if graphemeExtend.holds c || unprintable.holds c then
    ['\\', 'u', '\x7b'] ++ Nat.toDigits 16 c.toNat ++ ['\x7d']
  else [c]

/-- A text between double quotes. -/
def quoted (t : Text) : Text :=
  '\x22' :: t.flatMap quotedChar ++ ['\x22']

/-- Texts between brackets, separated by commas. -/
def quotedList (ts : List Text) : Text :=
  '[' :: join ", " (ts.map quoted) ++ [']']

end PageServer.Text
