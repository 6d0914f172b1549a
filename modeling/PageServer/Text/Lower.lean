/-
# Lower case for ASCII words

Some names are compared with ASCII words whatever their case. Only three
characters beyond the small letters have a lower case with an ASCII letter in
it: the capitals of ASCII, the Kelvin sign, and the dotted capital I.

* `Text.lower`: lower case as far as an ASCII word can show it
* `Text.sameLetters`: equality up to the case of ASCII letters alone
-/
import PageServer.Text.Basic

namespace PageServer.Text

/-- The small letter of a capital of ASCII; every other character stays. -/
def lowerAscii (c : Char) : Char :=
  if 'A' ≤ c ∧ c ≤ 'Z' then Char.ofNat (c.toNat + 32) else c

/-- The lower case of a character, if it has an ASCII letter in it, and else the character. -/
def lowerOf (c : Char) : Text :=
  if c = '\u212A' then ['k']
  else if c = '\u0130' then ['i', '\u0307']
  else [lowerAscii c]

/-- A text in lower case as far as an ASCII word can show it. -/
def lower (t : Text) : Text := t.flatMap lowerOf

/-- Whether two texts differ at most in the case of ASCII letters. -/
def sameLetters (a b : Text) : Bool :=
  a.map lowerAscii == b.map lowerAscii

end PageServer.Text
