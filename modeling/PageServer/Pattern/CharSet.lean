/-
# Sets of characters

The sets that a pattern can name: ranges, what is made of them by set
operations, and sets that do not look at case.

* `CharSet.mem`: whether a character is in a set
-/
import PageServer.Pattern.Classes
import PageServer.Text.Blank
import PageServer.Text.Upper

namespace PageServer

/-- A set of characters. -/
inductive CharSet where
  /-- The characters of some ranges. -/
  | ranges (ranges : Text.Ranges)
  /-- The blank characters. -/
  | blanks
  /-- The characters of either set. -/
  | union (a b : CharSet)
  /-- The characters of both sets. -/
  | inter (a b : CharSet)
  /-- The characters that are not in a set. -/
  | compl (a : CharSet)
  /-- The characters that differ from one of a set at most in case. -/
  | folded (a : CharSet)
  deriving Inhabited, Repr

namespace CharSet

/-! ## Case -/

/-- Capitals that are not the upper case of their own lower case, with the upper case of it. -/
def oddCapitals : List (Char × Char) :=
  [('\u2126', '\u03A9'), ('\u212A', 'K'), ('\u212B', '\u00C5'), ('\u03F4', '\u0398')]

/-- The capital that stands for all characters which differ from a character only in case. -/
def capital (c : Char) : Char :=
  match oddCapitals.lookup c with
  | some d => d
  | none =>
    match Text.upperOf c with
    | [d] => d
    | _ => c

/-- The letters with a constant distance to their upper case whose upper case is `d`. -/
def smallOf (d : Char) : List Char :=
  let ascii := if 'A' ≤ d ∧ d ≤ 'Z' then [Char.ofNat (d.toNat + 32)] else []
  ascii ++ Text.upperRuns.filterMap fun (first, last, step, distance) =>
    let n := ((d.toNat : Int) - distance).toNat
    if first ≤ n ∧ n ≤ last ∧ (n - first) % step = 0 then some (Char.ofNat n) else none

/-- The characters that differ from a character at most in case. -/
def variants (c : Char) : List Char :=
  let d := capital c
  let odd := (oddCapitals.filter fun entry => entry.2 = d).map Prod.fst
  c :: d :: (smallOf d ++ odd)

/-! ## Members -/

/-- Whether a character is in a set. -/
def mem : CharSet → Char → Bool
  | ranges r, c => r.holds c
  | blanks, c => Text.isBlank c
  | union a b, c => mem a c || mem b c
  | inter a b, c => mem a c && mem b c
  | compl a, c => !mem a c
  | folded a, c => (variants c).any fun d => mem a d

/-- The set without characters. -/
def none : CharSet := ranges []

/-- The set of a single character. -/
def single (c : Char) : CharSet := ranges [(c.toNat, c.toNat)]

/-- The characters from one to another. -/
def range (first last : Char) : CharSet := ranges [(first.toNat, last.toNat)]

/-- The characters of some text. -/
def ofText (t : Text) : CharSet := ranges (t.map fun c => (c.toNat, c.toNat))

/-- The digits of ASCII. -/
def asciiDigits : CharSet := range '0' '9'

/-- The letters of ASCII. -/
def asciiLetters : CharSet := ranges [('A'.toNat, 'Z'.toNat), ('a'.toNat, 'z'.toNat)]

/-- The letters and digits of ASCII. -/
def asciiAlphanumeric : CharSet := union asciiDigits asciiLetters

end CharSet
end PageServer
