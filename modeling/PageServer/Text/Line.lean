/-
# Lines

The lines of a text, and the line that is shown for a position in it.

* `Text.lines`: the lines without their ends (line feed, or carriage return and line feed)
* `Text.lineUpFrom?`: the way up from a blank line to one that is not
* `Text.lineAt`: the nearest line at or above a number that is not blank
-/
import PageServer.Text.Blank

namespace PageServer.Text

/-- A line without the carriage return before its line feed. -/
def dropReturn (line : Text) : Text :=
  match cutLast '\r' line with
  | some (start, []) => start
  | _ => line

/-- The lines of a text; a line feed at the very end starts no further line. -/
def lines (t : Text) : List Text :=
  let pieces := splitOn '\n' t
  let ended := pieces.dropLast.map dropReturn
  match pieces.getLast? with
  | some (c :: last) => ended ++ [c :: last]
  | _ => ended

/-- Whether a line holds only blanks. -/
def isBlankLine (line : Text) : Bool := (trim line).isEmpty

/-- The trimmed line at a place, counted from zero; for a blank line, the nearest one above it that
is not, or else the first one. There is none if a place that is looked at has no line. -/
def lineUpFrom? (all : List Text) : Nat → Option Text
  | 0 => all[0]?.map trim
  | place + 1 =>
    match all[place + 1]? with
    | none => none
    | some line => if isBlankLine line then lineUpFrom? all place else some (trim line)

/-- The line that is shown for a number, counted from one; one outside stands for the first or the
last line. Where there are no lines the empty text is shown. -/
def nearestLine? (all : List Text) (number : Nat) : Option Text :=
  if all.isEmpty then some [] else lineUpFrom? all (min (max number 1) all.length - 1)

/-- The line that is shown for a number; there always is one. -/
def nearestLine (all : List Text) (number : Nat) : Text := (nearestLine? all number).getD []

/-- The trimmed line `number` of a text, counted from one; for a blank line, the nearest line
above it that is not blank. Numbers outside the text stand for its first or last line. -/
def lineAt (t : Text) (number : Nat) : Text :=
  nearestLine (lines t) number

end PageServer.Text
