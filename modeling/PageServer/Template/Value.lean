/-
# Values

What a template variable can hold, how it is written into a page, and how two
values compare in a condition.

* `Value.text`: what is written into a page
* `Value.looseEq`: equality of conditions, by number if both sides have one
* `Value.compare`: order of conditions, refused for maps and loops
* `Fields.at?`: the value at the end of a path through maps
-/
import PageServer.Number.Decimal
import PageServer.Text.Blank
import PageServer.Text.Table

namespace PageServer

/-- A value of a template variable. -/
inductive Value where
  /-- Nothing. -/
  | null
  /-- A truth value. -/
  | bool (b : Bool)
  /-- An integer. -/
  | int (n : Int)
  /-- A floating-point number. -/
  | float (x : Binary64)
  /-- A text. -/
  | str (t : Text)
  /-- A map: values by name. -/
  | map (fields : List (Text × Value))
  /-- A loop: rows of values by name. -/
  | rows (rows : List (List (Text × Value)))
  deriving Inhabited, Repr

/-- Values by name. -/
abbrev Fields := Table Value

namespace Fields

/-- The value at the end of a path through maps; the empty path leads nowhere. -/
def at? : List Text → Fields → Option Value
  | [], _ => none
  | [name], fields => Table.get? name fields
  | name :: path, fields =>
    match Table.get? name fields with
    | some (.map inner) => at? path inner
    | _ => none

end Fields

namespace Value

/-! ## Views of a value -/

/-- Whether a condition holds for the value: anything but null, false, zero, the empty text, the
text `0` and what is empty. -/
def truthy : Value → Bool
  | null => false
  | bool b => b
  | int n => n ≠ 0
  | float x => !x.isZero
  | str t => !t.isEmpty && decide (t ≠ "0".toList)
  | map fields => !fields.isEmpty
  | rows list => !list.isEmpty

/-- The value as a number: of an integer or float, and of a text that is a number between
blanks. -/
def number? : Value → Option Binary64
  | int n => some (.ofInt n)
  | float x => some x
  | str t => Decimal.read? (Text.trim t)
  | _ => none

/-- What is written into a page: nothing for null, false, maps and loops, and `1` for true. -/
def text : Value → Text
  | null | bool false | map _ | rows _ => []
  | bool true => "1"
  | int n => Text.ofInt n
  | float x => Decimal.plain x
  | str t => t

/-- The name of the kind of a value. -/
def kindName : Value → Text
  | null => "null"
  | bool _ => "bool"
  | int _ => "int"
  | float _ => "float"
  | str _ => "string"
  | map _ => "map"
  | rows _ => "loop"

/-- Whether a value is a map or a loop. -/
def isContainer : Value → Bool
  | map _ | rows _ => true
  | _ => false

/-! ## Equality -/

mutual
/-- Equality of kind and content; floats are equal by value. -/
def same : Value → Value → Bool
  | null, null => true
  | bool a, bool b => a == b
  | int a, int b => a == b
  | float a, float b => a.same b
  | str a, str b => decide (a = b)
  | map a, map b => sameFields a b
  | rows a, rows b => sameRows a b
  | _, _ => false

/-- Equality of fields: the same names with equal values. -/
def sameFields : List (Text × Value) → List (Text × Value) → Bool
  | [], [] => true
  | (name, value) :: rest, (name', value') :: rest' =>
    decide (name = name') && same value value' && sameFields rest rest'
  | _, _ => false

/-- Equality of loops row by row. -/
def sameRows : List (List (Text × Value)) → List (List (Text × Value)) → Bool
  | [], [] => true
  | row :: rest, row' :: rest' => sameFields row row' && sameRows rest rest'
  | _, _ => false
end

/-- Whether null equals a value: one that is not truthy, except the text `0`. -/
def equalsNull (v : Value) : Bool :=
  !v.truthy && (match v with | str t => decide (t ≠ "0".toList) | _ => true)

/-- Equality of conditions: by truth if one side is a boolean, by content for maps and loops, by
number if both sides have one, and otherwise by text. -/
def looseEq (a b : Value) : Bool :=
  match a, b with
  | bool _, _ | _, bool _ => a.truthy == b.truthy
  | null, null => true
  | null, v | v, null => v.equalsNull
  | _, _ =>
    if a.isContainer || b.isContainer then same a b
    else
      match a.number?, b.number? with
      | some x, some y => x.same y
      | _, _ => decide (a.text = b.text)

/-! ## Order -/

/-- The order of texts by code points. -/
def compareText (a b : Text) : Ordering :=
  if a = b then .eq else if Text.before a b then .lt else .gt

/-- The number a value has in comparisons, where null is zero. -/
def measure? : Value → Option Binary64
  | null => some (.ofInt 0)
  | v => v.number?

/-- Order of conditions: by truth if one side is a boolean, by number if both sides have one
(NaN being equal to all), and otherwise by text. Maps and loops have no order. -/
def compare (a b : Value) : Except Text Ordering :=
  if a.isContainer || b.isContainer then
    .error ("cannot compare " ++ a.kindName ++ " with " ++ b.kindName)
  else
    match a, b with
    | bool _, _ | _, bool _ => .ok (Ord.compare a.truthy.toNat b.truthy.toNat)
    | _, _ =>
      match a.measure?, b.measure? with
      | some x, some y => .ok ((x.compare? y).getD .eq)
      | _, _ => .ok (compareText a.text b.text)

end Value
end PageServer
