/-
# Text

A text is the list of its characters, so that every operation on it is an
ordinary list recursion. This module cuts texts at separators, joins the
pieces again, and searches for and replaces parts.

* `Text.splitOn` / `Text.join`: all pieces between the occurrences of a separator
* `Text.cut`, `Text.cutLast`, `Text.cutAt`: the two sides of one occurrence
* `Text.after?`: what follows a fixed start
* `Text.replaceAll`: leftmost non-overlapping replacement
-/

namespace PageServer

/-- A text is the list of its characters. -/
abbrev Text := List Char

instance : Coe String Text := ⟨String.toList⟩

instance : LawfulBEq Text := inferInstanceAs (LawfulBEq (List Char))

namespace Text

/-! ## Splitting and joining -/

/-- The pieces of a text between the occurrences of `sep`; there is always at least one. -/
def splitOn (sep : Char) : Text → List Text
  | [] => [[]]
  | c :: rest =>
    if c = sep then [] :: splitOn sep rest
    else
      match splitOn sep rest with
      | [] => [[c]]
      | piece :: pieces => (c :: piece) :: pieces

/-- Splitting always gives a first piece. -/
theorem splitOn_ne_nil (sep : Char) (t : Text) : splitOn sep t ≠ [] := by
  cases t with
  | nil => simp [splitOn]
  | cons c rest =>
    simp only [splitOn]
    split
    · simp
    · split <;> simp

/-- The pieces in order with `sep` between neighbours. -/
def join (sep : Text) (pieces : List Text) : Text :=
  List.intercalate sep pieces

/-! ## Cutting at one place -/

/-- The sides of the first `sep`, or nothing if there is none. -/
def cut (sep : Char) : Text → Option (Text × Text)
  | [] => none
  | c :: rest =>
    if c = sep then some ([], rest)
    else (cut sep rest).map fun sides => (c :: sides.1, sides.2)

/-- The sides of the last `sep`, or nothing if there is none. -/
def cutLast (sep : Char) : Text → Option (Text × Text)
  | [] => none
  | c :: rest =>
    match cutLast sep rest with
    | some sides => some (c :: sides.1, sides.2)
    | none => if c = sep then some ([], rest) else none

/-- What follows `start` in a text that begins with it. -/
def after? : Text → Text → Option Text
  | [], t => some t
  | _ :: _, [] => none
  | s :: start, c :: t => if s = c then after? start t else none

/-- A text begins with `start` exactly if something follows it there. -/
theorem after?_eq_some_iff {start t rest : Text} :
    after? start t = some rest ↔ t = start ++ rest := by
  induction start generalizing t with
  | nil => simp [after?, eq_comm]
  | cons s start ih =>
    cases t with
    | nil => simp [after?]
    | cons c t =>
      by_cases h : s = c
      · simp [after?, h, ih]
      · simp [after?, h, Ne.symm h]

/-- Whether a text begins with `start`. -/
def startsWith (start t : Text) : Bool :=
  (after? start t).isSome

/-- The sides of the first occurrence of the text `sep`, or nothing if there is none. -/
def cutAt (sep : Text) : Text → Option (Text × Text)
  | [] => (after? sep []).map fun rest => ([], rest)
  | c :: t =>
    match after? sep (c :: t) with
    | some rest => some ([], rest)
    | none => (cutAt sep t).map fun sides => (c :: sides.1, sides.2)

/-- Whether `part` occurs somewhere in a text. -/
def contains (part t : Text) : Bool :=
  (cutAt part t).isSome

/-! ## Dropping at the ends -/

/-- A text without the longest end whose characters all satisfy `p`. -/
def dropEndWhile (p : Char → Bool) : Text → Text
  | [] => []
  | c :: rest =>
    match dropEndWhile p rest with
    | [] => if p c then [] else [c]
    | kept => c :: kept

/-- A text without the characters satisfying `p` at either end. -/
def trimBy (p : Char → Bool) (t : Text) : Text :=
  dropEndWhile p (t.dropWhile p)

/-! ## Replacing -/

/-- Replaces from left to right, after skipping the first `skip` characters of a hit. -/
def replaceFrom (first : Char) (others new : Text) : Nat → Text → Text
  | _, [] => []
  | skip + 1, _ :: rest => replaceFrom first others new skip rest
  | 0, c :: rest =>
    if c = first ∧ startsWith others rest then
      new ++ replaceFrom first others new others.length rest
    else c :: replaceFrom first others new 0 rest

/-- A text in which each occurrence of `old`, found from the left, is replaced by `new`. -/
def replaceAll (old new t : Text) : Text :=
  match old with
  | [] => t
  | first :: others => replaceFrom first others new 0 t

/-! ## Order -/

/-- Whether the first text comes before the second by code points. -/
def before (a b : Text) : Bool := decide (a < b)

/-- The texts in order by code points, each once. -/
def insertSorted (t : Text) : List Text → List Text
  | [] => [t]
  | u :: rest =>
    if t = u then u :: rest
    else if before t u then t :: u :: rest
    else u :: insertSorted t rest

/-- The decimal digits of a natural number. -/
def ofNat (n : Nat) : Text := Nat.toDigits 10 n

/-- The decimal digits of an integer, with a sign if it is negative. -/
def ofInt : Int → Text
  | .ofNat n => ofNat n
  | .negSucc n => '-' :: ofNat (n + 1)

end Text
end PageServer
