/-
# Patterns

A pattern describes parts of a text. All places of a text are looked at
together: from the places where a part may start one gets the places where it
may end.

* `Pattern.after`: the places where a part may end
* `Pattern.fits`: whether some part of a text fits a pattern
-/
import PageServer.Pattern.CharSet

namespace PageServer

/-- What a pattern may ask of a place by the characters beside it. -/
inductive Look where
  /-- The text starts here. -/
  | textStart
  /-- The text ends here. -/
  | textEnd
  /-- A line starts here. -/
  | lineStart
  /-- A line ends here. -/
  | lineEnd
  /-- A word starts or ends here; its characters are given. -/
  | boundary (word : CharSet)
  /-- No word starts or ends here. -/
  | noBoundary (word : CharSet)
  /-- A word starts here. -/
  | wordStart (word : CharSet)
  /-- A word ends here. -/
  | wordEnd (word : CharSet)
  /-- There is no character of a word before. -/
  | noWordBefore (word : CharSet)
  /-- There is no character of a word after. -/
  | noWordAfter (word : CharSet)
  deriving Repr

/-- Whether a place has what is asked, between the characters beside it. -/
def Look.holds (look : Look) (before next : Option Char) : Bool :=
  let isWord (word : CharSet) (c : Option Char) : Bool := c.any word.mem
  match look with
  | textStart => before.isNone
  | textEnd => next.isNone
  | lineStart => before.isNone || before = some '\n'
  | lineEnd => next.isNone || next = some '\n'
  | boundary word => isWord word before != isWord word next
  | noBoundary word => isWord word before == isWord word next
  | wordStart word => !isWord word before && isWord word next
  | wordEnd word => isWord word before && !isWord word next
  | noWordBefore word => !isWord word before
  | noWordAfter word => !isWord word next

/-- A description of parts of a text. -/
inductive Pattern where
  /-- The empty part. -/
  | empty
  /-- One character of a set. -/
  | one (set : CharSet)
  /-- The empty part at a place. -/
  | look (look : Look)
  /-- One part behind another. -/
  | cat (first second : Pattern)
  /-- A part of either kind. -/
  | alt (first second : Pattern)
  /-- Parts behind each other, at least and at most so many. -/
  | times (part : Pattern) (least : Nat) (most : Option Nat)
  deriving Inhabited, Repr

namespace Pattern

/-! ## Places -/

/-- For each place of a text, from its start to its end, whether it is meant. -/
abbrev Places := List Bool

/-- The places of either kind. -/
def Places.union (a b : Places) : Places := List.zipWith (· || ·) a b

/-- The places behind a character of a set at given places. -/
def Places.shift (set : CharSet) (text : Text) (places : Places) : Places :=
  false :: List.zipWith (fun c marked => marked && set.mem c) text places

/-- The given places that have what is asked. -/
def Places.keep (look : Look) (text : Text) (places : Places) : Places :=
  let sides := List.zipWith look.holds (none :: text.map some) (text.map some ++ [none])
  List.zipWith (· && ·) places sides

/-- A step taken so many times; it stops early when it changes nothing. -/
def Places.iterate (step : Places → Places) : Nat → Places → Places
  | 0, places => places
  | n + 1, places =>
    let next := step places
    if next = places then places else iterate step n next

/-- The places after at most so many steps. -/
def Places.grow (step : Places → Places) : Nat → Places → Places
  | 0, places => places
  | n + 1, places =>
    let next := places.union (step places)
    if next = places then places else grow step n next

/-! ## Matching -/

/-- The places where a part may end that starts at one of the given places. A part that may be
repeated without end is taken once more than there are characters, which reaches all places. -/
def after (text : Text) : Pattern → Places → Places
  | empty, places => places
  | one set, places => places.shift set text
  | look l, places => places.keep l text
  | cat first second, places => after text second (after text first places)
  | alt first second, places => (after text first places).union (after text second places)
  | times part least most, places =>
    let start := Places.iterate (after text part) least places
    match most with
    | none => start.grow (after text part) (text.length + 1)
    | some n => start.grow (after text part) (n - least)

/-- Whether some part of a text fits a pattern. -/
def fits (pattern : Pattern) (text : Text) : Bool :=
  (after text pattern (true :: text.map fun _ => true)).any id

/-! ## Making patterns -/

/-- Parts behind each other. -/
def ofList : List Pattern → Pattern
  | [] => empty
  | [part] => part
  | part :: rest => cat part (ofList rest)

/-- A part of one of some kinds. -/
def anyOf : List Pattern → Pattern
  | [] => one .none
  | [part] => part
  | part :: rest => alt part (anyOf rest)

/-- A pattern for the whole of a text. -/
def whole (part : Pattern) : Pattern := ofList [look .textStart, part, look .textEnd]

/-- One part or more. -/
def more (part : Pattern) : Pattern := times part 1 none

/-- No part or more. -/
def many (part : Pattern) : Pattern := times part 0 none

/-- A part that may be missing. -/
def maybe (part : Pattern) : Pattern := times part 0 (some 1)

/-- A character. -/
def char (c : Char) : Pattern := one (.single c)

/-- The number of characters that a pattern spells out, repetitions counted as often as they are
asked for. -/
def size : Pattern → Nat
  | empty | one _ | look _ => 1
  | cat first second | alt first second => size first + size second
  | times part least most => size part * max 1 (max least (most.getD 0))

end Pattern
end PageServer
