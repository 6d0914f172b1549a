/-
# Recent contents

Contents by name with the time of their file, of which a fixed number is kept:
those put in or asked for most recently.

* `Recent.ofCapacity`: with room for a number of contents
* `Recent.find`: the content of a name if its time is the given one
* `Recent.put`, `Recent.forget`: keep a content, drop one
-/
import PageServer.Abort
import PageServer.Text.Utf8

namespace PageServer

/-- A content that is kept. -/
structure Kept where
  /-- The name of its file. -/
  name : Text
  /-- The content. -/
  content : Bytes
  /-- The time of its file when it was read. -/
  time : Int
  deriving DecidableEq, Repr

/-- The contents that are kept, the most recent first, and how many there may be. -/
structure Recent where
  /-- The greatest number of contents. -/
  capacity : Nat
  /-- The contents, the most recent first. -/
  kept : List Kept := []
  deriving Inhabited, Repr

namespace Recent

/-- Keeps nothing yet, and never more than `capacity` contents. -/
def ofCapacity (capacity : Nat) : Except Abort Recent :=
  if capacity = 0 then .error .noCapacity else .ok { capacity }

/-- The contents without the one of a name. -/
def without (name : Text) (kept : List Kept) : List Kept :=
  kept.filter fun k => decide (k.name ≠ name)

/-- Keeps a content as the most recent one, in place of an earlier one of its name; the least
recent one goes if there are too many. -/
def put (r : Recent) (name : Text) (content : Bytes) (time : Int) : Recent :=
  { r with kept := (⟨name, content, time⟩ :: without name r.kept).take r.capacity }

/-- The content of a name if it was kept with the given time. Asking for a content that is kept
makes it the most recent one, whatever its time. -/
def find (r : Recent) (name : Text) (time : Int) : Option Bytes × Recent :=
  match r.kept.find? fun k => decide (k.name = name) with
  | none => (none, r)
  | some k =>
    (if k.time = time then some k.content else none,
      { r with kept := k :: without name r.kept })

/-- Drops the content of a name. -/
def forget (r : Recent) (name : Text) : Recent :=
  { r with kept := without name r.kept }

end Recent
end PageServer
