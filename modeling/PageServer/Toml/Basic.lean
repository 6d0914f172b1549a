/-
# TOML documents

A document is a table of values by key, with tables inside tables. How a table
came about decides whether more may be put into it later.

* `Toml`: a value
* `Toml.Draft.define`: sets the value at a path of keys
* `Toml.Draft.openTable`, `Toml.Draft.openRow`: start a table with a header
-/
import PageServer.Text.Table

namespace PageServer

/-- How a table came about. -/
inductive TableOrigin where
  /-- It has a header of its own, or is the document itself. -/
  | header
  /-- It stands on the way to a table with a header. -/
  | path
  /-- It stands on the way to a value with a dotted key. -/
  | dotted
  /-- It is written between braces. -/
  | braces
  deriving DecidableEq, Repr

/-- A value of a document. Numbers that are not whole, and times, are kept as they are written. -/
inductive Toml where
  /-- A text. -/
  | str (t : Text)
  /-- A whole number. -/
  | int (n : Int)
  /-- A number with a fraction or an exponent, or one that is not finite. -/
  | float (written : Text)
  /-- A truth value. -/
  | bool (b : Bool)
  /-- A date, a time, or both. -/
  | moment (written : Text)
  /-- Values in order. -/
  | list (items : List Toml)
  /-- Values by key. -/
  | table (origin : TableOrigin) (entries : List (Text × Toml))
  /-- Tables in order, each with a header of its own. -/
  | tables (rows : List (List (Text × Toml)))
  deriving Inhabited, Repr

namespace Toml

/-- A table that is being filled. -/
structure Draft where
  /-- How the table came about. -/
  origin : TableOrigin := .header
  /-- What it holds. -/
  entries : Table Toml := []
  deriving Inhabited

namespace Draft

/-- The table with the value of a key set. -/
def put (draft : Draft) (key : Text) (value : Toml) : Draft :=
  { draft with entries := draft.entries.insert key value }

/-- Changes the table at a path below a table. Tables that are missing on the way are made with
the origin `made`. A way does not lead into a value or a table between braces, nor by a dotted
key into a table with a header; into tables in order it leads to the last one. -/
def changeAt (made : TableOrigin) (change : Draft → Option Draft) :
    List Text → Draft → Option Draft
  | [], draft => change draft
  | key :: path, draft =>
    let putTable (inner : Draft) : Draft := draft.put key (.table inner.origin inner.entries)
    match draft.entries.get? key with
    | none => (changeAt made change path { origin := made }).map putTable
    | some (.table origin entries) =>
      if origin = .braces ∨ (made = .dotted ∧ origin = .header) then none
      else (changeAt made change path { origin, entries }).map putTable
    | some (.tables rows) =>
      match rows.getLast? with
      | some entries =>
        (changeAt made change path { entries }).map fun inner =>
          draft.put key (.tables (rows.dropLast ++ [inner.entries]))
      | none => none
    | some _ => none

/-- Sets the value of a key that has none yet. A table that a dotted key leads to must have come
about by one. -/
def define (draft : Draft) (path : List Text) (key : Text) (value : Toml) : Option Draft :=
  draft.changeAt .dotted (fun table =>
    if table.entries.holds key ∨ (path ≠ [] ∧ table.origin ≠ .dotted) then none
    else some (table.put key value)) path

/-- Starts the table with a header, which it may have only once. -/
def openTable (draft : Draft) (path : List Text) (key : Text) : Option Draft :=
  draft.changeAt .path (fun table =>
    match table.entries.get? key with
    | none => some (table.put key (.table .header []))
    | some (.table .path entries) => some (table.put key (.table .header entries))
    | some _ => none) path

/-- Starts one more of the tables in order with a header. -/
def openRow (draft : Draft) (path : List Text) (key : Text) : Option Draft :=
  draft.changeAt .path (fun table =>
    match table.entries.get? key with
    | none => some (table.put key (.tables [[]]))
    | some (.tables rows) => some (table.put key (.tables (rows ++ [[]])))
    | some _ => none) path

/-- Sets a value in the table that was started last, whose header is given. -/
def defineUnder (draft : Draft) (header path : List Text) (key : Text) (value : Toml) :
    Option Draft :=
  draft.changeAt .path (fun table => table.define path key value) header

end Draft
end Toml
end PageServer
