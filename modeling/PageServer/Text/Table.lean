/-
# Tables

Things by name, in the order of the names.

* `Table.get?`: what has a name
* `Table.insert`: sets what has a name; every other name keeps what it has
* `Table.ofList`: a table of pairs, of which the last with a name counts
-/
import PageServer.Text.Basic

namespace PageServer

/-- Things by name, in the order of the names. -/
abbrev Table (α : Type) := List (Text × α)

namespace Table

variable {α : Type}

/-- What has a name. -/
def get? (name : Text) : Table α → Option α
  | [] => none
  | (other, thing) :: rest => if name = other then some thing else get? name rest

/-- Whether a name has anything. -/
def holds (name : Text) (table : Table α) : Bool := (get? name table).isSome

/-- The table with what has a name set, at the place of the name in the order. -/
def insert (name : Text) (thing : α) : Table α → Table α
  | [] => [(name, thing)]
  | (other, old) :: rest =>
    if name = other then (name, thing) :: rest
    else if Text.before name other then (name, thing) :: (other, old) :: rest
    else (other, old) :: insert name thing rest

/-- Setting a name sets what it has. -/
theorem get?_insert_self (name : Text) (thing : α) (table : Table α) :
    get? name (insert name thing table) = some thing := by
  induction table with
  | nil => simp [insert, get?]
  | cons entry rest ih =>
    obtain ⟨other, old⟩ := entry
    by_cases h : name = other
    · simp [insert, get?, h]
    · by_cases hb : Text.before name other <;> simp [insert, get?, h, hb, ih]

/-- Setting a name leaves what the others have. -/
theorem get?_insert_of_ne {name other : Text} (h : other ≠ name) (thing : α)
    (table : Table α) : get? other (insert name thing table) = get? other table := by
  induction table with
  | nil => simp [insert, get?, h]
  | cons entry rest ih =>
    obtain ⟨third, old⟩ := entry
    by_cases h1 : name = third
    · subst h1; simp [insert, get?, h]
    · by_cases hb : Text.before name third
      · simp [insert, get?, h1, hb, h]
      · by_cases h2 : other = third <;> simp [insert, get?, h1, hb, h2, ih]

/-- The table of some pairs, of which the last with a name counts. -/
def ofList (pairs : List (Text × α)) : Table α :=
  pairs.foldl (fun table pair => insert pair.1 pair.2 table) []

end Table
end PageServer
