/-
# Variables that may not be overwritten

While variables may not be overwritten, setting one never replaces a value that
is there, neither at the end of a path nor on the way. Adding a row extends the
loop at the end of its path, or begins one where nothing is; but a value that is
no loop gives way to a new loop, whether it may be overwritten or not.

* `FieldGains`, `RowsGain`: rows stay, and may gain loops and rows inside
* `Variables.Call`, `Variables.run`: calls in order
* `Variables.Displaces`: a row for a loop in whose place there is another value
* `Variables.Protects`: values of a name that are no maps stay, and loops only gain rows
* `Variables.protects_run`: they do, unless a row displaces a value of the name
* `Variables.scalar_displaced`: which happens
-/
import PageServer.Proofs.Template.Mentions
import PageServer.Proofs.Template.RowForest

namespace PageServer

/-! ## Rows that gain loops -/

mutual
/-- What a name has in a row: the same, or a loop in place of nothing or with more rows. -/
inductive FieldGains : Option Value → Option Value → Prop
  | same (value : Option Value) : FieldGains value value
  | begun (rows : List Fields) : FieldGains none (some (.rows rows))
  | grown {rows rows' : List Fields} (h : RowsGain rows rows') :
      FieldGains (some (.rows rows)) (some (.rows rows'))

/-- The rows of a loop: each one has what it had, but for loops that have begun or grown, and
others may have come behind them. -/
inductive RowsGain : List Fields → List Fields → Prop
  | more (rows : List Fields) : RowsGain [] rows
  | row {row row' : Fields} {rows rows' : List Fields}
      (h : ∀ name, FieldGains (Table.get? name row) (Table.get? name row'))
      (hrest : RowsGain rows rows') : RowsGain (row :: rows) (row' :: rows')
end

theorem RowsGain.refl (rows : List Fields) : RowsGain rows rows := by
  induction rows with
  | nil => exact more []
  | cons row rows ih => exact RowsGain.row (fun name => FieldGains.same _) ih

mutual
theorem FieldGains.trans {a b c : Option Value} : FieldGains a b → FieldGains b c → FieldGains a c
  | .same _, h' => h'
  | .begun _, .same _ => .begun _
  | .begun _, .grown _ => .begun _
  | .grown h, .same _ => .grown h
  | .grown h, .grown h' => .grown (h.trans h')

theorem RowsGain.trans {a b c : List Fields} : RowsGain a b → RowsGain b c → RowsGain a c
  | .more _, _ => .more _
  | .row h hrest, .row h' hrest' =>
      .row (fun name => (h name).trans (h' name)) (hrest.trans hrest')
end

/-- A row behind the others. -/
theorem rowsGain_append (rows more : List Fields) : RowsGain rows (rows ++ more) := by
  induction rows with
  | nil => exact RowsGain.more more
  | cons row rows ih => exact RowsGain.row (fun name => FieldGains.same _) ih

/-- Only the last row gains something. -/
theorem rowsGain_last (rows : List Fields) {last last' : Fields}
    (h : ∀ name, FieldGains (Table.get? name last) (Table.get? name last')) :
    RowsGain (rows ++ [last]) (rows ++ [last']) := by
  induction rows with
  | nil => exact RowsGain.row h (RowsGain.more [])
  | cons row rows ih => exact RowsGain.row (fun name => FieldGains.same _) ih

/-- A path that goes on behind a map goes on in the map. -/
theorem Fields.at?_of_map {name : Text} {path : List Text} {fields inner : Fields}
    (h : Table.get? name fields = some (.map inner)) (hpath : path ≠ []) :
    at? (name :: path) fields = at? path inner := by
  rw [at?, h]
  exact hpath

/-- A path that leads somewhere has something at its first name. -/
theorem Fields.get?_of_at? {name : Text} {path : List Text} {fields : Fields} {value : Value}
    (h : at? (name :: path) fields = some value) :
    ∃ first, Table.get? name fields = some first := by
  cases hfirst : Table.get? name fields with
  | none => cases path <;> simp [at?, hfirst] at h
  | some first => exact ⟨first, rfl⟩

namespace Variables

variable {vars : Variables} {name path : Text} {names : List Text}
  {row fields fields' last : Fields} {front : List Fields}

/-! ## Setting -/

/-- What is set behind a map is set in the map. -/
theorem assign_of_map {value : Value} {overwrite : Bool} {path : List Text} {inner : Fields}
    (h : Table.get? name fields = some (.map inner)) (hpath : path ≠ []) :
    assign overwrite value (name :: path) fields =
      Table.insert name (.map (assign overwrite value path inner)) fields := by
  rw [assign, h]
  · rfl
  · exact hpath

/-- Nothing is set in place of another value, nor behind one that is no map. -/
theorem assign_of_there {value there : Value} {path : List Text}
    (h : Table.get? name fields = some there)
    (hthere : path ≠ [] → ∀ inner, there ≠ .map inner) :
    assign false value (name :: path) fields = fields := by
  cases path with
  | nil =>
      rw [assign, h]
      rfl
  | cons next path =>
      have hpath : next :: path ≠ [] := List.cons_ne_nil next path
      rw [assign, h]
      · cases there with
        | map inner => exact absurd rfl (hthere hpath inner)
        | null | bool | int | float | str | rows => rfl
      · exact hpath

/-- A value that is no map stays where it is when another one is set and nothing may be
overwritten. -/
theorem at?_assign {value kept : Value} (hkept : ∀ inner, kept ≠ .map inner)
    {path place : List Text} {fields : Fields} (h : Fields.at? place fields = some kept) :
    Fields.at? place (assign false value path fields) = some kept := by
  induction path generalizing place fields with
  | nil => exact h
  | cons name path ih =>
      obtain ⟨first, place, rfl⟩ : ∃ first rest, place = first :: rest := by
        cases place with
        | nil => contradiction
        | cons first rest => exact ⟨first, rest, rfl⟩
      by_cases hfirst : name = first
      · subst hfirst
        obtain ⟨there, hthere⟩ := Fields.get?_of_at? h
        by_cases hinner : path ≠ [] ∧ ∃ inner, there = .map inner
        · obtain ⟨hpath, inner, rfl⟩ := hinner
          have hplace : place ≠ [] := by
            rintro rfl
            exact hkept inner (Option.some.inj (h.symm.trans hthere))
          rw [assign_of_map hthere hpath, Fields.at?_of_map (Table.get?_insert_self _ _ _) hplace]
          rw [Fields.at?_of_map hthere hplace] at h
          exact ih h
        · rw [assign_of_there hthere fun hpath inner heq => hinner ⟨hpath, inner, heq⟩]
          exact h
      · have hother : (name :: path).head? ≠ some first :=
          fun heq => hfirst (Option.some.inj heq)
        rw [Fields.at?_congr (get?_assign hother fields)]
        exact h

/-! ## Adding rows -/

/-- What has the last name of a path of loops, in the last row of the loop before it. -/
def atEnd? : List Text → Fields → Option Value
  | [], _ => none
  | [name], fields => Table.get? name fields
  | name :: path, fields => (rowsOf (Table.get? name fields)).getLast?.bind (atEnd? path)

/-- Where a row may go without displacing something: a loop, or where nothing is. -/
def IsRoom : Option Value → Prop
  | none | some (.rows _) => True
  | some _ => False

theorem eq_none_or_rows {value : Option Value} (h : IsRoom value) :
    value = none ∨ ∃ rows, value = some (.rows rows) := by
  cases value with
  | none => exact Or.inl rfl
  | some there =>
      cases there with
      | rows rows => exact Or.inr ⟨rows, rfl⟩
      | null | bool | int | float | str | map => contradiction

/-- Elsewhere there are no rows. -/
theorem rowsOf_of_not_isRoom {value : Option Value} (h : ¬ IsRoom value) : rowsOf value = [] := by
  cases value with
  | none => exact absurd trivial h
  | some there =>
      cases there with
      | rows rows => exact absurd trivial h
      | null | bool | int | float | str | map => rfl

/-- Something with a last row is a loop that ends with it. -/
theorem of_getLast?_rowsOf {value : Option Value} {last : Fields}
    (h : (rowsOf value).getLast? = some last) :
    ∃ front, value = some (.rows (front ++ [last])) := by
  obtain ⟨front, hfront⟩ := List.getLast?_eq_some_iff.mp h
  cases value with
  | none => simp [rowsOf] at hfront
  | some there =>
      cases there with
      | rows rows =>
          refine ⟨front, ?_⟩
          rw [← hfront]
          rfl
      | null | bool | int | float | str | map => simp [rowsOf] at hfront

/-- A row is added to the loop of a name that is not empty. -/
theorem appendRow?_singleton_eq_some_iff :
    appendRow? row [name] fields = some fields' ↔
      name ≠ [] ∧
        fields' = Table.insert name (.rows (rowsOf (Table.get? name fields) ++ [row])) fields := by
  rw [appendRow?, Option.ite_none_left_eq_some, List.isEmpty_iff, Option.some.injEq,
    eq_comm (b := fields')]

/-- Along a longer path it is added in the last row of the first loop. -/
theorem appendRow?_cons_eq_some_iff (hpath : names ≠ []) :
    appendRow? row (name :: names) fields = some fields' ↔
      ∃ front last last', Table.get? name fields = some (.rows (front ++ [last])) ∧
        appendRow? row names last = some last' ∧
        fields' = Table.insert name (.rows (front ++ [last'])) fields := by
  rw [appendRow?]
  · constructor
    · intro h
      split at h
      · contradiction
      · rename_i last hlast
        obtain ⟨last', hlast', rfl⟩ := Option.map_eq_some_iff.mp h
        obtain ⟨front, hfront⟩ := of_getLast?_rowsOf hlast
        refine ⟨front, last, last', hfront, hlast', ?_⟩
        rw [hfront, rowsOf, List.dropLast_concat]
    · rintro ⟨front, last, last', hfront, hlast', rfl⟩
      simp only [hfront, rowsOf, List.getLast?_concat, List.dropLast_concat, hlast',
        Option.map_some]
  · exact hpath

/-- The end of a longer path is that of the rest of it in the last row of the first loop. -/
theorem atEnd?_cons (hnames : names ≠ [])
    (h : Table.get? name fields = some (.rows (front ++ [last]))) :
    atEnd? (name :: names) fields = atEnd? names last := by
  rw [atEnd?, h, rowsOf, List.getLast?_concat, Option.bind_some]
  exact hnames

/-- If the end of the path has a loop or nothing, adding a row there lets fields gain it, and
nothing else. -/
theorem gains_of_appendRow? {path : List Text} (hadd : appendRow? row path fields = some fields')
    (hroom : IsRoom (atEnd? path fields)) (name : Text) :
    FieldGains (Table.get? name fields) (Table.get? name fields') := by
  induction path generalizing fields fields' name with
  | nil => contradiction
  | cons first path ih =>
      by_cases hname : first = name
      · subst hname
        by_cases hpath : path = []
        · subst hpath
          obtain ⟨-, rfl⟩ := appendRow?_singleton_eq_some_iff.mp hadd
          rw [Table.get?_insert_self]
          rw [atEnd?] at hroom
          rcases eq_none_or_rows hroom with hnone | ⟨rows, hrows⟩
          · rw [hnone]
            exact FieldGains.begun [row]
          · rw [hrows]
            exact FieldGains.grown (rowsGain_append rows [row])
        · obtain ⟨front, last, last', hfront, hlast', rfl⟩ :=
            (appendRow?_cons_eq_some_iff hpath).mp hadd
          rw [atEnd?_cons hpath hfront] at hroom
          rw [Table.get?_insert_self, hfront]
          exact FieldGains.grown (rowsGain_last front (ih hlast' hroom))
      · have hother : (first :: path).head? ≠ some name :=
          fun heq => hname (Option.some.inj heq)
        rw [get?_appendRow hother hadd]
        exact FieldGains.same _

/-- A row that is added stands in a new loop if there was no loop. -/
theorem atEnd?_of_appendRow? {path : List Text} (hadd : appendRow? row path fields = some fields')
    (hroom : ¬ IsRoom (atEnd? path fields)) : atEnd? path fields' = some (.rows [row]) := by
  induction path generalizing fields fields' with
  | nil => contradiction
  | cons name path ih =>
      by_cases hpath : path = []
      · subst hpath
        obtain ⟨-, rfl⟩ := appendRow?_singleton_eq_some_iff.mp hadd
        rw [atEnd?] at hroom
        rw [atEnd?, Table.get?_insert_self, rowsOf_of_not_isRoom hroom]
        rfl
      · obtain ⟨front, last, last', hfront, hlast', rfl⟩ :=
          (appendRow?_cons_eq_some_iff hpath).mp hadd
        rw [atEnd?_cons hpath hfront] at hroom
        rw [atEnd?_cons hpath (Table.get?_insert_self _ _ _)]
        exact ih hlast' hroom

/-! ## Calls -/

/-- A call that sets variables or adds a row. -/
inductive Call where
  /-- Sets a variable, or those of a map. -/
  | set (name : Text) (value : Value)
  /-- Sets several variables in order. -/
  | setMany (pairs : List (Text × Value))
  /-- Adds a row to a loop. -/
  | addRow (path : Text) (row : Fields)

/-- The variables after a call. A row whose path leads to no loop is not added. -/
def call (vars : Variables) : Call → Variables
  | .set name value => vars.set name value
  | .setMany pairs => vars.setMany pairs
  | .addRow path row => (vars.addRow? path row).getD vars

/-- The variables after calls in order. -/
def run (vars : Variables) (calls : List Call) : Variables := calls.foldl call vars

/-- A row can be added to the loop of a path, and a value that is no loop has the name of the
loop. -/
def Displaces (vars : Variables) (path : Text) (row : Fields) : Prop :=
  (vars.addRow? path row).isSome ∧ ¬ IsRoom (atEnd? (Text.splitOn '.' path) vars.fields)

/-- No row of the calls displaces a value of a name or within it. -/
def Spares (name : Text) : Variables → List Call → Prop
  | _, [] => True
  | vars, first :: calls =>
    (∀ path row, first = .addRow path row → Text.firstPart '.' path = name →
      ¬ vars.Displaces path row) ∧ Spares name (vars.call first) calls

/-- The values with a name and those within it are still there: those that are neither maps nor
loops are the same, and loops have their rows, which may have gained loops, and perhaps more. -/
structure Protects (name : Text) (before after : Variables) : Prop where
  same : ∀ path value, value.isContainer = false →
    Fields.at? (name :: path) before.fields = some value →
      Fields.at? (name :: path) after.fields = some value
  grown : ∀ path rows, Fields.at? (name :: path) before.fields = some (.rows rows) →
    ∃ rows', Fields.at? (name :: path) after.fields = some (.rows rows') ∧ RowsGain rows rows'

theorem Protects.refl (name : Text) (vars : Variables) : Protects name vars vars :=
  ⟨fun _ _ _ h => h, fun _ rows h => ⟨rows, h, RowsGain.refl rows⟩⟩

theorem Protects.trans {vars' vars'' : Variables} (h : Protects name vars vars')
    (h' : Protects name vars' vars'') : Protects name vars vars'' := by
  constructor
  · intro path value hvalue hbefore
    exact h'.same path value hvalue (h.same path value hvalue hbefore)
  · intro path rows hbefore
    obtain ⟨rows', hbetween, hgain⟩ := h.grown path rows hbefore
    obtain ⟨rows'', hafter, hgain'⟩ := h'.grown path rows' hbetween
    exact ⟨rows'', hafter, hgain.trans hgain'⟩

/-- If the values that are no maps stay, they are protected. -/
theorem protects_of_at? {vars' : Variables}
    (h : ∀ path value, (∀ inner, value ≠ .map inner) →
      Fields.at? (name :: path) vars.fields = some value →
        Fields.at? (name :: path) vars'.fields = some value) : Protects name vars vars' := by
  constructor
  · intro path value hvalue hbefore
    refine h path value ?_ hbefore
    rintro inner rfl
    contradiction
  · intro path rows hbefore
    exact ⟨rows, h path _ nofun hbefore, RowsGain.refl rows⟩

/-- Steps that protect values protect them one after another. -/
theorem protects_foldl {α : Type} {step : Variables → α → Variables}
    (h : ∀ vars x, vars.overwrite = false →
      (step vars x).overwrite = false ∧ Protects name vars (step vars x))
    (list : List α) (hflag : vars.overwrite = false) :
    (list.foldl step vars).overwrite = false ∧ Protects name vars (list.foldl step vars) := by
  induction list generalizing vars with
  | nil => exact ⟨hflag, Protects.refl name vars⟩
  | cons x list ih =>
      obtain ⟨hstep, hfirst⟩ := h vars x hflag
      obtain ⟨hlast, hrest⟩ := ih hstep
      exact ⟨hlast, hfirst.trans hrest⟩

/-- Setting a variable protects all that are there. -/
theorem protects_set (name : Text) (hflag : vars.overwrite = false) (other : Text)
    (value : Value) :
    (vars.set other value).overwrite = false ∧ Protects name vars (vars.set other value) := by
  apply protects_foldl _ _ hflag
  intro vars leaf hflag
  refine ⟨hflag, protects_of_at? ?_⟩
  intro path kept hkept h
  rw [setOne, hflag]
  exact at?_assign hkept h

theorem protects_setMany (name : Text) (hflag : vars.overwrite = false)
    (pairs : List (Text × Value)) :
    (vars.setMany pairs).overwrite = false ∧ Protects name vars (vars.setMany pairs) :=
  protects_foldl (fun _ pair hflag => protects_set name hflag pair.1 pair.2) pairs hflag

/-- Fields that only gain loops protect what was there. -/
theorem protects_of_gains {vars' : Variables}
    (h : FieldGains (Table.get? name vars.fields) (Table.get? name vars'.fields)) :
    Protects name vars vars' := by
  generalize hbefore : Table.get? name vars.fields = before at h
  generalize hafter : Table.get? name vars'.fields = after at h
  cases h with
  | same value =>
      apply protects_of_at?
      intro path kept _ hkept
      rw [Fields.at?_congr (hafter.trans hbefore.symm)]
      exact hkept
  | begun rows =>
      apply protects_of_at?
      intro path kept _ hkept
      obtain ⟨first, hfirst⟩ := Fields.get?_of_at? hkept
      rw [hbefore] at hfirst
      contradiction
  | grown hgain =>
      constructor
      · intro path value hvalue h
        cases path with
        | nil =>
            obtain rfl := Option.some.inj (hbefore.symm.trans h)
            contradiction
        | cons next path => simp [Fields.at?, hbefore] at h
      · intro path rows h
        cases path with
        | nil =>
            cases Option.some.inj (hbefore.symm.trans h)
            exact ⟨_, hafter, hgain⟩
        | cons next path => simp [Fields.at?, hbefore] at h

/-- A row that is added protects all names but that of a value that it displaces. -/
theorem protects_addRow {vars' : Variables} (hadd : vars.addRow? path row = some vars')
    (h : Text.firstPart '.' path = name → ¬ vars.Displaces path row) :
    Protects name vars vars' := by
  apply protects_of_gains
  by_cases hname : Text.firstPart '.' path = name
  · have hroom : IsRoom (atEnd? (Text.splitOn '.' path) vars.fields) := by
      by_contra hroom
      exact h hname ⟨Option.isSome_iff_exists.mpr ⟨vars', hadd⟩, hroom⟩
    obtain ⟨fields, hfields, rfl⟩ := Option.map_eq_some_iff.mp hadd
    exact gains_of_appendRow? hfields hroom name
  · rw [get?_addRow hname hadd]
    exact FieldGains.same _

/-- One call that displaces nothing of a name. -/
theorem protects_call (name : Text) (hflag : vars.overwrite = false) (first : Call)
    (h : ∀ path row, first = .addRow path row → Text.firstPart '.' path = name →
      ¬ vars.Displaces path row) :
    (vars.call first).overwrite = false ∧ Protects name vars (vars.call first) := by
  cases first with
  | set other value => exact protects_set name hflag other value
  | setMany pairs => exact protects_setMany name hflag pairs
  | addRow path row =>
      cases hadd : vars.addRow? path row with
      | none =>
          rw [call, hadd]
          exact ⟨hflag, Protects.refl name vars⟩
      | some vars' =>
          rw [call, hadd]
          refine ⟨?_, protects_addRow hadd (h path row rfl)⟩
          obtain ⟨fields, -, rfl⟩ := Option.map_eq_some_iff.mp hadd
          exact hflag

/-- **Values that may not be overwritten are protected, unless a row is added in place of one.**
If no row of the calls displaces a value of a name or within it, these values are still there after
the calls. One that is displaced is gone, whether it may be overwritten or not: the end of the path
has a new loop with this row alone. -/
theorem protects_run (hflag : vars.overwrite = false) (calls : List Call) :
    (∀ name, Spares name vars calls → Protects name vars (vars.run calls)) ∧
      ∀ (other : Variables) (path : Text) (row : Fields), other.Displaces path row →
        atEnd? (Text.splitOn '.' path) (other.call (.addRow path row)).fields =
          some (.rows [row]) := by
  constructor
  · intro name hspares
    induction calls generalizing vars with
    | nil => exact Protects.refl name vars
    | cons first calls ih =>
        obtain ⟨hfirst, hcalls⟩ := hspares
        obtain ⟨hflag', hprotects⟩ := protects_call name hflag first hfirst
        exact hprotects.trans (ih hflag' hcalls)
  · rintro other path row ⟨hadds, hroom⟩
    obtain ⟨other', hadd⟩ := Option.isSome_iff_exists.mp hadds
    rw [call, hadd]
    obtain ⟨fields, hfields, rfl⟩ := Option.map_eq_some_iff.mp hadd
    exact atEnd?_of_appendRow? hfields hroom

/-- A variable and a loop that may not be overwritten. -/
def guarded : Variables where
  fields := [("AB", .int 1), ("list", .rows [[("AB", .int 2)]])]
  overwrite := false

/-- Neither setting nor adding rows elsewhere changes them; the rows of the loop gain a loop. -/
theorem protects_run_sample :
    guarded.overwrite = false ∧
      (let calls : List Call := [.set "AB:CD" (.int 3), .addRow "list.more" [("AB", .int 4)],
        .setMany [("AB", .null), ("list", .null)], .addRow "list" []]
      Spares "AB" guarded calls ∧ (guarded.run calls).get? "AB" = some (.int 1)) := by
  refine ⟨rfl, ?_⟩
  intro calls
  have hspares : Spares "AB" guarded calls := by
    refine ⟨nofun, ?_, nofun, ?_, trivial⟩
    · rintro path row heq hname
      cases heq
      exact absurd hname (by decide)
    · rintro path row heq hname
      cases heq
      exact absurd hname (by decide)
  have hflag : guarded.overwrite = false := rfl
  obtain ⟨hprotects, -⟩ := protects_run hflag calls
  exact ⟨hspares, (hprotects "AB" hspares).same [] (.int 1) rfl rfl⟩

/-- A loop with the name of a variable that may not be overwritten takes its place. -/
theorem scalar_displaced :
    guarded.overwrite = false ∧ guarded.get? "AB" = some (.int 1) ∧
      (guarded.run [.addRow "AB" [("CD", .int 2)]]).get? "AB" =
        some (.rows [[("CD", .int 2)]]) ∧
      ¬ Protects "AB" guarded (guarded.run [.addRow "AB" [("CD", .int 2)]]) := by
  refine ⟨rfl, rfl, rfl, ?_⟩
  intro h
  have hsame := h.same [] (.int 1) rfl rfl
  have hrows : Fields.at? ["AB"] (guarded.run [.addRow "AB" [("CD", .int 2)]]).fields =
      some (.rows [[("CD", .int 2)]]) := rfl
  cases hrows.symm.trans hsame

end Variables
end PageServer
