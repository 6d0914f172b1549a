/-
# Where a row goes

A row is added at the end of a chain of loops, each in the last row of the one
before it. What is inside a value has a place, which is reached through fields
and rows. Adding a row changes the loop at the end of the chain, which has the
row behind all others, and nothing that lies apart from it.

* `Value.at?`: what is at a place of a value
* `Variables.endPlace`: the place that a path of loops leads to
* `Variables.isSome_appendRow?_iff`: the paths along which a row is added
* `Variables.at?_endPlace_of_appendRow?`: the loop that has the row
* `Variables.at?_of_appendRow?`: what lies apart from it
* `Template.addRow_frame`: all of it
-/
import PageServer.Proofs.Template.Overwriting
import PageServer.Views.Template

namespace PageServer

/-! ## Places -/

namespace Value

/-- A step from a value to one inside it. -/
inductive Step where
  /-- To what has a name in a map. -/
  | field (name : Text)
  /-- To a row of a loop, counted from zero. -/
  | row (number : Nat)
  deriving DecidableEq

/-- What a step leads to; a row is the map of its fields. -/
def step? : Value → Step → Option Value
  | map fields, .field name => Table.get? name fields
  | rows list, .row number => list[number]?.map map
  | _, _ => none

/-- What is at a place, which is reached step by step. -/
def at? (value : Value) (place : List Step) : Option Value := place.foldlM step? value

theorem at?_cons (value : Value) (step : Step) (place : List Step) :
    value.at? (step :: place) = (value.step? step).bind fun inner => inner.at? place :=
  List.foldlM_cons

/-- Behind a field there is what is behind its value. -/
theorem at?_field {name : Text} {fields : Fields} {value : Value}
    (h : Table.get? name fields = some value) (place : List Step) :
    (map fields).at? (.field name :: place) = value.at? place := by
  rw [at?_cons, step?, h]
  rfl

/-- A place in the last row of a loop. -/
theorem at?_last {name : Text} {fields last : Fields} {front : List Fields}
    (h : Table.get? name fields = some (rows (front ++ [last]))) (place : List Step) :
    (map fields).at? (.field name :: .row front.length :: place) = (map last).at? place := by
  rw [at?_field h, at?_cons, step?, List.getElem?_concat_length]
  rfl

end Value

namespace Variables

variable {name : Text} {path start : List Text} {row fields fields' last : Fields}
  {front : List Fields}

/-- The place that a path of loops leads to: behind each of its names but the last it goes on in the
last row of the loop. -/
def endPlace : List Text → Fields → List Value.Step
  | [], _ => []
  | [name], _ => [.field name]
  | name :: path, fields =>
    let rows := rowsOf (Table.get? name fields)
    .field name :: .row (rows.length - 1) :: endPlace path (rows.getLast?.getD [])

theorem endPlace_cons (hpath : path ≠ [])
    (h : Table.get? name fields = some (.rows (front ++ [last]))) :
    endPlace (name :: path) fields =
      .field name :: .row front.length :: endPlace path last := by
  rw [endPlace, h, rowsOf, List.getLast?_concat, List.length_append, List.length_singleton,
    Nat.add_sub_cancel, Option.getD_some]
  exact hpath

/-- A path of one name leads to what has the name. -/
theorem at?_endPlace_singleton (name : Text) (fields : Fields) :
    (Value.map fields).at? (endPlace [name] fields) = Table.get? name fields := by
  rw [endPlace, Value.at?_cons, Value.step?]
  exact Option.bind_fun_some _

/-- A path that goes on behind a loop leads where the rest of it leads in the last row. -/
theorem at?_endPlace_cons (hpath : path ≠ [])
    (h : Table.get? name fields = some (.rows (front ++ [last]))) :
    (Value.map fields).at? (endPlace (name :: path) fields) =
      (Value.map last).at? (endPlace path last) := by
  rw [endPlace_cons hpath h, Value.at?_last h]

/-- Without a row a path leads nowhere behind a loop. -/
theorem at?_endPlace_of_empty (hpath : path ≠ [])
    (h : rowsOf (Table.get? name fields) = []) :
    (Value.map fields).at? (endPlace (name :: path) fields) = none := by
  rw [endPlace, h, Value.at?_cons, Value.step?]
  · cases hfirst : Table.get? name fields with
    | none => rfl
    | some first =>
        rw [hfirst] at h
        rw [Option.bind_some, Value.at?_cons]
        cases first with
        | rows rows =>
            obtain rfl : rows = [] := h
            rfl
        | null | bool | int | float | str | map => rfl
  · exact hpath

/-- The rows that are counted for a path are those of the loop that it leads to. -/
theorem lengthAt_eq (h : path ≠ []) :
    lengthAt path fields =
      (rowsOf ((Value.map fields).at? (endPlace path fields))).length := by
  induction path generalizing fields with
  | nil => contradiction
  | cons name path ih =>
      cases path with
      | nil => rw [at?_endPlace_singleton, lengthAt]
      | cons next path =>
          have hpath : next :: path ≠ [] := List.cons_ne_nil next path
          rw [lengthAt]
          · cases hlast : (rowsOf (Table.get? name fields)).getLast? with
            | none =>
                rw [at?_endPlace_of_empty hpath (List.getLast?_eq_none_iff.mp hlast)]
                rfl
            | some last =>
                obtain ⟨front, hfront⟩ := of_getLast?_rowsOf hlast
                rw [at?_endPlace_cons hpath hfront]
                exact ih hpath
          · exact hpath

/-! ## What adding a row does -/

/-- A path has a first name, and where one ends before another they begin with the same name. -/
theorem exists_cons_of_start (hne : start ≠ []) (hstart : start <+: path) (h : start ≠ path) :
    ∃ name rest rest', start = name :: rest ∧ path = name :: rest' ∧ rest <+: rest' ∧
      rest ≠ rest' := by
  obtain ⟨name, rest, rfl⟩ := List.exists_cons_of_ne_nil hne
  obtain ⟨behind, rfl⟩ := hstart
  refine ⟨name, rest, rest ++ behind, rfl, rfl, List.prefix_append rest behind, fun heq => h ?_⟩
  rw [List.cons_append, ← heq]

/-- Each loop on the way has its rows, of which only the last one changes. -/
theorem at?_start_of_appendRow? (hadd : appendRow? row path fields = some fields')
    (hne : start ≠ []) (hstart : start <+: path) (h : start ≠ path) :
    ∃ front last last',
      (Value.map fields).at? (endPlace start fields) = some (.rows (front ++ [last])) ∧
      (Value.map fields').at? (endPlace start fields) = some (.rows (front ++ [last'])) := by
  induction path generalizing start fields fields' with
  | nil => contradiction
  | cons name path ih =>
      obtain ⟨first, rest, rest', rfl, heq, hrest, hother⟩ := exists_cons_of_start hne hstart h
      obtain ⟨rfl, rfl⟩ := List.cons.inj heq
      have hpath : path ≠ [] := by
        rintro rfl
        exact hother (List.prefix_nil.mp hrest)
      obtain ⟨front, last, last', hfront, hlast', rfl⟩ :=
        (appendRow?_cons_eq_some_iff hpath).mp hadd
      have hafter := Table.get?_insert_self name (.rows (front ++ [last'])) fields
      by_cases hempty : rest = []
      · subst hempty
        refine ⟨front, last, last', ?_, ?_⟩
        · rw [at?_endPlace_singleton, hfront]
        · rw [endPlace, Value.at?_field hafter]
          rfl
      · rw [endPlace_cons hempty hfront, Value.at?_last hfront, Value.at?_last hafter]
        exact ih hlast' hempty hrest hother

/-- **The loop at the end has the row behind its rows**, if there was a loop. -/
theorem at?_endPlace_of_appendRow? (hadd : appendRow? row path fields = some fields') :
    (Value.map fields').at? (endPlace path fields) =
      some (.rows (rowsOf ((Value.map fields).at? (endPlace path fields)) ++ [row])) := by
  induction path generalizing fields fields' with
  | nil => contradiction
  | cons name path ih =>
      by_cases hpath : path = []
      · subst hpath
        obtain ⟨-, rfl⟩ := appendRow?_singleton_eq_some_iff.mp hadd
        rw [at?_endPlace_singleton, endPlace, Value.at?_field (Table.get?_insert_self _ _ _)]
        rfl
      · obtain ⟨front, last, last', hfront, hlast', rfl⟩ :=
          (appendRow?_cons_eq_some_iff hpath).mp hadd
        rw [endPlace_cons hpath hfront, Value.at?_last hfront,
          Value.at?_last (Table.get?_insert_self _ _ _)]
        exact ih hlast'

/-- The path leads to the same place as before. -/
theorem endPlace_of_appendRow? (hadd : appendRow? row path fields = some fields') :
    endPlace path fields' = endPlace path fields := by
  induction path generalizing fields fields' with
  | nil => rfl
  | cons name path ih =>
      by_cases hpath : path = []
      · subst hpath
        rfl
      · obtain ⟨front, last, last', hfront, hlast', rfl⟩ :=
          (appendRow?_cons_eq_some_iff hpath).mp hadd
        rw [endPlace_cons hpath hfront, endPlace_cons hpath (Table.get?_insert_self _ _ _),
          ih hlast']

/-- **What lies apart from the loop is the same**, wherever it is. -/
theorem at?_of_appendRow? (hadd : appendRow? row path fields = some fields')
    {place : List Value.Step} (hplace : ¬ place <+: endPlace path fields)
    (hend : ¬ endPlace path fields <+: place) :
    (Value.map fields').at? place = (Value.map fields).at? place := by
  induction path generalizing fields fields' place with
  | nil => contradiction
  | cons name path ih =>
      obtain ⟨step, place, rfl⟩ : ∃ step rest, place = step :: rest := by
        apply List.exists_cons_of_ne_nil
        rintro rfl
        exact hplace List.nil_prefix
      by_cases hstep : step = .field name
      · subst hstep
        have hpath : path ≠ [] := by
          rintro rfl
          exact hend (List.cons_prefix_cons.mpr ⟨rfl, List.nil_prefix⟩)
        obtain ⟨front, last, last', hfront, hlast', rfl⟩ :=
          (appendRow?_cons_eq_some_iff hpath).mp hadd
        have hafter := Table.get?_insert_self name (.rows (front ++ [last'])) fields
        rw [endPlace_cons hpath hfront, List.cons_prefix_cons] at hplace hend
        have hrest : ¬ place <+: .row front.length :: endPlace path last :=
          fun h => hplace ⟨rfl, h⟩
        have hbehind : ¬ .row front.length :: endPlace path last <+: place :=
          fun h => hend ⟨rfl, h⟩
        obtain ⟨inner, place, rfl⟩ : ∃ inner rest, place = inner :: rest := by
          apply List.exists_cons_of_ne_nil
          rintro rfl
          exact hrest List.nil_prefix
        by_cases hinner : inner = .row front.length
        · -- in the last row
          subst hinner
          rw [Value.at?_last hfront, Value.at?_last hafter]
          exact ih hlast' (fun h => hrest (List.cons_prefix_cons.mpr ⟨rfl, h⟩))
            fun h => hbehind (List.cons_prefix_cons.mpr ⟨rfl, h⟩)
        · -- in another row
          rw [Value.at?_field hfront, Value.at?_field hafter, Value.at?_cons, Value.at?_cons]
          cases inner with
          | field other => rfl
          | row number =>
              have hnumber : number ≠ front.length := fun heq => hinner (heq ▸ rfl)
              have hrow : ∀ last : Fields, (front ++ [last])[number]? = front[number]? := by
                intro last
                rcases Nat.lt_or_gt_of_ne hnumber with hless | hgreater
                · exact List.getElem?_append_left hless
                · rw [List.getElem?_eq_none (by simp; omega), List.getElem?_eq_none (by omega)]
              rw [Value.step?, Value.step?, hrow, hrow]
      · -- in another field
        rw [Value.at?_cons, Value.at?_cons]
        cases step with
        | row number => rfl
        | field other =>
            have hother : (name :: path).head? ≠ some other :=
              fun heq => hstep (congrArg Value.Step.field (Option.some.inj heq).symm)
            rw [Value.step?, Value.step?, get?_appendRow hother hadd]

/-- A row is not added to a loop without a name. -/
theorem getLast?_of_appendRow? (hadd : appendRow? row path fields = some fields') :
    path.getLast? ≠ some [] := by
  induction path generalizing fields fields' with
  | nil => contradiction
  | cons name path ih =>
      by_cases hpath : path = []
      · subst hpath
        obtain ⟨hname, -⟩ := appendRow?_singleton_eq_some_iff.mp hadd
        simpa using hname
      · obtain ⟨front, last, last', -, hlast', -⟩ :=
          (appendRow?_cons_eq_some_iff hpath).mp hadd
        rw [List.getLast?_cons_of_ne_nil hpath]
        exact ih hlast'

/-- **A row is added exactly along the paths on which every loop but the last has a row**, and whose
last name is not empty. -/
theorem isSome_appendRow?_iff (h : path ≠ []) :
    (appendRow? row path fields).isSome = true ↔ path.getLast? ≠ some [] ∧
      ∀ start, start ≠ [] → start <+: path → start ≠ path →
        ∃ first others, (Value.map fields).at? (endPlace start fields) =
          some (.rows (first :: others)) := by
  rw [Option.isSome_iff_exists]
  constructor
  · rintro ⟨fields', hadd⟩
    refine ⟨getLast?_of_appendRow? hadd, fun start hne hstart hother => ?_⟩
    obtain ⟨front, last, -, hrows, -⟩ := at?_start_of_appendRow? hadd hne hstart hother
    obtain ⟨first, others, hcons⟩ :=
      List.exists_cons_of_ne_nil (List.append_ne_nil_of_right_ne_nil front
        (List.cons_ne_nil last []))
    exact ⟨first, others, by rw [hrows, hcons]⟩
  · rintro ⟨hlast, hloops⟩
    induction path generalizing fields with
    | nil => contradiction
    | cons name path ih =>
        by_cases hpath : path = []
        · subst hpath
          exact ⟨_, appendRow?_singleton_eq_some_iff.mpr ⟨by simpa using hlast, rfl⟩⟩
        · rw [List.getLast?_cons_of_ne_nil hpath] at hlast
          obtain ⟨first, others, hfirst⟩ := hloops [name] (List.cons_ne_nil name [])
            (by simp) (by simpa using Ne.symm hpath)
          rw [at?_endPlace_singleton] at hfirst
          obtain ⟨front, last, hconcat⟩ : ∃ front last, first :: others = front ++ [last] := by
            have hrows := List.dropLast_concat_getLast (List.cons_ne_nil first others)
            exact ⟨_, _, hrows.symm⟩
          rw [hconcat] at hfirst
          obtain ⟨last', hlast'⟩ := ih hpath hlast fun start hne hstart hother => by
            rw [← at?_endPlace_cons hne hfirst]
            exact hloops (name :: start) (List.cons_ne_nil name start)
              (List.cons_prefix_cons.mpr ⟨rfl, hstart⟩) (by simpa using hother)
          exact ⟨_, (appendRow?_cons_eq_some_iff hpath).mpr
            ⟨front, last, last', hfirst, hlast', rfl⟩⟩

end Variables

/-! ## All of it -/

/-- **A row is added as a whole or not at all.** It is added exactly if the last name of its path is
not empty and each beginning of the path leads to a loop with a row; otherwise the variables are as
before. If it is added, the loop at the end of the path has it behind its rows, of which there are
none if there was no loop, and so one row more is counted; each loop on the way has its rows but for
the last one; and what lies apart from the loop is the same, at every place. -/
theorem Template.addRow_frame (t : Template) (path : Text) (row : Fields) :
    let segments := Text.splitOn '.' path
    let place := fun start => Variables.endPlace start t.vars.fields
    let before := Value.map t.vars.fields
    let after := Value.map (t.addRow path row).2.vars.fields
    ((t.addRow path row).1 = true ↔ segments.getLast? ≠ some [] ∧
      ∀ start, start ≠ [] → start <+: segments → start ≠ segments →
        ∃ first others, before.at? (place start) = some (.rows (first :: others))) ∧
    ((t.addRow path row).1 = false → (t.addRow path row).2.vars = t.vars) ∧
    t.vars.loopLength path = (Variables.rowsOf (before.at? (place segments))).length ∧
    ((t.addRow path row).1 = true →
      (t.addRow path row).2.vars.overwrite = t.vars.overwrite ∧
      (t.addRow path row).2.vars.loopLength path = t.vars.loopLength path + 1 ∧
      after.at? (place segments) =
        some (.rows (Variables.rowsOf (before.at? (place segments)) ++ [row])) ∧
      (∀ start, start ≠ [] → start <+: segments → start ≠ segments →
        ∃ front last last', before.at? (place start) = some (.rows (front ++ [last])) ∧
          after.at? (place start) = some (.rows (front ++ [last']))) ∧
      ∀ other, ¬ other <+: place segments → ¬ place segments <+: other →
        after.at? other = before.at? other) := by
  intro segments place before after
  have hsegments : segments ≠ [] := Text.splitOn_ne_nil '.' path
  have hcount : t.vars.loopLength path =
      (Variables.rowsOf (before.at? (place segments))).length := Variables.lengthAt_eq hsegments
  have hadds : (Variables.appendRow? row segments t.vars.fields).isSome = true ↔ _ :=
    Variables.isSome_appendRow?_iff hsegments
  cases hadd : Variables.appendRow? row segments t.vars.fields with
  | none =>
      have hresult : t.addRow path row = (false, { t with output := none }) := by
        rw [addRow, Variables.addRow?, hadd]
        rfl
      rw [hadd] at hadds
      rw [hresult]
      exact ⟨hadds, fun _ => rfl, hcount, fun h => absurd h Bool.false_ne_true⟩
  | some fields' =>
      have hresult : t.addRow path row =
          (true, { t with vars := { t.vars with fields := fields' }, output := none }) := by
        rw [addRow, Variables.addRow?, hadd]
        rfl
      have hafter : after = .map fields' := by
        show Value.map (t.addRow path row).2.vars.fields = _
        rw [hresult]
      have hloop := Variables.at?_endPlace_of_appendRow? hadd
      rw [hadd] at hadds
      rw [hafter, hresult]
      refine ⟨hadds, fun h => absurd h.symm Bool.false_ne_true, hcount,
        fun _ => ⟨rfl, ?_, hloop, ?_, ?_⟩⟩
      · show Variables.lengthAt segments fields' = _
        rw [Variables.lengthAt_eq hsegments, Variables.endPlace_of_appendRow? hadd, hloop, hcount,
          Variables.rowsOf, List.length_append, List.length_singleton]
      · exact fun start => Variables.at?_start_of_appendRow? hadd
      · exact fun other => Variables.at?_of_appendRow? hadd

/-- A page with a post that has a tag, and one that has none. -/
def postsPage : Template where
  name := "posts.html"
  vars := { fields := [("AB", .int 1), ("posts", .rows [
    [("CD", .int 2), ("tags", .rows [[("EF", .int 3)]])], [("CD", .int 4)]])] }

/-- The first tag of the second post is its only one, and the first post keeps its tag. -/
theorem Template.addRow_frame_sample :
    let added := postsPage.addRow "posts.tags" [("EF", .int 5)]
    let after := Value.map added.2.vars.fields
    added.1 = true ∧ added.2.vars.loopLength "posts.tags" = 1 ∧
      after.at? [.field "posts", .row 1, .field "tags"] = some (.rows [[("EF", .int 5)]]) ∧
      after.at? [.field "posts", .row 0, .field "tags"] = some (.rows [[("EF", .int 3)]]) ∧
      after.at? [.field "posts", .row 1, .field "CD"] = some (.int 4) ∧
      (postsPage.addRow "AB.tags" [("EF", .int 5)]).1 = false := by
  obtain ⟨-, -, hcount, hadded⟩ := addRow_frame postsPage "posts.tags" [("EF", .int 5)]
  obtain ⟨-, hlength, hloop, -, hapart⟩ := hadded rfl
  refine ⟨rfl, hlength.trans (congrArg (· + 1) hcount), hloop, ?_, ?_, rfl⟩
  · exact hapart [.field "posts", .row 0, .field "tags"] (by decide) (by decide)
  · exact hapart [.field "posts", .row 1, .field "CD"] (by decide) (by decide)

end PageServer
