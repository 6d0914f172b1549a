/-
# Loops for rows inside rows

A template of loops shows a forest of rows that is as deep as the template or
less: row by row, in the order in which the rows were added, and the rows inside
a row between what the template shows before and behind them.

* `Fields.Alike`, `Row.Alike`, `Page.Alike`: fields, rows and pages that show the same
* `Forest.tour`: where rendering comes to, stop by stop
* `Node.renderAll_nested`: a tree of loops is rendered as the tour goes, by induction on the
  loops and on the rows of each
* `Stacked`: rows in rows, each of which is found by the name of its loop
* `Node.render_nestedLoops`: from adding the rows to what is shown
-/
import Mathlib
import PageServer.Proofs.Template.RowForest
import PageServer.Proofs.Template.LoopTemplates

namespace PageServer

/-! ## What is shown

A row is stored with the loop of the rows inside it as one more field. A loop shows nothing, so a
page shows the same with this field and without it. -/

/-- What a value that may be there shows. -/
def shown (value : Option Value) : Text := (value.map Value.text).getD []

/-- Fields that show the same at the end of each path. -/
def Fields.Alike (fields plain : Fields) : Prop :=
  ∀ path, shown (Fields.at? path fields) = shown (Fields.at? path plain)

/-- Rows of the same loop at the same place that show the same. -/
structure Row.Alike (row plain : Row) : Prop where
  /-- The names of the loops are the same. -/
  name : row.name = plain.name
  /-- The numbers of the rows are the same. -/
  index : row.index = plain.index
  /-- So are the numbers of all rows. -/
  count : row.count = plain.count
  /-- The fields show the same. -/
  fields : Fields.Alike row.fields plain.fields

/-- Pages that show the same. -/
structure Page.Alike (page plain : Page) : Prop where
  /-- The variables show the same. -/
  vars : Fields.Alike page.vars plain.vars
  /-- The constants are the same. -/
  constants : page.constants = plain.constants
  /-- The rows show the same. -/
  rows : List.Forall₂ Row.Alike page.rows plain.rows

/-- A loop that was not there shows nothing. -/
theorem Forest.alike_holding {segments : List Text} {fields : Fields}
    (h : ∀ segment ∈ segments.head?, Table.get? segment fields = none) (rows : List Fields) :
    Fields.Alike (holding segments rows fields) fields := by
  rcases segments with _ | ⟨segment, deeper⟩
  · exact fun _ => rfl
  rcases rows with _ | ⟨first, others⟩
  · exact fun _ => rfl
  have hunset : Table.get? segment fields = none := h segment rfl
  intro path
  rcases path with _ | ⟨name, _ | ⟨next, more⟩⟩
  · rfl
  · by_cases hname : name = segment
    · rw [hname, holding, Fields.at?, Fields.at?, Table.get?_insert_self, hunset]
      rfl
    · rw [holding, Fields.at?, Fields.at?, Table.get?_insert_of_ne hname]
  · by_cases hname : name = segment
    · rw [hname, holding, Fields.at?, Fields.at?, Table.get?_insert_self, hunset] <;> simp
    · rw [holding, Fields.at?, Fields.at?, Table.get?_insert_of_ne hname] <;> simp

/-- The rows of a loop that was not there are those that it holds. -/
theorem Forest.rowsOf_holding {segment : Text} {fields : Fields} (deeper : List Text)
    (h : Table.get? segment fields = none) (rows : List Fields) :
    Variables.rowsOf (Table.get? segment (holding (segment :: deeper) rows fields)) = rows := by
  cases rows with
  | nil => rw [holding, h, Variables.rowsOf] <;> simp
  | cons first others => rw [holding, Table.get?_insert_self, Variables.rowsOf]

theorem Row.Alike.get? {row plain : Row} (h : row.Alike plain) (path : List Text) :
    shown (row.get? path) = shown (plain.get? path) := by
  have hflag : row.flag? = plain.flag? := by
    funext name
    unfold flag?
    rw [h.index, h.count]
  unfold Row.get?
  rcases path with _ | ⟨name, _ | ⟨next, more⟩⟩
  · exact h.fields []
  · dsimp only
    rw [hflag]
    cases plain.flag? name with
    | none => exact h.fields [name]
    | some b => rfl
  · exact h.fields (name :: next :: more)

/-- The first row of a name stands at the same place among rows that are alike. -/
theorem shown_find? {rows plainRows : List Row} (h : List.Forall₂ Row.Alike rows plainRows)
    (name : Text) (path : List Text) :
    shown ((rows.find? fun row => decide (row.name = name)).bind fun row => row.get? path) =
      shown ((plainRows.find? fun row => decide (row.name = name)).bind fun row =>
        row.get? path) := by
  induction h with
  | nil => rfl
  | @cons row plain _ _ hrow _ ih =>
      by_cases hname : plain.name = name
      · have hname' : row.name = name := hrow.name.trans hname
        rw [List.find?_cons_of_pos (by simpa using hname'),
          List.find?_cons_of_pos (by simpa using hname)]
        exact hrow.get? path
      · have hname' : ¬ row.name = name := fun heq => hname (hrow.name.symm.trans heq)
        rw [List.find?_cons_of_neg (by simpa using hname'),
          List.find?_cons_of_neg (by simpa using hname)]
        exact ih

theorem Page.Alike.value? {page plain : Page} (h : page.Alike plain) (v : VarRef) :
    shown (page.value? v) = shown (plain.value? v) := by
  obtain ⟨scope, path⟩ := v
  cases scope with
  | none => exact h.vars path
  | some name => exact shown_find? h.rows name path

/-- Cells show the same on such pages. -/
theorem Page.Alike.texts {page plain : Page} (h : page.Alike plain) (cells : List Cell) :
    Cell.texts page cells = Cell.texts plain cells := by
  unfold Cell.texts
  congr 1
  funext cell
  rcases cell with c | ⟨v | name⟩
  · rfl
  · exact h.value? v
  · rw [Cell.text, Cell.text, h.constants]

/-! ## The tour through the rows -/

/-- A place that rendering a template of loops comes to: before the inner loop of a row, or behind
it. -/
structure Stop where
  /-- The row and those it lies in, from the innermost outwards. -/
  rows : List Row
  /-- Whether the inner loop comes next. -/
  entering : Bool
  /-- What is shown here. -/
  cells : List Cell

namespace Stop

/-- What is shown at a stop. -/
def text (page : Page) (stop : Stop) : Text :=
  Cell.texts { page with rows := stop.rows } stop.cells

/-- The row that rendering comes to, with the name of its loop. -/
def entered? (stop : Stop) : Option (Text × Fields) :=
  if stop.entering then stop.rows.head?.map fun row => (row.name, row.fields) else none

end Stop

/-- The row of a loop with some number among `count` rows in all. -/
def Level.row (level : Level) (outer : List Text) (fields : Fields) (index count : Nat) : Row :=
  ⟨level.name outer, fields, index, count⟩

namespace Forest

/-- The stops for some rows of a loop, the first of which has the number `index` among `count` rows
in all. The stops inside a row come between its own, with the row on top of the others. -/
def tour : List Level → List Text → List Row → Nat → Nat → Forest → List Stop
  | _, _, _, _, _, nil => []
  | [], _, _, _, _, row _ _ _ => []
  | level :: deeper, outer, rows, index, count, row fields inside rest =>
    ⟨level.row outer fields index count :: rows, true, level.before⟩ ::
      (tour deeper (outer ++ [level.segment]) (level.row outer fields index count :: rows) 0
          inside.width inside ++
        ⟨level.row outer fields index count :: rows, false, level.after⟩ ::
          tour (level :: deeper) outer rows (index + 1) count rest)

/-- The rows are entered in the order in which they are added, each of them once. -/
theorem entered_tour {levels : List Level} {forest : Forest} (outer : List Text) (rows : List Row)
    (index count : Nat) :
    (forest.tour levels outer rows index count).filterMap Stop.entered? =
      (forest.steps (Level.segments levels)).map fun step =>
        (Text.join "." (outer ++ step.1), step.2) := by
  induction forest generalizing levels outer rows index count with
  | nil => rfl
  | row fields inside rest ihinside ihrest =>
      cases levels with
      | nil => rfl
      | cons level deeper =>
          have hinside : ((inside.steps (Level.segments deeper)).map fun step =>
              (Text.join "." (outer ++ [level.segment] ++ step.1), step.2)) =
              ((inside.steps (Level.segments deeper)).map fun step =>
                (level.segment :: step.1, step.2)).map fun step =>
                  (Text.join "." (outer ++ step.1), step.2) := by simp
          rw [tour, List.filterMap_cons, List.filterMap_append, List.filterMap_cons, ihinside,
            ihrest, hinside, Level.segments_cons, steps, List.cons_append, List.map_cons, List.map_append]
          rfl

end Forest

namespace Node

open Page (followedBy followedBy_nil)

/-- **A tree of loops shows what there is to show at the stops of the tour.** -/
theorem renderAll_nested {levels : List Level} {outer : List Text} {forest : Forest}
    {nodes : List Node} {page plain : Page} (hnested : Level.Nested outer levels nodes)
    (halike : page.Alike plain) (hinnermost : page.innermost = enclosing outer)
    (hrows : ∀ segment ∈ (Level.segments levels).head?,
      page.innermostRows segment = forest.stored (Level.segments levels))
    (hdepth : forest.depth ≤ levels.length) (hfree : forest.Free (Level.segments levels)) :
    renderAll page nodes =
      .ok ((forest.tour levels outer plain.rows 0 forest.width).flatMap (Stop.text plain)) := by
  induction levels generalizing outer forest nodes page plain with
  | nil =>
      obtain rfl : nodes = [] := hnested
      cases forest with
      | nil => rfl
      | row fields inside rest => simp [Forest.depth] at hdepth
  | cons level deeper ih =>
      obtain ⟨body, inner, span, rfl, hinner, hbody⟩ := hnested
      rw [Level.segments_cons] at hrows hfree
      -- the rows of the loop one by one, whatever the number of the first one
      have hall : ∀ (rows : Forest) (index count : Nat), rows.depth ≤ (level :: deeper).length →
          rows.Free (level.segment :: Level.segments deeper) →
          page.forRows (level.name outer) count (fun page => renderAll page body) index
              (rows.stored (level.segment :: Level.segments deeper)) =
            .ok ((rows.tour (level :: deeper) outer plain.rows index count).flatMap
              (Stop.text plain)) := by
        intro rows
        induction rows with
        | nil => intros; rfl
        | row fields inside rest _ ihrest =>
            intro index count hdepth hfree
            rw [Forest.depth, Nat.max_le] at hdepth
            obtain ⟨hunset, hfreeInside, hfreeRest⟩ := hfree
            let current := page.within (level.row outer (Forest.holding (Level.segments deeper)
              (inside.stored (Level.segments deeper)) fields) index count)
            have hcurrent : current.Alike (plain.within (level.row outer fields index count)) :=
              ⟨halike.vars, halike.constants,
                .cons ⟨rfl, rfl, rfl, Forest.alike_holding hunset _⟩ halike.rows⟩
            have hrowsInside : ∀ segment ∈ (Level.segments deeper).head?,
                current.innermostRows segment = inside.stored (Level.segments deeper) := by
              intro segment hsegment
              obtain ⟨others, hothers⟩ := List.head?_eq_some_iff.mp hsegment
              simp only [current, hothers]
              exact Forest.rowsOf_holding others (hunset segment hsegment) _
            have hinside := ih hinner hcurrent (enclosing_concat outer level.segment).symm
              hrowsInside (by simpa using hdepth.1) hfreeInside
            have hbodyText : renderAll current body = _ := hbody current
            rw [hinside, hcurrent.texts, hcurrent.texts] at hbodyText
            rw [Forest.stored, Page.forRows_cons, ihrest _ _ hdepth.2 hfreeRest, Forest.tour,
              List.flatMap_cons, List.flatMap_append, List.flatMap_cons]
            refine (congrArg (followedBy · _) hbodyText).trans ?_
            simp only [followedBy, List.append_assoc]
            rfl
      rw [renderAll_cons, renderAll, followedBy_nil, renderOne, ← hinnermost, page.rowsOf_innermost,
        hrows level.segment rfl]
      dsimp only
      rw [Forest.length_stored]
      exact hall forest 0 forest.width hdepth hfree

end Node

/-! ## The flags of the rows -/

/-- The flags of a row as they are found by the name of its loop. -/
structure Page.Flags (page : Page) (row : Row) : Prop where
  /-- Whether the row is the first one. -/
  first : page.value? ⟨some row.name, ["IS_FIRST_ROW"]⟩ = some (.bool (row.index == 0))
  /-- Whether it is the last one. -/
  last : page.value? ⟨some row.name, ["IS_LAST_ROW"]⟩ = some (.bool (row.index + 1 == row.count))
  /-- Whether it is the first, third, fifth … one. -/
  odd : page.value? ⟨some row.name, ["IS_ODD_ROW"]⟩ = some (.bool (row.index % 2 == 0))
  /-- Whether it is the second, fourth … one. -/
  even : page.value? ⟨some row.name, ["IS_EVEN_ROW"]⟩ = some (.bool (row.index % 2 == 1))

/-- A row that is found by the name of its loop has these flags, whatever its fields are. -/
theorem Page.flags_of_row? {page : Page} {row : Row} (h : page.row? row.name = some row) :
    page.Flags row := by
  constructor <;> rw [Page.value?] <;> dsimp only <;> rw [h] <;> rfl

/-- Rows in rows: each one is a row of a loop that is directly inside the loop of the next one. -/
inductive Stacked : List Text → List Row → Prop where
  /-- There is no row. -/
  | nil : Stacked [] []
  /-- A row in others. -/
  | row {outer : List Text} {rows : List Row} {row : Row} {segment : Text} (h : Stacked outer rows)
      (hname : row.name = Text.join "." (outer ++ [segment])) :
      Stacked (outer ++ [segment]) (row :: rows)

theorem Stacked.eq_nil {path : List Text} {rows : List Row} (h : Stacked path rows)
    (hpath : path = []) : rows = [] := by
  cases h with
  | nil => rfl
  | row h hname => simp at hpath

/-- The name of the loop of a row is longer than those of the loops around it, so that the row is
found by it. -/
theorem Stacked.find? {path : List Text} {rows : List Row} (h : Stacked path rows) :
    ∀ row ∈ rows, row.name.length ≤ (Text.join "." path).length ∧
      (rows.find? fun other => decide (other.name = row.name)) = some row := by
  induction h with
  | nil => simp
  | @row outer rows top segment h hname ih =>
      have hshorter : ∀ row ∈ rows, row.name.length < top.name.length := by
        intro row hrow
        have houter : outer ≠ [] := by
          intro hempty
          rw [h.eq_nil hempty] at hrow
          contradiction
        rw [hname, join_concat houter, List.length_append, List.length_cons]
        have := (ih row hrow).1
        omega
      rw [← hname]
      refine List.forall_mem_cons.mpr ⟨⟨le_rfl, List.find?_cons_of_pos (by simp)⟩, ?_⟩
      intro row hrow
      have hne : ¬ top.name = row.name := fun heq => by simpa [heq] using hshorter row hrow
      refine ⟨(hshorter row hrow).le, ?_⟩
      rw [List.find?_cons_of_neg (by simpa using hne)]
      exact (ih row hrow).2

/-- At each stop of the tour, the rows lie in each other. -/
theorem Forest.stacked_of_mem_tour {forest : Forest} {levels : List Level} {outer : List Text}
    {rows : List Row} {index count : Nat} (h : Stacked outer rows) :
    ∀ stop ∈ forest.tour levels outer rows index count, ∃ path, Stacked path stop.rows := by
  induction forest generalizing levels outer rows index count with
  | nil => simp [tour]
  | row fields inside rest ihinside ihrest =>
      cases levels with
      | nil => simp [tour]
      | cons level deeper =>
          have hhere : Stacked (outer ++ [level.segment])
              (level.row outer fields index count :: rows) := .row h rfl
          rw [tour, List.forall_mem_cons, List.forall_mem_append, List.forall_mem_cons]
          exact ⟨⟨_, hhere⟩, ihinside hhere, ⟨_, hhere⟩, ihrest h⟩

/-! ## Rows in templates of loops -/

/-- The tour through all rows. -/
def Forest.wholeTour (forest : Forest) (levels : List Level) : List Stop :=
  forest.tour levels [] [] 0 forest.width

/-- **Rows inside rows are shown by loops inside loops. Rows that are added in order, each before
those inside it, to a page that does not have their loop yet are all stored. A template of loops at
least as deep as they are is read as a tree, and this tree shows what there is to show at the stops
of the tour through the rows. On this tour each row is entered once, in the order of adding, and
wherever it stops, the flags of the rows it is in tell their places among the rows of their
loops.** -/
theorem Node.render_nestedLoops {σ : Type} (loader : Loader σ) {levels : List Level}
    {forest : Forest} {vars : Variables} (hlevels : Level.Fit levels)
    (hdepth : forest.depth ≤ levels.length) (hfree : forest.Free (Level.segments levels))
    (hunset : ∀ segment ∈ (Level.segments levels).head?, Table.get? segment vars.fields = none)
    (file : Text) (state : σ) (constants : Constants) :
    ∃ filled tree,
      vars.addRows? (forest.calls (Level.segments levels)) = some filled ∧
      Action.run (parse loader (Level.source [] levels) file) state = (.ok tree, state) ∧
      render tree filled.fields constants =
        .ok ((forest.wholeTour levels).flatMap (Stop.text { vars := vars.fields, constants })) ∧
      (forest.wholeTour levels).filterMap Stop.entered? = forest.calls (Level.segments levels) ∧
      ∀ stop ∈ forest.wholeTour levels, ∀ row ∈ stop.rows,
        Page.Flags { vars := vars.fields, constants, rows := stop.rows } row := by
  have hsegments : ∀ segment ∈ Level.segments levels,
      segment ≠ [] ∧ ∀ c ∈ segment, Reference.isLoopChar c = true :=
    fun segment hsegment =>
      ⟨hlevels.chain.filled segment hsegment, hlevels.chain.chars segment hsegment⟩
  have hadded := Variables.addRows?_calls hsegments (by simpa [Level.segments] using hdepth) hfree
    hunset
  obtain ⟨tree, hparse, hnested⟩ := Level.parse_source loader hlevels file state
  refine ⟨_, tree, hadded, hparse, ?_, Forest.entered_tour [] [] 0 forest.width, ?_⟩
  · have halike : Page.Alike
        { vars := Forest.holding (Level.segments levels) (forest.stored (Level.segments levels))
            vars.fields, constants } { vars := vars.fields, constants } :=
      ⟨Forest.alike_holding hunset _, rfl, .nil⟩
    apply renderAll_nested hnested halike rfl _ hdepth hfree
    intro segment hsegment
    obtain ⟨others, hothers⟩ := List.head?_eq_some_iff.mp hsegment
    rw [hothers]
    exact Forest.rowsOf_holding others (hunset segment hsegment) _
  · intro stop hstop row hrow
    obtain ⟨path, hstacked⟩ := Forest.stacked_of_mem_tour .nil stop hstop
    exact Page.flags_of_row? (hstacked.find? row hrow).2

/-- Two loops, of which the inner one tells its last row. -/
def orderLevels : List Level :=
  [⟨"ab", [.letter '<', .value (.var ⟨some "ab", ["ID"]⟩)], [.letter '>']⟩,
    ⟨"c", [.letter ' ', .value (.var ⟨some "ab.c", ["ID"]⟩),
      .value (.var ⟨some "ab.c", ["IS_LAST_ROW"]⟩)], []⟩]

/-- Two rows, with two rows and no row inside them; one of these has a field with the name of a
flag. -/
def orderRows : Forest :=
  .row [("ID", .int 1)]
    (.row [("ID", .int 2), ("IS_LAST_ROW", .str "no")] .nil (.row [("ID", .int 3)] .nil .nil))
    (.row [("ID", .int 4)] .nil .nil)

/-- The template can be written. -/
theorem fit_orderLevels : Level.Fit orderLevels := by
  have hchars : ∀ part ∈ Level.segments orderLevels, part.all Reference.isLoopChar = true := by
    decide +kernel
  refine ⟨⟨by decide, fun part hpart => List.all_eq_true.mp (hchars part hpart), by decide⟩, ?_, ?_⟩
  · decide +kernel
  · decide +kernel

/-- Each row is shown with the rows inside it, and the flag counts, not the field. -/
theorem Node.render_nestedLoops_sample :
    ∃ filled tree,
      Variables.addRows? [("ab", [("ID", .int 1)]),
        ("ab.c", [("ID", .int 2), ("IS_LAST_ROW", .str "no")]), ("ab.c", [("ID", .int 3)]),
        ("ab", [("ID", .int 4)])] {} = some filled ∧
      Action.run (parse (Loader.ofTexts .ok) ("\x7bLOOP: ab\x7d<\x7bab.ID\x7d" ++
        "\x7bLOOP: ab.c\x7d \x7bab.c.ID\x7d\x7bab.c.IS_LAST_ROW\x7d\x7b/LOOP: ab.c\x7d" ++
        ">\x7b/LOOP: ab\x7d") "page") () = (.ok tree, ()) ∧
      render tree filled.fields [] = .ok "<1 2 31><4>" := by
  have hdepth : orderRows.depth ≤ orderLevels.length := by decide
  have hfree : orderRows.Free (Level.segments orderLevels) := by
    simp [orderRows, orderLevels, Forest.Free, Level.segments, Table.get?]
  have hunset : ∀ segment ∈ (Level.segments orderLevels).head?,
      Table.get? segment ({} : Variables).fields = none := fun _ _ => rfl
  obtain ⟨filled, tree, hadded, hparse, hrender, -, -⟩ :=
    render_nestedLoops (Loader.ofTexts .ok) fit_orderLevels hdepth hfree hunset "page" () []
  exact ⟨filled, tree, hadded, hparse, hrender⟩

end PageServer
