/-
# Rows inside rows

A loop holds rows, and each row may hold a loop of rows of its own. Such rows
are added one by one, each before those inside it: the path of a loop leads into
the last row that was added to the loop before it.

* `Forest`: rows with the rows inside them
* `Forest.steps`: the rows in order, each with the path of its loop
* `Forest.stored`: how the rows lie in the variables
* `Variables.addRows?_steps`: adding them in order stores all of them
-/
import Mathlib
import PageServer.Template.Variables
import PageServer.Proofs.Template.Names

namespace PageServer

/-! ## Tables -/

/-- Of two things that are set for a name the second one counts. -/
theorem Table.insert_insert {α : Type} (name : Text) (first second : α) (table : Table α) :
    insert name second (insert name first table) = insert name second table := by
  induction table with
  | nil => simp [insert]
  | cons entry rest ih =>
      obtain ⟨other, old⟩ := entry
      by_cases hname : name = other
      · simp [insert, hname]
      · by_cases hbefore : Text.before name other <;> simp [insert, hname, hbefore, ih]

/-! ## Rows -/

/-- Rows in order, each with the rows inside it. -/
inductive Forest where
  /-- No row. -/
  | nil
  /-- A row, the rows inside it, and the rows behind it. -/
  | row (fields : Fields) (inside rest : Forest)

namespace Forest

/-- The number of rows, without those inside them. -/
def width : Forest → Nat
  | nil => 0
  | row _ _ rest => rest.width + 1

/-- The number of rows that lie inside each other at most. -/
def depth : Forest → Nat
  | nil => 0
  | row _ inside rest => max (inside.depth + 1) rest.depth

/-- No row has a field that is named like the loop inside it. -/
def Free : List Text → Forest → Prop
  | _, nil => True
  | segments, row fields inside rest =>
    (∀ segment ∈ segments.tail.head?, Table.get? segment fields = none) ∧
      Free segments.tail inside ∧ Free segments rest

/-- The rows in order, each one before those inside it and with the path of its loop. -/
def steps : List Text → Forest → List (List Text × Fields)
  | _, nil => []
  | [], row _ _ _ => []
  | segment :: deeper, row fields inside rest =>
    ([segment], fields) ::
      ((steps deeper inside).map fun step => (segment :: step.1, step.2)) ++
        steps (segment :: deeper) rest

/-- The fields of a row, or the variables of a page, with a loop of some rows. -/
def holding (segments : List Text) (rows : List Fields) (fields : Fields) : Fields :=
  match segments, rows with
  | segment :: _, first :: others => Table.insert segment (.rows (first :: others)) fields
  | _, _ => fields

/-- The rows as they are stored, each one with the loop of those inside it. -/
def stored : List Text → Forest → List Fields
  | _, nil => []
  | segments, row fields inside rest =>
    holding segments.tail (stored segments.tail inside) fields :: stored segments rest

/-- A row is stored for each of the rows. -/
theorem length_stored (segments : List Text) (forest : Forest) :
    (forest.stored segments).length = forest.width := by
  induction forest generalizing segments with
  | nil => rfl
  | row fields inside rest _ ih => rw [stored, List.length_cons, ih, width]

/-- The path of a row is one of names of loops. -/
theorem of_mem_steps {segments : List Text} {forest : Forest} :
    ∀ step ∈ forest.steps segments, step.1 ≠ [] ∧ step.1 ⊆ segments := by
  induction forest generalizing segments with
  | nil => simp [steps]
  | row fields inside rest ihinside ihrest =>
      cases segments with
      | nil => simp [steps]
      | cons segment deeper =>
          rw [steps, List.cons_append, List.forall_mem_cons, List.forall_mem_append]
          refine ⟨⟨List.cons_ne_nil _ _, by simp⟩, fun step hstep => ?_, ihrest⟩
          obtain ⟨inner, hinner, rfl⟩ := List.mem_map.mp hstep
          refine ⟨List.cons_ne_nil _ _, List.cons_subset_cons segment ?_⟩
          exact (ihinside inner hinner).2

end Forest

namespace Variables

open Forest (holding)

/-! ## Adding rows -/

/-- Adds rows one by one, each to the loop at the end of a path. -/
def appendRows? (steps : List (List Text × Fields)) (fields : Fields) : Option Fields :=
  steps.foldlM (fun fields step => appendRow? step.2 step.1 fields) fields

theorem appendRows?_cons (step : List Text × Fields) (steps : List (List Text × Fields))
    (fields : Fields) :
    appendRows? (step :: steps) fields =
      (appendRow? step.2 step.1 fields).bind (appendRows? steps) := rfl

theorem appendRows?_append (first second : List (List Text × Fields)) (fields : Fields) :
    appendRows? (first ++ second) fields =
      (appendRows? first fields).bind (appendRows? second) := by
  unfold appendRows?
  rw [List.foldlM_append]
  rfl

/-- A row goes behind those of its loop. -/
theorem appendRow?_singleton {segment : Text} (h : segment ≠ []) (row fields : Fields) :
    appendRow? row [segment] fields =
      some (Table.insert segment (.rows (rowsOf (Table.get? segment fields) ++ [row])) fields) := by
  rw [appendRow?, if_neg (by simpa using h)]

/-- A path that goes on behind a loop leads into the last row of this loop. -/
theorem appendRow?_cons {path : List Text} (h : path ≠ []) (segment : Text)
    (row last fields : Fields) (rows : List Fields) :
    appendRow? row (segment :: path) (Table.insert segment (.rows (rows ++ [last])) fields) =
      (appendRow? row path last).map fun last' =>
        Table.insert segment (.rows (rows ++ [last'])) fields := by
  cases path with
  | nil => contradiction
  | cons next path =>
      have hrows : rowsOf (Table.get? segment
          (Table.insert segment (.rows (rows ++ [last])) fields)) = rows ++ [last] := by
        rw [Table.get?_insert_self, rowsOf]
      rw [appendRow?, hrows, List.getLast?_concat, List.dropLast_concat]
      · simp only [Table.insert_insert]
      · exact List.cons_ne_nil next path

/-- Rows with such paths are added inside the last row. -/
theorem appendRows?_map_cons (segment : Text) {steps : List (List Text × Fields)}
    (h : ∀ step ∈ steps, step.1 ≠ []) (last fields : Fields) (rows : List Fields) :
    appendRows? (steps.map fun step => (segment :: step.1, step.2))
        (Table.insert segment (.rows (rows ++ [last])) fields) =
      (appendRows? steps last).map fun last' =>
        Table.insert segment (.rows (rows ++ [last'])) fields := by
  induction steps generalizing last with
  | nil => rfl
  | cons step steps ih =>
      obtain ⟨hstep, hsteps⟩ := List.forall_mem_cons.mp h
      rw [List.map_cons, appendRows?_cons, appendRows?_cons, appendRow?_cons hstep]
      cases appendRow? step.2 step.1 last with
      | none => rfl
      | some last' => exact ih hsteps last'

/-- If the loop is not there yet, the first row makes it. -/
theorem appendRows?_of_unset {segments : List Text} {forest : Forest} {fields : Fields}
    (hsegments : ∀ segment ∈ segments, segment ≠ []) (hdepth : forest.depth ≤ segments.length)
    (hunset : ∀ segment ∈ segments.head?, Table.get? segment fields = none)
    (h : ∀ segment ∈ segments.head?,
      appendRows? (forest.steps segments) (Table.insert segment (.rows []) fields) =
        some (Table.insert segment (.rows (forest.stored segments)) fields)) :
    appendRows? (forest.steps segments) fields =
      some (holding segments (forest.stored segments) fields) := by
  cases forest with
  | nil => cases segments <;> rfl
  | row first inside rest =>
      cases segments with
      | nil => simp [Forest.depth] at hdepth
      | cons segment deeper =>
          have hsegment : segment ≠ [] := hsegments segment List.mem_cons_self
          have hsame : appendRow? first [segment] fields =
              appendRow? first [segment] (Table.insert segment (.rows []) fields) := by
            rw [appendRow?_singleton hsegment, appendRow?_singleton hsegment,
              hunset segment rfl, Table.get?_insert_self, Table.insert_insert]
            rfl
          have hfilled := h segment rfl
          rw [Forest.steps, List.cons_append, appendRows?_cons] at hfilled ⊢
          rw [hsame, hfilled]
          rfl

/-- **Rows that are added in order are stored behind the rows that were there.** -/
theorem appendRows?_steps {segment : Text} {deeper : List Text} {forest : Forest}
    (hsegments : ∀ other ∈ segment :: deeper, other ≠ [])
    (hdepth : forest.depth ≤ deeper.length + 1) (hfree : forest.Free (segment :: deeper))
    (rows : List Fields) (fields : Fields) :
    appendRows? (forest.steps (segment :: deeper)) (Table.insert segment (.rows rows) fields) =
      some (Table.insert segment (.rows (rows ++ forest.stored (segment :: deeper))) fields) := by
  induction forest generalizing segment deeper rows fields with
  | nil => simp [Forest.steps, Forest.stored, appendRows?]
  | row first inside rest ihinside ihrest =>
      obtain ⟨hsegment, hdeeper⟩ := List.forall_mem_cons.mp hsegments
      obtain ⟨hchild, hfreeInside, hfreeRest⟩ := hfree
      rw [Forest.depth, Nat.max_le] at hdepth
      -- the row itself
      have hfirst : appendRow? first [segment] (Table.insert segment (.rows rows) fields) =
          some (Table.insert segment (.rows (rows ++ [first])) fields) := by
        rw [appendRow?_singleton hsegment, Table.get?_insert_self, Table.insert_insert]
        rfl
      -- the rows inside it, in whose loop there was none before
      have hinside : appendRows? (inside.steps deeper) first =
          some (holding deeper (inside.stored deeper) first) := by
        apply appendRows?_of_unset hdeeper (by omega) hchild
        intro next hnext
        obtain ⟨others, rfl⟩ := List.head?_eq_some_iff.mp hnext
        exact ihinside hdeeper (by simpa using hdepth.1) hfreeInside [] first
      have hpaths : ∀ step ∈ inside.steps deeper, step.1 ≠ [] :=
        fun step hstep => (Forest.of_mem_steps step hstep).1
      rw [Forest.steps, List.cons_append, appendRows?_cons, hfirst, Option.bind_some,
        appendRows?_append, appendRows?_map_cons segment hpaths, hinside]
      -- the rows behind it
      rw [Option.map_some, Option.bind_some, ihrest hsegments hdepth.2 hfreeRest,
        List.append_assoc]
      rfl

/-! ## Names of loops -/

/-- Adds rows one by one, each to the loop of a name. -/
def addRows? (calls : List (Text × Fields)) (vars : Variables) : Option Variables :=
  calls.foldlM (fun vars call => vars.addRow? call.1 call.2) vars

/-- A loop whose name is joined from the parts of a path is the one at the end of the path. -/
theorem addRows?_map_join {steps : List (List Text × Fields)}
    (h : ∀ step ∈ steps, Reference.IsScope step.1) (vars : Variables) :
    vars.addRows? (steps.map fun step => (Text.join "." step.1, step.2)) =
      (appendRows? steps vars.fields).map fun fields => { vars with fields } := by
  induction steps generalizing vars with
  | nil => rfl
  | cons step steps ih =>
      obtain ⟨hstep, hsteps⟩ := List.forall_mem_cons.mp h
      rw [List.map_cons, appendRows?_cons, addRows?, List.foldlM_cons, addRow?, hstep.splitOn_join]
      cases appendRow? step.2 step.1 vars.fields with
      | none => rfl
      | some fields => exact ih hsteps { vars with fields }

end Variables

namespace Forest

/-- The rows in order, each with the name of its loop. -/
def calls (segments : List Text) (forest : Forest) : List (Text × Fields) :=
  (forest.steps segments).map fun step => (Text.join "." step.1, step.2)

end Forest

/-- **Rows that are added in order, each before those inside it, are all stored.** -/
theorem Variables.addRows?_calls {segments : List Text} {forest : Forest} {vars : Variables}
    (hsegments : ∀ segment ∈ segments, segment ≠ [] ∧ ∀ c ∈ segment, Reference.isLoopChar c = true)
    (hdepth : forest.depth ≤ segments.length) (hfree : forest.Free segments)
    (hunset : ∀ segment ∈ segments.head?, Table.get? segment vars.fields = none) :
    vars.addRows? (forest.calls segments) = some
      { vars with fields := Forest.holding segments (forest.stored segments) vars.fields } := by
  have hfilled : ∀ segment ∈ segments, segment ≠ [] :=
    fun segment hsegment => (hsegments segment hsegment).1
  have hscopes : ∀ step ∈ forest.steps segments, Reference.IsScope step.1 := by
    intro step hstep
    obtain ⟨hne, hsub⟩ := Forest.of_mem_steps step hstep
    exact ⟨hne, fun part hpart => (hsegments part (hsub hpart)).1,
      fun part hpart => (hsegments part (hsub hpart)).2⟩
  rw [Forest.calls, addRows?_map_join hscopes, appendRows?_of_unset hfilled hdepth hunset]
  · rfl
  · intro segment hsegment
    obtain ⟨deeper, rfl⟩ := List.head?_eq_some_iff.mp hsegment
    exact appendRows?_steps hfilled hdepth hfree [] vars.fields

end PageServer
