/-
# Setting and reading variables

A variable that may be overwritten is read as it was set, whatever there was on
its path. A map sets each of the variables in it, one after another; their paths
lead apart, so none of them is lost when a later one is set. What is on a path
that neither leads to the variable nor through it is never touched.

* `Variables.Apart`: paths of which neither leads through the other
* `Variables.at?_assign_self`, `Variables.at?_assign_of_apart`: one value on one path
* `Value.PlainKeys`: the keys of a map, at every level
* `Variables.get?_leaves`: what a map sets is there, by induction on the map
* `Variables.get?_after_set`: all of it
-/
import PageServer.Proofs.Template.Overwriting
import PageServer.Proofs.Text.Cutting

namespace PageServer

namespace Variables

/-! ## Paths that lead apart -/

/-- Neither of two paths leads through the other. -/
def Apart (path other : List Text) : Prop := ¬ path <+: other ∧ ¬ other <+: path

theorem Apart.symm {path other : List Text} (h : Apart path other) : Apart other path :=
  ⟨h.2, h.1⟩

/-- Paths that go on behind one that leads apart lead apart as well. -/
theorem Apart.onward {path longer other : List Text} (h : Apart path other)
    (hlonger : path <+: longer) : Apart longer other := by
  constructor
  · exact fun hother => h.1 (hlonger.trans hother)
  · intro hother
    rcases List.prefix_or_prefix_of_prefix hlonger hother with hpath | hpath
    · exact h.1 hpath
    · exact h.2 hpath

/-- Two names behind the same path lead apart. -/
theorem apart_concat {name other : Text} (h : name ≠ other) (path : List Text) :
    Apart (path ++ [name]) (path ++ [other]) := by
  simp [Apart, h, h.symm]

/-! ## One value -/

variable {value : Value} {overwrite : Bool} {fields inner : Fields} {name other : Text}

/-- There is always a map on the way if values may be overwritten. -/
theorem exists_inner? (there : Option Value) : ∃ inner, inner? true there = some inner := by
  rcases there with - | (- | - | - | - | - | inner | -)
  all_goals exact ⟨_, rfl⟩

/-- What is set on a path that may be overwritten is there. -/
theorem at?_assign_self {path : List Text} (h : path ≠ []) :
    Fields.at? path (assign true value path fields) = some value := by
  induction path generalizing fields with
  | nil => contradiction
  | cons name path ih =>
      cases path with
      | nil => exact Table.get?_insert_self name value fields
      | cons next path =>
          have hpath : next :: path ≠ [] := List.cons_ne_nil next path
          obtain ⟨inner, hinner⟩ := exists_inner? (Table.get? name fields)
          rw [assign, hinner]
          · rw [Fields.at?_of_map (Table.get?_insert_self _ _ _) hpath]
            exact ih hpath
          · exact hpath

/-- A path goes on in the map on its way, which has nothing if it takes the place of something
else. -/
theorem at?_of_inner? {path : List Text} (h : path ≠ [])
    (hinner : inner? overwrite (Table.get? name fields) = some inner) :
    Fields.at? (name :: path) fields = Fields.at? path inner := by
  have hempty : Fields.at? path [] = none := by
    rcases path with - | ⟨first, - | ⟨next, rest⟩⟩ <;> rfl
  rw [Fields.at?]
  · cases hfirst : Table.get? name fields with
    | none =>
        rw [hfirst] at hinner
        rw [← Option.some.inj hinner, hempty]
    | some first =>
        rw [hfirst] at hinner
        cases first with
        | map there => rw [← Option.some.inj hinner]
        | null | bool | int | float | str | rows =>
            obtain ⟨-, heq⟩ := Option.ite_none_right_eq_some.mp hinner
            rw [← Option.some.inj heq, hempty]
  · exact h

/-- What is on a path that leads apart stays there. -/
theorem at?_assign_of_apart {path place : List Text} (h : Apart path place) :
    Fields.at? place (assign overwrite value path fields) = Fields.at? place fields := by
  induction path generalizing place fields with
  | nil => exact absurd List.nil_prefix h.1
  | cons name path ih =>
      cases place with
      | nil => exact absurd List.nil_prefix h.2
      | cons first place =>
          by_cases hfirst : name = first
          · subst hfirst
            have hrest : Apart path place := by
              simpa only [Apart, List.prefix_cons_inj] using h
            have hpath : path ≠ [] := fun heq => hrest.1 (heq ▸ List.nil_prefix)
            have hplace : place ≠ [] := fun heq => hrest.2 (heq ▸ List.nil_prefix)
            rw [assign]
            · cases hinner : inner? overwrite (Table.get? name fields) with
              | none => rfl
              | some inner =>
                  rw [at?_of_inner? hplace hinner,
                    Fields.at?_of_map (Table.get?_insert_self _ _ _) hplace]
                  exact ih hrest
            · exact hpath
          · have hhead : (name :: path).head? ≠ some first :=
              fun heq => hfirst (Option.some.inj heq)
            exact Fields.at?_congr (get?_assign hhead fields)

/-! ## One value after another -/

/-- Setting values leaves what is on a path that leads apart from all of theirs. -/
theorem at?_setOnes {place : List Text} {sets : List (Text × Value)}
    (h : ∀ leaf ∈ sets, Apart (Text.splitOn ':' leaf.1) place) (vars : Variables) :
    Fields.at? place (sets.foldl (fun vars leaf => vars.setOne leaf.1 leaf.2) vars).fields =
      Fields.at? place vars.fields := by
  induction sets generalizing vars with
  | nil => rfl
  | cons leaf rest ih =>
      obtain ⟨hleaf, hrest⟩ := List.forall_mem_cons.mp h
      rw [List.foldl_cons, ih hrest]
      exact at?_assign_of_apart hleaf

/-- Setting values leaves whether they may be overwritten. -/
theorem overwrite_setOnes (sets : List (Text × Value)) (vars : Variables) :
    (sets.foldl (fun vars leaf => vars.setOne leaf.1 leaf.2) vars).overwrite = vars.overwrite := by
  induction sets generalizing vars with
  | nil => rfl
  | cons leaf rest ih => exact ih _

/-- A variable that may be overwritten is read as it was set. -/
theorem get?_setOne {vars : Variables} (h : vars.overwrite = true) (name : Text) (value : Value) :
    (vars.setOne name value).get? name = some value := by
  rw [get?, setOne, h]
  exact at?_assign_self (Text.splitOn_ne_nil ':' name)

/-- What is set for a name leaves what is on a path that leads apart from it. -/
theorem get?_set_of_apart (h : Apart (Text.splitOn ':' name) (Text.splitOn ':' other))
    (vars : Variables) (value : Value) : (vars.set name value).get? other = vars.get? other :=
  at?_setOnes (fun leaf hleaf => h.onward (prefix_of_mem_leaves name value leaf hleaf)) vars

end Variables

/-! ## Maps -/

mutual
/-- The keys of a map, and of the maps in it, have no colon, and each comes once. -/
def Value.PlainKeys : Value → Prop
  | .map fields => (fields.map Prod.fst).Nodup ∧ Fields.PlainKeys fields
  | _ => True

/-- The keys of fields have no colon, and those of the maps in them are plain. -/
def Fields.PlainKeys : List (Text × Value) → Prop
  | [] => True
  | (key, value) :: rest => ':' ∉ key ∧ value.PlainKeys ∧ Fields.PlainKeys rest
end

/-- What is within a value at the end of a path: the value itself where the path is empty. -/
def Value.within? : List Text → Value → Option Value
  | [], value => some value
  | path, .map fields => Fields.at? path fields
  | _, _ => none

/-- A path leads to the value with its first name and goes on within it. -/
theorem Fields.at?_cons (name : Text) (path : List Text) (fields : Fields) :
    at? (name :: path) fields = (Table.get? name fields).bind (Value.within? path) := by
  cases path with
  | nil =>
      cases hfirst : Table.get? name fields with
      | none => exact hfirst
      | some first => exact hfirst
  | cons next path =>
      rw [at?]
      · cases hfirst : Table.get? name fields with
        | none => rfl
        | some first => cases first <;> rfl
      · exact List.cons_ne_nil next path

theorem Fields.PlainKeys.not_mem {fields : List (Text × Value)} (h : PlainKeys fields)
    {key : Text} (hkey : key ∈ fields.map Prod.fst) : ':' ∉ key := by
  induction fields with
  | nil => contradiction
  | cons entry rest ih =>
      rcases List.mem_cons.mp hkey with rfl | hrest
      · exact h.1
      · exact ih h.2.2 hrest

namespace Variables

variable {name key : Text} {fields : List (Text × Value)}

/-- The name of what is within a variable begins with the path of the variable. -/
theorem splitOn_prefix_join (name : Text) (path : List Text) :
    Text.splitOn ':' name <+: Text.splitOn ':' (Text.join [':'] (name :: path)) := by
  cases path with
  | nil => simp [Text.join]
  | cons next path =>
      rw [Text.join_cons (List.cons_ne_nil next path), Text.splitOn_append]
      exact List.prefix_append _ _

/-- What other keys of a map set leads apart from all that is within one key. -/
theorem apart_of_mem_leavesOfFields (hcolon : ':' ∉ key) (hfields : Fields.PlainKeys fields)
    (hkey : key ∉ fields.map Prod.fst) (path : List Text) {leaf : Text × Value}
    (hleaf : leaf ∈ leavesOfFields name fields) :
    Apart (Text.splitOn ':' leaf.1)
      (Text.splitOn ':' (Text.join [':'] ((name ++ ':' :: key) :: path))) := by
  rw [leavesOfFields_eq] at hleaf
  obtain ⟨⟨other, value⟩, hentry, hmem⟩ := List.mem_flatMap.mp hleaf
  have hother : other ∈ fields.map Prod.fst := List.mem_map_of_mem hentry
  have hne : other ≠ key := fun heq => hkey (heq ▸ hother)
  have hset := prefix_of_mem_leaves (name ++ ':' :: other) value leaf hmem
  have hplace := splitOn_prefix_join (name ++ ':' :: key) path
  rw [Text.splitOn_append, Text.splitOn_of_not_mem (hfields.not_mem hother)] at hset
  rw [Text.splitOn_append, Text.splitOn_of_not_mem hcolon] at hplace
  exact (((apart_concat hne _).onward hset).symm.onward hplace).symm

mutual
/-- **What a value sets is there**, at the end of each path within it. -/
theorem get?_leaves {kept : Value} (hkept : ∀ inner, kept ≠ .map inner) : ∀ value : Value,
    value.PlainKeys → ∀ (name : Text) (vars : Variables), vars.overwrite = true →
      ∀ path, value.within? path = some kept →
        (vars.set name value).get? (Text.join [':'] (name :: path)) = some kept
  | .map fields, ⟨hkeys, hplain⟩, name, vars, hflag, path, hpath => by
      cases path with
      | nil => exact absurd (Option.some.inj hpath).symm (hkept fields)
      | cons next path =>
          exact get?_leavesOfFields hkept fields hkeys hplain name vars hflag _ hpath
  | .null, _, name, vars, hflag, [], hpath | .bool _, _, name, vars, hflag, [], hpath
  | .int _, _, name, vars, hflag, [], hpath | .float _, _, name, vars, hflag, [], hpath
  | .str _, _, name, vars, hflag, [], hpath | .rows _, _, name, vars, hflag, [], hpath => by
      rw [Text.join, List.intercalate_singleton, ← Option.some.inj hpath]
      exact get?_setOne hflag name _

/-- What the entries of a map set is there: what one sets is apart from all that the later ones
set. -/
theorem get?_leavesOfFields {kept : Value} (hkept : ∀ inner, kept ≠ .map inner) :
    ∀ fields : List (Text × Value), (fields.map Prod.fst).Nodup → Fields.PlainKeys fields →
      ∀ (name : Text) (vars : Variables), vars.overwrite = true →
        ∀ path, Fields.at? path fields = some kept →
          (vars.set name (.map fields)).get? (Text.join [':'] (name :: path)) = some kept
  | [], _, _, _, _, _, path, hpath => by
      cases path with
      | nil => contradiction
      | cons first path => rw [Fields.at?_cons] at hpath; contradiction
  | (key, value) :: rest, hkeys, ⟨hcolon, hvalue, hrest⟩, name, vars, hflag, path, hpath => by
      obtain ⟨hkey, hnodup⟩ := List.nodup_cons.mp hkeys
      cases path with
      | nil => contradiction
      | cons first path =>
          rw [set, leaves, leavesOfFields, List.foldl_append]
          rw [Fields.at?_cons, Table.get?] at hpath
          by_cases hfirst : first = key
          · subst hfirst
            rw [if_pos rfl] at hpath
            have hset := get?_leaves hkept value hvalue (name ++ ':' :: first) vars hflag path hpath
            have hname : Text.join [':'] (name :: first :: path) =
                Text.join [':'] ((name ++ ':' :: first) :: path) := by
              cases path <;> simp [Text.join]
            rw [hname, get?, at?_setOnes fun leaf hleaf =>
              apart_of_mem_leavesOfFields hcolon hrest hkey path hleaf]
            exact hset
          · rw [if_neg hfirst, ← Fields.at?_cons] at hpath
            exact get?_leavesOfFields hkept rest hnodup hrest name _
              ((overwrite_setOnes _ vars).trans hflag) _ hpath
end

/-! ## All of it -/

/-- **A variable that may be overwritten is read as it was set.** A value that is no map is read
under the name, whatever was there and on the way. Of a map whose keys have no colon, and come once
each as keys of a map do, all values that are no maps are read under the name and their keys, at
every level. What is on a path that neither leads to the name nor goes on behind it is the same as
before. -/
theorem get?_after_set {vars : Variables} (hflag : vars.overwrite = true) (name : Text)
    (value : Value) :
    ((∀ fields, value ≠ .map fields) → (vars.set name value).get? name = some value) ∧
    (value.PlainKeys → ∀ fields, value = .map fields →
      ∀ path kept, (∀ inner, kept ≠ .map inner) → Fields.at? path fields = some kept →
        (vars.set name value).get? (Text.join [':'] (name :: path)) = some kept) ∧
    ∀ other, ¬ Text.splitOn ':' name <+: Text.splitOn ':' other →
      ¬ Text.splitOn ':' other <+: Text.splitOn ':' name →
        (vars.set name value).get? other = vars.get? other := by
  refine ⟨fun hvalue => ?_, ?_, fun other hname hother => ?_⟩
  · have hset : vars.set name value = vars.setOne name value := by
      cases value with
      | map fields => exact absurd rfl (hvalue fields)
      | null | bool | int | float | str | rows => rfl
    rw [hset]
    exact get?_setOne hflag name value
  · rintro hplain fields rfl path kept hkept hpath
    obtain ⟨hkeys, hplain⟩ := hplain
    exact get?_leavesOfFields hkept fields hkeys hplain name vars hflag path hpath
  · exact get?_set_of_apart ⟨hname, hother⟩ vars value

/-- A variable with a value where a map is set, and one beside it. -/
def blockedFields : Variables :=
  { fields := [("AB", .map [("", .int 1), ("CD", .int 2)])] }

/-- A map within a map, one of its keys empty. -/
def deepFields : List (Text × Value) :=
  [("EF", .map [("GH", .rows [[]]), ("", .null)]), ("IJ", .str "a")]

/-- The map takes the place of the value; the one beside it stays. -/
theorem get?_after_set_sample :
    blockedFields.overwrite = true ∧ (Value.map deepFields).PlainKeys ∧
      Fields.at? ["EF", ""] deepFields = some .null ∧
      (blockedFields.set "AB:" (.map deepFields)).get? "AB::EF:" = some .null ∧
      (blockedFields.set "AB:" (.map deepFields)).get? "AB:CD" = some (.int 2) ∧
      (blockedFields.set "AB" (.int 3)).get? "AB" = some (.int 3) := by
  have hflag : blockedFields.overwrite = true := rfl
  have hplain : (Value.map deepFields).PlainKeys := by
    simp [deepFields, Value.PlainKeys, Fields.PlainKeys]
  have hpath : Fields.at? ["EF", ""] deepFields = some .null := rfl
  obtain ⟨-, hmap, hapart⟩ := get?_after_set hflag "AB:" (.map deepFields)
  refine ⟨hflag, hplain, hpath, hmap hplain deepFields rfl _ .null nofun hpath,
    hapart "AB:CD" (by decide) (by decide), ?_⟩
  exact (get?_after_set hflag "AB" (.int 3)).1 nofun

end Variables
end PageServer
