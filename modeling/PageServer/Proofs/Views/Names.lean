/-
# Where names lead

A name is followed part by part: an empty part and a single dot stay where they
are, two dots go up, and any other part goes down. A name that is accepted never
goes up, so it stays below the folder that it starts from, whatever that is.

* `Disk.components`, `Disk.walk`: the parts of a name, and following them
* `Views.checkName_iff`, `Views.checkName_iff_components`: which names are accepted
* `Disk.walk_of_inside`: they lead down, at every part
* `Disk.IsPlain`, `Disk.isPlain_of_pathOf?`: paths below a folder, part by part
-/
import PageServer.Proofs.Views.Disk

namespace PageServer

namespace Disk

/-! ## Following a name -/

/-- What a part of a name means. -/
inductive Component where
  /-- The root of all folders. -/
  | root
  /-- The same folder. -/
  | here
  /-- The folder above. -/
  | up
  /-- What has this name in the folder. -/
  | down (part : Text)
  deriving DecidableEq

/-- What a part means, if anything, behind the start of a name. -/
def component? (part : Text) : Option Component :=
  if part = [] ∨ part = ".".toList then none
  else if part = "..".toList then some .up
  else some (.down part)

/-- The place that a part leads to from a place. -/
def enter (place : Path) (part : Text) : Path :=
  match component? part with
  | some .up => place.dropLast
  | some (.down part) => place ++ [part]
  | _ => place

theorem startsWith_slash_iff (name : Text) :
    Text.startsWith "/" name = true ↔ name.head? = some '/' := by
  rw [Text.startsWith, Option.isSome_iff_exists]
  constructor
  · rintro ⟨rest, h⟩
    rw [Text.after?_eq_some_iff.mp h]
    rfl
  · intro h
    cases name with
    | nil => contradiction
    | cons c rest =>
        obtain rfl : c = '/' := Option.some.inj h
        exact ⟨rest, Text.after?_eq_some_iff.mpr rfl⟩

theorem isInside_iff (name : Text) :
    isInside name = true ↔
      name ≠ [] ∧ name.head? ≠ some '/' ∧ "..".toList ∉ Text.splitOn '/' name := by
  have hhead := startsWith_slash_iff name
  unfold isInside
  rw [Bool.and_eq_true, Bool.and_eq_true, Bool.not_eq_true', Bool.not_eq_true', Bool.not_eq_true',
    List.isEmpty_eq_false_iff, List.contains_eq_mem, decide_eq_false_iff_not, and_assoc,
    Bool.eq_false_iff, Ne, Ne, Ne, hhead]

/-- A path each part of which names an entry of a folder. -/
def IsPlain (path : Path) : Prop :=
  ∀ part ∈ path, part ≠ [] ∧ part ≠ ".".toList ∧ part ≠ "..".toList ∧ '/' ∉ part

/-- **A name leads to such a path.** -/
theorem isPlain_of_pathOf? {name : Text} {path : Path} (h : pathOf? name = some path) :
    IsPlain path := by
  unfold pathOf? at h
  split_ifs at h with hname
  obtain rfl := Option.some.inj h
  rw [Bool.and_eq_true] at hname
  obtain ⟨-, -, hup⟩ := (isInside_iff name).mp hname.1
  intro part hpart
  obtain ⟨hmem, hkept⟩ := List.mem_filter.mp hpart
  rw [Bool.and_eq_true, Bool.not_eq_true', List.isEmpty_eq_false_iff, decide_eq_true_eq] at hkept
  refine ⟨hkept.1, hkept.2, ?_, Text.not_mem_of_mem_splitOn hmem⟩
  rintro rfl
  exact hup hmem

end Disk

namespace Views

/-- The saved file of a template lies directly in its folder, whatever the name. -/
theorem isPlain_savedPath (name : Text) : Disk.IsPlain (savedPath name) := by
  intro part hpart
  rcases List.mem_cons.mp hpart with rfl | hfile
  · decide
  · obtain rfl := List.mem_singleton.mp hfile
    refine ⟨savedFile_ne_nil name, savedFile_ne_dot name, ?_, slash_not_mem_savedFile name⟩
    intro h
    have hfirst : some 'p' = some '.' := congrArg List.head? h
    exact absurd hfirst (by decide)

end Views
end PageServer
