/-
# Texts written character by character

A text whose characters are each written as some text: where a character of the
result comes from, and how replacing one character by a text is undone.

* `Text.exists_of_flatMap_eq`: a character of the result stands in what one character is written as
* `Text.replaceAll_singleton`: replacing one character writes each character by itself
* `Text.replaceAll_undone`: it is undone if the text did not hold the start of the replacement
-/
import Mathlib
import PageServer.Text.Basic

namespace PageServer.Text

/-- **A character of a text that is written character by character stands in what one of the
characters is written as, with the rest of this around it.** -/
theorem exists_of_flatMap_eq {f : Char → Text} {t before after : Text} {d : Char}
    (h : t.flatMap f = before ++ d :: after) :
    ∃ c ∈ t, ∃ left right, f c = left ++ d :: right ∧ left <:+ before ∧ right <+: after := by
  induction t generalizing before with
  | nil => simp at h
  | cons first t ih =>
      rw [List.flatMap_cons] at h
      have hlater {before' : Text} (h : t.flatMap f = before' ++ d :: after)
          (hbefore : before' <:+ before) :
          ∃ c ∈ first :: t, ∃ left right,
            f c = left ++ d :: right ∧ left <:+ before ∧ right <+: after := by
        obtain ⟨c, hc, left, right, heq, hleft, hright⟩ := ih h
        exact ⟨c, List.mem_cons_of_mem first hc, left, right, heq, hleft.trans hbefore, hright⟩
      rcases List.append_eq_append_iff.mp h with ⟨more, rfl, hrest⟩ | ⟨more, hfirst, hmore⟩
      · exact hlater hrest (List.suffix_append _ _)
      · cases more with
        | nil =>
            have hmore' : t.flatMap f = [] ++ d :: after := hmore.symm
            exact hlater hmore' List.nil_suffix
        | cons e more =>
            obtain ⟨rfl, rfl⟩ := List.cons.inj hmore
            exact ⟨first, List.mem_cons_self, before, more, hfirst, List.suffix_rfl,
              List.prefix_append _ _⟩

/-- **Replacing a character writes each character by itself.** -/
theorem replaceAll_singleton (c : Char) (new t : Text) :
    replaceAll [c] new t = t.flatMap fun d => if d = c then new else [d] := by
  rw [replaceAll]
  induction t with
  | nil => rfl
  | cons d t ih =>
      rw [replaceFrom, List.flatMap_cons]
      by_cases h : d = c
      · rw [if_pos ⟨h, rfl⟩, if_pos h, List.length_nil, ih]
      · rw [if_neg fun hboth => h hboth.1, if_neg h, ih, List.singleton_append]

/-- The rest of a hit is passed over. -/
theorem replaceFrom_append (first : Char) (others new skipped rest : Text) :
    replaceFrom first others new skipped.length (skipped ++ rest) =
      replaceFrom first others new 0 rest := by
  induction skipped with
  | nil => rfl
  | cons c skipped ih => exact ih

/-- **Replacing a character is undone in a text that does not hold the first character of what it is
replaced by.** -/
theorem replaceAll_undone {first : Char} {t : Text} (h : first ∉ t) (c : Char) (others : Text) :
    replaceAll (first :: others) [c] (replaceAll [c] (first :: others) t) = t := by
  rw [replaceAll_singleton, replaceAll]
  induction t with
  | nil => rfl
  | cons d t ih =>
      obtain ⟨hne, hrest⟩ := List.ne_and_not_mem_of_not_mem_cons h
      rw [List.flatMap_cons]
      by_cases hd : d = c
      · have hstart (rest : Text) : startsWith others (others ++ rest) = true := by
          rw [startsWith, after?_eq_some_iff.mpr rfl, Option.isSome_some]
        rw [if_pos hd, List.cons_append, replaceFrom, if_pos ⟨rfl, hstart _⟩, replaceFrom_append,
          ih hrest, List.singleton_append, hd]
      · rw [if_neg hd, List.singleton_append, replaceFrom, if_neg fun hboth => hne hboth.1.symm,
          ih hrest]

end PageServer.Text
