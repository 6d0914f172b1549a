/-
# Where a text is cut

A text that is cut at a separator is put together again from the two sides, and
the separator is not found on one of them.

* `Text.cut_eq_some_iff`: the first place of a character
* `Text.cutLast_eq_some_iff`: its last place
* `Text.cutAt_append`, `Text.eq_of_cutAt`, `Text.cutAt_append_of_cutAt`: the first place of a text
* `Text.splitOn_join`, `Text.join_splitOn`: all places of a character
-/
import Mathlib
import PageServer.Proofs.Text.Basic

namespace PageServer.Text

/-! ## A character -/

/-- A text without a character is not cut at it. -/
theorem cut_of_not_mem {sep : Char} {t : Text} (h : sep ∉ t) : cut sep t = none := by
  induction t with
  | nil => rfl
  | cons c rest ih =>
      obtain ⟨hc, hrest⟩ := List.ne_and_not_mem_of_not_mem_cons h
      rw [cut, if_neg (Ne.symm hc), ih hrest]
      rfl

/-- A text is cut at the first place of a character. -/
theorem cut_append {sep : Char} {before : Text} (h : sep ∉ before) (after : Text) :
    cut sep (before ++ sep :: after) = some (before, after) := by
  induction before with
  | nil => simp [cut]
  | cons c before ih =>
      obtain ⟨hc, hbefore⟩ := List.ne_and_not_mem_of_not_mem_cons h
      rw [List.cons_append, cut, if_neg (Ne.symm hc), ih hbefore]
      rfl

/-- The sides of the first place of a character, which is not on the left one. -/
theorem cut_eq_some_iff {sep : Char} {t before after : Text} :
    cut sep t = some (before, after) ↔ t = before ++ sep :: after ∧ sep ∉ before := by
  constructor
  · intro h
    have hmem : sep ∈ t := by
      by_contra hnot
      rw [cut_of_not_mem hnot] at h
      contradiction
    obtain ⟨first, last, rfl, hfirst⟩ := List.eq_append_cons_of_mem hmem
    rw [cut_append hfirst] at h
    obtain ⟨rfl, rfl⟩ := Prod.mk.inj (Option.some.inj h)
    exact ⟨rfl, hfirst⟩
  · rintro ⟨rfl, h⟩
    exact cut_append h after

/-- A text without a character has no last place of it. -/
theorem cutLast_of_not_mem {sep : Char} {t : Text} (h : sep ∉ t) : cutLast sep t = none := by
  induction t with
  | nil => rfl
  | cons c rest ih =>
      obtain ⟨hc, hrest⟩ := List.ne_and_not_mem_of_not_mem_cons h
      rw [cutLast, ih hrest]
      exact if_neg (Ne.symm hc)

/-- A text is cut at the last place of a character. -/
theorem cutLast_append {sep : Char} {after : Text} (h : sep ∉ after) (before : Text) :
    cutLast sep (before ++ sep :: after) = some (before, after) := by
  induction before with
  | nil =>
      rw [List.nil_append, cutLast, cutLast_of_not_mem h]
      exact if_pos rfl
  | cons c before ih =>
      rw [List.cons_append, cutLast, ih]

/-- A character that is in a text has a last place there. -/
theorem exists_last_of_mem {sep : Char} {t : Text} (h : sep ∈ t) :
    ∃ before after, t = before ++ sep :: after ∧ sep ∉ after := by
  -- the last place is the first one from behind
  obtain ⟨after, before, hreverse, hafter⟩ :=
    List.eq_append_cons_of_mem (List.mem_reverse.mpr h)
  refine ⟨before.reverse, after.reverse, ?_, by simpa using hafter⟩
  rw [← List.reverse_reverse t, hreverse]
  simp

/-- The sides of the last place of a character, which is not on the right one. -/
theorem cutLast_eq_some_iff {sep : Char} {t before after : Text} :
    cutLast sep t = some (before, after) ↔ t = before ++ sep :: after ∧ sep ∉ after := by
  constructor
  · intro h
    have hmem : sep ∈ t := by
      by_contra hnot
      rw [cutLast_of_not_mem hnot] at h
      contradiction
    obtain ⟨first, last, rfl, hlast⟩ := exists_last_of_mem hmem
    rw [cutLast_append hlast] at h
    obtain ⟨rfl, rfl⟩ := Prod.mk.inj (Option.some.inj h)
    exact ⟨rfl, hlast⟩
  · rintro ⟨rfl, h⟩
    exact cutLast_append h before

/-- Only a text without a character has no last place of it. -/
theorem cutLast_eq_none_iff {sep : Char} {t : Text} : cutLast sep t = none ↔ sep ∉ t := by
  constructor
  · intro h hmem
    obtain ⟨first, last, rfl, hlast⟩ := exists_last_of_mem hmem
    rw [cutLast_append hlast] at h
    contradiction
  · exact cutLast_of_not_mem

/-! ## A text -/

/-- A text begins with `start` exactly if it does so as a list. -/
theorem startsWith_iff {start t : Text} : startsWith start t = true ↔ start <+: t := by
  rw [startsWith, Option.isSome_iff_exists]
  constructor
  · rintro ⟨rest, h⟩
    exact ⟨rest, (after?_eq_some_iff.mp h).symm⟩
  · rintro ⟨rest, rfl⟩
    exact ⟨rest, after?_eq_some_iff.mpr rfl⟩

/-- Nothing follows a start exactly if the text does not begin with it. -/
theorem after?_eq_none_iff {start t : Text} : after? start t = none ↔ ¬ start <+: t := by
  rw [← startsWith_iff, startsWith, Option.not_isSome_iff_eq_none]

/-- A text is not cut at another exactly if that does not occur in it. -/
theorem cutAt_eq_none_iff {sep t : Text} : cutAt sep t = none ↔ ¬ sep <:+: t := by
  induction t with
  | nil => simp [cutAt, after?_eq_none_iff]
  | cons c t ih =>
      rw [cutAt, List.infix_cons_iff, not_or, ← after?_eq_none_iff]
      cases after? sep (c :: t) with
      | none => simpa using ih
      | some rest => simp

/-- A mark whose first character comes once does not start before a place where it stands, unless
it ends there too. -/
theorem infix_of_prefix_append {s : Char} {sep before after : Text} (hs : s ∉ sep)
    (h : s :: sep <+: before ++ s :: sep ++ after) (hne : before ≠ []) :
    s :: sep <:+: before := by
  have hbefore : before <+: before ++ s :: sep ++ after := ⟨s :: sep ++ after, by simp⟩
  rcases List.prefix_or_prefix_of_prefix h hbefore with hshort | ⟨last, hlong⟩
  · exact hshort.isInfix
  · -- the mark ends behind `before`, in another mark
    obtain ⟨rest, hrest⟩ := h
    have hlast : last ++ rest = s :: sep ++ after := by
      have happend : before ++ (last ++ rest) = before ++ (s :: sep ++ after) := by
        rw [← List.append_assoc, hlong, hrest, List.append_assoc]
      exact List.append_cancel_left happend
    cases last with
    | nil => exact ⟨[], [], by simpa using hlong.symm⟩
    | cons c last =>
        obtain ⟨rfl, -⟩ := List.cons.inj hlast
        cases before with
        | nil => contradiction
        | cons d before =>
            obtain ⟨-, rfl⟩ := List.cons.inj hlong
            simp at hs

/-- A text is cut at the first occurrence of a mark whose first character comes once. -/
theorem cutAt_append {s : Char} {sep before : Text} (hs : s ∉ sep)
    (h : ¬ s :: sep <:+: before) (after : Text) :
    cutAt (s :: sep) (before ++ s :: sep ++ after) = some (before, after) := by
  induction before with
  | nil =>
      have hafter : after? (s :: sep) (s :: (sep ++ after)) = some after :=
        after?_eq_some_iff.mpr rfl
      rw [List.nil_append, List.cons_append, cutAt, hafter]
  | cons c before ih =>
      have hnone : after? (s :: sep) (c :: (before ++ s :: sep ++ after)) = none := by
        rw [after?_eq_none_iff]
        intro hbegins
        exact h (infix_of_prefix_append hs hbegins (List.cons_ne_nil c before))
      have hbefore : ¬ s :: sep <:+: before := by
        intro hin
        exact h (List.infix_cons_iff.mpr (Or.inr hin))
      rw [List.cons_append, List.cons_append, cutAt, hnone, ih hbefore]
      rfl

/-- The sides of the first occurrence of a text, which does not occur on the left one. -/
theorem eq_of_cutAt {sep t before after : Text} (h : cutAt sep t = some (before, after)) :
    t = before ++ sep ++ after ∧ (sep ≠ [] → ¬ sep <:+: before) := by
  induction t generalizing before with
  | nil =>
      obtain ⟨rest, hrest, heq⟩ := Option.map_eq_some_iff.mp h
      obtain ⟨rfl, rfl⟩ := Prod.mk.inj heq
      exact ⟨after?_eq_some_iff.mp hrest, by simp⟩
  | cons c t ih =>
      rw [cutAt] at h
      cases hafter : after? sep (c :: t) with
      | some rest =>
          rw [hafter] at h
          obtain ⟨rfl, rfl⟩ := Prod.mk.inj (Option.some.inj h)
          exact ⟨after?_eq_some_iff.mp hafter, by simp⟩
      | none =>
          rw [hafter] at h
          obtain ⟨⟨first, last⟩, hcut, heq⟩ := Option.map_eq_some_iff.mp h
          obtain ⟨rfl, rfl⟩ := Prod.mk.inj heq
          obtain ⟨rfl, hfirst⟩ := ih hcut
          refine ⟨by simp, fun hne hin => ?_⟩
          rcases List.infix_cons_iff.mp hin with hbegins | hwithin
          · apply after?_eq_none_iff.mp hafter
            exact hbegins.trans ⟨sep ++ last, by simp⟩
          · exact hfirst hne hwithin

/-- Where a text is cut does not depend on what follows. -/
theorem cutAt_append_of_cutAt {sep t before after : Text} (h : cutAt sep t = some (before, after))
    (rest : Text) : cutAt sep (before ++ sep ++ rest) = some (before, rest) := by
  have hbegins (u : Text) : after? sep (sep ++ u) = some u := after?_eq_some_iff.mpr rfl
  induction t generalizing before with
  | nil =>
      obtain ⟨last, hlast, heq⟩ := Option.map_eq_some_iff.mp h
      obtain ⟨rfl, rfl⟩ := Prod.mk.inj heq
      obtain ⟨rfl, rfl⟩ := List.append_eq_nil_iff.mp (after?_eq_some_iff.mp hlast).symm
      cases rest <;> rfl
  | cons c t ih =>
      rw [cutAt] at h
      cases hafter : after? sep (c :: t) with
      | some last =>
          rw [hafter] at h
          obtain ⟨rfl, rfl⟩ := Prod.mk.inj (Option.some.inj h)
          have hrest := hbegins rest
          rw [List.nil_append]
          cases heq : sep ++ rest with
          | nil =>
              rw [heq] at hrest
              rw [cutAt, hrest]
              rfl
          | cons d u =>
              rw [heq] at hrest
              rw [cutAt, hrest]
      | none =>
          rw [hafter] at h
          obtain ⟨⟨first, last⟩, hcut, heq⟩ := Option.map_eq_some_iff.mp h
          obtain ⟨rfl, rfl⟩ := Prod.mk.inj heq
          obtain ⟨rfl, -⟩ := eq_of_cutAt hcut
          -- the mark does not begin here, since it would end before what follows
          have hnone : after? sep (c :: (first ++ sep ++ rest)) = none := by
            rw [after?_eq_none_iff] at hafter ⊢
            intro hbegin
            have hshort : sep <+: c :: (first ++ sep) := by
              refine List.prefix_of_prefix_length_le hbegin ⟨rest, by simp⟩ ?_
              simp only [List.length_cons, List.length_append]
              omega
            exact hafter (hshort.trans ⟨last, by simp⟩)
          show cutAt sep (c :: (first ++ sep ++ rest)) = _
          rw [cutAt, hnone, ih hcut]
          rfl

/-! ## All places -/

/-- The pieces of a text are put together again. -/
theorem join_splitOn (sep : Char) (t : Text) : join [sep] (splitOn sep t) = t := by
  rw [splitOn_eq]
  exact List.intercalate_splitOn sep

/-- Pieces without the separator are the pieces of what they are put together to. -/
theorem splitOn_join {sep : Char} {pieces : List Text} (h : ∀ piece ∈ pieces, sep ∉ piece)
    (hne : pieces ≠ []) : splitOn sep (join [sep] pieces) = pieces := by
  rw [splitOn_eq]
  exact List.splitOn_intercalate sep h hne

/-- A first piece stands before a separator and the others. -/
theorem join_cons {pieces : List Text} (h : pieces ≠ []) (sep : Char) (first : Text) :
    join [sep] (first :: pieces) = first ++ sep :: join [sep] pieces := by
  rw [join, List.intercalate_cons_of_ne_nil h, List.append_assoc]
  rfl

/-- A last piece stands behind the others and a separator. -/
theorem join_concat {pieces : List Text} (h : pieces ≠ []) (sep : Char) (last : Text) :
    join [sep] (pieces ++ [last]) = join [sep] pieces ++ sep :: last := by
  induction pieces with
  | nil => contradiction
  | cons first others ih =>
      cases others with
      | nil => simp [join]
      | cons next others =>
          have hne : next :: others ≠ [] := List.cons_ne_nil next others
          rw [List.cons_append, join_cons (List.append_ne_nil_of_left_ne_nil hne [last]), ih hne,
            join_cons hne, List.append_assoc]
          rfl

/-- What is put together begins with its first piece. -/
theorem head?_join {first : Text} (h : first ≠ []) (sep : Text) (others : List Text) :
    (join sep (first :: others)).head? = first.head? := by
  cases others with
  | nil => simp [join]
  | cons next others =>
      rw [join, List.intercalate_cons_cons, List.append_assoc, List.head?_append_of_ne_nil _ h]

/-- It ends with its last piece. -/
theorem getLast?_join {last : Text} (h : last ≠ []) (sep : Char) (pieces : List Text) :
    (join [sep] (pieces ++ [last])).getLast? = last.getLast? := by
  by_cases hne : pieces = []
  · simp [hne, join]
  · obtain ⟨c, rest, rfl⟩ := List.exists_cons_of_ne_nil h
    rw [join_concat hne, List.getLast?_append_cons, List.getLast?_cons_cons]

/-- What is put together holds what the separator and the pieces hold. -/
theorem mem_or_of_mem_join {sep : Text} {c : Char} {pieces : List Text} (h : c ∈ join sep pieces) :
    c ∈ sep ∨ ∃ piece ∈ pieces, c ∈ piece := by
  induction pieces with
  | nil => simp [join] at h
  | cons piece pieces ih =>
      cases pieces with
      | nil =>
          refine Or.inr ⟨piece, List.mem_cons_self, ?_⟩
          simpa [join] using h
      | cons next pieces =>
          rw [join, List.intercalate_cons_cons, List.append_assoc, List.mem_append,
            List.mem_append] at h
          rcases h with hpiece | hsep | hrest
          · exact Or.inr ⟨piece, List.mem_cons_self, hpiece⟩
          · exact Or.inl hsep
          · rcases ih hrest with hsep | ⟨other, hother, hmem⟩
            · exact Or.inl hsep
            · exact Or.inr ⟨other, List.mem_cons_of_mem piece hother, hmem⟩

/-- So it is for a separator of one character. -/
theorem mem_join {sep c : Char} {pieces : List Text} (h : c ∈ join [sep] pieces) :
    c = sep ∨ ∃ piece ∈ pieces, c ∈ piece :=
  (mem_or_of_mem_join h).imp_left List.mem_singleton.mp

end PageServer.Text
