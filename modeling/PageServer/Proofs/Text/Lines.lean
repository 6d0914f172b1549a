/-
# The line of a place

A place in a text is on the line between the last line feed before it and the
next one behind it. The number of this line is one more than the line feeds
before the place, and under that number the line is found among the lines of the
text, but for a carriage return at its end.

* `Text.lineAround`: the line of a place
* `Text.splitOn_lineAround`: where it is among the pieces between line feeds
* `Text.lineAt_of_place`: what is shown for it if it is not blank
-/
import PageServer.Proofs.Text.Cutting
import PageServer.Proofs.Text.NearestLine

namespace PageServer.Text

/-- The line of a place: what is behind the last line feed before it, up to the next one. -/
def lineAround (t : Text) (offset : Nat) : Text :=
  (t.take offset).rtakeWhile (· ≠ '\n') ++ (t.drop offset).takeWhile (· ≠ '\n')

/-! ## Pieces between line feeds -/

/-- There is one piece more than separators. -/
theorem length_splitOn (sep : Char) (t : Text) : (splitOn sep t).length = t.count sep + 1 := by
  induction t with
  | nil => rfl
  | cons c rest ih =>
      by_cases hc : c = sep
      · rw [splitOn, if_pos hc, List.length_cons, ih, hc, List.count_cons_self]
      · rw [splitOn_cons_of_ne hc, List.length_modifyHead, ih, List.count_cons_of_ne hc]

/-- What is behind the last separator of a text. -/
theorem rtakeWhile_append {sep : Char} {after : Text} (h : sep ∉ after) (before : Text) :
    (before ++ sep :: after).rtakeWhile (· ≠ sep) = after := by
  have hafter : ∀ c ∈ after.reverse, decide (c ≠ sep) = true := by
    intro c hc
    exact decide_eq_true fun heq => h (heq ▸ List.mem_reverse.mp hc)
  rw [List.rtakeWhile, List.reverse_append, List.reverse_cons, List.append_assoc,
    List.takeWhile_append_of_pos hafter]
  simp

/-- A first line goes on up to the next line feed. -/
theorem getElem?_zero_splitOn {sep : Char} {start : Text} (h : sep ∉ start) (after : Text) :
    (splitOn sep (start ++ after))[0]? = some (start ++ after.takeWhile (· ≠ sep)) := by
  have hstart : ∀ c ∈ start, decide (c ≠ sep) = true := by
    intro c hc
    exact decide_eq_true fun heq => h (heq ▸ hc)
  rw [← List.head?_eq_getElem?, head?_splitOn, firstPart, List.takeWhile_append_of_pos hstart]

/-- **The line of a place is the piece with as many others before it as there are line feeds.** -/
theorem splitOn_lineAround (t : Text) (offset : Nat) :
    (splitOn '\n' t)[(t.take offset).count '\n']? = some (lineAround t offset) := by
  have ht := List.take_append_drop offset t
  rw [lineAround]
  generalize t.take offset = before at ht ⊢
  generalize t.drop offset = after at ht ⊢
  subst ht
  by_cases hfeed : '\n' ∈ before
  · obtain ⟨above, start, rfl, hstart⟩ := exists_last_of_mem hfeed
    have hcount : (above ++ '\n' :: start).count '\n' = (splitOn '\n' above).length := by
      rw [length_splitOn, List.count_append, List.count_cons_self,
        List.count_eq_zero_of_not_mem hstart]
    rw [hcount, List.append_assoc, List.cons_append, splitOn_append,
      List.getElem?_append_right (le_refl _), Nat.sub_self, getElem?_zero_splitOn hstart,
      rtakeWhile_append hstart]
  · have hall : ∀ c ∈ before, decide (c ≠ '\n') = true := by
      intro c hc
      exact decide_eq_true fun heq => hfeed (heq ▸ hc)
    rw [List.count_eq_zero_of_not_mem hfeed, getElem?_zero_splitOn hfeed,
      List.rtakeWhile_eq_self_iff.mpr hall]

/-! ## Lines -/

/-- The return before a line feed is blank. -/
theorem trim_dropReturn (line : Text) : trim (dropReturn line) = trim line := by
  unfold dropReturn
  split
  · rename_i start hcut
    obtain ⟨rfl, -⟩ := cutLast_eq_some_iff.mp hcut
    have hnone : ∀ c ∈ ([] : Text), isBlank c := by simp
    have hreturn : ∀ c ∈ ['\r'], isBlank c := by simp [isBlank]
    exact (trimBy_append hnone hreturn start).symm
  · rfl

/-- A piece that is not empty is one of the lines. -/
theorem exists_getElem?_lines {t piece : Text} {n : Nat} (h : (splitOn '\n' t)[n]? = some piece)
    (hpiece : piece ≠ []) : ∃ line, (lines t)[n]? = some line ∧ trim line = trim piece := by
  unfold lines
  generalize splitOn '\n' t = pieces at h
  dsimp only
  obtain ⟨hn, -⟩ := List.getElem?_eq_some_iff.mp h
  have hlength : (pieces.dropLast.map dropReturn).length = pieces.length - 1 := by simp
  by_cases hlast : n < pieces.length - 1
  · -- a line feed follows
    refine ⟨dropReturn piece, ?_, trim_dropReturn piece⟩
    have hended : (pieces.dropLast.map dropReturn)[n]? = some (dropReturn piece) := by
      rw [List.getElem?_map, List.getElem?_dropLast, if_pos hlast, h, Option.map_some]
    split
    · rw [List.getElem?_append_left (by omega), hended]
    · exact hended
  · obtain ⟨c, last, rfl⟩ := List.exists_cons_of_ne_nil hpiece
    have hend : pieces.getLast? = some (c :: last) := by
      rw [List.getLast?_eq_getElem?, ← h]
      congr 1
      omega
    refine ⟨c :: last, ?_, rfl⟩
    rw [hend]
    dsimp only
    rw [List.getElem?_append_right (by omega), hlength, List.getElem?_singleton, if_pos (by omega)]

/-- **For a place with a character that is not blank its own line is shown.** -/
theorem lineAt_of_place {t : Text} {offset : Nat} {c : Char} (h : t[offset]? = some c)
    (hc : isBlank c = false) :
    lineAt t (1 + (t.take offset).count '\n') = trim (lineAround t offset) := by
  have hfeed : c ≠ '\n' := by
    rintro rfl
    contradiction
  have hmem : c ∈ lineAround t offset := by
    obtain ⟨hlength, rfl⟩ := List.getElem?_eq_some_iff.mp h
    rw [lineAround, List.drop_eq_getElem_cons hlength, List.takeWhile_cons,
      if_pos (decide_eq_true hfeed)]
    exact List.mem_append_right _ List.mem_cons_self
  obtain ⟨line, hline, htrim⟩ :=
    exists_getElem?_lines (splitOn_lineAround t offset) (List.ne_nil_of_mem hmem)
  have hblank : ¬ IsBlankLine line := by
    rw [← trim_eq_nil_iff, htrim, trim_eq_nil_iff]
    intro hall
    rw [hall c hmem] at hc
    contradiction
  rw [lineAt, nearestLine_of_getElem? hline hblank, htrim]

end PageServer.Text
