/-
# The line that is shown for a number

For a number a line is shown without the blanks at its ends: the last one up to
that number that is not blank, where a number outside the text stands for its
first or last line. If all lines up to there are blank, nothing is shown. The way
up from the line with the number stays inside the text.

* `Text.IsTrimmed`, `Text.isTrimmed_iff`: a text without the blanks at its ends
* `Text.Shown`, `Text.Shown.unique`: what is to be shown of some lines
* `Text.exists_lineUpFrom?`: the way up from a line finds it
* `Text.lineAt_nearest`: so it is what is shown for a number
-/
import PageServer.Text.Line
import PageServer.Proofs.Text.Basic

namespace PageServer.Text

variable {all : List Text} {line shown : Text} {n : Nat}

/-! ## Blanks -/

/-- A line whose characters are all blank. -/
def IsBlankLine (line : Text) : Prop := ∀ c ∈ line, isBlank c = true

/-- What is left of a line without the blanks at its ends. -/
structure IsTrimmed (line shown : Text) : Prop where
  exists_blanks : ∃ before behind, line = before ++ shown ++ behind ∧
    IsBlankLine before ∧ IsBlankLine behind
  head : ∀ c ∈ shown.head?, ¬ isBlank c = true
  last : ∀ c ∈ shown.getLast?, ¬ isBlank c = true

/-- **Trimming leaves just that.** -/
theorem isTrimmed_iff : IsTrimmed line shown ↔ shown = trim line := by
  constructor
  · rintro ⟨⟨before, behind, rfl, hbefore, hbehind⟩, hhead, hlast⟩
    rw [trim, trimBy_append hbefore hbehind, trimBy_eq_self hhead hlast]
  · rintro rfl
    obtain ⟨hhead, hlast⟩ := of_trimBy_eq_self (trimBy_trimBy isBlank line)
    refine ⟨?_, hhead, hlast⟩
    obtain ⟨behind, hbehind, hblank⟩ :=
      exists_eq_dropEndWhile_append isBlank (line.dropWhile isBlank)
    refine ⟨line.takeWhile isBlank, behind, ?_, fun c hc => List.mem_takeWhile_imp hc, hblank⟩
    rw [trim, trimBy, List.append_assoc, ← hbehind, List.takeWhile_append_dropWhile]

/-- Nothing is left of a blank line, and of no other. -/
theorem trim_eq_nil_iff : trim line = [] ↔ IsBlankLine line := by
  constructor
  · intro hnil
    have htrimmed : IsTrimmed line (trim line) := isTrimmed_iff.mpr rfl
    obtain ⟨before, behind, hline, hbefore, hbehind⟩ := htrimmed.exists_blanks
    rw [hline, hnil, List.append_nil]
    exact List.forall_mem_append.mpr ⟨hbefore, hbehind⟩
  · intro hblank
    rw [trim, trimBy, List.dropWhile_eq_nil_iff.mpr hblank]
    rfl

theorem isBlankLine_iff : isBlankLine line = true ↔ IsBlankLine line := by
  rw [isBlankLine, List.isEmpty_iff, trim_eq_nil_iff]

/-! ## What is to be shown -/

/-- What is to be shown of the first `count` lines: the last one that is not blank, trimmed, or
nothing if all of them are blank. -/
inductive Shown (all : List Text) (count : Nat) : Text → Prop
  /-- The line at a place is not blank, but those below it are. -/
  | line (place : Nat) (line shown : Text) (hplace : place < count)
    (hline : all[place]? = some line) (hblank : ¬ IsBlankLine line)
    (hbelow : ∀ lower other, place < lower → lower < count → all[lower]? = some other →
      IsBlankLine other)
    (hshown : IsTrimmed line shown) : Shown all count shown
  /-- All lines are blank. -/
  | nothing (h : ∀ place line, place < count → all[place]? = some line → IsBlankLine line) :
    Shown all count []

/-- There is only one text to be shown. -/
theorem Shown.unique {count : Nat} {other : Text} (h : Shown all count shown)
    (hother : Shown all count other) : other = shown := by
  cases h with
  | nothing hall =>
      cases hother with
      | nothing _ => rfl
      | line place line _ hplace hline hblank _ _ => exact absurd (hall place line hplace hline) hblank
  | line place line _ hplace hline hblank hbelow hshown =>
      cases hother with
      | nothing hall => exact absurd (hall place line hplace hline) hblank
      | line place' line' _ hplace' hline' hblank' hbelow' hshown' =>
          -- neither line is below the other
          have hsame : place = place' := by
            rcases Nat.lt_trichotomy place place' with hlt | heq | hgt
            · exact absurd (hbelow place' line' hlt hplace' hline') hblank'
            · exact heq
            · exact absurd (hbelow' place line hgt hplace hline) hblank
          subst hsame
          obtain rfl := Option.some.inj (hline.symm.trans hline')
          rw [isTrimmed_iff.mp hshown, isTrimmed_iff.mp hshown']

/-- One more line, which is blank, changes nothing. -/
theorem Shown.skip {count : Nat} (h : Shown all count shown) (hline : all[count]? = some line)
    (hblank : IsBlankLine line) : Shown all (count + 1) shown := by
  cases h with
  | nothing hall =>
      refine .nothing fun place other hplace hother => ?_
      rcases Nat.lt_succ_iff_lt_or_eq.mp hplace with hlt | rfl
      · exact hall place other hlt hother
      · obtain rfl := Option.some.inj (hline.symm.trans hother)
        exact hblank
  | line place found _ hplace hfound hsays hbelow hshown =>
      refine .line place found shown (Nat.lt_succ_of_lt hplace) hfound hsays ?_ hshown
      intro lower other hlower hcount hother
      rcases Nat.lt_succ_iff_lt_or_eq.mp hcount with hlt | rfl
      · exact hbelow lower other hlower hlt hother
      · obtain rfl := Option.some.inj (hline.symm.trans hother)
        exact hblank

/-- A last line that is not blank is shown. -/
theorem Shown.last (hline : all[n]? = some line) (hblank : ¬ IsBlankLine line) :
    Shown all (n + 1) (trim line) := by
  refine .line n line _ (Nat.lt_succ_self n) hline hblank ?_ (isTrimmed_iff.mpr rfl)
  intro lower other hlower hcount _
  omega

/-! ## The way up -/

/-- **The way up from a line stays inside the text, and finds what is to be shown.** -/
theorem exists_lineUpFrom? (h : n < all.length) :
    ∃ shown, lineUpFrom? all n = some shown ∧ Shown all (n + 1) shown := by
  induction n with
  | zero =>
      have hline := List.getElem?_eq_getElem h
      refine ⟨trim all[0], by rw [lineUpFrom?, hline, Option.map_some], ?_⟩
      by_cases hblank : IsBlankLine all[0]
      · -- the first line is shown even if it is blank
        rw [trim_eq_nil_iff.mpr hblank]
        refine .nothing fun place line hplace hother => ?_
        obtain rfl : place = 0 := by omega
        obtain rfl := Option.some.inj (hline.symm.trans hother)
        exact hblank
      · exact .last hline hblank
  | succ n ih =>
      have hline := List.getElem?_eq_getElem h
      rw [lineUpFrom?, hline]
      dsimp only
      by_cases hblank : IsBlankLine all[n + 1]
      · obtain ⟨shown, hfound, hshown⟩ := ih (Nat.lt_of_succ_lt h)
        rw [if_pos (isBlankLine_iff.mpr hblank)]
        exact ⟨shown, hfound, hshown.skip hline hblank⟩
      · rw [if_neg (mt isBlankLine_iff.mp hblank)]
        exact ⟨_, rfl, .last hline hblank⟩

/-- What is shown for a number is found and is what is to be shown. -/
theorem nearestLine_shown (all : List Text) (number : Nat) :
    nearestLine? all number = some (nearestLine all number) ∧
      Shown all (min (max number 1) all.length) (nearestLine all number) := by
  unfold nearestLine nearestLine?
  by_cases hnil : all = []
  · subst hnil
    exact ⟨rfl, .nothing fun place line _ hline => by contradiction⟩
  · have hpos : 0 < all.length := List.length_pos_iff.mpr hnil
    obtain ⟨shown, hfound, hshown⟩ :=
      exists_lineUpFrom? (show min (max number 1) all.length - 1 < all.length by omega)
    rw [Nat.sub_add_cancel (by omega)] at hshown
    rw [if_neg (mt List.isEmpty_iff.mp hnil), hfound]
    exact ⟨rfl, hshown⟩

/-- **The nearest line that is not blank is shown.** For every text and every number:

* the way up from the line of that number, or from the first or last one if there is none of it,
  never leaves the lines of the text;
* what is shown is the last line up to there that is not blank, without the blanks at its ends, or
  nothing if there is no such line. -/
theorem lineAt_nearest (t : Text) (number : Nat) :
    nearestLine? (lines t) number = some (lineAt t number) ∧
      ∀ shown, Shown (lines t) (min (max number 1) (lines t).length) shown ↔
        shown = lineAt t number := by
  obtain ⟨hfound, hshown⟩ := nearestLine_shown (lines t) number
  refine ⟨hfound, fun shown => ⟨hshown.unique, ?_⟩⟩
  rintro rfl
  exact hshown

example : lineAt "first\nsecond\n\n \x0b \n" 4 = "second".toList := by decide

/-- A line that is not blank is shown for its own number. -/
theorem nearestLine_of_getElem? (h : all[n]? = some line) (hblank : ¬ IsBlankLine line) :
    nearestLine all (1 + n) = trim line := by
  have hshown := (nearestLine_shown all (1 + n)).2
  obtain ⟨hlength, -⟩ := List.getElem?_eq_some_iff.mp h
  rw [show min (max (1 + n) 1) all.length = n + 1 by omega] at hshown
  exact (Shown.last h hblank).unique hshown

end PageServer.Text
