/-
# Where patterns lead

From the places where a part may start, matching finds the places where it may
end, all places together. Seen from one place, a pattern leads to some others: a
character of its set to the next place, parts behind each other from place to
place, a repeated part over as many places as it may be taken times. Matching
finds just these places. Steps that may be taken without end are taken once more
than there are characters, which is enough, as each round but the last one finds
a new place.

* `Pattern.Leads`: from which place to which a pattern leads
* `Pattern.Finds`: a step on places finds all places to which a relation leads
* `Pattern.Finds.iterate`, `Pattern.Finds.grow`, `Pattern.Finds.growAll`: repeated steps
* `Pattern.finds_after`: matching finds the places to which a pattern leads
* `Pattern.fits_iff`, `Pattern.fits_whole_iff`: what it is to fit
-/
import Mathlib
import PageServer.Pattern.Basic

namespace PageServer.Pattern

variable {text : Text} {a b : Places} {step other : Places → Places} {r s : Nat → Nat → Prop}
  {size n i j : Nat}

/-! ## From place to place -/

/-- A relation leads in so many steps from one place to another. -/
def Steps (r : Nat → Nat → Prop) : Nat → Nat → Nat → Prop
  | 0, i, k => i = k
  | n + 1, i, k => ∃ j, r i j ∧ Steps r n j k

/-- Steps and further ones are steps. -/
theorem steps_add {m k : Nat} :
    Steps r (n + m) i k ↔ ∃ j, Steps r n i j ∧ Steps r m j k := by
  induction n generalizing i with
  | zero => simp [Steps]
  | succ n ih =>
      rw [Nat.succ_add, Steps]
      simp only [Steps, ih]
      constructor
      · rintro ⟨x, hx, y, hy, hk⟩
        exact ⟨y, ⟨x, hx, hy⟩, hk⟩
      · rintro ⟨y, ⟨x, hx, hy⟩, hk⟩
        exact ⟨x, hx, y, hy, hk⟩

/-- From which place of a text to which a pattern leads: a part that fits it starts at the first
and ends at the second. -/
def Leads (text : Text) : Pattern → Nat → Nat → Prop
  | empty, i, j => i = j
  | one set, i, j => j = i + 1 ∧ ∃ c, text[i]? = some c ∧ set.mem c = true
  | look l, i, j => i = j ∧ ∃ before next, (none :: text.map some)[i]? = some before ∧
      (text.map some ++ [none])[i]? = some next ∧ l.holds before next = true
  | cat first second, i, k => ∃ j, Leads text first i j ∧ Leads text second j k
  | alt first second, i, j => Leads text first i j ∨ Leads text second i j
  | times part least most, i, j =>
    ∃ more, (∀ m ∈ most, more ≤ m - least) ∧ Steps (Leads text part) (least + more) i j

/-! ## Steps on places -/

/-- A place is among some. -/
def Places.Has (a : Places) (i : Nat) : Prop := a[i]? = some true

/-- Some places and a place are of a text with so many of them. -/
theorem Places.Has.lt_length (h : a.Has i) : i < a.length := (List.getElem?_eq_some_iff.mp h).1

/-- Places are known by which are among them. -/
theorem Places.eq_of_has (hlength : a.length = b.length) (h : ∀ i, a.Has i ↔ b.Has i) : a = b := by
  apply List.ext_getElem hlength
  intro i hi hj
  have hsame := h i
  rw [Has, Has, List.getElem?_eq_getElem hi, List.getElem?_eq_getElem hj, Option.some_inj,
    Option.some_inj] at hsame
  exact Bool.eq_iff_iff.mpr hsame

/-- The places of either kind. -/
theorem Places.has_union (hlength : a.length = b.length) :
    (a.union b).Has i ↔ a.Has i ∨ b.Has i := by
  constructor
  · intro h
    obtain ⟨x, y, hx, hy, hxy⟩ := List.getElem?_zipWith_eq_some.mp h
    rcases Bool.or_eq_true_iff.mp hxy with rfl | rfl
    · exact Or.inl hx
    · exact Or.inr hy
  · intro h
    have hi : i < a.length := h.elim Has.lt_length fun hb => hlength ▸ hb.lt_length
    have hj : i < b.length := hlength ▸ hi
    rw [Has, Has, List.getElem?_eq_getElem hi, List.getElem?_eq_getElem hj, Option.some_inj,
      Option.some_inj] at h
    refine List.getElem?_zipWith_eq_some.mpr
      ⟨a[i], b[i], List.getElem?_eq_getElem hi, List.getElem?_eq_getElem hj, ?_⟩
    exact Bool.or_eq_true_iff.mpr h

/-- Places that are new leave fewer that are missing. -/
theorem Places.count_union_lt (hlength : a.length = b.length) (hnew : a.union b ≠ a) :
    (a.union b).count false < a.count false := by
  induction a generalizing b with
  | nil => exact absurd (List.zipWith_nil_left) hnew
  | cons x a ih =>
      obtain ⟨y, b, rfl⟩ := List.exists_cons_of_length_eq_add_one hlength.symm
      have hrest : a.length = b.length := Nat.succ.inj hlength
      have hcons : Places.union (x :: a) (y :: b) = (x || y) :: Places.union a b := rfl
      rw [hcons] at hnew ⊢
      by_cases hsame : Places.union a b = a
      · rw [hsame] at hnew ⊢
        cases x <;> cases y <;> simp_all
      · have hless := ih hrest hsame
        cases x <;> cases y <;> simp <;> omega

theorem Places.length_union (hlength : a.length = b.length) : (a.union b).length = a.length := by
  rw [union, List.length_zipWith, hlength, min_self]

/-- A step on places of a text with so many of them finds just those to which a relation leads. -/
structure Finds (size : Nat) (step : Places → Places) (r : Nat → Nat → Prop) : Prop where
  /-- There are as many places as before. -/
  length : ∀ a, a.length = size → (step a).length = size
  /-- They are those to which the relation leads from one before. -/
  has : ∀ a, a.length = size → ∀ j, (step a).Has j ↔ ∃ i, a.Has i ∧ r i j

namespace Finds

theorem refl (size : Nat) : Finds size id fun i j => i = j where
  length _ h := h
  has a _ j := by simp

/-- One step behind another. -/
theorem comp (hstep : Finds size step r) (hother : Finds size other s) :
    Finds size (fun a => other (step a)) fun i k => ∃ j, r i j ∧ s j k where
  length a h := hother.length _ (hstep.length a h)
  has a h k := by
    rw [hother.has _ (hstep.length a h)]
    simp only [hstep.has a h]
    constructor
    · rintro ⟨j, ⟨i, hi, hij⟩, hjk⟩
      exact ⟨i, hi, j, hij, hjk⟩
    · rintro ⟨i, hi, j, hij, hjk⟩
      exact ⟨j, ⟨i, hi, hij⟩, hjk⟩

/-- Either of two steps. -/
theorem union (hstep : Finds size step r) (hother : Finds size other s) :
    Finds size (fun a => (step a).union (other a)) fun i j => r i j ∨ s i j where
  length a h := by
    rw [Places.length_union (by rw [hstep.length a h, hother.length a h]), hstep.length a h]
  has a h j := by
    rw [Places.has_union (by rw [hstep.length a h, hother.length a h]), hstep.has a h,
      hother.has a h, ← exists_or]
    simp only [and_or_left]

/-- The same places, with all relations that are the same. -/
theorem congr (hstep : Finds size step r) (h : ∀ i j, r i j ↔ s i j) : Finds size step s where
  length := hstep.length
  has a ha j := by simp only [hstep.has a ha, h]

/-- A character leads to the next place. -/
theorem shift (set : CharSet) (text : Text) :
    Finds (text.length + 1) (Places.shift set text) (Leads text (.one set)) where
  length a h := by
    rw [Places.shift, List.length_cons, List.length_zipWith, h]
    omega
  has a h j := by
    cases j with
    | zero => simp [Places.shift, Places.Has, Leads]
    | succ k =>
        rw [Places.shift, Places.Has, List.getElem?_cons_succ]
        constructor
        · intro hk
          obtain ⟨c, marked, hc, hmarked, hboth⟩ := List.getElem?_zipWith_eq_some.mp hk
          obtain ⟨rfl, hmem⟩ := Bool.and_eq_true_iff.mp hboth
          exact ⟨k, hmarked, rfl, c, hc, hmem⟩
        · rintro ⟨i, hi, hki, c, hc, hmem⟩
          obtain rfl : k = i := Nat.succ.inj hki
          exact List.getElem?_zipWith_eq_some.mpr ⟨c, true, hc, hi, hmem⟩

/-- What is asked of a place leads to the place itself. -/
theorem keep (look : Look) (text : Text) :
    Finds (text.length + 1) (Places.keep look text) (Leads text (.look look)) where
  length a h := by
    simp [Places.keep, h]
  has a h j := by
    rw [Places.keep, Places.Has]
    constructor
    · intro hj
      obtain ⟨marked, side, hmarked, hside, hboth⟩ := List.getElem?_zipWith_eq_some.mp hj
      obtain ⟨rfl, rfl⟩ := Bool.and_eq_true_iff.mp hboth
      obtain ⟨before, next, hbefore, hnext, hholds⟩ := List.getElem?_zipWith_eq_some.mp hside
      exact ⟨j, hmarked, rfl, before, next, hbefore, hnext, hholds⟩
    · rintro ⟨i, hi, rfl, before, next, hbefore, hnext, hholds⟩
      refine List.getElem?_zipWith_eq_some.mpr ⟨true, true, hi, ?_, rfl⟩
      exact List.getElem?_zipWith_eq_some.mpr ⟨before, next, hbefore, hnext, hholds⟩

/-! ## Repeated steps -/

/-- Stopping early changes nothing: a step that changes nothing does so when it is taken again. -/
theorem iterate_eq (step : Places → Places) (n : Nat) (a : Places) :
    Places.iterate step n a = step^[n] a := by
  induction n generalizing a with
  | zero => rfl
  | succ n ih =>
      rw [Places.iterate]
      split_ifs with h
      · exact (Function.iterate_fixed h (n + 1)).symm
      · rw [ih, Function.iterate_succ_apply]

/-- A step taken so many times. -/
theorem iterate (hstep : Finds size step r) (n : Nat) :
    Finds size (Places.iterate step n) (Steps r n) := by
  rw [funext (iterate_eq step n)]
  induction n with
  | zero => exact refl size
  | succ n ih => exact hstep.comp ih

/-- A step taken, or not. -/
theorem once (hstep : Finds size step r) :
    Finds size (fun a => a.union (step a)) fun i j => i = j ∨ r i j :=
  (refl size).union hstep

/-- Where nothing new is found, no more steps lead anywhere else. -/
theorem has_of_steps (hstep : Finds size step r) (ha : a.length = size)
    (hclosed : a.union (step a) = a) (hi : a.Has i) (h : Steps r n i j) : a.Has j := by
  induction n generalizing i with
  | zero => exact h ▸ hi
  | succ n ih =>
      obtain ⟨k, hik, hkj⟩ := h
      refine ih ?_ hkj
      rw [← hclosed]
      exact (hstep.once.has a ha k).mpr ⟨i, hi, Or.inr hik⟩

/-- A step taken at most so many times. -/
theorem grow (hstep : Finds size step r) (n : Nat) :
    Finds size (fun a => a.grow step n) fun i j => ∃ more ≤ n, Steps r more i j := by
  induction n with
  | zero =>
      refine (refl size).congr fun i j => ?_
      simp [Steps]
  | succ n ih =>
      constructor
      · intro a ha
        rw [Places.grow]
        split_ifs
        · exact ha
        · exact ih.length _ (hstep.once.length a ha)
      · intro a ha j
        rw [Places.grow]
        split_ifs with hclosed
        · constructor
          · exact fun hj => ⟨j, hj, 0, Nat.zero_le _, rfl⟩
          · rintro ⟨i, hi, more, -, hsteps⟩
            exact hstep.has_of_steps ha hclosed hi hsteps
        · rw [(hstep.once.comp ih).has a ha]
          refine exists_congr fun i => and_congr_right fun _ => ?_
          constructor
          · rintro ⟨k, rfl | hik, more, hmore, hsteps⟩
            · exact ⟨more, by omega, hsteps⟩
            · exact ⟨more + 1, by omega, k, hik, hsteps⟩
          · rintro ⟨more, hmore, hsteps⟩
            cases more with
            | zero => exact ⟨i, Or.inl rfl, 0, Nat.zero_le n, hsteps⟩
            | succ more =>
                obtain ⟨k, hik, hkj⟩ := hsteps
                exact ⟨k, Or.inr hik, more, by omega, hkj⟩

/-- After as many rounds as places are left to be found, nothing new is found. -/
theorem grow_closed (hstep : Finds size step r) (ha : a.length = size) (h : a.count false ≤ n) :
    (a.grow step n).union (step (a.grow step n)) = a.grow step n := by
  induction n generalizing a with
  | zero =>
      rw [Places.grow]
      by_contra hnew
      have hless := Places.count_union_lt (by rw [ha, hstep.length a ha]) hnew
      omega
  | succ n ih =>
      rw [Places.grow]
      split_ifs with hclosed
      · exact hclosed
      · have hless := Places.count_union_lt (by rw [ha, hstep.length a ha]) hclosed
        exact ih (hstep.once.length a ha) (by omega)

/-- A step taken as often as there are places leads as far as any number of steps. -/
theorem growAll (hstep : Finds size step r) :
    Finds size (fun a => a.grow step size) fun i j => ∃ more, Steps r more i j where
  length := (hstep.grow size).length
  has a ha j := by
    have hgrow := hstep.grow size
    constructor
    · intro hj
      obtain ⟨i, hi, more, -, hsteps⟩ := (hgrow.has a ha j).mp hj
      exact ⟨i, hi, more, hsteps⟩
    · rintro ⟨i, hi, more, hsteps⟩
      have hleft : a.count false ≤ size := ha ▸ List.count_le_length
      have hstart : (a.grow step size).Has i := (hgrow.has a ha i).mpr ⟨i, hi, 0, Nat.zero_le _, rfl⟩
      exact hstep.has_of_steps (hgrow.length a ha) (hstep.grow_closed ha hleft) hstart hsteps

end Finds

/-! ## Patterns -/

/-- **Matching finds the places to which a pattern leads.** -/
theorem finds_after (text : Text) (pattern : Pattern) :
    Finds (text.length + 1) (after text pattern) (Leads text pattern) := by
  induction pattern with
  | empty => exact Finds.refl _
  | one set => exact Finds.shift set text
  | look l => exact Finds.keep l text
  | cat first second ihFirst ihSecond => exact ihFirst.comp ihSecond
  | alt first second ihFirst ihSecond => exact ihFirst.union ihSecond
  | times part least most ih =>
      have hleast := ih.iterate least
      cases most with
      | none =>
          refine (hleast.comp ih.growAll).congr fun i k => ?_
          simp only [Leads, steps_add, Option.not_mem_none, IsEmpty.forall_iff, implies_true,
            true_and]
          constructor
          · rintro ⟨j, hj, more, hk⟩
            exact ⟨more, j, hj, hk⟩
          · rintro ⟨more, j, hj, hk⟩
            exact ⟨j, hj, more, hk⟩
      | some m =>
          refine (hleast.comp (ih.grow (m - least))).congr fun i k => ?_
          simp only [Leads, steps_add, Option.mem_def, Option.some_inj, forall_eq']
          constructor
          · rintro ⟨j, hj, more, hmore, hk⟩
            exact ⟨more, hmore, j, hj, hk⟩
          · rintro ⟨more, hmore, j, hj, hk⟩
            exact ⟨j, hj, more, hmore, hk⟩

/-- **A text fits a pattern if the pattern leads from one of its places to another.** -/
theorem fits_iff (pattern : Pattern) (text : Text) :
    pattern.fits text = true ↔ ∃ i ≤ text.length, ∃ j, Leads text pattern i j := by
  have hlength : (true :: text.map fun _ => true).length = text.length + 1 := by simp
  have hall : ∀ i, Places.Has (true :: text.map fun _ => true) i ↔ i ≤ text.length := by
    intro i
    rw [Places.Has]
    cases i with
    | zero => simp
    | succ i => simp [List.getElem?_replicate]
  have hany : pattern.fits text = true ↔
      ∃ j, (after text pattern (true :: text.map fun _ => true)).Has j := by
    simp only [fits, List.any_eq_true, id_eq, exists_eq_right, List.mem_iff_getElem?, Places.Has]
  rw [hany]
  simp only [(finds_after text pattern).has _ hlength, hall]
  constructor
  · rintro ⟨j, i, hi, hij⟩
    exact ⟨i, hi, j, hij⟩
  · rintro ⟨i, hi, j, hij⟩
    exact ⟨j, i, hi, hij⟩

/-- A text starts only at its first place. -/
theorem leads_textStart {i j : Nat} : Leads text (.look .textStart) i j ↔ i = 0 ∧ j = 0 := by
  constructor
  · rintro ⟨rfl, before, next, hbefore, -, hholds⟩
    cases i with
    | zero => exact ⟨rfl, rfl⟩
    | succ i =>
        rw [List.getElem?_cons_succ, List.getElem?_map] at hbefore
        obtain ⟨c, -, rfl⟩ := Option.map_eq_some_iff.mp hbefore
        simp [Look.holds] at hholds
  · rintro ⟨rfl, rfl⟩
    cases text with
    | nil => exact ⟨rfl, none, none, rfl, rfl, rfl⟩
    | cons c rest => exact ⟨rfl, none, some c, rfl, rfl, rfl⟩

/-- A text ends only at its last place. -/
theorem leads_textEnd {i j : Nat} :
    Leads text (.look .textEnd) i j ↔ i = text.length ∧ j = text.length := by
  constructor
  · rintro ⟨rfl, before, next, hbefore, hnext, hholds⟩
    have hle : i < text.length + 1 := by
      simpa using (List.getElem?_eq_some_iff.mp hbefore).1
    have hge : ¬ i < text.length := by
      intro hlt
      rw [List.getElem?_append_left (by simpa using hlt), List.getElem?_map] at hnext
      obtain ⟨c, -, rfl⟩ := Option.map_eq_some_iff.mp hnext
      simp [Look.holds] at hholds
    omega
  · rintro ⟨rfl, rfl⟩
    have hlt : text.length < (none :: text.map some).length := by simp
    refine ⟨rfl, _, none, List.getElem?_eq_getElem hlt, ?_, rfl⟩
    simp

/-- **A text fits a pattern as a whole if the pattern leads from its start to its end.** -/
theorem fits_whole_iff (part : Pattern) (text : Text) :
    (whole part).fits text = true ↔ Leads text part 0 text.length := by
  rw [fits_iff]
  constructor
  · rintro ⟨i, -, j, k, hstart, l, hpart, hend⟩
    obtain ⟨rfl, rfl⟩ := leads_textStart.mp hstart
    obtain ⟨rfl, rfl⟩ := leads_textEnd.mp hend
    exact hpart
  · intro hpart
    exact ⟨0, Nat.zero_le _, text.length, 0, leads_textStart.mpr ⟨rfl, rfl⟩, text.length, hpart,
      leads_textEnd.mpr ⟨rfl, rfl⟩⟩

end PageServer.Pattern
