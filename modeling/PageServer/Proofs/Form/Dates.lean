/-
# Rules for dates and times

A date is four digits, two, and two with hyphens between them, a time of day two
and two with a colon. The patterns take the digits of all scripts, but a date is
also written again, in digits of ASCII, and compared, and a time is read as two
numbers, which only digits of ASCII stand for. So just the texts of the usual
form with existing days and times are accepted.

* `Rule.mem_digitsPattern`: the rows of digits of all scripts
* `Rule.IsCanonicalDate`, `Rule.IsCanonicalTime`: the usual forms
* `Rule.check_dates_and_times`: what is accepted
-/
import PageServer.Form.Rule
import PageServer.Proofs.Calendar.Written
import PageServer.Proofs.Pattern.Language

namespace PageServer.Rule

open Number (IsNumeral value)

variable {t : Text}

/-! ## Digits of all scripts -/

/-- A digit of some script. -/
def isScriptDigit (c : Char) : Bool := (CharSet.ranges Pattern.digits).mem c

/-- The digits of ASCII are among them. -/
theorem isScriptDigit_of_isDigit {c : Char} (h : c.isDigit = true) : isScriptDigit c = true := by
  refine List.any_eq_true.mpr ⟨(0x30, 0x39), List.mem_cons_self, decide_eq_true ?_⟩
  exact Number.toNat_of_isDigit h

/-- Signs are not. -/
theorem ne_sign_of_isScriptDigit {c : Char} (h : isScriptDigit c = true) : c ≠ '-' ∧ c ≠ '+' := by
  constructor <;> rintro rfl <;> exact absurd h (by decide)

/-- The pattern of so many digits says rows of so many digits of some script. -/
theorem mem_digitsPattern {n : Nat} :
    t ∈ (digitsPattern n).language ↔ t.length = n ∧ ∀ c ∈ t, isScriptDigit c = true := by
  rw [digitsPattern, Pattern.mem_times_one]
  simp only [Option.mem_def, Option.some_inj, forall_eq', ← and_assoc]
  refine and_congr_left fun _ => ?_
  omega

/-- It says those of ASCII among others. -/
theorem mem_digitsPattern_of_isNumeral {n : Nat} (h : IsNumeral n t) :
    t ∈ (digitsPattern n).language :=
  mem_digitsPattern.mpr ⟨h.length, fun c hc => isScriptDigit_of_isDigit (h.digits c hc)⟩

/-- The pattern of so many digits asks for nothing else. -/
theorem isPlain_digitsPattern (n : Nat) : (digitsPattern n).IsPlain := trivial

/-! ## Dates -/

/-- A date as it is usually written: four digits for the year, two for the month, and two for the
day, which there is. -/
def IsCanonicalDate (t : Text) : Prop :=
  ∃ year month day : Text, t = year ++ '-' :: (month ++ '-' :: day) ∧
    IsNumeral 4 year ∧ IsNumeral 2 month ∧ IsNumeral 2 day ∧
      Date.IsDay (value year) (value month) (value day)

/-- The pattern of a date asks for digits of any script. -/
theorem fits_sqlDatePattern :
    sqlDatePattern.fits t = true ↔ ∃ year month day : Text,
      t = year ++ '-' :: (month ++ '-' :: day) ∧ year ∈ (digitsPattern 4).language ∧
        month ∈ (digitsPattern 2).language ∧ day ∈ (digitsPattern 2).language := by
  refine (Pattern.fits_whole_iff_mem ?plain).trans ?_
  case plain =>
    exact ⟨isPlain_digitsPattern 4, trivial, isPlain_digitsPattern 2, trivial,
      isPlain_digitsPattern 2⟩
  simp only [Pattern.ofList, Pattern.mem_language_cat, Pattern.mem_char]
  constructor
  · rintro ⟨year, hyear, _, ⟨_, rfl, _, ⟨month, hmonth, _, ⟨_, rfl, day, hday, rfl⟩, rfl⟩, rfl⟩, rfl⟩
    exact ⟨year, month, day, rfl, hyear, hmonth, hday⟩
  · rintro ⟨year, month, day, rfl, hyear, hmonth, hday⟩
    exact ⟨year, hyear, _, ⟨_, rfl, _, ⟨month, hmonth, _, ⟨_, rfl, day, hday, rfl⟩, rfl⟩, rfl⟩, rfl⟩

/-- A date in the usual format. -/
theorem isDateIn_usual (t : Text) :
    isDateIn usualDateFormat t = DateFormat.accepts DateFormat.usual t := by
  have hformat : DateFormat.ofText? usualDateFormat = some DateFormat.usual := by decide
  rw [isDateIn, hformat]

/-- **What is accepted as a date.** -/
theorem isSqlDate_iff :
    (sqlDatePattern.fits t && isDateIn usualDateFormat t) = true ↔ IsCanonicalDate t := by
  rw [Bool.and_eq_true, fits_sqlDatePattern, isDateIn_usual]
  constructor
  · rintro ⟨⟨year, month, day, rfl, hyear, hmonth, -⟩, haccepts⟩
    obtain ⟨hfour, hdigits⟩ := mem_digitsPattern.mp hyear
    refine ⟨year, month, day, rfl, (DateFormat.accepts_usual_iff hfour ?_ ?_).mp haccepts⟩
    · exact fun c hc => ne_sign_of_isScriptDigit (hdigits c (List.mem_of_mem_head? hc))
    · exact (mem_digitsPattern.mp hmonth).1
  · rintro ⟨year, month, day, rfl, hyear, hmonth, hday, hexists⟩
    refine ⟨⟨year, month, day, rfl, mem_digitsPattern_of_isNumeral hyear,
      mem_digitsPattern_of_isNumeral hmonth, mem_digitsPattern_of_isNumeral hday⟩, ?_⟩
    refine (DateFormat.accepts_usual_iff hyear.length ?_ hmonth.length).mpr
      ⟨hyear, hmonth, hday, hexists⟩
    exact fun c hc => ne_sign_of_isScriptDigit
      (isScriptDigit_of_isDigit (hyear.digits c (List.mem_of_mem_head? hc)))

/-! ## Times -/

/-- A time of day as it is usually written: two digits for the hours and two for the minutes. -/
def IsCanonicalTime (t : Text) : Prop :=
  ∃ hours minutes : Text, t = hours ++ ':' :: minutes ∧
    IsNumeral 2 hours ∧ IsNumeral 2 minutes ∧ value hours ≤ 23 ∧ value minutes ≤ 59

/-- The pattern of a time asks for digits of any script. -/
theorem fits_timePattern :
    timePattern.fits t = true ↔ ∃ hours minutes : Text, t = hours ++ ':' :: minutes ∧
      hours ∈ (digitsPattern 2).language ∧ minutes ∈ (digitsPattern 2).language := by
  refine (Pattern.fits_whole_iff_mem ?plain).trans ?_
  case plain => exact ⟨isPlain_digitsPattern 2, trivial, isPlain_digitsPattern 2⟩
  simp only [Pattern.ofList, Pattern.mem_language_cat, Pattern.mem_char]
  constructor
  · rintro ⟨hours, hhours, _, ⟨_, rfl, minutes, hminutes, rfl⟩, rfl⟩
    exact ⟨hours, minutes, rfl, hhours, hminutes⟩
  · rintro ⟨hours, minutes, rfl, hhours, hminutes⟩
    exact ⟨hours, hhours, _, ⟨_, rfl, minutes, hminutes, rfl⟩, rfl⟩

/-- Two digits of some script stand for a number of hours or minutes only if they are of ASCII. -/
theorem clockNumber_le_iff {digits : Text} (h : digits.length = 2) {most : Nat} (hmost : most < 99) :
    clockNumber digits ≤ most ↔ IsNumeral 2 digits ∧ value digits ≤ most := by
  rw [clockNumber]
  constructor
  · intro hle
    cases hread : Number.readNat? digits with
    | none =>
        rw [hread, Option.getD_none] at hle
        omega
    | some n =>
        obtain ⟨hne, hall⟩ := Number.isDigit_of_readNat? hread
        have hdigits : ∀ c ∈ digits, c.isDigit = true :=
          fun c hc => Number.isDigit_eq c ▸ hall c hc
        rw [Number.readNat?_eq_value hne hdigits, Option.getD_some] at hle
        exact ⟨⟨h, hdigits⟩, hle⟩
  · rintro ⟨hnumeral, hle⟩
    have hne : digits ≠ [] := List.ne_nil_of_length_eq_add_one h
    rwa [Number.readNat?_eq_value hne hnumeral.digits, Option.getD_some]

/-- **What is accepted as a time.** -/
theorem isTimeOfDay_iff : isTimeOfDay t = true ↔ IsCanonicalTime t := by
  rw [isTimeOfDay, Bool.and_eq_true, fits_timePattern, decide_eq_true_iff]
  have hparts : ∀ {hours minutes : Text}, hours.length = 2 →
      (hours ++ ':' :: minutes).take 2 = hours ∧ (hours ++ ':' :: minutes).drop 3 = minutes := by
    intro hours minutes hlength
    constructor
    · exact List.take_left' hlength
    · rw [List.append_cons, List.drop_left']
      rw [List.length_append, hlength, List.length_singleton]
  constructor
  · rintro ⟨⟨hours, minutes, rfl, hhours, hminutes⟩, hbounds⟩
    have htwo := (mem_digitsPattern.mp hhours).1
    rw [(hparts htwo).1, (hparts htwo).2, clockNumber_le_iff htwo (by decide),
      clockNumber_le_iff (mem_digitsPattern.mp hminutes).1 (by decide)] at hbounds
    obtain ⟨⟨hhours, hhour⟩, hminutes, hminute⟩ := hbounds
    exact ⟨hours, minutes, rfl, hhours, hminutes, hhour, hminute⟩
  · rintro ⟨hours, minutes, rfl, hhours, hminutes, hhour, hminute⟩
    rw [(hparts hhours.length).1, (hparts hhours.length).2,
      clockNumber_le_iff hhours.length (by decide), clockNumber_le_iff hminutes.length (by decide)]
    exact ⟨⟨hours, minutes, rfl, mem_digitsPattern_of_isNumeral hhours,
      mem_digitsPattern_of_isNumeral hminutes⟩, ⟨hhours, hhour⟩, hminutes, hminute⟩

/-! ## Both rules -/

/-- **Dates and times.** A date is accepted exactly if it is written with four digits of ASCII, two,
and two, with hyphens between them, and there is such a day; a time if it is written with two and
two, with a colon between them, and there is such a time. -/
theorem check_dates_and_times (t : Text) :
    (∃ accepted, isSqlDate.check t = .ok accepted ∧ (accepted = true ↔ IsCanonicalDate t)) ∧
      ∃ accepted, isTime.check t = .ok accepted ∧ (accepted = true ↔ IsCanonicalTime t) :=
  ⟨⟨_, rfl, isSqlDate_iff⟩, _, rfl, isTimeOfDay_iff⟩

/-- Digits of another script fit the pattern of a time, but are none. -/
example : timePattern.fits "1\u0662:30" = true ∧ isTime.check "1\u0662:30" = .ok false := by
  decide +kernel

end PageServer.Rule
