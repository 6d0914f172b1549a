/-
# Dates as they are written

A number that is written with a fixed number of digits has one written form: its
digits with zeros before them. So a date in the usual format is known by its
text, and reading that text, which would take blanks, signs, and fewer digits as
well, gives the date back. Only a year of more or less than four digits is
written in another way, with a sign before it.

* `Number.IsNumeral`, `Number.value`: a row of so many digits, and what it stands for
* `DateFormat.padded_value`, `DateFormat.isNumeral_padded`: one written form for each number
* `DateFormat.read?_usual`: what is read
* `Date.IsDay`, `Date.exists_iff`: the days of the calendar
* `DateFormat.accepts_usual_iff`: which texts of the right shape are dates
-/
import PageServer.Calendar.DateFormat
import PageServer.Proofs.Number.Shape

namespace PageServer

/-! ## Rows of digits -/

namespace Number

/-- A row of so many digits of ASCII. -/
structure IsNumeral (width : Nat) (t : Text) : Prop where
  /-- There are so many characters. -/
  length : t.length = width
  /-- They are digits. -/
  digits : ∀ c ∈ t, c.isDigit = true

/-- The number that a row of digits stands for. -/
def value (t : Text) : Nat := Nat.ofDigitChars 10 t 0

/-- A digit more counts for itself, and what is before it ten times. -/
theorem value_concat (t : Text) (c : Char) : value (t ++ [c]) = 10 * value t + (c.toNat - 48) := by
  rw [value, Nat.ofDigitChars_append, Nat.ofDigitChars_cons, Nat.ofDigitChars_nil]
  rfl

/-- A digit of ASCII is one of ten characters. -/
theorem toNat_of_isDigit {c : Char} (h : c.isDigit = true) : 48 ≤ c.toNat ∧ c.toNat ≤ 57 := by
  simpa [Char.isDigit, UInt32.le_iff_toNat_le] using h

/-- A digit is that of its value. -/
theorem digitChar_of_isDigit {c : Char} (h : c.isDigit = true) :
    (c.toNat - 48).digitChar = c := by
  obtain ⟨hlow, hhigh⟩ := toNat_of_isDigit h
  apply Char.toNat_inj.mp
  rw [Nat.toNat_digitChar_of_lt_ten (by omega)]
  omega

/-- A row of digits is read as what it stands for. -/
theorem readNat?_eq_value {t : Text} (hne : t ≠ []) (h : ∀ c ∈ t, c.isDigit = true) :
    readNat? t = some (value t) :=
  readNat?_eq_some_iff.mpr ⟨hne, fun d hd => (isDigit_eq d).trans (h d hd), rfl⟩

/-- Digits are read to their end. -/
theorem readBase_digits {t : Text} (h : ∀ c ∈ t, c.isDigit = true) (start : Nat) :
    readBase digit? 10 start t = (Nat.ofDigitChars 10 t start, t.length, []) := by
  induction t generalizing start with
  | nil => rfl
  | cons c t ih =>
      obtain ⟨hc, ht⟩ := List.forall_mem_cons.mp h
      rw [← isDigit_eq] at hc
      rw [readBase, digit?_of_isDigit hc, Nat.ofDigitChars_cons]
      dsimp only
      rw [ih ht]
      rfl

end Number

open Number (IsNumeral value)

/-! ## Numbers of fixed width -/

namespace DateFormat

/-- The last digit is written behind the number that the others stand for. -/
theorem padded_succ {width : Nat} (h : 0 < width) (n : Nat) :
    padded (width + 1) n = padded width (n / 10) ++ [(n % 10).digitChar] := by
  simp only [padded, Text.ofNat]
  by_cases hsmall : n < 10
  · rw [Nat.toDigits_of_lt_base hsmall, Nat.div_eq_of_lt hsmall, Nat.mod_eq_of_lt hsmall,
      Nat.toDigits_zero]
    obtain ⟨width, rfl⟩ := Nat.exists_eq_succ_of_ne_zero h.ne'
    simp [List.replicate_succ']
  · rw [Nat.toDigits_of_base_le (by decide) (Nat.not_lt.mp hsmall), List.length_append,
      List.length_singleton, Nat.add_sub_add_right, List.append_assoc]

/-- **A row of digits is the written form of what it stands for.** -/
theorem padded_value {width : Nat} (hwidth : 0 < width) {t : Text} (h : IsNumeral width t) :
    padded width (value t) = t := by
  induction t using List.reverseRecOn generalizing width with
  | nil => exact absurd h.length hwidth.ne
  | append_singleton t c ih =>
      obtain ⟨hlength, hdigits⟩ := h
      obtain ⟨ht, hc⟩ := List.forall_mem_append.mp hdigits
      have hdigit : c.isDigit = true := hc c (List.mem_singleton_self c)
      obtain ⟨hlow, hhigh⟩ := Number.toNat_of_isDigit hdigit
      rw [List.length_append, List.length_singleton] at hlength
      subst hlength
      rw [Number.value_concat]
      by_cases hempty : t = []
      · have hsmall : 10 * value [] + (c.toNat - 48) < 10 := by
          rw [value, Nat.ofDigitChars_nil]
          omega
        rw [hempty, padded, Text.ofNat, Nat.toDigits_of_lt_base hsmall, value, Nat.ofDigitChars_nil,
          Nat.mul_zero, Nat.zero_add, Number.digitChar_of_isDigit hdigit]
        rfl
      · have hpos : 0 < t.length := List.length_pos_iff.mpr hempty
        have hfront : (10 * value t + (c.toNat - 48)) / 10 = value t := by omega
        have hlast : (10 * value t + (c.toNat - 48)) % 10 = c.toNat - 48 := by omega
        rw [padded_succ hpos, hfront, hlast, ih hpos ⟨rfl, ht⟩, Number.digitChar_of_isDigit hdigit]

/-- Rows of so many digits stand for numbers up to a power of ten. -/
theorem value_lt {width : Nat} (hwidth : 0 < width) {t : Text} (h : IsNumeral width t) :
    value t < 10 ^ width := by
  rw [← Nat.length_toDigits_le_iff (by decide) hwidth]
  have hlength := congrArg List.length (padded_value hwidth h)
  rw [padded, Text.ofNat, List.length_append, List.length_replicate, h.length] at hlength
  omega

/-- A number that is not too large is written as a row of so many digits. -/
theorem isNumeral_padded {width n : Nat} (hwidth : 0 < width) (h : n < 10 ^ width) :
    IsNumeral width (padded width n) where
  length := by
    have hle := (Nat.length_toDigits_le_iff (b := 10) (by decide) hwidth).mpr h
    rw [padded, List.length_append, List.length_replicate]
    exact Nat.sub_add_cancel hle
  digits := by
    refine List.forall_mem_append.mpr ⟨fun c hc => ?_, fun c hc => ?_⟩
    · rw [List.eq_of_mem_replicate hc]
      rfl
    · exact Nat.isDigit_of_mem_toDigits (by decide) (by decide) hc

/-- It stands for this number. -/
theorem value_padded (width n : Nat) : value (padded width n) = n := by
  rw [padded, value, Nat.ofDigitChars_append, Nat.ofDigitChars_replicate_zero, Nat.mul_zero]
  exact Nat.ofDigitChars_ten_toDigits

/-! ## Reading -/

/-- So many digits are read as a number of so many. -/
theorem readNumber?_append {width : Nat} (hwidth : 0 < width) {t : Text} (h : IsNumeral width t)
    (rest : Text) : readNumber? width (t ++ rest) = some (value t, rest) := by
  obtain ⟨rfl, hdigits⟩ := h
  rw [readNumber?, List.take_left, Number.readBase_digits hdigits]
  simp [value, hwidth.ne']

/-- There are no blanks before digits. -/
theorem dropWhile_isBlank_append {width : Nat} (hwidth : 0 < width) {t : Text}
    (h : IsNumeral width t) (rest : Text) : (t ++ rest).dropWhile Text.isBlank = t ++ rest := by
  obtain ⟨c, t, rfl⟩ := List.exists_cons_of_length_pos (h.length ▸ hwidth)
  obtain ⟨hlow, hhigh⟩ := Number.toNat_of_isDigit (h.digits c List.mem_cons_self)
  refine List.dropWhile_cons_of_neg ?_
  simp only [Text.isBlank, Bool.or_eq_true, Bool.and_eq_true, decide_eq_true_iff, beq_iff_eq]
  omega

/-- The usual format: year, month, and day with hyphens between them. -/
def usual : DateFormat := [.year, .char '-', .month, .char '-', .day]

/-- **The numbers of a date in the usual format are read.** -/
theorem read?_usual {year month day : Text} (hyear : IsNumeral 4 year) (hmonth : IsNumeral 2 month)
    (hday : IsNumeral 2 day) :
    read? usual (year ++ '-' :: (month ++ '-' :: day)) =
      Date.ofParts? (value year) (value month) (value day) := by
  have hsign : readYear? (year ++ '-' :: (month ++ '-' :: day)) =
      (readNumber? 4 (year ++ '-' :: (month ++ '-' :: day))).map fun found =>
        ((found.1 : Int), found.2) := by
    obtain ⟨c, rest, rfl⟩ := List.exists_cons_of_length_eq_add_one hyear.length
    have hdigit : c.isDigit = true := hyear.digits c List.mem_cons_self
    rw [List.cons_append]
    unfold readYear?
    split
    · rename_i heq
      rw [(List.cons.inj heq).1] at hdigit
      exact absurd hdigit (by decide)
    · rename_i heq
      rw [(List.cons.inj heq).1] at hdigit
      exact absurd hdigit (by decide)
    · rfl
  have hend : readNumber? 2 day = some (value day, []) := by
    have happend := readNumber?_append (by decide) hday []
    rwa [List.append_nil] at happend
  have hblank : day.dropWhile Text.isBlank = day := by
    have happend := dropWhile_isBlank_append (by decide) hday []
    rwa [List.append_nil] at happend
  simp [read?, usual, readParts?, readPart?, dropWhile_isBlank_append (by decide) hyear,
    dropWhile_isBlank_append (by decide) hmonth, hblank, hsign, hend, agree,
    readNumber?_append (by decide) hyear, readNumber?_append (by decide) hmonth]

/-- What is read is a day that there is. -/
theorem exists_of_read? {format : DateFormat} {t : Text} {date : Date}
    (h : read? format t = some date) : date.Exists := by
  obtain ⟨found, -, h⟩ := Option.bind_eq_some_iff.mp h
  obtain ⟨year, -, h⟩ := Option.bind_eq_some_iff.mp h
  obtain ⟨month, -, h⟩ := Option.bind_eq_some_iff.mp h
  obtain ⟨day, -, h⟩ := Option.bind_eq_some_iff.mp h
  rw [Date.ofParts?] at h
  split_ifs at h with hexists
  exact Option.some.inj h ▸ hexists

/-! ## Writing -/

/-- A year that is written without a sign is written with four digits. -/
theorem writeYear_of_unsigned {year : Int} (h : ∀ c ∈ (writeYear year).head?, c ≠ '-' ∧ c ≠ '+') :
    ∃ n ≤ 9999, year = (n : Nat) ∧ writeYear year = padded 4 n := by
  unfold writeYear at h ⊢
  split_ifs at h ⊢ with hnegative hlarge
  · exact absurd rfl (h '-' rfl).1
  · exact absurd rfl (h '+' rfl).2
  · exact ⟨year.natAbs, by omega, by omega, rfl⟩

/-- So are all years of the first ten thousand. -/
theorem writeYear_natCast {n : Nat} (h : n ≤ 9999) : writeYear (n : Int) = padded 4 n := by
  rw [writeYear, if_neg (by omega), if_neg (by omega), Int.natAbs_natCast]

/-- A date in the usual format is its numbers with hyphens between them. -/
theorem write_usual (date : Date) :
    write usual date =
      writeYear date.year ++ '-' :: (padded 2 date.month ++ '-' :: padded 2 date.day) := by
  simp [write, usual, writePart]

end DateFormat

namespace Date

/-- There is a day in the calendar with these numbers: months have 31 or 30 days, except for
February, which has 29 in leap years, and 28 in others. -/
def IsDay (year month day : Nat) : Prop :=
  1 ≤ day ∧ (month ∈ [1, 3, 5, 7, 8, 10, 12] ∧ day ≤ 31 ∨ month ∈ [4, 6, 9, 11] ∧ day ≤ 30 ∨
    month = 2 ∧ (day ≤ 28 ∨ day = 29 ∧ 4 ∣ year ∧ (¬ 100 ∣ year ∨ 400 ∣ year)))

/-- A year is a leap year if it can be divided by four, but only if by 400 where by 100. -/
theorem isLeap_iff (year : Nat) :
    isLeap (year : Int) = true ↔ 4 ∣ year ∧ (¬ 100 ∣ year ∨ 400 ∣ year) := by
  rw [isLeap, decide_eq_true_iff]
  omega

/-- No month has more days than 31, and there are twelve. -/
theorem bounds_of_exists {date : Date} (h : date.Exists) : date.month ≤ 12 ∧ date.day ≤ 31 := by
  obtain ⟨-, -, hpos, hday⟩ := h
  unfold daysIn at hday
  split at hday <;> first | omega | (split_ifs at hday <;> omega)

/-- The days that there are. -/
theorem exists_iff {year month day : Nat} (hyear : year ≤ 9999) :
    (⟨year, month, day⟩ : Date).Exists ↔ IsDay year month day := by
  have hcounted : firstYear ≤ (year : Int) ∧ (year : Int) ≤ lastYear := by
    unfold firstYear lastYear
    omega
  simp only [Exists, hcounted, true_and, IsDay, ← isLeap_iff]
  refine and_congr_right fun hpos => ?_
  by_cases hmonth : 1 ≤ month ∧ month ≤ 12
  · obtain ⟨hfirst, hlast⟩ := hmonth
    -- all months but February have the same days in every year
    interval_cases month <;> simp [daysIn]
    split_ifs with hleap
    · simp only [hleap, and_true]
      omega
    · simp [hleap]
  · have hnone : daysIn (year : Int) month = 0 := by
      unfold daysIn
      split <;> first | rfl | omega
    simp [hnone]
    omega

end Date

namespace DateFormat

open Date (IsDay)

/-- Parts between hyphens are told apart by their lengths. -/
theorem eq_of_hyphens {first first' second second' third third' : Text}
    (h : first ++ '-' :: (second ++ '-' :: third) = first' ++ '-' :: (second' ++ '-' :: third'))
    (hfirst : first.length = first'.length) (hsecond : second.length = second'.length) :
    first = first' ∧ second = second' ∧ third = third' := by
  obtain ⟨rfl, hrest⟩ := List.append_inj h hfirst
  obtain ⟨rfl, hthird⟩ := List.append_inj (List.cons.inj hrest).2 hsecond
  exact ⟨rfl, rfl, (List.cons.inj hthird).2⟩

/-- What is written for a day that there is, with four characters for the year and no sign before
it, and two for the month, is three rows of digits that stand for this day. -/
theorem isDay_of_write_usual {date : Date} (hexists : date.Exists) {year month day : Text}
    (hyear : year.length = 4) (hsign : ∀ c ∈ year.head?, c ≠ '-' ∧ c ≠ '+')
    (hmonth : month.length = 2)
    (hwrite : write usual date = year ++ '-' :: (month ++ '-' :: day)) :
    IsNumeral 4 year ∧ IsNumeral 2 month ∧ IsNumeral 2 day ∧
      IsDay (value year) (value month) (value day) := by
  obtain ⟨hmonths, hdays⟩ := Date.bounds_of_exists hexists
  obtain ⟨number, m, d⟩ := date
  rw [write_usual] at hwrite
  dsimp only at hwrite hmonths hdays
  have hunsigned : ∀ c ∈ (writeYear number).head?, c ≠ '-' ∧ c ≠ '+' := by
    intro c hc
    obtain ⟨behind, hbehind⟩ := List.head?_eq_some_iff.mp hc
    obtain ⟨first, others, rfl⟩ := List.exists_cons_of_length_eq_add_one hyear
    rw [hbehind] at hwrite
    exact (List.cons.inj hwrite).1 ▸ hsign first rfl
  obtain ⟨n, hn, rfl, htext⟩ := writeYear_of_unsigned hunsigned
  have hfour : IsNumeral 4 (padded 4 n) := isNumeral_padded (by decide) (by omega)
  have htwo : IsNumeral 2 (padded 2 m) := isNumeral_padded (by decide) (by omega)
  have hlast : IsNumeral 2 (padded 2 d) := isNumeral_padded (by decide) (by omega)
  rw [htext] at hwrite
  obtain ⟨rfl, rfl, rfl⟩ := eq_of_hyphens hwrite (by rw [hfour.length, hyear])
    (by rw [htwo.length, hmonth])
  refine ⟨hfour, htwo, hlast, ?_⟩
  rw [value_padded, value_padded, value_padded]
  exact (Date.exists_iff hn).mp hexists

/-- **Which texts are dates.** A text with hyphens behind its fourth and its seventh character, and
none and no sign before the first, is what is written for the date that it says exactly if all its
other characters are digits, and there is such a day. -/
theorem accepts_usual_iff {year month day : Text} (hyear : year.length = 4)
    (hsign : ∀ c ∈ year.head?, c ≠ '-' ∧ c ≠ '+') (hmonth : month.length = 2) :
    accepts usual (year ++ '-' :: (month ++ '-' :: day)) = true ↔
      IsNumeral 4 year ∧ IsNumeral 2 month ∧ IsNumeral 2 day ∧
        IsDay (value year) (value month) (value day) := by
  rw [accepts]
  constructor
  · intro h
    cases hread : read? usual (year ++ '-' :: (month ++ '-' :: day)) with
    | none =>
        rw [hread] at h
        contradiction
    | some date =>
        rw [hread] at h
        exact isDay_of_write_usual (exists_of_read? hread) hyear hsign hmonth (of_decide_eq_true h)
  · rintro ⟨hyear, hmonth, hday, hexists⟩
    have hvalue : value year ≤ 9999 := Nat.le_of_lt_succ (value_lt (by decide) hyear)
    rw [read?_usual hyear hmonth hday, Date.ofParts?]
    simp only [(Date.exists_iff hvalue).mpr hexists, if_true]
    refine decide_eq_true ?_
    rw [write_usual, writeYear_natCast hvalue, padded_value (by decide) hyear,
      padded_value (by decide) hmonth, padded_value (by decide) hday]

end DateFormat
end PageServer
