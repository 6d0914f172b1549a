/-
# The order of numbers

Floating-point numbers are compared as integers, but for NaN, which compares
with nothing. So the outcome of comparing them the other way round is the
reverse. A text is read as NaN only if it names it, with a sign or without.

* `Binary64.compare?_swap`, `Binary64.same_comm`, `Binary64.same_self`: comparison
* `Binary64.rank_ofRank`, `Binary64.negative_ofRank`: a number by its sign and its rank
* `Decimal.isNaN_of_read?_iff`: the texts that are read as NaN
-/
import Mathlib
import PageServer.Number.Decimal

namespace PageServer

namespace Binary64

/-! ## Comparison -/

theorem units?_eq_none_iff {x : Binary64} : x.units? = none ↔ x.isNaN = true := by
  unfold units?
  split_ifs with hnan hnegative
  · simp [hnan]
  · simp [hnan]
  · simp [hnan]

/-- A number other than NaN has its place among the others. -/
theorem exists_units? {x : Binary64} (h : x.isNaN = false) : ∃ n, x.units? = some n := by
  rw [← Option.ne_none_iff_exists', Ne, units?_eq_none_iff, h]
  exact Bool.false_ne_true

/-- Comparing the other way round gives the reverse. -/
theorem compare?_swap (x y : Binary64) : y.compare? x = (x.compare? y).map Ordering.swap := by
  unfold compare?
  cases x.units? with
  | none => cases y.units? <;> rfl
  | some m =>
      cases y.units? with
      | none => rfl
      | some n => exact congrArg some (Int.compare_swap m n).symm

theorem same_eq_true_iff {x y : Binary64} : x.same y = true ↔ x.compare? y = some .eq :=
  beq_iff_eq

theorem same_comm (x y : Binary64) : x.same y = y.same x := by
  rw [Bool.eq_iff_iff, same_eq_true_iff, same_eq_true_iff, compare?_swap y x,
    Option.map_eq_some_iff]
  constructor
  · rintro ⟨order, horder, hswap⟩
    rw [horder, Ordering.swap_eq_eq.mp hswap]
  · intro h
    exact ⟨.eq, h, rfl⟩

/-- A number is equal to itself unless it is NaN. -/
theorem same_self (x : Binary64) : x.same x = !x.isNaN := by
  rw [Bool.eq_iff_iff, same_eq_true_iff, Bool.not_eq_true']
  cases hnan : x.isNaN with
  | true =>
      rw [compare?, units?_eq_none_iff.mpr hnan]
      simp
  | false =>
      obtain ⟨n, hn⟩ := exists_units? hnan
      simp [compare?, hn]

/-- If NaN counts as equal to everything, numbers other than NaN are equal where they compare
so. -/
theorem getD_compare?_eq_iff {x y : Binary64} (hx : x.isNaN = false) (hy : y.isNaN = false) :
    (x.compare? y).getD .eq = .eq ↔ x.same y = true := by
  obtain ⟨m, hm⟩ := exists_units? hx
  obtain ⟨n, hn⟩ := exists_units? hy
  rw [same_eq_true_iff, compare?, hm, hn]
  simp

/-! ## Signs and ranks -/

theorem toNat_ofRank {negative : Bool} {rank : Nat} (h : rank < signBit) :
    (ofRank negative rank).bits.toNat = rank + if negative then signBit else 0 := by
  unfold signBit at h ⊢
  rw [ofRank, UInt64.toNat_ofNat', signBit, Nat.mod_eq_of_lt]
  split_ifs <;> omega

theorem rank_ofRank {negative : Bool} {rank : Nat} (h : rank < signBit) :
    (ofRank negative rank).rank = rank := by
  rw [Binary64.rank, toNat_ofRank h]
  split_ifs
  · rw [Nat.add_mod_right, Nat.mod_eq_of_lt h]
  · exact Nat.mod_eq_of_lt h

theorem negative_ofRank {negative : Bool} {rank : Nat} (h : rank < signBit) :
    (ofRank negative rank).negative = negative := by
  rw [Binary64.negative, toNat_ofRank h]
  cases negative with
  | false => simpa using h
  | true => simp

theorem infinityRank_lt : infinityRank < signBit := by decide

/-- No rank up to that of infinity is NaN. -/
theorem isNaN_ofRank {negative : Bool} {rank : Nat} (h : rank ≤ infinityRank) :
    (ofRank negative rank).isNaN = false := by
  rw [isNaN, rank_ofRank (h.trans_lt infinityRank_lt), decide_eq_false_iff_not]
  exact Nat.not_lt.mpr h

/-- Rounding never gives NaN. -/
theorem isNaN_ofRatio (negative : Bool) (num den : Nat) :
    (ofRatio negative num den).isNaN = false :=
  isNaN_ofRank (Nat.min_le_right _ _)

theorem isNaN_ofInt (n : Int) : (ofInt n).isNaN = false := isNaN_ofRatio _ _ _

theorem isNaN_ofDecimal (negative : Bool) (digits : Nat) (exponent : Int) :
    (ofDecimal negative digits exponent).isNaN = false := by
  unfold ofDecimal
  dsimp only
  split_ifs
  · exact isNaN_ofRank (Nat.zero_le _)
  · exact isNaN_ofRank le_rfl
  · exact isNaN_ofRatio _ _ _

end Binary64

namespace Decimal

/-! ## Texts that name NaN -/

/-- The name of NaN in letters of either case, with a sign or without. -/
def NamesNaN (t : Text) : Prop :=
  ∃ sign word, (sign = [] ∨ sign = ['-'] ∨ sign = ['+']) ∧ isWord "nan" word = true ∧
    t = sign ++ word

theorem readMagnitude?_of_isWord {word : Text} (h : isWord "nan" word = true) (negative : Bool) :
    readMagnitude? negative word = some .nan := by
  have hlower : word.map Char.toLower = "nan".toList := of_decide_eq_true h
  have hinfinity : (isWord "inf" word || isWord "infinity" word) = false := by
    rw [isWord, isWord, hlower]
    decide
  rw [readMagnitude?, hinfinity, h]
  rfl

/-- A magnitude is NaN only by its name. -/
theorem isWord_of_readMagnitude? {negative : Bool} {t : Text} {x : Binary64}
    (h : readMagnitude? negative t = some x) (hx : x.isNaN = true) : isWord "nan" t = true := by
  unfold readMagnitude? at h
  split_ifs at h with hinfinity hword
  · rw [← Option.some.inj h] at hx
    have hnot : (Binary64.infinity negative).isNaN = false := Binary64.isNaN_ofRank le_rfl
    rw [hnot] at hx
    contradiction
  · exact hword
  · obtain ⟨d, -, rfl⟩ := Option.map_eq_some_iff.mp h
    rw [Binary64.isNaN_ofDecimal] at hx
    contradiction

/-- A name without a sign does not begin with one. -/
theorem ne_sign_of_isWord {c : Char} {rest : Text} (h : isWord "nan" (c :: rest) = true) :
    c ≠ '-' ∧ c ≠ '+' := by
  have hlower : (c :: rest).map Char.toLower = "nan".toList := of_decide_eq_true h
  have hc : c.toLower = 'n' := (List.cons.inj hlower).1
  constructor <;> rintro rfl <;> exact absurd hc (by decide)

/-- **A text is read as NaN exactly if it names it.** -/
theorem isNaN_of_read?_iff {t : Text} :
    (∃ x, read? t = some x ∧ x.isNaN = true) ↔ NamesNaN t := by
  constructor
  · rintro ⟨x, hread, hx⟩
    unfold read? at hread
    split at hread
    · exact ⟨['-'], _, Or.inr (Or.inl rfl), isWord_of_readMagnitude? hread hx, rfl⟩
    · exact ⟨['+'], _, Or.inr (Or.inr rfl), isWord_of_readMagnitude? hread hx, rfl⟩
    · exact ⟨[], t, Or.inl rfl, isWord_of_readMagnitude? hread hx, rfl⟩
  · rintro ⟨sign, word, hsign, hword, rfl⟩
    refine ⟨.nan, ?_, by decide⟩
    rcases hsign with rfl | rfl | rfl
    · rw [List.nil_append, read?]
      · exact readMagnitude?_of_isWord hword false
      · rintro rest rfl
        exact (ne_sign_of_isWord hword).1 rfl
      · rintro rest rfl
        exact (ne_sign_of_isWord hword).2 rfl
    · exact readMagnitude?_of_isWord hword true
    · exact readMagnitude?_of_isWord hword false

end Decimal
end PageServer
