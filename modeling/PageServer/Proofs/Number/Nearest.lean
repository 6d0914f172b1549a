/-
# Integers as floating-point numbers

An integer of 64 bits becomes the nearest of the integers with 53 significant
binary digits: itself up to two to the power 53, and beyond that a multiple of a
spacing that doubles with each power of two. So different integers may become
the same number, but their order is never reversed.

* `Binary64.nearest`: the nearest of those integers
* `Binary64.units?_ofInt`: it is what an integer becomes
* `Binary64.nearest_eq_self`, `Binary64.nearest_mono`, `Binary64.two_mul_sub_nearest_le`: how it
  lies to the integer
* `Binary64.compare?_ofInt`: how two integers compare
-/
import PageServer.Proofs.Number.Order

namespace PageServer.Binary64

/-! ## Quotients -/

variable {num num' den n n' : Nat}

/-- A quotient is off by half of the divisor at most. -/
theorem divideToEven_bounds (h : 0 < den) :
    2 * num ≤ 2 * (divideToEven num den * den) + den ∧
      2 * (divideToEven num den * den) ≤ 2 * num + den := by
  have hnum := Nat.div_add_mod' num den
  have hrest := Nat.mod_lt num h
  unfold divideToEven
  dsimp only
  split_ifs
  · omega
  · have hnext : (num / den + 1) * den = num / den * den + den := Nat.add_one_mul _ _
    omega

/-- A multiple is divided without rounding. -/
theorem divideToEven_mul (h : 0 < den) (q : Nat) : divideToEven (q * den) den = q := by
  unfold divideToEven
  dsimp only
  rw [Nat.mul_mod_left, Nat.mul_div_cancel q h, if_pos (Or.inl h)]

theorem divideToEven_mono (h : num ≤ num') (den : Nat) :
    divideToEven num den ≤ divideToEven num' den := by
  have hle := Nat.div_le_div_right (c := den) h
  have hnum := Nat.div_add_mod' num den
  have hnum' := Nat.div_add_mod' num' den
  unfold divideToEven
  dsimp only
  rcases hle.lt_or_eq with hless | heq
  · split_ifs <;> omega
  · rw [← heq] at hnum' ⊢
    split_ifs <;> omega

/-! ## The nearest integer with 53 digits -/

/-- The distance between neighbours among the integers with 53 significant binary digits that are
as long as a number. -/
def spacing (n : Nat) : Nat := 2 ^ (n.log2 - 52)

/-- Of these the nearest to a natural number, a tie going to the even multiple. -/
def nearestNat (n : Nat) : Nat := divideToEven n (spacing n) * spacing n

/-- The integer with 53 significant binary digits that is nearest to an integer. -/
def nearest (n : Int) : Int := n.sign * nearestNat n.natAbs

theorem spacing_pos (n : Nat) : 0 < spacing n := Nat.two_pow_pos _

theorem spacing_eq_one (h : n.log2 ≤ 52) : spacing n = 1 := by
  rw [spacing, Nat.sub_eq_zero_of_le h, Nat.pow_zero]

/-- A power of two that is as long as a number is one of them. -/
theorem exists_mul_spacing {k : Nat} (h : n.log2 ≤ k) : ∃ q, 2 ^ k = q * spacing n :=
  ⟨2 ^ (k - (n.log2 - 52)), by rw [spacing, ← Nat.pow_add]; congr 1; omega⟩

/-- Rounding stays between powers of two. -/
theorem nearestNat_bounds (h : n ≠ 0) :
    2 ^ n.log2 ≤ nearestNat n ∧ nearestNat n ≤ 2 ^ (n.log2 + 1) := by
  have hpower : ∀ {k}, n.log2 ≤ k → 2 ^ k = divideToEven (2 ^ k) (spacing n) * spacing n := by
    intro k hk
    obtain ⟨q, hq⟩ := exists_mul_spacing hk
    rw [hq, divideToEven_mul (spacing_pos n)]
  rw [hpower le_rfl, hpower (Nat.le_succ _)]
  constructor
  · exact Nat.mul_le_mul_right _ (divideToEven_mono (Nat.log2_self_le h) _)
  · exact Nat.mul_le_mul_right _ (divideToEven_mono Nat.lt_log2_self.le _)

theorem nearestNat_mono (h : n ≤ n') : nearestNat n ≤ nearestNat n' := by
  by_cases hzero : n = 0
  · subst hzero
    exact Nat.zero_le _
  have hzero' : n' ≠ 0 := by omega
  have hlog : n.log2 ≤ n'.log2 := by
    rw [Nat.le_log2 hzero']
    exact (Nat.log2_self_le hzero).trans h
  rcases hlog.lt_or_eq with hless | heq
  · calc nearestNat n ≤ 2 ^ (n.log2 + 1) := (nearestNat_bounds hzero).2
      _ ≤ 2 ^ n'.log2 := Nat.pow_le_pow_right (by decide) hless
      _ ≤ nearestNat n' := (nearestNat_bounds hzero').1
  · rw [nearestNat, nearestNat, spacing, spacing, heq]
    exact Nat.mul_le_mul_right _ (divideToEven_mono h _)

/-- A multiple of the spacing stays as it is. -/
theorem nearestNat_eq_self (h : spacing n ∣ n) : nearestNat n = n := by
  have hpos := spacing_pos n
  rw [nearestNat]
  generalize spacing n = unit at h hpos ⊢
  obtain ⟨q, rfl⟩ := h
  rw [Nat.mul_comm unit q, divideToEven_mul hpos]

/-- **Integers up to two to the power 53 stay as they are.** -/
theorem nearest_eq_self {n : Int} (h : n.natAbs ≤ 2 ^ 53) : nearest n = n := by
  have hnat : nearestNat n.natAbs = n.natAbs := by
    apply nearestNat_eq_self
    rcases h.lt_or_eq with hless | heq
    · have hlog : n.natAbs.log2 ≤ 52 := by
        by_cases hzero : n.natAbs = 0
        · rw [hzero]
          decide
        · exact Nat.le_of_lt_succ ((Nat.log2_lt hzero).mpr hless)
      rw [spacing_eq_one hlog]
      exact Nat.one_dvd _
    · rw [heq]
      decide
  rw [nearest, hnat, Int.sign_mul_natAbs]

theorem nearest_neg (n : Int) : nearest (-n) = -nearest n := by
  rw [nearest, nearest, Int.sign_neg, Int.natAbs_neg, Int.neg_mul]

theorem nearest_natCast (n : Nat) : nearest n = nearestNat n := by
  by_cases h : n = 0
  · subst h
    rfl
  · rw [nearest, Int.natAbs_natCast, Int.sign_natCast_of_ne_zero h, Int.one_mul]

theorem nearest_eq_ite (n : Int) :
    nearest n = if n < 0 then -(nearestNat n.natAbs : Int) else nearestNat n.natAbs := by
  rw [nearest]
  rcases lt_trichotomy n 0 with hneg | rfl | hpos
  · rw [if_pos hneg, Int.sign_eq_neg_one_of_neg hneg, Int.neg_one_mul]
  · rfl
  · rw [if_neg hpos.not_gt, Int.sign_eq_one_of_pos hpos, Int.one_mul]

/-- **Rounding does not reverse the order.** -/
theorem nearest_mono {m n : Int} (h : m ≤ n) : nearest m ≤ nearest n := by
  rcases m.eq_nat_or_neg with ⟨a, rfl | rfl⟩ <;> rcases n.eq_nat_or_neg with ⟨b, rfl | rfl⟩
  · rw [nearest_natCast, nearest_natCast]
    exact_mod_cast nearestNat_mono (by exact_mod_cast h)
  · obtain ⟨rfl, rfl⟩ : a = 0 ∧ b = 0 := by omega
    exact le_rfl
  · rw [nearest_neg, nearest_natCast, nearest_natCast]
    omega
  · rw [nearest_neg, nearest_neg, nearest_natCast, nearest_natCast]
    have hle : nearestNat b ≤ nearestNat a := nearestNat_mono (by omega)
    omega

/-- **Rounding is off by half of the spacing at most.** -/
theorem two_mul_sub_nearest_le (n : Int) : 2 * (n - nearest n).natAbs ≤ spacing n.natAbs := by
  have hnat : ∀ a : Nat, 2 * ((a : Int) - nearest a).natAbs ≤ spacing a := by
    intro a
    have hbounds := @divideToEven_bounds a _ (spacing_pos a)
    rw [nearest_natCast, nearestNat]
    omega
  rcases n.eq_nat_or_neg with ⟨a, rfl | rfl⟩
  · exact hnat a
  · rw [nearest_neg, Int.natAbs_neg, Int.natAbs_natCast, ← Int.natAbs_neg]
    have heq : -(-(a : Int) - -nearest a) = a - nearest a := by ring
    rw [heq]
    exact hnat a

/-- **Integers of 64 bits that lie more than 1024 apart stay different.** -/
theorem nearest_ne_of_apart {m n : Int} (hm : m.natAbs ≤ 2 ^ 63) (hn : n.natAbs ≤ 2 ^ 63)
    (h : 2 ^ 10 < (m - n).natAbs) : nearest m ≠ nearest n := by
  have hclose : ∀ k : Int, k.natAbs ≤ 2 ^ 63 → 2 * (k - nearest k).natAbs ≤ 2 ^ 10 := by
    intro k hk
    by_cases hlast : k.natAbs = 2 ^ 63
    · -- the greatest magnitude is itself a multiple
      have hsame : nearestNat k.natAbs = k.natAbs := by
        rw [hlast]
        decide +kernel
      rw [nearest, hsame, Int.sign_mul_natAbs, Int.sub_self]
      decide
    · refine (two_mul_sub_nearest_le k).trans (Nat.pow_le_pow_right (by decide) ?_)
      by_cases hzero : k.natAbs = 0
      · rw [hzero]
        decide
      · have hlog : k.natAbs.log2 < 63 := (Nat.log2_lt hzero).mpr (by omega)
        omega
  have hm' := hclose m hm
  have hn' := hclose n hn
  omega

/-! ## What an integer becomes -/

theorem fractions_eq : fractions = 2 ^ 52 := by decide

/-- The significand of a positive integer before rounding is as long as significands are. -/
theorem fractions_mul_le (h : n ≠ 0) :
    fractions * 2 ^ (n.log2 - 52) ≤ n * 2 ^ (52 - n.log2) ∧
      n * 2 ^ (52 - n.log2) ≤ 2 * fractions * 2 ^ (n.log2 - 52) := by
  have hpower : ∀ k, 2 ^ (n.log2 + k) * 2 ^ (52 - n.log2) =
      2 ^ k * fractions * 2 ^ (n.log2 - 52) := by
    intro k
    rw [fractions_eq, ← Nat.pow_add, ← Nat.pow_add, ← Nat.pow_add]
    congr 1
    omega
  have hlow := Nat.mul_le_mul_right (2 ^ (52 - n.log2)) (Nat.log2_self_le h)
  have hhigh := Nat.mul_le_mul_right (2 ^ (52 - n.log2)) (Nat.lt_log2_self (n := n)).le
  have hpower0 := hpower 0
  rw [Nat.add_zero, Nat.pow_zero, Nat.one_mul] at hpower0
  rw [hpower0] at hlow
  rw [hpower 1] at hhigh
  exact ⟨hlow, hhigh⟩

/-- The rank of a positive integer: its exponent, counted from that of the least numbers, and its
significand, which may be as great as that of the next exponent. -/
theorem nearestRank_one (h : n ≠ 0) :
    nearestRank n 1 = (n.log2 + 1022) * fractions +
      divideToEven (n * 2 ^ (52 - n.log2)) (2 ^ (n.log2 - 52)) := by
  have hone : Nat.log2 1 = 0 := by decide
  have hhigh : ((n.log2 : Int) - 52).toNat = n.log2 - 52 := by omega
  have hlow : (-((n.log2 : Int) - 52)).toNat = 52 - n.log2 := by omega
  have hmax : max ((n.log2 : Int) - 52) minExponent = n.log2 - 52 :=
    max_eq_left (by unfold minExponent; omega)
  have hexponent : ((n.log2 : Int) - 52 - minExponent).toNat = n.log2 + 1022 := by
    unfold minExponent
    omega
  rw [nearestRank, if_neg h]
  simp only [hone, Nat.cast_zero, sub_zero, mul_one, one_mul, Nat.pow_eq, hhigh, hlow,
    (fractions_mul_le h).1, decide_true, if_true, hmax, hexponent]

/-- The significand after rounding. -/
theorem divideToEven_range (h : n ≠ 0) :
    fractions ≤ divideToEven (n * 2 ^ (52 - n.log2)) (2 ^ (n.log2 - 52)) ∧
      divideToEven (n * 2 ^ (52 - n.log2)) (2 ^ (n.log2 - 52)) ≤ 2 * fractions := by
  obtain ⟨hlow, hhigh⟩ := fractions_mul_le h
  have hpos := Nat.two_pow_pos (n.log2 - 52)
  constructor
  · rw [← divideToEven_mul hpos fractions]
    exact divideToEven_mono hlow _
  · rw [← divideToEven_mul hpos (2 * fractions)]
    exact divideToEven_mono hhigh _

/-- The magnitude of a significand and an exponent. -/
theorem magnitudeUnits_eq {m : Nat} (hlow : fractions ≤ m) (hhigh : m ≤ 2 * fractions)
    (exponent : Nat) : magnitudeUnits (exponent * fractions + m) = m * 2 ^ exponent := by
  have hpos : 0 < fractions := by decide
  rcases hhigh.lt_or_eq with hless | rfl
  · obtain ⟨rest, rfl⟩ := Nat.exists_eq_add_of_le hlow
    have hrest : rest < fractions := by omega
    have hrank : exponent * fractions + (fractions + rest) =
        rest + (exponent + 1) * fractions := by ring
    rw [hrank, magnitudeUnits, significand, scale, if_neg, Nat.add_mul_mod_self_right,
      Nat.mod_eq_of_lt hrest, Nat.add_mul_div_right _ _ hpos, Nat.div_eq_of_lt hrest, Nat.zero_add,
      Nat.add_sub_cancel, Nat.add_comm rest]
    · rfl
    · rw [Nat.add_one_mul]
      omega
  · have hrank : exponent * fractions + 2 * fractions = (exponent + 2) * fractions := by ring
    rw [hrank, magnitudeUnits, significand, scale, if_neg, Nat.mul_mod_left, Nat.zero_add,
      Nat.mul_div_cancel _ hpos, Nat.pow_eq, Nat.add_sub_assoc (by decide), Nat.pow_succ]
    · ring
    · rw [Nat.add_mul]
      omega

/-- One as a multiple of the least positive number. -/
@[irreducible] def unitsOfOne : Nat := 2 ^ minExponent.natAbs

theorem unitsOfOne_pos : 0 < unitsOfOne := by
  unfold unitsOfOne
  positivity

theorem two_pow_eq_mul {e k : Nat} (h : e = k + minExponent.natAbs) :
    2 ^ e = 2 ^ k * unitsOfOne := by
  unfold unitsOfOne
  rw [h, Nat.pow_add]

theorem magnitudeUnits_nearestRank (n : Nat) :
    magnitudeUnits (nearestRank n 1) = nearestNat n * unitsOfOne := by
  by_cases h : n = 0
  · subst h
    decide +kernel
  obtain ⟨hlow, hhigh⟩ := divideToEven_range h
  rw [nearestRank_one h, magnitudeUnits_eq hlow hhigh, nearestNat, spacing]
  rcases Nat.le_total 52 n.log2 with hlong | hshort
  · have hpower : 2 ^ (n.log2 + 1022) = 2 ^ (n.log2 - 52) * unitsOfOne := by
      apply two_pow_eq_mul
      unfold minExponent
      omega
    rw [Nat.sub_eq_zero_of_le hlong, Nat.pow_zero, Nat.mul_one, hpower, Nat.mul_assoc]
  · -- the spacing is one, so nothing is rounded
    have hone : ∀ q, divideToEven q 1 = q := fun q => by
      simpa using divideToEven_mul Nat.one_pos q
    have hexponent : 52 - n.log2 + (n.log2 + 1022) = 0 + minExponent.natAbs := by
      unfold minExponent
      omega
    rw [Nat.sub_eq_zero_of_le hshort, Nat.pow_zero, hone, hone, Nat.mul_one, Nat.mul_assoc,
      ← Nat.pow_add, two_pow_eq_mul hexponent, Nat.pow_zero, Nat.one_mul]

/-- The rank of an integer of 64 bits is far from that of infinity. -/
theorem nearestRank_le (h : n ≤ 2 ^ 63) : nearestRank n 1 ≤ infinityRank := by
  by_cases hzero : n = 0
  · subst hzero
    decide +kernel
  have hlog : n.log2 < 64 := (Nat.log2_lt hzero).mpr (h.trans_lt (by decide))
  have hrange := (divideToEven_range hzero).2
  rw [nearestRank_one hzero]
  calc (n.log2 + 1022) * fractions + _ ≤ (63 + 1022) * fractions + 2 * fractions :=
        Nat.add_le_add (Nat.mul_le_mul_right _ (by omega)) hrange
    _ ≤ infinityRank := by decide

/-- **An integer of 64 bits becomes the nearest with 53 digits.** -/
theorem units?_ofInt {n : Int} (h : n.natAbs ≤ 2 ^ 63) :
    (ofInt n).units? = some (nearest n * unitsOfOne) := by
  have hrank := nearestRank_le h
  have hless := hrank.trans_lt infinityRank_lt
  rw [units?, isNaN_ofInt, ofInt, ofRatio, Nat.min_eq_left hrank, rank_ofRank hless,
    negative_ofRank hless, magnitudeUnits_nearestRank, nearest_eq_ite, Nat.cast_mul]
  by_cases hneg : n < 0
  · rw [if_neg Bool.false_ne_true, if_pos (decide_eq_true hneg), if_pos hneg, Int.neg_mul]
  · rw [if_neg Bool.false_ne_true, if_neg (by rwa [decide_eq_true_iff]), if_neg hneg]

/-- **Integers of 64 bits compare as the nearest with 53 digits.** -/
theorem compare?_ofInt {m n : Int} (hm : m.natAbs ≤ 2 ^ 63) (hn : n.natAbs ≤ 2 ^ 63) :
    (ofInt m).compare? (ofInt n) = some (Ord.compare (nearest m) (nearest n)) := by
  have hpos : (0 : Int) < unitsOfOne := Int.natCast_pos.mpr unitsOfOne_pos
  rw [compare?, units?_ofInt hm, units?_ofInt hn]
  dsimp only
  rw [← cmp_eq_compare, ← cmp_eq_compare, cmp_mul_pos_right hpos]

end PageServer.Binary64
