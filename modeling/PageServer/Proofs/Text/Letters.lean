/-
# Letters of either case

Words of ASCII are compared with texts in upper or lower case. Some characters
beyond ASCII have letters of ASCII as their other case, but none that a word
without `k` and `i` could be mistaken for.

* `Text.lower_eq_iff`: lower case that is a word of such letters
* `Text.upper_eq_of_sameLetters`: the upper case of a word in any case
-/
import Mathlib
import PageServer.Proofs.Text.Basic
import PageServer.Text.Blank
import PageServer.Text.Lower
import PageServer.Text.Upper

namespace PageServer.Text

/-! ## Lower case -/

/-- Small letters and other characters without capitals, but for those that a character beyond
ASCII has as its lower case. -/
def IsLowerWord (w : Text) : Prop :=
  ∀ c ∈ w, lowerAscii c = c ∧ c ∉ ['k', 'i', '\u212A', '\u0130']

instance (w : Text) : Decidable (IsLowerWord w) :=
  List.decidableBAll (fun c => lowerAscii c = c ∧ c ∉ ['k', 'i', '\u212A', '\u0130']) w

/-- A text in lower case is such a word exactly if it is the word in some case. -/
theorem lower_eq_iff {t w : Text} (hw : IsLowerWord w) :
    lower t = w ↔ t.map lowerAscii = w := by
  induction t generalizing w with
  | nil => exact Iff.rfl
  | cons c t ih =>
      rw [lower, List.flatMap_cons, List.map_cons, ← lower]
      cases w with
      | nil =>
          have hne : lowerOf c ≠ [] := by
            unfold lowerOf
            split_ifs <;> simp
          simp [hne]
      | cons d w =>
          obtain ⟨⟨-, hd⟩, hrest⟩ := List.forall_mem_cons.mp hw
          simp only [List.mem_cons, List.not_mem_nil, or_false, not_or] at hd
          obtain ⟨hk, hi, hkelvin, hdotted⟩ := hd
          unfold lowerOf
          split_ifs with h1 h2
          · have hself : lowerAscii c = '\u212A' := by
              rw [h1]
              decide
            simp [hself, Ne.symm hk, Ne.symm hkelvin]
          · have hself : lowerAscii c = '\u0130' := by
              rw [h2]
              decide
            simp [hself, Ne.symm hi, Ne.symm hdotted]
          · rw [List.singleton_append, List.cons.injEq, List.cons.injEq, ih hrest]

/-- Such a word is in lower case itself. -/
theorem map_lowerAscii_eq {w : Text} (hw : IsLowerWord w) : w.map lowerAscii = w := by
  conv_rhs => rw [← List.map_id w]
  exact List.map_congr_left fun c hc => (hw c hc).1

/-- A text in lower case is such a word exactly if both have the same letters. -/
theorem lower_eq_iff_sameLetters {t w : Text} (hw : IsLowerWord w) :
    lower t = w ↔ sameLetters t w = true := by
  rw [lower_eq_iff hw, sameLetters, beq_iff_eq, map_lowerAscii_eq hw]

/-! ## Upper case -/

/-- A letter of ASCII in either case has the capital as its upper case. -/
theorem upperOf_capital {n : Nat} (hlow : 65 ≤ n) (hhigh : n ≤ 90) :
    upperOf (Char.ofNat n) = [Char.ofNat n] ∧ upperOf (Char.ofNat (n + 32)) = [Char.ofNat n] := by
  have hall : ∀ n < 91, 65 ≤ n →
      upperOf (Char.ofNat n) = [Char.ofNat n] ∧
        upperOf (Char.ofNat (n + 32)) = [Char.ofNat n] := by
    decide
  exact hall n (by omega) hlow

/-- A capital of ASCII by its number. -/
def IsCapital (c : Char) : Prop := 65 ≤ c.toNat ∧ c.toNat ≤ 90

instance (c : Char) : Decidable (IsCapital c) :=
  inferInstanceAs (Decidable (65 ≤ c.toNat ∧ c.toNat ≤ 90))

/-- A character is between the capitals exactly if its number is. -/
theorem isCapital_iff {c : Char} : IsCapital c ↔ 'A' ≤ c ∧ c ≤ 'Z' := Iff.rfl

/-- A character with the small letter of a capital has this capital as its upper case. -/
theorem upperOf_of_lowerAscii_eq {c d : Char} (hd : IsCapital d)
    (h : lowerAscii c = lowerAscii d) : upperOf c = [d] := by
  obtain ⟨hlow, hhigh⟩ := id hd
  have hsmall : lowerAscii d = Char.ofNat (d.toNat + 32) := if_pos (isCapital_iff.mp hd)
  have hnumber {n : Nat} (hn : n < 128) : (Char.ofNat n).toNat = n := by
    rw [Char.toNat_ofNat, if_pos (Or.inl (by omega))]
  have hcase : c = Char.ofNat d.toNat ∨ c = Char.ofNat (d.toNat + 32) := by
    rw [hsmall, lowerAscii] at h
    split_ifs at h with hc
    · obtain ⟨-, hchigh⟩ := isCapital_iff.mpr hc
      have hequal := congrArg Char.toNat h
      rw [hnumber (by omega), hnumber (by omega)] at hequal
      left
      rw [← Char.ofNat_toNat c, show c.toNat = d.toNat by omega]
    · exact Or.inr h
  have hupper := upperOf_capital hlow hhigh
  rw [Char.ofNat_toNat] at hupper hcase
  rcases hcase with rfl | rfl
  · exact hupper.1
  · exact hupper.2

/-- **The upper case of a word in any case is the word in capitals.** -/
theorem upper_eq_of_sameLetters {word name : Text} (hname : ∀ d ∈ name, IsCapital d)
    (h : sameLetters word name = true) : upper word = name := by
  rw [sameLetters, beq_iff_eq] at h
  induction word generalizing name with
  | nil => exact (List.map_eq_nil_iff.mp h.symm).symm
  | cons c word ih =>
      cases name with
      | nil => simp at h
      | cons d name =>
          obtain ⟨hd, hrest⟩ := List.forall_mem_cons.mp hname
          rw [List.map_cons, List.map_cons, List.cons.injEq] at h
          rw [upper, List.flatMap_cons, upperOf_of_lowerAscii_eq hd h.1, ← upper, ih hrest h.2]
          rfl

/-- A blank has no other upper case. -/
theorem upperOf_of_isBlank {c : Char} (h : isBlank c = true) : upperOf c = [c] := by
  have hall : ∀ n ∈ [9, 10, 11, 12, 13, 0x20, 0x85, 0xA0, 0x1680, 0x2000, 0x2001, 0x2002, 0x2003,
      0x2004, 0x2005, 0x2006, 0x2007, 0x2008, 0x2009, 0x200A, 0x2028, 0x2029, 0x202F, 0x205F,
      0x3000], upperOf (Char.ofNat n) = [Char.ofNat n] := by
    decide +kernel
  have hnumber := hall c.toNat ?_
  · rwa [Char.ofNat_toNat] at hnumber
  · simp only [isBlank, Bool.or_eq_true, Bool.and_eq_true, decide_eq_true_eq, beq_iff_eq] at h
    simp only [List.mem_cons, List.not_mem_nil, or_false]
    omega

/-- Whether two texts have the same letters does not depend on their order. -/
theorem sameLetters_comm (t u : Text) : sameLetters t u = sameLetters u t := by
  rw [sameLetters, sameLetters, Bool.beq_comm]

/-- A small letter is no blank, and neither is its capital. -/
theorem isBlank_lowerAscii (c : Char) : isBlank (lowerAscii c) = isBlank c := by
  have hall : ∀ n < 91, 65 ≤ n →
      isBlank (Char.ofNat (n + 32)) = isBlank (Char.ofNat n) := by
    decide +kernel
  unfold lowerAscii
  split_ifs with hcapital
  · obtain ⟨hlow, hhigh⟩ := isCapital_iff.mpr hcapital
    have hsame := hall c.toNat (by omega) hlow
    rwa [Char.ofNat_toNat] at hsame
  · rfl

/-- A text is trimmed in small letters as it is. -/
theorem trim_map_lowerAscii (t : Text) : trim (t.map lowerAscii) = (trim t).map lowerAscii :=
  trimBy_map isBlank_lowerAscii t

/-- Texts with the same letters have them also when they are trimmed, whatever blanks stand
around one of them. -/
theorem sameLetters_trim {t u before behind : Text} (h : sameLetters t u = true)
    (hbefore : ∀ c ∈ before, isBlank c) (hbehind : ∀ c ∈ behind, isBlank c) :
    sameLetters (trim (before ++ t ++ behind)) (trim u) = true := by
  have htrim : trim (before ++ t ++ behind) = trim t := trimBy_append hbefore hbehind t
  rw [sameLetters, beq_iff_eq] at h ⊢
  rw [htrim, ← trim_map_lowerAscii, ← trim_map_lowerAscii, h]

/-- A character without another upper case is in the upper case of what it is in. -/
theorem mem_upper {c : Char} {t : Text} (hc : upperOf c = [c]) (h : c ∈ t) : c ∈ upper t :=
  List.mem_flatMap.mpr ⟨c, h, by rw [hc]; exact List.mem_singleton.mpr rfl⟩

end PageServer.Text
