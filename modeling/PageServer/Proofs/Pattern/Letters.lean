/-
# Patterns that do not look at case

If none of its sets tells a letter from its capital, a pattern fits a text
exactly if it fits the text in small letters. The pattern of an address for mail
is such a one, so whether an address may be used does not depend on the case of
its letters.

* `CharSet.IgnoresCase`, `Look.IgnoresCase`, `Pattern.IgnoresCase`: what does not look at case
* `Pattern.fits_map_lowerAscii`: such a pattern on a text in small letters
* `Rule.ignoresCase_emailPattern`: the pattern of an address for mail
* `Rule.keeps_of_sameLetters`: what is asked of an address, in letters of either case
-/
import PageServer.Form.Rule
import PageServer.Proofs.Form.Checking
import PageServer.Proofs.Text.Letters

namespace PageServer

open PageServer.Text (lowerAscii)

/-! ## Sets and sides -/

namespace CharSet

/-- A set does not tell a capital from its small letter. -/
def IgnoresCase (set : CharSet) : Prop := ∀ c, set.mem (lowerAscii c) = set.mem c

/-- Only the capitals of ASCII have to be looked at. -/
theorem ignoresCase_of_capitals {set : CharSet}
    (h : ∀ n < 91, 65 ≤ n → set.mem (Char.ofNat (n + 32)) = set.mem (Char.ofNat n)) :
    set.IgnoresCase := by
  intro c
  unfold lowerAscii
  split_ifs with hcapital
  · obtain ⟨hlow, hhigh⟩ := Text.isCapital_iff.mpr hcapital
    have hmem := h c.toNat (by omega) hlow
    rwa [Char.ofNat_toNat] at hmem
  · rfl

end CharSet

/-- What is asked of a place does not tell capitals from their small letters. -/
def Look.IgnoresCase (look : Look) : Prop :=
  ∀ before next : Option Char,
    look.holds (before.map lowerAscii) (next.map lowerAscii) = look.holds before next

namespace Pattern

/-! ## Patterns -/

/-- A pattern does not tell capitals from their small letters. -/
def IgnoresCase : Pattern → Prop
  | empty => True
  | one set => set.IgnoresCase
  | look l => l.IgnoresCase
  | cat first second | alt first second => IgnoresCase first ∧ IgnoresCase second
  | times part _ _ => IgnoresCase part

/-- The places behind a character are the same in small letters. -/
theorem shift_map_lowerAscii {set : CharSet} (h : set.IgnoresCase) (text : Text)
    (places : Places) : places.shift set (text.map lowerAscii) = places.shift set text := by
  have hstep : (fun (c : Char) (marked : Bool) => marked && set.mem (lowerAscii c)) =
      fun c marked => marked && set.mem c := by
    funext c marked
    rw [h c]
  unfold Places.shift
  rw [List.zipWith_map_left, hstep]

/-- The places with something at their sides are the same in small letters. -/
theorem keep_map_lowerAscii {look : Look} (h : look.IgnoresCase) (text : Text)
    (places : Places) : places.keep look (text.map lowerAscii) = places.keep look text := by
  have hbefore : none :: (text.map lowerAscii).map some =
      (none :: text.map some).map (Option.map lowerAscii) := by
    simp
  have hnext : (text.map lowerAscii).map some ++ [none] =
      (text.map some ++ [none]).map (Option.map lowerAscii) := by
    simp
  have hholds : (fun before next : Option Char =>
      look.holds (before.map lowerAscii) (next.map lowerAscii)) = look.holds := by
    funext before next
    exact h before next
  unfold Places.keep
  rw [hbefore, hnext, List.zipWith_map, hholds]

/-- **The places behind a pattern that does not look at case are the same in small letters.** -/
theorem after_map_lowerAscii {pattern : Pattern} (h : pattern.IgnoresCase) (text : Text)
    (places : Places) : after (text.map lowerAscii) pattern places = after text pattern places := by
  induction pattern generalizing places with
  | empty => rfl
  | one set => exact shift_map_lowerAscii h text places
  | look l => exact keep_map_lowerAscii h text places
  | cat first second ihFirst ihSecond =>
      rw [after, after, ihFirst h.1, ihSecond h.2]
  | alt first second ihFirst ihSecond =>
      rw [after, after, ihFirst h.1, ihSecond h.2]
  | times part least most ih =>
      have hstep : after (text.map lowerAscii) part = after text part := funext (ih h)
      simp only [after, hstep, List.length_map]

/-- **A pattern that does not look at case fits a text if it fits it in small letters.** -/
theorem fits_map_lowerAscii {pattern : Pattern} (h : pattern.IgnoresCase) (text : Text) :
    pattern.fits (text.map lowerAscii) = pattern.fits text := by
  unfold fits
  rw [after_map_lowerAscii h, List.map_map]
  rfl

end Pattern

namespace Rule

/-! ## Addresses for mail -/

/-- Neither the end nor the start of a text has a case. -/
theorem ignoresCase_ends : Look.textStart.IgnoresCase ∧ Look.textEnd.IgnoresCase := by
  constructor
  · intro before next
    simp [Look.holds]
  · intro before next
    simp [Look.holds]

/-- **The pattern of an address for mail does not look at case.** -/
theorem ignoresCase_emailPattern : emailPattern.IgnoresCase := by
  have hplain : CharSet.asciiAlphanumeric.IgnoresCase := by
    apply CharSet.ignoresCase_of_capitals
    decide +kernel
  have hname : (CharSet.union .asciiAlphanumeric
      (.ofText ".!#$%&\x27*+/=?^_`\x7b|\x7d~-")).IgnoresCase := by
    apply CharSet.ignoresCase_of_capitals
    decide +kernel
  have hinner : (CharSet.union .asciiAlphanumeric (.single '-')).IgnoresCase := by
    apply CharSet.ignoresCase_of_capitals
    decide +kernel
  have hat : (CharSet.single '@').IgnoresCase := by
    apply CharSet.ignoresCase_of_capitals
    decide +kernel
  have hpoint : (CharSet.single '.').IgnoresCase := by
    apply CharSet.ignoresCase_of_capitals
    decide +kernel
  have hlabel : hostLabel.IgnoresCase := ⟨hplain, hinner, hplain⟩
  exact ⟨ignoresCase_ends.1, ⟨hname, hat, hlabel, hpoint, hlabel⟩, ignoresCase_ends.2⟩

/-- Whether a text says something does not depend on the case of its letters. -/
theorem saysSomething_map_lowerAscii (t : Text) :
    saysSomething (t.map lowerAscii) = saysSomething t := by
  have hzero : ∀ trimmed : Text, trimmed.map lowerAscii = ['0'] ↔ trimmed = ['0'] := by
    intro trimmed
    constructor
    · intro h
      obtain ⟨c, rfl, hc⟩ := List.map_eq_singleton_iff.mp h
      have hself : c = '0' := by
        unfold lowerAscii at hc
        split_ifs at hc with hcapital
        · obtain ⟨hlow, hhigh⟩ := Text.isCapital_iff.mpr hcapital
          have hnumber := congrArg Char.toNat hc
          rw [Char.toNat_ofNat, if_pos (Or.inl (by omega))] at hnumber
          change c.toNat + 32 = 48 at hnumber
          omega
        · exact hc
      rw [hself]
    · rintro rfl
      decide
  unfold saysSomething
  dsimp only
  rw [Text.trim_map_lowerAscii, List.isEmpty_map, decide_not, decide_not]
  simp only [hzero]

/-- What is asked of an address for mail does not depend on the case of its letters. -/
theorem keeps_of_sameLetters {t u : Text} (h : Text.sameLetters t u = true) :
    isEmail.keeps t = isEmail.keeps u ∧ required.keeps t = required.keeps u := by
  rw [Text.sameLetters, beq_iff_eq] at h
  constructor
  · show emailPattern.fits t = emailPattern.fits u
    rw [← Pattern.fits_map_lowerAscii ignoresCase_emailPattern t, h,
      Pattern.fits_map_lowerAscii ignoresCase_emailPattern u]
  · show saysSomething t = saysSomething u
    rw [← saysSomething_map_lowerAscii t, h, saysSomething_map_lowerAscii u]

end Rule

end PageServer
