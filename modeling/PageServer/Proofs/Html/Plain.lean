/-
# Texts without markup

A text with neither angle brackets nor double quotes can be written into a page
as it is, between tags and inside an attribute. An escaped text is such a one,
and so is every address for mail, by the characters of its pattern.

* `Html.IsPlain`: a text without these characters
* `Html.isPlain_escape`: an escaped text
* `Rule.isPlain_of_keeps_isEmail`: an address for mail
-/
import PageServer.Proofs.Form.Checking
import PageServer.Proofs.Html.Escape
import PageServer.Proofs.Pattern.Characters

namespace PageServer

/-! ## Plain texts -/

namespace Html

/-- The characters that begin and end tags, and attributes within them. -/
def markup : List Char := ['<', '>', '\x22']

/-- A text without these characters. -/
def IsPlain (t : Text) : Prop := ∀ c ∈ t, c ∉ markup

instance (t : Text) : Decidable (IsPlain t) := List.decidableBAll (fun c => c ∉ markup) t

/-- They are written as entities, and are no part of one. -/
theorem special_of_markup : ∀ c ∈ markup, c ∈ special ∧ c ≠ '&' := by
  simp only [markup, List.forall_mem_cons]
  exact ⟨by decide, by decide, by decide, nofun⟩

/-- **An escaped text is plain.** -/
theorem isPlain_escape (t : Text) : IsPlain (escape t) := by
  intro c hc hmarkup
  obtain ⟨hspecial, hne⟩ := special_of_markup c hmarkup
  exact not_mem_escape hspecial hne t hc

end Html

namespace Rule

/-- The pattern of an address for mail has none of these characters in its sets. -/
theorem emailPattern_within :
    ∃ part, emailPattern = .whole part ∧ part.Within fun c => c ∉ Html.markup := by
  have hset {set : CharSet} (h : (Html.markup.all fun c => !set.mem c) = true) :
      ∀ c, set.mem c = true → c ∉ Html.markup := by
    intro c hmem hmarkup
    have hnot := List.all_eq_true.mp h c hmarkup
    rw [hmem] at hnot
    contradiction
  have hplain : ∀ c, CharSet.asciiAlphanumeric.mem c = true → c ∉ Html.markup := hset (by decide)
  have hlabel : hostLabel.Within fun c => c ∉ Html.markup :=
    ⟨hplain, hset (by decide), hplain⟩
  exact ⟨_, rfl, hset (by decide), hset (by decide), hlabel, hset (by decide), hlabel⟩

/-- **An address for mail is plain.** -/
theorem isPlain_of_keeps_isEmail {t : Text} (h : isEmail.keeps t = true) : Html.IsPlain t := by
  obtain ⟨part, hpattern, hwithin⟩ := emailPattern_within
  have hfits : emailPattern.fits t = true := h
  rw [hpattern] at hfits
  exact Pattern.forall_mem_of_fits_whole hwithin hfits

end Rule
end PageServer
