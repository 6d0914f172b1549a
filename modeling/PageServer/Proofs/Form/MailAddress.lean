/-
# Addresses for mail

What the pattern of an address for mail says, label by label. A label has at
most 63 letters, digits, and hyphens, and a hyphen stands at neither end of it:
the pattern has the first character, and may have up to 61 others and a last one
behind it, so that each label is read in one way. An address is a name, an at
sign, and two labels or more with points between them. Neither the name nor a
label has an at sign, and no label has a point, so the parts are those between
the signs.

* `Rule.IsHostLabel`, `Rule.IsMailAddress`: the grammar
* `Rule.mem_hostLabel`: the pattern of a label
* `Rule.check_isEmail_iff`: what is taken for an address
-/
import PageServer.Form.Rule
import PageServer.Proofs.Pattern.Language

namespace PageServer.Rule

variable {t : Text}

/-! ## The grammar -/

/-- The signs that the name in an address may have beside letters and digits. -/
def mailSigns : Text := ".!#$%&\x27*+/=?^_`\x7b|\x7d~-"

/-- A label of the name of a host. -/
structure IsHostLabel (t : Text) : Prop where
  /-- It is not empty. -/
  ne_nil : t ≠ []
  /-- It is not too long. -/
  length_le : t.length ≤ 63
  /-- It has letters, digits, and hyphens. -/
  chars : ∀ c ∈ t, c.isAlphanum = true ∨ c = '-'
  /-- It does not start with a hyphen. -/
  head : t.head? ≠ some '-'
  /-- It does not end with one. -/
  last : t.getLast? ≠ some '-'

/-- An address for mail: one at sign, with a name before it and at least two labels behind it, which
have points between them. -/
def IsMailAddress (t : Text) : Prop :=
  t.count '@' = 1 ∧ ∃ name host : Text, t = name ++ '@' :: host ∧
    (name ≠ [] ∧ ∀ c ∈ name, c.isAlphanum = true ∨ c ∈ mailSigns) ∧
    2 ≤ (Text.splitOn '.' host).length ∧ ∀ label ∈ Text.splitOn '.' host, IsHostLabel label

/-- A hyphen is neither a letter nor a digit. -/
theorem ne_hyphen_of_isAlphanum {c : Char} (h : c.isAlphanum = true) : c ≠ '-' := by
  rintro rfl
  exact absurd h (by decide)

namespace IsHostLabel

/-- A label without hyphens at its ends, by its first character. -/
theorem of_single {c : Char} (h : c.isAlphanum = true) : IsHostLabel [c] where
  ne_nil := List.cons_ne_nil c []
  length_le := by simp
  chars := by simp [h]
  head := by simpa using ne_hyphen_of_isAlphanum h
  last := by simpa using ne_hyphen_of_isAlphanum h

/-- A label of its first character, some others, and its last one. -/
theorem of_ends {first last : Char} {inner : Text} (hfirst : first.isAlphanum = true)
    (hlast : last.isAlphanum = true) (hinner : ∀ c ∈ inner, c.isAlphanum = true ∨ c = '-')
    (hlength : inner.length ≤ 61) : IsHostLabel (first :: (inner ++ [last])) where
  ne_nil := List.cons_ne_nil _ _
  length_le := by
    rw [List.length_cons, List.length_append, List.length_singleton]
    omega
  chars := by
    refine List.forall_mem_cons.mpr ⟨Or.inl hfirst, List.forall_mem_append.mpr ⟨hinner, ?_⟩⟩
    simp [hlast]
  head := by simpa using ne_hyphen_of_isAlphanum hfirst
  last := by
    rw [← List.cons_append, List.getLast?_concat]
    simpa using ne_hyphen_of_isAlphanum hlast

/-- Every label is one of these two kinds. -/
theorem cases (h : IsHostLabel t) :
    (∃ c, t = [c] ∧ c.isAlphanum = true) ∨
      ∃ first inner last, t = first :: (inner ++ [last]) ∧ first.isAlphanum = true ∧
        last.isAlphanum = true ∧ (∀ c ∈ inner, c.isAlphanum = true ∨ c = '-') ∧
        inner.length ≤ 61 := by
  obtain ⟨first, rest, rfl⟩ := List.exists_cons_of_ne_nil h.ne_nil
  obtain ⟨hfirst, hrest⟩ := List.forall_mem_cons.mp h.chars
  have hhead : first.isAlphanum = true :=
    hfirst.resolve_right fun hhyphen => h.head (congrArg some hhyphen)
  rcases List.eq_nil_or_concat rest with rfl | ⟨inner, last, rfl⟩
  · exact Or.inl ⟨first, rfl, hhead⟩
  · rw [List.concat_eq_append] at *
    obtain ⟨hinner, hend⟩ := List.forall_mem_append.mp hrest
    have hlast : last.isAlphanum = true := by
      refine (hend last (List.mem_singleton_self last)).resolve_right fun hhyphen => h.last ?_
      rw [← List.cons_append, List.getLast?_concat, hhyphen]
    have hlength := h.length_le
    rw [List.length_cons, List.length_append, List.length_singleton] at hlength
    exact Or.inr ⟨first, inner, last, rfl, hhead, hlast, hinner, by omega⟩

/-- A label has neither points nor at signs. -/
theorem not_mem (h : IsHostLabel t) : '.' ∉ t ∧ '@' ∉ t := by
  constructor
  · intro hpoint
    exact (h.chars _ hpoint).elim (by decide) (by decide)
  · intro hat
    exact (h.chars _ hat).elim (by decide) (by decide)

end IsHostLabel

/-! ## The pattern -/

/-- **The pattern of a label says just the labels.** -/
theorem mem_hostLabel : t ∈ hostLabel.language ↔ IsHostLabel t := by
  have hinner : ∀ c : Char, (CharSet.union .asciiAlphanumeric (.single '-')).mem c = true ↔
      c.isAlphanum = true ∨ c = '-' := by
    intro c
    rw [CharSet.mem, Bool.or_eq_true, CharSet.mem_asciiAlphanumeric, CharSet.mem_single]
  rw [hostLabel, Pattern.mem_language_cat]
  simp only [Pattern.mem_maybe, Pattern.mem_language_cat, Pattern.mem_times_one,
    Pattern.mem_language_one, CharSet.mem_asciiAlphanumeric, hinner]
  constructor
  · rintro ⟨_, ⟨first, rfl, hfirst⟩, _, rfl | ⟨inner, ⟨-, hlength, hchars⟩, _, ⟨last, rfl, hlast⟩, rfl⟩,
      rfl⟩
    · exact .of_single hfirst
    · have hle : inner.length ≤ 61 := hlength 61 rfl
      exact .of_ends hfirst hlast hchars hle
  · intro h
    rcases h.cases with ⟨c, rfl, hc⟩ | ⟨first, inner, last, rfl, hfirst, hlast, hchars, hlength⟩
    · exact ⟨[c], ⟨c, rfl, hc⟩, [], Or.inl rfl, rfl⟩
    · refine ⟨[first], ⟨first, rfl, hfirst⟩, inner ++ [last], Or.inr ?_, rfl⟩
      refine ⟨inner, ⟨Nat.zero_le _, ?_, hchars⟩, [last], ⟨last, rfl, hlast⟩, rfl⟩
      rintro m ⟨⟩
      exact hlength

/-- Labels with points between them are the parts between the points. -/
theorem labels_iff {host : Text} :
    (∃ labels : List Text, 2 ≤ labels.length ∧ (∀ label ∈ labels, IsHostLabel label) ∧
        host = Text.join ['.'] labels) ↔
      2 ≤ (Text.splitOn '.' host).length ∧ ∀ label ∈ Text.splitOn '.' host, IsHostLabel label := by
  constructor
  · rintro ⟨labels, hcount, hlabels, rfl⟩
    have hne : labels ≠ [] := List.ne_nil_of_length_pos (by omega)
    rw [Text.splitOn_join (fun label hlabel => (hlabels label hlabel).not_mem.1) hne]
    exact ⟨hcount, hlabels⟩
  · rintro ⟨hcount, hlabels⟩
    exact ⟨Text.splitOn '.' host, hcount, hlabels, (Text.join_splitOn '.' host).symm⟩

/-- The pattern of an address says a name, an at sign, and labels with points between them. -/
theorem fits_emailPattern :
    emailPattern.fits t = true ↔ ∃ name host : Text, t = name ++ '@' :: host ∧
      (name ≠ [] ∧ ∀ c ∈ name, c.isAlphanum = true ∨ c ∈ mailSigns) ∧
      2 ≤ (Text.splitOn '.' host).length ∧
        ∀ label ∈ Text.splitOn '.' host, IsHostLabel label := by
  have hname : ∀ c : Char, (CharSet.union .asciiAlphanumeric
      (.ofText ".!#$%&\x27*+/=?^_`\x7b|\x7d~-")).mem c = true ↔
        c.isAlphanum = true ∨ c ∈ mailSigns := by
    intro c
    rw [CharSet.mem, Bool.or_eq_true, CharSet.mem_asciiAlphanumeric, CharSet.mem_ofText]
    rfl
  have hlabel : hostLabel.IsPlain := ⟨trivial, trivial, trivial⟩
  have hhost : ∀ host : Text,
      host ∈ (Pattern.cat hostLabel (.more (.cat (.char '.') hostLabel))).language ↔
        2 ≤ (Text.splitOn '.' host).length ∧
          ∀ label ∈ Text.splitOn '.' host, IsHostLabel label := by
    intro host
    simp only [Pattern.mem_separated, mem_hostLabel]
    exact labels_iff
  refine (Pattern.fits_whole_iff_mem ?plain).trans ?_
  case plain => exact ⟨trivial, trivial, hlabel, trivial, hlabel⟩
  refine Pattern.mem_language_cat.trans ?_
  simp only [Pattern.mem_more_one, hname]
  constructor
  · rintro ⟨name, hbefore, _, ⟨_, hat, host, hbehind, rfl⟩, rfl⟩
    rw [Pattern.mem_char.mp hat]
    exact ⟨name, host, rfl, hbefore, (hhost host).mp hbehind⟩
  · rintro ⟨name, host, rfl, hbefore, hbehind⟩
    exact ⟨name, hbefore, _, Language.append_mem_mul (Pattern.mem_char.mpr rfl)
      ((hhost host).mpr hbehind), rfl⟩

/-- **What is taken for an address for mail.** -/
theorem check_isEmail_iff (t : Text) :
    ∃ accepted, isEmail.check t = .ok accepted ∧ (accepted = true ↔ IsMailAddress t) := by
  refine ⟨_, rfl, ?_⟩
  rw [fits_emailPattern, IsMailAddress]
  constructor
  · rintro ⟨name, host, rfl, hname, hcount, hlabels⟩
    refine ⟨?_, name, host, rfl, hname, hcount, hlabels⟩
    have hbefore : '@' ∉ name := by
      intro hat
      exact (hname.2 _ hat).elim (by decide) (by decide)
    have hbehind : '@' ∉ host := by
      intro hat
      rw [← Text.join_splitOn '.' host] at hat
      rcases Text.mem_or_of_mem_join hat with hpoint | ⟨label, hlabel, hmem⟩
      · exact absurd hpoint (by decide)
      · exact (hlabels label hlabel).not_mem.2 hmem
    rw [List.count_append, List.count_cons_self, List.count_eq_zero.mpr hbefore,
      List.count_eq_zero.mpr hbehind]
  · rintro ⟨-, haddress⟩
    exact haddress

end PageServer.Rule
