/-
# What patterns say

A pattern that asks nothing of the places between characters is known by the
texts that fit it as a whole: one character, texts behind each other, texts of
either kind, and texts of one kind behind each other, so many of them. A row of
characters of a set, and parts with a separator between them, are the kinds from
which the patterns of addresses and dates are made.

* `Pattern.language`: the texts that a pattern says
* `Pattern.leads_iff_reads`: a pattern leads over the texts that it says
* `Pattern.fits_whole_iff_mem`: what fits it as a whole
* `Pattern.mem_times_one`, `Pattern.mem_more_one`: rows of characters
* `Pattern.mem_separated`: parts with a separator between them
-/
import PageServer.Proofs.Pattern.Places
import PageServer.Proofs.Text.Cutting

namespace PageServer

/-! ## Sets -/

namespace CharSet

/-- The set of a single character has this one. -/
theorem mem_single {c d : Char} : (single c).mem d = true ↔ d = c := by
  rw [single, mem, Text.Ranges.holds, List.any_cons, List.any_nil, Bool.or_false, decide_eq_true_iff]
  constructor
  · intro h
    exact Char.toNat_inj.mp (Nat.le_antisymm h.2 h.1)
  · rintro rfl
    exact ⟨Nat.le_refl _, Nat.le_refl _⟩

/-- The characters of some text. -/
theorem mem_ofText {t : Text} {c : Char} : (ofText t).mem c = true ↔ c ∈ t := by
  rw [ofText, mem, Text.Ranges.holds, List.any_map, List.any_eq_true]
  constructor
  · rintro ⟨d, hd, hrange⟩
    have hbounds := decide_eq_true_iff.mp hrange
    exact Char.toNat_inj.mp (Nat.le_antisymm hbounds.2 hbounds.1) ▸ hd
  · intro hc
    exact ⟨c, hc, decide_eq_true ⟨Nat.le_refl _, Nat.le_refl _⟩⟩

/-- The letters and digits of ASCII. -/
theorem mem_asciiAlphanumeric {c : Char} : asciiAlphanumeric.mem c = c.isAlphanum := by
  rw [Bool.eq_iff_iff]
  simp only [asciiAlphanumeric, asciiDigits, asciiLetters, range, mem, Text.Ranges.holds,
    List.any_cons, List.any_nil, Bool.or_false, Bool.or_eq_true, decide_eq_true_iff,
    Char.isAlphanum, Char.isAlpha, Char.isUpper, Char.isLower, Char.isDigit, Bool.and_eq_true,
    ge_iff_le, UInt32.le_iff_toNat_le, Char.toNat]
  exact or_comm

end CharSet

namespace Pattern

variable {text t : Text} {l m : Language Char} {n i j k : Nat}

/-! ## Reading over a text -/

/-- Some texts lead over themselves. -/
def Reads (l : Language Char) (text : Text) (i j : Nat) : Prop :=
  ∃ part ∈ l, part <+: text.drop i ∧ j = i + part.length

theorem reads_one : Reads 1 text i j ↔ i = j := by
  constructor
  · rintro ⟨part, hpart, -, rfl⟩
    rw [(Language.mem_one part).mp hpart]
    rfl
  · rintro rfl
    exact ⟨[], Language.nil_mem_one, List.nil_prefix, rfl⟩

theorem reads_add : Reads (l + m) text i j ↔ Reads l text i j ∨ Reads m text i j := by
  simp only [Reads, Language.mem_add, or_and_right, exists_or]

theorem reads_mul : Reads (l * m) text i k ↔ ∃ j, Reads l text i j ∧ Reads m text j k := by
  constructor
  · rintro ⟨part, hpart, ⟨rest, hrest⟩, rfl⟩
    obtain ⟨first, hfirst, second, hsecond, rfl⟩ := Language.mem_mul.mp hpart
    rw [List.append_assoc] at hrest
    refine ⟨i + first.length, ⟨first, hfirst, ⟨_, hrest⟩, rfl⟩, second, hsecond, ⟨rest, ?_⟩, ?_⟩
    · rw [← List.drop_drop, ← hrest, List.drop_left]
    · rw [List.length_append, Nat.add_assoc]
  · rintro ⟨j, ⟨first, hfirst, ⟨rest, hrest⟩, rfl⟩, second, hsecond, ⟨others, hothers⟩, rfl⟩
    refine ⟨first ++ second, Language.append_mem_mul hfirst hsecond, ⟨others, ?_⟩, ?_⟩
    · rw [← List.drop_drop, ← hrest, List.drop_left] at hothers
      rw [List.append_assoc, hothers, hrest]
    · rw [List.length_append, Nat.add_assoc]

theorem reads_pow : Reads (l ^ n) text i j ↔ Steps (Reads l text) n i j := by
  induction n generalizing i with
  | zero => rw [pow_zero, reads_one, Steps]
  | succ n ih =>
      rw [pow_succ', reads_mul, Steps]
      simp only [ih]

/-! ## Patterns -/

/-- A pattern asks nothing of the places between characters. -/
def IsPlain : Pattern → Prop
  | empty | one _ => True
  | look _ => False
  | cat first second | alt first second => IsPlain first ∧ IsPlain second
  | times part _ _ => IsPlain part

/-- The texts that a pattern says, which asks nothing of the places between characters. -/
def language : Pattern → Language Char
  | empty => 1
  | one set => {t | ∃ c, t = [c] ∧ set.mem c = true}
  | look _ => 0
  | cat first second => language first * language second
  | alt first second => language first + language second
  | times part least most =>
    {t | ∃ more, (∀ m ∈ most, more ≤ m - least) ∧ t ∈ language part ^ (least + more)}

theorem mem_language_one {set : CharSet} :
    t ∈ (one set).language ↔ ∃ c, t = [c] ∧ set.mem c = true := Iff.rfl

theorem mem_language_cat {first second : Pattern} :
    t ∈ (cat first second).language ↔
      ∃ u ∈ first.language, ∃ v ∈ second.language, u ++ v = t := Language.mem_mul

theorem mem_language_times {part : Pattern} {least : Nat} {most : Option Nat} :
    t ∈ (times part least most).language ↔
      ∃ more, (∀ m ∈ most, more ≤ m - least) ∧ t ∈ part.language ^ (least + more) := Iff.rfl

/-- **A pattern leads over the texts that it says.** -/
theorem leads_iff_reads {pattern : Pattern} (h : pattern.IsPlain) :
    Leads text pattern i j ↔ Reads pattern.language text i j := by
  induction pattern generalizing i j with
  | empty => exact reads_one.symm
  | one set =>
      constructor
      · rintro ⟨rfl, c, hc, hmem⟩
        refine ⟨[c], ⟨c, rfl, hmem⟩, ?_, rfl⟩
        obtain ⟨hi, rfl⟩ := List.getElem?_eq_some_iff.mp hc
        rw [List.drop_eq_getElem_cons hi]
        exact ⟨_, rfl⟩
      · rintro ⟨part, ⟨c, rfl, hmem⟩, ⟨rest, hrest⟩, rfl⟩
        refine ⟨rfl, c, ?_, hmem⟩
        rw [← List.head?_drop, ← hrest]
        rfl
  | look l => exact absurd h id
  | cat first second ihFirst ihSecond =>
      rw [language, reads_mul, Leads]
      simp only [ihFirst h.1, ihSecond h.2]
  | alt first second ihFirst ihSecond =>
      rw [language, reads_add, Leads, ihFirst h.1, ihSecond h.2]
  | times part least most ih =>
      have hpart : Leads text part = Reads part.language text := by
        funext i j
        exact propext (ih h)
      rw [Leads, hpart]
      simp only [← reads_pow]
      constructor
      · rintro ⟨more, hmore, part, hmem, hrest⟩
        exact ⟨part, ⟨more, hmore, hmem⟩, hrest⟩
      · rintro ⟨part, ⟨more, hmore, hmem⟩, hrest⟩
        exact ⟨more, hmore, part, hmem, hrest⟩

/-- **What fits a pattern as a whole is what it says.** -/
theorem fits_whole_iff_mem {part : Pattern} (h : part.IsPlain) :
    (whole part).fits text = true ↔ text ∈ part.language := by
  rw [fits_whole_iff, leads_iff_reads h]
  constructor
  · rintro ⟨t, ht, hprefix, hlength⟩
    rw [Nat.zero_add] at hlength
    have heq : t = text := hprefix.eq_of_length hlength.symm
    exact heq ▸ ht
  · intro ht
    exact ⟨text, ht, List.prefix_rfl, (Nat.zero_add _).symm⟩

/-- A part that may be missing. -/
theorem mem_maybe {part : Pattern} :
    t ∈ (maybe part).language ↔ t = [] ∨ t ∈ part.language := by
  rw [maybe, mem_language_times]
  constructor
  · rintro ⟨more, hmore, ht⟩
    have hle : more ≤ 1 := hmore 1 rfl
    interval_cases more
    · exact Or.inl ht
    · rw [zero_add, pow_one] at ht
      exact Or.inr ht
  · rintro (rfl | ht)
    · exact ⟨0, by simp, Language.nil_mem_one⟩
    · refine ⟨1, by simp, ?_⟩
      rwa [zero_add, pow_one]

/-! ## Rows of characters -/

/-- So many characters of a set. -/
theorem mem_pow_one {set : CharSet} :
    t ∈ (one set).language ^ n ↔ t.length = n ∧ ∀ c ∈ t, set.mem c = true := by
  induction n generalizing t with
  | zero => simp +contextual
  | succ n ih =>
      rw [pow_succ', Language.mem_mul]
      constructor
      · rintro ⟨first, ⟨c, rfl, hc⟩, rest, hrest, rfl⟩
        obtain ⟨rfl, hall⟩ := ih.mp hrest
        exact ⟨rfl, List.forall_mem_cons.mpr ⟨hc, hall⟩⟩
      · rintro ⟨hlength, hall⟩
        obtain ⟨c, rest, rfl⟩ := List.exists_cons_of_length_eq_add_one hlength
        obtain ⟨hc, hrest⟩ := List.forall_mem_cons.mp hall
        exact ⟨[c], ⟨c, rfl, hc⟩, rest, ih.mpr ⟨Nat.succ.inj hlength, hrest⟩, rfl⟩

/-- At least and at most so many characters of a set. -/
theorem mem_times_one {set : CharSet} {least : Nat} {most : Option Nat} :
    t ∈ (times (one set) least most).language ↔
      least ≤ t.length ∧ (∀ m ∈ most, t.length - least ≤ m - least) ∧
        ∀ c ∈ t, set.mem c = true := by
  simp only [mem_language_times, mem_pow_one]
  constructor
  · rintro ⟨more, hmost, hlength, hall⟩
    refine ⟨by omega, fun m hm => ?_, hall⟩
    have hmore := hmost m hm
    omega
  · rintro ⟨hleast, hmost, hall⟩
    exact ⟨t.length - least, hmost, by omega, hall⟩

/-- One character of a set, or more. -/
theorem mem_more_one {set : CharSet} :
    t ∈ (more (one set)).language ↔ t ≠ [] ∧ ∀ c ∈ t, set.mem c = true := by
  rw [more, mem_times_one, Nat.succ_le_iff, List.length_pos_iff]
  simp

/-- One character. -/
theorem mem_char {c : Char} : t ∈ (char c).language ↔ t = [c] := by
  rw [char, mem_language_one]
  constructor
  · rintro ⟨d, rfl, hd⟩
    rw [CharSet.mem_single.mp hd]
  · rintro rfl
    exact ⟨c, rfl, CharSet.mem_single.mpr rfl⟩

/-! ## Parts with a separator -/

/-- A part and so many more, each behind a separator. -/
theorem mem_mul_pow {sep : Char} :
    t ∈ l * ((char sep).language * l) ^ n ↔
      ∃ parts : List Text, parts.length = n + 1 ∧ (∀ part ∈ parts, part ∈ l) ∧
        t = Text.join [sep] parts := by
  induction n generalizing t with
  | zero =>
      rw [pow_zero, mul_one]
      constructor
      · intro ht
        exact ⟨[t], rfl, by simpa using ht, by simp [Text.join]⟩
      · rintro ⟨parts, hlength, hall, rfl⟩
        obtain ⟨part, rfl⟩ := List.length_eq_one_iff.mp hlength
        simpa [Text.join] using hall
  | succ n ih =>
      rw [pow_succ', mul_assoc, ← mul_assoc, Language.mem_mul]
      constructor
      · rintro ⟨start, hstart, rest, hrest, rfl⟩
        obtain ⟨first, hfirst, behind, hbehind, rfl⟩ := Language.mem_mul.mp hstart
        obtain ⟨parts, hlength, hall, rfl⟩ := ih.mp hrest
        have hne : parts ≠ [] := List.ne_nil_of_length_eq_add_one hlength
        refine ⟨first :: parts, by rw [List.length_cons, hlength],
          List.forall_mem_cons.mpr ⟨hfirst, hall⟩, ?_⟩
        rw [mem_char.mp hbehind, Text.join_cons hne, List.append_assoc, List.singleton_append]
      · rintro ⟨parts, hlength, hall, rfl⟩
        obtain ⟨first, others, rfl⟩ := List.exists_cons_of_length_eq_add_one hlength
        obtain ⟨hfirst, hothers⟩ := List.forall_mem_cons.mp hall
        have hcount : others.length = n + 1 := Nat.succ.inj hlength
        have hne : others ≠ [] := List.ne_nil_of_length_eq_add_one hcount
        refine ⟨first ++ [sep], Language.append_mem_mul hfirst (mem_char.mpr rfl),
          Text.join [sep] others, ih.mpr ⟨others, hcount, hothers, rfl⟩, ?_⟩
        rw [Text.join_cons hne, List.append_assoc, List.singleton_append]

/-- Two parts or more with a separator between them. -/
theorem mem_separated {sep : Char} {part : Pattern} :
    t ∈ (cat part (more (cat (char sep) part))).language ↔
      ∃ parts : List Text, 2 ≤ parts.length ∧ (∀ u ∈ parts, u ∈ part.language) ∧
        t = Text.join [sep] parts := by
  have hsplit : t ∈ (cat part (more (cat (char sep) part))).language ↔
      ∃ n, t ∈ part.language * ((char sep).language * part.language) ^ (1 + n) := by
    constructor
    · rintro ⟨first, hfirst, rest, ⟨n, -, hrest⟩, rfl⟩
      exact ⟨n, Language.append_mem_mul hfirst hrest⟩
    · rintro ⟨n, first, hfirst, rest, hrest, rfl⟩
      exact Language.append_mem_mul hfirst ⟨n, by simp, hrest⟩
  rw [hsplit]
  simp only [mem_mul_pow]
  constructor
  · rintro ⟨n, parts, hlength, hall, rfl⟩
    exact ⟨parts, by omega, hall, rfl⟩
  · rintro ⟨parts, hlength, hall, rfl⟩
    exact ⟨parts.length - 2, parts, by omega, hall, rfl⟩

end Pattern
end PageServer
