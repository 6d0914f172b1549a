/-
# Names in tags and in conditions

A tag and a condition spell a reference alike. What a word between braces prints
is what the word tests, unless it can be read as a number; and what a word tests
is what it prints between braces, if the tag of its name is not taken for a mark.

* `Token.reference_of_scan`: what is between the braces of a tag that prints
* `Token.scan_word`: the tag of a reference
* `Token.prints_tests`: both uses of a word agree
-/
import Mathlib
import PageServer.Proofs.Condition.Words
import PageServer.Proofs.Template.Trees

namespace PageServer.Token

open Piece (Reads Starts)
open Condition (isBoundary)

/-! ## What a word prints -/

/-- A word is one if a test of its characters says so. -/
theorem forall_of_all {word : Text} (h : word.any isBoundary = false) :
    ∀ c ∈ word, isBoundary c = false :=
  fun c hc => Bool.eq_false_iff.mpr (List.any_eq_false.mp h c hc)

/-- The tokens of a tag that prints a value are this tag alone. -/
def Prints (word file : Text) (r : Reference) : Prop :=
  ∃ span, scan ('\x7b' :: word ++ ['\x7d']) file = .ok [⟨.reference r, span⟩]

/-- Texts joined with what is behind them come first. -/
theorem Kind.before_text_ne (c : Char) (t : Text) (r : Reference) (rest : List Kind) :
    Kind.before (.text (c :: t)) rest ≠ [.reference r] := by
  cases rest with
  | nil => simp [Kind.before]
  | cons next rest => cases next <;> simp [Kind.before]

/-- Of a text between braces with no brace inside, only the whole can be a tag. -/
theorem eq_of_braced {word body rest : Text} (hword : '\x7d' ∉ word) (hbody : '\x7d' ∉ body)
    (h : '\x7b' :: body ++ ['\x7d'] ++ rest = '\x7b' :: word ++ ['\x7d']) :
    body = word ∧ rest = [] := by
  have hsame := Piece.eq_of_isPrefix hbody hword (t := '\x7b' :: word ++ ['\x7d']) ⟨rest, h⟩
    (List.prefix_refl _)
  subst hsame
  refine ⟨rfl, ?_⟩
  simpa using h

/-- A word between braces holds no blank. -/
theorem isBlank_of_mem_braced {word : Text} (hword : ∀ c ∈ word, isBoundary c = false) {c : Char}
    (hc : c ∈ '\x7b' :: word ++ ['\x7d']) : Text.isBlank c = false := by
  rcases List.mem_append.mp hc with hfront | hlast
  · rcases List.mem_cons.mp hfront with rfl | hmem
    · rfl
    · have hboundary := hword c hmem
      rw [isBoundary, Bool.or_eq_false_iff, Bool.or_eq_false_iff] at hboundary
      exact hboundary.1.1
  · obtain rfl := List.mem_singleton.mp hlast
    rfl

/-- What starts a word between braces is the first brace, or the tag that the whole is. -/
theorem starts_braced {word after : Text} {piece : Piece}
    (hword : ∀ c ∈ word, isBoundary c = false) (hbrace : '\x7d' ∉ word)
    (h : Starts ('\x7b' :: word ++ ['\x7d']) piece after) :
    piece.kind = .text ['\x7b'] ∨ (Kind.Inside piece.kind word ∧ after = []) := by
  generalize ht : '\x7b' :: word ++ ['\x7d'] = t at h
  cases h with
  | plain h =>
      left
      rw [Piece.kind, ← (List.cons.inj ht).1]
  | @ignored body _ h =>
      have hmark : '\x7b' :: ("IGNORE" : Text) ++ ['\x7d'] ++ (body ++ Piece.ignoreEnd ++ after) =
          '\x7b' :: word ++ ['\x7d'] := by
        refine Eq.trans ?_ ht.symm
        show Piece.ignoreStart ++ _ = _
        rw [List.append_assoc, List.append_assoc, List.append_assoc]
      have hopen : '\x7d' ∉ ("IGNORE" : Text) := by decide
      obtain ⟨-, hnil⟩ := eq_of_braced hbrace hopen hmark
      obtain ⟨hmarks, -⟩ := List.append_eq_nil_iff.mp hnil
      exact absurd (List.append_eq_nil_iff.mp hmarks).2 (List.cons_ne_nil _ _)
  | @tag kind written _ hspelt hmark =>
      right
      have hblank : ∀ blank ∈ written, Text.isBlank blank = false := by
        intro blank hmem
        apply isBlank_of_mem_braced hword
        rw [ht]
        exact List.mem_append_left after hmem
      cases hspelt with
      | @ifStart blank condition h _ =>
          rw [hblank blank (by simp)] at h
          contradiction
      | @elseIf blank condition h _ =>
          rw [hblank blank (by simp)] at h
          contradiction
      | @braced _ body h =>
          obtain ⟨rfl, hnil⟩ := eq_of_braced hbrace h.not_mem ht.symm
          exact ⟨h, hnil⟩

/-- Nothing is read from an empty text. -/
theorem eq_nil_of_reads {pieces : List Piece} {rest : Text} (h : Reads [] pieces rest) :
    pieces = [] := by
  cases h with
  | nil => rfl
  | cons hpiece hpieces =>
      have hsource := (List.append_eq_nil_iff.mp hpiece.source_append.symm).1
      exact absurd hsource hpiece.source_ne_nil

/-- **A word that prints a reference between braces spells it.** -/
theorem spells_of_prints {word file : Text} {r : Reference}
    (hword : ∀ c ∈ word, isBoundary c = false) (hbrace : '\x7d' ∉ word)
    (h : Prints word file r) : r.Printable ∧ word = r.word := by
  obtain ⟨span, hscan⟩ := h
  obtain ⟨pieces, hreads, hkinds⟩ := exists_reads_of_scan hscan
  cases hreads with
  | @cons _ middle _ piece pieces hpiece hpieces =>
      rw [List.map_cons, List.map_cons, Kind.joined_cons] at hkinds
      rcases starts_braced hword hbrace hpiece with hplain | ⟨hinside, rfl⟩
      · -- a text would come first
        rw [hplain] at hkinds
        exact absurd hkinds.symm (Kind.before_text_ne '\x7b' [] r _)
      · rw [eq_nil_of_reads hpieces] at hkinds
        rw [Kind.before_of_ne_text (text?_of_spelt (.braced hinside))] at hkinds
        obtain ⟨hkind, -⟩ := List.cons.inj hkinds
        rw [← hkind] at hinside
        cases hinside with
        | reference h => exact ⟨h, rfl⟩

/-- **A reference that a tag can spell is printed by its word, unless the tag is a mark.** -/
theorem prints_word {r : Reference} (h : r.Printable) (hmark : r.word ≠ "IGNORE") (file : Text) :
    Prints r.word file r := by
  have hstarts : Starts ('\x7b' :: r.word ++ ['\x7d'] ++ [])
      (.tag (.reference r) ('\x7b' :: r.word ++ ['\x7d'])) [] := by
    refine .tag (.braced (.reference h)) ?_
    intro heq
    have hsame : r.word ++ ['\x7d'] = ("IGNORE" : Text) ++ ['\x7d'] := (List.cons.inj heq).2
    exact hmark (List.append_cancel_right hsame)
  rw [List.append_nil] at hstarts
  obtain ⟨tokens, hscan, hkinds⟩ := kinds_of_reads (.cons hstarts .nil) file
  obtain ⟨token, rfl, hkind⟩ := List.map_eq_singleton_iff.mp hkinds
  obtain ⟨kind, span⟩ := token
  obtain rfl : kind = .reference r := hkind
  exact ⟨span, hscan⟩

/-! ## What a word tests -/

/-- The condition of a word is a reference alone. -/
def Tests (word : Text) (r : Reference) : Prop := Condition.parse word = .ok r.expr

/-- A word tests the reference it spells, if it can not be read as a number. -/
theorem tests_iff {word : Text} (hword : ∀ c ∈ word, isBoundary c = false) {r : Reference} :
    Tests word r ↔ (r.Testable ∧ word = r.word) ∧ Decimal.read? word = none := by
  rw [Tests, Condition.parse_word_eq_ok_iff hword, Condition.Token.ofWord_eq_ok_ref_iff]

/-- **Print tags and conditions agree on names**, but for words that are read as numbers, a mark
that is spelt like a variable, and constants that are not named like variables. -/
theorem prints_tests {word : Text} (hword : ∀ c ∈ word, isBoundary c = false) (file : Text)
    (r : Reference) :
    ('\x7d' ∉ word → Decimal.read? word = none → Prints word file r → Tests word r) ∧
    (word ≠ "IGNORE" → (∀ name, word = "C:" ++ name → Reference.isName name = true) →
      Tests word r → Prints word file r) := by
  constructor
  · intro hbrace hnumber hprints
    obtain ⟨hprintable, hspelt⟩ := spells_of_prints hword hbrace hprints
    exact (tests_iff hword).mpr ⟨⟨hprintable.testable, hspelt⟩, hnumber⟩
  · intro hmark hconstant htests
    obtain ⟨⟨htestable, rfl⟩, -⟩ := (tests_iff hword).mp htests
    have hprintable : r.Printable := by
      cases r with
      | var v => exact htestable
      | constant name => exact hconstant name rfl
    exact prints_word hprintable hmark file

/-- The name of a row's field is printed and tested alike. -/
theorem prints_tests_sample :
    (∀ c ∈ ("rows.AB:C" : Text), isBoundary c = false) ∧
      (Prints "rows.AB:C" "page" (.var ⟨some "rows", ["AB", "C"]⟩) ↔
        Tests "rows.AB:C" (.var ⟨some "rows", ["AB", "C"]⟩)) ∧
      Tests "rows.AB:C" (.var ⟨some "rows", ["AB", "C"]⟩) := by
  have hword : ∀ c ∈ ("rows.AB:C" : Text), isBoundary c = false := forall_of_all (by decide)
  obtain ⟨hforward, hbackward⟩ :=
    prints_tests hword "page" (.var ⟨some "rows", ["AB", "C"]⟩)
  have htests : Tests "rows.AB:C" (.var ⟨some "rows", ["AB", "C"]⟩) := rfl
  refine ⟨hword, ⟨hforward (by decide) (by decide +kernel), hbackward (by decide) ?_⟩, htests⟩
  intro name hname
  exact absurd (List.cons.inj hname).1 (by decide)

/-- The mark before text to be left alone is spelt like a variable, which conditions can test. -/
theorem tests_mark :
    (∀ c ∈ ("IGNORE" : Text), isBoundary c = false) ∧
      ¬ (Prints "IGNORE" "page" (.var ⟨none, ["IGNORE"]⟩) ↔
        Tests "IGNORE" (.var ⟨none, ["IGNORE"]⟩)) := by
  refine ⟨forall_of_all (by decide), ?_⟩
  intro hiff
  obtain ⟨span, hscan⟩ := hiff.mpr rfl
  have hfails : (scan ('\x7b' :: ("IGNORE" : Text) ++ ['\x7d']) "page").isOk = false := by
    decide +kernel
  rw [hscan] at hfails
  contradiction

end PageServer.Token
