/-
# Words of conditions

A condition of one word is a literal or a name. A word that spells a reference is
that reference, unless it can be read as a number, and a word with a character
that stands in none of these is refused.

* `Token.ofWord_eq_ok_ref_iff`: the words that are names
* `Token.exists_ofWord_eq_error`: characters that stand in no word
* `parse_word_eq_ok_iff`: a condition that is one word
-/
import Mathlib
import PageServer.Proofs.Condition.Literals
import PageServer.Proofs.Number.Shape
import PageServer.Proofs.Template.Names

namespace PageServer

/-- The condition that is a reference alone. -/
def Reference.expr : Reference → Expr
  | var v => .var v
  | constant name => .constant name

namespace Condition.Token

open Reference (isWordChar isWordChar_of_mem_word)

/-! ## Single words -/

/-- The words with a fixed meaning are in small letters, and none of them is a name. -/
theorem of_lookup_keywords {word : Text} {t : Token} (h : keywords.lookup word = some t) :
    (∀ c ∈ word, c.isLower = true) ∧ ∀ r, t ≠ .ref r := by
  obtain ⟨before, after, heq, -⟩ := List.lookup_eq_some_iff.mp h
  have hmem : (word, t) ∈ keywords := by
    rw [heq]
    exact List.mem_append_right before List.mem_cons_self
  simp only [keywords, Operator.all, List.map_cons, List.map_nil, List.cons_append,
    List.nil_append, List.mem_cons, List.not_mem_nil, or_false, Prod.mk.injEq] at hmem
  constructor
  · rw [← List.all_eq_true]
    rcases hmem with ⟨rfl, -⟩ | ⟨rfl, -⟩ | ⟨rfl, -⟩ | ⟨rfl, -⟩ | ⟨rfl, -⟩ | ⟨rfl, -⟩ | ⟨rfl, -⟩ |
      ⟨rfl, -⟩ | ⟨rfl, -⟩ | ⟨rfl, -⟩ | ⟨rfl, -⟩ | ⟨rfl, -⟩ <;> rfl
  · rintro r rfl
    simp at hmem

/-- A word with a character that is no small letter has no fixed meaning. -/
theorem lookup_keywords_eq_none {word : Text} {c : Char} (hc : c ∈ word)
    (hlower : c.isLower = false) : keywords.lookup word = none := by
  by_contra hsome
  obtain ⟨t, ht⟩ := Option.ne_none_iff_exists'.mp hsome
  rw [(of_lookup_keywords ht).1 c hc] at hlower
  contradiction

/-- The characters of names are no small letters. -/
theorem isLower_of_isNameChar {c : Char} (h : Reference.isNameChar c = true) :
    c.isLower = false := by
  rw [Bool.eq_false_iff]
  intro hlower
  simp only [Reference.isNameChar, Char.isDigit, Char.isUpper, Char.isLower, Bool.or_eq_true,
    Bool.and_eq_true, decide_eq_true_eq, UInt32.le_iff_toNat_le, ge_iff_le] at h hlower
  rcases h with (h | h) | rfl <;> simp at * <;> omega

/-- The word of a reference holds a character that is neither a digit nor a small letter. -/
theorem exists_mem_word {r : Reference} (h : r.Testable) :
    (∃ c ∈ r.word, Number.isDigit c = false) ∧ ∃ c ∈ r.word, c.isLower = false := by
  cases r with
  | constant name =>
      have hC : 'C' ∈ (Reference.constant name).word := List.mem_cons_self
      exact ⟨⟨'C', hC, rfl⟩, 'C', hC, rfl⟩
  | var v =>
      obtain ⟨scope, path⟩ := v
      cases scope with
      | some name =>
          have hdot : '.' ∈ (Reference.var ⟨some name, path⟩).word := by simp [Reference.word]
          exact ⟨⟨'.', hdot, rfl⟩, '.', hdot, rfl⟩
      | none =>
          obtain ⟨c, d, rest, hstart, hc, -⟩ := h.path.exists_start
          have hnamed := h.named
          push Not at hnamed
          obtain ⟨other, hother, hdigit⟩ := hnamed
          refine ⟨⟨other, hother, ?_⟩, c, ?_, isLower_of_isNameChar hc⟩
          · rw [Number.isDigit_eq]
            exact Bool.eq_false_iff.mpr hdigit
          · rw [Reference.word, hstart]
            exact List.mem_cons_self

/-- **The words that are names: those that spell a reference and can not be read as a number.** -/
theorem ofWord_eq_ok_ref_iff {word : Text} {r : Reference} :
    ofWord word = .ok (.ref r) ↔ (r.Testable ∧ word = r.word) ∧ Decimal.read? word = none := by
  unfold ofWord
  rw [← Reference.ofWord?_eq_some_iff]
  constructor
  · intro h
    split at h
    · rename_i t hlookup
      exact absurd (Except.ok.inj h) ((of_lookup_keywords hlookup).2 r)
    · split at h
      · cases h
      · cases h
      · rename_i hdecimal hword
        obtain rfl := Token.ref.inj (Except.ok.inj h)
        exact ⟨hword, hdecimal⟩
      · contradiction
  · rintro ⟨hword, hdecimal⟩
    obtain ⟨htestable, rfl⟩ := Reference.ofWord?_eq_some_iff.mp hword
    obtain ⟨⟨c, hc, hdigit⟩, d, hd, hlower⟩ := exists_mem_word htestable
    have hkeyword := lookup_keywords_eq_none hd hlower
    have hint : Number.readInt? r.word = none := by
      by_contra hsome
      obtain ⟨n, hn⟩ := Option.ne_none_iff_exists'.mp hsome
      have hsigned := Decimal.isSigned_of_readInt? hn
      rcases hsigned.mem hc with hdigit' | rfl | rfl
      · rw [hdigit'] at hdigit
        contradiction
      · exact absurd (isWordChar_of_mem_word htestable hc) (by decide)
      · exact absurd (isWordChar_of_mem_word htestable hc) (by decide)
    rw [hkeyword, hint, hdecimal, hword]

/-- A word with a character that stands neither in words, in numbers nor in names is refused. -/
theorem exists_ofWord_eq_error {word : Text} {c : Char} (hc : c ∈ word)
    (hlower : c.isLower = false) (hnumeral : Decimal.isNumeral c = false)
    (hname : isWordChar c = false) : ∃ problem, ofWord word = .error problem := by
  have hkeyword := lookup_keywords_eq_none hc hlower
  have hint : Number.readInt? word = none := by
    by_contra hsome
    obtain ⟨n, hn⟩ := Option.ne_none_iff_exists'.mp hsome
    rw [Decimal.isNumeral_of_isSigned (Decimal.isSigned_of_readInt? hn) c hc] at hnumeral
    contradiction
  have hdecimal : Decimal.read? word = none := by
    by_contra hsome
    obtain ⟨x, hx⟩ := Option.ne_none_iff_exists'.mp hsome
    rw [Decimal.isNumeral_of_read? hx c hc] at hnumeral
    contradiction
  have hword : Reference.ofWord? word = none := by
    by_contra hsome
    obtain ⟨r, hr⟩ := Option.ne_none_iff_exists'.mp hsome
    obtain ⟨htestable, rfl⟩ := Reference.ofWord?_eq_some_iff.mp hr
    rw [isWordChar_of_mem_word htestable hc] at hname
    contradiction
  refine ⟨.unknownWord word, ?_⟩
  rw [ofWord, hkeyword, hint, hdecimal, hword]

/-! ## Conditions of one word -/

/-- What starts with a character that ends no word is a word up to the next one that does. -/
theorem first_of_not_isBoundary {c : Char} (hc : isBoundary c = false) (rest : Text) :
    first c rest =
      match ofWord (c :: rest.takeWhile fun d => !isBoundary d) with
      | .ok t => .ok (some t, (rest.takeWhile fun d => !isBoundary d).length)
      | .error problem => .error problem := by
  simp only [isBoundary, Bool.or_eq_false_iff, List.contains_eq_mem, decide_eq_false_iff_not,
    List.mem_cons, List.not_mem_nil, or_false, not_or] at hc
  obtain ⟨⟨hblank, hquote⟩, hopen, hclose, hnot, heq, hlt, hgt, hand, hor⟩ := hc
  unfold first
  cases hword : ofWord (c :: rest.takeWhile fun d => !isBoundary d) <;>
    simp only [hblank, hopen, hclose, hnot, heq, hgt, hlt, hand, hor, hquote, hword, if_false,
      Bool.false_eq_true]

/-- Scanning finds what starts at a character and goes on behind it. -/
theorem scanFrom_of_first {c : Char} {rest : Text} {found : Option Token} {size : Nat}
    (h : first c rest = .ok (found, size)) :
    scanFrom 0 (c :: rest) = (scanFrom size rest).map fun tokens => found.toList ++ tokens := by
  conv_lhs => unfold scanFrom
  rw [h]
  dsimp only
  cases scanFrom size rest <;> rfl

/-- Scanning fails where no token starts. -/
theorem scanFrom_of_first_error {c : Char} {rest : Text} {problem : Problem}
    (h : first c rest = .error problem) : scanFrom 0 (c :: rest) = .error problem := by
  unfold scanFrom
  rw [h]

/-- Nothing is left behind the rest of the last token. -/
theorem scanFrom_length (t : Text) : scanFrom t.length t = .ok [] := by
  induction t with
  | nil => rfl
  | cons c rest ih => exact ih

/-- The token of a condition that is one word. -/
theorem scan_of_not_isBoundary {c : Char} {rest : Text}
    (h : ∀ d ∈ c :: rest, isBoundary d = false) :
    scan (c :: rest) = (ofWord (c :: rest)).map fun t => [t] := by
  obtain ⟨hc, hrest⟩ := List.forall_mem_cons.mp h
  have hwhole : (rest.takeWhile fun d => !isBoundary d) = rest :=
    List.takeWhile_eq_self_iff.mpr fun d hd => by simp [hrest d hd]
  have hfirst := first_of_not_isBoundary hc rest
  rw [hwhole] at hfirst
  unfold scan
  cases hword : ofWord (c :: rest) with
  | error problem =>
      rw [hword] at hfirst
      exact scanFrom_of_first_error hfirst
  | ok t =>
      rw [hword] at hfirst
      rw [scanFrom_of_first hfirst, scanFrom_length]
      rfl

end Token

/-- The condition of one token is a reference if the token is. -/
theorem operand_singleton_eq_ok_iff {t : Token} {r : Reference} :
    operand [] [t] = .ok r.expr ↔ t = .ref r := by
  constructor
  · intro h
    cases t with
    | ref found =>
        cases found <;> cases r <;> cases h <;> rfl
    | lit v => cases r <;> cases h
    | _ => contradiction
  · rintro rfl
    cases r <;> rfl

/-- **A condition that is one word is a reference if the word is.** -/
theorem parse_word_eq_ok_iff {word : Text} {r : Reference}
    (h : ∀ c ∈ word, isBoundary c = false) :
    parse word = .ok r.expr ↔ Token.ofWord word = .ok (.ref r) := by
  cases word with
  | nil =>
      have hempty : Token.ofWord [] ≠ .ok (.ref r) := by
        intro hword
        obtain ⟨⟨htestable, hnil⟩, -⟩ := Token.ofWord_eq_ok_ref_iff.mp hword
        obtain ⟨⟨c, hc, -⟩, -⟩ := Token.exists_mem_word htestable
        rw [← hnil] at hc
        exact absurd hc List.not_mem_nil
      have hparse : parse [] = .error .empty := rfl
      rw [hparse]
      exact iff_of_false (by simp) hempty
  | cons c rest =>
      rw [parse, Token.scan_of_not_isBoundary h]
      cases hword : Token.ofWord (c :: rest) with
      | error problem => simp [Except.map]
      | ok t =>
          show operand [] [t] = .ok r.expr ↔ Except.ok t = Except.ok (.ref r)
          rw [operand_singleton_eq_ok_iff, Except.ok.injEq]

end Condition
end PageServer
