/-
# Conditions written out

A condition is written with blanks between its tokens, its operators as symbols or
as words, and with parentheses only around operands that would be read
differently without them. It is read back as the same condition, and no shorter
list of tokens is read as it.

* `Condition.tokensAt`, `Condition.written`: the tokens of a condition, and its text
* `Condition.Token.scan_join`: tokens with blanks between them are scanned one by one
* `Condition.readAs_tokensAt`: the tokens are read as the condition, by induction on it
* `Condition.length_tokensAt_le`: no derivation of the condition has fewer tokens
* `Condition.parse_written`: a condition is read back
-/
import Mathlib
import PageServer.Proofs.Condition.Grammar
import PageServer.Proofs.Template.Tags

namespace PageServer

/-! ## Conditions that can be written -/

/-- A value that can be written in a condition: neither a number with a fraction nor a map or a
loop, an integer within its bounds, and a text without one of the quotes. -/
def Value.Writable : Value → Prop
  | .null | .bool _ => True
  | .int n => Number.minInt ≤ n ∧ n ≤ Number.maxInt
  | .str t => ∃ quote, Condition.isQuote quote = true ∧ quote ∉ t
  | .float _ | .map _ | .rows _ => False

/-- A reference that can be written in a condition: some word names it, and its word can not be
read as a number. -/
structure Reference.Writable (r : Reference) : Prop where
  /-- It is the name that a word spells. -/
  named : ∃ word, Reference.ofWord? word = some r
  /-- Its word is no number. -/
  notNumber : Decimal.read? r.word = none

/-- A condition whose values and names can be written. -/
def Expr.Writable : Expr → Prop
  | .lit v => v.Writable
  | .var v => (Reference.var v).Writable
  | .constant name => (Reference.constant name).Writable
  | .not e => e.Writable
  | .binary _ left right => left.Writable ∧ right.Writable

namespace Condition

/-! ## What is written -/

/-- The tokens of a condition where the operators outside parentheses have to bind at least as
tightly as `level`. Operators of one level are grouped to the left, so the right operand has to
bind tighter. -/
def tokensAt : Nat → Expr → List Token
  | _, .lit v => [.lit v]
  | _, .var v => [.ref (.var v)]
  | _, .constant name => [.ref (.constant name)]
  | _, .not e => .negation :: tokensAt 4 e
  | level, .binary op left right =>
    let inside := tokensAt op.level left ++ .op op :: tokensAt (op.level + 1) right
    if level ≤ op.level then inside else .openParen :: inside ++ [.closeParen]

/-- A quote that does not stand in a text, if there is one. -/
def quoteFor (t : Text) : Char :=
  if '\x27' ∉ t then '\x27' else if '\x22' ∉ t then '\x22' else '\x60'

/-- A value as it is written; numbers with a fraction, maps and loops are not. -/
def writtenValue : Value → Text
  | .null => "null"
  | .bool b => if b then "true" else "false"
  | .int n => Text.ofInt n
  | .str t => quoteFor t :: (t ++ [quoteFor t])
  | .float _ | .map _ | .rows _ => []

/-- A token as it is written, operators and negations as words or as symbols. -/
def Token.written (words : Bool) : Token → Text
  | .openParen => "("
  | .closeParen => ")"
  | .negation => if words then "not" else "!"
  | .op o => if words then o.word else o.symbol
  | .lit v => writtenValue v
  | .ref r => r.word

/-- A condition as it is written. -/
def written (words : Bool) (e : Expr) : Text :=
  Text.join " " ((tokensAt 0 e).map (Token.written words))

/-! ## Texts of tokens -/

namespace Token

open Reference (isWordChar isNameChar)

/-- The texts that are scanned as one token. -/
inductive Spelt : Token → Text → Prop where
  /-- An opening parenthesis. -/
  | openParen : Spelt .openParen "("
  /-- A closing parenthesis. -/
  | closeParen : Spelt .closeParen ")"
  /-- The sign of a negation. -/
  | negation : Spelt .negation "!"
  /-- The symbol of an operator. -/
  | symbol (o : Operator) : Spelt (.op o) o.symbol
  /-- A text in quotes that do not stand in it. -/
  | quoted {t : Text} {quote : Char} (hquote : isQuote quote = true) (h : quote ∉ t) :
      Spelt (.lit (.str t)) (quote :: (t ++ [quote]))
  /-- A word. -/
  | word {t : Token} {c : Char} {more : Text} (hchars : ∀ d ∈ c :: more, isBoundary d = false)
      (h : ofWord (c :: more) = .ok t) : Spelt t (c :: more)

/-- A text that nothing follows, or a blank. -/
def Spaced (rest : Text) : Prop := ∀ c ∈ rest.head?, Text.isBlank c = true

/-- Where an equals sign does not follow, a symbol stands alone. -/
theorem withEquals_of_spaced (alone joined : Token) {rest : Text} (h : Spaced rest) :
    withEquals alone joined rest = (alone, 0) := by
  unfold withEquals
  split
  · exact absurd (h '=' rfl) (by decide)
  · rfl

/-- A literal starts at its quote. -/
theorem first_quote {quote : Char} (h : isQuote quote = true) (rest : Text) :
    first quote rest =
      match Text.cut quote rest with
      | some (inside, _) => .ok (some (lit (.str inside)), inside.length + 1)
      | none => .error (.unterminated quote) := by
  simp only [isQuote, Bool.or_eq_true, decide_eq_true_eq] at h
  rcases h with (rfl | rfl) | rfl <;> rfl

/-- A symbol, a literal or a word starts with its first character. -/
theorem first_of_spelt {t : Token} {c : Char} {more rest : Text} (h : Spelt t (c :: more))
    (hrest : Spaced rest) : first c (more ++ rest) = .ok (some t, more.length) := by
  have hequals := fun alone joined => withEquals_of_spaced alone joined hrest
  generalize htext : c :: more = text at h
  cases h with
  | openParen => cases htext; rfl
  | closeParen => cases htext; rfl
  | negation =>
      cases htext
      exact congrArg (fun found => Except.ok (some found.1, found.2)) (hequals _ _)
  | symbol o =>
      cases o with
      | gt =>
          cases htext
          exact congrArg (fun found => Except.ok (some found.1, found.2)) (hequals _ _)
      | lt =>
          cases htext
          exact congrArg (fun found => Except.ok (some found.1, found.2)) (hequals _ _)
      | _ => cases htext; rfl
  | @quoted t quote hquote h =>
      cases htext
      rw [first_quote hquote, List.append_assoc, List.singleton_append, Text.cut_append h]
      simp
  | word hchars h =>
      cases htext
      obtain ⟨hc, hmore⟩ := List.forall_mem_cons.mp hchars
      have hwhole : ((more ++ rest).takeWhile fun d => !isBoundary d) = more := by
        rw [List.takeWhile_append_of_pos (by simpa using hmore)]
        cases rest with
        | nil => simp
        | cons d rest =>
            have hd : isBoundary d = true := by simp [isBoundary, hrest d rfl]
            simp [hd]
      rw [first_of_not_isBoundary hc, hwhole, h]

/-- Scanning goes on behind the rest of a token. -/
theorem scanFrom_append_length (t rest : Text) :
    scanFrom t.length (t ++ rest) = scanFrom 0 rest := by
  induction t with
  | nil => rfl
  | cons c t ih => exact ih

/-- A token is scanned before the others. -/
theorem scanFrom_of_spelt {t : Token} {text rest : Text} {tokens : List Token}
    (h : Spelt t text) (hrest : Spaced rest) (htokens : scanFrom 0 rest = .ok tokens) :
    scanFrom 0 (text ++ rest) = .ok (t :: tokens) := by
  obtain ⟨c, more, rfl⟩ : ∃ c more, text = c :: more := by
    cases h with
    | symbol o => cases o <;> exact ⟨_, _, rfl⟩
    | _ => exact ⟨_, _, rfl⟩
  rw [List.cons_append, scanFrom_of_first (first_of_spelt h hrest), scanFrom_append_length,
    htokens]
  rfl

/-- **Tokens with blanks between them are scanned one by one.** -/
theorem scan_join {tokens : List Token} {texts : List Text}
    (h : List.Forall₂ Spelt tokens texts) : scan (Text.join " " texts) = .ok tokens := by
  unfold scan
  induction h with
  | nil => rfl
  | @cons t text tokens texts hspelt hothers ih =>
      cases hothers with
      | nil =>
          have halone : Text.join " " [text] = text ++ [] := by simp [Text.join]
          rw [halone]
          exact scanFrom_of_spelt hspelt (by simp [Spaced]) rfl
      | @cons t' text' tokens texts hspelt' hothers =>
          have hjoin : Text.join " " (text :: text' :: texts) =
              text ++ ' ' :: Text.join " " (text' :: texts) := by
            rw [Text.join, Text.join, List.intercalate_cons_cons, List.append_assoc]
            rfl
          have hblank : scanFrom 0 (' ' :: Text.join " " (text' :: texts)) =
              .ok (t' :: tokens) := by
            have hfirst : first ' ' (Text.join " " (text' :: texts)) = .ok (none, 0) := rfl
            rw [scanFrom_of_first hfirst, ih]
            rfl
          rw [hjoin]
          exact scanFrom_of_spelt hspelt (by simp [Spaced]; rfl) hblank

/-! ## Tokens as they are written -/

/-- A character of a name ends no word. -/
theorem isBoundary_of_isWordChar {c : Char} (h : isWordChar c = true) : isBoundary c = false := by
  rw [Bool.eq_false_iff]
  intro hboundary
  simp only [isBoundary, isQuote, Bool.or_eq_true, decide_eq_true_eq, List.contains_eq_mem,
    List.mem_cons, List.not_mem_nil, or_false] at hboundary
  rcases hboundary with (hblank | hquote) | hmark
  · rw [Token.Kind.isWordChar_of_isBlank hblank] at h
    contradiction
  · rcases hquote with (rfl | rfl) | rfl <;> exact absurd h (by decide)
  · rcases hmark with rfl | rfl | rfl | rfl | rfl | rfl | rfl | rfl <;> exact absurd h (by decide)

/-- The digits of an integer and the sign before them end no word. -/
theorem isBoundary_of_mem_ofInt {n : Int} {c : Char} (h : c ∈ Text.ofInt n) :
    isBoundary c = false := by
  have hdigit : ∀ {m : Nat}, c ∈ Text.ofNat m → isBoundary c = false := by
    intro m hc
    apply isBoundary_of_isWordChar
    have hdigit := Text.isDigit_of_mem_ofNat hc
    rw [Number.isDigit_eq] at hdigit
    simp [isWordChar, isNameChar, hdigit]
  cases n with
  | ofNat n => exact hdigit h
  | negSucc n =>
      rcases List.mem_cons.mp h with rfl | hmem
      · decide
      · exact hdigit hmem

/-- An integer within its bounds is read as such. -/
theorem ofWord_ofInt {n : Int} (h : Number.minInt ≤ n ∧ n ≤ Number.maxInt) :
    ofWord (Text.ofInt n) = .ok (.lit (.int n)) := by
  obtain ⟨c, hc, hlower⟩ : ∃ c ∈ Text.ofInt n, c.isLower = false := by
    have hdigit : ∀ m : Nat, ∃ c ∈ Text.ofNat m, c.isLower = false := by
      intro m
      obtain ⟨c, hc⟩ := List.exists_mem_of_ne_nil _ (Text.ofNat_ne_nil m)
      have hdigit := Text.isDigit_of_mem_ofNat hc
      rw [Number.isDigit_eq] at hdigit
      exact ⟨c, hc, isLower_of_isNameChar (by simp [isNameChar, hdigit])⟩
    cases n with
    | ofNat n => exact hdigit n
    | negSucc n => exact ⟨'-', List.mem_cons_self, rfl⟩
  have hread : Number.readInt? (Text.ofInt n) = some n := by
    rw [Number.readInt?_ofInt]
    simp [h]
  rw [ofWord, lookup_keywords_eq_none hc hlower, hread]

/-- A word that is not empty and ends nowhere inside is scanned as what it is read as. -/
theorem spelt_word {t : Token} {word : Text} (hne : word ≠ [])
    (hchars : ∀ c ∈ word, isBoundary c = false) (h : ofWord word = .ok t) : Spelt t word := by
  cases word with
  | nil => contradiction
  | cons c more => exact .word hchars h

/-- The same of a word that is given. -/
theorem spelt_given {t : Token} {c : Char} {more : Text}
    (hchars : (c :: more).any isBoundary = false) (h : ofWord (c :: more) = .ok t) :
    Spelt t (c :: more) :=
  .word (fun d hd => by simpa using List.any_eq_false.mp hchars d hd) h

/-- A text is put between quotes that do not stand in it. -/
theorem isQuote_quoteFor {t : Text} (h : ∃ quote, isQuote quote = true ∧ quote ∉ t) :
    isQuote (quoteFor t) = true ∧ quoteFor t ∉ t := by
  obtain ⟨quote, hquote, hmem⟩ := h
  simp only [isQuote, Bool.or_eq_true, decide_eq_true_eq] at hquote
  unfold quoteFor
  by_cases hfirst : '\x27' ∉ t
  · rw [if_pos hfirst]
    exact ⟨rfl, hfirst⟩
  rw [if_neg hfirst]
  by_cases hsecond : '\x22' ∉ t
  · rw [if_pos hsecond]
    exact ⟨rfl, hsecond⟩
  rw [if_neg hsecond]
  rcases hquote with (rfl | rfl) | rfl
  · exact absurd hmem hfirst
  · exact absurd hmem hsecond
  · exact ⟨rfl, hmem⟩

/-- A value that can be written is scanned as itself. -/
theorem spelt_value {v : Value} (h : v.Writable) : Spelt (.lit v) (writtenValue v) := by
  cases v with
  | null => exact spelt_given rfl rfl
  | bool b =>
      cases b with
      | false => exact spelt_given rfl rfl
      | true => exact spelt_given rfl rfl
  | int n =>
      refine spelt_word ?_ (fun c => isBoundary_of_mem_ofInt) (ofWord_ofInt h)
      cases n with
      | ofNat n => exact Text.ofNat_ne_nil n
      | negSucc n => exact List.cons_ne_nil _ _
  | str t =>
      obtain ⟨hquote, hmem⟩ := isQuote_quoteFor h
      exact .quoted hquote hmem
  | _ => contradiction

/-- A reference that can be written is scanned as itself. -/
theorem spelt_reference {r : Reference} (h : r.Writable) : Spelt (.ref r) r.word := by
  obtain ⟨word, hword⟩ := h.named
  obtain ⟨htestable, -⟩ := Reference.ofWord?_eq_some_iff.mp hword
  obtain ⟨⟨c, hc, -⟩, -⟩ := exists_mem_word htestable
  refine spelt_word (List.ne_nil_of_mem hc) (fun d hd => ?_)
    (ofWord_eq_ok_ref_iff.mpr ⟨⟨htestable, rfl⟩, h.notNumber⟩)
  exact isBoundary_of_isWordChar (Reference.isWordChar_of_mem_word htestable hd)

/-- A token whose value or name can be written. -/
def Writable : Token → Prop
  | .lit v => v.Writable
  | .ref r => r.Writable
  | _ => True

/-- Such a token is scanned as itself. -/
theorem spelt_written {t : Token} (h : t.Writable) (words : Bool) : Spelt t (t.written words) := by
  cases t with
  | openParen => exact .openParen
  | closeParen => exact .closeParen
  | negation =>
      cases words with
      | false => exact .negation
      | true => exact spelt_given rfl rfl
  | op o =>
      cases words with
      | false => exact .symbol o
      | true => cases o <;> exact spelt_given rfl rfl
  | lit v => exact spelt_value h
  | ref r => exact spelt_reference h

end Token

/-- The tokens of a condition that can be written can be written. -/
theorem writable_tokensAt {e : Expr} (h : e.Writable) (level : Nat) :
    ∀ t ∈ tokensAt level e, t.Writable := by
  induction e generalizing level with
  | lit v => exact List.forall_mem_singleton.mpr h
  | var v => exact List.forall_mem_singleton.mpr h
  | constant name => exact List.forall_mem_singleton.mpr h
  | not e ih =>
      rw [tokensAt, List.forall_mem_cons]
      exact ⟨trivial, ih h 4⟩
  | binary op left right ihleft ihright =>
      have hinside : ∀ t ∈ tokensAt op.level left ++ .op op :: tokensAt (op.level + 1) right,
          t.Writable := by
        rw [List.forall_mem_append, List.forall_mem_cons]
        exact ⟨ihleft h.1 _, trivial, ihright h.2 _⟩
      rw [tokensAt]
      split_ifs
      · exact hinside
      · rw [List.cons_append, List.forall_mem_cons, List.forall_mem_append]
        exact ⟨trivial, hinside, by simp [Token.Writable]⟩

/-! ## Reading back -/

/-- **The tokens of a condition are read as the condition.** -/
theorem readAs_tokensAt (e : Expr) {level : Nat} (hlevel : level ≤ 4) :
    ReadAs level (tokensAt level e) e := by
  induction e generalizing level with
  | lit v => exact fun stack rest _ _ => rfl
  | var v => exact fun stack rest _ _ => rfl
  | constant name => exact fun stack rest _ _ => rfl
  | not e ih =>
      intro stack rest _ _
      exact ih (Nat.le_refl 4) (.negation :: stack) rest (Nat.le_refl 4)
        ((ends_four rest).mono (Nat.le_succ 4))
  | binary op left right ihleft ihright =>
      have hop := level_lt_four op
      -- without parentheses, where only operators that bind less are open
      have hinside : ∀ level ≤ op.level, ReadAs level
          (tokensAt op.level left ++ .op op :: tokensAt (op.level + 1) right)
          (.binary op left right) := by
        intro level hle stack rest hfits hrest
        have hopen := hfits.mono hle
        have hends := hrest.mono (Nat.succ_le_succ hle)
        rw [List.append_assoc, List.cons_append,
          ihleft hop.le stack _ hopen (ends_op_iff.mpr (Nat.lt_succ_self _)),
          hopen.negate_eq hop, behindOperand_op hopen (ihright hop) hends,
          hfits.negate_eq (hle.trans_lt hop)]
      rw [tokensAt]
      split_ifs with hle
      · exact hinside level hle
      · intro stack rest _ _
        exact (hinside 0 (Nat.zero_le _)).group stack rest (fits_four stack)
          ((ends_four rest).mono (Nat.le_succ 4))

/-- Fewer parentheses are needed where operators may bind less. -/
theorem length_tokensAt_mono (e : Expr) {level level' : Nat} (h : level ≤ level') :
    (tokensAt level e).length ≤ (tokensAt level' e).length := by
  cases e with
  | binary op left right =>
      rw [tokensAt, tokensAt]
      split_ifs with hless hmore hmore
      · exact Nat.le_refl _
      · simp only [List.cons_append, List.length_cons, List.length_append]
        omega
      · omega
      · exact Nat.le_refl _
  | _ => exact Nat.le_refl _

/-- Parentheses are two tokens more. -/
theorem length_tokensAt_le_add (e : Expr) (level : Nat) :
    (tokensAt level e).length ≤ (tokensAt 0 e).length + 2 := by
  cases e with
  | binary op left right =>
      rw [tokensAt, tokensAt, if_pos (Nat.zero_le _)]
      split_ifs
      · exact Nat.le_add_right _ 2
      · rw [List.cons_append, List.length_cons, List.length_append, List.length_singleton]
  | _ => exact Nat.le_add_right _ 2

mutual

/-- **A derivation has at least the tokens that its tree is written with.** -/
theorem length_tokensAt_le : ∀ {part : Part} (p : Phrase part),
    (tokensAt part.level p.tree).length ≤ p.tokens.length
  | .joined tier, .joined first others => by
      have hfirst := length_tokensAt_le first
      rw [Part.level_operand] at hfirst
      have hmono := length_tokensAt_mono first.tree (Nat.le_succ tier.level)
      have hothers := length_joinedTo_le others first.tree
      rw [Phrase.tokens, List.length_append]
      exact hothers.trans (Nat.add_le_add_right (hmono.trans hfirst) _)
  | .unary, .negation negated => Nat.succ_le_succ (length_tokensAt_le negated)
  | .unary, .plain operand => length_tokensAt_le operand
  | .primary, .literal v => Nat.le_refl _
  | .primary, .reference (.var v) => Nat.le_refl _
  | .primary, .reference (.constant name) => Nat.le_refl _
  | .primary, .group inside => by
      have hinside : (tokensAt 0 inside.tree).length ≤ inside.tokens.length :=
        length_tokensAt_le inside
      have hparens := length_tokensAt_le_add inside.tree 4
      rw [Phrase.tokens, List.length_append, List.length_cons, List.length_singleton]
      exact hparens.trans (by omega)

/-- The same of what follows a first operand. -/
theorem length_joinedTo_le : ∀ {tier : Tier} (others : Others tier) (e : Expr),
    (tokensAt tier.level (others.joinedTo e)).length ≤
      (tokensAt tier.level e).length + others.tokens.length
  | _, .nil, e => Nat.le_refl _
  | tier, .cons o ho next others, e => by
      have hlevel := Tier.mem_operators_iff.mp ho
      have hnext := length_tokensAt_le next
      rw [Part.level_operand, ← hlevel] at hnext
      have hothers := length_joinedTo_le others (.binary o e next.tree)
      rw [← hlevel] at hothers ⊢
      rw [tokensAt, if_pos (Nat.le_refl _)] at hothers
      rw [Others.joinedTo, Others.tokens]
      simp only [List.length_append, List.length_cons] at hothers ⊢
      omega

end

/-- A condition is the one that its tokens are read as. -/
theorem parse_of_scan {source : Text} {tokens : List Token} {e : Expr}
    (hscan : Token.scan source = .ok tokens) (h : operand [] tokens = .ok e) :
    parse source = .ok e := by
  rw [parse, hscan]
  cases tokens with
  | nil => contradiction
  | cons t tokens => exact h

/-- A condition whose tokens stand with blanks between them is read as such. -/
theorem parse_join {e : Expr} {texts : List Text}
    (h : List.Forall₂ Token.Spelt (tokensAt 0 e) texts) : parse (Text.join " " texts) = .ok e := by
  have hread := readAs_tokensAt e (Nat.zero_le 4) [] [] trivial (ends_nil 1)
  rw [List.append_nil] at hread
  exact parse_of_scan (Token.scan_join h) hread

/-- A condition is read as it is written. -/
theorem parse_of_writable {e : Expr} (h : e.Writable) (words : Bool) :
    parse (written words e) = .ok e := by
  apply parse_join
  rw [List.forall₂_map_right_iff, List.forall₂_same]
  exact fun t ht => Token.spelt_written (writable_tokensAt h 0 t ht) words

/-- **A condition that is written with symbols or with words is read back, and no list of tokens
that is read as it is shorter than the one it is written with.** -/
theorem parse_written {e : Expr} (h : e.Writable) (words : Bool) :
    parse (written words e) = .ok e ∧
      ∀ tokens, operand [] tokens = .ok e → (tokensAt 0 e).length ≤ tokens.length := by
  constructor
  · exact parse_of_writable h words
  · intro tokens htokens
    obtain ⟨p, rfl, rfl⟩ := operand_eq_ok_iff.mp htokens
    exact length_tokensAt_le p

/-- A condition with a choice in parentheses, a negated comparison and a text with a quote. -/
def writtenSample : Expr :=
  .binary .and (.binary .or (.var ⟨none, ["AB"]⟩) (.var ⟨some "x", ["CD"]⟩))
    (.binary .eq (.not (.binary .lt (.lit (.int (-5))) (.constant "N"))) (.lit (.str "it\x27s")))

/-- It is written with parentheses around the choice and the comparison only. -/
theorem parse_written_sample :
    writtenSample.Writable ∧
      written false writtenSample = "( AB || x.CD ) && ! ( -5 < C:N ) == \x22it\x27s\x22" ∧
      parse (written false writtenSample) = .ok writtenSample ∧
      written true writtenSample =
        "( AB or x.CD ) and not ( -5 lt C:N ) eq \x22it\x27s\x22" ∧
      parse (written true writtenSample) = .ok writtenSample := by
  have hfirst : (Reference.var ⟨none, ["AB"]⟩).Writable := ⟨⟨"AB", rfl⟩, rfl⟩
  have hsecond : (Reference.var ⟨some "x", ["CD"]⟩).Writable := ⟨⟨"x.CD", rfl⟩, rfl⟩
  have hconstant : (Reference.constant "N").Writable := ⟨⟨"C:N", rfl⟩, rfl⟩
  have hint : (Value.int (-5)).Writable := by constructor <;> decide
  have htext : (Value.str "it\x27s").Writable := ⟨'\x22', rfl, by decide⟩
  have hsample : writtenSample.Writable := ⟨⟨hfirst, hsecond⟩, ⟨hint, hconstant⟩, htext⟩
  exact ⟨hsample, rfl, (parse_written hsample false).1, rfl, (parse_written hsample true).1⟩

end Condition
end PageServer
