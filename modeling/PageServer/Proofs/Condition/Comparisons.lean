/-
# What conditions say of integers and texts

A condition compares two integers as the nearest numbers with 53 significant
binary digits. It takes different integers for equal if they become the same
number, and says the truth of all others.

A condition that compares a variable with its own text says that they are equal,
unless the text is a name of NaN: such a text is compared as a number, and NaN is
not equal to itself.

* `Condition.Says`: the answer of a condition
* `Operator.relates`: the relation that an operator stands for
* `Operator.relates_nearest`: the relation between the nearest numbers
* `Condition.says_integers`: the answers for integers, and when they are the truth
* `Condition.says_equal_texts`: the answers for equal texts
-/
import PageServer.Proofs.Condition.Printing
import PageServer.Proofs.Number.Nearest
import PageServer.Proofs.Template.Comparing
import PageServer.Template.Render

namespace PageServer

open Binary64 (nearest nearest_mono nearest_eq_self nearest_ne_of_apart compare?_ofInt)

variable {m n : Int} {scope : Scope}

/-! ## Comparisons -/

/-- Whether an operator compares its operands. -/
def Operator.isComparison : Operator → Bool
  | eq | ne | gt | lt | ge | le => true
  | and | or => false

/-- Both sides of a comparison are evaluated, and then compared. -/
theorem Expr.evaluate_comparison {op : Operator} (h : op.isComparison = true)
    {left right : Expr} {v w : Value} (hleft : left.evaluate scope = .ok v)
    (hright : right.evaluate scope = .ok w) :
    (binary op left right).evaluate scope = combine op v w := by
  have hdecides : decides op v = false := by cases op <;> first | contradiction | rfl
  rw [evaluate, hleft]
  dsimp only
  rw [hdecides, if_neg Bool.false_ne_true, hright]

/-- The answer that a text gives as a condition. -/
def Condition.Says (scope : Scope) (source : Text) (answer : Bool) : Prop :=
  ∃ e, parse source = .ok e ∧ e.evaluate scope = .ok (.bool answer)

/-- A condition gives one answer only. -/
theorem Condition.Says.unique {source : Text} {answer answer' : Bool}
    (h : Says scope source answer) (h' : Says scope source answer') : answer = answer' := by
  obtain ⟨e, he, hanswer⟩ := h
  obtain ⟨e', he', hanswer'⟩ := h'
  obtain rfl := Except.ok.inj (he.symm.trans he')
  exact Value.bool.inj (Except.ok.inj (hanswer.symm.trans hanswer'))

/-! ## Relations between integers -/

namespace Operator

/-- Whether the relation that an operator stands for holds between two integers. -/
def relates : Operator → Int → Int → Bool
  | eq, m, n => decide (m = n)
  | ne, m, n => decide (m ≠ n)
  | gt, m, n => decide (m > n)
  | lt, m, n => decide (m < n)
  | ge, m, n => decide (m ≥ n)
  | le, m, n => decide (m ≤ n)
  | and, _, _ | or, _, _ => false

/-- An operator of order holds of the order of two integers if they are so related. -/
theorem holds_compare {op : Operator} (h : op.isOrder = true) (m n : Int) :
    op.holds (Ord.compare m n) = op.relates m n := by
  rcases lt_trichotomy m n with hless | rfl | hgreater
  · rw [compare_lt_iff_lt.mpr hless]
    cases op <;> first | contradiction | simp [holds, relates, hless, hless.le, hless.not_ge]
  · rw [compare_eq_iff_eq.mpr rfl]
    cases op <;> first | contradiction | simp [holds, relates]
  · rw [compare_gt_iff_gt.mpr hgreater]
    cases op <;> first
      | contradiction | simp [holds, relates, hgreater, hgreater.le, hgreater.not_ge]

/-- **The nearest numbers are related as the integers are, unless they are the same.** -/
theorem relates_nearest (op : Operator) (m n : Int) :
    op.relates (nearest m) (nearest n) =
      if nearest m = nearest n then op.relates m m else op.relates m n := by
  split_ifs with hsame
  · rw [hsame]
    cases op <;> simp [relates]
  · have hle : m ≤ n → nearest m ≤ nearest n := nearest_mono
    have hge : n ≤ m → nearest n ≤ nearest m := nearest_mono
    cases op <;> simp only [relates, decide_eq_decide] <;> omega

/-- All relations are the true ones exactly if no different integers become the same number. -/
theorem relates_nearest_eq_iff :
    (∀ op : Operator, op.isComparison = true →
      op.relates (nearest m) (nearest n) = op.relates m n) ↔ (nearest m = nearest n → m = n) := by
  constructor
  · intro h hsame
    have heq := h .eq rfl
    rw [relates, relates, decide_eq_true hsame] at heq
    exact of_decide_eq_true heq.symm
  · intro h op _
    rw [relates_nearest]
    split_ifs with hsame
    · rw [h hsame]
    · rfl

end Operator

/-- The value of a comparison of integers of 64 bits. -/
theorem Expr.combine_int {op : Operator} (h : op.isComparison = true)
    (hm : m.natAbs ≤ 2 ^ 63) (hn : n.natAbs ≤ 2 ^ 63) :
    combine op (.int m) (.int n) = .ok (.bool (op.relates (nearest m) (nearest n))) := by
  have hcompare : (Value.int m).compare (.int n) = .ok (Ord.compare (nearest m) (nearest n)) := by
    have hplain : Value.plainOrder (.int m) (.int n) = Ord.compare (nearest m) (nearest n) :=
      congrArg (·.getD .eq) (compare?_ofInt hm hn)
    rw [Value.compare_eq rfl rfl, ← hplain]
    rfl
  have hequal : (Value.int m).looseEq (.int n) = decide (nearest m = nearest n) := by
    have hsame : (Binary64.ofInt m).same (.ofInt n) = decide (nearest m = nearest n) := by
      rw [Binary64.same, compare?_ofInt hm hn, Bool.eq_iff_iff, beq_iff_eq, Option.some.injEq,
        compare_eq_iff_eq, decide_eq_true_iff]
    exact hsame
  have horder : op.isOrder = true →
      combine op (.int m) (.int n) = .ok (.bool (op.relates (nearest m) (nearest n))) :=
    fun horder => (combine_eq_ok_iff horder).mpr
      ⟨_, hcompare, by rw [Operator.holds_compare horder]⟩
  cases op with
  | eq => rw [combine, hequal, Operator.relates]
  | ne => rw [combine, hequal, Operator.relates, decide_not]
  | and => contradiction
  | or => contradiction
  | _ => exact horder rfl

/-! ## Conditions that compare integers -/

namespace Condition

/-- The text of a condition that compares two variables, its operator a word or a symbol. -/
def comparison (words : Bool) (left : VarRef) (op : Operator) (right : VarRef) : Text :=
  written words (.binary op (.var left) (.var right))

variable {left right : VarRef}

/-- A condition says how the nearest numbers of two integers are related. -/
theorem says_nearest (hleft : (Reference.var left).Writable)
    (hright : (Reference.var right).Writable) (hm : scope.variableValue left = .int m)
    (hn : scope.variableValue right = .int n) (hm' : m.natAbs ≤ 2 ^ 63) (hn' : n.natAbs ≤ 2 ^ 63)
    {op : Operator} (hop : op.isComparison = true) (words : Bool) :
    Says scope (comparison words left op right) (op.relates (nearest m) (nearest n)) := by
  have hwritable : (Expr.binary op (.var left) (.var right)).Writable := ⟨hleft, hright⟩
  have hleftValue : (Expr.var left).evaluate scope = .ok (.int m) := congrArg Except.ok hm
  have hrightValue : (Expr.var right).evaluate scope = .ok (.int n) := congrArg Except.ok hn
  refine ⟨_, parse_of_writable hwritable words, ?_⟩
  rw [Expr.evaluate_comparison hop hleftValue hrightValue, Expr.combine_int hop hm' hn']

/-- **Conditions compare integers of 64 bits as if different ones were equal where they become the
same number.** So all six comparisons say the truth exactly if the integers are equal or become
different numbers, as they do up to two to the power 53, and wherever they are more than 1024
apart. -/
theorem says_integers (hleft : (Reference.var left).Writable)
    (hright : (Reference.var right).Writable) (hm : scope.variableValue left = .int m)
    (hn : scope.variableValue right = .int n)
    (hmRange : Number.minInt ≤ m ∧ m ≤ Number.maxInt)
    (hnRange : Number.minInt ≤ n ∧ n ≤ Number.maxInt) (words : Bool) :
    (∀ op : Operator, op.isComparison = true → Says scope (comparison words left op right)
      (if nearest m = nearest n then op.relates m m else op.relates m n)) ∧
    ((∀ op : Operator, op.isComparison = true →
      Says scope (comparison words left op right) (op.relates m n)) ↔
        (nearest m = nearest n → m = n)) ∧
    (m.natAbs ≤ 2 ^ 53 ∧ n.natAbs ≤ 2 ^ 53 ∨ 2 ^ 10 < (m - n).natAbs →
      ∀ op : Operator, op.isComparison = true →
        Says scope (comparison words left op right) (op.relates m n)) := by
  unfold Number.minInt Number.maxInt at hmRange hnRange
  have hm' : m.natAbs ≤ 2 ^ 63 := by omega
  have hn' : n.natAbs ≤ 2 ^ 63 := by omega
  have hreplies : ∀ op : Operator, op.isComparison = true →
      Says scope (comparison words left op right) (op.relates (nearest m) (nearest n)) :=
    fun op hop => says_nearest hleft hright hm hn hm' hn' hop words
  have htruth : (∀ op : Operator, op.isComparison = true →
      Says scope (comparison words left op right) (op.relates m n)) ↔
        (nearest m = nearest n → m = n) := by
    rw [← Operator.relates_nearest_eq_iff]
    constructor
    · exact fun h op hop => (hreplies op hop).unique (h op hop)
    · exact fun h op hop => h op hop ▸ hreplies op hop
  refine ⟨fun op hop => op.relates_nearest m n ▸ hreplies op hop, htruth, fun hregion => ?_⟩
  rw [htruth]
  intro hsame
  rcases hregion with ⟨hsmall, hsmall'⟩ | hapart
  · rwa [nearest_eq_self hsmall, nearest_eq_self hsmall'] at hsame
  · exact absurd hsame (nearest_ne_of_apart hm' hn' hapart)

/-- The variables of the examples. -/
theorem writable_samples :
    (Reference.var ⟨none, ["AB"]⟩).Writable ∧ (Reference.var ⟨none, ["CD"]⟩).Writable :=
  ⟨⟨⟨"AB", rfl⟩, rfl⟩, ⟨⟨"CD", rfl⟩, rfl⟩⟩

/-- A page with two values. -/
def twoValues (v w : Value) : Page where
  vars := [("AB", v), ("CD", w)]
  constants := []

theorem first_twoValues (v w : Value) :
    (twoValues v w).scope.variableValue ⟨none, ["AB"]⟩ = v := rfl

theorem second_twoValues (v w : Value) :
    (twoValues v w).scope.variableValue ⟨none, ["CD"]⟩ = w := rfl

/-- The greatest and the least integer of 64 bits are compared truly. -/
theorem says_integers_sample :
    comparison false ⟨none, ["AB"]⟩ .gt ⟨none, ["CD"]⟩ = "AB > CD" ∧
      Says (twoValues (.int Number.maxInt) (.int Number.minInt)).scope "AB > CD" true ∧
      Says (twoValues (.int Number.maxInt) (.int Number.minInt)).scope "AB == CD" false := by
  obtain ⟨hfirst, hsecond⟩ := writable_samples
  obtain ⟨-, -, htrue⟩ := says_integers hfirst hsecond
    (first_twoValues (.int Number.maxInt) (.int Number.minInt)) (second_twoValues _ _)
    (by decide) (by decide) false
  have hreplies := htrue (.inr (by decide))
  exact ⟨rfl, hreplies .gt rfl, hreplies .eq rfl⟩

/-- **Neighbours above two to the power 53 are equal to a condition.** -/
theorem says_neighbours_equal :
    Says (twoValues (.int 9007199254740993) (.int 9007199254740992)).scope "AB == CD" true ∧
      Operator.eq.relates 9007199254740993 9007199254740992 = false := by
  obtain ⟨hfirst, hsecond⟩ := writable_samples
  have hop : Operator.eq.isComparison = true := rfl
  have hreplies := says_nearest hfirst hsecond
    (first_twoValues (.int 9007199254740993) (.int 9007199254740992)) (second_twoValues _ _)
    (by decide) (by decide) hop false
  have hsame : Operator.eq.relates (nearest 9007199254740993) (nearest 9007199254740992) = true :=
    by decide +kernel
  exact ⟨hsame ▸ hreplies, by decide⟩

/-! ## Conditions that compare equal texts -/

/-- The text of a condition that compares a variable with a literal. -/
def literalComparison (v : VarRef) (op : Operator) (quote : Char) (s : Text) : Text :=
  Text.join " " [(Reference.var v).word, op.symbol, quote :: (s ++ [quote])]

/-- It is read as the comparison of the variable with the text of the literal. -/
theorem parse_literalComparison {v : VarRef} (hv : (Reference.var v).Writable) {quote : Char}
    {s : Text} (hquote : isQuote quote = true) (hs : quote ∉ s) (op : Operator) :
    parse (literalComparison v op quote s) = .ok (.binary op (.var v) (.lit (.str s))) := by
  apply parse_join
  rw [tokensAt, if_pos (Nat.zero_le _)]
  exact .cons (Token.spelt_reference hv) (.cons (.symbol op) (.cons (.quoted hquote hs) .nil))

/-- The answer is whether the text is equal to itself. -/
theorem says_looseEq_self {v : VarRef} (hv : (Reference.var v).Writable) {quote : Char} {s : Text}
    (hquote : isQuote quote = true) (hs : quote ∉ s) (hvalue : scope.variableValue v = .str s) :
    Says scope (literalComparison v .eq quote s) ((Value.str s).looseEq (.str s)) ∧
      Says scope (literalComparison v .ne quote s) (!(Value.str s).looseEq (.str s)) := by
  have hleft : (Expr.var v).evaluate scope = .ok (.str s) := congrArg Except.ok hvalue
  have hright : (Expr.lit (.str s)).evaluate scope = .ok (.str s) := rfl
  have hparse := parse_literalComparison hv hquote hs
  exact ⟨⟨_, hparse .eq, Expr.evaluate_comparison rfl hleft hright⟩,
    ⟨_, hparse .ne, Expr.evaluate_comparison rfl hleft hright⟩⟩

/-- **Equal text is equal unless it is a name of NaN.** A value is equal to itself exactly if it
holds no NaN and is no text that names it, with blanks around or without. A condition that compares
a variable with its own text says that they are equal, and of such a name that they are not. -/
theorem says_equal_texts (v : Value) :
    (v.looseEq v = true ↔
      v.holdsNaN = false ∧ ∀ s, v = .str s → ¬ Decimal.NamesNaN (Text.trim s)) ∧
    ∀ (scope : Scope) (name : VarRef) (quote : Char) (s : Text), v = .str s →
      scope.variableValue name = v → (Reference.var name).Writable → isQuote quote = true →
      quote ∉ s →
        (¬ Decimal.NamesNaN (Text.trim s) →
          Says scope (literalComparison name .eq quote s) true ∧
            Says scope (literalComparison name .ne quote s) false) ∧
        (Decimal.NamesNaN (Text.trim s) →
          Says scope (literalComparison name .eq quote s) false ∧
            Says scope (literalComparison name .ne quote s) true) := by
  constructor
  · rw [Value.looseEq_self_iff]
    refine and_congr_right fun hholds => ?_
    rw [Value.isNaN_iff hholds, not_exists]
    exact forall_congr' fun s => not_and
  · rintro scope name quote s rfl hvalue hname hquote hs
    have hself : (Value.str s).looseEq (.str s) = true ↔ ¬ Decimal.NamesNaN (Text.trim s) := by
      rw [Value.looseEq_self_iff, Value.isNaN_str_iff]
      exact and_iff_right rfl
    obtain ⟨hequal, hunequal⟩ := says_looseEq_self hname hquote hs hvalue
    constructor
    · intro hnan
      rw [hself.mpr hnan] at hequal hunequal
      exact ⟨hequal, hunequal⟩
    · intro hnan
      have hfalse : (Value.str s).looseEq (.str s) = false :=
        Bool.eq_false_iff.mpr fun htrue => hself.mp htrue hnan
      rw [hfalse] at hequal hunequal
      exact ⟨hequal, hunequal⟩

/-- A text is equal to itself, also if it is a number between blanks. -/
theorem says_equal_texts_sample :
    Says (twoValues (.str " 1e1") .null).scope "AB == ' 1e1'" true ∧
      Says (twoValues (.str " 1e1") .null).scope "AB != ' 1e1'" false := by
  have hnumber : ¬ Decimal.NamesNaN (Text.trim " 1e1") := by
    rw [← Decimal.isNaN_of_read?_iff]
    rintro ⟨x, hread, hnan⟩
    have hten : Decimal.read? (Text.trim " 1e1") = some (.ofInt 10) := by decide +kernel
    rw [← Option.some.inj (hten.symm.trans hread), Binary64.isNaN_ofInt] at hnan
    contradiction
  obtain ⟨-, htexts⟩ := says_equal_texts (.str " 1e1")
  obtain ⟨hequal, -⟩ := htexts _ _ '\x27' " 1e1" rfl (first_twoValues _ .null)
    writable_samples.1 rfl (by decide)
  exact hequal hnumber

/-- **The word for NaN is not equal to itself.** -/
theorem says_nan_unequal :
    (Value.str "nan").holdsNaN = false ∧ (Value.str "nan").looseEq (.str "nan") = false ∧
      Says (twoValues (.str "nan") .null).scope "AB == 'nan'" false ∧
      Says (twoValues (.str "nan") .null).scope "AB != 'nan'" true := by
  have hunequal : (Value.str "nan").looseEq (.str "nan") = false := by decide +kernel
  have hquote : isQuote '\x27' = true := rfl
  obtain ⟨hreplies, hreplies'⟩ := says_looseEq_self writable_samples.1 hquote (by decide)
    (first_twoValues (.str "nan") .null)
  rw [hunequal] at hreplies hreplies'
  exact ⟨rfl, hunequal, hreplies, hreplies'⟩

end Condition
end PageServer
