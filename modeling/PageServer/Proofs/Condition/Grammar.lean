/-
# The grammar of conditions

A condition is operands with operators between them, in four tiers of which each
joins the operands of the next one, down to negations, values, names and what
stands in parentheses. The reader keeps left operands on a stack until an
operator that binds less comes; what it reads is a derivation of the grammar, and
a list of tokens has at most one.

* `Condition.Phrase`: the derivations, each with its tokens and its tree
* `Condition.operand_phrase`: a derivation is read as its tree, by induction on it
* `Condition.decided`: tokens start with a derivation or are refused
* `Condition.Phrase.eq_of_append`: there is one derivation only
* `Condition.operand_grammar`: all together
-/
import Mathlib
import PageServer.Proofs.Condition.Words

namespace PageServer.Condition

/-! ## Derivations -/

/-- The rules that join operands, the one that binds least first. -/
inductive Tier where
  /-- Alternatives. -/
  | or
  /-- Conditions that hold together. -/
  | and
  /-- Comparisons for equality. -/
  | equality
  /-- Comparisons of order. -/
  | order
  deriving DecidableEq

/-- The parts of a condition. -/
inductive Part where
  /-- Operands with the operators of a tier between them. -/
  | joined (tier : Tier)
  /-- An operand with maybe negations before it. -/
  | unary
  /-- An operand. -/
  | primary
  deriving DecidableEq

namespace Tier

/-- The operators of a tier. -/
def operators : Tier → List Operator
  | or => [.or]
  | and => [.and]
  | equality => [.eq, .ne]
  | order => [.gt, .lt, .ge, .le]

/-- What stands between the operators of a tier. -/
def operand : Tier → Part
  | or => .joined and
  | and => .joined equality
  | equality => .joined order
  | order => .unary

/-- How tightly the operators of a tier bind. -/
def level : Tier → Nat
  | or => 0
  | and => 1
  | equality => 2
  | order => 3

/-- The operators of a tier are those that bind as tightly. -/
theorem mem_operators_iff {tier : Tier} {o : Operator} :
    o ∈ tier.operators ↔ o.level = tier.level := by
  cases tier <;> cases o <;> simp [operators, level, Operator.level]

end Tier

/-- How tightly the operators bind that may stand in a part outside parentheses: at least so. -/
def Part.level : Part → Nat
  | .joined tier => tier.level
  | .unary | .primary => 4

/-- Inside the operands of a tier operators bind tighter. -/
theorem Part.level_operand (tier : Tier) : tier.operand.level = tier.level + 1 := by
  cases tier <;> rfl

mutual

/-- A derivation of a part. -/
inductive Phrase : Part → Type where
  /-- An operand of a tier, and others behind it. -/
  | joined {tier : Tier} (first : Phrase tier.operand) (others : Others tier) :
      Phrase (.joined tier)
  /-- A negation. -/
  | negation (negated : Phrase .unary) : Phrase .unary
  /-- An operand without a negation. -/
  | plain (operand : Phrase .primary) : Phrase .unary
  /-- A value. -/
  | literal (v : Value) : Phrase .primary
  /-- A name. -/
  | reference (r : Reference) : Phrase .primary
  /-- What stands in parentheses. -/
  | group (inside : Phrase (.joined .or)) : Phrase .primary

/-- A derivation of what follows the first operand of a tier. -/
inductive Others : Tier → Type where
  /-- Nothing. -/
  | nil {tier : Tier} : Others tier
  /-- An operator with the operand behind it, and others. -/
  | cons {tier : Tier} (o : Operator) (h : o ∈ tier.operators) (next : Phrase tier.operand)
      (rest : Others tier) : Others tier

end

mutual

/-- The tokens of a derivation. -/
def Phrase.tokens {part : Part} : Phrase part → List Token
  | .joined first others => first.tokens ++ others.tokens
  | .negation negated => .negation :: negated.tokens
  | .plain operand => operand.tokens
  | .literal v => [.lit v]
  | .reference r => [.ref r]
  | .group inside => .openParen :: inside.tokens ++ [.closeParen]

/-- The tokens behind the first operand. -/
def Others.tokens {tier : Tier} : Others tier → List Token
  | .nil => []
  | .cons o _ next rest => .op o :: next.tokens ++ rest.tokens

end

mutual

/-- The tree of a derivation. -/
def Phrase.tree {part : Part} : Phrase part → Expr
  | .joined first others => others.joinedTo first.tree
  | .negation negated => .not negated.tree
  | .plain operand => operand.tree
  | .literal v => .lit v
  | .reference r => r.expr
  | .group inside => inside.tree

/-- The tree of an operand with those behind it, grouped to the left. -/
def Others.joinedTo {tier : Tier} : Others tier → Expr → Expr
  | .nil, left => left
  | .cons o _ next rest, left => rest.joinedTo (.binary o left next.tree)

end

/-! ## What is open and what comes -/

/-- Every operator binds less than a negation. -/
theorem level_lt_four (o : Operator) : o.level < 4 := by cases o <;> decide

/-- What may be open to the left of a part in which operators bind at least as tightly as `level`:
no operator that binds as tightly, and no negation but before a single operand. -/
def Fits (level : Nat) : List Pending → Prop
  | .negation :: _ => 4 ≤ level
  | .left _ o :: _ => o.level < level
  | _ => True

/-- What comes does not start with an operator that binds at least as tightly as `level`. -/
def Ends (level : Nat) (rest : List Token) : Prop :=
  ∀ o tail, rest = .op o :: tail → o.level < level

theorem Ends.mono {level level' : Nat} {rest : List Token} (h : Ends level rest)
    (hle : level ≤ level') : Ends level' rest :=
  fun o tail heq => (h o tail heq).trans_le hle

theorem ends_nil (level : Nat) : Ends level [] := fun _ _ heq => by contradiction

theorem ends_closeParen (level : Nat) (rest : List Token) : Ends level (.closeParen :: rest) :=
  fun _ _ heq => by simp at heq

/-- Before one of its operators, a tier is not at its end, but an operand of it is. -/
theorem ends_op_iff {level : Nat} {o : Operator} {rest : List Token} :
    Ends level (.op o :: rest) ↔ o.level < level := by
  constructor
  · intro h
    exact h o rest rfl
  · rintro h _ _ ⟨⟩
    exact h

/-- A single operand is at its end before every operator. -/
theorem ends_four (rest : List Token) : Ends 4 rest := fun o _ _ => level_lt_four o

/-- What is open before a tier is left as it is by an operator of the tier. -/
theorem Fits.reduce_eq {level : Nat} {stack : List Pending} (h : Fits level stack) (e : Expr) :
    reduce level stack e = (stack, e) := by
  cases stack with
  | nil => rfl
  | cons p stack =>
      cases p with
      | left l o => exact if_neg (Nat.not_le.mpr h)
      | _ => rfl

/-- No negation is open before a tier. -/
theorem Fits.negate_eq {level : Nat} {stack : List Pending} (h : Fits level stack)
    (hlevel : level < 4) (e : Expr) : negate stack e = (stack, e) := by
  cases stack with
  | nil => rfl
  | cons p stack =>
      cases p with
      | negation => exact absurd hlevel (Nat.not_lt.mpr h)
      | _ => rfl

/-- What may be open before a tier may be open before one of its operands. -/
theorem Fits.mono {level level' : Nat} {stack : List Pending} (h : Fits level stack)
    (hle : level ≤ level') : Fits level' stack := by
  cases stack with
  | nil => trivial
  | cons p stack =>
      cases p with
      | negation => exact Nat.le_trans h hle
      | left l o => exact Nat.lt_of_lt_of_le h hle
      | paren => trivial

/-- Before a single operand anything may be open. -/
theorem fits_four (stack : List Pending) : Fits 4 stack := by
  cases stack with
  | nil => trivial
  | cons p stack =>
      cases p with
      | negation => exact Nat.le_refl 4
      | left l o => exact level_lt_four o
      | paren => trivial

/-- **Two operands are one where no operator comes that binds tighter than the one between
them.** -/
theorem behindOperand_left {stack : List Pending} {l r : Expr} {op : Operator} {rest : List Token}
    (h : Ends (op.level + 1) rest) :
    behindOperand (.left l op :: stack) r rest = behindOperand stack (.binary op l r) rest := by
  have hreduce : ∀ level, level ≤ op.level →
      reduce level (.left l op :: stack) r = reduce level stack (.binary op l r) :=
    fun level hle => if_pos hle
  cases rest with
  | nil => rw [behindOperand, behindOperand, hreduce 0 (Nat.zero_le _)]
  | cons t rest =>
      cases t with
      | op o =>
          have hle : o.level ≤ op.level := Nat.le_of_lt_succ (h o rest rfl)
          rw [behindOperand, behindOperand, hreduce o.level hle]
      | closeParen => rw [behindOperand, behindOperand, hreduce 0 (Nat.zero_le _)]
      | _ => rfl

/-! ## Derivations are read as their trees -/

/-- A part that is read as the tree `e`, whatever may be open before it and come behind it. -/
def ReadAs (level : Nat) (tokens : List Token) (e : Expr) : Prop :=
  ∀ stack rest, Fits level stack → Ends (level + 1) rest →
    operand stack (tokens ++ rest) = behindOperand (negate stack e).1 (negate stack e).2 rest

/-- Operators with their operands that are read behind a first one. -/
def ReadBehind (level : Nat) (tokens : List Token) (join : Expr → Expr) : Prop :=
  ∀ stack e rest, Fits level stack → Ends (level + 1) rest →
    behindOperand stack e (tokens ++ rest) = behindOperand stack (join e) rest

/-- Behind an operand, the other operands of its tier are read. -/
theorem ReadAs.joined {level : Nat} {first others : List Token} {e : Expr} {join : Expr → Expr}
    (hlevel : level < 4) (hfirst : ReadAs (level + 1) first e)
    (hends : ∀ rest, Ends (level + 1) rest → Ends (level + 1 + 1) (others ++ rest))
    (hothers : ReadBehind level others join) : ReadAs level (first ++ others) (join e) := by
  intro stack rest hfits hrest
  rw [List.append_assoc, hfirst stack _ (hfits.mono (Nat.le_succ level)) (hends rest hrest),
    hfits.negate_eq hlevel, hfits.negate_eq hlevel]
  exact hothers stack e rest hfits hrest

/-- An operator and its right operand are joined with what is before them. -/
theorem behindOperand_op {stack : List Pending} {o : Operator} {left right : Expr}
    {next rest : List Token} (hfits : Fits o.level stack) (hnext : ReadAs (o.level + 1) next right)
    (hrest : Ends (o.level + 1) rest) :
    behindOperand stack left (.op o :: (next ++ rest)) =
      behindOperand stack (.binary o left right) rest := by
  have hopen : Fits (o.level + 1) (.left left o :: stack) := Nat.lt_succ_self o.level
  rw [behindOperand, hfits.reduce_eq]
  dsimp only
  rw [hnext _ _ hopen (hrest.mono (Nat.le_succ _))]
  exact behindOperand_left hrest

/-- A single token that is an operand. -/
theorem readAs_singleton {t : Token} {e : Expr}
    (h : ∀ stack rest, operand stack (t :: rest) =
      behindOperand (negate stack e).1 (negate stack e).2 rest) : ReadAs 4 [t] e :=
  fun stack rest _ _ => h stack rest

/-- A negation before what is read as an operand. -/
theorem ReadAs.negation {tokens : List Token} {e : Expr} (h : ReadAs 4 tokens e) :
    ReadAs 4 (.negation :: tokens) (.not e) := by
  intro stack rest _ hrest
  exact h (.negation :: stack) rest (Nat.le_refl 4) hrest

/-- What is read on its own is read as an operand in parentheses. -/
theorem ReadAs.group {tokens : List Token} {e : Expr} (h : ReadAs 0 tokens e) :
    ReadAs 4 (.openParen :: tokens ++ [.closeParen]) e := by
  intro stack rest _ _
  have hinside := h (.paren :: stack) (.closeParen :: rest) trivial (ends_closeParen 1 rest)
  rw [List.cons_append, List.cons_append, List.append_assoc, List.singleton_append, operand,
    hinside]
  rfl

/-- What follows the first operand of a tier is at its end for an operand of the tier. -/
theorem Others.ends {tier : Tier} (others : Others tier) {rest : List Token} {level : Nat}
    (hlevel : tier.level < level) (h : Ends level rest) : Ends level (others.tokens ++ rest) := by
  cases others with
  | nil => exact h
  | cons o ho next others =>
      rw [Others.tokens, List.cons_append, List.cons_append, ends_op_iff,
        Tier.mem_operators_iff.mp ho]
      exact hlevel

/-- So it is where the tier itself is at its end. -/
theorem Others.ends_operand {tier : Tier} (others : Others tier) {rest : List Token}
    (h : Ends tier.level rest) : Ends tier.operand.level (others.tokens ++ rest) := by
  rw [Part.level_operand]
  exact others.ends (Nat.lt_succ_self _) (h.mono (Nat.le_succ _))

mutual

/-- **A derivation is read as its tree.** -/
theorem operand_phrase : ∀ {part : Part} (p : Phrase part), ReadAs part.level p.tokens p.tree
  | .joined tier, .joined first others => by
      have hfirst := operand_phrase first
      rw [Part.level_operand] at hfirst
      have hlevel : tier.level < 4 := by cases tier <;> decide
      refine ReadAs.joined hlevel hfirst (fun rest hrest => ?_) (behindOperand_others others)
      exact others.ends (Nat.lt_succ_of_lt (Nat.lt_succ_self _)) (hrest.mono (Nat.le_succ _))
  | .unary, .negation negated => (operand_phrase negated).negation
  | .unary, .plain operand => operand_phrase operand
  | .primary, .literal v => readAs_singleton fun _ _ => rfl
  | .primary, .reference (.var v) => readAs_singleton fun _ _ => rfl
  | .primary, .reference (.constant name) => readAs_singleton fun _ _ => rfl
  | .primary, .group inside => (operand_phrase inside).group

/-- What follows a first operand is joined with it. -/
theorem behindOperand_others : ∀ {tier : Tier} (others : Others tier),
    ReadBehind tier.level others.tokens others.joinedTo
  | _, .nil => fun _ _ _ _ _ => rfl
  | tier, .cons o ho next others => by
      have hlevel := Tier.mem_operators_iff.mp ho
      have hnext := operand_phrase next
      rw [Part.level_operand, ← hlevel] at hnext
      intro stack e rest hfits hrest
      rw [← hlevel] at hfits
      have hothers : Ends (o.level + 1) (others.tokens ++ rest) := by
        rw [hlevel]
        exact others.ends (Nat.lt_succ_self _) hrest
      rw [Others.tokens, List.cons_append, List.cons_append, List.append_assoc,
        behindOperand_op hfits hnext hothers]
      rw [hlevel] at hfits
      exact behindOperand_others others stack _ rest hfits hrest

end

/-! ## What is no derivation is refused -/

/-- Tokens that are refused wherever a part may stand in which operators bind at least as tightly
as `level`. -/
def Refused (level : Nat) (tokens : List Token) : Prop :=
  ∀ stack, Fits level stack → ∃ problem, operand stack tokens = .error problem

/-- Tokens that start with a derivation of a part, or are refused where the part may stand. -/
def Decided (part : Part) (tokens : List Token) : Prop :=
  (∃ (p : Phrase part) (rest : List Token), tokens = p.tokens ++ rest ∧ Ends part.level rest) ∨
    Refused part.level tokens

/-- The same of the operators and operands behind a first operand. -/
def DecidedBehind (tier : Tier) (tokens : List Token) : Prop :=
  (∃ (others : Others tier) (rest : List Token),
    tokens = others.tokens ++ rest ∧ Ends tier.level rest) ∨
  ∀ stack e, Fits tier.level stack → ∃ problem, behindOperand stack e tokens = .error problem

/-- An operand in parentheses is decided where what stands in them is. -/
theorem decided_group {tokens : List Token} (h : Decided (.joined .or) tokens) :
    Decided .unary (.openParen :: tokens) := by
  rcases h with ⟨inside, rest, rfl, hends⟩ | hrefused
  · have hread : ∀ stack, operand stack (.openParen :: (inside.tokens ++ rest)) =
        behindOperand (.paren :: stack) inside.tree rest := fun stack =>
      operand_phrase inside (.paren :: stack) rest trivial (hends.mono (Nat.le_succ _))
    cases rest with
    | nil => exact Or.inr fun stack _ => ⟨_, hread stack⟩
    | cons t rest =>
        cases t with
        | closeParen =>
            refine Or.inl ⟨.plain (.group inside), rest, ?_, ends_four rest⟩
            simp [Phrase.tokens]
        | op o => exact absurd (ends_op_iff.mp hends) (Nat.not_lt_zero _)
        | _ => exact Or.inr fun stack _ => ⟨_, hread stack⟩
  · exact Or.inr fun stack _ => hrefused (.paren :: stack) trivial

/-- Operands are decided where what can stand in parentheses is. -/
theorem decided_unary {bound : Nat}
    (h : ∀ inside : List Token, inside.length < bound → Decided (.joined .or) inside)
    {tokens : List Token} (hlength : tokens.length ≤ bound) : Decided .unary tokens := by
  induction tokens with
  | nil => exact Or.inr fun stack _ => ⟨_, rfl⟩
  | cons t tokens ih =>
      have hshorter : tokens.length < bound := hlength
      cases t with
      | lit v => exact Or.inl ⟨.plain (.literal v), tokens, rfl, ends_four tokens⟩
      | ref r => exact Or.inl ⟨.plain (.reference r), tokens, rfl, ends_four tokens⟩
      | closeParen => exact Or.inr fun stack _ => ⟨_, rfl⟩
      | op o => exact Or.inr fun stack _ => ⟨_, rfl⟩
      | openParen => exact decided_group (h tokens hshorter)
      | negation =>
          rcases ih hshorter.le with ⟨negated, rest, rfl, hends⟩ | hrefused
          · exact Or.inl ⟨.negation negated, rest, rfl, hends⟩
          · exact Or.inr fun stack _ => hrefused (.negation :: stack) (Nat.le_refl 4)

/-- What follows a first operand is decided where operands are. -/
theorem decidedBehind {tier : Tier} {bound : Nat}
    (h : ∀ tokens : List Token, tokens.length ≤ bound → Decided tier.operand tokens) :
    ∀ {tokens : List Token}, tokens.length ≤ bound → Ends tier.operand.level tokens →
      DecidedBehind tier tokens := by
  intro tokens
  induction hn : tokens.length using Nat.strongRecOn generalizing tokens with
  | ind n ih =>
      subst hn
      intro hlength hends
      by_cases hstops : Ends tier.level tokens
      · exact Or.inl ⟨.nil, tokens, rfl, hstops⟩
      -- an operator of the tier comes, and what stands behind it is decided
      obtain ⟨o, tail, rfl, hlevel⟩ : ∃ o tail, tokens = .op o :: tail ∧ tier.level ≤ o.level := by
        simpa [Ends] using hstops
      rw [Part.level_operand, ends_op_iff] at hends
      have htier : o.level = tier.level := by omega
      have hmem := Tier.mem_operators_iff.mpr htier
      have htail : tail.length < (Token.op o :: tail).length := Nat.lt_succ_self _
      rcases h tail (by omega) with ⟨next, rest, rfl, hrest⟩ | hrefused
      · have hnext := operand_phrase next
        rw [Part.level_operand, ← htier] at hnext
        rw [Part.level_operand, ← htier] at hrest
        have hshort : rest.length ≤ (next.tokens ++ rest).length := by simp
        have hends' : Ends tier.operand.level rest := by
          rw [Part.level_operand, ← htier]
          exact hrest
        rcases ih rest.length (by omega) rfl (by omega) hends' with
          ⟨others, rest', rfl, hothers⟩ | hrefused
        · refine Or.inl ⟨.cons o hmem next others, rest', ?_, hothers⟩
          simp [Others.tokens]
        · right
          intro stack e hfits
          rw [behindOperand_op (htier ▸ hfits) hnext hrest]
          exact hrefused stack _ hfits
      · right
        intro stack e hfits
        have hopen : Fits tier.operand.level (.left e o :: stack) := by
          rw [Part.level_operand, ← htier]
          exact Nat.lt_succ_self o.level
        rw [← htier] at hfits
        rw [behindOperand, hfits.reduce_eq]
        exact hrefused _ hopen

/-- A tier is decided where its operands are. -/
theorem decided_joined {tier : Tier} {bound : Nat}
    (h : ∀ tokens : List Token, tokens.length ≤ bound → Decided tier.operand tokens)
    {tokens : List Token} (hlength : tokens.length ≤ bound) : Decided (.joined tier) tokens := by
  have hlevel : tier.level < 4 := by cases tier <;> decide
  rcases h tokens hlength with ⟨first, rest, rfl, hends⟩ | hrefused
  · have hshort : rest.length ≤ (first.tokens ++ rest).length := by simp
    rcases decidedBehind h (hshort.trans hlength) hends with
      ⟨others, rest', rfl, hothers⟩ | hrefused
    · refine Or.inl ⟨.joined first others, rest', ?_, hothers⟩
      simp [Phrase.tokens]
    · right
      intro stack hfits
      have hoperand : Fits tier.operand.level stack := by
        rw [Part.level_operand]
        exact hfits.mono (Nat.le_succ _)
      have hfirst := operand_phrase first stack rest hoperand (hends.mono (Nat.le_succ _))
      have hfits' : Fits tier.level stack := hfits
      rw [hfirst, hfits'.negate_eq hlevel]
      exact hrefused stack _ hfits
  · right
    intro stack hfits
    apply hrefused stack
    rw [Part.level_operand]
    exact Fits.mono hfits (Nat.le_succ _)

/-- **Tokens start with a derivation or are refused.** -/
theorem decided (tokens : List Token) : Decided (.joined .or) tokens := by
  induction hn : tokens.length using Nat.strongRecOn generalizing tokens with
  | ind n ih =>
      have hunary : ∀ tokens : List Token, tokens.length ≤ n → Decided .unary tokens :=
        fun tokens => decided_unary fun inside hinside => ih _ hinside inside rfl
      -- one tier after the other, each from the one below it
      have horder : ∀ tokens : List Token, tokens.length ≤ n → Decided (.joined .order) tokens :=
        fun tokens => decided_joined hunary
      have hequality : ∀ tokens : List Token, tokens.length ≤ n →
          Decided (.joined .equality) tokens := fun tokens => decided_joined horder
      have hand : ∀ tokens : List Token, tokens.length ≤ n → Decided (.joined .and) tokens :=
        fun tokens => decided_joined hequality
      exact decided_joined hand hn.le

/-! ## There is one derivation only -/

mutual

/-- **A derivation and where it ends are determined by the tokens.** -/
theorem Phrase.eq_of_append : ∀ {part : Part} (p q : Phrase part) {rest rest' : List Token},
    Ends part.level rest → Ends part.level rest' → p.tokens ++ rest = q.tokens ++ rest' →
      p = q ∧ rest = rest'
  | .joined tier, .joined first others, .joined first' others', rest, rest', hrest, hrest', h => by
      rw [Phrase.tokens, Phrase.tokens, List.append_assoc, List.append_assoc] at h
      obtain ⟨rfl, hothers⟩ := Phrase.eq_of_append first first' (others.ends_operand hrest)
        (others'.ends_operand hrest') h
      obtain ⟨rfl, rfl⟩ := Others.eq_of_append others others' hrest hrest' hothers
      exact ⟨rfl, rfl⟩
  | .unary, .negation negated, .negation negated', rest, rest', hrest, hrest', h => by
      obtain ⟨rfl, rfl⟩ :=
        Phrase.eq_of_append negated negated' hrest hrest' (List.cons.inj h).2
      exact ⟨rfl, rfl⟩
  | .unary, .plain p, .plain q, rest, rest', hrest, hrest', h => by
      obtain ⟨rfl, rfl⟩ := Phrase.eq_of_append p q hrest hrest' h
      exact ⟨rfl, rfl⟩
  | .unary, .negation negated, .plain q, rest, rest', hrest, hrest', h => by
      cases q <;> cases (List.cons.inj h).1
  | .unary, .plain p, .negation negated, rest, rest', hrest, hrest', h => by
      cases p <;> cases (List.cons.inj h).1
  | .primary, .literal v, q, rest, rest', hrest, hrest', h => by
      cases q <;> cases h
      exact ⟨rfl, rfl⟩
  | .primary, .reference r, q, rest, rest', hrest, hrest', h => by
      cases q <;> cases h
      exact ⟨rfl, rfl⟩
  | .primary, .group inside, .group inside', rest, rest', hrest, hrest', h => by
      simp only [Phrase.tokens, List.cons_append, List.append_assoc, List.cons.injEq,
        true_and] at h
      obtain ⟨rfl, hclose⟩ := Phrase.eq_of_append inside inside' (ends_closeParen _ rest)
        (ends_closeParen _ rest') h
      exact ⟨rfl, (List.cons.inj hclose).2⟩
  | .primary, .group inside, .literal v, rest, rest', hrest, hrest', h => by
      cases (List.cons.inj h).1
  | .primary, .group inside, .reference r, rest, rest', hrest, hrest', h => by
      cases (List.cons.inj h).1

/-- The same of the operands behind a first one. -/
theorem Others.eq_of_append : ∀ {tier : Tier} (p q : Others tier) {rest rest' : List Token},
    Ends tier.level rest → Ends tier.level rest' → p.tokens ++ rest = q.tokens ++ rest' →
      p = q ∧ rest = rest'
  | _, .nil, .nil, rest, rest', _, _, h => ⟨rfl, h⟩
  | tier, .nil, .cons o ho next others, rest, rest', hrest, _, h => by
      have hlevel := hrest o _ h
      rw [Tier.mem_operators_iff.mp ho] at hlevel
      exact absurd hlevel (Nat.lt_irrefl _)
  | tier, .cons o ho next others, .nil, rest, rest', _, hrest', h => by
      have hlevel := hrest' o _ h.symm
      rw [Tier.mem_operators_iff.mp ho] at hlevel
      exact absurd hlevel (Nat.lt_irrefl _)
  | tier, .cons o ho next others, .cons o' ho' next' others', rest, rest', hrest, hrest', h => by
      simp only [Others.tokens, List.cons_append, List.append_assoc, List.cons.injEq,
        Token.op.injEq] at h
      obtain ⟨rfl, h⟩ := h
      obtain ⟨rfl, hothers⟩ := Phrase.eq_of_append next next' (others.ends_operand hrest)
        (others'.ends_operand hrest') h
      obtain ⟨rfl, rfl⟩ := Others.eq_of_append others others' hrest hrest' hothers
      exact ⟨rfl, rfl⟩

end

/-! ## The reader and the grammar -/

/-- A condition is read as a tree exactly if a derivation of its tokens has that tree. -/
theorem operand_eq_ok_iff {tokens : List Token} {e : Expr} :
    operand [] tokens = .ok e ↔ ∃ p : Phrase (.joined .or), p.tokens = tokens ∧ p.tree = e := by
  constructor
  · intro h
    rcases decided tokens with ⟨p, rest, rfl, hends⟩ | hrefused
    · rw [operand_phrase p [] rest trivial (hends.mono (Nat.le_succ _))] at h
      cases rest with
      | nil => exact ⟨p, by simp, Except.ok.inj h⟩
      | cons t rest =>
          cases t with
          | op o => exact absurd (ends_op_iff.mp hends) (Nat.not_lt_zero _)
          | _ => cases h
    · obtain ⟨problem, hproblem⟩ := hrefused [] trivial
      rw [hproblem] at h
      contradiction
  · rintro ⟨p, rfl, rfl⟩
    have hread := operand_phrase p [] [] trivial (ends_nil _)
    rw [List.append_nil] at hread
    rw [hread]
    rfl

/-- **The conditions that are read are those of the grammar. Each has one derivation, and it is
read as the tree of that derivation.** -/
theorem operand_grammar (tokens : List Token) :
    (∀ e, operand [] tokens = .ok e ↔
      ∃ p : Phrase (.joined .or), p.tokens = tokens ∧ p.tree = e) ∧
    ∀ p q : Phrase (.joined .or), p.tokens = tokens → q.tokens = tokens → p = q := by
  refine ⟨fun e => operand_eq_ok_iff, fun p q hp hq => ?_⟩
  have hsame : p.tokens ++ [] = q.tokens ++ [] := by rw [hp, hq]
  exact (p.eq_of_append q (ends_nil _) (ends_nil _) hsame).1

end PageServer.Condition
