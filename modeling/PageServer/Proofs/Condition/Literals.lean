/-
# Values that are written in conditions

What holds of every value that is written in a condition. Joining operands does
not change the values in them, so the tree of a condition has the literals of
its tokens, which are neither maps nor loops.

* `Expr.Literals`: a property of every value in a condition
* `Condition.operand_literals`: reading keeps the property, by induction on the tokens
* `Condition.parse_literals`: what is written in a condition is a scalar
-/
import Mathlib.Data.List.Basic
import PageServer.Condition.Tree

namespace PageServer

/-- A value that is neither a map nor a loop. -/
def Value.IsScalar : Value → Prop
  | .map _ => False
  | .rows _ => False
  | _ => True

/-- A property of every value that is written in a condition. -/
def Expr.Literals (P : Value → Prop) : Expr → Prop
  | .lit v => P v
  | .var _ => True
  | .constant _ => True
  | .not e => e.Literals P
  | .binary _ left right => left.Literals P ∧ right.Literals P

instance Expr.decidableLiterals (P : Value → Prop) [DecidablePred P] :
    DecidablePred (Expr.Literals P)
  | .lit v => inferInstanceAs (Decidable (P v))
  | .var _ => isTrue trivial
  | .constant _ => isTrue trivial
  | .not e => decidableLiterals P e
  | .binary _ left right =>
    @instDecidableAnd _ _ (decidableLiterals P left) (decidableLiterals P right)

namespace Condition

variable {P : Value → Prop}

/-! ## Tokens -/

/-- A property of the value of a token that is a literal. -/
def Token.Literal (P : Value → Prop) : Token → Prop
  | .lit v => P v
  | _ => True

namespace Token

/-- The literals among the words with a fixed meaning are scalars. -/
theorem keywords_literal : ∀ entry ∈ keywords, entry.2.Literal Value.IsScalar := by
  intro entry hentry
  simp only [keywords, Operator.all, List.map_cons, List.map_nil, List.cons_append,
    List.nil_append, List.mem_cons, List.not_mem_nil, or_false] at hentry
  rcases hentry with rfl | rfl | rfl | rfl | rfl | rfl | rfl | rfl | rfl | rfl | rfl | rfl <;>
    trivial

/-- A word that is a literal is a scalar. -/
theorem ofWord_literal {word : Text} {t : Token} (h : ofWord word = .ok t) :
    t.Literal Value.IsScalar := by
  unfold ofWord at h
  split at h
  · rename_i found hlookup
    obtain ⟨before, after, heq, -⟩ := List.lookup_eq_some_iff.mp hlookup
    have hmem : (word, found) ∈ keywords := by
      rw [heq]
      exact List.mem_append_right before List.mem_cons_self
    rw [← Except.ok.inj h]
    exact keywords_literal (word, found) hmem
  · split at h
    · rw [← Except.ok.inj h]
      trivial
    · rw [← Except.ok.inj h]
      trivial
    · rw [← Except.ok.inj h]
      trivial
    · contradiction

/-- A symbol is no literal. -/
theorem withEquals_literal {alone joined : Token} (halone : alone.Literal P)
    (hjoined : joined.Literal P) (rest : Text) : (withEquals alone joined rest).1.Literal P := by
  unfold withEquals
  split
  · exact hjoined
  · exact halone

/-- An operator of two equal characters is no literal. -/
theorem doubled_literal {o : Operator} {c : Char} {rest : Text} {found : Option Token} {size : Nat}
    (h : (match rest with
      | d :: _ => if d = c then .ok (some (op o), 1) else .error (Problem.halfSymbol c)
      | [] => .error (Problem.halfSymbol c)) = Except.ok (found, size)) :
    ∀ t ∈ found, t.Literal P := by
  cases rest with
  | nil => contradiction
  | cons d others =>
      dsimp only at h
      split_ifs at h
      obtain ⟨rfl, -⟩ := Prod.mk.inj (Except.ok.inj h)
      intro t ht
      obtain rfl := Option.some.inj ht
      trivial

/-- The literal that starts at a character is a scalar. -/
theorem first_literal {c : Char} {rest : Text} {found : Option Token} {size : Nat}
    (h : first c rest = .ok (found, size)) : ∀ t ∈ found, t.Literal Value.IsScalar := by
  have hsingle : ∀ {t' : Token} {n : Nat}, t'.Literal Value.IsScalar →
      (Except.ok (some t', n) : Except Problem (Option Token × Nat)) = .ok (found, size) →
      ∀ t ∈ found, t.Literal Value.IsScalar := by
    intro t' n hscalar heq t ht
    obtain ⟨rfl, -⟩ := Prod.mk.inj (Except.ok.inj heq)
    obtain rfl := Option.some.inj ht
    exact hscalar
  unfold first at h
  dsimp only at h
  -- the marks come before the quoted texts and the words, which alone are literals
  by_cases hblank : Text.isBlank c = true
  · rw [if_pos hblank] at h
    obtain ⟨rfl, -⟩ := Prod.mk.inj (Except.ok.inj h)
    intro t ht
    contradiction
  rw [if_neg hblank] at h
  by_cases hopen : c = '('
  · rw [if_pos hopen] at h
    exact hsingle (by trivial) h
  rw [if_neg hopen] at h
  by_cases hclose : c = ')'
  · rw [if_pos hclose] at h
    exact hsingle (by trivial) h
  rw [if_neg hclose] at h
  by_cases hnot : c = '!'
  · rw [if_pos hnot] at h
    exact hsingle (withEquals_literal (by trivial) (by trivial) rest) h
  rw [if_neg hnot] at h
  by_cases heq : c = '='
  · rw [if_pos heq] at h
    exact doubled_literal h
  rw [if_neg heq] at h
  by_cases hgt : c = '>'
  · rw [if_pos hgt] at h
    exact hsingle (withEquals_literal (by trivial) (by trivial) rest) h
  rw [if_neg hgt] at h
  by_cases hlt : c = '<'
  · rw [if_pos hlt] at h
    exact hsingle (withEquals_literal (by trivial) (by trivial) rest) h
  rw [if_neg hlt] at h
  by_cases hand : c = '&'
  · rw [if_pos hand] at h
    exact doubled_literal h
  rw [if_neg hand] at h
  by_cases hor : c = '|'
  · rw [if_pos hor] at h
    exact doubled_literal h
  rw [if_neg hor] at h
  by_cases hquote : isQuote c = true
  · rw [if_pos hquote] at h
    split at h
    · exact hsingle (by trivial) h
    · contradiction
  · rw [if_neg hquote] at h
    split at h
    · rename_i t hword
      exact hsingle (ofWord_literal hword) h
    · contradiction

/-- A token is followed by those of what it leaves. -/
theorem of_scanFrom_cons {c : Char} {rest : Text} {tokens : List Token}
    (h : scanFrom 0 (c :: rest) = .ok tokens) :
    ∃ found size others, first c rest = .ok (found, size) ∧ scanFrom size rest = .ok others ∧
      tokens = found.toList ++ others := by
  unfold scanFrom at h
  split at h
  · contradiction
  · rename_i found size hfirst
    split at h
    · contradiction
    · rename_i others hothers
      exact ⟨found, size, others, hfirst, hothers, (Except.ok.inj h).symm⟩

/-- The literals among the tokens of a text are scalars. -/
theorem scanFrom_literal {skip : Nat} {source : Text} {tokens : List Token}
    (h : scanFrom skip source = .ok tokens) : ∀ t ∈ tokens, t.Literal Value.IsScalar := by
  induction source generalizing skip tokens with
  | nil =>
      obtain rfl : [] = tokens := Except.ok.inj h
      intro t ht
      contradiction
  | cons c rest ih =>
      cases skip with
      | succ skip => exact ih h
      | zero =>
          obtain ⟨found, size, others, hfirst, hothers, rfl⟩ := of_scanFrom_cons h
          intro t ht
          rcases List.mem_append.mp ht with hhere | hlater
          · exact first_literal hfirst t (Option.mem_toList.mp hhere)
          · exact ih hothers t hlater

end Token

/-! ## Trees -/

/-- A property of the values in what is open to the left of an operand. -/
def Pending.Literals (P : Value → Prop) : Pending → Prop
  | .left e _ => e.Literals P
  | _ => True

/-- Applying negations keeps the values. -/
theorem negate_literals {stack : List Pending} {e : Expr}
    (hstack : ∀ p ∈ stack, p.Literals P) (he : e.Literals P) :
    (∀ p ∈ (negate stack e).1, p.Literals P) ∧ (negate stack e).2.Literals P := by
  induction stack generalizing e with
  | nil => exact ⟨hstack, he⟩
  | cons p stack ih =>
      cases p with
      | negation => exact ih (fun q hq => hstack q (List.mem_cons_of_mem _ hq)) he
      | paren => exact ⟨hstack, he⟩
      | left l op => exact ⟨hstack, he⟩

/-- Joining operands keeps the values. -/
theorem reduce_literals (level : Nat) {stack : List Pending} {e : Expr}
    (hstack : ∀ p ∈ stack, p.Literals P) (he : e.Literals P) :
    (∀ p ∈ (reduce level stack e).1, p.Literals P) ∧ (reduce level stack e).2.Literals P := by
  induction stack generalizing e with
  | nil => exact ⟨hstack, he⟩
  | cons p stack ih =>
      cases p with
      | negation => exact ⟨hstack, he⟩
      | paren => exact ⟨hstack, he⟩
      | left l op =>
          rw [reduce]
          split_ifs
          · apply ih
            · intro q hq
              exact hstack q (List.mem_cons_of_mem _ hq)
            · exact ⟨hstack (.left l op) List.mem_cons_self, he⟩
          · exact ⟨hstack, he⟩

mutual
/-- **The tree that is read has the values of what is open and of the tokens that come.** -/
theorem operand_literals : ∀ (tokens : List Token) (stack : List Pending) (e : Expr),
    (∀ t ∈ tokens, t.Literal P) → (∀ p ∈ stack, p.Literals P) →
    operand stack tokens = .ok e → e.Literals P
  | [], _, _, _, _, h => by contradiction
  | .lit v :: tokens, stack, e, htokens, hstack, h => by
      obtain ⟨hv, htokens⟩ := List.forall_mem_cons.mp htokens
      obtain ⟨hstack, he⟩ := negate_literals hstack (show (Expr.lit v).Literals P from hv)
      exact behindOperand_literals tokens _ _ e htokens hstack he h
  | .ref (.var v) :: tokens, stack, e, htokens, hstack, h => by
      obtain ⟨-, htokens⟩ := List.forall_mem_cons.mp htokens
      obtain ⟨hstack, he⟩ := negate_literals hstack (show (Expr.var v).Literals P from trivial)
      exact behindOperand_literals tokens _ _ e htokens hstack he h
  | .ref (.constant name) :: tokens, stack, e, htokens, hstack, h => by
      obtain ⟨-, htokens⟩ := List.forall_mem_cons.mp htokens
      obtain ⟨hstack, he⟩ :=
        negate_literals hstack (show (Expr.constant name).Literals P from trivial)
      exact behindOperand_literals tokens _ _ e htokens hstack he h
  | .negation :: tokens, stack, e, htokens, hstack, h => by
      obtain ⟨-, htokens⟩ := List.forall_mem_cons.mp htokens
      exact operand_literals tokens _ e htokens (List.forall_mem_cons.mpr ⟨by trivial, hstack⟩) h
  | .openParen :: tokens, stack, e, htokens, hstack, h => by
      obtain ⟨-, htokens⟩ := List.forall_mem_cons.mp htokens
      exact operand_literals tokens _ e htokens (List.forall_mem_cons.mpr ⟨by trivial, hstack⟩) h
  | .closeParen :: _, _, _, _, _, h => by contradiction
  | .op _ :: _, _, _, _, _, h => by contradiction

/-- The same behind an operand. -/
theorem behindOperand_literals : ∀ (tokens : List Token) (stack : List Pending) (e e' : Expr),
    (∀ t ∈ tokens, t.Literal P) → (∀ p ∈ stack, p.Literals P) → e.Literals P →
    behindOperand stack e tokens = .ok e' → e'.Literals P
  | [], stack, e, e', _, hstack, he, h => by
      have hreduced := reduce_literals 0 hstack he
      rw [behindOperand] at h
      split at h
      · rename_i whole heq
        rw [heq] at hreduced
        rw [← Except.ok.inj h]
        exact hreduced.2
      · contradiction
  | .op o :: tokens, stack, e, e', htokens, hstack, he, h => by
      obtain ⟨-, htokens⟩ := List.forall_mem_cons.mp htokens
      obtain ⟨hrest, hleft⟩ := reduce_literals o.level hstack he
      have hstack' : ∀ p ∈ .left (reduce o.level stack e).2 o :: (reduce o.level stack e).1,
          p.Literals P := List.forall_mem_cons.mpr ⟨hleft, hrest⟩
      exact operand_literals tokens _ e' htokens hstack' h
  | .closeParen :: tokens, stack, e, e', htokens, hstack, he, h => by
      obtain ⟨-, htokens⟩ := List.forall_mem_cons.mp htokens
      have hreduced := reduce_literals 0 hstack he
      rw [behindOperand] at h
      split at h
      · rename_i inner inside heq
        rw [heq] at hreduced
        -- what is in parentheses is an operand of what is open before them
        obtain ⟨-, hinner⟩ := List.forall_mem_cons.mp hreduced.1
        obtain ⟨houter, hnegated⟩ := negate_literals hinner hreduced.2
        exact behindOperand_literals tokens _ _ e' htokens houter hnegated h
      · contradiction
  | .lit _ :: _, _, _, _, _, _, _, h => by contradiction
  | .ref _ :: _, _, _, _, _, _, _, h => by contradiction
  | .negation :: _, _, _, _, _, _, _, h => by contradiction
  | .openParen :: _, _, _, _, _, _, _, h => by contradiction
end

/-- **What is written in a condition is neither a map nor a loop.** -/
theorem parse_literals {source : Text} {e : Expr} (h : parse source = .ok e) :
    e.Literals Value.IsScalar := by
  unfold parse at h
  split at h
  · contradiction
  · contradiction
  · rename_i tokens _ hscan
    have htokens := Token.scanFrom_literal hscan
    apply operand_literals tokens [] e htokens _ h
    intro p hp
    contradiction

end Condition
end PageServer
