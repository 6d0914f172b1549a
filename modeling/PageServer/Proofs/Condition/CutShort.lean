/-
# Conditions that end too early

No word and no symbol holds a closing brace, so in a condition it stands only
inside the quotes of a literal. The part of the condition before it then ends
inside that literal and is no condition.

* `Token.endsBefore_first`: a token before a closing brace, or the literal that holds it
* `Token.scanFrom_of_append`: the part before the brace, by induction on its characters
* `parse_of_append`: it is no condition
-/
import Mathlib
import PageServer.Proofs.Condition.Words

namespace PageServer.Condition

namespace Token

/-- A closing brace stands in no word. -/
theorem exists_ofWord_eq_error_of_brace {word : Text} (h : '\x7d' ∈ word) :
    ∃ problem, ofWord word = .error problem :=
  exists_ofWord_eq_error h (by decide) (by decide) (by decide)

/-- A reader of what starts at a character, behind which it reads the rest. What it reads before a
closing brace ends before it, or it is a literal that holds the brace. -/
def EndsBefore (c : Char) (read : Text → Except Problem (Option Token × Nat)) : Prop :=
  ∀ front after found size, read (front ++ '\x7d' :: after) = .ok (found, size) →
    (read front = .ok (found, size) ∧ size ≤ front.length) ∨ read front = .error (.unterminated c)

variable {c : Char}

/-- Of two readers that a test decides between, only one is used. -/
theorem EndsBefore.ite {p : Prop} [Decidable p]
    {read other : Text → Except Problem (Option Token × Nat)} (h : p → EndsBefore c read)
    (hnot : ¬ p → EndsBefore c other) :
    EndsBefore c fun rest => if p then read rest else other rest := by
  by_cases hp : p
  · simpa only [if_pos hp] using h hp
  · simpa only [if_neg hp] using hnot hp

/-- A single character. -/
theorem endsBefore_alone (found : Option Token) : EndsBefore c fun _ => .ok (found, 0) := by
  intro front after found' size h
  obtain ⟨-, rfl⟩ := Prod.mk.inj (Except.ok.inj h)
  exact Or.inl ⟨h, Nat.zero_le _⟩

/-- A symbol that may have an equals sign behind it. -/
theorem endsBefore_withEquals (alone joined : Token) :
    EndsBefore c fun rest =>
      .ok (some (withEquals alone joined rest).1, (withEquals alone joined rest).2) := by
  intro front after found size h
  left
  cases front with
  | nil => exact ⟨h, by obtain ⟨-, rfl⟩ := Prod.mk.inj (Except.ok.inj h); exact Nat.le_refl 0⟩
  | cons d rest =>
      by_cases hd : d = '='
      · subst hd
        refine ⟨h, ?_⟩
        obtain ⟨-, rfl⟩ := Prod.mk.inj (Except.ok.inj h)
        exact Nat.succ_le_succ (Nat.zero_le _)
      · have halone : ∀ rest, withEquals alone joined (d :: rest) = (alone, 0) := by
          intro rest
          unfold withEquals
          split
          · rename_i heq
            exact absurd (List.cons.inj heq).1 hd
          · rfl
        dsimp only at h ⊢
        rw [List.cons_append, halone] at h
        rw [halone]
        obtain ⟨-, rfl⟩ := Prod.mk.inj (Except.ok.inj h)
        exact ⟨h, Nat.zero_le _⟩

/-- A symbol of two equal characters. -/
theorem endsBefore_doubled (hc : c ≠ '\x7d') (o : Operator) :
    EndsBefore c fun rest =>
      match rest with
      | d :: _ => if d = c then .ok (some (op o), 1) else .error (.halfSymbol c)
      | [] => .error (.halfSymbol c) := by
  intro front after found size h
  left
  cases front with
  | nil =>
      rw [List.nil_append] at h
      dsimp only at h
      rw [if_neg hc.symm] at h
      contradiction
  | cons d rest =>
      rw [List.cons_append] at h
      dsimp only at h ⊢
      refine ⟨h, ?_⟩
      split_ifs at h
      obtain ⟨-, rfl⟩ := Prod.mk.inj (Except.ok.inj h)
      exact Nat.succ_le_succ (Nat.zero_le _)

/-- A literal in quotes, which alone can hold the brace. -/
theorem endsBefore_quote :
    EndsBefore c fun rest =>
      match Text.cut c rest with
      | some (inside, _) => .ok (some (lit (.str inside)), inside.length + 1)
      | none => .error (.unterminated c) := by
  intro front after found size h
  by_cases hmem : c ∈ front
  · -- the literal ends before the brace
    obtain ⟨inside, rest, rfl, hinside⟩ := List.eq_append_cons_of_mem hmem
    have hcut : Text.cut c (inside ++ c :: rest) = some (inside, rest) :=
      Text.cut_append hinside rest
    have hlonger : Text.cut c (inside ++ c :: rest ++ '\x7d' :: after) =
        some (inside, rest ++ '\x7d' :: after) := by
      rw [List.append_assoc, List.cons_append]
      exact Text.cut_append hinside _
    dsimp only at h ⊢
    rw [hlonger] at h
    rw [hcut]
    refine Or.inl ⟨h, ?_⟩
    obtain ⟨-, rfl⟩ := Prod.mk.inj (Except.ok.inj h)
    rw [List.length_append, List.length_cons]
    omega
  · right
    dsimp only
    rw [Text.cut_of_not_mem hmem]

/-- A word, of which the brace can not be a part. -/
theorem endsBefore_word (hc : isBoundary c = false) : EndsBefore c (first c) := by
  intro front after found size h
  left
  rw [first_of_not_isBoundary hc] at h ⊢
  rw [List.takeWhile_append] at h
  split_ifs at h with hwhole
  · -- the word would go on with the brace
    have hbrace : '\x7d' ∈ c :: (front ++ ('\x7d' :: after).takeWhile fun d => !isBoundary d) := by
      have htake : (('\x7d' :: after).takeWhile fun d => !isBoundary d) =
          '\x7d' :: after.takeWhile fun d => !isBoundary d := rfl
      rw [htake]
      simp
    obtain ⟨problem, hproblem⟩ := exists_ofWord_eq_error_of_brace hbrace
    rw [hproblem] at h
    contradiction
  · refine ⟨h, ?_⟩
    cases hword : ofWord (c :: front.takeWhile fun d => !isBoundary d) with
    | error problem =>
        rw [hword] at h
        contradiction
    | ok t =>
        rw [hword] at h
        obtain ⟨-, rfl⟩ := Prod.mk.inj (Except.ok.inj h)
        exact (List.takeWhile_sublist _).length_le

/-- **A token before a closing brace ends before it, or it is a literal that holds the brace.** -/
theorem endsBefore_first (c : Char) : EndsBefore c (first c) := by
  by_cases hword : isBoundary c = false
  · exact endsBefore_word hword
  show EndsBefore c fun rest => first c rest
  unfold first
  refine .ite (fun _ => endsBefore_alone none) fun hblank => ?_
  refine .ite (fun _ => endsBefore_alone _) fun hopen => ?_
  refine .ite (fun _ => endsBefore_alone _) fun hclose => ?_
  refine .ite (fun _ => endsBefore_withEquals _ _) fun hnot => ?_
  refine .ite (fun heq => endsBefore_doubled (by rw [heq]; decide) _) fun heq => ?_
  refine .ite (fun _ => endsBefore_withEquals _ _) fun hgt => ?_
  refine .ite (fun _ => endsBefore_withEquals _ _) fun hlt => ?_
  refine .ite (fun hand => endsBefore_doubled (by rw [hand]; decide) _) fun hand => ?_
  refine .ite (fun hor => endsBefore_doubled (by rw [hor]; decide) _) fun hor => ?_
  refine .ite (fun _ => endsBefore_quote) fun hquote => ?_
  simp [isBoundary, hblank, hquote, hopen, hclose, hnot, heq, hgt, hlt, hand, hor] at hword

/-- **Of a text that has tokens, the part before a closing brace has none.** -/
theorem scanFrom_of_append {front after : Text} {skip : Nat} {tokens : List Token}
    (hskip : skip ≤ front.length) (h : scanFrom skip (front ++ '\x7d' :: after) = .ok tokens) :
    ∃ quote, scanFrom skip front = .error (.unterminated quote) := by
  induction front generalizing skip tokens with
  | nil =>
      obtain rfl : skip = 0 := Nat.le_zero.mp hskip
      obtain ⟨found, size, others, hfirst, -⟩ := of_scanFrom_cons h
      -- the brace would begin a word
      obtain ⟨problem, hproblem⟩ : ∃ problem, first '\x7d' after = .error problem := by
        obtain ⟨problem, hproblem⟩ := exists_ofWord_eq_error_of_brace
          (List.mem_cons_self (l := after.takeWhile fun d => !isBoundary d))
        refine ⟨problem, ?_⟩
        rw [first_of_not_isBoundary rfl, hproblem]
      rw [hproblem] at hfirst
      contradiction
  | cons c front ih =>
      cases skip with
      | succ skip => exact ih (Nat.le_of_succ_le_succ hskip) h
      | zero =>
          obtain ⟨found, size, others, hfirst, hothers, -⟩ := of_scanFrom_cons h
          rcases endsBefore_first c front after found size hfirst with ⟨hhere, hsize⟩ | herror
          · obtain ⟨quote, hquote⟩ := ih hsize hothers
            refine ⟨quote, ?_⟩
            rw [scanFrom_of_first hhere, hquote]
            rfl
          · exact ⟨c, scanFrom_of_first_error herror⟩

end Token

/-- **The part of a condition before a closing brace ends inside a literal.** -/
theorem parse_of_append {front after : Text} {e : Expr}
    (h : parse (front ++ '\x7d' :: after) = .ok e) :
    ∃ quote, parse front = .error (.unterminated quote) := by
  unfold parse at h
  split at h
  · contradiction
  · contradiction
  · rename_i tokens hnonempty hscan
    obtain ⟨quote, hquote⟩ := Token.scanFrom_of_append (Nat.zero_le _) hscan
    refine ⟨quote, ?_⟩
    rw [parse, Token.scan, hquote]

end PageServer.Condition
