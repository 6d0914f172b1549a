/-
# What tags look like

Every tag is written between two braces. That of a condition ends with the first
brace behind the first character of the condition, which may be a brace itself;
all others end with the first brace of all.

* `Kind.Inside`: what stands between the braces of a tag that is no condition
* `Kind.Spelt`: a tag with its braces
* `Kind.ofBody?_eq_some_iff`: the reader of insides accepts exactly those
* `Kind.at?_eq_some_iff`: the reader of tags accepts exactly the texts that begin with one
-/
import Mathlib
import PageServer.Template.Token
import PageServer.Proofs.Template.Names

namespace PageServer.Token.Kind

open Reference (isWordChar isWordChar_of_mem_word)

/-! ## Shapes -/

/-- A text that can be a condition in a tag: a character, and then none that is a closing brace;
nowhere a line feed. -/
def FitsCondition : Text → Prop
  | [] => False
  | first :: more => '\x7d' ∉ more ∧ '\n' ∉ first :: more

/-- What stands between the braces of a tag, for all tags but conditions. -/
inductive Inside : Kind → Text → Prop where
  /-- The spelling of a reference. -/
  | reference {r : Reference} (h : r.Printable) : Inside (.reference r) r.word
  /-- The word for the last branch. -/
  | otherwise : Inside .otherwise "ELSE:"
  /-- The same with a blank behind it. -/
  | otherwiseBlank {blank : Char} (h : Text.isBlank blank = true) :
      Inside .otherwise ("ELSE:" ++ [blank])
  /-- The end of a choice. -/
  | endIf : Inside .endIf "/IF"
  /-- The start of a loop. -/
  | loop {name : Text} (h : isLoopName name = true) : Inside (.loop name) ("LOOP: " ++ name)
  /-- The end of a loop. -/
  | endLoop {name : Text} (h : isLoopName name = true) :
      Inside (.endLoop name) ("/LOOP: " ++ name)
  /-- The name of a template, with blanks around it. -/
  | inclusion {name : Text} (hbrace : '\x7d' ∉ name) (hline : '\n' ∉ name) :
      Inside (.inclusion (Text.trim name)) ("INCLUDE: " ++ name)

/-- A tag with its braces. -/
inductive Spelt : Kind → Text → Prop where
  /-- The condition of a first branch. -/
  | ifStart {blank : Char} {condition : Text} (hblank : Text.isBlank blank = true)
      (h : FitsCondition condition) :
      Spelt (.ifStart condition) ("\x7bIF:" ++ blank :: condition ++ ['\x7d'])
  /-- The condition of a further branch. -/
  | elseIf {blank : Char} {condition : Text} (hblank : Text.isBlank blank = true)
      (h : FitsCondition condition) :
      Spelt (.elseIf condition) ("\x7bELSEIF:" ++ blank :: condition ++ ['\x7d'])
  /-- Any other tag. -/
  | braced {kind : Kind} {body : Text} (h : Inside kind body) :
      Spelt kind ('\x7b' :: body ++ ['\x7d'])

/-- A blank does not stand in the spelling of a reference. -/
theorem isWordChar_of_isBlank {c : Char} (h : Text.isBlank c = true) : isWordChar c = false := by
  rw [Bool.eq_false_iff]
  intro hword
  have hrange := Reference.toNat_of_isWordChar hword
  simp only [Text.isBlank, Bool.or_eq_true, Bool.and_eq_true, decide_eq_true_eq, beq_iff_eq] at h
  omega

/-- A text with a character that can not stand in a spelling names nothing. -/
theorem ofTag?_of_mem {c : Char} {body : Text} (hc : c ∈ body) (h : isWordChar c = false) :
    Reference.ofTag? body = none := by
  cases htag : Reference.ofTag? body with
  | none => rfl
  | some r =>
      obtain ⟨hprintable, rfl⟩ := Reference.ofTag?_eq_some_iff.mp htag
      rw [isWordChar_of_mem_word hprintable.testable hc] at h
      contradiction

/-! ## Insides -/

/-- The inside of a tag has no closing brace. -/
theorem Inside.not_mem {kind : Kind} {body : Text} (h : Inside kind body) : '\x7d' ∉ body := by
  have hloop : ∀ {name : Text}, isLoopName name = true → '\x7d' ∉ name := by
    intro name hname hmem
    simp only [isLoopName, Bool.and_eq_true, List.all_eq_true] at hname
    exact absurd (hname.2 _ hmem) (by decide)
  cases h with
  | reference h =>
      intro hmem
      exact absurd (isWordChar_of_mem_word h.testable hmem) (by decide)
  | otherwise => decide
  | otherwiseBlank h =>
      rw [List.mem_append, not_or, List.mem_singleton]
      refine ⟨by decide, ?_⟩
      rintro rfl
      exact absurd h (by decide)
  | endIf => decide
  | loop h =>
      rw [List.mem_append, not_or]
      exact ⟨by decide, hloop h⟩
  | endLoop h =>
      rw [List.mem_append, not_or]
      exact ⟨by decide, hloop h⟩
  | inclusion hbrace hline =>
      rw [List.mem_append, not_or]
      exact ⟨by decide, hbrace⟩

/-- **The reader of insides accepts exactly those of tags.** -/
theorem ofBody?_eq_some_iff {body : Text} {kind : Kind} (hbrace : '\x7d' ∉ body) :
    ofBody? body = some kind ↔ Inside kind body := by
  constructor
  · intro h
    unfold ofBody? at h
    split at h
    · rename_i r htag
      obtain rfl := Option.some.inj h
      obtain ⟨hprintable, rfl⟩ := Reference.ofTag?_eq_some_iff.mp htag
      exact .reference hprintable
    split at h
    · rename_i helse
      obtain rfl := Option.some.inj h
      rw [Text.after?_eq_some_iff.mp helse]
      exact .otherwise
    · rename_i c helse
      split_ifs at h with hblank
      obtain rfl := Option.some.inj h
      rw [Text.after?_eq_some_iff.mp helse]
      exact .otherwiseBlank hblank
    · contradiction
    split_ifs at h with hend
    · obtain rfl := Option.some.inj h
      rw [hend]
      exact .endIf
    split at h
    · rename_i name hloop
      split_ifs at h with hname
      obtain rfl := Option.some.inj h
      rw [Text.after?_eq_some_iff.mp hloop]
      exact .loop hname
    · rename_i name _ hloop
      split_ifs at h with hname
      obtain rfl := Option.some.inj h
      rw [Text.after?_eq_some_iff.mp hloop]
      exact .endLoop hname
    · rename_i name _ _ hinclude
      split_ifs at h with hline
      obtain rfl := Option.some.inj h
      rw [Text.after?_eq_some_iff.mp hinclude] at hbrace ⊢
      exact .inclusion (fun hmem => hbrace (List.mem_append_right _ hmem)) hline
    · contradiction
  · intro h
    unfold ofBody?
    cases h with
    | reference h => rw [Reference.ofTag?_eq_some_iff.mpr ⟨h, rfl⟩]
    | otherwise => rfl
    | otherwiseBlank h =>
        rw [ofTag?_of_mem (List.mem_append_right _ List.mem_cons_self) (isWordChar_of_isBlank h)]
        exact if_pos h
    | endIf => rfl
    | loop h =>
        rw [ofTag?_of_mem (c := ' ') (List.mem_append_left _ (by decide)) (by decide)]
        exact if_pos h
    | endLoop h =>
        rw [ofTag?_of_mem (c := ' ') (List.mem_append_left _ (by decide)) (by decide)]
        exact if_pos h
    | inclusion hbrace hline =>
        rw [ofTag?_of_mem (c := ' ') (List.mem_append_left _ (by decide)) (by decide)]
        exact if_neg hline

/-! ## Tags -/

/-- The condition behind a keyword: a blank, a text that fits, and a brace. -/
theorem conditionAfter?_eq_some_iff {keyword t condition : Text} :
    conditionAfter? keyword t = some condition ↔
      ∃ blank rest, Text.isBlank blank = true ∧ FitsCondition condition ∧
        t = keyword ++ blank :: condition ++ '\x7d' :: rest := by
  unfold conditionAfter?
  constructor
  · intro h
    split at h
    · rename_i blank first inside hafter
      split at h
      · rename_i more rest hcut
        split_ifs at h with hfits
        obtain rfl := Option.some.inj h
        obtain ⟨rfl, hbrace⟩ := Text.cut_eq_some_iff.mp hcut
        refine ⟨blank, rest, hfits.1, ⟨hbrace, hfits.2⟩, ?_⟩
        rw [Text.after?_eq_some_iff.mp hafter]
        simp
      · contradiction
    · contradiction
  · rintro ⟨blank, rest, hblank, hfits, rfl⟩
    cases condition with
    | nil => contradiction
    | cons first more =>
        obtain ⟨hbrace, hline⟩ := hfits
        have hafter : Text.after? keyword
            (keyword ++ blank :: first :: more ++ '\x7d' :: rest) =
            some (blank :: first :: (more ++ '\x7d' :: rest)) :=
          Text.after?_eq_some_iff.mpr (by simp)
        rw [hafter]
        dsimp only
        rw [Text.cut_append hbrace]
        exact if_pos ⟨hblank, hline⟩

/-- The blank behind a keyword without braces stands before the first brace. -/
theorem exists_blank_of_conditionAfter? {word body rest condition : Text} (hword : '\x7d' ∉ word)
    (h : conditionAfter? ('\x7b' :: word) ('\x7b' :: body ++ '\x7d' :: rest) = some condition) :
    ∃ blank ∈ body, Text.isBlank blank = true := by
  obtain ⟨blank, tail, hblank, -, heq⟩ := conditionAfter?_eq_some_iff.mp h
  have hne : blank ≠ '\x7d' := by
    rintro rfl
    exact absurd hblank (by decide)
  rw [List.cons_append, List.append_assoc, List.cons_append] at heq
  obtain ⟨-, heq⟩ := List.cons.inj heq
  rcases List.append_eq_append_iff.mp heq with ⟨between, hbetween, hrest⟩ | ⟨between, rfl, hrest⟩
  · -- the keyword would reach beyond the brace
    cases between with
    | nil => exact absurd (List.cons.inj hrest).1.symm hne
    | cons c between =>
        obtain ⟨rfl, -⟩ := List.cons.inj hrest
        rw [hbetween] at hword
        simp at hword
  · cases between with
    | nil => exact absurd (List.cons.inj hrest).1 hne
    | cons c between =>
        obtain ⟨rfl, -⟩ := List.cons.inj hrest
        exact ⟨blank, List.mem_append_right word List.mem_cons_self, hblank⟩

/-- No other tag is read as a condition. -/
theorem conditionAfter?_of_inside {kind : Kind} {body : Text} (h : Inside kind body) (rest : Text) :
    conditionAfter? "\x7bIF:" ('\x7b' :: body ++ '\x7d' :: rest) = none ∧
      conditionAfter? "\x7bELSEIF:" ('\x7b' :: body ++ '\x7d' :: rest) = none := by
  cases h with
  | @reference r h =>
      -- a spelling holds no blank
      have hnone : ∀ word : Text, '\x7d' ∉ word →
          conditionAfter? ('\x7b' :: word) ('\x7b' :: r.word ++ '\x7d' :: rest) = none := by
        intro word hword
        by_contra hsome
        obtain ⟨condition, hcondition⟩ := Option.ne_none_iff_exists'.mp hsome
        obtain ⟨blank, hmem, hblank⟩ := exists_blank_of_conditionAfter? hword hcondition
        have hchar := isWordChar_of_mem_word h.testable hmem
        rw [isWordChar_of_isBlank hblank] at hchar
        contradiction
      exact ⟨hnone "IF:" (by decide), hnone "ELSEIF:" (by decide)⟩
  | otherwise => exact ⟨rfl, rfl⟩
  | otherwiseBlank h => exact ⟨rfl, rfl⟩
  | endIf => exact ⟨rfl, rfl⟩
  | loop h => exact ⟨rfl, rfl⟩
  | endLoop h => exact ⟨rfl, rfl⟩
  | inclusion hbrace hline => exact ⟨rfl, rfl⟩

/-- **The reader of tags accepts exactly the texts that begin with one.** -/
theorem at?_eq_some_iff {t : Text} {kind : Kind} {size : Nat} :
    at? t = some (kind, size) ↔
      ∃ written rest, Spelt kind written ∧ t = written ++ rest ∧ size = written.length := by
  unfold at?
  constructor
  · intro h
    split at h
    · rename_i condition hcondition
      obtain ⟨rfl, rfl⟩ := Prod.mk.inj (Option.some.inj h)
      obtain ⟨blank, rest, hblank, hfits, rfl⟩ := conditionAfter?_eq_some_iff.mp hcondition
      exact ⟨_, rest, .ifStart hblank hfits, by simp, by simp⟩
    · rename_i condition hcondition
      obtain ⟨rfl, rfl⟩ := Prod.mk.inj (Option.some.inj h)
      obtain ⟨blank, rest, hblank, hfits, rfl⟩ := conditionAfter?_eq_some_iff.mp hcondition
      exact ⟨_, rest, .elseIf hblank hfits, by simp, by simp⟩
    · split at h
      · split at h
        · rename_i inside body rest hcut
          obtain ⟨kind', hbody, heq⟩ := Option.map_eq_some_iff.mp h
          obtain ⟨rfl, rfl⟩ := Prod.mk.inj heq
          obtain ⟨rfl, hbrace⟩ := Text.cut_eq_some_iff.mp hcut
          exact ⟨_, rest, .braced ((ofBody?_eq_some_iff hbrace).mp hbody), by simp, by simp⟩
        · contradiction
      · contradiction
  · rintro ⟨written, rest, hspelt, rfl, rfl⟩
    cases hspelt with
    | @ifStart blank condition hblank hfits =>
        have hcondition : conditionAfter? "\x7bIF:"
            ("\x7bIF:" ++ blank :: condition ++ ['\x7d'] ++ rest) = some condition :=
          conditionAfter?_eq_some_iff.mpr ⟨blank, rest, hblank, hfits, by simp⟩
        rw [hcondition]
        simp
    | @elseIf blank condition hblank hfits =>
        have hcondition : conditionAfter? "\x7bELSEIF:"
            ("\x7bELSEIF:" ++ blank :: condition ++ ['\x7d'] ++ rest) = some condition :=
          conditionAfter?_eq_some_iff.mpr ⟨blank, rest, hblank, hfits, by simp⟩
        have hif : conditionAfter? "\x7bIF:"
            ("\x7bELSEIF:" ++ blank :: condition ++ ['\x7d'] ++ rest) = none := rfl
        rw [hcondition, hif]
        simp
    | @braced _ body h =>
        have hnone := conditionAfter?_of_inside h rest
        have hcut : Text.cut '\x7d' (body ++ '\x7d' :: rest) = some (body, rest) :=
          Text.cut_append h.not_mem rest
        rw [List.append_assoc, List.singleton_append, hnone.1, hnone.2]
        dsimp only
        split
        · rename_i inside heq
          have hinside : inside = body ++ '\x7d' :: rest := (List.cons.inj heq).2.symm
          rw [hinside, hcut]
          dsimp only
          rw [(ofBody?_eq_some_iff h.not_mem).mpr h]
          simp
        · rename_i hother
          exact absurd rfl (hother _)

end PageServer.Token.Kind
