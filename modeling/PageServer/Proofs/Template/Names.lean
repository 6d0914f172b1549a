/-
# The names that tags and conditions know

A variable is spelled by its loop, a dot and its names with colons between them,
and a constant by its name behind `C:`. The readers of tags and of conditions
accept the spellings of a reference and nothing else; they differ in the names
they allow for constants.

* `Reference.IsPath`, `Reference.IsScope`: the names of variables and of loops, part by part
* `Reference.variableOfWord?_eq_some_iff`: the words that spell a variable
* `Reference.ofTag?_eq_some_iff`: the tags that spell a reference
* `Reference.ofWord?_eq_some_iff`: the words of conditions that spell one
* `Reference.isWordChar_of_mem_word`: the characters of such words
-/
import Mathlib
import PageServer.Template.Reference
import PageServer.Proofs.Text.Cutting

namespace PageServer.Reference

/-! ## Parts of names -/

/-- The parts of a name between its colons: at least one, none of them empty, and the first one of
at least two characters. -/
structure IsPath (path : List Text) : Prop where
  /-- There is a first part. -/
  ne_nil : path ≠ []
  /-- It has at least two characters. -/
  long : ∀ first ∈ path.head?, 2 ≤ first.length
  /-- No part is empty. -/
  filled : ∀ part ∈ path, part ≠ []
  /-- All characters are capitals, digits or low lines. -/
  chars : ∀ part ∈ path, ∀ c ∈ part, isNameChar c = true

/-- The parts of the name of a loop between its dots: at least one, and none of them empty. -/
structure IsScope (scope : List Text) : Prop where
  /-- There is a part. -/
  ne_nil : scope ≠ []
  /-- No part is empty. -/
  filled : ∀ part ∈ scope, part ≠ []
  /-- All characters are small letters, digits or low lines. -/
  chars : ∀ part ∈ scope, ∀ c ∈ part, isLoopChar c = true

/-- A text is a name exactly if its parts are those of one. -/
theorem isName_iff {t : Text} : isName t = true ↔ IsPath (Text.splitOn ':' t) := by
  unfold isName
  cases hsplit : Text.splitOn ':' t with
  | nil => exact absurd hsplit (Text.splitOn_ne_nil ':' t)
  | cons first others =>
      simp only [Bool.and_eq_true, decide_eq_true_eq, List.all_eq_true, Bool.not_eq_true',
        List.isEmpty_eq_false_iff]
      constructor
      · rintro ⟨⟨hlong, hfirst⟩, hothers⟩
        refine ⟨List.cons_ne_nil _ _, ?_, ?_, ?_⟩
        · rintro part ⟨⟩
          exact hlong
        · rw [List.forall_mem_cons]
          refine ⟨?_, fun part hpart => (hothers part hpart).1⟩
          rintro rfl
          simp at hlong
        · rw [List.forall_mem_cons]
          exact ⟨hfirst, fun part hpart => (hothers part hpart).2⟩
      · intro h
        obtain ⟨-, hfilled⟩ := List.forall_mem_cons.mp h.filled
        obtain ⟨hfirst, hchars⟩ := List.forall_mem_cons.mp h.chars
        exact ⟨⟨h.long first rfl, hfirst⟩, fun part hpart =>
          ⟨hfilled part hpart, hchars part hpart⟩⟩

/-- A text is a chain of loop names exactly if its parts are those of one. -/
theorem isLoopChain_iff {t : Text} : isLoopChain t = true ↔ IsScope (Text.splitOn '.' t) := by
  unfold isLoopChain
  simp only [List.all_eq_true, Bool.and_eq_true, Bool.not_eq_true', List.isEmpty_eq_false_iff]
  constructor
  · intro h
    exact ⟨Text.splitOn_ne_nil '.' t, fun part hpart => (h part hpart).1,
      fun part hpart => (h part hpart).2⟩
  · intro h part hpart
    exact ⟨h.filled part hpart, h.chars part hpart⟩

/-- The parts of a name hold no colon. -/
theorem IsPath.splitOn_join {path : List Text} (h : IsPath path) :
    Text.splitOn ':' (Text.join ":" path) = path := by
  apply Text.splitOn_join
  · intro part hpart hcolon
    exact absurd (h.chars part hpart ':' hcolon) (by decide)
  · exact h.ne_nil

/-- The parts of the name of a loop hold no dot. -/
theorem IsScope.splitOn_join {scope : List Text} (h : IsScope scope) :
    Text.splitOn '.' (Text.join "." scope) = scope := by
  apply Text.splitOn_join
  · intro part hpart hdot
    exact absurd (h.chars part hpart '.' hdot) (by decide)
  · exact h.ne_nil

/-- A name starts with two of its characters. -/
theorem IsPath.exists_start {path : List Text} (h : IsPath path) :
    ∃ c d rest, Text.join ":" path = c :: d :: rest ∧ isNameChar c = true ∧
      isNameChar d = true := by
  cases path with
  | nil => exact absurd rfl h.ne_nil
  | cons first others =>
      have hlong := h.long first rfl
      have hchars := h.chars first List.mem_cons_self
      match first, hlong, hchars with
      | c :: d :: more, _, hchars =>
          obtain ⟨hc, hrest⟩ := List.forall_mem_cons.mp hchars
          obtain ⟨hd, -⟩ := List.forall_mem_cons.mp hrest
          cases others with
          | nil => exact ⟨c, d, more, by simp [Text.join], hc, hd⟩
          | cons next others =>
              refine ⟨c, d, more ++ (":" : Text) ++ Text.join ":" (next :: others), ?_, hc, hd⟩
              rw [Text.join, Text.join, List.intercalate_cons_cons]
              simp

/-- A name holds name characters and colons. -/
theorem IsPath.mem_join {path : List Text} (h : IsPath path) {c : Char}
    (hc : c ∈ Text.join ":" path) : isNameChar c = true ∨ c = ':' := by
  rcases Text.mem_join hc with hcolon | ⟨part, hpart, hmem⟩
  · exact Or.inr hcolon
  · exact Or.inl (h.chars part hpart c hmem)

/-- The name of a loop holds loop characters and dots. -/
theorem IsScope.mem_join {scope : List Text} (h : IsScope scope) {c : Char}
    (hc : c ∈ Text.join "." scope) : isLoopChar c = true ∨ c = '.' := by
  rcases Text.mem_join hc with hdot | ⟨part, hpart, hmem⟩
  · exact Or.inr hdot
  · exact Or.inl (h.chars part hpart c hmem)

/-! ## Variables -/

/-- A variable that can be spelled: its names are those of a path, not of digits alone, and its
loop, if it has one, is named by a scope. -/
structure IsVariable (v : VarRef) : Prop where
  /-- The names are those of a path. -/
  path : IsPath v.path
  /-- They are not of digits alone. -/
  named : ¬ ∀ c ∈ Text.join ":" v.path, c.isDigit = true
  /-- The loop is named by a scope. -/
  scope : ∀ name ∈ v.scope, ∃ scope, IsScope scope ∧ name = Text.join "." scope

theorem named?_eq_some {scope : Option Text} {name : Text} {v : VarRef} :
    named? scope name = some v ↔
      IsPath (Text.splitOn ':' name) ∧ (¬ ∀ c ∈ name, c.isDigit = true) ∧
        v = ⟨scope, Text.splitOn ':' name⟩ := by
  unfold named?
  rw [← isName_iff, ← List.all_eq_true]
  split_ifs with h
  · rw [Bool.and_eq_true, Bool.not_eq_true'] at h
    rw [Option.some.injEq, eq_comm]
    simp [h]
  · rw [Bool.and_eq_true, Bool.not_eq_true', ← Bool.not_eq_true] at h
    refine iff_of_false (fun hnone => ?_) ?_
    · contradiction
    rintro ⟨hname, hnamed, -⟩
    exact h ⟨hname, hnamed⟩

/-- A name holds no dot. -/
theorem IsPath.dot_not_mem {path : List Text} (h : IsPath path) : '.' ∉ Text.join ":" path := by
  intro hdot
  rcases h.mem_join hdot with hname | hcolon
  · exact absurd hname (by decide)
  · contradiction

/-- **The words that spell a variable.** -/
theorem variableOfWord?_eq_some_iff {word : Text} {v : VarRef} :
    variableOfWord? word = some v ↔ IsVariable v ∧ word = (var v).word := by
  unfold variableOfWord?
  constructor
  · intro h
    split at h
    · obtain ⟨hpath, hnamed, rfl⟩ := named?_eq_some.mp h
      have hword : Text.join ":" (Text.splitOn ':' word) = word := Text.join_splitOn ':' word
      refine ⟨⟨hpath, ?_, ?_⟩, hword.symm⟩
      · rw [hword]
        exact hnamed
      · rintro name ⟨⟩
    · rename_i chain name hcut
      obtain ⟨rfl, -⟩ := Text.cutLast_eq_some_iff.mp hcut
      split_ifs at h with hchain
      obtain ⟨hpath, hnamed, rfl⟩ := named?_eq_some.mp h
      have hname : Text.join ":" (Text.splitOn ':' name) = name := Text.join_splitOn ':' name
      refine ⟨⟨hpath, ?_, ?_⟩, ?_⟩
      · rw [hname]
        exact hnamed
      · rintro scope ⟨⟩
        exact ⟨Text.splitOn '.' chain, isLoopChain_iff.mp hchain,
          (Text.join_splitOn '.' chain).symm⟩
      · show chain ++ '.' :: name = chain ++ '.' :: Text.join ":" (Text.splitOn ':' name)
        rw [hname]
  · rintro ⟨⟨hpath, hnamed, hscope⟩, rfl⟩
    obtain ⟨scope, path⟩ := v
    cases scope with
    | none =>
        have hcut : Text.cutLast '.' (var ⟨none, path⟩).word = none :=
          Text.cutLast_of_not_mem hpath.dot_not_mem
        rw [hcut]
        refine named?_eq_some.mpr ⟨?_, hnamed, ?_⟩
        · rw [word, hpath.splitOn_join]
          exact hpath
        · rw [word, hpath.splitOn_join]
    | some name =>
        have hcut : Text.cutLast '.' (var ⟨some name, path⟩).word =
            some (name, Text.join ":" path) := Text.cutLast_append hpath.dot_not_mem name
        obtain ⟨scope, hparts, rfl⟩ := hscope name rfl
        have hchain : isLoopChain (Text.join "." scope) = true := by
          rw [isLoopChain_iff, hparts.splitOn_join]
          exact hparts
        rw [hcut]
        show (if isLoopChain (Text.join "." scope) = true then _ else none) = _
        rw [if_pos hchain]
        refine named?_eq_some.mpr ⟨?_, hnamed, ?_⟩
        · rw [hpath.splitOn_join]
          exact hpath
        · rw [hpath.splitOn_join]

/-! ## References -/

/-- A reference that a tag can spell. -/
def Printable : Reference → Prop
  | var v => IsVariable v
  | constant name => isName name = true

/-- A reference that a word of a condition can spell: the name of a constant may be any name
characters and colons. -/
def Testable : Reference → Prop
  | var v => IsVariable v
  | constant name => name ≠ [] ∧ ∀ c ∈ name, isNameChar c = true ∨ c = ':'

/-- A variable is not spelled like a constant. -/
theorem IsVariable.after?_word {v : VarRef} (h : IsVariable v) :
    Text.after? "C:" (var v).word = none := by
  rw [Text.after?_eq_none_iff]
  rintro ⟨rest, hrest⟩
  obtain ⟨scope, path⟩ := v
  cases scope with
  | none =>
      -- a colon would be the second character of the name
      obtain ⟨c, d, more, hstart, -, hd⟩ := h.path.exists_start
      rw [word, hstart] at hrest
      obtain ⟨-, hrest⟩ := List.cons.inj hrest
      obtain ⟨rfl, -⟩ := List.cons.inj hrest
      exact absurd hd (by decide)
  | some name =>
      -- a capital would be the first character of the loop
      obtain ⟨scope, hscope, rfl⟩ := h.scope name rfl
      have hC : 'C' ∈ (var ⟨some (Text.join "." scope), path⟩).word.head? := by
        rw [← hrest]
        rfl
      cases hjoin : Text.join "." scope with
      | nil =>
          rw [hjoin, word] at hC
          simp at hC
      | cons c more =>
          rw [hjoin, word] at hC
          obtain rfl : c = 'C' := by simpa using hC
          rcases hscope.mem_join (c := 'C') (by rw [hjoin]; exact List.mem_cons_self) with h | h
          · exact absurd h (by decide)
          · contradiction

/-- **The insides of print tags are the spellings of printable references.** -/
theorem ofTag?_eq_some_iff {body : Text} {r : Reference} :
    ofTag? body = some r ↔ r.Printable ∧ body = r.word := by
  unfold ofTag?
  constructor
  · intro h
    split at h
    · rename_i name hname
      split_ifs at h with hisName
      obtain rfl := Option.some.inj h
      exact ⟨hisName, Text.after?_eq_some_iff.mp hname⟩
    · obtain ⟨v, hv, rfl⟩ := Option.map_eq_some_iff.mp h
      exact variableOfWord?_eq_some_iff.mp hv
  · rintro ⟨hprintable, rfl⟩
    cases r with
    | constant name =>
        have hname : Text.after? "C:" (constant name).word = some name :=
          Text.after?_eq_some_iff.mpr rfl
        rw [hname]
        exact if_pos hprintable
    | var v =>
        rw [IsVariable.after?_word hprintable]
        show (variableOfWord? (var v).word).map var = some (var v)
        rw [variableOfWord?_eq_some_iff.mpr ⟨hprintable, rfl⟩]
        rfl

/-- **The words of conditions that name something are the spellings of testable references.** -/
theorem ofWord?_eq_some_iff {body : Text} {r : Reference} :
    ofWord? body = some r ↔ r.Testable ∧ body = r.word := by
  unfold ofWord?
  constructor
  · intro h
    split at h
    · rename_i name hname
      split_ifs at h with hchars
      obtain rfl := Option.some.inj h
      refine ⟨?_, Text.after?_eq_some_iff.mp hname⟩
      simpa [Testable] using hchars
    · obtain ⟨v, hv, rfl⟩ := Option.map_eq_some_iff.mp h
      exact variableOfWord?_eq_some_iff.mp hv
  · rintro ⟨htestable, rfl⟩
    cases r with
    | constant name =>
        have hname : Text.after? "C:" (constant name).word = some name :=
          Text.after?_eq_some_iff.mpr rfl
        rw [hname]
        apply if_pos
        simpa [Testable] using htestable
    | var v =>
        rw [IsVariable.after?_word htestable]
        show (variableOfWord? (var v).word).map var = some (var v)
        rw [variableOfWord?_eq_some_iff.mpr ⟨htestable, rfl⟩]
        rfl

/-- What a tag can spell, a condition can spell too. -/
theorem Printable.testable {r : Reference} (h : r.Printable) : r.Testable := by
  cases r with
  | var v => exact h
  | constant name =>
      have hpath : IsPath (Text.splitOn ':' name) := isName_iff.mp h
      have hjoin : Text.join ":" (Text.splitOn ':' name) = name := Text.join_splitOn ':' name
      constructor
      · rintro rfl
        exact absurd (show isName [] = true from h) (by decide)
      · intro c hc
        rw [← hjoin] at hc
        exact hpath.mem_join hc

/-! ## Characters -/

/-- Whether a character may stand in the spelling of a reference. -/
def isWordChar (c : Char) : Bool := isNameChar c || isLoopChar c || c = ':' || c = '.'

/-- They lie between the dot and the small z. -/
theorem toNat_of_isWordChar {c : Char} (h : isWordChar c = true) :
    46 ≤ c.toNat ∧ c.toNat ≤ 122 := by
  simp only [isWordChar, isNameChar, isLoopChar, Char.isDigit, Char.isUpper, Char.isLower,
    Bool.or_eq_true, Bool.and_eq_true, decide_eq_true_eq, UInt32.le_iff_toNat_le, ge_iff_le] at h
  rcases h with ((((h | h) | rfl) | (h | h) | rfl) | rfl) | rfl <;> simp at * <;> omega

/-- The characters that spell a reference. -/
theorem isWordChar_of_mem_word {r : Reference} (h : r.Testable) {c : Char} (hc : c ∈ r.word) :
    isWordChar c = true := by
  have hname : isNameChar c = true ∨ c = ':' → isWordChar c = true := by
    rintro (hchar | rfl)
    · simp [isWordChar, hchar]
    · decide
  cases r with
  | constant name =>
      rcases List.mem_append.mp hc with hstart | hmem
      · rcases List.mem_pair.mp hstart with rfl | rfl <;> decide
      · exact hname (h.2 c hmem)
  | var v =>
      obtain ⟨scope, path⟩ := v
      cases scope with
      | none => exact hname (h.path.mem_join hc)
      | some name =>
          obtain ⟨scope, hscope, rfl⟩ := h.scope name rfl
          rw [word, List.mem_append, List.mem_cons] at hc
          rcases hc with hloop | rfl | hpath
          · rcases hscope.mem_join hloop with hchar | rfl
            · simp [isWordChar, hchar]
            · decide
          · decide
          · exact hname (h.path.mem_join hpath)

end PageServer.Reference
