/-
# Facts about texts

What cutting at a separator, trimming at the ends and putting in order do, by
way of the lists' own operations.

* `Text.splitOn_eq`: splitting is that of lists
* `Text.splitOn_append`, `Text.splitOn_cons_of_not_mem`: the pieces on either side of a separator
* `Text.firstPart`: what stands before the first separator, which need not be there
* `Text.dropEndWhile_append`, `Text.trimBy_eq_self`: what has nothing to drop stays
* `Text.exists_eq_dropEndWhile_append`: what is dropped at the end of a text
* `Text.trimBy_append`, `Text.trimBy_map`: trimming what stands between blanks, or in small letters
* `Text.mem_sorted`: putting texts in order keeps them
-/
import Mathlib
import PageServer.Text.Basic

namespace PageServer.Text

/-! ## Pieces between separators -/

/-- Splitting a text is splitting a list. -/
theorem splitOn_eq (sep : Char) (t : Text) : splitOn sep t = List.splitOn sep t := by
  induction t with
  | nil => rfl
  | cons c rest ih =>
      rw [List.splitOn_cons_eq_if_modifyHead, ← ih, splitOn]
      by_cases h : c = sep
      · simp [h]
      · rw [if_neg h, if_neg (by simpa using h)]
        cases hs : splitOn sep rest with
        | nil => exact absurd hs (splitOn_ne_nil sep rest)
        | cons piece pieces => rfl

/-- Another character belongs to the first piece. -/
theorem splitOn_cons_of_ne {sep c : Char} (h : c ≠ sep) (t : Text) :
    splitOn sep (c :: t) = (splitOn sep t).modifyHead (c :: ·) := by
  rw [splitOn_eq, splitOn_eq, List.splitOn_cons_eq_if_modifyHead, if_neg (by simpa using h)]

/-- A text without the separator is its only piece. -/
theorem splitOn_of_not_mem {sep : Char} {t : Text} (h : sep ∉ t) : splitOn sep t = [t] := by
  rw [splitOn_eq, List.splitOn_eq_singleton h]

/-- The piece before the first separator. -/
theorem splitOn_cons_of_not_mem {sep : Char} {t : Text} (h : sep ∉ t) (rest : Text) :
    splitOn sep (t ++ sep :: rest) = t :: splitOn sep rest := by
  rw [splitOn_eq, splitOn_eq, List.splitOn_append_cons_self_of_not_mem h]

/-- The pieces on either side of a separator. -/
theorem splitOn_append (sep : Char) (t rest : Text) :
    splitOn sep (t ++ sep :: rest) = splitOn sep t ++ splitOn sep rest := by
  rw [splitOn_eq, splitOn_eq, splitOn_eq, List.splitOn_append_cons_self]

/-- No piece holds the separator. -/
theorem not_mem_of_mem_splitOn {sep : Char} {t piece : Text} (h : piece ∈ splitOn sep t) :
    sep ∉ piece := by
  induction t generalizing piece with
  | nil =>
      rw [splitOn, List.mem_singleton] at h
      simp [h]
  | cons c rest ih =>
      by_cases hc : c = sep
      · rw [splitOn, if_pos hc, List.mem_cons] at h
        rcases h with rfl | h
        · simp
        · exact ih h
      · rw [splitOn, if_neg hc] at h
        cases hs : splitOn sep rest with
        | nil => exact absurd hs (splitOn_ne_nil sep rest)
        | cons first others =>
            rw [hs] at h ih
            rcases List.mem_cons.mp h with rfl | h
            · have hfirst : sep ∉ first := ih List.mem_cons_self
              simp [hfirst, Ne.symm hc]
            · exact ih (List.mem_cons_of_mem first h)

/-- The part of a text before its first separator. -/
def firstPart (sep : Char) (t : Text) : Text := t.takeWhile fun c => decide (c ≠ sep)

/-- It is the first one of all parts. -/
theorem head?_splitOn (sep : Char) (t : Text) :
    (splitOn sep t).head? = some (firstPart sep t) := by
  induction t with
  | nil => rfl
  | cons c rest ih =>
      rw [splitOn]
      by_cases h : c = sep
      · simp [h, firstPart]
      · obtain ⟨others, hothers⟩ := List.head?_eq_some_iff.mp ih
        simp [h, hothers, firstPart]

/-! ## Trimming -/

/-- Dropping at the end of a text is dropping at the end of a list. -/
theorem dropEndWhile_eq (p : Char → Bool) (t : Text) :
    dropEndWhile p t = t.rdropWhile p := by
  induction t using List.reverseRecOn with
  | nil => rfl
  | append_singleton t c ih =>
      rw [List.rdropWhile_concat, ← ih]
      clear ih
      induction t with
      | nil => by_cases h : p c <;> simp [dropEndWhile, h]
      | cons d t ih =>
          rw [List.cons_append, dropEndWhile, ih, dropEndWhile]
          by_cases h : p c
          · rw [if_pos h, if_pos h]
          · rw [if_neg h, if_neg h]
            cases t <;> rfl

/-- Nothing is dropped before a character that is kept. -/
theorem dropEndWhile_append {p : Char → Bool} {t : Text} (h : ∀ c ∈ t.getLast?, ¬ p c)
    (rest : Text) : dropEndWhile p (t ++ rest) = t ++ dropEndWhile p rest := by
  induction t with
  | nil => rfl
  | cons c t ih =>
      rw [List.cons_append, dropEndWhile]
      cases t with
      | nil =>
          have hc : ¬ p c := h c rfl
          rw [List.nil_append, if_neg hc]
          cases dropEndWhile p rest <;> rfl
      | cons d t =>
          rw [ih fun e he => h e (by rwa [List.getLast?_cons_cons])]
          rfl

/-- What passes the test at the end of a text is dropped as well. -/
theorem dropEndWhile_append_of_pos {p : Char → Bool} (t : Text) {behind : Text}
    (h : ∀ c ∈ behind, p c) : dropEndWhile p (t ++ behind) = dropEndWhile p t := by
  have hreverse : ∀ c ∈ behind.reverse, p c := by
    intro c hc
    exact h c (List.mem_reverse.mp hc)
  rw [dropEndWhile_eq, dropEndWhile_eq, List.rdropWhile, List.rdropWhile, List.reverse_append,
    List.dropWhile_append_of_pos hreverse]

/-- A text is what is kept of it, and behind that what is dropped at its end. -/
theorem exists_eq_dropEndWhile_append (p : Char → Bool) (t : Text) :
    ∃ behind, t = dropEndWhile p t ++ behind ∧ ∀ c ∈ behind, p c := by
  refine ⟨t.rtakeWhile p, ?_, fun c hc => List.mem_rtakeWhile_imp hc⟩
  rw [dropEndWhile_eq, List.rdropWhile_append_rtakeWhile]

/-- Dropping again changes nothing. -/
theorem dropEndWhile_dropEndWhile (p : Char → Bool) (t : Text) :
    dropEndWhile p (dropEndWhile p t) = dropEndWhile p t := by
  rw [dropEndWhile_eq, dropEndWhile_eq, List.rdropWhile_idempotent]

/-- A text whose characters all fail the test stays as it is when it is trimmed. -/
theorem trimBy_eq_self {p : Char → Bool} {t : Text} (hfirst : ∀ c ∈ t.head?, ¬ p c)
    (hlast : ∀ c ∈ t.getLast?, ¬ p c) : trimBy p t = t := by
  have hdrop : t.dropWhile p = t := by
    cases t with
    | nil => rfl
    | cons c rest =>
        have hc : ¬ p c := hfirst c rfl
        rw [List.dropWhile_cons_of_neg hc]
  rw [trimBy, hdrop, dropEndWhile_eq, List.rdropWhile_eq_self_iff]
  intro hne
  exact hlast _ (List.getLast?_eq_some_getLast hne)

/-- A text that stays as it is when it is trimmed fails the test at either end. -/
theorem of_trimBy_eq_self {p : Char → Bool} {t : Text} (h : trimBy p t = t) :
    (∀ c ∈ t.head?, ¬ p c) ∧ ∀ c ∈ t.getLast?, ¬ p c := by
  rw [trimBy, dropEndWhile_eq] at h
  have hlength : t.length ≤ (t.dropWhile p).length := by
    conv_lhs => rw [← h]
    exact (List.rdropWhile_prefix p _).length_le
  have hdrop : t.dropWhile p = t := (List.dropWhile_suffix p).eq_of_length_le hlength
  rw [hdrop] at h
  constructor
  · intro c hc
    obtain ⟨rest, rfl⟩ := List.head?_eq_some_iff.mp hc
    exact List.dropWhile_eq_self_iff.mp hdrop (by simp)
  · intro c hc
    obtain ⟨start, rfl⟩ := List.getLast?_eq_some_iff.mp hc
    simpa using List.rdropWhile_eq_self_iff.mp h (by simp)

/-- What passes the test at either end is dropped as well. -/
theorem trimBy_append {p : Char → Bool} {before behind : Text} (hbefore : ∀ c ∈ before, p c)
    (hbehind : ∀ c ∈ behind, p c) (t : Text) :
    trimBy p (before ++ t ++ behind) = trimBy p t := by
  rw [trimBy, trimBy, List.append_assoc, List.dropWhile_append_of_pos hbefore,
    List.dropWhile_append]
  split_ifs with hempty
  · rw [List.isEmpty_iff.mp hempty, List.dropWhile_eq_nil_iff.mpr hbehind]
  · exact dropEndWhile_append_of_pos _ hbehind

/-- A text that has been trimmed stays as it is. -/
theorem trimBy_trimBy (p : Char → Bool) (t : Text) : trimBy p (trimBy p t) = trimBy p t := by
  have heq : trimBy p t = (t.dropWhile p).rdropWhile p := dropEndWhile_eq p _
  apply trimBy_eq_self
  · intro c hc
    rw [heq] at hc
    obtain ⟨rest, hrest⟩ := List.head?_eq_some_iff.mp hc
    obtain ⟨others, hothers⟩ := List.rdropWhile_prefix p (t.dropWhile p)
    rw [hrest, List.cons_append] at hothers
    have hfirst := List.dropWhile_eq_self_iff.mp (List.dropWhile_idempotent p t)
    simp only [← hothers] at hfirst
    exact hfirst (by simp)
  · intro c hc
    rw [heq] at hc
    obtain ⟨start, hstart⟩ := List.getLast?_eq_some_iff.mp hc
    have hlast := List.rdropWhile_eq_self_iff.mp (List.rdropWhile_idempotent p (t.dropWhile p))
    simp only [hstart] at hlast
    simpa using hlast (by simp)

/-- Trimming goes with changing characters in a way that the test does not see. -/
theorem trimBy_map {p : Char → Bool} {f : Char → Char} (h : ∀ c, p (f c) = p c) (t : Text) :
    trimBy p (t.map f) = (trimBy p t).map f := by
  have hcomp : p ∘ f = p := funext h
  rw [trimBy, trimBy, dropEndWhile_eq, dropEndWhile_eq, List.rdropWhile, List.rdropWhile,
    List.dropWhile_map, hcomp, ← List.map_reverse, List.dropWhile_map, hcomp, List.map_reverse]

/-! ## Order -/

/-- Putting a text in its place adds this text alone. -/
theorem mem_insertSorted {t u : Text} {sorted : List Text} :
    u ∈ insertSorted t sorted ↔ u = t ∨ u ∈ sorted := by
  induction sorted with
  | nil => simp [insertSorted]
  | cons v rest ih =>
      rw [insertSorted]
      split_ifs with heq hbefore
      · subst heq
        simp
      · simp
      · simp only [List.mem_cons, ih]
        tauto

/-- Putting texts in order one after another keeps them all. -/
theorem mem_sorted {t : Text} {names sorted : List Text} :
    t ∈ names.foldl (fun sorted name => insertSorted name sorted) sorted ↔
      t ∈ names ∨ t ∈ sorted := by
  induction names generalizing sorted with
  | nil => simp
  | cons name names ih =>
      rw [List.foldl_cons, ih, mem_insertSorted, List.mem_cons]
      tauto

end PageServer.Text
