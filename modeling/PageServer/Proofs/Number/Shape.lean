/-
# What numbers are written with

A text that is read as an integer is a row of digits with maybe a sign before
it, and every character of a text that is read as a number is a digit, a letter
of one of a few words, a sign, a point or the letter of an exponent.

* `Number.readNat?_eq_some_iff`, `Number.readSize?_eq_some_iff`: what is a number without a sign
* `Decimal.isSigned_of_readInt?`: the integers
* `Decimal.isNumeral_of_read?`: the characters of a number
-/
import Mathlib
import PageServer.Number.Decimal
import PageServer.Proofs.Number.Digits

namespace PageServer

namespace Number

/-- A text of digits, at least one, with maybe a sign before them. -/
def IsSigned (t : Text) : Prop :=
  ∃ digits, digits ≠ [] ∧ (∀ c ∈ digits, isDigit c = true) ∧
    (t = digits ∨ t = '-' :: digits ∨ t = '+' :: digits)

/-- What is read as further digits is digits. -/
theorem isDigit_of_readDigits {t : Text} {value n : Nat} (h : readDigits value t = some n) :
    ∀ c ∈ t, isDigit c = true := by
  induction t generalizing value with
  | nil => simp
  | cons c rest ih =>
      rw [readDigits] at h
      split at h
      · rename_i d hd
        exact List.forall_mem_cons.mpr ⟨by rw [isDigit, hd]; rfl, ih h⟩
      · contradiction

/-- What is read as a natural number is at least one digit. -/
theorem isDigit_of_readNat? {t : Text} {n : Nat} (h : readNat? t = some n) :
    t ≠ [] ∧ ∀ c ∈ t, isDigit c = true := by
  cases t with
  | nil => contradiction
  | cons c rest => exact ⟨List.cons_ne_nil c rest, isDigit_of_readDigits h⟩

/-- A row of digits is read as the number that they stand for, and nothing else is read. -/
theorem readNat?_eq_some_iff {t : Text} {n : Nat} :
    readNat? t = some n ↔ t ≠ [] ∧ (∀ c ∈ t, isDigit c = true) ∧ Nat.ofDigitChars 10 t 0 = n := by
  have hread : ∀ {t : Text}, t ≠ [] → (∀ c ∈ t, isDigit c = true) →
      readNat? t = some (Nat.ofDigitChars 10 t 0) := by
    intro t hne hdigits
    obtain ⟨c, rest, rfl⟩ := List.exists_cons_of_ne_nil hne
    exact readDigits_eq hdigits 0
  constructor
  · intro h
    obtain ⟨hne, hdigits⟩ := isDigit_of_readNat? h
    exact ⟨hne, hdigits, Option.some.inj ((hread hne hdigits).symm.trans h)⟩
  · rintro ⟨hne, hdigits, rfl⟩
    exact hread hne hdigits

/-- A text that is a size: digits, with maybe a plus before them, that stand for a number of at
most 64 bits. -/
def IsSize (t : Text) (n : Nat) : Prop :=
  ∃ digits, (t = digits ∨ t = '+' :: digits) ∧ digits ≠ [] ∧ (∀ c ∈ digits, isDigit c = true) ∧
    Nat.ofDigitChars 10 digits 0 = n ∧ n ≤ maxSize

/-- **A size is read from the texts that are one.** -/
theorem readSize?_eq_some_iff {t : Text} {n : Nat} : readSize? t = some n ↔ IsSize t n := by
  unfold readSize? IsSize
  rw [Option.filter_eq_some_iff, decide_eq_true_eq]
  have hplus : isDigit '+' = false := by decide
  constructor
  · rintro ⟨hread, hle⟩
    split at hread
    · rename_i digits
      obtain ⟨hne, hdigits, hvalue⟩ := readNat?_eq_some_iff.mp hread
      exact ⟨digits, .inr rfl, hne, hdigits, hvalue, hle⟩
    · obtain ⟨hne, hdigits, hvalue⟩ := readNat?_eq_some_iff.mp hread
      exact ⟨t, .inl rfl, hne, hdigits, hvalue, hle⟩
  · rintro ⟨digits, rfl | rfl, hne, hdigits, hvalue, hle⟩
    · refine ⟨?_, hle⟩
      split
      · rename_i rest
        have hsign := hdigits '+' List.mem_cons_self
        rw [hplus] at hsign
        contradiction
      · exact readNat?_eq_some_iff.mpr ⟨hne, hdigits, hvalue⟩
    · exact ⟨readNat?_eq_some_iff.mpr ⟨hne, hdigits, hvalue⟩, hle⟩

/-- A sign or a digit. -/
theorem IsSigned.mem {t : Text} (h : IsSigned t) {c : Char} (hc : c ∈ t) :
    isDigit c = true ∨ c = '-' ∨ c = '+' := by
  obtain ⟨digits, -, hdigits, rfl | rfl | rfl⟩ := h
  · exact Or.inl (hdigits c hc)
  · exact (List.mem_cons.mp hc).elim (fun h => .inr (.inl h)) fun h => .inl (hdigits c h)
  · exact (List.mem_cons.mp hc).elim (fun h => .inr (.inr h)) fun h => .inl (hdigits c h)

end Number

namespace Decimal

open Number (isDigit IsSigned)

/-- Whether a character can stand in a number. -/
def isNumeral (c : Char) : Bool :=
  isDigit c || ['-', '+', '.'].contains c || c.toLower.isLower

/-- What is read as an exponent is digits with maybe a sign before them. -/
theorem isSigned_of_readExponent? {t : Text} {n : Int} (h : readExponent? t = some n) :
    IsSigned t := by
  unfold readExponent? at h
  split at h
  · obtain ⟨_, hlifted, -⟩ := Option.map_eq_some_iff.mp h
    obtain ⟨m, hm, -⟩ := Option.bind_eq_some_iff.mp hlifted
    obtain ⟨hne, hdigits⟩ := Number.isDigit_of_readNat? hm
    exact ⟨_, hne, hdigits, .inr (.inl rfl)⟩
  · obtain ⟨m, hm, -⟩ := Option.map_eq_some_iff.mp h
    obtain ⟨hne, hdigits⟩ := Number.isDigit_of_readNat? hm
    exact ⟨_, hne, hdigits, .inr (.inr rfl)⟩
  · obtain ⟨m, hm, -⟩ := Option.map_eq_some_iff.mp h
    obtain ⟨hne, hdigits⟩ := Number.isDigit_of_readNat? hm
    exact ⟨_, hne, hdigits, .inl rfl⟩

/-- So is what is read as an integer, which is limited besides. -/
theorem isSigned_of_readInt? {t : Text} {n : Int} (h : Number.readInt? t = some n) :
    IsSigned t :=
  isSigned_of_readExponent? (Option.filter_eq_some_iff.mp h).1

/-- A digit can stand in a number. -/
theorem isNumeral_of_isDigit {c : Char} (h : isDigit c = true) : isNumeral c = true := by
  simp [isNumeral, h]

theorem isNumeral_of_isSigned {t : Text} (h : IsSigned t) : ∀ c ∈ t, isNumeral c = true := by
  intro c hc
  rcases h.mem hc with hdigit | rfl | rfl
  · exact isNumeral_of_isDigit hdigit
  · decide
  · decide

/-- A text of digits and what follows it. -/
theorem isNumeral_of_spanDigits {t : Text} (h : ∀ c ∈ (spanDigits t).2, isNumeral c = true) :
    ∀ c ∈ t, isNumeral c = true := by
  intro c hc
  rw [← List.takeWhile_append_dropWhile (p := isDigit) (l := t)] at hc
  rcases List.mem_append.mp hc with hdigit | hrest
  · exact isNumeral_of_isDigit (List.mem_takeWhile_imp hdigit)
  · exact h c hrest

/-- What follows the digits of an unsigned number is nothing or an exponent. -/
theorem isNumeral_of_exponent {t : Text} {alone d : Decimal} {value : Int → Decimal}
    (h : (match t with
      | [] => some alone
      | c :: rest => if c = 'e' ∨ c = 'E' then (readExponent? rest).map value else none) = some d) :
    ∀ c ∈ t, isNumeral c = true := by
  cases t with
  | nil => simp
  | cons c rest =>
      dsimp only at h
      split_ifs at h with hletter
      obtain ⟨n, hn, -⟩ := Option.map_eq_some_iff.mp h
      refine List.forall_mem_cons.mpr ⟨?_, isNumeral_of_isSigned (isSigned_of_readExponent? hn)⟩
      rcases hletter with rfl | rfl <;> decide

/-- The characters of an unsigned number. -/
theorem isNumeral_of_readUnsigned? {t : Text} {d : Decimal} (h : readUnsigned? t = some d) :
    ∀ c ∈ t, isNumeral c = true := by
  apply isNumeral_of_spanDigits
  unfold readUnsigned? at h
  cases hspan : spanDigits t with
  | mk whole rest =>
      rw [hspan] at h
      dsimp only at h ⊢
      split at h
      · -- a point and more digits
        rename_i more
        rw [List.forall_mem_cons]
        refine ⟨by decide, isNumeral_of_spanDigits ?_⟩
        split_ifs at h
        exact isNumeral_of_exponent h
      · split_ifs at h
        dsimp only at h
        exact isNumeral_of_exponent h

/-- The letters of a word are of either case. -/
theorem isNumeral_of_isWord {word t : Text} (hword : word.all Char.isLower = true)
    (h : isWord word t = true) : ∀ c ∈ t, isNumeral c = true := by
  intro c hc
  have hlower : c.toLower ∈ word := by
    rw [← of_decide_eq_true h]
    exact List.mem_map_of_mem hc
  simp [isNumeral, List.all_eq_true.mp hword _ hlower]

/-- The characters of a magnitude. -/
theorem isNumeral_of_readMagnitude? {negative : Bool} {t : Text} {x : Binary64}
    (h : readMagnitude? negative t = some x) : ∀ c ∈ t, isNumeral c = true := by
  unfold readMagnitude? at h
  split_ifs at h with hinfinity hnan
  · rcases Bool.or_eq_true_iff.mp hinfinity with hword | hword
    · exact isNumeral_of_isWord (by decide) hword
    · exact isNumeral_of_isWord (by decide) hword
  · exact isNumeral_of_isWord (by decide) hnan
  · obtain ⟨d, hd, -⟩ := Option.map_eq_some_iff.mp h
    exact isNumeral_of_readUnsigned? hd

/-- **The characters of a number.** -/
theorem isNumeral_of_read? {t : Text} {x : Binary64} (h : read? t = some x) :
    ∀ c ∈ t, isNumeral c = true := by
  unfold read? at h
  split at h
  · exact List.forall_mem_cons.mpr ⟨by decide, isNumeral_of_readMagnitude? h⟩
  · exact List.forall_mem_cons.mpr ⟨by decide, isNumeral_of_readMagnitude? h⟩
  · exact isNumeral_of_readMagnitude? h

end Decimal
end PageServer
