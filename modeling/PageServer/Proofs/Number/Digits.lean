/-
# Integers written and read

The decimal digits of a natural number are digits, the first of them is a zero
only for zero itself, and they read back as the number.

* `Number.readNat?_ofNat`, `Number.readInt?_ofInt`, `Number.readSize?_ofNat`: reading back
* `Text.head_ofNat_eq_zero`: no zero stands before other digits
-/
import Mathlib
import PageServer.Number.Integer

namespace PageServer

/-! ## Digits -/

namespace Number

/-- A character is a digit exactly if it has a value. -/
theorem isDigit_eq (c : Char) : isDigit c = c.isDigit := by
  unfold isDigit digit? Char.isDigit
  have hiff : ('0' ≤ c ∧ c ≤ '9') ↔ c.val ≥ '0'.val ∧ c.val ≤ '9'.val := Iff.rfl
  by_cases h : '0' ≤ c ∧ c ≤ '9'
  · rw [if_pos h]
    simpa using hiff.mp h
  · rw [if_neg h]
    have hout := mt hiff.mpr h
    simp only [Option.isSome_none, Bool.false_eq, Bool.and_eq_false_iff, decide_eq_false_iff_not]
    exact not_and_or.mp hout

/-- The value of a digit. -/
theorem digit?_of_isDigit {c : Char} (h : isDigit c = true) :
    digit? c = some (c.toNat - '0'.toNat) := by
  unfold isDigit at h
  unfold digit? at h ⊢
  split_ifs at h ⊢
  · rfl
  · contradiction

/-- Digits are read one after another. -/
theorem readDigits_eq {t : Text} (h : ∀ c ∈ t, isDigit c = true) (value : Nat) :
    readDigits value t = some (Nat.ofDigitChars 10 t value) := by
  induction t generalizing value with
  | nil => simp [readDigits]
  | cons c rest ih =>
      rw [readDigits, digit?_of_isDigit (h c List.mem_cons_self), Nat.ofDigitChars_cons]
      exact ih (fun d hd => h d (List.mem_cons_of_mem c hd)) _

end Number

/-! ## Writing -/

namespace Text

/-- The digits of a number are digits. -/
theorem isDigit_of_mem_ofNat {n : Nat} {c : Char} (h : c ∈ ofNat n) : Number.isDigit c = true := by
  rw [Number.isDigit_eq]
  exact Nat.isDigit_of_mem_toDigits (by decide) (by decide) h

/-- A number has digits. -/
theorem ofNat_ne_nil (n : Nat) : ofNat n ≠ [] := Nat.toDigits_ne_nil

/-- Only zero itself starts with a zero. -/
theorem ofNat_eq_of_head {n : Nat} {rest : Text} (h : ofNat n = '0' :: rest) : n = 0 := by
  induction n using Nat.strongRecOn generalizing rest with
  | ind n ih =>
      unfold ofNat at h
      rw [Nat.toDigits_eq_if (by decide)] at h
      split_ifs at h with hsmall
      · obtain ⟨hdigit, -⟩ := List.cons.inj h
        exact (Nat.digitChar_eq_zero).mp hdigit
      · cases hfront : Nat.toDigits 10 (n / 10) with
        | nil => exact absurd hfront Nat.toDigits_ne_nil
        | cons c front =>
            rw [hfront, List.cons_append] at h
            obtain ⟨rfl, -⟩ := List.cons.inj h
            have hzero := ih (n / 10) (by omega) hfront
            omega

end Text

/-! ## Reading back -/

namespace Number

/-- A natural number reads back. -/
theorem readNat?_ofNat (n : Nat) : readNat? (Text.ofNat n) = some n := by
  have hdigits := readDigits_eq (fun c hc => Text.isDigit_of_mem_ofNat (n := n) hc) 0
  cases htext : Text.ofNat n with
  | nil => exact absurd htext (Text.ofNat_ne_nil n)
  | cons c rest =>
      rw [readNat?, ← htext, hdigits]
      exact congrArg some Nat.ofDigitChars_ten_toDigits

/-- Digits do not start with a sign. -/
theorem ofNat_ne_sign {n : Nat} {c : Char} {rest : Text} (h : Text.ofNat n = c :: rest) :
    c ≠ '-' ∧ c ≠ '+' := by
  have hdigit : isDigit c = true := Text.isDigit_of_mem_ofNat (n := n) (by rw [h]; simp)
  constructor <;> rintro rfl <;> exact absurd hdigit (by decide)

/-- An integer of 64 bits reads back, and no other does. -/
theorem readInt?_ofInt (n : Int) :
    readInt? (Text.ofInt n) = (some n).filter fun n => decide (minInt ≤ n ∧ n ≤ maxInt) := by
  unfold readInt?
  dsimp only
  congr 1
  cases n with
  | ofNat n =>
      cases htext : Text.ofNat n with
      | nil => exact absurd htext (Text.ofNat_ne_nil n)
      | cons c rest =>
          obtain ⟨hminus, hplus⟩ := ofNat_ne_sign htext
          have hread := readNat?_ofNat n
          rw [htext] at hread
          rw [Text.ofInt, htext]
          split
          · rename_i digits heq
            exact absurd (List.cons.inj heq).1 hminus
          · rename_i digits heq
            exact absurd (List.cons.inj heq).1 hplus
          · rw [hread]
            rfl
  | negSucc n =>
      simp only [Text.ofInt, readNat?_ofNat]
      rfl

/-- A size reads back, and nothing greater does. -/
theorem readSize?_ofNat (n : Nat) :
    readSize? (Text.ofNat n) = (some n).filter fun n => decide (n ≤ maxSize) := by
  unfold readSize?
  dsimp only
  congr 1
  cases htext : Text.ofNat n with
  | nil => exact absurd htext (Text.ofNat_ne_nil n)
  | cons c rest =>
      obtain ⟨-, hplus⟩ := ofNat_ne_sign htext
      have hread := readNat?_ofNat n
      rw [htext] at hread
      split
      · rename_i digits heq
        exact absurd (List.cons.inj heq).1 hplus
      · exact hread

end Number
end PageServer
