/-
# Lengths

The rules for lengths, and the messages about them, speak of characters, but
what is compared with the bounds is the number of bytes. There are at least as
many bytes as characters, and just as many only in texts of ASCII. So a text may
pass for longer than it is: it is long enough with too few characters, or too
long with not too many. Just where a bound lies between the two numbers, a rule
answers otherwise than by the characters.

* `Rule.check_minLength_iff`, `Rule.check_maxLength_iff`, `Rule.check_inRange_iff`: when one rule
  counts characters
* `Form.Entry.mem_broken_password`: when the length of a password is refused
* `Rule.check_lengths_iff`: when the rules count characters, and when passwords are taken by them
* `Rule.lengths_of_bytes`: passwords of three characters and of forty
-/
import PageServer.Proofs.Form.Checking
import PageServer.Proofs.Text.Utf8

namespace PageServer

/-! ## Bounds -/

namespace Rule

variable (t : Text)

/-- A text is long enough by its characters unless the bound lies between them and the bytes. -/
theorem check_minLength_iff (least : Nat) :
    (minLength least).check t = .ok (decide (least ≤ t.length)) ↔
      ¬ (t.length < least ∧ least ≤ Utf8.size t) := by
  have hle := Utf8.length_le_size t
  rw [check, Except.ok.injEq, decide_eq_decide]
  omega

/-- A text is short enough by its characters unless the bound lies between them and the bytes. -/
theorem check_maxLength_iff (most : Nat) :
    (maxLength most).check t = .ok (decide (t.length ≤ most)) ↔
      ¬ (t.length ≤ most ∧ most < Utf8.size t) := by
  have hle := Utf8.length_le_size t
  rw [check, Except.ok.injEq, decide_eq_decide]
  omega

/-- The length of a text is in a range by its characters unless one of the bounds lies between them
and the bytes, and the other one is kept. -/
theorem check_inRange_iff (least most : Nat) :
    (inRange least most).check t = .ok (decide (least ≤ t.length ∧ t.length ≤ most)) ↔
      ¬ (t.length < least ∧ least ≤ Utf8.size t ∧ Utf8.size t ≤ most) ∧
        ¬ (least ≤ t.length ∧ t.length ≤ most ∧ most < Utf8.size t) := by
  have hle := Utf8.length_le_size t
  rw [check, Except.ok.injEq, decide_eq_decide]
  omega

/-- All three count characters, whatever the bounds are, exactly in texts of ASCII. -/
theorem counts_iff :
    (∀ m n, (minLength m).check t = .ok (decide (m ≤ t.length)) ∧
        (maxLength n).check t = .ok (decide (t.length ≤ n)) ∧
        (inRange m n).check t = .ok (decide (m ≤ t.length ∧ t.length ≤ n))) ↔
      ∀ c ∈ t, c.toNat < 128 := by
  have hle := Utf8.length_le_size t
  simp only [check_minLength_iff, check_maxLength_iff, check_inRange_iff, ← Utf8.size_eq_length_iff]
  constructor
  · intro h
    obtain ⟨hleast, -⟩ := h (Utf8.size t) 0
    omega
  · intro h m n
    omega

end Rule

/-! ## Passwords -/

/-- A password can be checked, and has a length that is refused exactly if it has less than 5 bytes
or more than 40. -/
theorem Form.Entry.mem_broken_password (t : Text) :
    ∃ checked, (password t []).check = .ok checked ∧
      (.inRange 5 40 ∈ checked.broken ↔ ¬ (5 ≤ Utf8.size t ∧ Utf8.size t ≤ 40)) := by
  refine ⟨_, check_of_isSure (isSure_password t (List.forall_mem_nil _)), ?_⟩
  have hasked : Rule.inRange 5 40 ∈ (password t []).rules :=
    show Rule.inRange 5 40 ∈ passwordRules by decide
  have hmem : Rule.inRange 5 40 ∈ (password t []).failing ↔
      (Rule.inRange 5 40).check t = .ok false := by
    rw [failing, List.mem_filter, decide_eq_true_iff]
    exact and_iff_right hasked
  rw [hmem, Rule.check, Except.ok.injEq, decide_eq_false_iff_not]

namespace Rule

/-- **Lengths in characters.** A rule for lengths answers by the number of characters unless a bound
lies between this and the number of bytes, which is for all bounds exactly in texts of ASCII. A
password is refused for its length by the number of characters unless it has less than 5 characters
but 5 to 40 bytes, or 5 to 40 characters but more than 40 bytes; none of more than 40 characters is
taken. -/
theorem check_lengths_iff (t : Text) :
    (∀ m, (minLength m).check t = .ok (decide (m ≤ t.length)) ↔
      ¬ (t.length < m ∧ m ≤ Utf8.size t)) ∧
    (∀ n, (maxLength n).check t = .ok (decide (t.length ≤ n)) ↔
      ¬ (t.length ≤ n ∧ n < Utf8.size t)) ∧
    (∀ m n, (inRange m n).check t = .ok (decide (m ≤ t.length ∧ t.length ≤ n)) ↔
      ¬ (t.length < m ∧ m ≤ Utf8.size t ∧ Utf8.size t ≤ n) ∧
        ¬ (m ≤ t.length ∧ t.length ≤ n ∧ n < Utf8.size t)) ∧
    ((∀ m n, (minLength m).check t = .ok (decide (m ≤ t.length)) ∧
        (maxLength n).check t = .ok (decide (t.length ≤ n)) ∧
        (inRange m n).check t = .ok (decide (m ≤ t.length ∧ t.length ≤ n))) ↔
      ∀ c ∈ t, c.toNat < 128) ∧
    ∃ checked, (Form.Entry.password t []).check = .ok checked ∧
      ((inRange 5 40 ∈ checked.broken ↔ ¬ (5 ≤ t.length ∧ t.length ≤ 40)) ↔
        ¬ (t.length < 5 ∧ 5 ≤ Utf8.size t ∧ Utf8.size t ≤ 40) ∧
          ¬ (5 ≤ t.length ∧ t.length ≤ 40 ∧ 40 < Utf8.size t)) ∧
      (checked.isValid = true → t.length ≤ 40) := by
  refine ⟨check_minLength_iff t, check_maxLength_iff t, check_inRange_iff t, counts_iff t, ?_⟩
  obtain ⟨checked, hcheck, hbroken⟩ := Form.Entry.mem_broken_password t
  have hle := Utf8.length_le_size t
  refine ⟨checked, hcheck, ?_, ?_⟩
  · rw [hbroken]
    omega
  · intro hvalid
    have hkept : inRange 5 40 ∉ checked.broken := by
      rw [List.isEmpty_iff.mp hvalid]
      exact List.not_mem_nil
    rw [hbroken, not_not] at hkept
    omega

/-- A password of three characters is taken, and one of 40 is refused. -/
theorem lengths_of_bytes :
    (∃ checked, (Form.Entry.password "A1€" []).check = .ok checked ∧ checked.isValid = true ∧
      checked.value.length = 3) ∧
    ∃ checked, (Form.Entry.password ("A1" ++ List.replicate 38 'é') []).check = .ok checked ∧
      checked.value.length = 40 ∧ checked.broken = [inRange 5 40] :=
  ⟨⟨_, rfl, by decide, by decide⟩, _, rfl, by decide, by decide⟩

end Rule

end PageServer
