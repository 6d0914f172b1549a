/-
# Reading what was written as UTF-8

The bytes of a character form one sequence, whatever bytes follow, so the bytes
of a text are read back as the text.

* `Utf8.sequence_encodeChar`: the sequence of a character
* `Utf8.sequences_encode_append`: the sequences of a text before any bytes
* `Utf8.decode?_encode`: the bytes of a text
* `Utf8.size_eq_length`, `Utf8.size_eq_length_iff`: how many there are, and for which texts they are
  as many as the characters
-/
import Mathlib
import PageServer.Text.Utf8

namespace PageServer.Utf8

/-! ## Bytes -/

/-- A small number is that of its byte. -/
theorem toNat_byte {n : Nat} (h : n < 256) : (UInt8.ofNat n).toNat = n :=
  UInt8.toNat_ofNat_of_lt' h

/-- A byte is another one if their numbers are. -/
theorem byte_eq_iff {n m : Nat} (hn : n < 256) (hm : m < 256) :
    UInt8.ofNat n = UInt8.ofNat m ↔ n = m := by
  rw [← UInt8.toNat_inj, toNat_byte hn, toNat_byte hm]

/-- A byte is at most another one if its number is. -/
theorem byte_le_iff {n m : Nat} (hn : n < 256) (hm : m < 256) :
    UInt8.ofNat n ≤ UInt8.ofNat m ↔ n ≤ m := by
  rw [UInt8.le_iff_toNat_le, toNat_byte hn, toNat_byte hm]

/-- A byte is less than another one if its number is. -/
theorem byte_lt_iff {n m : Nat} (hn : n < 256) (hm : m < 256) :
    UInt8.ofNat n < UInt8.ofNat m ↔ n < m := by
  rw [UInt8.lt_iff_toNat_lt, toNat_byte hn, toNat_byte hm]

/-- Six bits in a continuing byte. -/
theorem continues_byte (n : Nat) : continues (UInt8.ofNat (n % 64 + 128)) = true := by
  have hlow : (0x80 : UInt8) ≤ UInt8.ofNat (n % 64 + 128) :=
    (byte_le_iff (n := 128) (by omega) (by omega)).mpr (by omega)
  have hhigh : UInt8.ofNat (n % 64 + 128) ≤ (0xBF : UInt8) :=
    (byte_le_iff (m := 191) (by omega) (by omega)).mpr (by omega)
  simp only [continues, hlow, hhigh, decide_true, Bool.and_self]

/-- The six bits are its payload. -/
theorem payload_byte (n : Nat) : payload (UInt8.ofNat (n % 64 + 128)) = n % 64 := by
  rw [payload, toNat_byte (by omega)]
  omega

/-! ## Sequences -/

/-- The sequence of a character of seven bits. -/
theorem sequence_one {n : Nat} (h : n ≤ 0x7F) (rest : Bytes) :
    sequence (UInt8.ofNat n) rest = (some (Char.ofNat n), 0) := by
  have hlead : UInt8.ofNat n < (0x80 : UInt8) :=
    (byte_lt_iff (m := 128) (by omega) (by omega)).mpr (by omega)
  simp only [sequence, if_pos hlead, toNat_byte (show n < 256 by omega)]

/-- A byte that lies between two others. -/
theorem byte_between {n : Nat} (low high : Nat) (hn : n < 256) (h : low ≤ n ∧ n ≤ high)
    (hhigh : high < 256) :
    (UInt8.ofNat low ≤ UInt8.ofNat n && UInt8.ofNat n ≤ UInt8.ofNat high : Bool) = true := by
  rw [Bool.and_eq_true, decide_eq_true_eq, decide_eq_true_eq]
  exact ⟨(byte_le_iff (by omega) hn).mpr h.1, (byte_le_iff hn hhigh).mpr h.2⟩

/-- A byte that does not lie between two others. -/
theorem byte_not_between {n : Nat} (low high : Nat) (hn : n < 256) (h : n < low ∨ high < n)
    (hlow : low < 256) (hhigh : high < 256) :
    ¬ (UInt8.ofNat low ≤ UInt8.ofNat n && UInt8.ofNat n ≤ UInt8.ofNat high : Bool) = true := by
  rw [Bool.and_eq_true, decide_eq_true_eq, decide_eq_true_eq, byte_le_iff hlow hn,
    byte_le_iff hn hhigh]
  omega

/-- The sequence of a character of eleven bits. -/
theorem sequence_two {n : Nat} (hlow : 0x7F < n) (hhigh : n ≤ 0x7FF) (rest : Bytes) :
    sequence (UInt8.ofNat (n / 64 % 0x20 + 0xC0)) (UInt8.ofNat (n % 0x40 + 0x80) :: rest) =
      (some (Char.ofNat n), 1) := by
  have hsize : n / 64 % 0x20 + 0xC0 < 256 := by omega
  have hone : ¬ UInt8.ofNat (n / 64 % 0x20 + 0xC0) < (0x80 : UInt8) :=
    mt (byte_lt_iff (m := 128) hsize (by omega)).mp (by omega)
  have htwo := byte_between 0xC2 0xDF hsize (by omega) (by omega)
  have hvalue : (n / 64 % 0x20 + 0xC0) % 32 * 64 + n % 64 = n := by omega
  simp only [sequence, if_neg hone, toNat_byte hsize, continues_byte, payload_byte, if_true, hvalue]
  exact if_pos htwo

/-- The sequence of a character of sixteen bits. -/
theorem sequence_three {n : Nat} (hlow : 0x7FF < n) (hhigh : n ≤ 0xFFFF)
    (hvalid : n < 0xD800 ∨ 0xDFFF < n) (rest : Bytes) :
    sequence (UInt8.ofNat (n / 4096 % 0x10 + 0xE0))
        (UInt8.ofNat (n / 64 % 0x40 + 0x80) :: UInt8.ofNat (n % 0x40 + 0x80) :: rest) =
      (some (Char.ofNat n), 2) := by
  have hsize : n / 4096 % 0x10 + 0xE0 < 256 := by omega
  have hsecond : n / 64 % 0x40 + 0x80 < 256 := by omega
  have hone : ¬ UInt8.ofNat (n / 4096 % 0x10 + 0xE0) < (0x80 : UInt8) :=
    mt (byte_lt_iff (m := 128) hsize (by omega)).mp (by omega)
  have htwo := byte_not_between 0xC2 0xDF hsize (by omega) (by omega) (by omega)
  have hthree := byte_between 0xE0 0xEF hsize (by omega) (by omega)
  have hfollows : secondOfThree (UInt8.ofNat (n / 4096 % 0x10 + 0xE0))
      (UInt8.ofNat (n / 64 % 0x40 + 0x80)) = true := by
    unfold secondOfThree
    split_ifs with hleast hgreatest
    · have hfirst := (byte_eq_iff (m := 0xE0) hsize (by omega)).mp hleast
      exact byte_between 0xA0 0xBF hsecond (by omega) (by omega)
    · have hfirst := (byte_eq_iff (m := 0xED) hsize (by omega)).mp hgreatest
      exact byte_between 0x80 0x9F hsecond (by omega) (by omega)
    · exact continues_byte (n / 64)
  have hvalue : (n / 4096 % 0x10 + 0xE0) % 16 * 4096 + n / 64 % 64 * 64 + n % 64 = n := by omega
  simp only [sequence, if_neg hone, toNat_byte hsize, continues_byte, payload_byte, if_true, hvalue,
    hfollows]
  exact (if_neg htwo).trans (if_pos hthree)

/-- The sequence of any other character. -/
theorem sequence_four {n : Nat} (hlow : 0xFFFF < n) (hhigh : n < 0x110000) (rest : Bytes) :
    sequence (UInt8.ofNat (n / 262144 % 0x08 + 0xF0))
        (UInt8.ofNat (n / 4096 % 0x40 + 0x80) :: UInt8.ofNat (n / 64 % 0x40 + 0x80) ::
          UInt8.ofNat (n % 0x40 + 0x80) :: rest) =
      (some (Char.ofNat n), 3) := by
  have hsize : n / 262144 % 0x08 + 0xF0 < 256 := by omega
  have hsecond : n / 4096 % 0x40 + 0x80 < 256 := by omega
  have hone : ¬ UInt8.ofNat (n / 262144 % 0x08 + 0xF0) < (0x80 : UInt8) :=
    mt (byte_lt_iff (m := 128) hsize (by omega)).mp (by omega)
  have htwo := byte_not_between 0xC2 0xDF hsize (by omega) (by omega) (by omega)
  have hthree := byte_not_between 0xE0 0xEF hsize (by omega) (by omega) (by omega)
  have hfour := byte_between 0xF0 0xF4 hsize (by omega) (by omega)
  have hfollows : secondOfFour (UInt8.ofNat (n / 262144 % 0x08 + 0xF0))
      (UInt8.ofNat (n / 4096 % 0x40 + 0x80)) = true := by
    unfold secondOfFour
    split_ifs with hleast hgreatest
    · have hfirst := (byte_eq_iff (m := 0xF0) hsize (by omega)).mp hleast
      exact byte_between 0x90 0xBF hsecond (by omega) (by omega)
    · have hfirst := (byte_eq_iff (m := 0xF4) hsize (by omega)).mp hgreatest
      exact byte_between 0x80 0x8F hsecond (by omega) (by omega)
    · exact continues_byte (n / 4096)
  have hvalue : (n / 262144 % 0x08 + 0xF0) % 8 * 262144 + n / 4096 % 64 * 4096 + n / 64 % 64 * 64
      + n % 64 = n := by omega
  simp only [sequence, if_neg hone, toNat_byte hsize, continues_byte, payload_byte, if_true, hvalue,
    hfollows]
  exact (if_neg htwo).trans ((if_neg hthree).trans (if_pos hfour))

/-- The bytes of a character are one sequence, whatever bytes follow. -/
theorem sequence_encodeChar (c : Char) (rest : Bytes) :
    ∃ lead others, String.utf8EncodeChar c = lead :: others ∧
      sequence lead (others ++ rest) = (some c, others.length) := by
  have hvalid : c.val.toNat.isValidChar := c.valid
  have hchar : Char.ofNat c.val.toNat = c := Char.ofNat_toNat c
  unfold String.utf8EncodeChar
  dsimp only
  generalize c.val.toNat = n at hvalid hchar ⊢
  subst hchar
  split_ifs with h1 h2 h3
  · exact ⟨_, _, rfl, sequence_one h1 rest⟩
  · exact ⟨_, _, rfl, sequence_two (by omega) h2 rest⟩
  · -- a character is no surrogate
    exact ⟨_, _, rfl, sequence_three (by omega) h3 (by omega) rest⟩
  · exact ⟨_, _, rfl, sequence_four (by omega) (by omega) rest⟩

/-! ## Texts -/

/-- The sequences behind some bytes that are passed over. -/
theorem sequencesFrom_append (skipped rest : Bytes) :
    sequencesFrom skipped.length (skipped ++ rest) = sequencesFrom 0 rest := by
  induction skipped with
  | nil => rfl
  | cons b skipped ih => exact ih

/-- The sequences of a text are its characters, whatever bytes follow. -/
theorem sequences_encode_append (t : Text) (rest : Bytes) :
    sequences (encode t ++ rest) = t.map some ++ sequences rest := by
  unfold sequences encode
  induction t with
  | nil => rfl
  | cons c t ih =>
      obtain ⟨lead, others, hbytes, hsequence⟩ :=
        sequence_encodeChar c (t.flatMap String.utf8EncodeChar ++ rest)
      rw [List.flatMap_cons, hbytes, List.append_assoc, List.cons_append, sequencesFrom, hsequence]
      dsimp only
      rw [sequencesFrom_append, ih, List.map_cons, List.cons_append]

/-- The sequences of a text are its characters. -/
theorem sequences_encode (t : Text) : sequences (encode t) = t.map some := by
  have h := sequences_encode_append t []
  rwa [List.append_nil, show sequences [] = [] from rfl, List.append_nil] at h

/-- **The bytes of a text are read as the text.** -/
theorem decode?_encode (t : Text) : decode? (encode t) = some t := by
  rw [decode?, sequences_encode]
  induction t with
  | nil => rfl
  | cons c t ih => rw [List.map_cons, List.mapM_cons, ih]; rfl

/-! ## Sizes -/

/-- The size of a text is the number of its bytes. -/
theorem size_eq_length (t : Text) : size t = (encode t).length := by
  induction t with
  | nil => rfl
  | cons c t ih =>
      have hencode : encode (c :: t) = String.utf8EncodeChar c ++ encode t := List.flatMap_cons
      rw [size, ih, hencode, List.length_append, String.length_utf8EncodeChar]

/-- There is at least one byte for each character. -/
theorem length_le_size (t : Text) : t.length ≤ size t := by
  induction t with
  | nil => exact Nat.le_refl 0
  | cons c t ih =>
      have hpos := c.utf8Size_pos
      rw [size, List.length_cons]
      omega

/-- There is just one for each exactly if all characters are of ASCII. -/
theorem size_eq_length_iff {t : Text} : size t = t.length ↔ ∀ c ∈ t, c.toNat < 128 := by
  induction t with
  | nil => simp [size]
  | cons c t ih =>
      have hpos := c.utf8Size_pos
      have hle := length_le_size t
      have hone : c.utf8Size = 1 ↔ c.toNat < 128 := by
        rw [Char.utf8Size_eq_one_iff, UInt32.le_iff_toNat_le]
        exact Nat.lt_succ_iff.symm
      rw [List.forall_mem_cons, ← ih, ← hone, size, List.length_cons]
      omega

end PageServer.Utf8
