/-
# Bytes that are a text

Bytes that are read without a break are the bytes of the text that is read, and
no others are. So a text and its bytes may stand for each other: a text begins
with another one exactly if its bytes begin with those of the other.

* `Utf8.encodeChar_of_sequence`: a sequence is made of the bytes of its character
* `Utf8.decode?_eq_some_iff`: bytes that are read as a text
* `Utf8.decodeLossy_encode`: the bytes of a text have no breaks
* `Utf8.encode_prefix_iff`: texts that begin with a text
-/
import PageServer.Proofs.Text.Utf8

namespace PageServer.Utf8

/-! ## One character -/

/-- The bytes of the character with a number. -/
theorem encodeChar_ofNat {n : Nat} (h : n.isValidChar) :
    String.utf8EncodeChar (Char.ofNat n) =
      if n ≤ 0x7F then [UInt8.ofNat n]
      else if n ≤ 0x7FF then [UInt8.ofNat (n / 64 % 0x20 + 0xC0), UInt8.ofNat (n % 0x40 + 0x80)]
      else if n ≤ 0xFFFF then
        [UInt8.ofNat (n / 4096 % 0x10 + 0xE0), UInt8.ofNat (n / 64 % 0x40 + 0x80),
          UInt8.ofNat (n % 0x40 + 0x80)]
      else
        [UInt8.ofNat (n / 262144 % 0x08 + 0xF0), UInt8.ofNat (n / 4096 % 0x40 + 0x80),
          UInt8.ofNat (n / 64 % 0x40 + 0x80), UInt8.ofNat (n % 0x40 + 0x80)] := by
  have hvalue : (Char.ofNat n).val.toNat = n := by
    have htoNat := Char.toNat_ofNat n
    rwa [if_pos h] at htoNat
  unfold String.utf8EncodeChar
  rw [hvalue]

/-- The byte with a number. -/
theorem ofNat_eq_of_toNat {n : Nat} {b : UInt8} (h : n = b.toNat) : UInt8.ofNat n = b := by
  rw [h, UInt8.ofNat_toNat]

/-- A byte lies between two others if its number does. -/
theorem between_iff {low high b : UInt8} :
    (low ≤ b && b ≤ high : Bool) = true ↔ low.toNat ≤ b.toNat ∧ b.toNat ≤ high.toNat := by
  simp only [Bool.and_eq_true, decide_eq_true_eq, UInt8.le_iff_toNat_le]

/-- The second byte of three makes no longer form than needed, and no surrogate. -/
theorem of_secondOfThree {lead b : UInt8} (h : secondOfThree lead b = true) :
    (0x80 ≤ b.toNat ∧ b.toNat ≤ 0xBF) ∧ (lead.toNat = 0xE0 → 0xA0 ≤ b.toNat) ∧
      (lead.toNat = 0xED → b.toNat ≤ 0x9F) := by
  have hleast : lead = 0xE0 ↔ lead.toNat = 0xE0 := UInt8.toNat_inj.symm
  have hgreatest : lead = 0xED ↔ lead.toNat = 0xED := UInt8.toNat_inj.symm
  unfold secondOfThree continues at h
  split_ifs at h with h1 h2 <;> rw [between_iff] at h <;> obtain ⟨hlow, hhigh⟩ := h <;>
    simp only [UInt8.reduceToNat] at hlow hhigh
  · have := hleast.mp h1
    omega
  · have := hgreatest.mp h2
    omega
  · have := mt hleast.mpr h1
    have := mt hgreatest.mpr h2
    omega

/-- The second byte of four makes no longer form than needed, and nothing beyond the last
character. -/
theorem of_secondOfFour {lead b : UInt8} (h : secondOfFour lead b = true) :
    (0x80 ≤ b.toNat ∧ b.toNat ≤ 0xBF) ∧ (lead.toNat = 0xF0 → 0x90 ≤ b.toNat) ∧
      (lead.toNat = 0xF4 → b.toNat ≤ 0x8F) := by
  have hleast : lead = 0xF0 ↔ lead.toNat = 0xF0 := UInt8.toNat_inj.symm
  have hgreatest : lead = 0xF4 ↔ lead.toNat = 0xF4 := UInt8.toNat_inj.symm
  unfold secondOfFour continues at h
  split_ifs at h with h1 h2 <;> rw [between_iff] at h <;> obtain ⟨hlow, hhigh⟩ := h <;>
    simp only [UInt8.reduceToNat] at hlow hhigh
  · have := hleast.mp h1
    omega
  · have := hgreatest.mp h2
    omega
  · have := mt hleast.mpr h1
    have := mt hgreatest.mpr h2
    omega

/-- A continuing byte by its number. -/
theorem of_continues {b : UInt8} (h : continues b = true) : 0x80 ≤ b.toNat ∧ b.toNat ≤ 0xBF :=
  between_iff.mp h

/-- One byte. -/
theorem encodeChar_one {lead : UInt8} (h : lead.toNat < 0x80) :
    String.utf8EncodeChar (Char.ofNat lead.toNat) = [lead] := by
  rw [encodeChar_ofNat (Or.inl (by omega)), if_pos (by omega), UInt8.ofNat_toNat]

/-- Two bytes. -/
theorem encodeChar_two {lead b : UInt8} (hlead : 0xC2 ≤ lead.toNat ∧ lead.toNat ≤ 0xDF)
    (hb : continues b = true) :
    String.utf8EncodeChar (Char.ofNat (lead.toNat % 32 * 64 + payload b)) = [lead, b] := by
  have hb' := of_continues hb
  have hvalid : (lead.toNat % 32 * 64 + payload b).isValidChar := Or.inl (by unfold payload; omega)
  rw [encodeChar_ofNat hvalid]
  unfold payload
  rw [if_neg (by omega), if_pos (by omega), ofNat_eq_of_toNat (b := lead) (by omega),
    ofNat_eq_of_toNat (b := b) (by omega)]

/-- Three bytes. -/
theorem encodeChar_three {lead b c : UInt8} (hlead : 0xE0 ≤ lead.toNat ∧ lead.toNat ≤ 0xEF)
    (hb : secondOfThree lead b = true) (hc : continues c = true) :
    String.utf8EncodeChar (Char.ofNat (lead.toNat % 16 * 4096 + payload b * 64 + payload c)) =
      [lead, b, c] := by
  have hb' := of_secondOfThree hb
  have hc' := of_continues hc
  have hvalid : (lead.toNat % 16 * 4096 + payload b * 64 + payload c).isValidChar := by
    unfold payload Nat.isValidChar
    omega
  rw [encodeChar_ofNat hvalid]
  unfold payload
  rw [if_neg (by omega), if_neg (by omega), if_pos (by omega),
    ofNat_eq_of_toNat (b := lead) (by omega), ofNat_eq_of_toNat (b := b) (by omega),
    ofNat_eq_of_toNat (b := c) (by omega)]

/-- Four bytes. -/
theorem encodeChar_four {lead b c d : UInt8} (hlead : 0xF0 ≤ lead.toNat ∧ lead.toNat ≤ 0xF4)
    (hb : secondOfFour lead b = true) (hc : continues c = true) (hd : continues d = true) :
    String.utf8EncodeChar (Char.ofNat (lead.toNat % 8 * 262144 + payload b * 4096 + payload c * 64
      + payload d)) = [lead, b, c, d] := by
  have hb' := of_secondOfFour hb
  have hc' := of_continues hc
  have hd' := of_continues hd
  have hvalid : (lead.toNat % 8 * 262144 + payload b * 4096 + payload c * 64
      + payload d).isValidChar := by
    unfold payload Nat.isValidChar
    omega
  rw [encodeChar_ofNat hvalid]
  unfold payload
  rw [if_neg (by omega), if_neg (by omega), if_neg (by omega),
    ofNat_eq_of_toNat (b := lead) (by omega), ofNat_eq_of_toNat (b := b) (by omega),
    ofNat_eq_of_toNat (b := c) (by omega), ofNat_eq_of_toNat (b := d) (by omega)]

/-- **A sequence is made of the bytes of its character.** -/
theorem encodeChar_of_sequence {lead : UInt8} {rest : Bytes} {c : Char} {size : Nat}
    (h : sequence lead rest = (some c, size)) :
    ∃ others after, rest = others ++ after ∧ others.length = size ∧
      String.utf8EncodeChar c = lead :: others := by
  unfold sequence at h
  split_ifs at h with hone htwo hthree hfour
  · obtain ⟨hc, rfl⟩ := Prod.mk.inj h
    obtain rfl := Option.some.inj hc
    exact ⟨[], rest, rfl, rfl, encodeChar_one (UInt8.lt_iff_toNat_lt.mp hone)⟩
  · obtain - | ⟨b, after⟩ := rest
    · simp at h
    dsimp only at h
    split_ifs at h with hb
    · obtain ⟨hc, rfl⟩ := Prod.mk.inj h
      obtain rfl := Option.some.inj hc
      exact ⟨[b], after, rfl, rfl, encodeChar_two (between_iff.mp htwo) hb⟩
    · simp at h
  · obtain - | ⟨b, - | ⟨d, after⟩⟩ := rest
    · simp at h
    · dsimp only at h
      split_ifs at h <;> simp at h
    dsimp only at h
    split_ifs at h with hb hd
    · obtain ⟨hc, rfl⟩ := Prod.mk.inj h
      obtain rfl := Option.some.inj hc
      exact ⟨[b, d], after, rfl, rfl, encodeChar_three (between_iff.mp hthree) hb hd⟩
    · simp at h
    · simp at h
  · obtain - | ⟨b, - | ⟨d, - | ⟨e, after⟩⟩⟩ := rest
    · simp at h
    · dsimp only at h
      split_ifs at h <;> simp at h
    · dsimp only at h
      split_ifs at h <;> simp at h
    dsimp only at h
    split_ifs at h with hb hd he
    · obtain ⟨hc, rfl⟩ := Prod.mk.inj h
      obtain rfl := Option.some.inj hc
      exact ⟨[b, d, e], after, rfl, rfl, encodeChar_four (between_iff.mp hfour) hb hd he⟩
    · simp at h
    · simp at h
    · simp at h
  · simp at h

/-! ## All characters -/

/-- Bytes that are read without a break are those of the text that is read. -/
theorem encode_of_sequences {bytes : Bytes} {t : Text} (h : sequences bytes = t.map some) :
    encode t = bytes := by
  unfold sequences at h
  induction t generalizing bytes with
  | nil =>
      cases bytes with
      | nil => rfl
      | cons lead rest => simp [sequencesFrom] at h
  | cons c t ih =>
      cases bytes with
      | nil => simp [sequencesFrom] at h
      | cons lead rest =>
          rcases hsequence : sequence lead rest with ⟨char, size⟩
          rw [sequencesFrom, hsequence, List.map_cons] at h
          obtain ⟨rfl, hrest⟩ := List.cons.inj h
          obtain ⟨others, after, rfl, rfl, hbytes⟩ := encodeChar_of_sequence hsequence
          rw [sequencesFrom_append] at hrest
          rw [encode, List.flatMap_cons, hbytes, List.cons_append]
          exact congrArg (fun after => lead :: (others ++ after)) (ih hrest)

/-- **Just the bytes of a text are read as the text.** -/
theorem decode?_eq_some_iff {bytes : Bytes} {t : Text} :
    decode? bytes = some t ↔ encode t = bytes := by
  constructor
  · intro h
    apply encode_of_sequences
    unfold decode? at h
    generalize sequences bytes = chars at h
    induction chars generalizing t with
    | nil =>
        rw [List.mapM_nil] at h
        obtain rfl := Option.some.inj h
        rfl
    | cons char chars ih =>
        rw [List.mapM_cons] at h
        obtain ⟨c, hc, hrest⟩ := Option.bind_eq_some_iff.mp h
        obtain ⟨rest, hread, heq⟩ := Option.bind_eq_some_iff.mp hrest
        obtain rfl := Option.some.inj heq
        rw [List.map_cons, ← ih hread, show char = some c from hc]
  · rintro rfl
    exact decode?_encode t

/-- The bytes of a text have no breaks. -/
theorem decodeLossy_encode (t : Text) : decodeLossy (encode t) = t := by
  rw [decodeLossy, sequences_encode, List.map_map]
  exact List.map_id t

/-- The bytes of a text and of what follows it. -/
theorem encode_append (t rest : Text) : encode (t ++ rest) = encode t ++ encode rest :=
  List.flatMap_append

/-- **A text begins with another one exactly if its bytes do.** -/
theorem encode_prefix_iff {start t : Text} : encode start <+: encode t ↔ start <+: t := by
  constructor
  · rintro ⟨rest, hrest⟩
    have hsequences := sequences_encode_append start rest
    rw [hrest, sequences_encode] at hsequences
    have hprefix : start.map some <+: t.map some := ⟨_, hsequences.symm⟩
    obtain ⟨kept, hkept, heq⟩ := List.prefix_map_iff.mp hprefix
    rwa [List.map_injective_iff.mpr (Option.some_injective Char) heq]
  · rintro ⟨rest, rfl⟩
    rw [encode_append]
    exact List.prefix_append _ _

end PageServer.Utf8
