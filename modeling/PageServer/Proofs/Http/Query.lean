/-
# Queries that are written and read

What is written as a query is read again: each byte comes back from what it is
written as, and no name or value holds the characters that stand between them.

* `Query.unescape_escaped`: a byte before others
* `Query.readPart_writePart`: a name or a value
* `Query.pairs_write`: all pairs, in order
-/
import PageServer.Http.Query
import PageServer.Proofs.Text.Cutting
import PageServer.Proofs.Text.Tables
import PageServer.Proofs.Text.ValidBytes

namespace PageServer

namespace Query

/-! ## Bytes -/

/-- What is read of a byte as it is written, before the escapes are looked at. -/
def escaped (b : UInt8) : Bytes := Utf8.encode ((writeByte b).map unplus)

/-- A hexadecimal digit as a byte. -/
def digitByte (n : Nat) : UInt8 := UInt8.ofNat (hexDigit n).toNat

/-- A written digit is read again. -/
theorem hexDigit?_digitByte : ∀ n < 16, hexDigit? (digitByte n) = some (UInt8.ofNat n) := by
  decide +kernel

/-- What is so for each number of a byte is so for each byte. -/
theorem forall_byte {p : UInt8 → Prop} (h : ∀ n < 256, p (UInt8.ofNat n)) (b : UInt8) : p b := by
  have hb := h b.toNat b.toNat_lt
  rwa [UInt8.ofNat_toNat] at hb

/-- A byte stands for itself, or is written with its two digits. -/
theorem escaped_eq : ∀ b : UInt8,
    (escaped b = [b] ∧ b ≠ 0x25) ∨
      escaped b = [0x25, digitByte (b.toNat / 16), digitByte (b.toNat % 16)] :=
  forall_byte (by decide +kernel)

/-- No byte is written with a character that stands between names and values. -/
theorem not_mem_writeByte (b : UInt8) : ∀ c ∈ writeByte b, c ∉ ['&', '=', '\x00'] := by
  have hall : ∀ b, ((writeByte b).all fun c => decide (c ∉ ['&', '=', '\x00'])) = true :=
    forall_byte (by decide +kernel)
  exact fun c hc => of_decide_eq_true (List.all_eq_true.mp (hall b) c hc)

/-- A byte other than a percent sign stays. -/
theorem unescape_cons_of_ne {b : UInt8} (h : b ≠ 0x25) (rest : Bytes) :
    unescape (b :: rest) = b :: unescape rest := by
  rw [unescape]
  rintro _ _ _ rfl
  exact absurd rfl h

/-- **A written byte is read before what follows.** -/
theorem unescape_escaped (b : UInt8) (rest : Bytes) :
    unescape (escaped b ++ rest) = b :: unescape rest := by
  rcases escaped_eq b with ⟨hself, hne⟩ | hdigits
  · rw [hself, List.singleton_append, unescape_cons_of_ne hne]
  · have hb : b.toNat < 256 := b.toNat_lt
    have hvalue : 16 * UInt8.ofNat (b.toNat / 16) + UInt8.ofNat (b.toNat % 16) = b := by
      have hsixteen : (16 : UInt8).toNat = 16 := rfl
      rw [← UInt8.toNat_inj, UInt8.toNat_add, UInt8.toNat_mul, UInt8.toNat_ofNat',
        UInt8.toNat_ofNat', hsixteen]
      omega
    rw [hdigits, List.cons_append, List.cons_append, List.cons_append, List.nil_append, unescape,
      hexDigit?_digitByte _ (by omega), hexDigit?_digitByte _ (by omega)]
    dsimp only
    rw [hvalue]

/-! ## Names and values -/

/-- Written bytes are read again. -/
theorem unescape_flatMap (bytes : Bytes) : unescape (bytes.flatMap escaped) = bytes := by
  induction bytes with
  | nil => rfl
  | cons b bytes ih => rw [List.flatMap_cons, unescape_escaped, ih]

/-- **A name or a value is read as it was before it was written.** -/
theorem readPart_writePart (t : Text) : readPart (writePart t) = t := by
  have hbytes : Utf8.encode ((writePart t).map unplus) = (Utf8.encode t).flatMap escaped := by
    rw [writePart, List.map_flatMap, Utf8.encode, List.flatMap_assoc]
    rfl
  rw [readPart, hbytes, unescape_flatMap, Utf8.decodeLossy_encode]

/-- It holds no character that stands between names and values. -/
theorem not_mem_writePart {c : Char} (hc : c ∈ ['&', '=', '\x00']) (t : Text) :
    c ∉ writePart t := by
  intro hmem
  obtain ⟨b, -, hb⟩ := List.mem_flatMap.mp hmem
  exact not_mem_writeByte b c hb hc

/-! ## Pairs -/

/-- A pair is read as it was. -/
theorem readPair_writePair (pair : Text × Text) : readPair (writePair pair) = pair := by
  have hcut : Text.cut '=' (writePair pair) = some (writePart pair.1, writePart pair.2) :=
    Text.cut_append (not_mem_writePart (by decide) pair.1) (writePart pair.2)
  rw [readPair, hcut, Option.getD_some]
  dsimp only
  rw [readPart_writePart, readPart_writePart]

/-- A pair holds an equals sign between a name and a value. -/
theorem mem_writePair {c : Char} {pair : Text × Text} (h : c ∈ writePair pair) :
    c = '=' ∨ c ∉ ['&', '=', '\x00'] := by
  rcases List.mem_append.mp h with hname | hvalue
  · exact Or.inr fun hc => not_mem_writePart hc pair.1 hname
  · rcases List.mem_cons.mp hvalue with heq | hvalue
    · exact Or.inl heq
    · exact Or.inr fun hc => not_mem_writePart hc pair.2 hvalue

/-- A query is written without null characters. -/
theorem not_mem_write (entries : List (Text × Text)) : '\x00' ∉ write entries := by
  intro hmem
  rcases Text.mem_join hmem with hsep | ⟨piece, hpiece, hin⟩
  · exact absurd hsep (by decide)
  · obtain ⟨pair, -, rfl⟩ := List.mem_map.mp hpiece
    rcases mem_writePair hin with heq | hnot
    · exact absurd heq (by decide)
    · exact hnot (by decide)

/-- **Pairs are read in order as they were before they were written.** -/
theorem pairs_write (entries : List (Text × Text)) : pairs (write entries) = entries := by
  cases entries with
  | nil => rfl
  | cons first others =>
      have hpieces : ∀ piece ∈ (first :: others).map writePair, '&' ∉ piece := by
        intro piece hpiece hmem
        obtain ⟨pair, -, rfl⟩ := List.mem_map.mp hpiece
        rcases mem_writePair hmem with heq | hnot
        · exact absurd heq (by decide)
        · exact hnot (by decide)
      have hsplit : Text.splitOn '&' (write (first :: others)) = (first :: others).map writePair :=
        Text.splitOn_join hpieces (by simp)
      have hfilled : ∀ piece ∈ (first :: others).map writePair, (!piece.isEmpty) = true := by
        intro piece hpiece
        obtain ⟨pair, -, rfl⟩ := List.mem_map.mp hpiece
        simp [writePair]
      have hread : readPair ∘ writePair = id := funext readPair_writePair
      rw [pairs, hsplit, List.filter_eq_self.mpr hfilled, List.map_map, hread, List.map_id]

/-- **The query of some pairs is read as the table of their last values.** -/
theorem get?_read_write (name : Text) (entries : List (Text × Text)) :
    (read (write entries)).get? name = Table.last? name entries := by
  rw [read, pairs_write, Table.get?_ofList]

end Query
end PageServer
