/-
# Reading what was written as JSON

Every tree whose strings are texts and whose numbers are numbers is read back
from its compact text. A value is read up to its end, whatever item or closing
mark follows; the number that bounds the reader need only exceed the length of
what is read.

* `Json.Written`: the trees that are read back
* `Json.readString_writeText`: strings with all their escapes
* `Json.readValue_write`: values, by induction on the tree
* `Json.read?_write`: whole texts
-/
import PageServer.Proofs.Json.Numbers

namespace PageServer.Json

/-! ## Strings -/

/-- The part of a string that a character is read as. -/
def partOf (c : Char) : Part :=
  if c.toNat < 32 ∧ c ∉ ['\x08', '\x0c', '\n', '\r', '\t'] then .unit c.toNat else .char c

/-- A hexadecimal digit is read as its value. -/
theorem hexDigit?_hexDigit : ∀ n < 16, Number.hexDigit? (hexDigit n) = some n := by decide

/-- A character that stands for itself. -/
theorem readParts_plain {c : Char} (rest : Text) (hquote : c ≠ '\x22') (hback : c ≠ '\\')
    (hcontrol : ¬ c.toNat < 32) :
    readParts (c :: rest) =
      (readParts rest).map fun (parts, after) => (.char c :: parts, after) := by
  rw [readParts.eq_5 c rest hquote (fun _ _ _ _ _ h => absurd h hback)
    (fun _ _ h => absurd h hback), if_neg (not_or.mpr ⟨hback, hcontrol⟩)]

/-- An escape of one letter. -/
theorem readParts_escape {e c : Char} (rest : Text) (h : escaped? e = some c) (hu : e ≠ 'u') :
    readParts ('\\' :: e :: rest) =
      (readParts rest).map fun (parts, after) => (.char c :: parts, after) := by
  rw [readParts.eq_4 e rest (fun _ _ _ _ _ h => absurd h hu)]
  simp only [h]

/-- A character is read up to the end of its escape. -/
theorem readParts_writeChar (c : Char) (rest : Text) :
    readParts (writeChar c ++ rest) =
      (readParts rest).map fun (parts, after) => (partOf c :: parts, after) := by
  by_cases hunit : c.toNat < 32 ∧ c ∉ ['\x08', '\x0c', '\n', '\r', '\t']
  · -- the character is written by its number
    have hhigh := hexDigit?_hexDigit (c.toNat / 16) (by omega)
    have hlow := hexDigit?_hexDigit (c.toNat % 16) (by omega)
    have hzero : Number.hexDigit? '0' = some 0 := by decide
    have hvalue : 0 * 4096 + 0 * 256 + c.toNat / 16 * 16 + c.toNat % 16 = c.toNat := by omega
    have hwritten : writeChar c =
        ['\\', 'u', '0', '0', hexDigit (c.toNat / 16), hexDigit (c.toNat % 16)] := by
      obtain ⟨hsmall, hnone⟩ := hunit
      simp only [List.mem_cons, List.not_mem_nil, or_false, not_or] at hnone
      obtain ⟨h1, h2, h3, h4, h5⟩ := hnone
      have hplain : ¬ (c = '\x22' ∨ c = '\\') := by
        rintro (rfl | rfl) <;> exact absurd hsmall (by decide)
      simp only [writeChar, if_neg hplain, if_neg h1, if_neg h2, if_neg h3, if_neg h4, if_neg h5,
        if_pos hsmall]
    rw [hwritten, partOf, if_pos hunit]
    simp only [List.cons_append, List.nil_append, readParts.eq_3, hzero, hhigh, hlow, hvalue]
  · -- the character is written by a letter or as itself
    rw [partOf, if_neg hunit]
    unfold writeChar
    split_ifs with h1 h2 h3 h4 h5 h6 h7
    · rcases h1 with rfl | rfl <;> exact readParts_escape rest (by decide) (by decide)
    · subst h2; exact readParts_escape rest (by decide) (by decide)
    · subst h3; exact readParts_escape rest (by decide) (by decide)
    · subst h4; exact readParts_escape rest (by decide) (by decide)
    · subst h5; exact readParts_escape rest (by decide) (by decide)
    · subst h6; exact readParts_escape rest (by decide) (by decide)
    · exact absurd ⟨h7, by simp [h2, h3, h4, h5, h6]⟩ hunit
    · obtain ⟨hquote, hback⟩ := not_or.mp h1
      exact readParts_plain rest hquote hback h7

/-- A small unit stands for the character with its number. -/
theorem joinParts_unit {n : Nat} (h : n < 32) (parts : List Part) :
    joinParts (.unit n :: parts) = (joinParts parts).map (Char.ofNat n :: ·) := by
  have hhigh : isHigh n = false := by simp [isHigh]; omega
  have hlow : isLow n = false := by simp [isLow]; omega
  cases parts with
  | nil => simp [joinParts, hhigh, hlow]
  | cons part parts =>
      cases part with
      | char c => simp [joinParts, hhigh, hlow]
      | unit m => simp [joinParts, hhigh, hlow]

/-- The parts of a text join to the text. -/
theorem joinParts_map_partOf (t : Text) : joinParts (t.map partOf) = some t := by
  induction t with
  | nil => rfl
  | cons c t ih =>
      rw [List.map_cons, partOf]
      split
      · rename_i hunit
        rw [joinParts_unit hunit.1, ih, Option.map_some, Char.ofNat_toNat]
      · rw [joinParts, ih, Option.map_some]

/-- **A string is read up to its closing quote.** -/
theorem readString_writeText (t rest : Text) :
    readString (t.flatMap writeChar ++ '\x22' :: rest) = some (some t, rest) := by
  have hparts : readParts (t.flatMap writeChar ++ '\x22' :: rest) = some (t.map partOf, rest) := by
    induction t with
    | nil => rfl
    | cons c t ih =>
        rw [List.flatMap_cons, List.append_assoc, readParts_writeChar, ih]
        rfl
  simp only [readString, hparts, Option.map_some, joinParts_map_partOf]

/-! ## Trees that are read back -/

mutual
/-- A tree in which every string and every name is a text and every number is a number. -/
def Written : Json → Prop
  | null => True
  | bool _ => True
  | number written => IsNumber written
  | string t => t.isSome = true
  | array items => ItemsWritten items
  | object members => MembersWritten members

/-- Items of which each one is read back. -/
def ItemsWritten : List Json → Prop
  | [] => True
  | item :: rest => Written item ∧ ItemsWritten rest

/-- Members of which each one is read back. -/
def MembersWritten : List (Option Text × Json) → Prop
  | [] => True
  | (name, value) :: rest => name.isSome = true ∧ Written value ∧ MembersWritten rest
end

/-- What a value can start with: no blank and no closing mark. -/
def IsStart (c : Char) : Prop := isBlank c = false ∧ c ≠ ']' ∧ c ≠ '\x7d'

/-- A value starts with a character that no blank and no closing mark is. -/
theorem exists_cons_write {j : Json} (h : j.Written) : ∃ c rest, write j = c :: rest ∧ IsStart c := by
  cases j with
  | null => exact ⟨'n', _, rfl, by decide, by decide, by decide⟩
  | bool b => cases b <;> exact ⟨_, _, rfl, by decide, by decide, by decide⟩
  | string t => exact ⟨'\x22', _, rfl, by decide, by decide, by decide⟩
  | array items => exact ⟨'[', _, rfl, by decide, by decide, by decide⟩
  | object members => exact ⟨'\x7b', _, rfl, by decide, by decide, by decide⟩
  | number written =>
      obtain ⟨c, rest, rfl, hc⟩ := exists_cons_of_isNumber h
      refine ⟨c, rest, rfl, ?_⟩
      rcases hc with rfl | hdigit
      · exact ⟨by decide, by decide, by decide⟩
      · refine ⟨?_, ?_, ?_⟩
        · unfold isBlank
          by_contra hblank
          simp only [Bool.not_eq_false, Bool.or_eq_true, decide_eq_true_eq] at hblank
          rcases hblank with ((rfl | rfl) | rfl) | rfl <;> exact absurd hdigit (by decide)
        · rintro rfl; exact absurd hdigit (by decide)
        · rintro rfl; exact absurd hdigit (by decide)

/-- Nothing is passed over before a character that is no blank. -/
theorem skip_cons {c : Char} (h : isBlank c = false) (rest : Text) : skip (c :: rest) = c :: rest := by
  rw [skip, List.dropWhile_cons, h]
  rfl

/-- A number is read as it is written. -/
theorem readValue_number {written rest : Text} (h : IsNumber written) (hrest : Ends rest)
    (fuel : Nat) : readValue (fuel + 1) (written ++ rest) = some (number written, rest) := by
  have hread := readNumber_append h hrest
  obtain ⟨c, others, rfl, hc⟩ := exists_cons_of_isNumber h
  rw [List.cons_append] at hread ⊢
  have hother : ∀ d, d ∈ ['n', 't', 'f', '\x22', '[', '\x7b'] → c ≠ d := by
    rintro d hd rfl
    simp only [List.mem_cons, List.not_mem_nil, or_false] at hd
    rcases hd with rfl | rfl | rfl | rfl | rfl | rfl <;>
      rcases hc with hc | hc <;> exact absurd hc (by decide)
  rw [readValue.eq_def]
  dsimp only
  split
  all_goals
    rename_i heq
    first
    | exact absurd (List.cons.inj heq).1 (hother _ (by simp))
    | rw [hread]; rfl

/-- Nothing is passed over before a value. -/
theorem skip_write_append {j : Json} (h : j.Written) (rest : Text) :
    skip (write j ++ rest) = write j ++ rest := by
  obtain ⟨c, others, heq, hstart, -, -⟩ := exists_cons_write h
  rw [heq, List.cons_append, skip_cons hstart]

/-- Items start with the first of them. -/
theorem exists_cons_writeItems {items : List Json} (h : ItemsWritten items) (hne : items ≠ []) :
    ∃ c rest, writeItems items = c :: rest ∧ IsStart c := by
  cases items with
  | nil => exact absurd rfl hne
  | cons item others =>
      obtain ⟨c, rest, heq, hstart⟩ := exists_cons_write h.1
      cases others with
      | nil => exact ⟨c, rest, heq, hstart⟩
      | cons second others =>
          refine ⟨c, rest ++ ',' :: writeItems (second :: others), ?_, hstart⟩
          rw [writeItems, heq, List.cons_append]
          simp

/-- Members start with the quote of the first name. -/
theorem exists_cons_writeMembers {members : List (Option Text × Json)} (hne : members ≠ []) :
    ∃ rest, writeMembers members = '\x22' :: rest := by
  cases members with
  | nil => exact absurd rfl hne
  | cons member others =>
      obtain ⟨name, value⟩ := member
      cases others with
      | nil => exact ⟨_, rfl⟩
      | cons second others => exact ⟨_, rfl⟩

mutual
/-- **A value is read up to its end.** -/
theorem readValue_write : ∀ (j : Json) (fuel : Nat) (rest : Text), j.Written →
    (write j).length < fuel → Ends rest → readValue fuel (write j ++ rest) = some (j, rest)
  | j, 0, _, _, hfuel, _ => absurd hfuel (Nat.not_lt_zero _)
  | .null, fuel + 1, rest, _, _, _ => rfl
  | .bool true, fuel + 1, rest, _, _, _ => rfl
  | .bool false, fuel + 1, rest, _, _, _ => rfl
  | .number written, fuel + 1, rest, h, _, hrest => readValue_number h hrest fuel
  | .string none, fuel + 1, rest, h, _, _ => absurd h (by simp [Written])
  | .string (some t), fuel + 1, rest, _, _, _ => by
      show (readString (t.flatMap writeChar ++ ['\x22'] ++ rest)).map _ = _
      rw [List.append_assoc, List.singleton_append, readString_writeText]
      rfl
  | .array items, fuel + 1, rest, h, hfuel, _ => by
      by_cases hne : items = []
      · subst hne
        rfl
      · have hlength : (writeItems items).length + 1 < fuel := by
          simp only [write, List.length_append, List.length_cons, List.length_nil] at hfuel
          omega
        have hread := readItems_write items fuel rest h hne hlength
        obtain ⟨c, others, heq, hblank, hclose, -⟩ := exists_cons_writeItems h hne
        show readValue (fuel + 1) ('[' :: (writeItems items ++ [']'] ++ rest)) = _
        rw [List.append_assoc, List.singleton_append]
        rw [heq, List.cons_append] at hread ⊢
        simp only [readValue, skip_cons hblank]
        split
        · rename_i hfirst
          exact absurd (List.cons.inj hfirst).1 hclose
        · rw [hread]
          rfl
  | .object members, fuel + 1, rest, h, hfuel, _ => by
      by_cases hne : members = []
      · subst hne
        rfl
      · have hlength : (writeMembers members).length + 1 < fuel := by
          simp only [write, List.length_append, List.length_cons, List.length_nil] at hfuel
          omega
        have hread := readMembers_write members fuel rest h hne hlength
        obtain ⟨others, heq⟩ := exists_cons_writeMembers hne
        show readValue (fuel + 1) ('\x7b' :: (writeMembers members ++ ['\x7d'] ++ rest)) = _
        rw [List.append_assoc, List.singleton_append]
        rw [heq, List.cons_append] at hread ⊢
        simp only [readValue, skip_cons (c := '\x22') (by decide)]
        show (readMembers fuel ('\x22' :: (others ++ '\x7d' :: rest))).map _ = _
        rw [hread]
        rfl

/-- Items are read up to the closing bracket. -/
theorem readItems_write : ∀ (items : List Json) (fuel : Nat) (rest : Text), ItemsWritten items →
    items ≠ [] → (writeItems items).length + 1 < fuel →
    readItems fuel (writeItems items ++ ']' :: rest) = some (items, rest)
  | _, 0, _, _, _, hfuel => absurd hfuel (Nat.not_lt_zero _)
  | [], _, _, _, hne, _ => absurd rfl hne
  | [item], fuel + 1, rest, h, _, hfuel => by
      have hitem := readValue_write item fuel (']' :: rest) h.1 (by simpa [writeItems] using hfuel)
        (ends_cons rest (by simp))
      rw [readItems, writeItems, hitem]
      rfl
  | item :: second :: others, fuel + 1, rest, h, _, hfuel => by
      have hwritten : writeItems (item :: second :: others) =
          write item ++ ',' :: writeItems (second :: others) := rfl
      rw [hwritten, List.length_append, List.length_cons] at hfuel
      obtain ⟨c, rest', hcons, -⟩ := exists_cons_write h.1
      have hpositive : 0 < (write item).length := by rw [hcons]; simp
      obtain ⟨d, rest'', hcons', hblank, -⟩ := exists_cons_writeItems h.2 (by simp)
      -- the comma ends a number, and the items behind it are shorter than all of them
      have hitem := readValue_write item fuel (',' :: (writeItems (second :: others) ++ ']' :: rest))
        h.1 (by omega) (ends_cons _ (by simp))
      have hothers := readItems_write (second :: others) fuel rest h.2 (by simp) (by omega)
      rw [hwritten, List.append_assoc, List.cons_append, readItems, hitem]
      simp only [skip_cons (c := ',') (by decide)]
      rw [hcons', List.cons_append] at hothers ⊢
      rw [skip_cons hblank, hothers]
      rfl

/-- Members are read up to the closing brace. -/
theorem readMembers_write : ∀ (members : List (Option Text × Json)) (fuel : Nat) (rest : Text),
    MembersWritten members → members ≠ [] → (writeMembers members).length + 1 < fuel →
    readMembers fuel (writeMembers members ++ '\x7d' :: rest) = some (members, rest)
  | _, 0, _, _, _, hfuel => absurd hfuel (Nat.not_lt_zero _)
  | [], _, _, _, hne, _ => absurd rfl hne
  | [(none, value)], fuel + 1, rest, h, _, hfuel => absurd h.1 (by simp)
  | [(some name, value)], fuel + 1, rest, h, _, hfuel => by
      have hwritten : writeMembers [(some name, value)] =
          writeText name ++ ':' :: write value := rfl
      rw [hwritten, List.length_append, List.length_cons] at hfuel
      have hvalue := readValue_write value fuel ('\x7d' :: rest) h.2.1 (by omega)
        (ends_cons rest (by simp))
      rw [hwritten]
      simp only [writeText, List.cons_append, List.append_assoc, List.nil_append, readMembers,
        readString_writeText, skip_cons (c := ':') (by decide), skip_write_append h.2.1, hvalue,
        skip_cons (c := '\x7d') (by decide)]
  | (none, value) :: second :: others, fuel + 1, rest, h, _, hfuel => absurd h.1 (by simp)
  | (some name, value) :: second :: others, fuel + 1, rest, h, _, hfuel => by
      have hwritten : writeMembers ((some name, value) :: second :: others) =
          writeText name ++ ':' :: write value ++ ',' :: writeMembers (second :: others) := rfl
      rw [hwritten, List.length_append, List.length_append, List.length_cons, List.length_cons]
        at hfuel
      obtain ⟨rest', hcons⟩ := exists_cons_writeMembers (List.cons_ne_nil second others)
      have hvalue := readValue_write value fuel
        (',' :: (writeMembers (second :: others) ++ '\x7d' :: rest)) h.2.1 (by omega)
        (ends_cons _ (by simp))
      have hothers := readMembers_write (second :: others) fuel rest h.2.2 (by simp) (by omega)
      rw [hwritten]
      simp only [writeText, List.cons_append, List.append_assoc, List.nil_append, readMembers,
        readString_writeText, skip_cons (c := ':') (by decide), skip_write_append h.2.1, hvalue,
        skip_cons (c := ',') (by decide)]
      rw [hcons, List.cons_append] at hothers ⊢
      rw [skip_cons (c := '\x22') (by decide), hothers]
      rfl
end

/-- **The text of a tree is read as the tree.** -/
theorem read?_write {j : Json} (h : j.Written) : read? (write j) = some j := by
  have hskip := skip_write_append h []
  have hread := readValue_write j ((write j).length + 1) [] h (Nat.lt_succ_self _) ends_nil
  rw [List.append_nil] at hskip hread
  rw [read?, hskip, hread]
  rfl

end PageServer.Json
