/-
# Numbers in JSON

The numbers that saved trees hold are written as JSON has them, so the reader
of JSON takes each of them whole and stops right behind it.

* `Json.IsNumber`: the grammar of numbers
* `Json.readNumber_append`: a number is read up to its end
* `Json.isNumber_ofInt`, `Json.isNumber_data`: integers and floating-point numbers are numbers
-/
import PageServer.Json.Reader
import PageServer.Proofs.Number.Digits

namespace PageServer.Json

/-! ## The grammar -/

/-- A text of at least one digit. -/
def IsDigits (t : Text) : Prop := t ≠ [] ∧ ∀ c ∈ t, Number.isDigit c = true

/-- Nothing, or a point with digits behind it. -/
def IsFraction (t : Text) : Prop := t = [] ∨ ∃ digits, IsDigits digits ∧ t = '.' :: digits

/-- Nothing, or the letter of an exponent with a sign or none and digits behind it. -/
def IsExponent (t : Text) : Prop :=
  t = [] ∨ ∃ sign digits, (sign = [] ∨ sign = ['+'] ∨ sign = ['-']) ∧ IsDigits digits ∧
    t = 'e' :: (sign ++ digits)

/-- A number of JSON: its sign, its whole part, which starts with a zero only if it is one, its
fraction, and its exponent. -/
def IsNumber (t : Text) : Prop :=
  ∃ sign whole fraction exponent,
    (sign = [] ∨ sign = ['-']) ∧ IsDigits whole ∧ (∀ rest, whole = '0' :: rest → rest = []) ∧
      IsFraction fraction ∧ IsExponent exponent ∧ t = sign ++ (whole ++ (fraction ++ exponent))

/-- What may stand behind a value: nothing, or the mark that ends an item. -/
def Ends (rest : Text) : Prop :=
  ∀ c, rest.head? = some c → c = ',' ∨ c = ']' ∨ c = '\x7d'

theorem ends_nil : Ends [] := nofun

theorem ends_cons {c : Char} (rest : Text) (h : c = ',' ∨ c = ']' ∨ c = '\x7d') :
    Ends (c :: rest) := by
  intro d hd
  obtain rfl := Option.some.inj hd
  exact h

/-! ## Reading digits -/

/-- A text that does not go on with a digit. -/
def NoDigit (rest : Text) : Prop := ∀ c, rest.head? = some c → Number.isDigit c = false

/-- What begins with digits begins with a digit. -/
theorem isDigit_of_append_eq {digits rest others : Text} {c : Char} (h : IsDigits digits)
    (heq : digits ++ rest = c :: others) : Number.isDigit c = true := by
  obtain ⟨d, behind, rfl⟩ := List.exists_cons_of_ne_nil h.1
  obtain ⟨rfl, -⟩ := List.cons.inj heq
  exact h.2 d List.mem_cons_self

/-- Digits are read up to the first other character. -/
theorem readDigits_append {digits rest : Text} (h : IsDigits digits) (hrest : NoDigit rest) :
    readDigits (digits ++ rest) = some (digits, rest) := by
  have htake : (digits ++ rest).takeWhile Number.isDigit = digits := by
    rw [List.takeWhile_append_of_pos h.2]
    cases rest with
    | nil => simp
    | cons c rest => simp [hrest c rfl]
  have hdrop : (digits ++ rest).dropWhile Number.isDigit = rest := by
    rw [List.dropWhile_append_of_pos h.2]
    cases rest with
    | nil => rfl
    | cons c rest => simp [hrest c rfl]
  unfold readDigits Decimal.spanDigits
  rw [htake, hdrop]
  split
  · rename_i heq
    exact absurd (Prod.mk.inj heq).1 h.1
  · rfl

theorem noDigit_of_ends {rest : Text} (h : Ends rest) : NoDigit rest := by
  intro c hc
  rcases h c hc with rfl | rfl | rfl <;> decide

/-- An exponent does not start with a digit. -/
theorem noDigit_exponent {exponent rest : Text} (h : IsExponent exponent) (hrest : Ends rest) :
    NoDigit (exponent ++ rest) := by
  rcases h with rfl | ⟨sign, digits, -, -, rfl⟩
  · exact noDigit_of_ends hrest
  · intro c hc
    obtain rfl := Option.some.inj hc
    decide

/-- Nor does a fraction. -/
theorem noDigit_fraction {fraction exponent rest : Text} (hfraction : IsFraction fraction)
    (hexponent : IsExponent exponent) (hrest : Ends rest) :
    NoDigit (fraction ++ (exponent ++ rest)) := by
  rcases hfraction with rfl | ⟨digits, -, rfl⟩
  · rw [List.nil_append]
    exact noDigit_exponent hexponent hrest
  · intro c hc
    obtain rfl := Option.some.inj hc
    decide

/-! ## Reading numbers -/

/-- The whole part is read up to its end. -/
theorem readWhole_append {whole rest : Text} (h : IsDigits whole)
    (hzero : ∀ rest, whole = '0' :: rest → rest = []) (hrest : NoDigit rest) :
    readWhole (whole ++ rest) = some (whole, rest) := by
  unfold readWhole
  rw [readDigits_append h hrest]
  split
  · rename_i c others after heq
    obtain ⟨hwhole, -⟩ := Prod.mk.inj (Option.some.inj heq)
    exact absurd (hzero _ hwhole) (by simp)
  · rfl

/-- The fraction is read up to its end. -/
theorem readFraction_append {fraction exponent rest : Text} (h : IsFraction fraction)
    (hexponent : IsExponent exponent) (hrest : Ends rest) :
    readFraction (fraction ++ (exponent ++ rest)) = some (fraction, exponent ++ rest) := by
  rcases h with rfl | ⟨digits, hdigits, rfl⟩
  · rw [List.nil_append]
    unfold readFraction
    split
    · rename_i heq
      rcases hexponent with rfl | ⟨sign, digits, -, -, rfl⟩
      · rw [List.nil_append] at heq
        rcases hrest '.' (by rw [heq]; rfl) with h | h | h <;> exact absurd h (by decide)
      · exact absurd (List.cons.inj heq).1 (by decide)
    · rfl
  · show (readDigits (digits ++ (exponent ++ rest))).map _ = _
    rw [readDigits_append hdigits (noDigit_exponent hexponent hrest)]
    rfl

/-- The exponent is read up to its end. -/
theorem readExponent_append {exponent rest : Text} (h : IsExponent exponent)
    (hrest : Ends rest) : readExponent (exponent ++ rest) = some (exponent, rest) := by
  rcases h with rfl | ⟨sign, digits, hsign, hdigits, rfl⟩
  · rw [List.nil_append]
    unfold readExponent
    split
    · rename_i c others
      rw [if_neg]
      rcases hrest c rfl with rfl | rfl | rfl <;> decide
    · rfl
  · have hread := readDigits_append hdigits (noDigit_of_ends hrest)
    show readExponent ('e' :: (sign ++ digits ++ rest)) = _
    simp only [readExponent, true_or, if_true]
    rcases hsign with rfl | rfl | rfl
    · -- digits do not begin with a sign
      rw [List.nil_append]
      split
      · rename_i heq
        exact absurd (isDigit_of_append_eq hdigits heq) (by decide)
      · rename_i heq
        exact absurd (isDigit_of_append_eq hdigits heq) (by decide)
      · rw [hread]
        rfl
    · show (readDigits (digits ++ rest)).map _ = _
      rw [hread]
      rfl
    · show (readDigits (digits ++ rest)).map _ = _
      rw [hread]
      rfl

/-- **A number is read up to its end.** -/
theorem readNumber_append {t rest : Text} (h : IsNumber t) (hrest : Ends rest) :
    readNumber (t ++ rest) = some (t, rest) := by
  obtain ⟨sign, whole, fraction, exponent, hsign, hwhole, hzero, hfraction, hexponent, rfl⟩ := h
  have hread := readWhole_append hwhole hzero (noDigit_fraction hfraction hexponent hrest)
  have hfractions := readFraction_append hfraction hexponent hrest
  have hexponents := readExponent_append hexponent hrest
  simp only [List.append_assoc]
  unfold readNumber
  rcases hsign with rfl | rfl
  · rw [List.nil_append]
    split
    rename_i sign rest' hsplit
    split at hsplit
    · rename_i heq
      exact absurd (isDigit_of_append_eq hwhole heq) (by decide)
    · obtain ⟨rfl, rfl⟩ := Prod.mk.inj hsplit
      simp only [hread, hfractions, hexponents, List.nil_append, List.append_assoc]
  · simp only [hread, hfractions, hexponents, List.cons_append,
      List.append_assoc, List.nil_append]

/-- A number starts with its sign or with a digit. -/
theorem exists_cons_of_isNumber {t : Text} (h : IsNumber t) :
    ∃ c rest, t = c :: rest ∧ (c = '-' ∨ Number.isDigit c = true) := by
  obtain ⟨sign, whole, fraction, exponent, hsign, hwhole, -, -, -, rfl⟩ := h
  rcases hsign with rfl | rfl
  · obtain ⟨c, others, rfl⟩ := List.exists_cons_of_ne_nil hwhole.1
    exact ⟨c, _, rfl, Or.inr (hwhole.2 c List.mem_cons_self)⟩
  · exact ⟨'-', _, rfl, Or.inl rfl⟩

/-! ## Integers -/

theorem isDigits_ofNat (n : Nat) : IsDigits (Text.ofNat n) :=
  ⟨Text.ofNat_ne_nil n, fun _ => Text.isDigit_of_mem_ofNat⟩

/-- Natural numbers are written without zeros before them. -/
theorem eq_nil_of_ofNat_eq {n : Nat} {rest : Text} (h : Text.ofNat n = '0' :: rest) :
    rest = [] := by
  obtain rfl := Text.ofNat_eq_of_head h
  exact (List.cons.inj h).2.symm

/-- What begins with a natural number other than zero does not begin with a zero. -/
theorem head?_ofNat_append_ne {n : Nat} (h : n ≠ 0) (rest : Text) :
    (Text.ofNat n ++ rest).head? ≠ some '0' := by
  obtain ⟨c, others, hcons⟩ := List.exists_cons_of_ne_nil (Text.ofNat_ne_nil n)
  rw [hcons, List.cons_append, List.head?_cons]
  rintro hc
  rw [Option.some.inj hc] at hcons
  exact h (Text.ofNat_eq_of_head hcons)

/-- A natural number is a number. -/
theorem isNumber_ofNat (n : Nat) : IsNumber (Text.ofNat n) :=
  ⟨[], Text.ofNat n, [], [], Or.inl rfl, isDigits_ofNat n, fun _ => eq_nil_of_ofNat_eq, Or.inl rfl,
    Or.inl rfl, by simp⟩

/-- A number with a sign before it is a number if it had none. -/
theorem isNumber_ofInt (n : Int) : IsNumber (Text.ofInt n) := by
  cases n with
  | ofNat n => exact isNumber_ofNat n
  | negSucc n =>
      exact ⟨['-'], Text.ofNat (n + 1), [], [], Or.inr rfl, isDigits_ofNat _,
        fun _ => eq_nil_of_ofNat_eq, Or.inl rfl, Or.inl rfl, by simp [Text.ofInt]⟩

/-! ## Floating-point numbers -/

/-- A magnitude without a sign is a number. -/
def IsMagnitude (t : Text) : Prop :=
  ∃ whole fraction exponent, IsDigits whole ∧ (∀ rest, whole = '0' :: rest → rest = []) ∧
    IsFraction fraction ∧ IsExponent exponent ∧ t = whole ++ (fraction ++ exponent)

/-- A magnitude with the sign of a number is a number. -/
theorem isNumber_signed {t : Text} (h : IsMagnitude t) (x : Binary64) :
    IsNumber (Decimal.signed x t) := by
  obtain ⟨whole, fraction, exponent, hwhole, hzero, hfraction, hexponent, rfl⟩ := h
  unfold Decimal.signed
  split
  · exact ⟨['-'], whole, fraction, exponent, Or.inr rfl, hwhole, hzero, hfraction, hexponent, rfl⟩
  · exact ⟨[], whole, fraction, exponent, Or.inl rfl, hwhole, hzero, hfraction, hexponent, rfl⟩

/-- One digit is enough. -/
theorem isDigits_singleton {c : Char} (h : Number.isDigit c = true) : IsDigits [c] :=
  ⟨by simp, fun d hd => by rwa [List.mem_singleton.mp hd]⟩

/-- Digits with zeros are digits. -/
theorem isDigits_append_zeros {t : Text} (h : IsDigits t) (n : Nat) :
    IsDigits (t ++ List.replicate n '0') := by
  refine ⟨by simp [h.1], fun c hc => ?_⟩
  rcases List.mem_append.mp hc with hc | hc
  · exact h.2 c hc
  · obtain rfl := List.eq_of_mem_replicate hc
    decide

theorem isDigits_zeros_append {t : Text} (h : IsDigits t) (n : Nat) :
    IsDigits (List.replicate n '0' ++ t) := by
  refine ⟨by simp [h.1], fun c hc => ?_⟩
  rcases List.mem_append.mp hc with hc | hc
  · obtain rfl := List.eq_of_mem_replicate hc
    decide
  · exact h.2 c hc

/-- A whole part that stands alone is a magnitude with a point behind it. -/
theorem isMagnitude_whole {whole : Text} (h : IsDigits whole)
    (hzero : ∀ rest, whole = '0' :: rest → rest = []) :
    IsMagnitude (whole ++ (".0" : Text)) :=
  ⟨whole, ".0", [], h, hzero, Or.inr ⟨['0'], isDigits_singleton (by decide), rfl⟩, Or.inl rfl, by simp⟩

/-- A whole part and a fraction are a magnitude. -/
theorem isMagnitude_fraction {whole digits : Text} (h : IsDigits whole)
    (hzero : ∀ rest, whole = '0' :: rest → rest = []) (hdigits : IsDigits digits) :
    IsMagnitude (whole ++ '.' :: digits) :=
  ⟨whole, '.' :: digits, [], h, hzero, Or.inr ⟨digits, hdigits, rfl⟩, Or.inl rfl, by simp⟩

/-- The positional layout is a magnitude, with a point at least behind it. -/
theorem isMagnitude_positional (d : Decimal) : IsMagnitude (Decimal.positional ".0" d) := by
  have hzero : IsDigits ("0" : Text) := isDigits_singleton (by decide)
  have halone : ∀ rest, ("0" : Text) = '0' :: rest → rest = [] :=
    fun _ h => (List.cons.inj h).2.symm
  have hdigits := isDigits_ofNat d.digits
  unfold Decimal.positional Decimal.around
  dsimp only
  by_cases hnone : d.digits = 0
  · simp only [if_pos hnone]
    exact isMagnitude_whole hzero halone
  simp only [if_neg hnone]
  by_cases hbehind : d.pointAfter ≤ 0
  · simp only [if_pos hbehind]
    -- all digits lie behind the point
    have hafter := isDigits_zeros_append hdigits (-d.pointAfter).toNat
    split
    · rename_i heq
      exact absurd (Prod.mk.inj heq).2 hafter.1
    · rename_i heq
      obtain ⟨rfl, rfl⟩ := Prod.mk.inj heq
      exact isMagnitude_fraction hzero halone hafter
  simp only [if_neg hbehind]
  by_cases hwhole : 0 ≤ d.exponent
  · simp only [if_pos hwhole]
    -- all digits lie before the point, and the first one is no zero
    refine isMagnitude_whole (isDigits_append_zeros hdigits _) fun rest hrest => ?_
    have hhead := head?_ofNat_append_ne hnone (List.replicate d.exponent.toNat '0')
    exact absurd (congrArg List.head? hrest) hhead
  · simp only [if_neg hwhole]
    -- the point lies between two digits
    have hlength : d.pointAfter.toNat < (Text.ofNat d.digits).length := by
      unfold Decimal.pointAfter at hbehind ⊢
      omega
    have hbefore : IsDigits ((Text.ofNat d.digits).take d.pointAfter.toNat) := by
      refine ⟨?_, fun c hc => hdigits.2 c (List.mem_of_mem_take hc)⟩
      rw [Ne, List.take_eq_nil_iff]
      have hpositive : d.pointAfter.toNat ≠ 0 := by omega
      exact not_or.mpr ⟨hpositive, hdigits.1⟩
    have hafter : IsDigits ((Text.ofNat d.digits).drop d.pointAfter.toNat) := by
      refine ⟨?_, fun c hc => hdigits.2 c (List.mem_of_mem_drop hc)⟩
      rw [Ne, List.drop_eq_nil_iff]
      omega
    split
    · rename_i heq
      exact absurd (Prod.mk.inj heq).2 hafter.1
    · rename_i heq
      obtain ⟨rfl, rfl⟩ := Prod.mk.inj heq
      refine isMagnitude_fraction hbefore (fun rest hrest => ?_) hafter
      have hhead : (Text.ofNat d.digits).head? = some '0' := by
        rw [← List.take_append_drop d.pointAfter.toNat (Text.ofNat d.digits), hrest]
        rfl
      rw [← List.append_nil (Text.ofNat d.digits)] at hhead
      exact absurd hhead (head?_ofNat_append_ne hnone [])

/-- An integer with a sign is the inside of an exponent. -/
theorem isExponent_ofInt (n : Int) :
    IsExponent ('e' :: ((if n < 0 then [] else ("+" : Text)) ++ Text.ofInt n)) := by
  cases n with
  | ofNat n =>
      refine Or.inr ⟨['+'], Text.ofNat n, Or.inr (Or.inl rfl), isDigits_ofNat n, ?_⟩
      rw [if_neg (by simp)]
      rfl
  | negSucc n =>
      refine Or.inr ⟨['-'], Text.ofNat (n + 1), Or.inr (Or.inr rfl), isDigits_ofNat _, ?_⟩
      rw [if_pos (Int.negSucc_lt_zero n)]
      rfl

/-- The layout with an exponent is a magnitude. -/
theorem isMagnitude_scientific (d : Decimal) : IsMagnitude (Decimal.scientific "+" d) := by
  have hexponent := isExponent_ofInt (d.pointAfter - 1)
  have hdigits := isDigits_ofNat d.digits
  have halone : ∀ c, ∀ rest : Text, [c] = '0' :: rest → rest = [] :=
    fun _ _ h => (List.cons.inj h).2.symm
  unfold Decimal.scientific
  dsimp only
  split
  · rename_i c heq
    rw [heq] at hdigits
    exact ⟨[c], [], _, isDigits_singleton (hdigits.2 c (by simp)), halone c, Or.inl rfl, hexponent, rfl⟩
  · rename_i c others hne heq
    rw [heq] at hdigits
    refine ⟨[c], '.' :: others, _, isDigits_singleton (hdigits.2 c (by simp)), halone c,
      Or.inr ⟨others, ?_, rfl⟩, hexponent, rfl⟩
    exact ⟨hne, fun e he => hdigits.2 e (List.mem_cons_of_mem c he)⟩
  · rename_i heq
    exact absurd heq hdigits.1

/-- A finite floating-point number is saved as a number. -/
theorem isNumber_data {x : Binary64} (h : x.isFinite = true) : IsNumber (Decimal.data x) := by
  unfold Decimal.data
  simp only [if_pos h]
  apply isNumber_signed
  split
  · exact isMagnitude_positional _
  · exact isMagnitude_scientific _

end PageServer.Json
