/-
# Cookies in a line

A client sends its cookies in one line, with a semicolon and a space between
neighbours. Names and values come back in order, as nothing in them is taken
for the marks between them or is trimmed.

* `Request.IsCookie`: a name and a value that fit into such a line
* `Request.cookiePairs_writeCookies`: they are read as they were
* `Request.trim_writeCookies`: no blank begins or ends the line
-/
import PageServer.Http.Request
import PageServer.Proofs.Text.Cutting

namespace PageServer.Request

/-! ## Writing cookies -/

/-- A name and a value that fit into a line of cookies. -/
structure IsCookie (pair : Text × Text) : Prop where
  /-- No blank begins or ends the name. -/
  name_trimmed : Text.trim pair.1 = pair.1
  /-- No blank begins or ends the value. -/
  value_trimmed : Text.trim pair.2 = pair.2
  /-- The name holds no character with a meaning in the line. -/
  name_chars : ∀ c ∈ ['=', ';', '\n'], c ∉ pair.1
  /-- The value may hold equals signs. -/
  value_chars : ∀ c ∈ [';', '\n'], c ∉ pair.2

/-- A cookie as it is written. -/
def writeCookie (pair : Text × Text) : Text := pair.1 ++ '=' :: pair.2

/-- Cookies as they are written behind each other. -/
def writeCookies (cookies : List (Text × Text)) : Text :=
  Text.join "; " (cookies.map writeCookie)

theorem writeCookies_cons_cons (first second : Text × Text) (others : List (Text × Text)) :
    writeCookies (first :: second :: others) =
      writeCookie first ++ ';' :: ' ' :: writeCookies (second :: others) := by
  rw [writeCookies, List.map_cons, List.map_cons, Text.join, List.intercalate_cons_cons,
    List.append_assoc]
  rfl

/-- A character that may not stand in a name or a value stands in no cookie. -/
theorem IsCookie.not_mem {pair : Text × Text} (h : IsCookie pair) {c : Char}
    (hc : c ∈ [';', '\n']) : c ∉ writeCookie pair := by
  intro hmem
  rcases List.mem_append.mp hmem with hname | hvalue
  · exact h.name_chars c (List.mem_cons_of_mem _ hc) hname
  · rcases List.mem_cons.mp hvalue with rfl | hvalue
    · exact absurd hc (by decide)
    · exact h.value_chars c hc hvalue

/-- Cookies stand in one line. -/
theorem not_mem_writeCookies {cookies : List (Text × Text)} (h : ∀ pair ∈ cookies, IsCookie pair) :
    '\n' ∉ writeCookies cookies := by
  induction cookies with
  | nil => simp [writeCookies, Text.join]
  | cons first others ih =>
      obtain ⟨hfirst, hothers⟩ := List.forall_mem_cons.mp h
      have hnot := hfirst.not_mem (c := '\n') (by decide)
      cases others with
      | nil => simpa [writeCookies, Text.join] using hnot
      | cons second others =>
          rw [writeCookies_cons_cons]
          simp [hnot, ih hothers]

/-! ## Reading them -/

/-- A blank at the start of a text is trimmed. -/
theorem trim_blank (t : Text) : Text.trim (' ' :: t) = Text.trim t := by
  rw [Text.trim, Text.trimBy, List.dropWhile_cons_of_pos (by decide)]
  rfl

/-- A blank before the first cookie does not count. -/
theorem cookiePairs_blank (t : Text) : cookiePairs (' ' :: t) = cookiePairs t := by
  obtain ⟨first, others, hsplit⟩ := List.exists_cons_of_ne_nil (Text.splitOn_ne_nil ';' t)
  have hcut : Text.cut '=' (' ' :: first) =
      (Text.cut '=' first).map fun sides => (' ' :: sides.1, sides.2) := by
    rw [Text.cut, if_neg (by decide)]
  rw [cookiePairs, cookiePairs, Text.splitOn_cons_of_ne (by decide), hsplit,
    List.modifyHead_cons, List.filterMap_cons, List.filterMap_cons, hcut]
  cases Text.cut '=' first with
  | none => rfl
  | some sides =>
      rw [Option.map_some, List.map_cons, List.map_cons, trim_blank]

/-- The cookies of a line are read one after another. -/
theorem cookiePairs_writeCookie {pair : Text × Text} (h : IsCookie pair) (pieces : List Text) :
    ((writeCookie pair :: pieces).filterMap (Text.cut '=')).map
        (fun pair => (Text.trim pair.1, Text.trim pair.2)) =
      pair :: (pieces.filterMap (Text.cut '=')).map
        fun pair => (Text.trim pair.1, Text.trim pair.2) := by
  have hcut : Text.cut '=' (writeCookie pair) = some pair :=
    Text.cut_append (h.name_chars '=' (by decide)) pair.2
  rw [List.filterMap_cons, hcut]
  dsimp only
  rw [List.map_cons, h.name_trimmed, h.value_trimmed]

/-- **Cookies are read in order as they were before they were written.** -/
theorem cookiePairs_writeCookies {cookies : List (Text × Text)}
    (h : ∀ pair ∈ cookies, IsCookie pair) : cookiePairs (writeCookies cookies) = cookies := by
  induction cookies with
  | nil => rfl
  | cons first others ih =>
      obtain ⟨hfirst, hothers⟩ := List.forall_mem_cons.mp h
      have hsemicolon : ';' ∉ writeCookie first := hfirst.not_mem (by decide)
      cases others with
      | nil =>
          have hone : writeCookies [first] = writeCookie first := by simp [writeCookies, Text.join]
          rw [hone, cookiePairs, Text.splitOn_of_not_mem hsemicolon,
            cookiePairs_writeCookie hfirst]
          rfl
      | cons second others =>
          rw [writeCookies_cons_cons, cookiePairs, Text.splitOn_cons_of_not_mem hsemicolon,
            cookiePairs_writeCookie hfirst]
          exact congrArg (first :: ·) ((cookiePairs_blank _).trans (ih hothers))

/-! ## Their ends -/

/-- A text that is not empty, with no blank at either end. -/
structure IsTight (t : Text) : Prop where
  /-- It has a character. -/
  ne_nil : t ≠ []
  /-- The first one is no blank. -/
  first : ∀ c ∈ t.head?, ¬ Text.isBlank c = true
  /-- The last one is no blank. -/
  last : ∀ c ∈ t.getLast?, ¬ Text.isBlank c = true

/-- The ends of two such texts are those of what begins and ends with them. -/
theorem IsTight.append {t u : Text} (ht : IsTight t) (hu : IsTight u) (middle : Text) :
    IsTight (t ++ (middle ++ u)) where
  ne_nil := List.append_ne_nil_of_left_ne_nil ht.ne_nil _
  first := by
    rw [List.head?_append_of_ne_nil _ ht.ne_nil]
    exact ht.first
  last := by
    rw [List.getLast?_append_of_ne_nil _ (List.append_ne_nil_of_right_ne_nil _ hu.ne_nil),
      List.getLast?_append_of_ne_nil _ hu.ne_nil]
    exact hu.last

/-- A written cookie is such a text. -/
theorem IsCookie.isTight {pair : Text × Text} (h : IsCookie pair) : IsTight (writeCookie pair) where
  ne_nil := by simp [writeCookie]
  first := by
    have hname := (Text.of_trimBy_eq_self h.name_trimmed).1
    unfold writeCookie
    cases hchars : pair.1 with
    | nil =>
        rintro _ ⟨⟩
        decide
    | cons c name =>
        rw [hchars] at hname
        exact hname
  last := by
    have hvalue := (Text.of_trimBy_eq_self h.value_trimmed).2
    unfold writeCookie
    cases hchars : pair.2 with
    | nil =>
        rw [List.getLast?_append_of_ne_nil _ (List.cons_ne_nil _ _)]
        rintro _ ⟨⟩
        decide
    | cons c value =>
        rw [hchars] at hvalue
        rw [List.getLast?_append_of_ne_nil _ (List.cons_ne_nil _ _), List.getLast?_cons_cons]
        exact hvalue

/-- Written cookies are such a text. -/
theorem isTight_writeCookies {cookies : List (Text × Text)} (h : ∀ pair ∈ cookies, IsCookie pair)
    (hne : cookies ≠ []) : IsTight (writeCookies cookies) := by
  induction cookies with
  | nil => contradiction
  | cons first others ih =>
      obtain ⟨hfirst, hothers⟩ := List.forall_mem_cons.mp h
      cases others with
      | nil => simpa [writeCookies, Text.join] using hfirst.isTight
      | cons second others =>
          rw [writeCookies_cons_cons]
          exact hfirst.isTight.append (ih hothers (List.cons_ne_nil second others)) [';', ' ']

/-- **Written cookies stay as they are when they are trimmed, also behind a blank.** -/
theorem trim_writeCookies {cookies : List (Text × Text)} (h : ∀ pair ∈ cookies, IsCookie pair) :
    Text.trim (' ' :: writeCookies cookies) = writeCookies cookies := by
  rw [trim_blank]
  by_cases hne : cookies = []
  · rw [hne]
    rfl
  · have htight := isTight_writeCookies h hne
    exact Text.trimBy_eq_self htight.first htight.last

end PageServer.Request
