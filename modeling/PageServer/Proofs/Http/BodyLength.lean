/-
# The length of a body

The length of a body is read twice from the header: from the bytes, to tell
when the body is complete, and with the other header entries. The first reader
takes the first entry and ends a line at each line feed; the second takes the
last entry and ends a line at a carriage return with a line feed only.

* `Text.lines_blankLine`: the lines of the first reader, by those of the second
* `Http.declaredLength_eq`, `Request.contentLength_foldl`: what each reader takes
* `Request.lengthIn?_requestLine`: the request line gives no length
* `Request.contentLength_eq_iff`: where both agree
-/
import PageServer.Proofs.Http.Header

namespace PageServer

/-! ## Lines -/

namespace Text

/-- The lines of a text whose last line is ended. -/
theorem lines_feed (t : Text) : lines (t ++ ['\n']) = (splitOn '\n' t).map dropReturn := by
  have hpieces : splitOn '\n' (t ++ ['\n']) = splitOn '\n' t ++ [[]] := splitOn_append '\n' t []
  unfold lines
  rw [hpieces]
  simp

/-- Only the end of a line matters to that. -/
theorem dropReturn_cons {c : Char} {line : Text} (h : c = '\r' → line ≠ []) :
    dropReturn (c :: line) = c :: dropReturn line := by
  rw [dropReturn, dropReturn, cutLast]
  cases cutLast '\r' line with
  | none =>
      by_cases hc : c = '\r'
      · obtain ⟨d, rest, rfl⟩ := List.exists_cons_of_ne_nil (h hc)
        simp [hc]
      · simp [hc]
  | some sides =>
      obtain ⟨start, after⟩ := sides
      cases after <;> rfl

/-- Only a text that begins with a line feed has an empty first line. -/
theorem exists_of_splitOn_feed {t : Text} {pieces : List Text}
    (h : splitOn '\n' (t ++ ['\r']) = [] :: pieces) : ∃ rest, t = '\n' :: rest := by
  cases t with
  | nil => simp [splitOn] at h
  | cons d rest =>
      by_cases hd : d = '\n'
      · exact ⟨rest, by rw [hd]⟩
      · obtain ⟨first, others, hrest⟩ :=
          List.exists_cons_of_ne_nil (splitOn_ne_nil '\n' (rest ++ ['\r']))
        rw [List.cons_append, splitOn_cons_of_ne hd, hrest] at h
        simp at h

/-- **Broken at each line feed, a header has the lines that its own lines break into.** -/
theorem map_dropReturn_splitOn (head : Text) :
    (splitOn '\n' (head ++ ['\r'])).map dropReturn =
      (Request.headerLines head).flatMap (splitOn '\n') := by
  fun_induction Request.headerLines head with
  | case1 rest ih =>
      rw [List.cons_append, List.cons_append, splitOn, if_neg (by decide), splitOn, if_pos rfl,
        List.map_cons, ih]
      rfl
  | case2 c rest hstart hlines => exact absurd hlines (Request.headerLines_ne_nil rest)
  | case3 c rest hstart line others hlines ih =>
      rw [hlines, List.flatMap_cons] at ih
      rw [List.flatMap_cons, List.cons_append]
      by_cases hc : c = '\n'
      · rw [splitOn, if_pos hc, splitOn, if_pos hc, List.map_cons, ih]
        rfl
      · obtain ⟨first, pieces, hfirst⟩ :=
          List.exists_cons_of_ne_nil (splitOn_ne_nil '\n' (rest ++ ['\r']))
        -- the first piece is empty only before a line feed, so its end stays the same
        have hend : c = '\r' → first ≠ [] := by
          rintro rfl rfl
          obtain ⟨after, rfl⟩ := exists_of_splitOn_feed hfirst
          exact hstart after rfl rfl
        obtain ⟨start, starts, hline⟩ := List.exists_cons_of_ne_nil (splitOn_ne_nil '\n' line)
        rw [hfirst, hline, List.map_cons, List.cons_append, List.cons.injEq] at ih
        rw [splitOn_cons_of_ne hc, splitOn_cons_of_ne hc, hfirst, hline, List.modifyHead_cons,
          List.modifyHead_cons, List.map_cons, dropReturn_cons hend, ih.1, ih.2]
        rfl
  | case4 => rfl

/-- The lines of a header with the empty line behind it. -/
theorem lines_blankLine (head : Text) :
    lines (head ++ Http.blankLine) =
      (Request.headerLines head).flatMap (splitOn '\n') ++ [[]] := by
  have hblank : head ++ Http.blankLine = head ++ ['\r'] ++ '\n' :: ['\r'] ++ ['\n'] := by
    simp [Http.blankLine, Http.lineEnd]
  rw [hblank, lines_feed, splitOn_append, List.map_append, map_dropReturn_splitOn]
  rfl

end Text

namespace Request

/-! ## Entries -/

/-- Whether the length of the body stands behind a name. -/
def isLengthName (name : Text) : Bool := Text.sameLetters (Text.trim name) "content-length"

/-- These are the names that are the same word in lower case. -/
theorem isLengthName_iff {name : Text} :
    isLengthName name = true ↔ Text.lower (Text.trim name) = "content-length" :=
  (Text.lower_eq_iff_sameLetters (by decide)).symm

/-- The value of a header line that gives the length of the body. -/
def lengthIn? (line : Text) : Option Text :=
  (Text.cut ':' line).bind fun entry =>
    if isLengthName entry.1 then some (Text.trim entry.2) else none

/-- The values of the lines that do so, in order. -/
def lengthsIn (lines : List Text) : List Text := lines.filterMap lengthIn?

/-- The length that a value stands for; one that is no size, or is missing, stands for zero. -/
def lengthOf (value? : Option Text) : Nat := (value?.bind Number.readSize?).getD 0

/-- The entries of some lines that the first reader looks at. -/
theorem find?_filterMap_cut (lines : List Text) :
    ((lines.filterMap (Text.cut ':')).find? fun entry => isLengthName entry.1).map
        (fun entry => Text.trim entry.2) = (lengthsIn lines).head? := by
  induction lines with
  | nil => rfl
  | cons line lines ih =>
      rw [lengthsIn, List.filterMap_cons, List.filterMap_cons, lengthIn?]
      cases Text.cut ':' line with
      | none => exact ih
      | some entry =>
          by_cases hname : isLengthName entry.1
          · simp [hname]
          · simpa [hname, lengthsIn] using ih

/-- A length that is less than the largest size is the one that the value stands for. -/
theorem readLength_eq {value : Text} (h : Http.readLength value < Number.maxSize) :
    Http.readLength value = lengthOf (some value) := by
  unfold Http.readLength at h ⊢
  rw [lengthOf, Option.bind_some]
  cases hsize : Number.readSize? value with
  | some n => rfl
  | none =>
      rw [hsize] at h
      dsimp only at h ⊢
      split_ifs at h ⊢ with hdigits
      · exact absurd h (lt_irrefl _)
      · rfl

/-- **The first reader takes the first entry, if it is less than the largest size.** -/
theorem declaredLength_eq {head : Text}
    (h : Http.declaredLength (Utf8.encode head) < Number.maxSize) :
    Http.declaredLength (Utf8.encode head) = lengthOf (lengthsIn (Text.lines head)).head? := by
  have hfirst := find?_filterMap_cut (Text.lines head)
  unfold Http.declaredLength at h ⊢
  rw [Utf8.decodeLossy_encode] at h ⊢
  dsimp only at h ⊢
  split at h
  case h_1 entry hentry =>
    have hvalue : (lengthsIn (Text.lines head)).head? = some (Text.trim entry.2) :=
      hfirst.symm.trans (congrArg (Option.map fun entry => Text.trim entry.2) hentry)
    rw [hvalue]
    exact readLength_eq h
  case h_2 hentry =>
    have hvalue : (lengthsIn (Text.lines head)).head? = none :=
      hfirst.symm.trans (congrArg (Option.map fun entry => Text.trim entry.2) hentry)
    rw [hvalue]
    rfl

/-- A line with the length of the body sets it, and no other line does. -/
theorem contentLength_addLine (header : Header) (line : Text) :
    (header.addLine line).contentLength =
      (lengthIn? line).elim header.contentLength fun value => lengthOf (some value) := by
  unfold Header.addLine lengthIn?
  cases Text.cut ':' line with
  | none => rfl
  | some entry =>
      obtain ⟨name, value⟩ := entry
      dsimp only [Option.bind_some]
      by_cases hname : Text.lower (Text.trim name) = "content-length"
      · rw [hname, if_pos (isLengthName_iff.mpr hname), if_neg (by decide), if_neg (by decide),
          if_neg (by decide), if_neg (by decide), if_pos rfl]
        rfl
      · rw [if_neg (mt isLengthName_iff.mp hname), if_neg hname]
        split_ifs <;> rfl

/-- **The second reader takes the last entry.** -/
theorem contentLength_foldl (lines : List Text) (header : Header) :
    (lines.foldl Header.addLine header).contentLength =
      (lengthsIn lines).getLast?.elim header.contentLength fun value => lengthOf (some value) := by
  induction lines generalizing header with
  | nil => rfl
  | cons line lines ih =>
      rw [List.foldl_cons, ih, contentLength_addLine, lengthsIn, lengthsIn, List.filterMap_cons]
      cases lengthIn? line with
      | none => rfl
      | some value =>
          rw [List.getLast?_cons]
          cases (lines.filterMap lengthIn?).getLast? <;> rfl

/-! ## The request line -/

/-- A name that begins with another letter is not the one of a length. -/
theorem isLengthName_cons {c : Char} (hblank : ¬ Text.isBlank c = true)
    (hletter : Text.lowerAscii c ≠ 'c') (name : Text) : isLengthName (c :: name) = false := by
  have hkept : ∀ d ∈ [c].getLast?, ¬ Text.isBlank d = true := by
    rintro _ ⟨⟩
    exact hblank
  have htrim : Text.trim (c :: name) = c :: Text.dropEndWhile Text.isBlank name := by
    rw [Text.trim, Text.trimBy, List.dropWhile_cons_of_neg hblank]
    exact Text.dropEndWhile_append hkept name
  rw [isLengthName, htrim, Text.sameLetters, beq_eq_false_iff_ne]
  intro hsame
  exact hletter (List.cons.inj hsame).1

/-- How the words for the methods begin. -/
theorem exists_name_eq_cons (method : Method) :
    ∃ d rest, method.name = d :: rest ∧ ¬ Text.isBlank d = true ∧ d ≠ 'C' := by
  cases method <;> exact ⟨_, _, rfl, by decide, by decide⟩

/-- **The request line gives no length.** -/
theorem lengthIn?_requestLine {line : Text} {asked : Method × Text}
    (h : parseLine line = .ok asked) : lengthIn? line = none := by
  obtain ⟨method, target⟩ := asked
  obtain ⟨word, last, rfl, -, -, hmethod, -⟩ := parseLine_eq_ok_iff.mp h
  obtain ⟨d, rest, hname, hd, hcapital⟩ := exists_name_eq_cons method
  rw [hname] at hmethod
  cases word with
  | nil => exact absurd hmethod (List.cons_ne_nil d rest).symm
  | cons c word =>
      rw [Text.upper, List.flatMap_cons, ← Text.upper] at hmethod
      have hblank : ¬ Text.isBlank c = true := by
        intro hc
        rw [Text.upperOf_of_isBlank hc] at hmethod
        obtain ⟨rfl, -⟩ := List.cons.inj hmethod
        exact hd hc
      have hletter : Text.lowerAscii c ≠ 'c' := by
        intro hc
        rw [Text.upperOf_of_lowerAscii_eq (d := 'C') (by decide) hc] at hmethod
        exact hcapital (List.cons.inj hmethod).1.symm
      unfold lengthIn?
      cases hcut : Text.cut ':' (c :: word ++ ' ' :: (target ++ ' ' :: last)) with
      | none => rfl
      | some entry =>
          obtain ⟨name, value⟩ := entry
          obtain ⟨hsides, -⟩ := Text.cut_eq_some_iff.mp hcut
          have hname : isLengthName name = false := by
            cases name with
            | nil => rfl
            | cons d name =>
                obtain ⟨rfl, -⟩ := List.cons.inj hsides
                exact isLengthName_cons hblank hletter name
          rw [Option.bind_some, hname]
          rfl

/-! ## Both readers -/

/-- The length of the body by which a request is complete. -/
def bodyLength? (received : Bytes) : Option Nat :=
  (Http.headerEnd? received).map fun size => Http.declaredLength (received.take size)

/-- The lines of a header if each line feed ends one. -/
def brokenLines (head : Text) : List Text := (headerLines head).flatMap (Text.splitOn '\n')

/-- Without further line feeds these are the lines of the header. -/
theorem brokenLines_eq {head : Text} (h : ∀ line ∈ headerLines head, '\n' ∉ line) :
    brokenLines head = headerLines head := by
  have hone : (headerLines head).flatMap (Text.splitOn '\n') =
      (headerLines head).flatMap fun line => [line] :=
    List.flatMap_congr fun line hline => Text.splitOn_of_not_mem (h line hline)
  rw [brokenLines, hone, List.flatMap_singleton']

/-- The empty line behind a header gives no length. -/
theorem lengthsIn_blankLine (head : Text) :
    lengthsIn (Text.lines (head ++ Http.blankLine)) = lengthsIn (brokenLines head) := by
  rw [Text.lines_blankLine, lengthsIn, List.filterMap_append, lengthsIn, brokenLines]
  exact List.append_nil _

/-- The length that a complete request is taken to have is less than the largest size. -/
theorem exists_declaredLength_lt {received : Bytes} {limit : Nat} (hlimit : limit ≤ Number.maxSize)
    (hcomplete : Http.progress received limit = .complete) :
    ∃ size, Http.headerEnd? received = some size ∧
      Http.declaredLength (received.take size) < Number.maxSize := by
  obtain ⟨head, body, rest, rfl, hend, hbody, hle⟩ := Http.exists_of_progress_complete hcomplete
  have htake : (head ++ body ++ rest).take head.length = head := by
    rw [List.append_assoc, List.take_left]
  have hfour := Http.le_length_of_suffix (Http.headerEnd?_eq_some_iff.mp hend).2.1
  rw [htake] at hfour
  refine ⟨head.length, hend, ?_⟩
  rw [htake]
  omega

/-- **The length by which a request is complete is that of the first line that gives one, and the
length in the request is that of the last one. The first reader also ends lines at line feeds
alone, and looks at the request line. So where no line has a further line feed, both agree exactly
if the first and the last value stand for one length.** -/
theorem contentLength_eq_iff {received : Bytes} {limit : Nat} {request : Request}
    (hlimit : limit ≤ Number.maxSize) (hcomplete : Http.progress received limit = .complete)
    (hparse : parse received = .ok request) :
    ∃ head body, received = Utf8.encode (head ++ Http.blankLine ++ body) ∧
      Http.headerEnd? received = some (Utf8.encode (head ++ Http.blankLine)).length ∧
      bodyLength? received = some (lengthOf (lengthsIn (brokenLines head)).head?) ∧
      request.contentLength = lengthOf (lengthsIn (headerLines head).tail).getLast? ∧
      ((∀ line ∈ headerLines head, '\n' ∉ line) →
        (bodyLength? received = some request.contentLength ↔
          lengthOf (lengthsIn (headerLines head)).head? =
            lengthOf (lengthsIn (headerLines head)).getLast?)) := by
  obtain ⟨size, hend, hless⟩ := exists_declaredLength_lt hlimit hcomplete
  obtain ⟨head, body, line, lines, asked, rfl, hsize, hlines, hline, rfl⟩ :=
    exists_of_parse_eq_ok hend hparse
  rw [hsize] at hend hless
  have htake : (Utf8.encode (head ++ Http.blankLine ++ body)).take
      (Utf8.encode (head ++ Http.blankLine)).length = Utf8.encode (head ++ Http.blankLine) := by
    rw [Utf8.encode_append (head ++ Http.blankLine), List.take_left]
  rw [htake] at hless
  have hfirst : bodyLength? (Utf8.encode (head ++ Http.blankLine ++ body)) =
      some (lengthOf (lengthsIn (brokenLines head)).head?) := by
    rw [bodyLength?, hend, Option.map_some, htake, declaredLength_eq hless, lengthsIn_blankLine]
  have hlast : (ofParts asked (lines.foldl Header.addLine {})
      (Text.dropEndWhile (fun c => decide (c = '\x00')) body)).contentLength =
        lengthOf (lengthsIn (headerLines head).tail).getLast? := by
    rw [ofParts, contentLength_foldl, hlines, List.tail_cons]
    cases (lengthsIn lines).getLast? <;> rfl
  refine ⟨head, body, rfl, hend, hfirst, hlast, fun hfeeds => ?_⟩
  -- the request line gives no length to the first reader either
  have htail : lengthsIn (headerLines head) = lengthsIn (headerLines head).tail := by
    rw [hlines, lengthsIn, List.filterMap_cons, lengthIn?_requestLine hline]
    rfl
  rw [hfirst, hlast, brokenLines_eq hfeeds, Option.some.injEq, htail]

/-- A request with two lines that give a length, and a body of two bytes. -/
def twoLengths (first second : Text) : Bytes :=
  Utf8.encode ("POST / HTTP/1.1\r\nContent-Length: ".toList ++ first ++
    "\r\nContent-Length: ".toList ++ second ++ "\r\n\r\nab".toList)

/-- What is read of it. -/
def readLengths (length : Nat) : Request where
  method := .post
  target := "/"
  userAgent := []
  encodings := []
  query := []
  form := []
  cookies := []
  contentLength := length

/-- Both readers agree where the two lines give one length in different words. -/
theorem contentLength_eq_iff_sample :
    128 ≤ Number.maxSize ∧ Http.progress (twoLengths "2" "+2") 128 = .complete ∧
      parse (twoLengths "2" "+2") = .ok (readLengths 2) ∧
      ∃ head body, twoLengths "2" "+2" = Utf8.encode (head ++ Http.blankLine ++ body) ∧
        Http.headerEnd? (twoLengths "2" "+2") =
          some (Utf8.encode (head ++ Http.blankLine)).length ∧
        some 2 = some (lengthOf (lengthsIn (brokenLines head)).head?) ∧
        2 = lengthOf (lengthsIn (headerLines head).tail).getLast? := by
  have hcomplete : Http.progress (twoLengths "2" "+2") 128 = .complete := by decide +kernel
  have hparse : parse (twoLengths "2" "+2") = .ok (readLengths 2) := by decide +kernel
  have hlength : bodyLength? (twoLengths "2" "+2") = some 2 := by decide +kernel
  obtain ⟨head, body, hreceived, hend, hfirst, hlast, -⟩ :=
    contentLength_eq_iff (by decide) hcomplete hparse
  exact ⟨by decide, hcomplete, hparse, head, body, hreceived, hend, hlength.symm.trans hfirst,
    hlast⟩

/-- Two lines that give different lengths: the readers do not agree. -/
theorem two_lengths :
    ¬ ∀ received limit request, limit ≤ Number.maxSize →
      Http.progress received limit = .complete → parse received = .ok request →
        bodyLength? received = some request.contentLength := by
  intro h
  have hagree := h (twoLengths "2" "5") 128 (readLengths 5) (by decide) (by decide +kernel)
    (by decide +kernel)
  have hlength : bodyLength? (twoLengths "2" "5") = some 2 := by decide +kernel
  rw [hlength] at hagree
  exact absurd hagree (by decide)

end Request
end PageServer
