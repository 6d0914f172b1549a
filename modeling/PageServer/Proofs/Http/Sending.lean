/-
# Requests that are sent and read

A client sends a request line, a line with its cookies, and with a form its
type and the form itself behind an empty line. What is read of these bytes is
what the client has written.

* `Request.cutAt_ended`: lines that are not empty end at the empty line behind them
* `Request.Sent`: what a client sends
* `Request.Sent.parse_encode`: what is read of it
-/
import PageServer.Proofs.Http.Cookies
import PageServer.Proofs.Http.Header
import PageServer.Proofs.Http.Query

namespace PageServer

namespace Request

/-! ## Lines behind each other -/

/-- Lines are read as they were joined. -/
theorem headerLines_join {lines : List Text} (h : ∀ line ∈ lines, '\n' ∉ line) (hne : lines ≠ []) :
    headerLines (Text.join Http.lineEnd lines) = lines := by
  induction lines with
  | nil => contradiction
  | cons line lines ih =>
      obtain ⟨hline, hlines⟩ := List.forall_mem_cons.mp h
      cases lines with
      | nil =>
          rw [Text.join, List.intercalate_singleton]
          exact headerLines_of_not_mem hline
      | cons next lines =>
          rw [Text.join, List.intercalate_cons_cons, headerLines_append hline]
          exact congrArg (line :: ·) (ih hlines (List.cons_ne_nil next lines))

/-- No empty line starts within a line. -/
theorem cutAt_line {line : Text} (h : '\n' ∉ line) (rest : Text) :
    Text.cutAt Http.blankLine (line ++ Http.lineEnd ++ rest) =
      (Text.cutAt Http.blankLine (Http.lineEnd ++ rest)).map fun sides =>
        (line ++ sides.1, sides.2) := by
  induction line with
  | nil => simp
  | cons c line ih =>
      obtain ⟨-, hline⟩ := List.ne_and_not_mem_of_not_mem_cons h
      have hnone : Text.after? Http.blankLine (c :: (line ++ Http.lineEnd ++ rest)) = none := by
        rw [Text.after?_eq_none_iff]
        intro hbegins
        exact not_begins_lineEnd h rest ((List.prefix_append _ _).trans hbegins)
      rw [List.cons_append, List.cons_append, Text.cutAt, hnone]
      dsimp only
      rw [ih hline, Option.map_map]
      rfl

/-- No empty line starts at a line end before another line. -/
theorem cutAt_lineEnd {rest : Text} (h : ¬ Http.lineEnd <+: rest) :
    Text.cutAt Http.blankLine (Http.lineEnd ++ rest) =
      (Text.cutAt Http.blankLine rest).map fun sides => (Http.lineEnd ++ sides.1, sides.2) := by
  have hreturn : Text.after? Http.blankLine ('\r' :: '\n' :: rest) = none := by
    rw [Text.after?_eq_none_iff]
    exact fun hbegins => h ((List.prefix_append_right_inj Http.lineEnd).mp hbegins)
  have hfeed : Text.after? Http.blankLine ('\n' :: rest) = none := by
    rw [Text.after?_eq_none_iff]
    exact fun hbegins => absurd (List.cons_prefix_cons.mp hbegins).1 (by decide)
  show Text.cutAt Http.blankLine ('\r' :: '\n' :: rest) = _
  rw [Text.cutAt, hreturn, Text.cutAt, hfeed]
  dsimp only
  rw [Option.map_map]
  rfl

/-- Some lines with their ends. -/
def ended (lines : List Text) : Text := lines.flatMap fun line => line ++ Http.lineEnd

theorem ended_cons_append (line : Text) (lines : List Text) (rest : Text) :
    ended (line :: lines) ++ rest = line ++ Http.lineEnd ++ (ended lines ++ rest) := by
  rw [ended, List.flatMap_cons, List.append_assoc, ended]

/-- **Lines of which only the first may be empty end at the empty line behind them.** -/
theorem cutAt_ended {line : Text} {lines : List Text} (hline : '\n' ∉ line)
    (h : ∀ line ∈ lines, '\n' ∉ line ∧ line ≠ []) (body : Text) :
    Text.cutAt Http.blankLine (ended (line :: lines) ++ (Http.lineEnd ++ body)) =
      some (Text.join Http.lineEnd (line :: lines), body) := by
  induction lines generalizing line with
  | nil =>
      have hempty : Text.cutAt Http.blankLine Http.blankLine = some ([], []) := by decide
      have hend : Text.cutAt Http.blankLine (Http.lineEnd ++ (Http.lineEnd ++ body)) =
          some ([], body) := Text.cutAt_append_of_cutAt hempty body
      rw [ended_cons_append, cutAt_line hline, ended, List.flatMap_nil, List.nil_append, hend]
      simp [Text.join]
  | cons next lines ih =>
      obtain ⟨⟨hnext, hfilled⟩, hlines⟩ := List.forall_mem_cons.mp h
      have hstart : ¬ Http.lineEnd <+: ended (next :: lines) ++ (Http.lineEnd ++ body) := by
        obtain ⟨c, next, rfl⟩ := List.exists_cons_of_ne_nil hfilled
        rw [ended_cons_append]
        exact not_begins_lineEnd hnext _
      rw [ended_cons_append, cutAt_line hline, cutAt_lineEnd hstart, ih hnext hlines,
        Option.map_some, Option.map_some, Text.join, Text.join, List.intercalate_cons_cons,
        List.append_assoc]

/-! ## What a client sends -/

/-- What a client sends: a word for the method in any case, an address in one line, cookies, and a
form. -/
structure Sent where
  /-- The word for the method. -/
  word : Text
  /-- The method. -/
  method : Method
  /-- The address, with its query; it may hold spaces. -/
  target : Text
  /-- The cookies. -/
  cookies : List (Text × Text)
  /-- The form, which is sent if the method is for it. -/
  form : List (Text × Text)
  /-- The word is that of the method. -/
  word_letters : Text.sameLetters word method.name = true
  /-- The address stands in one line. -/
  target_line : '\n' ∉ target
  /-- The cookies fit into a line. -/
  cookies_fit : ∀ pair ∈ cookies, IsCookie pair

namespace Sent

/-- The request line. -/
def line (sent : Sent) : Text := sent.word ++ ' ' :: (sent.target ++ ' ' :: "HTTP/1.1".toList)

/-- The line with the cookies. -/
def cookieLine (sent : Sent) : Text := "Cookie".toList ++ ':' :: ' ' :: writeCookies sent.cookies

/-- The line with the type of a form. -/
def typeLine : Text := "Content-Type".toList ++ ':' :: ' ' :: formType

/-- The header entries. -/
def entries (sent : Sent) : List Text :=
  sent.cookieLine :: if sent.method = .post then [typeLine] else []

/-- The header with the empty line behind it. -/
def header (sent : Sent) : Text := ended (sent.line :: sent.entries) ++ Http.lineEnd

/-- The body. -/
def body (sent : Sent) : Text := if sent.method = .post then Query.write sent.form else []

/-- All that is sent. -/
def text (sent : Sent) : Text := sent.header ++ sent.body

/-- What its header entries say. -/
def said (sent : Sent) : Header where
  cookies := Table.ofList sent.cookies
  contentType := if sent.method = .post then formType else []

/-- The word in upper case is the name of the method. -/
theorem upper_word (sent : Sent) : Text.upper sent.word = sent.method.name :=
  Text.upper_eq_of_sameLetters (fun _ => Method.isCapital_of_mem_name) sent.word_letters

/-- The word holds no space and no line feed. -/
theorem not_mem_word (sent : Sent) {c : Char} (hc : c ∈ [' ', '\n']) : c ∉ sent.word := by
  have hblank : Text.isBlank c = true ∧ ¬ Text.IsCapital c := by
    rcases List.mem_pair.mp hc with rfl | rfl <;> exact ⟨by decide, by decide⟩
  intro hmem
  have hupper := Text.mem_upper (Text.upperOf_of_isBlank hblank.1) hmem
  rw [sent.upper_word] at hupper
  exact hblank.2 (Method.isCapital_of_mem_name hupper)

/-- The request line is read. -/
theorem parseLine_line (sent : Sent) : parseLine sent.line = .ok (sent.method, sent.target) :=
  parseLine_eq_ok_iff.mpr ⟨sent.word, "HTTP/1.1".toList, rfl, sent.not_mem_word (by decide),
    by decide, sent.upper_word, by decide +kernel⟩

/-- The line with the cookies is read. -/
theorem addLine_cookieLine (sent : Sent) (header : Header) :
    header.addLine sent.cookieLine =
      { header with
        cookies := sent.cookies.foldl (fun table pair => table.insert pair.1 pair.2)
          header.cookies } := by
  have hcut : Text.cut ':' sent.cookieLine =
      some ("Cookie".toList, ' ' :: writeCookies sent.cookies) := Text.cut_append (by decide) _
  have hname : Text.lower (Text.trim "Cookie".toList) = "cookie".toList := by decide
  unfold Header.addLine
  rw [hcut]
  dsimp only
  rw [hname, if_neg (by decide), if_neg (by decide), if_pos rfl,
    trim_writeCookies sent.cookies_fit, cookiePairs_writeCookies sent.cookies_fit]

/-- The line with the type of a form is read. -/
theorem addLine_typeLine (header : Header) :
    header.addLine typeLine = { header with contentType := formType } := by
  have hcut : Text.cut ':' typeLine = some ("Content-Type".toList, ' ' :: formType) :=
    Text.cut_append (by decide) _
  have hname : Text.lower (Text.trim "Content-Type".toList) = "content-type".toList := by decide
  have hvalue : Text.lower (Text.trim (' ' :: formType)) = formType := by decide
  unfold Header.addLine
  rw [hcut]
  dsimp only
  rw [hname, if_neg (by decide), if_neg (by decide), if_neg (by decide), if_pos rfl, hvalue]

/-- The header entries are read. -/
theorem foldl_entries (sent : Sent) : sent.entries.foldl Header.addLine {} = sent.said := by
  rw [entries, List.foldl_cons, addLine_cookieLine, said]
  by_cases h : sent.method = .post
  · rw [if_pos h, if_pos h, List.foldl_cons, List.foldl_nil, addLine_typeLine]
    rfl
  · rw [if_neg h, if_neg h]
    rfl

/-- The request line is one line. -/
theorem not_mem_line (sent : Sent) : '\n' ∉ sent.line := by
  have hversion : '\n' ∉ "HTTP/1.1".toList := by decide
  have hword : '\n' ∉ sent.word := sent.not_mem_word (by decide)
  have htarget : '\n' ∉ sent.target ++ ' ' :: "HTTP/1.1".toList :=
    List.not_mem_append sent.target_line (List.not_mem_cons_of_ne_of_not_mem (by decide) hversion)
  exact List.not_mem_append hword (List.not_mem_cons_of_ne_of_not_mem (by decide) htarget)

/-- The header entries are lines that are not empty. -/
theorem entries_lines (sent : Sent) : ∀ line ∈ sent.entries, '\n' ∉ line ∧ line ≠ [] := by
  have hvalue := not_mem_writeCookies sent.cookies_fit
  have hcookies : '\n' ∉ sent.cookieLine :=
    List.not_mem_append (by decide) (List.not_mem_cons_of_ne_of_not_mem (by decide)
      (List.not_mem_cons_of_ne_of_not_mem (by decide) hvalue))
  have htype : '\n' ∉ typeLine := by decide
  intro line hline
  rcases List.mem_cons.mp hline with rfl | hline
  · exact ⟨hcookies, List.append_ne_nil_of_left_ne_nil (by decide) _⟩
  · by_cases hpost : sent.method = .post
    · rw [if_pos hpost, List.mem_singleton] at hline
      rw [hline]
      exact ⟨htype, List.append_ne_nil_of_left_ne_nil (by decide) _⟩
    · rw [if_neg hpost] at hline
      exact absurd hline List.not_mem_nil

/-- The header ends at the empty line behind the header entries. -/
theorem cutAt_text (sent : Sent) :
    Text.cutAt Http.blankLine sent.text =
      some (Text.join Http.lineEnd (sent.line :: sent.entries), sent.body) := by
  rw [text, header, List.append_assoc]
  exact cutAt_ended sent.not_mem_line sent.entries_lines sent.body

/-- The body starts where the header ends. -/
theorem headerEnd?_text (sent : Sent) :
    Http.headerEnd? (Utf8.encode sent.text) = some (Utf8.encode sent.header).length := by
  have hheader : sent.header =
      Text.join Http.lineEnd (sent.line :: sent.entries) ++ Http.blankLine :=
    List.append_cancel_right (Text.eq_of_cutAt sent.cutAt_text).1
  rw [Http.headerEnd?_encode, sent.cutAt_text, Option.map_some, hheader]

/-- The body ends with no null character. -/
theorem dropEndWhile_body (sent : Sent) :
    Text.dropEndWhile (fun c => decide (c = '\x00')) sent.body = sent.body := by
  have hnull : '\x00' ∉ sent.body := by
    unfold body
    split_ifs
    · exact Query.not_mem_write sent.form
    · exact List.not_mem_nil
  have hlast : ∀ c ∈ sent.body.getLast?, ¬ decide (c = '\x00') = true := by
    intro c hc heq
    rw [of_decide_eq_true heq] at hc
    exact hnull (List.mem_of_getLast? hc)
  simpa [Text.dropEndWhile] using Text.dropEndWhile_append hlast []

/-- What is read of a request that is sent. -/
theorem parse_text (sent : Sent) :
    parse (Utf8.encode sent.text) =
      .ok (ofParts (sent.method, sent.target) sent.said sent.body) := by
  have hfeeds : ∀ line ∈ sent.line :: sent.entries, '\n' ∉ line :=
    List.forall_mem_cons.mpr ⟨sent.not_mem_line, fun line h => (sent.entries_lines line h).1⟩
  have hlines := headerLines_join hfeeds (List.cons_ne_nil _ _)
  rw [parse_encode_eq sent.cutAt_text hlines, sent.parseLine_line, sent.foldl_entries,
    sent.dropEndWhile_body]
  rfl

/-- **What a client sends is read as it was: the method in any case, the address with all its
spaces, the last value of each cookie, and the last value of each name in the form. The query is
what stands behind the first question mark, and the body starts where the header ends.** -/
theorem exists_parse_text (sent : Sent) :
    ∃ request, parse (Utf8.encode sent.text) = .ok request ∧
      request.method = sent.method ∧ request.target = sent.target ∧
      (∀ name, request.cookie? name = Table.last? name sent.cookies) ∧
      (sent.method = .post → ∀ name, request.form.get? name = Table.last? name sent.form) ∧
      (sent.method ≠ .post → request.form = []) ∧
      (∀ path query, '?' ∉ path → sent.target = path ++ '?' :: query →
        request.query = Query.read query) ∧
      ('?' ∉ sent.target → request.query = []) ∧
      ∃ size, Http.headerEnd? (Utf8.encode sent.text) = some size ∧
        (Utf8.encode sent.text).take size = Utf8.encode sent.header ∧
        (Utf8.encode sent.text).drop size = Utf8.encode sent.body := by
  have htext : Utf8.encode sent.text = Utf8.encode sent.header ++ Utf8.encode sent.body :=
    Utf8.encode_append sent.header sent.body
  refine ⟨_, sent.parse_text, rfl, rfl, fun name => ?_, fun hpost name => ?_, fun hother => ?_,
    fun path query hpath htarget => ?_, fun hnone => ?_, _, sent.headerEnd?_text, ?_, ?_⟩
  · exact Table.get?_ofList name sent.cookies
  · have htype : Text.startsWith formType sent.said.contentType = true := by
      have hform : Text.startsWith formType formType = true := by decide
      rwa [said, if_pos hpost]
    rw [ofParts]
    dsimp only
    rw [if_pos ⟨hpost, htype⟩, body, if_pos hpost, Query.get?_read_write]
  · exact if_neg fun h => hother h.1
  · have hcut : Query.splitAddress sent.target = (path, query) := by
      rw [Query.splitAddress, htarget, Text.cut_append hpath, Option.getD_some]
    exact congrArg (fun sides => Query.read sides.2) hcut
  · have hcut : Query.splitAddress sent.target = (sent.target, []) := by
      rw [Query.splitAddress, Text.cut_of_not_mem hnone, Option.getD_none]
    exact congrArg (fun sides => Query.read sides.2) hcut
  · rw [htext, List.take_left]
  · rw [htext, List.drop_left]

/-- A form that is sent to an address with spaces, with two values for a cookie and for a name. -/
def sample : Sent where
  word := "pOst"
  method := .post
  target := "/a b  c?x=1?y"
  cookies := [("t", "dark"), ("t", "a=b:c")]
  form := [("e mail", "ä&b"), ("e mail", "100%+1")]
  word_letters := by decide
  target_line := by decide
  cookies_fit := List.forall_mem_cons.mpr
    ⟨⟨by decide, by decide, by simp, by simp⟩, List.forall_mem_cons.mpr
      ⟨⟨by decide, by decide, by simp, by simp⟩, List.forall_mem_nil IsCookie⟩⟩

/-- The form is read with the last values, and the address with its spaces. -/
theorem exists_parse_text_sample :
    ∃ request, parse (Utf8.encode sample.text) = .ok request ∧
      request.method = .post ∧ request.target = "/a b  c?x=1?y" ∧
      request.cookie? "t" = some "a=b:c".toList ∧
      request.form.get? "e mail" = some "100%+1".toList ∧
      request.query = Query.read "x=1?y" := by
  obtain ⟨request, hparse, hmethod, htarget, hcookie, hform, -, hquery, -, -⟩ :=
    exists_parse_text sample
  refine ⟨request, hparse, hmethod, htarget, ?_, ?_, hquery "/a b  c" "x=1?y" (by decide) rfl⟩
  · rw [hcookie]
    decide
  · rw [hform rfl]
    decide

end Sent

end Request
end PageServer
