/-
# The header of a request

The header of a request ends at its first empty line, whether that is looked
for in the bytes or in the text they stand for. What is read of a request comes
from the lines before it, and from the body for a form.

* `Http.headerEnd?_encode`: the end of the header in the bytes of a text
* `Method.ofName?_eq_some_iff`, `Request.parseLine_eq_ok_iff`: the request line
* `Request.headerLines_append`: the lines of a header
* `Request.ofParts`: a request by its request line, its header entries and its body
* `Request.parse_encode_eq`, `Request.exists_of_parse_eq_ok`: what is read of the bytes
-/
import PageServer.Http.Request
import PageServer.Proofs.Http.Framing
import PageServer.Proofs.Text.Cutting
import PageServer.Proofs.Text.Letters
import PageServer.Proofs.Text.ValidBytes

namespace PageServer

/-! ## Where the header ends -/

namespace Http

/-- The end of the last line of a header and the empty line behind it, as a text. -/
def blankLine : Text := lineEnd ++ lineEnd

/-- Its bytes. -/
theorem encode_blankLine : Utf8.encode blankLine = emptyLine := by decide

/-- The bytes of a character but the first are not those of an ASCII character. -/
theorem ascii_lt_of_mem_encodeChar {c : Char} {lead b : UInt8} {others : Bytes}
    (h : String.utf8EncodeChar c = lead :: others) (hb : b ∈ others) : 0x80 ≤ b.toNat := by
  have hsix (n : Nat) : (UInt8.ofNat (n % 64 + 128)).toNat = n % 64 + 128 :=
    Utf8.toNat_byte (by omega)
  unfold String.utf8EncodeChar at h
  dsimp only at h
  split_ifs at h <;> obtain ⟨-, rfl⟩ := List.cons.inj h <;>
    simp only [List.mem_cons, List.not_mem_nil, or_false] at hb
  · rw [hb, hsix]
    omega
  · rcases hb with rfl | rfl <;> rw [hsix] <;> omega
  · rcases hb with rfl | rfl | rfl <;> rw [hsix] <;> omega

/-- Bytes beyond ASCII are passed over. -/
theorem headerEnd?_skip {skipped : Bytes} (h : ∀ b ∈ skipped, 0x80 ≤ b.toNat) (rest : Bytes) :
    headerEnd? (skipped ++ rest) = (headerEnd? rest).map fun n => n + skipped.length := by
  induction skipped with
  | nil => simp
  | cons b skipped ih =>
      obtain ⟨hb, hskipped⟩ := List.forall_mem_cons.mp h
      have hstart : ¬ emptyLine <+: b :: (skipped ++ rest) := by
        intro hbegins
        obtain ⟨rfl, -⟩ := List.cons_prefix_cons.mp hbegins
        exact absurd hb (by decide)
      rw [List.cons_append, headerEnd?_cons, if_neg hstart, ih hskipped, Option.map_map]
      rfl

/-- **The header of the bytes of a text ends at the first empty line of the text.** -/
theorem headerEnd?_encode (t : Text) :
    headerEnd? (Utf8.encode t) =
      (Text.cutAt blankLine t).map fun sides => (Utf8.encode (sides.1 ++ blankLine)).length := by
  induction t with
  | nil => rfl
  | cons c t ih =>
      obtain ⟨lead, others, hbytes, -⟩ := Utf8.sequence_encodeChar c []
      have hencode : Utf8.encode (c :: t) = lead :: (others ++ Utf8.encode t) := by
        rw [Utf8.encode, List.flatMap_cons, hbytes, List.cons_append]
        rfl
      have hstart : emptyLine <+: lead :: (others ++ Utf8.encode t) ↔ blankLine <+: c :: t := by
        rw [← hencode, ← encode_blankLine, Utf8.encode_prefix_iff]
      rw [hencode, headerEnd?_cons, Text.cutAt]
      cases hafter : Text.after? blankLine (c :: t) with
      | some rest =>
          rw [if_pos (hstart.mpr ⟨rest, (Text.after?_eq_some_iff.mp hafter).symm⟩)]
          rfl
      | none =>
          rw [if_neg (mt hstart.mp (Text.after?_eq_none_iff.mp hafter)),
            headerEnd?_skip fun b hb => ascii_lt_of_mem_encodeChar hbytes hb, ih, Option.map_map,
            Option.map_map, Option.map_map]
          congr 1
          funext sides
          have hone : (Utf8.encode (c :: (sides.1 ++ blankLine))).length =
              1 + others.length + (Utf8.encode (sides.1 ++ blankLine)).length := by
            rw [Utf8.encode, List.flatMap_cons, hbytes, List.length_append, List.length_cons,
              Nat.add_comm others.length]
            rfl
          simp only [Function.comp_apply, List.cons_append, hone]
          omega

end Http

/-! ## The request line -/

/-- The names of the methods are in capitals. -/
theorem Method.isCapital_of_mem_name {method : Method} {c : Char} (h : c ∈ method.name) :
    Text.IsCapital c := by
  have hall : (method.name.all fun c => decide (Text.IsCapital c)) = true := by
    cases method <;> decide
  exact of_decide_eq_true (List.all_eq_true.mp hall c h)

/-- The words for a method are those with its name in upper case. -/
theorem Method.ofName?_eq_some_iff {word : Text} {method : Method} :
    ofName? word = some method ↔ Text.upper word = method.name := by
  unfold ofName?
  constructor
  · intro h
    simpa [eq_comm] using List.find?_some h
  · intro h
    rw [h]
    cases method <;> rfl

namespace Request

/-- **A request line is a word for a method, an address and the version, with a space between
neighbours. The address may hold spaces.** -/
theorem parseLine_eq_ok_iff {line : Text} {method : Method} {target : Text} :
    parseLine line = .ok (method, target) ↔
      ∃ word last, line = word ++ ' ' :: (target ++ ' ' :: last) ∧ ' ' ∉ word ∧ ' ' ∉ last ∧
        Text.upper word = method.name ∧ Text.upper last = "HTTP/" ++ version := by
  have hspace : ∀ pieces, Text.join " " pieces = Text.join [' '] pieces := fun _ => rfl
  constructor
  · intro h
    have hjoin := Text.join_splitOn ' ' line
    have hpieces : ∀ piece ∈ Text.splitOn ' ' line, ' ' ∉ piece :=
      fun _ => Text.not_mem_of_mem_splitOn
    unfold parseLine at h
    split at h
    case h_2 => simp at h
    case h_1 word second rest hline =>
      split at h
      case h_1 => simp at h
      case h_2 last hlast =>
        split at h
        case h_1 => simp at h
        case h_2 found hfound =>
          split_ifs at h with hversion
          obtain ⟨rfl, rfl⟩ := Prod.mk.inj (Except.ok.inj h)
          obtain ⟨middle, rfl⟩ := List.getLast?_eq_some_iff.mp hlast
          rw [hline] at hjoin hpieces
          refine ⟨word, last, ?_, hpieces word (by simp), hpieces last (by simp),
            Method.ofName?_eq_some_iff.mp hfound, hversion⟩
          rw [← hjoin, Text.join_cons (List.cons_ne_nil _ _), ← List.cons_append,
            Text.join_concat (List.cons_ne_nil _ _), List.dropLast_concat, hspace]
  · rintro ⟨word, last, rfl, hword, hlast, hmethod, hversion⟩
    obtain ⟨second, others, htarget⟩ := List.exists_cons_of_ne_nil (Text.splitOn_ne_nil ' ' target)
    have hline : Text.splitOn ' ' (word ++ ' ' :: (target ++ ' ' :: last)) =
        word :: second :: (others ++ [last]) := by
      rw [Text.splitOn_cons_of_not_mem hword, Text.splitOn_append, htarget,
        Text.splitOn_of_not_mem hlast]
      rfl
    have hjoin : Text.join [' '] (second :: others) = target := by
      rw [← htarget, Text.join_splitOn]
    unfold parseLine
    rw [hline]
    simp only [List.getLast?_concat, Method.ofName?_eq_some_iff.mpr hmethod, hversion, if_true,
      List.dropLast_concat, hspace, hjoin]


/-! ## The lines of a header -/

/-- There is always a first line. -/
theorem headerLines_ne_nil (t : Text) : headerLines t ≠ [] := by
  fun_cases headerLines t <;> simp

/-- A character that starts no line end belongs to the first line. -/
theorem headerLines_cons {c : Char} {t : Text} (h : ¬ Http.lineEnd <+: c :: t) :
    headerLines (c :: t) = (headerLines t).modifyHead (c :: ·) := by
  rw [headerLines]
  · cases hlines : headerLines t with
    | nil => exact absurd hlines (headerLines_ne_nil t)
    | cons line lines => rfl
  · rintro rest rfl rfl
    exact h ⟨rest, rfl⟩

/-- No line end starts in front of the end of a line. -/
theorem not_begins_lineEnd {c : Char} {line : Text} (h : '\n' ∉ c :: line) (rest : Text) :
    ¬ Http.lineEnd <+: c :: (line ++ Http.lineEnd ++ rest) := by
  obtain ⟨-, hline⟩ := List.ne_and_not_mem_of_not_mem_cons h
  intro hbegins
  obtain ⟨-, hfeed⟩ := List.cons_prefix_cons.mp hbegins
  cases line with
  | nil => exact absurd (List.cons_prefix_cons.mp hfeed).1 (by decide)
  | cons d line =>
      obtain ⟨rfl, -⟩ := List.cons_prefix_cons.mp hfeed
      exact hline List.mem_cons_self

/-- A line ends at the first line end behind it. -/
theorem headerLines_append {line : Text} (h : '\n' ∉ line) (rest : Text) :
    headerLines (line ++ Http.lineEnd ++ rest) = line :: headerLines rest := by
  induction line with
  | nil => rfl
  | cons c line ih =>
      obtain ⟨-, hline⟩ := List.ne_and_not_mem_of_not_mem_cons h
      rw [List.cons_append, List.cons_append, headerLines_cons (not_begins_lineEnd h rest),
        ih hline]
      rfl

/-- A text without line feeds is one line. -/
theorem headerLines_of_not_mem {t : Text} (h : '\n' ∉ t) : headerLines t = [t] := by
  induction t with
  | nil => rfl
  | cons c t ih =>
      have hstart : ¬ Http.lineEnd <+: c :: t :=
        fun hbegins => h (hbegins.subset (by decide))
      obtain ⟨-, ht⟩ := List.ne_and_not_mem_of_not_mem_cons h
      rw [headerLines_cons hstart, ih ht]
      rfl

/-! ## What is read -/

/-- The request for an address with what the header entries say and a body. -/
def ofParts (asked : Method × Text) (header : Header) (body : Text) : Request where
  method := asked.1
  target := asked.2
  userAgent := header.userAgent
  encodings := header.encodings
  query := Query.read (Query.splitAddress asked.2).2
  form :=
    if asked.1 = .post ∧ Text.startsWith formType header.contentType then Query.read body else []
  cookies := header.cookies
  contentLength := header.contentLength

/-- What is read of a text with a header and a body. -/
theorem ofText_eq {text head body line : Text} {lines : List Text}
    (hcut : Text.cutAt Http.blankLine text = some (head, body))
    (hlines : headerLines head = line :: lines) :
    ofText text =
      (parseLine line).map fun asked => ofParts asked (lines.foldl Header.addLine {}) body := by
  have hsides : (Text.cutAt (Http.lineEnd ++ Http.lineEnd) text).getD (text, []) = (head, body) :=
    congrArg (Option.getD · (text, [])) hcut
  unfold ofText
  rw [hsides]
  dsimp only
  rw [hlines]
  dsimp only
  cases parseLine line <;> rfl

/-- **What is read of the bytes of a header and a body: null characters at the end of the body do
not count.** -/
theorem parse_encode_eq {text head body line : Text} {lines : List Text}
    (hcut : Text.cutAt Http.blankLine text = some (head, body))
    (hlines : headerLines head = line :: lines) :
    parse (Utf8.encode text) =
      (parseLine line).map fun asked =>
        ofParts asked (lines.foldl Header.addLine {})
          (Text.dropEndWhile (fun c => decide (c = '\x00')) body) := by
  obtain ⟨rfl, -⟩ := Text.eq_of_cutAt hcut
  have hend : ∀ c ∈ (head ++ Http.blankLine).getLast?, ¬ decide (c = '\x00') = true := by
    have hlast : (head ++ Http.blankLine).getLast? = some '\n' :=
      List.getLast?_append_of_ne_nil head (List.cons_ne_nil _ _)
    rw [hlast]
    rintro _ ⟨⟩
    decide
  rw [parse, Utf8.decode?_encode]
  dsimp only
  rw [Text.dropEndWhile_append hend]
  exact ofText_eq (Text.cutAt_append_of_cutAt hcut _) hlines

/-- **A request that is read from bytes with a whole header is read from the lines of this header
and from the body.** -/
theorem exists_of_parse_eq_ok {received : Bytes} {size : Nat} {request : Request}
    (hend : Http.headerEnd? received = some size) (h : parse received = .ok request) :
    ∃ head body line lines asked, received = Utf8.encode (head ++ Http.blankLine ++ body) ∧
      size = (Utf8.encode (head ++ Http.blankLine)).length ∧ headerLines head = line :: lines ∧
      parseLine line = .ok asked ∧
      request = ofParts asked (lines.foldl Header.addLine {})
        (Text.dropEndWhile (fun c => decide (c = '\x00')) body) := by
  cases htext : Utf8.decode? received with
  | none => simp [parse, htext] at h
  | some text =>
      obtain rfl := Utf8.decode?_eq_some_iff.mp htext
      rw [Http.headerEnd?_encode] at hend
      obtain ⟨⟨head, body⟩, hcut, rfl⟩ := Option.map_eq_some_iff.mp hend
      obtain ⟨line, lines, hlines⟩ := List.exists_cons_of_ne_nil (headerLines_ne_nil head)
      rw [parse_encode_eq hcut hlines] at h
      cases hline : parseLine line with
      | error fault => simp [hline, Except.map] at h
      | ok asked =>
          rw [hline] at h
          exact ⟨head, body, line, lines, asked, by rw [(Text.eq_of_cutAt hcut).1], rfl, hlines,
            hline, (Except.ok.inj h).symm⟩

end Request
end PageServer
