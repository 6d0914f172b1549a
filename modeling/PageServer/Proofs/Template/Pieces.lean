/-
# A source and its pieces

A template source is cut into pieces from left to right: what is to be left
alone, tags, and the characters between them. The pieces put together are the
source, each of them is what it has to be at its place, and the tokens are the
pieces in order with neighbouring texts joined.

* `Piece.Starts`: the piece at the start of a text
* `Piece.Reads`: the pieces of a text up to some place
* `Piece.scan_of_reads`, `Piece.exists_reads`: scanning finds them, by induction on the pieces
* `Token.Kind.joined`, `Token.TextsApart`: neighbouring texts as one
* `Token.scan_factorizes`: tokens are a factorization of the source
-/
import Mathlib
import PageServer.Proofs.Template.Tags

namespace PageServer

/-! ## Neighbouring texts -/

namespace Token

/-- A list in which no text is empty, and of two neighbours at most one is a text. -/
structure TextsApart {α : Type} (text? : α → Option Text) (list : List α) : Prop where
  /-- No text is empty. -/
  filled : ∀ a ∈ list, text? a ≠ some []
  /-- No two texts are neighbours. -/
  apart : list.IsChain fun a b => text? a = none ∨ text? b = none

namespace TextsApart

variable {α : Type} {text? : α → Option Text} {a : α} {list : List α}

/-- What follows the first one is apart too. -/
theorem tail (h : TextsApart text? (a :: list)) : TextsApart text? list :=
  ⟨(List.forall_mem_cons.mp h.filled).2, h.apart.tail⟩

/-- A part of the list is apart too. -/
theorem of_isInfix {part : List α} (h : TextsApart text? list) (hpart : part <:+: list) :
    TextsApart text? part :=
  ⟨fun a ha => h.filled a (hpart.subset ha), List.IsChain.infix h.apart hpart⟩

/-- No text follows a text. -/
theorem head?_tail (h : TextsApart text? (a :: list)) {t : Text} (ha : text? a = some t) :
    ∀ next ∈ list.head?, text? next = none := by
  intro next hnext
  obtain ⟨rest, rfl⟩ := List.head?_eq_some_iff.mp hnext
  rcases (List.isChain_cons_cons.mp h.apart).1 with hnone | hnone
  · rw [ha] at hnone
    contradiction
  · exact hnone

/-- A text that is not empty may stand before what is no text, and all else before anything. -/
theorem cons (h : TextsApart text? list) (hfilled : text? a ≠ some [])
    (hhead : text? a = none ∨ ∀ next ∈ list.head?, text? next = none) :
    TextsApart text? (a :: list) := by
  refine ⟨List.forall_mem_cons.mpr ⟨hfilled, h.filled⟩, ?_⟩
  cases list with
  | nil => exact .singleton a
  | cons next rest =>
      refine List.isChain_cons_cons.mpr ⟨?_, h.apart⟩
      exact hhead.imp_right fun hnone => hnone next rfl

end TextsApart

namespace Kind

/-- The text of a token that is one. -/
def text? : Kind → Option Text
  | text t => some t
  | _ => none

/-- Only a text has a text. -/
theorem eq_text_of_text? {kind : Kind} {t : Text} (h : kind.text? = some t) : kind = text t := by
  cases kind <;> first | contradiction | exact congrArg text (Option.some.inj h)

/-- A token before others: a text is joined with a text behind it, and left out if it is empty. -/
def before : Kind → List Kind → List Kind
  | text t, text u :: rest => text (t ++ u) :: rest
  | text [], rest => rest
  | kind, rest => kind :: rest

/-- Tokens in order with neighbouring texts joined. -/
def joined (kinds : List Kind) : List Kind := kinds.foldr before []

@[simp] theorem joined_nil : joined [] = [] := rfl

@[simp] theorem joined_cons (kind : Kind) (kinds : List Kind) :
    joined (kind :: kinds) = before kind (joined kinds) := rfl

/-- What is no text stands alone. -/
theorem before_of_ne_text {kind : Kind} (h : kind.text? = none) (rest : List Kind) :
    before kind rest = kind :: rest := by
  cases kind <;> first | contradiction | rfl

/-- A text before no other text. -/
theorem before_text {t : Text} (ht : t ≠ []) {rest : List Kind}
    (h : ∀ next ∈ rest.head?, next.text? = none) : before (text t) rest = text t :: rest := by
  cases t with
  | nil => contradiction
  | cons c t =>
      cases rest with
      | nil => rfl
      | cons next rest =>
          have hnext := h next rfl
          cases next <;> first | contradiction | rfl

/-- An empty text before others is left out. -/
@[simp] theorem before_empty (rest : List Kind) : before (text []) rest = rest := by
  cases rest with
  | nil => rfl
  | cons next rest => cases next <;> rfl

/-- A token before texts that are apart leaves them apart. -/
theorem textsApart_before (kind : Kind) {rest : List Kind} (h : TextsApart text? rest) :
    TextsApart text? (before kind rest) := by
  cases hkind : kind.text? with
  | none =>
      rw [before_of_ne_text hkind]
      exact h.cons (by simp [hkind]) (Or.inl hkind)
  | some t =>
      obtain rfl := eq_text_of_text? hkind
      by_cases ht : t = []
      · rw [ht, before_empty]
        exact h
      by_cases hhead : ∀ next ∈ rest.head?, next.text? = none
      · rw [before_text ht hhead]
        exact h.cons (by simpa [text?] using ht) (Or.inr hhead)
      · -- the text is joined with the one behind it
        push Not at hhead
        obtain ⟨next, hnext, hsome⟩ := hhead
        obtain ⟨u, hu⟩ := Option.ne_none_iff_exists'.mp hsome
        obtain rfl := eq_text_of_text? hu
        obtain ⟨more, rfl⟩ := List.head?_eq_some_iff.mp hnext
        exact h.tail.cons (by simp [text?, ht]) (Or.inr (h.head?_tail hu))

/-- Joining leaves no empty and no neighbouring texts. -/
theorem textsApart_joined (kinds : List Kind) : TextsApart text? (joined kinds) := by
  induction kinds with
  | nil => exact ⟨by simp, .nil⟩
  | cons kind kinds ih => exact textsApart_before kind ih

end Kind
end Token

/-! ## The piece at the start of a text -/

namespace Piece

open Token.Kind (Spelt)

/-- What a piece is in the tokens, before texts are joined. -/
def kind : Piece → Token.Kind
  | plain c => .text [c]
  | ignored body => .text body
  | tag kind _ => kind

/-- A text that begins with no mark and no tag. -/
structure Unmarked (t : Text) : Prop where
  /-- No block to be left alone starts here. -/
  ignoreStart : ¬ ignoreStart <+: t
  /-- No such block ends here. -/
  ignoreEnd : ¬ ignoreEnd <+: t
  /-- No tag starts here. -/
  tag : ∀ kind written, Spelt kind written → ¬ written <+: t

/-- The piece at the start of a text, and what follows it. -/
inductive Starts : Text → Piece → Text → Prop where
  /-- A character where no mark and no tag starts. -/
  | plain {c : Char} {rest : Text} (h : Unmarked (c :: rest)) : Starts (c :: rest) (.plain c) rest
  /-- A block to be left alone, up to the first mark of an end. -/
  | ignored {body rest : Text} (h : ¬ ignoreEnd <:+: body) :
      Starts (ignoreStart ++ body ++ ignoreEnd ++ rest) (.ignored body) rest
  /-- A tag; the mark of such a block is none. -/
  | tag {kind : Token.Kind} {written rest : Text} (hspelt : Spelt kind written)
      (hmark : written ≠ ignoreStart) : Starts (written ++ rest) (.tag kind written) rest

/-- A place where no piece starts, and why. -/
inductive Stuck : Problem → Text → Prop where
  /-- A block to be left alone has no end. -/
  | unterminated {inside : Text} (h : ¬ ignoreEnd <:+: inside) :
      Stuck .unterminated (ignoreStart ++ inside)
  /-- Such an end has no block before it. -/
  | stray {rest : Text} : Stuck .stray (ignoreEnd ++ rest)

/-- A piece is the start of the text it starts. -/
theorem Starts.source_append {t rest : Text} {piece : Piece} (h : Starts t piece rest) :
    t = piece.source ++ rest := by
  cases h with
  | plain h => rfl
  | ignored h => simp [source]
  | tag hspelt hmark => rfl

/-- A tag starts with a brace. -/
theorem head?_of_spelt {kind : Token.Kind} {written : Text} (h : Spelt kind written) :
    written.head? = some '\x7b' := by
  cases h <;> rfl

/-- A piece is not empty. -/
theorem Starts.source_ne_nil {t rest : Text} {piece : Piece} (h : Starts t piece rest) :
    piece.source ≠ [] := by
  cases h with
  | plain h => exact List.cons_ne_nil _ _
  | ignored h =>
      intro hnil
      exact absurd (List.append_eq_nil_iff.mp (List.append_eq_nil_iff.mp hnil).1).1 (by decide)
  | tag hspelt hmark =>
      rintro rfl
      exact absurd (head?_of_spelt hspelt) (by decide)

/-- Of two texts between braces at one place, neither with a brace inside, each is the other. -/
theorem eq_of_isPrefix {body word t : Text} (hbody : '\x7d' ∉ body) (hword : '\x7d' ∉ word)
    (h : '\x7b' :: body ++ ['\x7d'] <+: t) (h' : '\x7b' :: word ++ ['\x7d'] <+: t) :
    body = word := by
  obtain ⟨rest, rfl⟩ := h
  obtain ⟨rest', hrest'⟩ := h'
  have hcut : Text.cut '\x7d' (body ++ '\x7d' :: rest) = some (body, rest) :=
    Text.cut_append hbody rest
  have hcut' : Text.cut '\x7d' (word ++ '\x7d' :: rest') = some (word, rest') :=
    Text.cut_append hword rest'
  have heq : word ++ '\x7d' :: rest' = body ++ '\x7d' :: rest := by simpa using hrest'
  rw [heq, hcut] at hcut'
  exact (Prod.mk.inj (Option.some.inj hcut')).1

/-- A tag that starts where a block to be left alone does is the mark of that block. -/
theorem eq_ignoreStart_of_isPrefix {kind : Token.Kind} {written rest : Text}
    (h : Spelt kind written) (hbegins : ignoreStart <+: written ++ rest) :
    written = ignoreStart := by
  cases h with
  | ifStart hblank h => exact absurd hbegins (Text.after?_eq_none_iff.mp rfl)
  | elseIf hblank h => exact absurd hbegins (Text.after?_eq_none_iff.mp rfl)
  | @braced _ body h =>
      have hbody : body = "IGNORE" := eq_of_isPrefix h.not_mem (by decide) ⟨rest, rfl⟩ hbegins
      rw [hbody]
      rfl

/-- No tag starts where such a block ends. -/
theorem not_prefix_of_spelt {kind : Token.Kind} {written rest : Text}
    (h : Spelt kind written) : ¬ ignoreEnd <+: written ++ rest := by
  intro hbegins
  cases h with
  | ifStart hblank h => exact absurd hbegins (Text.after?_eq_none_iff.mp rfl)
  | elseIf hblank h => exact absurd hbegins (Text.after?_eq_none_iff.mp rfl)
  | @braced _ body h =>
      have hbody : body = "/IGNORE" := eq_of_isPrefix h.not_mem (by decide) ⟨rest, rfl⟩ hbegins
      have hsome := (Token.Kind.ofBody?_eq_some_iff h.not_mem).mpr h
      have hnone : Token.Kind.ofBody? "/IGNORE" = none := rfl
      rw [hbody, hnone] at hsome
      contradiction

/-! ## The reader of the first piece -/

/-- What begins with no brace begins with no mark and no tag. -/
theorem unmarked_of_ne {c : Char} (hc : c ≠ '\x7b') (rest : Text) : Unmarked (c :: rest) := by
  have hhead : ∀ {mark : Text}, mark.head? = some '\x7b' → ¬ mark <+: c :: rest := by
    rintro mark hmark ⟨tail, htail⟩
    cases mark with
    | nil => contradiction
    | cons d mark =>
        obtain rfl := Option.some.inj hmark
        exact hc (List.cons.inj htail).1.symm
  exact ⟨hhead rfl, hhead rfl, fun kind written h => hhead (head?_of_spelt h)⟩

/-- What the reader of the first piece finds does start the text, and where it fails none does. -/
theorem first_sound (c : Char) (rest : Text) :
    match first c rest with
    | .ok piece => ∃ after, Starts (c :: rest) piece after
    | .error problem => Stuck problem (c :: rest) := by
  unfold first
  by_cases hc : c ≠ '\x7b'
  · rw [if_pos hc]
    exact ⟨rest, .plain (unmarked_of_ne hc rest)⟩
  rw [if_neg hc]
  cases hstart : Text.after? ignoreStart (c :: rest) with
  | some inside =>
      have ht : c :: rest = ignoreStart ++ inside := Text.after?_eq_some_iff.mp hstart
      dsimp only
      cases hcut : Text.cutAt ignoreEnd inside with
      | some sides =>
          obtain ⟨rfl, hbody⟩ := Text.eq_of_cutAt hcut
          refine ⟨sides.2, ?_⟩
          rw [ht, ← List.append_assoc, ← List.append_assoc]
          exact .ignored (hbody (by decide))
      | none =>
          show Stuck .unterminated (c :: rest)
          rw [ht]
          exact .unterminated (Text.cutAt_eq_none_iff.mp hcut)
  | none =>
      by_cases hend : Text.startsWith ignoreEnd (c :: rest) = true
      · obtain ⟨after, hafter⟩ := Text.startsWith_iff.mp hend
        dsimp only
        rw [if_pos hend, ← hafter]
        exact .stray
      dsimp only
      rw [if_neg hend]
      cases hat : Token.Kind.at? (c :: rest) with
      | some found =>
          obtain ⟨written, after, hspelt, heq, hsize⟩ := Token.Kind.at?_eq_some_iff.mp hat
          refine ⟨after, ?_⟩
          rw [heq, hsize, List.take_left]
          apply Starts.tag hspelt
          rintro rfl
          exact Text.after?_eq_none_iff.mp hstart ⟨after, heq.symm⟩
      | none =>
          refine ⟨rest, .plain ⟨Text.after?_eq_none_iff.mp hstart, ?_, ?_⟩⟩
          · exact mt Text.startsWith_iff.mpr hend
          rintro kind written hspelt ⟨after, heq⟩
          rw [Token.Kind.at?_eq_some_iff.mpr ⟨written, after, hspelt, heq.symm, rfl⟩] at hat
          contradiction

/-- A mark or a tag starts with a brace, so the reader looks for them there only. -/
theorem first_of_head {c : Char} {rest t tail : Text} (ht : c :: rest = t ++ tail)
    (hhead : t.head? = some '\x7b') : ¬ c ≠ '\x7b' := by
  cases t with
  | nil => contradiction
  | cons d t =>
      rw [not_not, (List.cons.inj ht).1]
      exact Option.some.inj hhead

/-- The reader of the first piece finds the piece that starts a text. -/
theorem first_of_starts {c : Char} {rest after : Text} {piece : Piece}
    (h : Starts (c :: rest) piece after) : first c rest = .ok piece := by
  generalize ht : c :: rest = t at h
  unfold first
  rw [ht]
  cases h with
  | plain h =>
      obtain ⟨rfl, rfl⟩ := List.cons.inj ht
      by_cases hc : c ≠ '\x7b'
      · exact if_pos hc
      have hend : Text.startsWith ignoreEnd (c :: rest) ≠ true :=
        mt Text.startsWith_iff.mp h.ignoreEnd
      have hat : Token.Kind.at? (c :: rest) = none := by
        by_contra hsome
        obtain ⟨⟨kind, size⟩, hat⟩ := Option.ne_none_iff_exists'.mp hsome
        obtain ⟨written, tail, hspelt, heq, -⟩ := Token.Kind.at?_eq_some_iff.mp hat
        exact h.tag kind written hspelt ⟨tail, heq.symm⟩
      rw [if_neg hc, Text.after?_eq_none_iff.mpr h.ignoreStart, hat]
      exact if_neg hend
  | @ignored body _ h =>
      have hc : ¬ c ≠ '\x7b' := first_of_head (t := ignoreStart) (by simpa using ht) rfl
      have hstart : Text.after? ignoreStart (ignoreStart ++ body ++ ignoreEnd ++ after) =
          some (body ++ ignoreEnd ++ after) := Text.after?_eq_some_iff.mpr (by simp)
      have hcut : Text.cutAt ignoreEnd (body ++ ignoreEnd ++ after) = some (body, after) :=
        Text.cutAt_append (by decide) h after
      rw [if_neg hc, hstart]
      dsimp only
      rw [hcut]
  | @tag kind written _ hspelt hmark =>
      have hc : ¬ c ≠ '\x7b' := first_of_head ht (head?_of_spelt hspelt)
      have hstart : Text.after? ignoreStart (written ++ after) = none :=
        Text.after?_eq_none_iff.mpr (mt (eq_ignoreStart_of_isPrefix hspelt) hmark)
      have hend : Text.startsWith ignoreEnd (written ++ after) ≠ true :=
        mt Text.startsWith_iff.mp (not_prefix_of_spelt hspelt)
      have hat : Token.Kind.at? (written ++ after) = some (kind, written.length) :=
        Token.Kind.at?_eq_some_iff.mpr ⟨written, after, hspelt, rfl, rfl⟩
      rw [if_neg hc, hstart, hat]
      dsimp only
      rw [if_neg hend, List.take_left]

/-- The reader of the first piece fails where no piece starts. -/
theorem first_of_stuck {c : Char} {rest : Text} {problem : Problem}
    (h : Stuck problem (c :: rest)) : first c rest = .error problem := by
  generalize ht : c :: rest = t at h
  unfold first
  rw [ht]
  cases h with
  | @unterminated inside h =>
      have hc : ¬ c ≠ '\x7b' := first_of_head ht rfl
      have hstart : Text.after? ignoreStart (ignoreStart ++ inside) = some inside :=
        Text.after?_eq_some_iff.mpr rfl
      rw [if_neg hc, hstart]
      dsimp only
      rw [Text.cutAt_eq_none_iff.mpr h]
  | @stray after =>
      have hc : ¬ c ≠ '\x7b' := first_of_head ht rfl
      have hstart : Text.after? ignoreStart (ignoreEnd ++ after) = none := rfl
      rw [if_neg hc, hstart]
      exact if_pos (Text.startsWith_iff.mpr ⟨after, rfl⟩)

/-! ## All pieces -/

/-- The pieces of a text from its start to some place. -/
inductive Reads : Text → List Piece → Text → Prop where
  /-- No piece. -/
  | nil {t : Text} : Reads t [] t
  /-- A piece and then others. -/
  | cons {t middle rest : Text} {piece : Piece} {pieces : List Piece}
      (hpiece : Starts t piece middle) (hpieces : Reads middle pieces rest) :
      Reads t (piece :: pieces) rest

/-- The pieces are what they are read from. -/
theorem Reads.source_append {t rest : Text} {pieces : List Piece} (h : Reads t pieces rest) :
    pieces.flatMap source ++ rest = t := by
  induction h with
  | nil => rfl
  | cons hpiece hpieces ih =>
      rw [List.flatMap_cons, List.append_assoc, ih]
      exact hpiece.source_append.symm

/-- Every text can be read to its end, or to a place where no piece starts. -/
theorem exists_reads (t : Text) :
    (∃ pieces, Reads t pieces []) ∨
      ∃ pieces problem rest, Reads t pieces rest ∧ Stuck problem rest := by
  induction hlength : t.length using Nat.strongRecOn generalizing t with
  | ind n ih =>
      cases t with
      | nil => exact Or.inl ⟨[], .nil⟩
      | cons c rest =>
          have hfirst := first_sound c rest
          cases hresult : first c rest with
          | error problem =>
              rw [hresult] at hfirst
              exact Or.inr ⟨[], problem, c :: rest, .nil, hfirst⟩
          | ok piece =>
              rw [hresult] at hfirst
              obtain ⟨after, hpiece⟩ := hfirst
              have hshorter : after.length < n := by
                have hsource := List.length_pos_of_ne_nil hpiece.source_ne_nil
                rw [← hlength, hpiece.source_append, List.length_append]
                omega
              rcases ih after.length hshorter after rfl with
                ⟨pieces, hpieces⟩ | ⟨pieces, problem, last, hpieces, hstuck⟩
              · exact Or.inl ⟨piece :: pieces, .cons hpiece hpieces⟩
              · exact Or.inr ⟨piece :: pieces, problem, last, .cons hpiece hpieces, hstuck⟩

/-- Pieces with their lines, the first one on a given line. -/
def located : Nat → List Piece → List (Piece × Nat)
  | _, [] => []
  | line, piece :: pieces =>
    (piece, line) :: located (line + piece.source.count '\n') pieces

/-- The line behind a character is that behind the text of it. -/
theorem lineAfter_eq (line : Nat) (c : Char) (rest : Text) :
    lineAfter line c + rest.count '\n' = line + (c :: rest).count '\n' := by
  unfold lineAfter
  by_cases hc : c = '\n'
  · rw [if_pos hc, hc, List.count_cons_self]
    omega
  · rw [if_neg hc, List.count_cons_of_ne hc]

/-- Leaving out the rest of a piece goes on behind it. -/
theorem scanFrom_append (line : Nat) (left rest : Text) :
    scanFrom left.length line (left ++ rest) = scanFrom 0 (line + left.count '\n') rest := by
  induction left generalizing line with
  | nil => rfl
  | cons c left ih =>
      rw [List.cons_append, List.length_cons, scanFrom, ih, lineAfter_eq]

/-- Scanning finds the piece at the start and goes on behind it. -/
theorem scanFrom_of_starts {t rest : Text} {piece : Piece} (h : Starts t piece rest) (line : Nat) :
    scanFrom 0 line t =
      (scanFrom 0 (line + piece.source.count '\n') rest).map fun found =>
        (piece, line) :: found := by
  obtain ⟨c, more, hsource⟩ := List.exists_cons_of_ne_nil h.source_ne_nil
  have ht := h.source_append
  rw [hsource, List.cons_append] at ht
  subst ht
  rw [scanFrom, first_of_starts h]
  dsimp only
  rw [hsource, List.length_cons, Nat.add_sub_cancel, scanFrom_append, lineAfter_eq]
  cases scanFrom 0 (line + (c :: more).count '\n') rest <;> rfl

/-- **Scanning finds the pieces up to any place and goes on from there.** -/
theorem scanFrom_of_reads {t rest : Text} {pieces : List Piece} (h : Reads t pieces rest)
    (line : Nat) :
    scanFrom 0 line t =
      (scanFrom 0 (line + (pieces.flatMap source).count '\n') rest).map fun found =>
        located line pieces ++ found := by
  induction h generalizing line with
  | @nil t =>
      show scanFrom 0 line t = (scanFrom 0 line t).map fun found => found
      cases scanFrom 0 line t <;> rfl
  | @cons t middle rest piece pieces hpiece hpieces ih =>
      rw [scanFrom_of_starts hpiece, ih, List.flatMap_cons, List.count_append, Nat.add_assoc]
      cases scanFrom 0 (line + (piece.source.count '\n' + (pieces.flatMap source).count '\n')) rest
        <;> rfl

/-- The pieces of a whole source are what scanning finds. -/
theorem scan_of_reads {t : Text} {pieces : List Piece} (h : Reads t pieces []) :
    scan t = .ok (located 1 pieces) := by
  rw [scan, scanFrom_of_reads h, scanFrom]
  show Except.ok (located 1 pieces ++ []) = _
  rw [List.append_nil]

/-- Scanning fails where no piece starts, on the line of this place. -/
theorem scan_of_stuck {t rest : Text} {pieces : List Piece} {problem : Problem}
    (h : Reads t pieces rest) (hstuck : Stuck problem rest) :
    scan t = .error (problem, 1 + (pieces.flatMap source).count '\n') := by
  rw [scan, scanFrom_of_reads h]
  cases rest with
  | nil =>
      generalize ht : ([] : Text) = t at hstuck
      cases hstuck <;> contradiction
  | cons c rest =>
      rw [scanFrom, first_of_stuck hstuck]
      rfl

end Piece

/-! ## Tokens -/

namespace Token

open Piece (Reads Stuck located)

/-- The tag of a piece that is read is no text. -/
theorem text?_of_spelt {kind : Kind} {written : Text} (h : Kind.Spelt kind written) :
    kind.text? = none := by
  cases h with
  | ifStart hblank h => rfl
  | elseIf hblank h => rfl
  | braced h => cases h <;> rfl

/-- A text before the tokens behind a text is joined with that text. -/
theorem before_behindText (endLine : Nat) (t u : Text) (tokens : List (Kind × Nat))
    (h : ∀ next ∈ (tokens.map Prod.fst).head?, next.text? = none) :
    Kind.before (.text t) ((behindText endLine u tokens).map Prod.fst) =
      (behindText endLine (t ++ u) tokens).map Prod.fst := by
  by_cases hu : u = []
  · subst hu
    rw [List.append_nil]
    show Kind.before (.text t) (tokens.map Prod.fst) = _
    by_cases ht : t = []
    · subst ht
      rw [Kind.before_empty]
      rfl
    · rw [Kind.before_text ht h, behindText, if_neg (by simpa using ht), List.map_cons]
  · rw [behindText, if_neg (by simpa using hu), behindText, if_neg (by simp [hu]), List.map_cons,
      List.map_cons]
    rfl

/-- The tokens of pieces from the first tag on, with the text before it, are the pieces with
neighbouring texts joined. -/
theorem kinds_split {t rest : Text} {pieces : List Piece} (h : Reads t pieces rest)
    (endLine line : Nat) :
    ((behindText endLine (split endLine (located line pieces)).1
        (split endLine (located line pieces)).2).map Prod.fst =
      Kind.joined (pieces.map Piece.kind)) ∧
    ∀ next ∈ ((split endLine (located line pieces)).2.map Prod.fst).head?, next.text? = none := by
  induction h generalizing line with
  | nil => exact ⟨rfl, by simp [located, split]⟩
  | cons hpiece hpieces ih =>
      cases hpiece with
      | @plain c middle h =>
          obtain ⟨hkinds, hhead⟩ := ih (line + [c].count '\n')
          refine ⟨?_, hhead⟩
          rw [List.map_cons, Kind.joined_cons, ← hkinds]
          exact (before_behindText endLine [c] _ _ hhead).symm
      | @ignored body middle h =>
          obtain ⟨hkinds, hhead⟩ := ih (line + (Piece.ignored body).source.count '\n')
          refine ⟨?_, hhead⟩
          rw [List.map_cons, Kind.joined_cons, ← hkinds]
          exact (before_behindText endLine body _ _ hhead).symm
      | @tag kind written middle hspelt hmark =>
          obtain ⟨hkinds, hhead⟩ := ih (line + written.count '\n')
          have htext := text?_of_spelt hspelt
          constructor
          · rw [List.map_cons, Kind.joined_cons, ← hkinds]
            exact (Kind.before_of_ne_text htext _).symm
          · rintro next ⟨⟩
            exact htext

/-- The tokens of a source are those of its pieces. -/
theorem scan_of_reads {source : Text} {pieces : List Piece} (h : Reads source pieces [])
    (file : Text) :
    scan source file = .ok ((ofPieces (1 + source.count '\n') (located 1 pieces)).map
      fun (kind, line) => ⟨kind, ⟨file, line, Text.nearestLine (Text.lines source) line⟩⟩) := by
  rw [scan, Piece.scan_of_reads h]

/-- They are the pieces in order with neighbouring texts joined. -/
theorem kinds_of_reads {source : Text} {pieces : List Piece} (h : Reads source pieces [])
    (file : Text) :
    ∃ tokens, scan source file = .ok tokens ∧
      tokens.map Token.kind = Kind.joined (pieces.map Piece.kind) := by
  have hkinds : (ofPieces (1 + source.count '\n') (located 1 pieces)).map Prod.fst =
      Kind.joined (pieces.map Piece.kind) := (kinds_split h _ 1).1
  refine ⟨_, scan_of_reads h file, ?_⟩
  rw [List.map_map, ← hkinds]
  rfl

/-- **The tokens of a source are its pieces in order with neighbouring texts joined; there are none
only where a block to be left alone has no end or no start.** -/
theorem scan_factorizes (source file : Text) :
    (∃ pieces tokens, Reads source pieces [] ∧ pieces.flatMap Piece.source = source ∧
      scan source file = .ok tokens ∧
      tokens.map Token.kind = Kind.joined (pieces.map Piece.kind) ∧
      TextsApart Kind.text? (tokens.map Token.kind)) ∨
    ∃ pieces problem rest, Reads source pieces rest ∧
      pieces.flatMap Piece.source ++ rest = source ∧ Stuck problem rest ∧
      scan source file = .error
        (.templateSyntax file (1 + (pieces.flatMap Piece.source).count '\n') problem.message) := by
  rcases Piece.exists_reads source with ⟨pieces, hreads⟩ | ⟨pieces, problem, rest, hreads, hstuck⟩
  · left
    obtain ⟨tokens, hscan, hjoined⟩ := kinds_of_reads hreads file
    have hsource := hreads.source_append
    rw [List.append_nil] at hsource
    refine ⟨pieces, tokens, hreads, hsource, hscan, hjoined, ?_⟩
    rw [hjoined]
    exact Kind.textsApart_joined _
  · right
    refine ⟨pieces, problem, rest, hreads, hreads.source_append, hstuck, ?_⟩
    rw [scan, Piece.scan_of_stuck hreads hstuck]

end Token
end PageServer
