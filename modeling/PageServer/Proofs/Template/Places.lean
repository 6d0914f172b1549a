/-
# The places of tokens

A tag has the place of its opening brace: the number of its line is one more
than the line feeds before the brace, and what is shown of the line is the whole
line without the blanks at its ends. This holds however the line feeds got there,
in texts, in blocks to be left alone or in tags.

* `Span.ofOffset`: the place of a character of a source
* `Piece.tags`, `Piece.TagAt`: the tags of a source and where they begin
* `Token.tags_of_scan`: all tags of a source are at their places
* `Piece.StuckAt`, `Token.stuckAt_of_scan`: so is a mark at which a source is refused
-/
import PageServer.Proofs.Template.Trees
import PageServer.Proofs.Text.Lines

namespace PageServer

/-- The place of a character of a source: the number of its line and the line without blanks at its
ends. -/
def Span.ofOffset (file source : Text) (offset : Nat) : Span :=
  ⟨file, 1 + (source.take offset).count '\n', Text.trim (Text.lineAround source offset)⟩

/-! ## Tags -/

namespace Piece

/-- The tags among pieces, each with the number of characters before it. -/
def tags (offset : Nat) : List Piece → List (Token.Kind × Nat)
  | [] => []
  | .tag kind written :: rest => (kind, offset) :: tags (offset + written.length) rest
  | .plain _ :: rest => tags (offset + 1) rest
  | .ignored body :: rest => tags (offset + (ignored body).source.length) rest

/-- A tag of a source begins behind some characters. -/
def TagAt (t : Text) (kind : Token.Kind) (offset : Nat) : Prop :=
  ∃ earlier after written rest, Reads t earlier after ∧
    offset = (earlier.flatMap source).length ∧ Starts after (.tag kind written) rest

/-- A mark of a block to be left alone, of which the other one is missing, is behind some
characters. -/
def StuckAt (t : Text) (offset : Nat) : Prop :=
  ∃ earlier after problem, Reads t earlier after ∧
    offset = (earlier.flatMap source).length ∧ Stuck problem after

/-- The tags of a text are at their places in it. -/
theorem tagAt_of_mem_tags {t rest : Text} {pieces : List Piece} (h : Reads t pieces rest)
    {start offset : Nat} {kind : Token.Kind} (hmem : (kind, offset) ∈ tags start pieces) :
    ∃ behind, offset = start + behind ∧ TagAt t kind behind := by
  induction h generalizing start with
  | nil => contradiction
  | @cons t middle rest piece pieces hpiece hpieces ih =>
      have hlater : (kind, offset) ∈ tags (start + piece.source.length) pieces →
          ∃ behind, offset = start + behind ∧ TagAt t kind behind := by
        intro hmem
        obtain ⟨behind, rfl, earlier, after, written, last, hreads, rfl, hstarts⟩ := ih hmem
        refine ⟨_, Nat.add_assoc .., piece :: earlier, after, written, last,
          .cons hpiece hreads, ?_, hstarts⟩
        rw [List.flatMap_cons, List.length_append]
      cases hpiece with
      | plain h => exact hlater hmem
      | ignored h => exact hlater hmem
      | tag hspelt hmark =>
          rcases List.mem_cons.mp hmem with heq | hrest
          · obtain ⟨rfl, rfl⟩ := Prod.mk.inj heq
            exact ⟨0, rfl, [], _, _, _, .nil, rfl, .tag hspelt hmark⟩
          · exact hlater hrest

/-- A tag begins with a brace. -/
theorem TagAt.getElem? {t : Text} {kind : Token.Kind} {offset : Nat} (h : TagAt t kind offset) :
    t[offset]? = some '\x7b' := by
  obtain ⟨earlier, after, written, rest, hreads, rfl, hstarts⟩ := h
  cases hstarts with
  | tag hspelt hmark =>
      obtain ⟨more, hmore⟩ := List.head?_eq_some_iff.mp (head?_of_spelt hspelt)
      rw [← hreads.source_append, List.getElem?_append_right (le_refl _), Nat.sub_self, hmore]
      rfl

end Piece

/-! ## Tokens -/

namespace Token

open Piece (Reads Starts Stuck TagAt StuckAt located tags tagAt_of_mem_tags)

/-- The tags do not depend on the texts between them. -/
theorem filter_behindText (endLine : Nat) (t : Text) (tokens : List (Kind × Nat)) :
    ((behindText endLine t tokens).filter fun found => found.1.text?.isNone) =
      tokens.filter fun found => found.1.text?.isNone := by
  unfold behindText
  split
  · rfl
  · exact List.filter_cons_of_neg nofun

/-- The tags of pieces have the lines that the text up to them has. -/
theorem filter_split {t rest : Text} {pieces : List Piece} (h : Reads t pieces rest)
    (before : Text) (endLine : Nat) :
    ((split endLine (located (1 + before.count '\n') pieces)).2.filter
        fun found => found.1.text?.isNone) =
      (tags before.length pieces).map fun found =>
        (found.1, 1 + ((before ++ t).take found.2).count '\n') := by
  induction h generalizing before with
  | nil => rfl
  | @cons t middle rest piece pieces hpiece hpieces ih =>
      have hsource : before ++ piece.source ++ middle = before ++ t := by
        rw [hpiece.source_append, List.append_assoc]
      have hlater := ih (before ++ piece.source)
      rw [List.count_append, List.length_append, hsource, ← Nat.add_assoc] at hlater
      cases hpiece with
      | plain h => exact hlater
      | ignored h => exact hlater
      | @tag kind written _ hspelt hmark =>
          have htags : tags before.length (.tag kind written :: pieces) = (kind, before.length) ::
              tags (before.length + (Piece.tag kind written).source.length) pieces := rfl
          rw [htags, List.map_cons, ← hlater]
          show List.filter _ ((kind, _) :: behindText _ _ _) = _
          rw [List.filter_cons_of_pos (by simp [text?_of_spelt hspelt]), filter_behindText,
            List.take_left]

/-- **The tags of a source are its tokens that are no texts, in order, each at its place.** -/
theorem tags_of_scan {source : Text} {pieces : List Piece} (h : Reads source pieces [])
    (file : Text) :
    ∃ tokens, scan source file = .ok tokens ∧
      (tokens.filter fun token => token.kind.text?.isNone) =
        (tags 0 pieces).map fun found => ⟨found.1, Span.ofOffset file source found.2⟩ := by
  refine ⟨_, scan_of_reads h file, ?_⟩
  have htags : ((ofPieces (1 + source.count '\n') (located 1 pieces)).filter
      fun found => found.1.text?.isNone) =
        (tags 0 pieces).map fun found =>
          (found.1, 1 + (source.take found.2).count '\n') :=
    (filter_behindText _ _ _).trans (filter_split h [] _)
  rw [List.filter_map]
  refine (congrArg (List.map _) htags).trans ?_
  rw [List.map_map]
  apply List.map_congr_left
  rintro ⟨kind, offset⟩ hmem
  obtain ⟨behind, rfl, hat⟩ := tagAt_of_mem_tags h hmem
  rw [Nat.zero_add]
  have hline := Text.lineAt_of_place hat.getElem? (by decide)
  show (⟨kind, ⟨file, _, Text.lineAt source _⟩⟩ : Token) = _
  rw [hline]
  rfl

/-- Each tag among the tokens of a source is at its place. -/
theorem tagAt_of_scan {source file : Text} {tokens : List Token}
    (h : scan source file = .ok tokens) {token : Token} (htoken : token ∈ tokens)
    (htag : token.kind.text? = none) :
    ∃ offset, TagAt source token.kind offset ∧
      token.span = Span.ofOffset file source offset := by
  obtain ⟨pieces, hreads, -⟩ := exists_reads_of_scan h
  obtain ⟨found, hfound, htags⟩ := tags_of_scan hreads file
  obtain rfl := Except.ok.inj (h.symm.trans hfound)
  have hmem : token ∈ tokens.filter fun token => token.kind.text?.isNone :=
    List.mem_filter.mpr ⟨htoken, by rw [htag]; rfl⟩
  rw [htags] at hmem
  obtain ⟨⟨kind, offset⟩, hin, rfl⟩ := List.mem_map.mp hmem
  obtain ⟨behind, hoffset, hat⟩ := tagAt_of_mem_tags hreads hin
  rw [Nat.zero_add] at hoffset
  exact ⟨behind, hat, by rw [hoffset]⟩

/-- A source without tokens is refused at a mark of a block to be left alone. -/
theorem stuckAt_of_scan {source file : Text} {fault : Fault}
    (h : scan source file = .error fault) :
    ∃ offset problem, StuckAt source offset ∧
      fault = .templateSyntax file (Span.ofOffset file source offset).line
        (Piece.Problem.message problem) := by
  rcases Piece.exists_reads source with ⟨pieces, hreads⟩ | ⟨pieces, problem, rest, hreads, hstuck⟩
  · rw [scan_of_reads hreads] at h
    contradiction
  · rw [scan, Piece.scan_of_stuck hreads hstuck] at h
    refine ⟨_, problem, ⟨pieces, rest, problem, hreads, rfl, hstuck⟩, ?_⟩
    have htake : source.take (pieces.flatMap Piece.source).length =
        pieces.flatMap Piece.source := by
      rw [← hreads.source_append, List.take_left]
    rw [← Except.error.inj h, Span.ofOffset, htake]

end Token
end PageServer
