/-
# Where a template points

What a loader is asked for is put on record with its answers, which changes
nothing else. The places in a tree, and the places where a template is refused,
are then those of tags of the texts on record: of the template itself or of one
that it includes. There is always such a place, also when a tag is still open at
the end of the template.

* `Loader.recorded`, `Node.run_parse_recorded`: a loader that keeps a record
* `Record.Shows`, `Record.ShowsTag`, `Record.Explains`: places, tags and faults that come from the
  texts on record
* `Action.Records`: what an action ends with, by its record
* `Node.parse_places`: all places of a template
-/
import PageServer.Proofs.Template.Refusals
import PageServer.Proofs.Template.Places
import PageServer.Proofs.Template.SideBySide

namespace PageServer

/-! ## Records -/

/-- What a loader was asked for, in order, with its answers. -/
abbrev Record := List (Text × Except Fault Text)

/-- A loader that puts on record what it is asked for. -/
def Loader.recorded {σ : Type} (loader : Loader σ) : Loader (σ × Record) := fun name =>
  Action.mk fun (state, record) =>
    let (answer, after) := Action.run (loader name) state
    (answer, (after, record ++ [(name, answer)]))

open PageServer.Action (Alike)

/-- Keeping a record changes no answer. -/
theorem Loader.alike_recorded {σ : Type} (loader : Loader σ) (name : Text) :
    Alike (fun kept state => kept.1 = state) (loader.recorded name) (loader name) := by
  rintro kept _ rfl
  exact ⟨rfl, rfl⟩

/-- The tree of a template is the same with a record. -/
theorem Node.run_parse_recorded {σ : Type} (loader : Loader σ) (source file : Text) (start : σ)
    (record : Record) :
    let recorded := Action.run (parse loader.recorded source file) (start, record)
    Action.run (parse loader source file) start = (recorded.1, recorded.2.1) := by
  obtain ⟨hresult, hstate⟩ :=
    parse_alike loader.alike_recorded source file (start, record) start rfl
  exact Prod.ext hresult.symm hstate.symm

/-! ## What is on record -/

namespace Record

open Piece (TagAt StuckAt)

/-- A place is that of a tag of a text on record. -/
def Shows (record : Record) (span : Span) : Prop :=
  ∃ name text kind offset, (name, .ok text) ∈ record ∧ TagAt text kind offset ∧
    span = Span.ofOffset name text offset

/-- A token is a tag of a text on record, at its place. -/
def ShowsTag (record : Record) (token : Token) : Prop :=
  ∃ name text offset, (name, .ok text) ∈ record ∧ TagAt text token.kind offset ∧
    token.span = Span.ofOffset name text offset

/-- A fault is an answer on record, or it is that of a tag or a mark of a text on record. -/
def Explains (record : Record) (fault : Fault) : Prop :=
  (∃ name, (name, .error fault) ∈ record) ∨
    ∃ name text offset message, (name, .ok text) ∈ record ∧
      ((∃ kind, TagAt text kind offset) ∨ StuckAt text offset) ∧
      fault = .templateSyntax name (Span.ofOffset name text offset).line message

variable {record later : Record} {span : Span}

theorem ShowsTag.mono {token : Token} (h : record.ShowsTag token) (hlater : record ⊆ later) :
    later.ShowsTag token := by
  obtain ⟨name, text, offset, hmem, htag, hspan⟩ := h
  exact ⟨name, text, offset, hlater hmem, htag, hspan⟩

/-- The place of such a token. -/
theorem ShowsTag.shows {token : Token} (h : record.ShowsTag token) : record.Shows token.span := by
  obtain ⟨name, text, offset, hmem, htag, hspan⟩ := h
  exact ⟨name, text, token.kind, offset, hmem, htag, hspan⟩

/-- A fault at the place of a tag. -/
theorem Shows.explains (h : record.Shows span) (message : Text) :
    record.Explains (Draft.fault span message) := by
  obtain ⟨name, text, kind, offset, hmem, htag, rfl⟩ := h
  exact Or.inr ⟨name, text, offset, message, hmem, Or.inl ⟨kind, htag⟩, rfl⟩

/-- All tags among some tokens are those of texts on record. -/
def ShowsTags (record : Record) (tokens : List Token) : Prop :=
  ∀ token ∈ tokens, token.kind.text? = none → record.ShowsTag token

theorem ShowsTags.mono {tokens : List Token} (h : record.ShowsTags tokens)
    (hlater : record ⊆ later) : later.ShowsTags tokens :=
  fun token htoken htag => (h token htoken htag).mono hlater

/-- The tokens of a text on record. -/
theorem showsTags_of_scan {name text : Text} {tokens : List Token}
    (hmem : (name, .ok text) ∈ record) (h : Token.scan text name = .ok tokens) :
    record.ShowsTags tokens := by
  intro token htoken htag
  obtain ⟨offset, hat, hspan⟩ := Token.tagAt_of_scan h htoken htag
  exact ⟨name, text, offset, hmem, hat, hspan⟩

/-- A text on record without tokens. -/
theorem explains_of_scan {name text : Text} {fault : Fault} (hmem : (name, .ok text) ∈ record)
    (h : Token.scan text name = .error fault) : record.Explains fault := by
  obtain ⟨offset, problem, hstuck, rfl⟩ := Token.stuckAt_of_scan h
  exact Or.inr ⟨name, text, offset, problem.message, hmem, Or.inr hstuck, rfl⟩

end Record

/-! ## What actions put on record -/

namespace Action

variable {σ α β : Type} {record : Record}

/-- From some record on, an action only adds to the record; its results are good by the record then,
and its failures are explained by it. -/
def Records (good : Record → α → Prop) (record : Record) (action : Action (σ × Record) α) : Prop :=
  ∀ state, record ⊆ (run action (state, record)).2.2 ∧
    match (run action (state, record)).1 with
    | .ok a => good (run action (state, record)).2.2 a
    | .error fault => (run action (state, record)).2.2.Explains fault

theorem records_pure {good : Record → α → Prop} {a : α} (h : good record a) :
    Records good record (pure a : Action (σ × Record) α) :=
  fun _ => ⟨fun _ => id, h⟩

theorem records_throw {good : Record → α → Prop} {fault : Fault} (h : record.Explains fault) :
    Records good record (throw fault : Action (σ × Record) α) :=
  fun _ => ⟨fun _ => id, h⟩

theorem records_ofExcept {good : Record → α → Prop} {result : Except Fault α}
    (hok : ∀ a, result = .ok a → good record a)
    (herror : ∀ fault, result = .error fault → record.Explains fault) :
    Records good record (ofExcept result : Action (σ × Record) α) := by
  intro state
  refine ⟨fun _ => id, ?_⟩
  rw [run_ofExcept]
  cases result with
  | ok a => exact hok a rfl
  | error fault => exact herror fault rfl

theorem Records.bind {mid : Record → α → Prop} {good : Record → β → Prop}
    {action : Action (σ × Record) α} {next : α → Action (σ × Record) β}
    (h : Records mid record action)
    (hnext : ∀ later a, record ⊆ later → mid later a → Records good later (next a)) :
    Records good record (action >>= next) := by
  intro state
  obtain ⟨hmore, hfirst⟩ := h state
  rcases after_bind action next (state, record) with ⟨e, he, hrun⟩ | ⟨a, ha, hrun⟩
  · rw [he] at hfirst
    rw [hrun]
    exact ⟨hmore, hfirst⟩
  · rw [ha] at hfirst
    obtain ⟨hthen, hlast⟩ := hnext _ a hmore hfirst (run action (state, record)).2.1
    rw [hrun]
    exact ⟨List.Subset.trans hmore hthen, hlast⟩

end Action

open PageServer.Action (Records)

/-- An answer is on record. -/
theorem Loader.records_recorded {σ : Type} (loader : Loader σ) (name : Text) (record : Record) :
    Records (fun later text => (name, .ok text) ∈ later) record (loader.recorded name) := by
  intro state
  have hanswer : (name, (Action.run (loader name) state).1) ∈
      (Action.run (loader.recorded name) (state, record)).2.2 :=
    List.mem_append_right _ List.mem_cons_self
  refine ⟨List.subset_append_left _ _, ?_⟩
  have hsame : (Action.run (loader.recorded name) (state, record)).1 =
      (Action.run (loader name) state).1 := rfl
  rw [hsame]
  cases hresult : (Action.run (loader name) state).1 with
  | ok text =>
      rw [hresult] at hanswer
      exact hanswer
  | error fault =>
      rw [hresult] at hanswer
      exact Or.inl ⟨name, hanswer⟩

namespace Token

variable {σ : Type} {loader : Loader σ}

/-- The tags of included templates are on record. -/
theorem expandWith_records {inner : Option (List Token → Action (σ × Record) (List Token))}
    (hinner : ∀ expandInner ∈ inner, ∀ record tokens, record.ShowsTags tokens →
      Records Record.ShowsTags record (expandInner tokens))
    {record : Record} {tokens : List Token} (htokens : record.ShowsTags tokens) :
    Records Record.ShowsTags record (expandWith loader.recorded inner tokens) := by
  induction tokens generalizing record with
  | nil => exact Action.records_pure htokens
  | cons token rest ih =>
      obtain ⟨hfirst, hothers⟩ := List.forall_mem_cons.mp htokens
      rw [expandWith_cons]
      have hhere : Records Record.ShowsTags record (standsFor loader.recorded inner token) := by
        have halone : Records Record.ShowsTags record
            (pure [token] : Action (σ × Record) (List Token)) :=
          Action.records_pure (by simpa [Record.ShowsTags] using hfirst)
        obtain ⟨kind, span⟩ := token
        cases kind with
        | inclusion name =>
            cases inner with
            | none => exact Action.records_throw ((hfirst rfl).shows.explains _)
            | some expandInner =>
                refine (loader.records_recorded name record).bind fun later text _ hmem => ?_
                have hscan : Records Record.ShowsTags later
                    (Action.ofExcept (scan text name) : Action (σ × Record) (List Token)) :=
                  Action.records_ofExcept (fun _ => Record.showsTags_of_scan hmem)
                    fun _ => Record.explains_of_scan hmem
                exact hscan.bind fun last included _ => hinner expandInner rfl last included
        | _ => exact halone
      refine hhere.bind fun later here hmore hshown => ?_
      refine (ih (Record.ShowsTags.mono hothers hmore)).bind fun last after hthen hrest => ?_
      refine Action.records_pure ?_
      exact List.forall_mem_append.mpr ⟨hshown.mono hthen, hrest⟩

theorem expand_records (depth : Nat) {record : Record} {tokens : List Token}
    (htokens : record.ShowsTags tokens) :
    Records Record.ShowsTags record (expand loader.recorded depth tokens) := by
  induction depth generalizing record tokens with
  | zero => exact expandWith_records (by simp) htokens
  | succ depth ih =>
      refine expandWith_records ?_ htokens
      rintro expandInner ⟨⟩ record tokens htokens
      exact ih htokens

end Token

namespace Node

/-- The tree of a template that is on record is made of tags of texts on record. -/
theorem parse_records {σ : Type} (loader : Loader σ) {source file : Text} {record : Record}
    {good : Record → List Node → Prop}
    (h : ∀ later tokens tree, later.ShowsTags tokens → ofTokens tokens = .ok tree →
      good later tree)
    (hmem : (file, .ok source) ∈ record) :
    Records good record (parse loader.recorded source file) := by
  have hscan : Records Record.ShowsTags record
      (Action.ofExcept (Token.scan source file) : Action (σ × Record) (List Token)) :=
    Action.records_ofExcept (fun _ => Record.showsTags_of_scan hmem)
      fun _ => Record.explains_of_scan hmem
  refine hscan.bind fun later tokens _ htokens => ?_
  refine (Token.expand_records maxIncludeDepth htokens).bind fun last expanded _ hexpanded => ?_
  refine Action.records_ofExcept (fun tree => h last expanded tree hexpanded) fun fault hfault => ?_
  obtain ⟨-, hrefusal⟩ := places_of_ofTokens (P := last.Shows) fun token htoken htag =>
    (hexpanded token htoken htag).shows
  obtain ⟨span, hspan, message, rfl, -⟩ := hrefusal fault hfault
  exact hspan.explains message

/-- The places in such a tree. -/
theorem shows_of_ofTokens (record : Record) (tokens : List Token) (tree : List Node)
    (htokens : record.ShowsTags tokens) (h : ofTokens tokens = .ok tree) :
    ∀ span ∈ spansOfAll tree, record.Shows span :=
  (places_of_ofTokens fun token htoken htag => (htokens token htoken htag).shows).1 tree h

open Piece (Reads TagAt StuckAt)

/-- **All places of a template are exact.** Each token that is no text is at its place: the number
of its line is one more than the line feeds before it, and what is shown is the whole line without
the blanks at its ends. The places in a tree are those of tags of the template or of one that it
includes, as the loader gave them. A template is refused for what the loader answered, or at a tag
or a mark of one of these texts, and so on a line that there is. -/
theorem parse_places {σ : Type} (loader : Loader σ) (source file : Text) (start : σ) :
    let recorded := Action.run (parse loader.recorded source file) (start, [(file, .ok source)])
    (∀ tokens, Token.scan source file = .ok tokens →
      ∃ pieces, Reads source pieces [] ∧
        (tokens.filter fun token => token.kind.text?.isNone) =
          (Piece.tags 0 pieces).map fun found =>
            ⟨found.1, Span.ofOffset file source found.2⟩) ∧
    Action.run (parse loader source file) start = (recorded.1, recorded.2.1) ∧
    (∀ tree, recorded.1 = .ok tree → ∀ span ∈ spansOfAll tree,
      ∃ name text kind offset, (name, .ok text) ∈ recorded.2.2 ∧ TagAt text kind offset ∧
        span = Span.ofOffset name text offset) ∧
    ∀ name line message, recorded.1 = .error (.templateSyntax name line message) →
      (∃ asked, (asked, .error (.templateSyntax name line message)) ∈ recorded.2.2) ∨
        line ≠ 0 ∧ ∃ text offset, (name, .ok text) ∈ recorded.2.2 ∧
          ((∃ kind, TagAt text kind offset) ∨ StuckAt text offset) ∧
          line = (Span.ofOffset name text offset).line := by
  intro recorded
  have hmain : (file, .ok source) ∈ ([(file, .ok source)] : Record) := List.mem_cons_self
  obtain ⟨-, hrecords⟩ := parse_records loader shows_of_ofTokens hmain start
  refine ⟨fun tokens hscan => ?_, run_parse_recorded loader source file start _, fun tree htree => ?_,
    fun name line message hfault => ?_⟩
  · obtain ⟨pieces, hreads, -⟩ := Token.exists_reads_of_scan hscan
    obtain ⟨found, hfound, htags⟩ := Token.tags_of_scan hreads file
    obtain rfl := Except.ok.inj (hscan.symm.trans hfound)
    exact ⟨pieces, hreads, htags⟩
  · rw [htree] at hrecords
    exact hrecords
  · rw [hfault] at hrecords
    rcases hrecords with hasked | ⟨name', text, offset, message', hmem, hmark, heq⟩
    · exact Or.inl hasked
    · obtain ⟨rfl, rfl, rfl⟩ := Fault.templateSyntax.inj heq
      exact Or.inr ⟨by simp [Span.ofOffset], text, offset, hmem, hmark, rfl⟩

/-- A template that includes one in which a loop is left open. -/
def openPage : Text := "a\n\x7bINCLUDE: part\x7d"

/-- The loop starts on the third line. -/
def openPart : Text := "\n\n b \x7bLOOP: ab\x7dc"

/-- The loader for it. -/
def openLoader : Loader Unit := Loader.ofTexts fun _ => .ok openPart

/-- What the loader is asked for. -/
def openRecord : Record := [("page".toList, .ok openPage), ("part".toList, .ok openPart)]

/-- The place of the include tag. -/
def openPageSpan : Span := ⟨"page", 2, "\x7bINCLUDE: part\x7d"⟩

/-- The place of the loop. -/
def openPartSpan : Span := ⟨"part", 3, "b \x7bLOOP: ab\x7dc"⟩

/-- It is refused there, at the tag that was read last and not at its end. -/
theorem parse_places_sample :
    Action.run (parse openLoader openPage "page") () =
        (.error (.templateSyntax "part" 3 "unterminated \x7bLOOP: ab\x7d block"), ()) ∧
      ∃ text offset, ("part".toList, Except.ok text) ∈ openRecord ∧
        ((∃ kind, TagAt text kind offset) ∨ StuckAt text offset) ∧
        3 = (Span.ofOffset "part" text offset).line := by
  have hscan : Token.scan openPage "page" =
      .ok [⟨.text "a\n", openPageSpan⟩, ⟨.inclusion "part", openPageSpan⟩] := by
    decide +kernel
  have hexpand : Action.run (Token.expand openLoader.recorded maxIncludeDepth
      [⟨.text "a\n", openPageSpan⟩, ⟨.inclusion "part", openPageSpan⟩])
      ((), [("page".toList, .ok openPage)]) =
      (.ok [⟨.text "a\n", openPageSpan⟩, ⟨.text "\n\n b ", openPartSpan⟩,
        ⟨.loop "ab", openPartSpan⟩, ⟨.text "c", openPartSpan⟩], ((), openRecord)) := by
    decide +kernel
  obtain ⟨-, hsame, -, hrefused⟩ := parse_places openLoader openPage "page" ()
  rw [run_parse hscan hexpand] at hsame hrefused
  refine ⟨hsame, ?_⟩
  rcases hrefused _ _ _ rfl with ⟨asked, hasked⟩ | ⟨-, hplace⟩
  · simp [openRecord] at hasked
  · exact hplace

end Node
end PageServer
