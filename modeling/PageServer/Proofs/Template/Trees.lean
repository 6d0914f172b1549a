/-
# The trees of sources

The tokens of a source have neither an empty text nor a loop without a name, and
putting included templates in place keeps it so. Of such tokens the blocks are
the lists with a tree, and each tree is written back as its tokens.

* `Token.filled_of_scan`, `Token.filled_of_expand`: what tokens can not be
* `Node.parse_grammar`: the sources that have a tree, and what their trees are
-/
import Mathlib
import PageServer.Proofs.Template.WriteBack
import PageServer.Proofs.Template.Loading

namespace PageServer

/-! ## Results with a property -/

namespace Action

variable {ε σ α β : Type} {P : α → Prop} {Q : β → Prop}

/-- An action of which every result has a property. -/
def Yields (P : α → Prop) (action : ExceptT ε (StateM σ) α) : Prop :=
  ∀ state a, (run action state).1 = .ok a → P a

theorem yields_pure {a : α} (h : P a) : Yields P (pure a : ExceptT ε (StateM σ) α) := by
  intro state b hb
  rw [← Except.ok.inj hb]
  exact h

theorem yields_throw (e : ε) : Yields P (throw e : ExceptT ε (StateM σ) α) :=
  fun _ _ h => by contradiction

theorem yields_ofExcept {result : Except ε α} (h : ∀ a, result = .ok a → P a) :
    Yields P (ofExcept result : ExceptT ε (StateM σ) α) :=
  fun _ a ha => h a ha

/-- The results of two steps in a row are those of the second one. -/
theorem Yields.bind {action : ExceptT ε (StateM σ) α} {next : α → ExceptT ε (StateM σ) β}
    (h : Yields P action) (hnext : ∀ a, P a → Yields Q (next a)) :
    Yields Q (action >>= next) := by
  intro state b hb
  rcases after_bind action next state with ⟨e, -, hrun⟩ | ⟨a, ha, hrun⟩
  · rw [hrun] at hb
    contradiction
  · rw [hrun] at hb
    exact hnext a (h state a ha) _ b hb

end Action

/-! ## Tokens -/

namespace Token

open Piece (Reads Starts)
open PageServer.Action (Yields)

/-- A token that is neither an empty text nor a loop without a name. -/
def Filled (token : Token) : Prop := token.kind ≠ .text [] ∧ token.kind ≠ .loop []

/-- What is no text is not changed where a text is joined with another. -/
theorem Kind.mem_of_mem_before {kind first : Kind} {rest : List Kind} (h : kind ∈ before first rest)
    (htag : kind.text? = none) : kind = first ∨ kind ∈ rest := by
  unfold before at h
  split at h
  · rcases List.mem_cons.mp h with rfl | hrest
    · contradiction
    · exact Or.inr (List.mem_cons_of_mem _ hrest)
  · exact Or.inr h
  · exact List.mem_cons.mp h

/-- What is no text is not changed where texts are joined. -/
theorem Kind.mem_of_mem_joined {kind : Kind} {kinds : List Kind} (h : kind ∈ joined kinds)
    (htag : kind.text? = none) : kind ∈ kinds := by
  induction kinds with
  | nil => exact h
  | cons first rest ih =>
      rcases mem_of_mem_before h htag with rfl | hrest
      · exact List.mem_cons_self
      · exact List.mem_cons_of_mem first (ih hrest)

/-- Each of the pieces of a text starts somewhere in it. -/
theorem exists_starts {t rest : Text} {pieces : List Piece} (h : Reads t pieces rest) :
    ∀ piece ∈ pieces, ∃ start after, Starts start piece after := by
  induction h with
  | nil => simp
  | cons hpiece hpieces ih => exact List.forall_mem_cons.mpr ⟨⟨_, _, hpiece⟩, ih⟩

/-- The tokens of a source are those of its pieces. -/
theorem exists_reads_of_scan {source file : Text} {tokens : List Token}
    (h : scan source file = .ok tokens) :
    ∃ pieces, Reads source pieces [] ∧
      tokens.map Token.kind = Kind.joined (pieces.map Piece.kind) := by
  rcases Piece.exists_reads source with ⟨pieces, hreads⟩ | ⟨pieces, problem, rest, hreads, hstuck⟩
  · obtain ⟨found, hfound, hkinds⟩ := kinds_of_reads hreads file
    rw [h] at hfound
    exact ⟨pieces, hreads, by rw [Except.ok.inj hfound, hkinds]⟩
  · rw [scan, Piece.scan_of_stuck hreads hstuck] at h
    contradiction

/-- The tag of a loop has a name. -/
theorem Kind.not_spelt_loop (written : Text) : ¬ Kind.Spelt (.loop []) written := by
  rintro (_ | _ | @⟨_, _, hinside⟩)
  cases hinside with
  | loop h => contradiction

/-- The tokens of a source are neither empty texts nor loops without a name. -/
theorem filled_of_scan {source file : Text} {tokens : List Token}
    (h : scan source file = .ok tokens) : ∀ token ∈ tokens, token.Filled := by
  obtain ⟨pieces, hreads, hkinds⟩ := exists_reads_of_scan h
  intro token htoken
  have hmem : token.kind ∈ Kind.joined (pieces.map Piece.kind) := by
    rw [← hkinds]
    exact List.mem_map_of_mem htoken
  constructor
  · intro hempty
    refine (Kind.textsApart_joined _).filled _ hmem ?_
    rw [hempty]
    rfl
  · intro hloop
    rw [hloop] at hmem
    obtain ⟨piece, hpiece, hkind⟩ := List.mem_map.mp (Kind.mem_of_mem_joined hmem rfl)
    obtain ⟨_, _, hstarts⟩ := exists_starts hreads piece hpiece
    cases hstarts with
    | plain h => contradiction
    | ignored h => contradiction
    | tag hspelt hmark =>
        rw [Piece.kind] at hkind
        rw [hkind] at hspelt
        exact Kind.not_spelt_loop _ hspelt

variable {σ : Type} {loader : Loader σ} {P : Token → Prop}

/-- What holds of the tokens of every source holds of those that a token stands for. -/
theorem yields_standsFor {inner : Option (List Token → Action σ (List Token))}
    (hscan : ∀ source file tokens, scan source file = .ok tokens → ∀ token ∈ tokens, P token)
    (hinner : ∀ expandInner ∈ inner, ∀ tokens, (∀ token ∈ tokens, P token) →
      Yields (fun expanded => ∀ token ∈ expanded, P token) (expandInner tokens))
    {token : Token} (htoken : P token) :
    Yields (fun here => ∀ token ∈ here, P token) (standsFor loader inner token) := by
  have halone : Yields (fun here => ∀ token ∈ here, P token)
      (pure [token] : Action σ (List Token)) := Action.yields_pure (by simpa using htoken)
  obtain ⟨kind, span⟩ := token
  cases kind with
  | inclusion name =>
      cases inner with
      | none => exact Action.yields_throw _
      | some expandInner =>
          have hloader : Yields (fun _ => True) (loader name) := fun _ _ _ => trivial
          refine hloader.bind fun source _ => ?_
          refine (Action.yields_ofExcept (hscan source name)).bind fun included hincluded => ?_
          exact hinner expandInner rfl included hincluded
  | _ => exact halone

/-- So it does where all include tags among some tokens are replaced. -/
theorem yields_expandWith {inner : Option (List Token → Action σ (List Token))}
    (hscan : ∀ source file tokens, scan source file = .ok tokens → ∀ token ∈ tokens, P token)
    (hinner : ∀ expandInner ∈ inner, ∀ tokens, (∀ token ∈ tokens, P token) →
      Yields (fun expanded => ∀ token ∈ expanded, P token) (expandInner tokens))
    {tokens : List Token} (htokens : ∀ token ∈ tokens, P token) :
    Yields (fun expanded => ∀ token ∈ expanded, P token) (expandWith loader inner tokens) := by
  induction tokens with
  | nil => exact Action.yields_pure htokens
  | cons token rest ih =>
      obtain ⟨hfirst, hothers⟩ := List.forall_mem_cons.mp htokens
      rw [expandWith_cons]
      refine (yields_standsFor hscan hinner hfirst).bind fun here hhere => ?_
      refine (ih hothers).bind fun after hafter => ?_
      exact Action.yields_pure (List.forall_mem_append.mpr ⟨hhere, hafter⟩)

/-- **What holds of the tokens of every source holds of those with included templates in place.** -/
theorem yields_expand
    (hscan : ∀ source file tokens, scan source file = .ok tokens → ∀ token ∈ tokens, P token)
    (depth : Nat) {tokens : List Token} (htokens : ∀ token ∈ tokens, P token) :
    Yields (fun expanded => ∀ token ∈ expanded, P token) (expand loader depth tokens) := by
  induction depth generalizing tokens with
  | zero => exact yields_expandWith hscan (by simp) htokens
  | succ depth ih =>
      refine yields_expandWith hscan ?_ htokens
      rintro expandInner ⟨⟩ tokens htokens
      exact ih htokens

end Token

/-! ## Trees -/

namespace Node

open Token (Accepted Nested Block Item)
open Token.Kind (joined)

/-- The tree of a source is that of its tokens with included templates in place. -/
theorem run_parse {σ : Type} {loader : Loader σ} {source file : Text} {state after : σ}
    {scanned tokens : List Token} (hscan : Token.scan source file = .ok scanned)
    (hexpand : Action.run (Token.expand loader maxIncludeDepth scanned) state =
      (.ok tokens, after)) :
    Action.run (parse loader source file) state = (ofTokens tokens, after) := by
  have hfirst : Action.run (Action.ofExcept (Token.scan source file) : Action σ (List Token))
      state = (.ok scanned, state) := by rw [Action.run_ofExcept, hscan]
  rw [parse, Action.run_bind_of_ok hfirst, Action.run_bind_of_ok hexpand, Action.run_ofExcept]

/-- **A source has a tree if and only if its tokens, with included templates in place, are a
block. The tree is written back as these tokens with neighbouring texts joined, and none of its
bodies has an empty text or two neighbouring ones.** -/
theorem parse_grammar {σ : Type} {loader : Loader σ} {source file : Text} {state after : σ}
    {scanned tokens : List Token} (hscan : Token.scan source file = .ok scanned)
    (hexpand : Action.run (Token.expand loader maxIncludeDepth scanned) state =
      (.ok tokens, after)) :
    ((∃ tree, (Action.run (parse loader source file) state).1 = .ok tree) ↔
      Block none tokens) ∧
    ∀ tree, (Action.run (parse loader source file) state).1 = .ok tree →
      bodyMarks tree = (joined (tokens.map Token.kind)).map Token.Kind.mark ∧
      ∀ body ∈ tree :: bodiesOf tree, Token.TextsApart text? body := by
  have hfilled : ∀ token ∈ tokens, token.Filled :=
    Token.yields_expand (fun _ _ _ h => Token.filled_of_scan h) maxIncludeDepth
      (Token.filled_of_scan hscan) state tokens (by rw [hexpand])
  rw [run_parse hscan hexpand]
  constructor
  · exact exists_ofTokens_iff fun token htoken => (hfilled token htoken).2
  · intro tree htree
    have hmarks := bodyMarks_of_ofTokens (fun token htoken => (hfilled token htoken).1) htree
    refine ⟨hmarks, fun body hbody => textsApart_of_mem_bodies ?_ hbody⟩
    rw [hmarks]
    exact Token.Kind.textsApart_map_mark (Token.Kind.textsApart_joined _)

/-- A loop with a loop of its rows, and the end of a choice that an included template starts. -/
def dividedPage : Text :=
  "\x7bLOOP: ab\x7d\x7bLOOP: ab.c\x7d\x7b/LOOP: ab.c\x7d" ++
    "\x7bINCLUDE: part\x7db\x7b/IF\x7d\x7b/LOOP: ab\x7d"

/-- The start of the choice. -/
def dividedPart : Text := "\x7bIF: AA\x7da"

/-- A token of the page. -/
def ofPage (kind : Token.Kind) : Token := ⟨kind, ⟨"page", 1, dividedPage⟩⟩

/-- A token of the included template. -/
def ofPart (kind : Token.Kind) : Token := ⟨kind, ⟨"part", 1, dividedPart⟩⟩

/-- The tokens of both. -/
def dividedTokens : List Token :=
  [ofPage (.loop "ab"), ofPage (.loop "ab.c"), ofPage (.endLoop "ab.c"), ofPart (.ifStart "AA"),
    ofPart (.text "a"), ofPage (.text "b"), ofPage .endIf, ofPage (.endLoop "ab")]

/-- They are a block: a loop with a loop of its rows and a choice inside. -/
theorem block_dividedTokens : Block none dividedTokens := by
  have hrows : Nested (some "ab") "ab.c" := fun _ => ⟨"ab", "c", rfl, by decide, by decide, rfl⟩
  have hinner : Item (some "ab") (ofPage (.loop "ab.c") :: [] ++ [ofPage (.endLoop "ab.c")]) :=
    .loop hrows .nil
  have htexts : Block (some "ab") ([ofPart (.text "a")] ++ ([ofPage (.text "b")] ++ [])) :=
    .cons .text (.cons .text .nil)
  have hcondition : Accepted "AA" := ⟨.var ⟨none, ["AA"]⟩, rfl⟩
  have hchoice : Item (some "ab") (ofPart (.ifStart "AA") ::
      ([ofPart (.text "a")] ++ ([ofPage (.text "b")] ++ [])) ++ [] ++ [] ++ [ofPage .endIf]) :=
    .choice hcondition htexts .nil .none
  have hname : Nested none "ab" := fun hdot => absurd hdot (by decide)
  have hloop : Item none (ofPage (.loop "ab") :: _ ++ [ofPage (.endLoop "ab")]) :=
    .loop hname (.cons hinner (.cons hchoice .nil))
  exact .cons hloop .nil

/-- A choice can start in one template and end in another. -/
theorem parse_grammar_sample :
    ∃ scanned, Token.scan dividedPage "page" = .ok scanned ∧
      Action.run (Token.expand (Loader.ofTexts fun _ => .ok dividedPart) maxIncludeDepth scanned)
        () = (.ok dividedTokens, ()) ∧
      ∃ tree, (Action.run (parse (Loader.ofTexts fun _ => .ok dividedPart) dividedPage "page")
          ()).1 = .ok tree ∧
        bodyMarks tree =
          [.loop "ab", .loop "ab.c", .endLoop "ab.c", .ifStart (some (.var ⟨none, ["AA"]⟩)),
            .text "ab", .endIf, .endLoop "ab"] ∧
        ∀ body ∈ tree :: bodiesOf tree, Token.TextsApart text? body := by
  have hscan : Token.scan dividedPage "page" = .ok
      [ofPage (.loop "ab"), ofPage (.loop "ab.c"), ofPage (.endLoop "ab.c"),
        ofPage (.inclusion "part"), ofPage (.text "b"), ofPage .endIf, ofPage (.endLoop "ab")] := by
    decide +kernel
  have hexpand : Action.run (Token.expand (Loader.ofTexts fun _ => .ok dividedPart) maxIncludeDepth
      [ofPage (.loop "ab"), ofPage (.loop "ab.c"), ofPage (.endLoop "ab.c"),
        ofPage (.inclusion "part"), ofPage (.text "b"), ofPage .endIf, ofPage (.endLoop "ab")]) () =
      (.ok dividedTokens, ()) := by
    decide +kernel
  obtain ⟨hiff, htrees⟩ := parse_grammar hscan hexpand
  obtain ⟨tree, htree⟩ := hiff.mpr block_dividedTokens
  obtain ⟨hmarks, hbodies⟩ := htrees tree htree
  exact ⟨_, hscan, hexpand, tree, htree, hmarks, hbodies⟩

end Node
end PageServer
