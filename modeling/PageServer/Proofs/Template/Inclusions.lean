/-
# Included templates

Templates include one another in any way, also in a circle, and there may be
infinitely many of them. Putting them in place comes to an end all the same, as
a chain of templates, each included by the one before, is followed for sixteen
templates only. If no chain is longer and all of them can be read, the tokens are
those of the template with those of each included one in place of its tag, to any
depth.

* `Inclusion.Leads`, `Inclusion.Chain`, `Inclusion.Reached`: which templates include which
* `Inclusion.Expands`: the steps of putting templates in place, with the depth counted up
* `Inclusion.Expands.gives`: the program does these steps
* `Inclusion.Expands.length_chain_le`, `Inclusion.Expands.exists_ok`: when it succeeds
* `Inclusion.Replaces`: the tokens with all include tags replaced
* `Node.parse_inclusions`: all of it
-/
import PageServer.Proofs.Template.Refusals
import PageServer.Proofs.Template.Trees

namespace PageServer

namespace Inclusion

open Relation (ReflTransGen TransGen)

/-! ## Which templates include which -/

/-- The tokens of a template, if it is to be had and can be read. -/
def tokensOf (textOf : Text → Except Fault Text) (name : Text) : Except Fault (List Token) :=
  match textOf name with
  | .ok text => Token.scan text name
  | .error fault => .error fault

/-- There is an include tag for a name among some tokens. -/
def Tagged (tokens : List Token) (name : Text) : Prop :=
  ∃ span, ⟨.inclusion name, span⟩ ∈ tokens

/-- A template is to be had and can be read, and it includes another one. -/
def Leads (textOf : Text → Except Fault Text) (name other : Text) : Prop :=
  ∃ tokens, tokensOf textOf name = .ok tokens ∧ Tagged tokens other

/-- Templates of which each includes the next one, the first being included by some tokens. -/
def Chain (textOf : Text → Except Fault Text) (tokens : List Token) (names : List Text) : Prop :=
  names.IsChain (Leads textOf) ∧ ∀ first ∈ names.head?, Tagged tokens first

/-- A template that is included by some tokens, directly or through others. -/
def Reached (textOf : Text → Except Fault Text) (tokens : List Token) (name : Text) : Prop :=
  ∃ first, Tagged tokens first ∧ ReflTransGen (Leads textOf) first name

variable {textOf : Text → Except Fault Text} {tokens rest : List Token} {token : Token}
  {name other : Text} {names : List Text}

/-- The first token includes a template, or the others do. -/
theorem tagged_cons :
    Tagged (token :: rest) name ↔ token.kind = .inclusion name ∨ Tagged rest name := by
  constructor
  · rintro ⟨span, hmem⟩
    rcases List.mem_cons.mp hmem with rfl | hrest
    · exact Or.inl rfl
    · exact Or.inr ⟨span, hrest⟩
  · rintro (hkind | ⟨span, hmem⟩)
    · obtain ⟨kind, span⟩ := token
      obtain rfl : kind = .inclusion name := hkind
      exact ⟨span, List.mem_cons_self⟩
    · exact ⟨span, List.mem_cons_of_mem token hmem⟩

theorem tokensOf_eq_ok_iff : tokensOf textOf name = .ok tokens ↔
    ∃ text, textOf name = .ok text ∧ Token.scan text name = .ok tokens := by
  unfold tokensOf
  cases textOf name <;> simp

/-- An include tag itself. -/
theorem tagged_head (name : Text) (span : Span) (rest : List Token) :
    Tagged (⟨.inclusion name, span⟩ :: rest) name := ⟨span, List.mem_cons_self⟩

theorem Tagged.cons (h : Tagged rest name) (token : Token) : Tagged (token :: rest) name :=
  tagged_cons.mpr (Or.inr h)

theorem Reached.cons (h : Reached textOf rest name) (token : Token) :
    Reached textOf (token :: rest) name := by
  obtain ⟨first, hfirst, hname⟩ := h
  exact ⟨first, hfirst.cons token, hname⟩

theorem Chain.cons (h : Chain textOf rest names) (token : Token) :
    Chain textOf (token :: rest) names :=
  ⟨h.1, fun first hfirst => (h.2 first hfirst).cons token⟩

/-- What an included template leads to is reached. -/
theorem Reached.of_leads (hname : Tagged tokens name) {included : List Token}
    (hread : tokensOf textOf name = .ok included) (h : Reached textOf included other) :
    Reached textOf tokens other := by
  obtain ⟨first, hfirst, hother⟩ := h
  exact ⟨name, hname, .head ⟨included, hread, hfirst⟩ hother⟩

/-- A chain of an included template goes on from it. -/
theorem Chain.of_leads (hname : Tagged tokens name) {included : List Token}
    (hread : tokensOf textOf name = .ok included) (h : Chain textOf included names) :
    Chain textOf tokens (name :: names) := by
  obtain ⟨hchain, hhead⟩ := h
  refine ⟨List.isChain_cons.mpr ⟨fun next hnext => ?_, hchain⟩, ?_⟩
  · exact ⟨included, hread, hhead next hnext⟩
  · rintro first ⟨⟩
    exact hname

/-- What follows a template in a chain is a chain of it. -/
theorem Chain.inside {included : List Token} (h : Chain textOf tokens (name :: names))
    (hread : tokensOf textOf name = .ok included) : Chain textOf included names := by
  obtain ⟨hhead, htail⟩ := List.isChain_cons.mp h.1
  refine ⟨htail, fun first hfirst => ?_⟩
  obtain ⟨found, hfound, hnext⟩ := hhead first hfirst
  obtain rfl := Except.ok.inj (hread.symm.trans hfound)
  exact hnext

/-! ## Circles -/

/-- A template from which a circle is reached includes another one of this kind. -/
theorem exists_leads_of_circle
    (h : ∃ circle, ReflTransGen (Leads textOf) name circle ∧
      TransGen (Leads textOf) circle circle) :
    ∃ next, Leads textOf name next ∧ ∃ circle, ReflTransGen (Leads textOf) next circle ∧
      TransGen (Leads textOf) circle circle := by
  obtain ⟨circle, hreach, hcircle⟩ := h
  rcases ReflTransGen.cases_head hreach with rfl | ⟨next, hnext, hrest⟩
  · obtain ⟨next, hnext, hrest⟩ := TransGen.head'_iff.mp hcircle
    exact ⟨next, hnext, name, hrest, hcircle⟩
  · exact ⟨next, hnext, circle, hrest, hcircle⟩

/-- From there chains of any length lead on. -/
theorem exists_chain_of_circle (length : Nat)
    (h : ∃ circle, ReflTransGen (Leads textOf) name circle ∧
      TransGen (Leads textOf) circle circle) :
    ∃ names : List Text, names.length = length ∧ (name :: names).IsChain (Leads textOf) := by
  induction length generalizing name with
  | zero => exact ⟨[], rfl, .singleton name⟩
  | succ length ih =>
      obtain ⟨next, hnext, hcircle⟩ := exists_leads_of_circle h
      obtain ⟨names, rfl, hchain⟩ := ih hcircle
      exact ⟨next :: names, rfl, List.isChain_cons_cons.mpr ⟨hnext, hchain⟩⟩

/-! ## The steps -/

/-- Putting templates in place of include tags from left to right, `depth` templates deep: a
template behind the last depth is refused, and the first failure is that of all. -/
inductive Expands (textOf : Text → Except Fault Text) :
    Nat → List Token → Except Fault (List Token) → Prop where
  /-- No token is left. -/
  | nil {depth : Nat} : Expands textOf depth [] (.ok [])
  /-- A token that is no include tag stays. -/
  | keep {depth : Nat} {token : Token} {rest : List Token} {result : Except Fault (List Token)}
      (hkind : ∀ name, token.kind ≠ .inclusion name) (hrest : Expands textOf depth rest result) :
      Expands textOf depth (token :: rest) (result.map (token :: ·))
  /-- An include tag that is nested too deep. -/
  | deep {depth : Nat} {name : Text} {span : Span} {rest : List Token}
      (h : maxIncludeDepth ≤ depth) :
      Expands textOf depth (⟨.inclusion name, span⟩ :: rest) (.error (Token.tooDeep span name))
  /-- A template that is not to be had or can not be read. -/
  | unread {depth : Nat} {name : Text} {span : Span} {rest : List Token} {fault : Fault}
      (h : depth < maxIncludeDepth) (hread : tokensOf textOf name = .error fault) :
      Expands textOf depth (⟨.inclusion name, span⟩ :: rest) (.error fault)
  /-- A template in which something fails. -/
  | failed {depth : Nat} {name : Text} {span : Span} {rest included : List Token} {fault : Fault}
      (h : depth < maxIncludeDepth) (hread : tokensOf textOf name = .ok included)
      (hinside : Expands textOf (depth + 1) included (.error fault)) :
      Expands textOf depth (⟨.inclusion name, span⟩ :: rest) (.error fault)
  /-- A template that is put in place of its tag. -/
  | place {depth : Nat} {name : Text} {span : Span} {rest included here : List Token}
      {result : Except Fault (List Token)} (h : depth < maxIncludeDepth)
      (hread : tokensOf textOf name = .ok included)
      (hinside : Expands textOf (depth + 1) included (.ok here))
      (hrest : Expands textOf depth rest result) :
      Expands textOf depth (⟨.inclusion name, span⟩ :: rest) (result.map (here ++ ·))

/-- The steps come to an end if they do in each of the included templates. -/
theorem exists_expands_of {depth : Nat} (hinside : depth < maxIncludeDepth →
      ∀ included, ∃ result, Expands textOf (depth + 1) included result)
    (tokens : List Token) : ∃ result, Expands textOf depth tokens result := by
  induction tokens with
  | nil => exact ⟨_, .nil⟩
  | cons token rest ih =>
      obtain ⟨result, hrest⟩ := ih
      by_cases hkind : ∃ name, token.kind = .inclusion name
      · obtain ⟨kind, span⟩ := token
        obtain ⟨name, rfl⟩ := hkind
        by_cases h : depth < maxIncludeDepth
        · cases hread : tokensOf textOf name with
          | error fault => exact ⟨_, .unread h hread⟩
          | ok included =>
              obtain ⟨inside, hincluded⟩ := hinside h included
              cases inside with
              | error fault => exact ⟨_, .failed h hread hincluded⟩
              | ok here => exact ⟨_, .place h hread hincluded hrest⟩
        · exact ⟨_, .deep (Nat.le_of_not_lt h)⟩
      · exact ⟨_, .keep (not_exists.mp hkind) hrest⟩

/-- **The steps come to an end**, however templates include one another: inside an included template
there is one depth less to go. -/
theorem exists_expands (textOf : Text → Except Fault Text) (left : Nat) {depth : Nat}
    (hleft : maxIncludeDepth ≤ depth + left) (tokens : List Token) :
    ∃ result, Expands textOf depth tokens result := by
  induction left generalizing depth tokens with
  | zero => exact exists_expands_of (fun h => by omega) tokens
  | succ left ih => exact exists_expands_of (fun _ included => ih (by omega) included) tokens

/-! ## The program does these steps -/

section

open PageServer.Action (Gives)

variable {σ : Type} {S : σ → Prop} {loader : Loader σ}
  {inner : Option (List Token → Action σ (List Token))} {result : Except Fault (List Token)}

/-- How the tokens of an included template are treated, with a number of depths to go. -/
def innerOf (loader : Loader σ) : Nat → Option (List Token → Action σ (List Token))
  | 0 => none
  | left + 1 => some (Token.expand loader left)

theorem expand_eq (loader : Loader σ) (left : Nat) :
    Token.expand loader left = Token.expandWith loader (innerOf loader left) := by
  cases left <;> rfl

/-- What the first token stands for, before what the others do. -/
theorem gives_expandWith_cons {here : List Token}
    (hfirst : Gives S (Token.standsFor loader inner token) (.ok here))
    (hrest : Gives S (Token.expandWith loader inner rest) result) :
    Gives S (Token.expandWith loader inner (token :: rest)) (result.map (here ++ ·)) := by
  rw [Token.expandWith_cons]
  apply hfirst.bind_ok
  cases result with
  | error fault => exact hrest.bind_error _
  | ok after => exact hrest.bind_ok (Action.gives_pure _)

/-- A failure of the first token is that of all. -/
theorem gives_expandWith_error {fault : Fault}
    (hfirst : Gives S (Token.standsFor loader inner token) (.error fault)) :
    Gives S (Token.expandWith loader inner (token :: rest)) (.error fault) := by
  rw [Token.expandWith_cons]
  exact hfirst.bind_error _

/-- A template that is not to be had or can not be read. -/
theorem gives_standsFor_error (hloader : loader.Serves S Set.univ textOf) {fault : Fault}
    (hread : tokensOf textOf name = .error fault) (span : Span)
    (expandInner : List Token → Action σ (List Token)) :
    Gives S (Token.standsFor loader (some expandInner) ⟨.inclusion name, span⟩)
      (.error fault) := by
  have htext := hloader name (Set.mem_univ name)
  unfold tokensOf at hread
  cases hname : textOf name with
  | error problem =>
      rw [hname] at hread htext
      obtain rfl := Except.error.inj hread
      exact htext.bind_error _
  | ok text =>
      rw [hname] at hread htext
      exact htext.bind_ok (Gives.bind_error _ (hread ▸ Action.gives_ofExcept _))

/-- A template whose tokens are treated further. -/
theorem gives_standsFor_ok (hloader : loader.Serves S Set.univ textOf) {included : List Token}
    (hread : tokensOf textOf name = .ok included) (span : Span)
    {expandInner : List Token → Action σ (List Token)}
    (hinside : Gives S (expandInner included) result) :
    Gives S (Token.standsFor loader (some expandInner) ⟨.inclusion name, span⟩) result := by
  obtain ⟨text, hname, hscan⟩ := tokensOf_eq_ok_iff.mp hread
  have htext := hloader name (Set.mem_univ name)
  rw [hname] at htext
  exact htext.bind_ok (Gives.bind_ok (hscan ▸ Action.gives_ofExcept _) hinside)

/-- Other tokens stand for themselves. -/
theorem standsFor_of_ne (h : ∀ name, token.kind ≠ .inclusion name) :
    Token.standsFor loader inner token = pure [token] := by
  obtain ⟨kind, span⟩ := token
  cases kind with
  | inclusion name => exact absurd rfl (h name)
  | _ => rfl

/-- **The program does the steps**, counting the depths to go. -/
theorem Expands.gives (hloader : loader.Serves S Set.univ textOf) {depth : Nat}
    (h : Expands textOf depth tokens result) {left : Nat}
    (hleft : depth + left = maxIncludeDepth) :
    Gives S (Token.expand loader left tokens) result := by
  induction h generalizing left with
  | nil =>
      rw [expand_eq]
      exact Action.gives_pure []
  | @keep depth token rest result hkind hrest ih =>
      have hothers := ih hleft
      rw [expand_eq] at hothers ⊢
      have hfirst : Gives S (Token.standsFor loader (innerOf loader left) token) (.ok [token]) := by
        rw [standsFor_of_ne hkind]
        exact Action.gives_pure [token]
      exact gives_expandWith_cons hfirst hothers
  | deep h =>
      obtain rfl : left = 0 := by omega
      exact gives_expandWith_error (Action.gives_throw _)
  | unread h hread =>
      obtain ⟨left, rfl⟩ : ∃ next, left = next + 1 := ⟨left - 1, by omega⟩
      exact gives_expandWith_error (gives_standsFor_error hloader hread _ _)
  | failed h hread hinside ih =>
      obtain ⟨left, rfl⟩ : ∃ next, left = next + 1 := ⟨left - 1, by omega⟩
      exact gives_expandWith_error (gives_standsFor_ok hloader hread _ (ih (by omega)))
  | place h hread hinside hrest ihinside ihrest =>
      have hothers := ihrest hleft
      obtain ⟨left, rfl⟩ : ∃ next, left = next + 1 := ⟨left - 1, by omega⟩
      rw [expand_eq] at hothers ⊢
      exact gives_expandWith_cons (gives_standsFor_ok hloader hread _ (ihinside (by omega))) hothers

end

/-- The steps come to one end only. -/
theorem Expands.unique {result result' : Except Fault (List Token)}
    (h : Expands textOf 0 tokens result) (h' : Expands textOf 0 tokens result') :
    result = result' := by
  have hloader := Loader.serves_ofTexts (fun _ => True) Set.univ textOf
  have hgives := h.gives hloader (Nat.zero_add _) () trivial
  have hgives' := h'.gives hloader (Nat.zero_add _) () trivial
  exact hgives.1.symm.trans hgives'.1

/-! ## When they succeed -/

theorem exists_ok_of_map {ε α β : Type} {f : α → β} {result : Except ε α} {b : β}
    (h : .ok b = result.map f) : ∃ a, result = .ok a := by
  cases result with
  | error e => contradiction
  | ok a => exact ⟨a, rfl⟩

/-- **Where the steps succeed no chain is too long**: each template in a chain is one depth further
inside. -/
theorem Expands.length_chain_le {depth : Nat} {flat : List Token}
    (h : Expands textOf depth tokens (.ok flat)) (hchain : Chain textOf tokens (name :: names)) :
    depth + (name :: names).length ≤ maxIncludeDepth := by
  generalize hresult : Except.ok flat = result at h
  induction h generalizing name names flat with
  | nil =>
      obtain ⟨span, hmem⟩ := hchain.2 name rfl
      contradiction
  | keep hkind hrest ih =>
      obtain ⟨after, rfl⟩ := exists_ok_of_map hresult
      rcases tagged_cons.mp (hchain.2 name rfl) with heq | htagged
      · exact absurd heq (hkind name)
      · exact ih ⟨hchain.1, by rintro first ⟨⟩; exact htagged⟩ rfl
  | deep h => contradiction
  | unread h hread => contradiction
  | failed h hread hinside ih => contradiction
  | place h hread hinside hrest ihinside ihrest =>
      obtain ⟨after, rfl⟩ := exists_ok_of_map hresult
      rcases tagged_cons.mp (hchain.2 name rfl) with heq | htagged
      · -- the chain begins with the template that is put in place
        obtain rfl := Token.Kind.inclusion.inj heq
        cases names with
        | nil => exact h
        | cons next names =>
            have hlength := ihinside (hchain.inside hread) rfl
            simp only [List.length_cons] at hlength ⊢
            omega
      · exact ihrest ⟨hchain.1, by rintro first ⟨⟩; exact htagged⟩ rfl

/-- **Where no chain is too long and all templates can be read, they succeed.** -/
theorem Expands.exists_ok {depth : Nat} {result : Except Fault (List Token)}
    (h : Expands textOf depth tokens result)
    (hchains : ∀ name names, Chain textOf tokens (name :: names) →
      depth + (name :: names).length ≤ maxIncludeDepth)
    (hreads : ∀ name, Reached textOf tokens name →
      ∃ included, tokensOf textOf name = .ok included) : ∃ flat, result = .ok flat := by
  induction h with
  | nil => exact ⟨[], rfl⟩
  | keep hkind hrest ih =>
      obtain ⟨flat, rfl⟩ := ih (fun name names h => hchains name names (h.cons _))
        fun name h => hreads name (h.cons _)
      exact ⟨_, rfl⟩
  | @deep depth name span rest h =>
      have hlength := hchains name [] ⟨.singleton name, by rintro first ⟨⟩; exact tagged_head ..⟩
      simp only [List.length_cons, List.length_nil] at hlength
      omega
  | @unread depth name span rest fault h hread =>
      obtain ⟨included, hok⟩ := hreads name ⟨name, tagged_head .., .refl⟩
      rw [hread] at hok
      contradiction
  | @failed depth name span rest included fault h hread hinside ih =>
      have hname := tagged_head name span rest
      refine absurd (ih (fun next names hchain => ?_) fun next hnext => ?_) nofun
      · have hlength := hchains name _ (hchain.of_leads hname hread)
        simp only [List.length_cons] at hlength ⊢
        omega
      · exact hreads next (hnext.of_leads hname hread)
  | place h hread hinside hrest ihinside ihrest =>
      obtain ⟨flat, rfl⟩ := ihrest (fun name names h => hchains name names (h.cons _))
        fun name h => hreads name (h.cons _)
      exact ⟨_, rfl⟩

/-! ## The tokens in place -/

/-- Some tokens with each include tag among them replaced by the tokens of the included template,
in which all include tags are replaced. -/
inductive Replaces (textOf : Text → Except Fault Text) : List Token → List Token → Prop where
  /-- No token. -/
  | nil : Replaces textOf [] []
  /-- A token that is no include tag. -/
  | keep {token : Token} {rest flat : List Token} (hkind : ∀ name, token.kind ≠ .inclusion name)
      (hrest : Replaces textOf rest flat) : Replaces textOf (token :: rest) (token :: flat)
  /-- An include tag. -/
  | place {name : Text} {span : Span} {rest included here flat : List Token}
      (hread : tokensOf textOf name = .ok included) (hinside : Replaces textOf included here)
      (hrest : Replaces textOf rest flat) :
      Replaces textOf (⟨.inclusion name, span⟩ :: rest) (here ++ flat)

/-- There is one way to replace them. -/
theorem Replaces.unique {flat flat' : List Token} (h : Replaces textOf tokens flat)
    (h' : Replaces textOf tokens flat') : flat = flat' := by
  induction h generalizing flat' with
  | nil =>
      cases h'
      rfl
  | keep hkind hrest ih =>
      cases h' with
      | keep hkind' hrest' => rw [ih hrest']
      | place hread' hinside' hrest' => exact absurd rfl (hkind _)
  | place hread hinside hrest ihinside ihrest =>
      cases h' with
      | keep hkind' hrest' => exact absurd rfl (hkind' _)
      | place hread' hinside' hrest' =>
          obtain rfl := Except.ok.inj (hread.symm.trans hread')
          rw [ihinside hinside', ihrest hrest']

/-- **What the steps come to is the tokens with all include tags replaced.** -/
theorem Expands.replaces {depth : Nat} {flat : List Token}
    (h : Expands textOf depth tokens (.ok flat)) : Replaces textOf tokens flat := by
  generalize hresult : Except.ok flat = result at h
  induction h generalizing flat with
  | nil =>
      obtain rfl := Except.ok.inj hresult
      exact .nil
  | keep hkind hrest ih =>
      obtain ⟨after, rfl⟩ := exists_ok_of_map hresult
      obtain rfl := Except.ok.inj hresult
      exact .keep hkind (ih rfl)
  | deep h => contradiction
  | unread h hread => contradiction
  | failed h hread hinside ih => contradiction
  | place h hread hinside hrest ihinside ihrest =>
      obtain ⟨after, rfl⟩ := exists_ok_of_map hresult
      obtain rfl := Except.ok.inj hresult
      exact .place hread (ihinside rfl) (ihrest rfl)

end Inclusion

/-! ## All of it -/

namespace Node

open Inclusion (Leads Chain Reached Expands Replaces tokensOf)
open Relation (ReflTransGen TransGen)

/-- The tree is that of the tokens in place, or there is none. -/
theorem parse_gives_of_expands {σ : Type} {S : σ → Prop} {loader : Loader σ}
    {textOf : Text → Except Fault Text} (hloader : loader.Serves S Set.univ textOf)
    {source file : Text} {tokens : List Token} (hscan : Token.scan source file = .ok tokens)
    {result : Except Fault (List Token)} (h : Expands textOf 0 tokens result) :
    Action.Gives S (parse loader source file) (result.bind ofTokens) := by
  have hfirst : Action.Gives S
      (Action.ofExcept (Token.scan source file) : Action σ (List Token)) (.ok tokens) :=
    hscan ▸ Action.gives_ofExcept _
  have hexpand := h.gives hloader (Nat.zero_add maxIncludeDepth)
  apply hfirst.bind_ok
  cases result with
  | error fault => exact hexpand.bind_error _
  | ok flat => exact hexpand.bind_ok (Action.gives_ofExcept _)

/-- Tokens are never refused for the depth of included templates. -/
theorem ofTokens_ne_tooDeep (tokens : List Token) (span : Span) (name : Text) :
    ofTokens tokens ≠ .error (Token.tooDeep span name) := by
  intro h
  obtain ⟨place, message, heq, hwording⟩ := exists_isRefusal_of_ofTokens h
  obtain ⟨-, -, rfl⟩ := Fault.templateSyntax.inj heq
  exact hwording (Text.startsWith_iff.mp rfl)

/-- **Templates may include one another to a depth of sixteen, and no deeper.** For every loader
that gives texts by name, the tree of a template comes out in finitely many steps. If a chain of
included templates is longer than that, there is none, and so if a template can be reached that
includes itself, directly or through others. If no chain is longer and all templates that can be
reached can be read, then the tree is that of the tokens of the template with all include tags
replaced, and no depth is complained about. -/
theorem parse_inclusions {σ : Type} {S : σ → Prop} {loader : Loader σ}
    {textOf : Text → Except Fault Text} (hloader : loader.Serves S Set.univ textOf)
    (source file : Text) :
    ∃ result, Action.Gives S (parse loader source file) result ∧
      (∀ fault, Token.scan source file = .error fault → result = .error fault) ∧
      ∀ tokens, Token.scan source file = .ok tokens →
        (∃ expanded, Expands textOf 0 tokens expanded ∧
          (∀ other, Expands textOf 0 tokens other → other = expanded) ∧
          result = expanded.bind ofTokens) ∧
        (∀ names, Chain textOf tokens names → maxIncludeDepth < names.length →
          ∃ fault, result = .error fault) ∧
        (∀ name, Reached textOf tokens name → TransGen (Leads textOf) name name →
          ∃ fault, result = .error fault) ∧
        ((∀ names, Chain textOf tokens names → names.length ≤ maxIncludeDepth) →
          (∀ name, Reached textOf tokens name →
            ∃ text included, textOf name = .ok text ∧ Token.scan text name = .ok included) →
          ∃ flat, Replaces textOf tokens flat ∧
            (∀ other, Replaces textOf tokens other → other = flat) ∧
            result = ofTokens flat ∧ ∀ span name, result ≠ .error (Token.tooDeep span name)) := by
  cases hscan : Token.scan source file with
  | error fault =>
      have hfirst : Action.Gives S
          (Action.ofExcept (Token.scan source file) : Action σ (List Token)) (.error fault) :=
        hscan ▸ Action.gives_ofExcept _
      exact ⟨.error fault, hfirst.bind_error _, fun fault h => by rw [Except.error.inj h], nofun⟩
  | ok tokens =>
      obtain ⟨expanded, hexpands⟩ := Inclusion.exists_expands textOf maxIncludeDepth
        (Nat.le_add_left _ 0) tokens
      -- where a chain is too long, the steps have failed
      have hlong : ∀ names, Chain textOf tokens names → maxIncludeDepth < names.length →
          ∃ fault, expanded.bind ofTokens = .error fault := by
        intro names hchain hlength
        cases expanded with
        | error fault => exact ⟨fault, rfl⟩
        | ok flat =>
            have hpos : 0 < names.length := by omega
            obtain ⟨name, names, rfl⟩ := List.exists_cons_of_length_pos hpos
            have hshort := hexpands.length_chain_le hchain
            omega
      refine ⟨expanded.bind ofTokens, parse_gives_of_expands hloader hscan hexpands, nofun, ?_⟩
      rintro scanned ⟨⟩
      refine ⟨⟨expanded, hexpands, fun other h => h.unique hexpands, rfl⟩, hlong, ?_, ?_⟩
      · rintro name ⟨first, hfirst, hreach⟩ hcircle
        obtain ⟨names, hlength, hchain⟩ :=
          Inclusion.exists_chain_of_circle maxIncludeDepth ⟨name, hreach, hcircle⟩
        refine hlong (first :: names) ⟨hchain, ?_⟩ (by rw [List.length_cons]; omega)
        rintro _ ⟨⟩
        exact hfirst
      · intro hchains hreads
        have hshort (name : Text) (names : List Text) (h : Chain textOf tokens (name :: names)) :
            0 + (name :: names).length ≤ maxIncludeDepth := by
          rw [Nat.zero_add]
          exact hchains _ h
        have hread (name : Text) (h : Reached textOf tokens name) :
            ∃ included, tokensOf textOf name = .ok included := by
          obtain ⟨text, included, htext, hincluded⟩ := hreads name h
          exact ⟨included, Inclusion.tokensOf_eq_ok_iff.mpr ⟨text, htext, hincluded⟩⟩
        obtain ⟨flat, rfl⟩ := hexpands.exists_ok hshort hread
        have hreplaces := hexpands.replaces
        exact ⟨flat, hreplaces, fun other h => h.unique hreplaces, rfl, ofTokens_ne_tooDeep flat⟩

/-- A template that includes one named `ab`, which may be itself. -/
def circlePage : Text := "\x7bINCLUDE: ab\x7d"

/-- The place of its tag. -/
def circleSpan : Span := ⟨"ab", 1, circlePage⟩

/-- If it is itself it is refused; if it is a text it is put in place. -/
theorem parse_inclusions_sample :
    let circle : Text → Except Fault Text := fun _ => .ok circlePage
    let plain : Text → Except Fault Text := fun _ => .ok "c"
    (Loader.ofTexts circle).Serves (fun _ => True) Set.univ circle ∧
      (Loader.ofTexts plain).Serves (fun _ => True) Set.univ plain ∧
      (∃ fault, Action.Gives (fun _ => True) (parse (Loader.ofTexts circle) circlePage "ab")
        (.error fault)) ∧
      Action.Gives (fun _ => True) (parse (Loader.ofTexts plain) circlePage "ab")
        (.ok [.text "c"]) := by
  intro circle plain
  have hserves := Loader.serves_ofTexts (fun _ => True) Set.univ
  have hscan : Token.scan circlePage "ab" = .ok [⟨.inclusion "ab", circleSpan⟩] := by
    decide +kernel
  have htagged := Inclusion.tagged_head "ab" circleSpan []
  refine ⟨hserves circle, hserves plain, ?_, ?_⟩
  · obtain ⟨result, hgives, -, htokens⟩ := parse_inclusions (hserves circle) circlePage "ab"
    obtain ⟨-, -, hcircle, -⟩ := htokens _ hscan
    have hleads : Leads circle "ab" "ab" :=
      ⟨_, Inclusion.tokensOf_eq_ok_iff.mpr ⟨circlePage, rfl, hscan⟩, htagged⟩
    obtain ⟨fault, rfl⟩ := hcircle "ab" ⟨"ab", htagged, .refl⟩ (.single hleads)
    exact ⟨fault, hgives⟩
  · obtain ⟨result, hgives, -, htokens⟩ := parse_inclusions (hserves plain) circlePage "ab"
    obtain ⟨-, -, -, hreplaced⟩ := htokens _ hscan
    have hplain : Token.scan "c" "ab" = .ok [⟨.text "c", ⟨"ab", 1, "c"⟩⟩] := by decide +kernel
    have hread := Inclusion.tokensOf_eq_ok_iff.mpr ⟨"c".toList, (rfl : plain "ab" = _), hplain⟩
    have hends : ∀ name, ¬ Leads plain "ab" name := by
      rintro name ⟨tokens, htokens, span, hmem⟩
      obtain rfl := Except.ok.inj (hread.symm.trans htokens)
      simp at hmem
    have honly : ∀ name, Inclusion.Tagged [⟨.inclusion "ab", circleSpan⟩] name → name = "ab" := by
      rintro name ⟨span, hmem⟩
      exact Token.Kind.inclusion.inj (congrArg Token.kind (List.mem_singleton.mp hmem))
    have hchains : ∀ names, Chain plain [⟨.inclusion "ab", circleSpan⟩] names →
        names.length ≤ maxIncludeDepth := by
      rintro (- | ⟨first, - | ⟨next, names⟩⟩) ⟨hchain, hhead⟩
      · exact Nat.zero_le _
      · exact (by decide : 1 ≤ maxIncludeDepth)
      · obtain rfl := honly first (hhead first rfl)
        exact absurd (List.isChain_cons_cons.mp hchain).1 (hends next)
    obtain ⟨flat, -, hunique, rfl, -⟩ := hreplaced hchains fun name ⟨first, hfirst, hreach⟩ => by
      obtain rfl := honly first hfirst
      rcases Relation.ReflTransGen.cases_head hreach with rfl | ⟨next, hnext, -⟩
      · exact ⟨"c", _, rfl, hplain⟩
      · exact absurd hnext (hends next)
    rw [← hunique _ (.place hread (.keep nofun .nil) .nil)] at hgives
    exact hgives

end Node
end PageServer
