/-
# Where the texts of templates come from

The tree of a template depends on the texts of the templates it includes, not
on how they are found. Two loaders that give the same text for every name that
is asked for lead to the same tree, or to the same fault.

* `Action.Gives`: a result that does not depend on the state
* `Action.Matched`: two actions, maybe on states of different types, with one such result
* `Token.expand_matched`: include tags, by induction on the depth and on the tokens
* `Node.parse_gives`: the tree of a source is `Node.parseWith` of the texts
-/
import PageServer.Proofs.Action
import PageServer.Proofs.Template.Literals

namespace PageServer

/-! ## Results that do not depend on the state -/

namespace Action

variable {ε σ τ α β : Type}

/-- An action that gives `result` on each of some states, and leaves one of them. -/
def Gives (S : σ → Prop) (action : ExceptT ε (StateM σ) α) (result : Except ε α) : Prop :=
  ∀ state, S state → (run action state).1 = result ∧ S (run action state).2

/-- Two actions that give the same result, each on states of its own. -/
def Matched (S : σ → Prop) (S' : τ → Prop) (action : ExceptT ε (StateM σ) α)
    (action' : ExceptT ε (StateM τ) α) : Prop :=
  ∃ result, Gives S action result ∧ Gives S' action' result

variable {S : σ → Prop} {S' : τ → Prop}

theorem gives_ofExcept (result : Except ε α) :
    Gives S (ofExcept result : ExceptT ε (StateM σ) α) result :=
  fun _ hstate => ⟨rfl, hstate⟩

theorem gives_pure (a : α) : Gives S (pure a : ExceptT ε (StateM σ) α) (.ok a) :=
  fun _ hstate => ⟨rfl, hstate⟩

theorem gives_throw (e : ε) : Gives S (throw e : ExceptT ε (StateM σ) α) (.error e) :=
  fun _ hstate => ⟨rfl, hstate⟩

/-- A step that fails is the last one. -/
theorem Gives.bind_error {action : ExceptT ε (StateM σ) α} {e : ε}
    (next : α → ExceptT ε (StateM σ) β) (h : Gives S action (.error e)) :
    Gives S (action >>= next) (.error e) := by
  intro state hstate
  obtain ⟨hresult, hafter⟩ := h state hstate
  have hrun : run (action >>= next) state = (.error e, (run action state).2) :=
    run_bind_of_error (Prod.ext hresult rfl)
  rw [hrun]
  exact ⟨rfl, hafter⟩

/-- A step that gives a result is followed by the next one. -/
theorem Gives.bind_ok {action : ExceptT ε (StateM σ) α} {a : α} {result : Except ε β}
    {next : α → ExceptT ε (StateM σ) β} (h : Gives S action (.ok a))
    (hnext : Gives S (next a) result) : Gives S (action >>= next) result := by
  intro state hstate
  obtain ⟨hresult, hafter⟩ := h state hstate
  have hrun : run (action >>= next) state = run (next a) (run action state).2 :=
    run_bind_of_ok (Prod.ext hresult rfl)
  rw [hrun]
  exact hnext _ hafter

theorem matched_pure (a : α) :
    Matched S S' (pure a : ExceptT ε (StateM σ) α) (pure a : ExceptT ε (StateM τ) α) :=
  ⟨.ok a, gives_pure a, gives_pure a⟩

theorem matched_throw (e : ε) :
    Matched S S' (throw e : ExceptT ε (StateM σ) α) (throw e : ExceptT ε (StateM τ) α) :=
  ⟨.error e, gives_throw e, gives_throw e⟩

/-- Steps that match in a row: the second ones need to match only after what the first ones
give. -/
theorem Gives.bind {action : ExceptT ε (StateM σ) α} {action' : ExceptT ε (StateM τ) α}
    {result : Except ε α} {next : α → ExceptT ε (StateM σ) β}
    {next' : α → ExceptT ε (StateM τ) β} (h : Gives S action result)
    (h' : Gives S' action' result)
    (hnext : ∀ a, result = .ok a → Matched S S' (next a) (next' a)) :
    Matched S S' (action >>= next) (action' >>= next') := by
  cases result with
  | error e => exact ⟨.error e, h.bind_error next, h'.bind_error next'⟩
  | ok a =>
      obtain ⟨result, hfirst, hsecond⟩ := hnext a rfl
      exact ⟨result, h.bind_ok hfirst, h'.bind_ok hsecond⟩

theorem Matched.bind {action : ExceptT ε (StateM σ) α} {action' : ExceptT ε (StateM τ) α}
    {next : α → ExceptT ε (StateM σ) β} {next' : α → ExceptT ε (StateM τ) β}
    (h : Matched S S' action action') (hnext : ∀ a, Matched S S' (next a) (next' a)) :
    Matched S S' (action >>= next) (action' >>= next') := by
  obtain ⟨result, hfirst, hsecond⟩ := h
  exact hfirst.bind hsecond fun a _ => hnext a

end Action

/-! ## Texts by name -/

/-- The loader that gives texts and keeps nothing. -/
def Loader.ofTexts (textOf : Text → Except Fault Text) : Loader Unit :=
  fun name => Action.ofExcept (textOf name)

/-- A loader that gives `textOf` for each of some names. -/
def Loader.Serves {σ : Type} (S : σ → Prop) (names : Set Text) (textOf : Text → Except Fault Text)
    (loader : Loader σ) : Prop :=
  ∀ name ∈ names, Action.Gives S (loader name) (textOf name)

/-- Texts by name are what they are. -/
theorem Loader.serves_ofTexts (S : Unit → Prop) (names : Set Text)
    (textOf : Text → Except Fault Text) : (ofTexts textOf).Serves S names textOf :=
  fun name _ => Action.gives_ofExcept (textOf name)

/-- A token that names one of some templates if it is an include tag. -/
def Token.Includes (names : Set Text) (token : Token) : Prop :=
  match token.kind with
  | .inclusion name => name ∈ names
  | _ => True

instance Token.decidableIncludes (names : Set Text) [DecidablePred (· ∈ names)] :
    DecidablePred (Token.Includes names)
  | ⟨.inclusion name, _⟩ => inferInstanceAs (Decidable (name ∈ names))
  | ⟨.text _, _⟩ | ⟨.reference _, _⟩ | ⟨.ifStart _, _⟩ | ⟨.elseIf _, _⟩ | ⟨.otherwise, _⟩
  | ⟨.endIf, _⟩ | ⟨.loop _, _⟩ | ⟨.endLoop _, _⟩ => isTrue trivial

/-- Names with all those that are included by a template of one of them. -/
def IncludeClosed (names : Set Text) (textOf : Text → Except Fault Text) : Prop :=
  ∀ name ∈ names, ∀ source, textOf name = .ok source →
    ∀ tokens, Token.scan source name = .ok tokens → ∀ token ∈ tokens, token.Includes names

variable {σ τ : Type} {S : σ → Prop} {S' : τ → Prop} {names : Set Text}
  {textOf : Text → Except Fault Text} {loader : Loader σ} {loader' : Loader τ}

namespace Token

/-- The tokens that one token stands for. -/
def standsFor (loader : Loader σ) (inner : Option (List Token → Action σ (List Token)))
    (token : Token) : Action σ (List Token) :=
  match token.kind, inner with
  | .inclusion name, none => throw (tooDeep token.span name)
  | .inclusion name, some expandInner => do
    let source ← loader name
    let included ← Action.ofExcept (scan source name)
    expandInner included
  | _, _ => pure [token]

theorem expandWith_cons (inner : Option (List Token → Action σ (List Token))) (token : Token)
    (rest : List Token) :
    expandWith loader inner (token :: rest) =
      standsFor loader inner token >>= fun here =>
        expandWith loader inner rest >>= fun after => pure (here ++ after) := by
  obtain ⟨kind, span⟩ := token
  cases kind with
  | inclusion name =>
      cases inner with
      | none => rfl
      | some expandInner =>
          simp only [standsFor, bind_assoc]
          rfl
  | _ => rfl

open PageServer.Action (Matched)

/-- Include tags, if the tokens of included templates match. -/
theorem expandWith_matched {inner : Option (List Token → Action σ (List Token))}
    {inner' : Option (List Token → Action τ (List Token))}
    (hloader : loader.Serves S names textOf) (hloader' : loader'.Serves S' names textOf)
    (hclosed : IncludeClosed names textOf)
    (hinner : (inner = none ∧ inner' = none) ∨
      ∃ expand expand', inner = some expand ∧ inner' = some expand' ∧
        ∀ tokens, (∀ token ∈ tokens, token.Includes names) →
          Matched S S' (expand tokens) (expand' tokens))
    (tokens : List Token) (htokens : ∀ token ∈ tokens, token.Includes names) :
    Matched S S' (expandWith loader inner tokens) (expandWith loader' inner' tokens) := by
  induction tokens with
  | nil => exact Action.matched_pure []
  | cons token rest ih =>
      obtain ⟨hfirst, hrest⟩ := List.forall_mem_cons.mp htokens
      rw [expandWith_cons, expandWith_cons]
      -- what the first token stands for, then the others
      apply Matched.bind
      · obtain ⟨kind, span⟩ := token
        cases kind with
        | inclusion name =>
            have hname : name ∈ names := hfirst
            rcases hinner with ⟨rfl, rfl⟩ | ⟨expand, expand', rfl, rfl, hexpand⟩
            · exact Action.matched_throw _
            · apply (hloader name hname).bind (hloader' name hname)
              intro source hsource
              apply (Action.gives_ofExcept _).bind (Action.gives_ofExcept _)
              intro included hincluded
              exact hexpand included (hclosed name hname source hsource included hincluded)
        | _ => exact Action.matched_pure _
      · intro here
        apply Matched.bind (ih hrest)
        intro after
        exact Action.matched_pure _

/-- Include tags to any depth. -/
theorem expand_matched (hloader : loader.Serves S names textOf)
    (hloader' : loader'.Serves S' names textOf) (hclosed : IncludeClosed names textOf)
    (depth : Nat) (tokens : List Token) (htokens : ∀ token ∈ tokens, token.Includes names) :
    Matched S S' (expand loader depth tokens) (expand loader' depth tokens) := by
  induction depth generalizing tokens with
  | zero => exact expandWith_matched hloader hloader' hclosed (.inl ⟨rfl, rfl⟩) tokens htokens
  | succ depth ih =>
      exact expandWith_matched hloader hloader' hclosed
        (.inr ⟨_, _, rfl, rfl, ih⟩) tokens htokens

end Token

namespace Node

open PageServer.Action (Matched)

/-- The tree of a source, with templates included from texts by name. -/
def parseWith (textOf : Text → Except Fault Text) (source file : Text) :
    Except Fault (List Node) :=
  (Action.run (parse (Loader.ofTexts textOf) source file) ()).1

/-- What is written in a template and those it includes is neither a map nor a loop. -/
theorem parseWith_literals {source file : Text} {nodes : List Node}
    (h : parseWith textOf source file = .ok nodes) : NodesLiterals Value.IsScalar nodes := by
  unfold parseWith parse at h
  rcases Action.after_bind (Action.ofExcept (Token.scan source file)) _ () with
    ⟨_, -, hrun⟩ | ⟨tokens, -, hrun⟩
  · rw [hrun] at h
    contradiction
  · rw [hrun] at h
    rcases Action.after_bind (Token.expand (Loader.ofTexts textOf) maxIncludeDepth tokens) _ ()
      with ⟨_, -, hrun⟩ | ⟨expanded, -, hrun⟩
    · rw [hrun] at h
      contradiction
    · rw [hrun] at h
      exact ofTokens_literals h

/-- The trees of a source by two loaders. -/
theorem parse_matched (hloader : loader.Serves S names textOf)
    (hloader' : loader'.Serves S' names textOf) (hclosed : IncludeClosed names textOf)
    {source file : Text}
    (hsource : ∀ tokens, Token.scan source file = .ok tokens →
      ∀ token ∈ tokens, token.Includes names) :
    Matched S S' (parse loader source file) (parse loader' source file) := by
  apply (Action.gives_ofExcept _).bind (Action.gives_ofExcept _)
  intro tokens htokens
  apply Matched.bind
  · exact Token.expand_matched hloader hloader' hclosed maxIncludeDepth tokens
      (hsource tokens htokens)
  · intro expanded
    exact ⟨_, Action.gives_ofExcept _, Action.gives_ofExcept _⟩

/-- **The tree of a template does not depend on how the texts are found.** -/
theorem parse_gives (hloader : loader.Serves S names textOf) (hclosed : IncludeClosed names textOf)
    {name source : Text} (hname : name ∈ names) (hsource : textOf name = .ok source) :
    Action.Gives S (parse loader source name) (parseWith textOf source name) := by
  have htexts := Loader.serves_ofTexts (fun _ => True) names textOf
  obtain ⟨result, hgives, hpure⟩ :=
    parse_matched hloader htexts hclosed (hclosed name hname source hsource)
  have hresult : parseWith textOf source name = result := (hpure () trivial).1
  rw [hresult]
  exact hgives

end Node
end PageServer
