/-
# Two loaders side by side

A tree is made by asking a loader for texts and by nothing else. If two loaders
answer alike on related states, and leave related states, then so do the makers
of trees that use them; and whatever a loader keeps of the state, the maker of a
tree keeps.

* `Action.Alike`: two actions that give the same result on related states
* `Node.parse_alike`: the tree of a source by two loaders
* `Node.parse_maintains`: what every load keeps
-/
import PageServer.Proofs.Template.Loading

namespace PageServer

/-! ## Actions on related states -/

namespace Action

variable {ε σ τ α β : Type}

/-- Two actions that give the same result on related states and leave related states. -/
def Alike (R : σ → τ → Prop) (action : ExceptT ε (StateM σ) α)
    (action' : ExceptT ε (StateM τ) α) : Prop :=
  ∀ state state', R state state' →
    (run action state).1 = (run action' state').1 ∧ R (run action state).2 (run action' state').2

/-- An action that keeps a property of the state. -/
def Maintains (S : σ → Prop) (action : ExceptT ε (StateM σ) α) : Prop :=
  ∀ state, S state → S (run action state).2

variable {R : σ → τ → Prop} {S : σ → Prop}

theorem alike_ofExcept (result : Except ε α) :
    Alike R (ofExcept result : ExceptT ε (StateM σ) α)
      (ofExcept result : ExceptT ε (StateM τ) α) :=
  fun _ _ hstates => ⟨rfl, hstates⟩

theorem alike_pure (a : α) :
    Alike R (pure a : ExceptT ε (StateM σ) α) (pure a : ExceptT ε (StateM τ) α) :=
  fun _ _ hstates => ⟨rfl, hstates⟩

theorem alike_throw (e : ε) :
    Alike R (throw e : ExceptT ε (StateM σ) α) (throw e : ExceptT ε (StateM τ) α) :=
  fun _ _ hstates => ⟨rfl, hstates⟩

/-- Two steps in a row are alike if the first ones are, and the second ones after each result. -/
theorem Alike.bind {action : ExceptT ε (StateM σ) α} {action' : ExceptT ε (StateM τ) α}
    {next : α → ExceptT ε (StateM σ) β} {next' : α → ExceptT ε (StateM τ) β}
    (h : Alike R action action') (hnext : ∀ a, Alike R (next a) (next' a)) :
    Alike R (action >>= next) (action' >>= next') := by
  intro state state' hstates
  obtain ⟨hresult, hafter⟩ := h state state' hstates
  rw [run_bind, run_bind]
  rcases hrun : run action state with ⟨result, after⟩
  rcases hrun' : run action' state' with ⟨result', after'⟩
  rw [hrun, hrun'] at hresult hafter
  dsimp only at hresult hafter
  subst hresult
  cases result with
  | error e => exact ⟨rfl, hafter⟩
  | ok a => exact hnext a after after' hafter

/-- An action that is alike to itself on equal states with a property keeps the property. -/
theorem Alike.maintains {action : ExceptT ε (StateM σ) α}
    (h : Alike (fun state state' => state = state' ∧ S state) action action) :
    Maintains S action :=
  fun state hstate => (h state state ⟨rfl, hstate⟩).2.2

theorem Maintains.alike {action : ExceptT ε (StateM σ) α} (h : Maintains S action) :
    Alike (fun state state' => state = state' ∧ S state) action action := by
  rintro state _ ⟨rfl, hstate⟩
  exact ⟨rfl, rfl, h state hstate⟩

end Action

/-! ## Trees by two loaders -/

variable {σ τ : Type} {R : σ → τ → Prop} {S : σ → Prop} {loader : Loader σ} {loader' : Loader τ}

open PageServer.Action (Alike Maintains)

namespace Token

/-- Include tags, if the tokens of included templates are expanded alike. -/
theorem expandWith_alike {inner : Option (List Token → Action σ (List Token))}
    {inner' : Option (List Token → Action τ (List Token))}
    (hloader : ∀ name, Alike R (loader name) (loader' name))
    (hinner : (inner = none ∧ inner' = none) ∨
      ∃ expand expand', inner = some expand ∧ inner' = some expand' ∧
        ∀ tokens, Alike R (expand tokens) (expand' tokens))
    (tokens : List Token) :
    Alike R (expandWith loader inner tokens) (expandWith loader' inner' tokens) := by
  induction tokens with
  | nil => exact Action.alike_pure []
  | cons token rest ih =>
      rw [expandWith_cons, expandWith_cons]
      -- what the first token stands for, then the others
      apply Alike.bind
      · obtain ⟨kind, span⟩ := token
        cases kind with
        | inclusion name =>
            rcases hinner with ⟨rfl, rfl⟩ | ⟨expand, expand', rfl, rfl, hexpand⟩
            · exact Action.alike_throw _
            · apply (hloader name).bind
              intro source
              apply (Action.alike_ofExcept _).bind
              intro included
              exact hexpand included
        | _ => exact Action.alike_pure _
      · intro here
        apply ih.bind
        intro after
        exact Action.alike_pure _

/-- Include tags to any depth. -/
theorem expand_alike (hloader : ∀ name, Alike R (loader name) (loader' name)) (depth : Nat)
    (tokens : List Token) :
    Alike R (expand loader depth tokens) (expand loader' depth tokens) := by
  induction depth generalizing tokens with
  | zero => exact expandWith_alike hloader (.inl ⟨rfl, rfl⟩) tokens
  | succ depth ih => exact expandWith_alike hloader (.inr ⟨_, _, rfl, rfl, ih⟩) tokens

end Token

namespace Node

/-- **Loaders that answer alike lead to the same tree.** -/
theorem parse_alike (hloader : ∀ name, Alike R (loader name) (loader' name))
    (source file : Text) : Alike R (parse loader source file) (parse loader' source file) := by
  apply (Action.alike_ofExcept _).bind
  intro tokens
  apply (Token.expand_alike hloader maxIncludeDepth tokens).bind
  intro expanded
  exact Action.alike_ofExcept _

/-- **Making a tree keeps what every load keeps.** -/
theorem parse_maintains (hloader : ∀ name, Maintains S (loader name)) (source file : Text) :
    Maintains S (parse loader source file) :=
  (parse_alike (fun name => (hloader name).alike) source file).maintains

/-- The tree of a text depends on the texts of the templates that it includes only. -/
theorem parseWith_congr {names : Set Text} {textOf textOf' : Text → Except Fault Text}
    (hclosed : IncludeClosed names textOf) (hsame : ∀ name ∈ names, textOf' name = textOf name)
    {name source : Text} (hname : name ∈ names) (hsource : textOf name = .ok source) :
    parseWith textOf' source name = parseWith textOf source name := by
  have hserves : (Loader.ofTexts textOf').Serves (fun _ => True) names textOf := by
    intro other hother
    rw [← hsame other hother]
    exact Action.gives_ofExcept (textOf' other)
  exact (parse_gives hserves hclosed hname hsource () trivial).1

end Node
end PageServer
