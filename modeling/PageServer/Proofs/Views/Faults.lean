/-
# Faults of templates

Taking a template from the views and making its page fail in few ways: there is
no such template, its name or that of an included one leads outside, its tags do
not fit together, or a condition has no value.

* `Fault.IsOfViews`: these faults
* `Action.FailsBy`: an action whose failures are all of some kind
* `Node.parse_failsBy`: what is wrong with a tree, down through the included templates
* `Template.isOfViews_of_load`, `Template.isOfViews_of_compile`: nothing else goes wrong
-/
import PageServer.Proofs.Template.Loading
import PageServer.Proofs.Template.Refusals
import PageServer.Proofs.Template.Visiting
import PageServer.Views.Template

namespace PageServer

/-- A fault of templates, or of the name under which one is included. -/
def Fault.IsOfViews (fault : Fault) : Prop :=
  fault.isOfTemplate = true ∨ fault = .invalidPath

/-! ## Failures of actions -/

namespace Action

variable {ε σ α β : Type} {bad : ε → Prop}

/-- An action whose failures are all of some kind. -/
def FailsBy (bad : ε → Prop) (action : ExceptT ε (StateM σ) α) : Prop :=
  ∀ state e, (run action state).1 = .error e → bad e

theorem failsBy_pure (a : α) : FailsBy bad (pure a : ExceptT ε (StateM σ) α) := by
  intro state e h
  contradiction

theorem failsBy_throw {e : ε} (h : bad e) : FailsBy bad (throw e : ExceptT ε (StateM σ) α) := by
  intro state e' h'
  rw [← Except.error.inj h']
  exact h

theorem failsBy_ofExcept {result : Except ε α} (h : ∀ e, result = .error e → bad e) :
    FailsBy bad (ofExcept result : ExceptT ε (StateM σ) α) :=
  fun _ e he => h e he

/-- Two steps in a row fail as the first or the second one does. -/
theorem FailsBy.bind {action : ExceptT ε (StateM σ) α} {next : α → ExceptT ε (StateM σ) β}
    (h : FailsBy bad action) (hnext : ∀ a, FailsBy bad (next a)) :
    FailsBy bad (action >>= next) := by
  intro state e he
  rcases after_bind action next state with ⟨e', hfirst, hrun⟩ | ⟨a, -, hrun⟩
  · rw [hrun] at he
    rw [← Except.error.inj he]
    exact h state e' hfirst
  · rw [hrun] at he
    exact hnext a _ e he

end Action

/-! ## Trees -/

open PageServer.Action (FailsBy)

namespace Token

/-- A source is refused for its tags. -/
theorem isOfViews_of_scan {source file : Text} {fault : Fault}
    (h : scan source file = .error fault) : fault.IsOfViews := by
  unfold scan at h
  split at h
  · rw [← Except.error.inj h]
    exact Or.inl rfl
  · contradiction

variable {σ : Type} {loader : Loader σ}

/-- Include tags, if the tokens of included templates fail so. -/
theorem expandWith_failsBy {inner : Option (List Token → Action σ (List Token))}
    (hloader : ∀ name, FailsBy Fault.IsOfViews (loader name))
    (hinner : ∀ expandInner ∈ inner, ∀ tokens, FailsBy Fault.IsOfViews (expandInner tokens))
    (tokens : List Token) : FailsBy Fault.IsOfViews (expandWith loader inner tokens) := by
  induction tokens with
  | nil => exact Action.failsBy_pure []
  | cons token rest ih =>
      rw [expandWith_cons]
      apply FailsBy.bind
      · obtain ⟨kind, span⟩ := token
        cases kind with
        | inclusion name =>
            cases inner with
            | none => exact Action.failsBy_throw (Or.inl rfl)
            | some expandInner =>
                apply (hloader name).bind
                intro source
                apply FailsBy.bind (Action.failsBy_ofExcept fun fault => isOfViews_of_scan)
                intro included
                exact hinner expandInner rfl included
        | _ => exact Action.failsBy_pure _
      · intro here
        apply ih.bind
        intro after
        exact Action.failsBy_pure _

/-- Include tags to any depth. -/
theorem expand_failsBy (hloader : ∀ name, FailsBy Fault.IsOfViews (loader name)) (depth : Nat)
    (tokens : List Token) : FailsBy Fault.IsOfViews (expand loader depth tokens) := by
  induction depth generalizing tokens with
  | zero => exact expandWith_failsBy hloader (by simp) tokens
  | succ depth ih =>
      apply expandWith_failsBy hloader
      rintro expandInner ⟨⟩ tokens
      exact ih tokens

end Token

namespace Node

/-- Tokens without a tree are refused for their tags. -/
theorem isOfViews_of_ofTokens {tokens : List Token} {fault : Fault}
    (h : ofTokens tokens = .error fault) : fault.IsOfViews := by
  obtain ⟨span, message, rfl, -⟩ := exists_isRefusal_of_ofTokens h
  exact Or.inl rfl

/-- A source has a tree unless its tags or those of the templates it includes do not fit together,
or one of these is not to be had. -/
theorem parse_failsBy {σ : Type} {loader : Loader σ}
    (hloader : ∀ name, FailsBy Fault.IsOfViews (loader name)) (source file : Text) :
    FailsBy Fault.IsOfViews (parse loader source file) := by
  apply FailsBy.bind (Action.failsBy_ofExcept fun fault => Token.isOfViews_of_scan)
  intro tokens
  apply (Token.expand_failsBy hloader maxIncludeDepth tokens).bind
  intro expanded
  exact Action.failsBy_ofExcept fun fault => isOfViews_of_ofTokens

/-- A tree that can not be rendered shows the place of the tag. -/
theorem isOfViews_of_render {nodes : List Node} {vars : Fields} {constants : Constants}
    {fault : Fault} (h : render nodes vars constants = .error fault) : fault.IsOfViews := by
  obtain ⟨page, node, -, hfails⟩ := failsInside_of_renderAll _ nodes h
  cases hfails with
  | condition hearlier hcondition => exact Or.inl rfl
  | rows hrows =>
      unfold Page.rowsOf at hrows
      split at hrows
      · contradiction
      · split at hrows
        · contradiction
        · rw [← Except.error.inj hrows]
          exact Or.inl rfl

end Node

/-! ## Templates -/

/-- A name that leads outside is refused as such. -/
theorem Views.eq_of_checkName {name : Text} {fault : Fault}
    (h : checkName name = .error fault) : fault = .invalidPath := by
  unfold checkName at h
  split_ifs at h
  exact (Except.error.inj h).symm

/-- The text of an included template is to be had unless its name leads outside or there is no
such file. -/
theorem Views.load_failsBy (name : Text) : FailsBy Fault.IsOfViews (load name) := by
  intro v fault h
  unfold load at h
  rw [Action.run_mk] at h
  split at h
  · rename_i problem hcheck
    rw [← Except.error.inj h]
    exact Or.inr (eq_of_checkName hcheck)
  · split at h
    · contradiction
    · rw [← Except.error.inj h]
      exact Or.inl rfl

namespace Template

/-- **A template is to be had unless its name leads outside or there is no such template.** -/
theorem isOfViews_of_load {t : Template} {name : Text} {v : Views} {fault : Fault}
    (h : (t.load name v).1 = .error fault) : fault.IsOfViews := by
  unfold load at h
  split at h
  · rename_i problem hcheck
    rw [← Except.error.inj h]
    exact Or.inr (Views.eq_of_checkName hcheck)
  · dsimp only at h
    split at h
    · contradiction
    · split at h
      · contradiction
      · split at h
        · contradiction
        · rw [← Except.error.inj h]
          exact Or.inl rfl

/-- The tree of a template can be made unless the template is at fault. -/
theorem parse_failsBy (t : Template) : FailsBy Fault.IsOfViews t.parse := by
  unfold parse
  split
  · exact Action.failsBy_pure t
  · split
    · apply (Node.parse_failsBy Views.load_failsBy t.source t.name).bind
      intro nodes state fault h
      contradiction
    · exact Action.failsBy_throw (Or.inl rfl)

/-- **The page of a template can be made unless the template is at fault.** -/
theorem isOfViews_of_compile {t : Template} {v : Views} {fault : Fault}
    (h : (t.compile v).1 = .error fault) : fault.IsOfViews := by
  unfold compile at h
  split at h
  · rename_i problem after hparse
    rw [← Except.error.inj h]
    refine t.parse_failsBy v problem ?_
    rw [hparse]
  · rename_i parsed after hparse
    split at h
    · contradiction
    · rename_i problem hrender
      rw [← Except.error.inj h]
      unfold render at hrender
      split at hrender
      · exact Node.isOfViews_of_render hrender
      · rw [← Except.error.inj hrender]
        exact Or.inl rfl

end Template
end PageServer
