/-
# The grammar of blocks

A list of tokens without include tags has a tree if and only if it is a block: a
sequence of texts, values, choices and loops, the choices and loops with blocks
inside them. The reader keeps the tags that are open on a stack; what may follow
is a block with what each of them still needs.

* `Token.Block`: the blocks inside the innermost of the loops around them
* `Draft.Closes`: what the open tags still need, found by induction on the tokens
* `Draft.run_block`: a block is read to its end, by induction on the block
* `Node.exists_ofTokens_iff`: the lists that have a tree are the blocks
-/
import Mathlib
import PageServer.Proofs.Template.Steps
import PageServer.Proofs.Text.Cutting

namespace PageServer

/-! ## The grammar -/

namespace Token

/-- A condition that can be read. -/
def Accepted (condition : Text) : Prop := ∃ e, Condition.parse condition = .ok e

/-- A loop name that may stand inside the loop `enclosing`: one without a dot, or the name of that
loop, its last dot and a key behind it. -/
def Nested (enclosing : Option Text) (name : Text) : Prop :=
  '.' ∈ name → ∃ parent key,
    name = parent ++ '.' :: key ∧ '.' ∉ key ∧ key ≠ [] ∧ enclosing = some parent

mutual

/-- A block in the loop `enclosing`: items one behind the other. -/
inductive Block : Option Text → List Token → Prop where
  /-- No item. -/
  | nil {enclosing : Option Text} : Block enclosing []
  /-- An item and others. -/
  | cons {enclosing : Option Text} {item rest : List Token} (hitem : Item enclosing item)
      (hrest : Block enclosing rest) : Block enclosing (item ++ rest)

/-- An item of a block. -/
inductive Item : Option Text → List Token → Prop where
  /-- A text. -/
  | text {enclosing : Option Text} {t : Text} {span : Span} : Item enclosing [⟨.text t, span⟩]
  /-- A value. -/
  | reference {enclosing : Option Text} {r : Reference} {span : Span} :
      Item enclosing [⟨.reference r, span⟩]
  /-- A choice: a branch, further branches, and maybe what stands for none of them. -/
  | choice {enclosing : Option Text} {condition : Text} {body more last : List Token}
      {opened closed : Span} (hcondition : Accepted condition) (hbody : Block enclosing body)
      (hmore : Further enclosing more) (hlast : Otherwise enclosing last) :
      Item enclosing (⟨.ifStart condition, opened⟩ :: body ++ more ++ last ++ [⟨.endIf, closed⟩])
  /-- A loop, which is the innermost one for its body. -/
  | loop {enclosing : Option Text} {name : Text} {body : List Token} {opened closed : Span}
      (hname : Nested enclosing name) (hbody : Block (some name) body) :
      Item enclosing (⟨.loop name, opened⟩ :: body ++ [⟨.endLoop name, closed⟩])

/-- The further branches of a choice. -/
inductive Further : Option Text → List Token → Prop where
  /-- No further branch. -/
  | nil {enclosing : Option Text} : Further enclosing []
  /-- A branch and others. -/
  | cons {enclosing : Option Text} {condition : Text} {body more : List Token} {span : Span}
      (hcondition : Accepted condition) (hbody : Block enclosing body)
      (hmore : Further enclosing more) :
      Further enclosing (⟨.elseIf condition, span⟩ :: body ++ more)

/-- What stands for none of the branches of a choice, if there is such a part. -/
inductive Otherwise : Option Text → List Token → Prop where
  /-- There is none. -/
  | none {enclosing : Option Text} : Otherwise enclosing []
  /-- A block. -/
  | some {enclosing : Option Text} {body : List Token} {span : Span}
      (hbody : Block enclosing body) : Otherwise enclosing (⟨.otherwise, span⟩ :: body)

end

end Token

namespace Draft

open Token (Accepted Nested Block Item Further Otherwise)

/-! ## Loops around loops -/

/-- The innermost loop among some open tags. -/
def innermost : List (OpenTag × List Node) → Option Text
  | [] => none
  | (.loop name .., _) :: _ => some name
  | (.branch .., _) :: layers | (.otherwise .., _) :: layers => innermost layers

/-- The innermost loop of a draft. -/
theorem innermostLoop_eq (d : Draft) : d.innermostLoop = innermost d.layers := by
  obtain ⟨layers, nodes⟩ := d
  induction layers with
  | nil => rfl
  | cons layer layers ih =>
      obtain ⟨tag, outer⟩ := layer
      cases tag with
      | loop name parent key span => rfl
      | branch opened earlier condition span => exact ih
      | otherwise opened branches => exact ih

/-- A loop whose rows are known has a name that may stand inside the innermost loop. -/
theorem nested_of_loopSource {enclosing : Option Text} {span : Span} {name : Text}
    {source : Option Text × Text} (h : loopSource enclosing span name = .ok source) :
    Nested enclosing name := by
  intro hdot
  obtain ⟨⟨parent, key⟩, hcut⟩ := Option.ne_none_iff_exists'.mp
    (mt Text.cutLast_eq_none_iff.mp (not_not_intro hdot))
  obtain ⟨hname, hkey⟩ := Text.cutLast_eq_some_iff.mp hcut
  simp only [loopSource, hcut] at h
  split at h
  · contradiction
  rename_i hfilled
  split at h
  · rename_i henclosing
    have hkeyFilled : key ≠ [] := by simp_all
    exact ⟨parent, key, hname, hkey, hkeyFilled, henclosing⟩
  · contradiction

/-- The rows of a loop are known if its name may stand inside the innermost loop. -/
theorem exists_loopSource {enclosing : Option Text} {name : Text} (hnamed : enclosing ≠ some [])
    (h : Nested enclosing name) (span : Span) :
    ∃ parent key, loopSource enclosing span name = .ok (parent, key) := by
  by_cases hdot : '.' ∈ name
  · obtain ⟨parent, key, hname, hkey, hfilled, henclosing⟩ := h hdot
    have hcut := Text.cutLast_eq_some_iff.mpr ⟨hname, hkey⟩
    have hparent : parent ≠ [] := by
      rintro rfl
      exact hnamed henclosing
    refine ⟨some parent, key, ?_⟩
    simp only [loopSource, hcut]
    rw [if_neg (by simp [hparent, hfilled]), if_pos henclosing]
  · refine ⟨enclosing, name, ?_⟩
    simp only [loopSource, Text.cutLast_eq_none_iff.mpr hdot]

/-! ## What is read to its end is a block -/

/-- What the open tags still need: a block for the innermost one, its end, and then what the tags
around it need. -/
inductive Closes : List (OpenTag × List Node) → List Token → Prop where
  /-- No tag is open. -/
  | done {tokens : List Token} (h : Block none tokens) : Closes [] tokens
  /-- A branch is open. -/
  | branch {opened place closed : Span} {earlier : List Branch} {condition : Expr}
      {outer : List Node} {layers : List (OpenTag × List Node)} {body more last rest : List Token}
      (hbody : Block (innermost layers) body) (hmore : Further (innermost layers) more)
      (hlast : Otherwise (innermost layers) last) (hrest : Closes layers rest) :
      Closes ((.branch opened earlier condition place, outer) :: layers)
        (body ++ (more ++ (last ++ ⟨.endIf, closed⟩ :: rest)))
  /-- What stands for none of the branches is open. -/
  | otherwise {opened closed : Span} {branches : List Branch} {outer : List Node}
      {layers : List (OpenTag × List Node)} {body rest : List Token}
      (hbody : Block (innermost layers) body) (hrest : Closes layers rest) :
      Closes ((.otherwise opened branches, outer) :: layers) (body ++ ⟨.endIf, closed⟩ :: rest)
  /-- A loop is open. -/
  | loop {name key : Text} {parent : Option Text} {place closed : Span} {outer : List Node}
      {layers : List (OpenTag × List Node)} {body rest : List Token}
      (hbody : Block (some name) body) (hrest : Closes layers rest) :
      Closes ((.loop name parent key place, outer) :: layers)
        (body ++ ⟨.endLoop name, closed⟩ :: rest)

/-- An item may come before what the open tags need. -/
theorem Closes.item {layers : List (OpenTag × List Node)} {item rest : List Token}
    (hitem : Item (innermost layers) item) (h : Closes layers rest) :
    Closes layers (item ++ rest) := by
  cases h with
  | done h => exact .done (.cons hitem h)
  | branch hbody hmore hlast hrest =>
      rw [← List.append_assoc]
      exact .branch (.cons hitem hbody) hmore hlast hrest
  | otherwise hbody hrest =>
      rw [← List.append_assoc]
      exact .otherwise (.cons hitem hbody) hrest
  | loop hbody hrest =>
      rw [← List.append_assoc]
      exact .loop (.cons hitem hbody) hrest

/-- What a draft needs before a token is the token and what it needs behind it. -/
theorem Closes.step {d next : Draft} {token : Token} {rest : List Token}
    (hstep : Steps d token next) (h : Closes next.layers rest) :
    Closes d.layers (token :: rest) := by
  cases hstep with
  | text =>
      rw [push_layers] at h
      exact h.item .text
  | print =>
      rw [push_layers] at h
      exact h.item .reference
  | constant =>
      rw [push_layers] at h
      exact h.item .reference
  | @ifStart _ source _ span hcondition =>
      cases h with
      | @branch _ _ closed _ _ _ _ body more last rest hbody hmore hlast hrest =>
          have hitem : Item (innermost d.layers)
              (⟨.ifStart source, span⟩ :: body ++ more ++ last ++ [⟨.endIf, closed⟩]) :=
            .choice ⟨_, hcondition⟩ hbody hmore hlast
          simpa using hrest.item hitem
  | @elseIf _ _ _ _ _ span _ _ layers source hcondition =>
      cases h with
      | @branch _ _ _ _ _ _ _ body more _ _ hbody hmore hlast hrest =>
          have hfurther : Further (innermost layers) (⟨.elseIf source, span⟩ :: body ++ more) :=
            .cons ⟨_, hcondition⟩ hbody hmore
          simpa using Closes.branch .nil hfurther hlast hrest
  | otherwise =>
      cases h with
      | otherwise hbody hrest =>
          exact .branch .nil .nil (.some hbody) hrest
  | endIf => exact .branch .nil .nil .none h
  | endElse => exact .otherwise .nil h
  | @loop _ name _ _ span hsource =>
      rw [innermostLoop_eq] at hsource
      have hname := nested_of_loopSource hsource
      cases h with
      | @loop _ _ _ _ closed _ _ body rest hbody hrest =>
          have hitem : Item (innermost d.layers)
              (⟨.loop name, span⟩ :: body ++ [⟨.endLoop name, closed⟩]) := .loop hname hbody
          simpa using hrest.item hitem
  | endLoop => exact .loop .nil h

/-- **What is read up to a draft without open tags is what the open tags need.** -/
theorem closes_of_run {d final : Draft} {tokens : List Token} (h : d.run tokens = .ok final)
    (hfinal : final.layers = []) : Closes d.layers tokens := by
  induction tokens generalizing d with
  | nil =>
      obtain rfl := Except.ok.inj h
      rw [hfinal]
      exact .done .nil
  | cons token tokens ih =>
      obtain ⟨next, hstep, hrun⟩ := run_cons_eq_ok_iff.mp h
      exact (ih hrun).step hstep

/-! ## A block is read to its end -/

/-- Tokens of which none opens a loop without a name. -/
def Named (tokens : List Token) : Prop := ∀ token ∈ tokens, token.kind ≠ .loop []

/-- Tokens that can be read inside the loop `enclosing` and leave the same tags open. -/
def ReadInside (enclosing : Option Text) (tokens : List Token) : Prop :=
  ∀ d : Draft, innermost d.layers = enclosing → enclosing ≠ some [] → Named tokens →
    ∃ nodes, d.run tokens = .ok ⟨d.layers, nodes⟩

/-- Tokens that can be read behind a branch of a choice and leave a branch of it open. -/
def ReadBranches (enclosing : Option Text) (tokens : List Token) : Prop :=
  ∀ opened earlier condition place outer layers nodes,
    innermost layers = enclosing → enclosing ≠ some [] → Named tokens →
      ∃ earlier' condition' place' nodes',
        run ⟨(.branch opened earlier condition place, outer) :: layers, nodes⟩ tokens =
          .ok ⟨(.branch opened earlier' condition' place', outer) :: layers, nodes'⟩

/-- Tokens that can be read behind the branches of a choice, before its end. -/
def ReadLast (enclosing : Option Text) (tokens : List Token) : Prop :=
  ∀ opened earlier condition place outer layers nodes closed,
    innermost layers = enclosing → enclosing ≠ some [] → Named tokens →
      ∃ nodes', run ⟨(.branch opened earlier condition place, outer) :: layers, nodes⟩
        (tokens ++ [⟨.endIf, closed⟩]) = .ok ⟨layers, nodes'⟩

variable {enclosing : Option Text}

theorem ReadInside.nil : ReadInside enclosing [] := fun d _ _ _ => ⟨d.nodes, rfl⟩

/-- What is read inside a block can be followed by more of it. -/
theorem ReadInside.append {left right : List Token} (hleft : ReadInside enclosing left)
    (hright : ReadInside enclosing right) : ReadInside enclosing (left ++ right) := by
  intro d hd hnamed htokens
  obtain ⟨hfirst, hothers⟩ := List.forall_mem_append.mp htokens
  obtain ⟨middle, hmiddle⟩ := hleft d hd hnamed hfirst
  obtain ⟨nodes, hnodes⟩ := hright ⟨d.layers, middle⟩ hd hnamed hothers
  exact ⟨nodes, (run_append hmiddle right).trans hnodes⟩

/-- A token that only adds an instruction. -/
theorem readInside_push {token : Token} {node : Node} (h : ∀ d, Steps d token (d.push node)) :
    ReadInside enclosing [token] := by
  intro d hd hnamed htokens
  refine ⟨(d.push node).nodes, ?_⟩
  rw [run_cons_of_steps (h d), ← push_layers d node]
  rfl

/-- So does the tag of a value. -/
theorem readInside_reference (r : Reference) (span : Span) :
    ReadInside enclosing [⟨.reference r, span⟩] := by
  cases r with
  | var v => exact readInside_push fun _ => .print
  | constant name => exact readInside_push fun _ => .constant

/-- A loop is read to its end, if its body is. -/
theorem ReadInside.loop {name : Text} {body : List Token} {opened closed : Span}
    (hname : Nested enclosing name) (hbody : ReadInside (some name) body) :
    ReadInside enclosing (⟨.loop name, opened⟩ :: body ++ [⟨.endLoop name, closed⟩]) := by
  intro d hd hnamed htokens
  obtain ⟨hfirst, -⟩ := List.forall_mem_append.mp htokens
  obtain ⟨hloop, hbodyNamed⟩ := List.forall_mem_cons.mp hfirst
  obtain ⟨parent, key, hsource⟩ := exists_loopSource hnamed hname opened
  rw [← hd, ← innermostLoop_eq] at hsource
  have hfilled : some name ≠ some [] := fun heq => hloop (congrArg _ (Option.some.inj heq))
  obtain ⟨nodes, hnodes⟩ :=
    hbody (d.enter (.loop name parent key opened)) rfl hfilled hbodyNamed
  refine ⟨.loop name parent key nodes.reverse opened :: d.nodes, ?_⟩
  rw [List.cons_append, run_cons_of_steps (.loop hsource), run_append hnodes]
  exact run_cons_of_steps .endLoop []

/-- So is a choice, if its parts are. -/
theorem ReadInside.choice {condition : Text} {body more last : List Token} {opened closed : Span}
    (hcondition : Accepted condition) (hbody : ReadInside enclosing body)
    (hmore : ReadBranches enclosing more) (hlast : ReadLast enclosing last) :
    ReadInside enclosing
      (⟨.ifStart condition, opened⟩ :: body ++ more ++ last ++ [⟨.endIf, closed⟩]) := by
  intro d hd hnamed htokens
  obtain ⟨hfront, -⟩ := List.forall_mem_append.mp htokens
  obtain ⟨hbranches, hlastNamed⟩ := List.forall_mem_append.mp hfront
  obtain ⟨hfirst, hmoreNamed⟩ := List.forall_mem_append.mp hbranches
  obtain ⟨-, hbodyNamed⟩ := List.forall_mem_cons.mp hfirst
  obtain ⟨e, he⟩ := hcondition
  obtain ⟨nodes, hnodes⟩ := hbody (d.enter (.branch opened [] e opened)) hd hnamed hbodyNamed
  obtain ⟨earlier, next, place, middle, hmiddle⟩ :=
    hmore opened [] e opened d.nodes d.layers nodes hd hnamed hmoreNamed
  obtain ⟨closedNodes, hclosed⟩ :=
    hlast opened earlier next place d.nodes d.layers middle closed hd hnamed hlastNamed
  refine ⟨closedNodes, ?_⟩
  rw [List.append_assoc, List.append_assoc, List.cons_append, run_cons_of_steps (.ifStart he),
    run_append hnodes]
  exact (run_append hmiddle _).trans hclosed

theorem ReadBranches.nil : ReadBranches enclosing [] :=
  fun _ earlier condition place _ _ nodes _ _ _ => ⟨earlier, condition, place, nodes, rfl⟩

/-- A further branch is read, if its body is. -/
theorem ReadBranches.cons {condition : Text} {body more : List Token} {span : Span}
    (hcondition : Accepted condition) (hbody : ReadInside enclosing body)
    (hmore : ReadBranches enclosing more) :
    ReadBranches enclosing (⟨.elseIf condition, span⟩ :: body ++ more) := by
  intro opened earlier before place outer layers nodes hlayers hnamed htokens
  obtain ⟨hfirst, hmoreNamed⟩ := List.forall_mem_append.mp htokens
  obtain ⟨-, hbodyNamed⟩ := List.forall_mem_cons.mp hfirst
  obtain ⟨e, he⟩ := hcondition
  let branches := earlier ++ [.mk before nodes.reverse place]
  obtain ⟨middle, hmiddle⟩ :=
    hbody ⟨(.branch opened branches e span, outer) :: layers, []⟩ hlayers hnamed hbodyNamed
  obtain ⟨earlier', condition', place', nodes', hlast⟩ :=
    hmore opened branches e span outer layers middle hlayers hnamed hmoreNamed
  refine ⟨earlier', condition', place', nodes', ?_⟩
  rw [List.cons_append, run_cons_of_steps (.elseIf he), run_append hmiddle]
  exact hlast

theorem ReadLast.none : ReadLast enclosing [] :=
  fun _ _ _ _ _ _ _ _ _ _ _ => ⟨_, run_cons_of_steps .endIf []⟩

/-- What stands for none of the branches is read, if its body is. -/
theorem ReadLast.some {body : List Token} {span : Span} (hbody : ReadInside enclosing body) :
    ReadLast enclosing (⟨.otherwise, span⟩ :: body) := by
  intro opened earlier condition place outer layers nodes closed hlayers hnamed htokens
  obtain ⟨-, hbodyNamed⟩ := List.forall_mem_cons.mp htokens
  let branches := earlier ++ [.mk condition nodes.reverse place]
  obtain ⟨middle, hmiddle⟩ :=
    hbody ⟨(.otherwise opened branches, outer) :: layers, []⟩ hlayers hnamed hbodyNamed
  refine ⟨.choice branches (Option.some middle.reverse) :: outer, ?_⟩
  rw [List.cons_append, run_cons_of_steps .otherwise, run_append hmiddle]
  exact run_cons_of_steps .endElse []

mutual

/-- A block is read to its end. -/
theorem run_block {enclosing : Option Text} {tokens : List Token} :
    Block enclosing tokens → ReadInside enclosing tokens
  | .nil => .nil
  | .cons hitem hrest => (run_item hitem).append (run_block hrest)

/-- An item is read to its end. -/
theorem run_item {enclosing : Option Text} {tokens : List Token} :
    Item enclosing tokens → ReadInside enclosing tokens
  | .text => readInside_push fun _ => .text
  | .reference => readInside_reference _ _
  | .choice hcondition hbody hmore hlast =>
    .choice hcondition (run_block hbody) (run_further hmore) (run_otherwise hlast)
  | .loop hname hbody => .loop hname (run_block hbody)

/-- Further branches are read to the end of the last one. -/
theorem run_further {enclosing : Option Text} {tokens : List Token} :
    Further enclosing tokens → ReadBranches enclosing tokens
  | .nil => .nil
  | .cons hcondition hbody hmore => .cons hcondition (run_block hbody) (run_further hmore)

/-- What stands for none of the branches is read to its end. -/
theorem run_otherwise {enclosing : Option Text} {tokens : List Token} :
    Otherwise enclosing tokens → ReadLast enclosing tokens
  | .none => .none
  | .some hbody => .some (run_block hbody)

end

end Draft

/-- **The lists of tokens that have a tree are the blocks.** -/
theorem Node.exists_ofTokens_iff {tokens : List Token} (htokens : Draft.Named tokens) :
    (∃ tree, ofTokens tokens = .ok tree) ↔ Token.Block none tokens := by
  constructor
  · rintro ⟨tree, h⟩
    obtain ⟨nodes, hrun, -⟩ := ofTokens_eq_ok_iff.mp h
    cases Draft.closes_of_run hrun rfl with
    | done hblock => exact hblock
  · intro hblock
    obtain ⟨nodes, hnodes⟩ := Draft.run_block hblock {} rfl (by simp) htokens
    exact ⟨nodes.reverse, ofTokens_eq_ok_iff.mpr ⟨nodes, hnodes, rfl⟩⟩

end PageServer
