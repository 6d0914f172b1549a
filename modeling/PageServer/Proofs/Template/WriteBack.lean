/-
# Trees written back

A tree is written back as the tags and texts of its instructions in order, each
body between its tags. What comes out are the tokens that the tree was made of,
with neighbouring texts joined: a token that is read adds its own mark behind
those of the draft.

* `Token.Mark`: a token with the condition it is read as
* `Node.bodyMarks`: a tree written back
* `Draft.marks_of_run`: what has been read is what is written back, by induction on the tokens
* `Node.textsApart_of_mem_bodies`: no body has an empty text or two neighbouring ones
* `Node.bodyMarks_of_ofTokens`: the tree of tokens is written back as the tokens
-/
import Mathlib
import PageServer.Proofs.Template.Pieces
import PageServer.Proofs.Template.Blocks
import PageServer.Proofs.Template.Loading

namespace PageServer

/-! ## Joining texts behind -/

namespace Token

namespace Kind

/-- A token behind others: a text is joined with a text before it, and left out if it is empty. -/
def behind : List Kind → Kind → List Kind
  | [], kind => before kind []
  | [.text u], .text t => [.text (u ++ t)]
  | [last], kind => last :: before kind []
  | first :: second :: rest, kind => first :: behind (second :: rest) kind

/-- What is added behind a token that is no text leaves it as it is. -/
theorem behind_cons {first : Kind} (h : first.text? = none) (kinds : List Kind) (last : Kind) :
    behind (first :: kinds) last = first :: behind kinds last := by
  cases kinds with
  | nil => cases first <;> first | contradiction | rfl
  | cons second rest => rw [behind]

/-- What is no text stands alone behind others. -/
theorem behind_of_ne_text {kind : Kind} (h : kind.text? = none) (kinds : List Kind) :
    behind kinds kind = kinds ++ [kind] := by
  induction kinds with
  | nil => exact before_of_ne_text h []
  | cons first rest ih =>
      cases rest with
      | nil =>
          cases first <;> cases kind <;> first | contradiction | rfl
      | cons second rest => rw [behind, ih, List.cons_append, List.cons_append, List.cons_append]

/-- A text behind a text. -/
theorem behind_text_text (t u : Text) (kinds : List Kind) :
    behind (kinds ++ [text u]) (text t) = kinds ++ [text (u ++ t)] := by
  induction kinds with
  | nil => rfl
  | cons first rest ih =>
      cases rest with
      | nil => rw [List.singleton_append, behind, behind, List.singleton_append]
      | cons second rest =>
          rw [List.cons_append, List.cons_append, behind, ← List.cons_append, ih]
          rfl

/-- A text behind no other text. -/
theorem behind_text {t : Text} (ht : t ≠ []) {kinds : List Kind}
    (h : ∀ last ∈ kinds.getLast?, last.text? = none) :
    behind kinds (text t) = kinds ++ [text t] := by
  have hlone : before (text t) [] = [text t] := before_text ht (by simp)
  induction kinds with
  | nil => exact hlone
  | cons first rest ih =>
      cases rest with
      | nil => rw [behind_cons (h first rfl), behind, hlone, List.singleton_append]
      | cons second rest =>
          rw [List.getLast?_cons_cons] at h
          rw [behind, ih h, List.cons_append, List.cons_append, List.cons_append]

/-- A text before a token, with another behind it. -/
theorem before_text_behind (c : Char) (t : Text) (second last : Kind) (rest : List Kind) :
    before (text (c :: t)) (behind (second :: rest) last) =
      behind (before (text (c :: t)) (second :: rest)) last := by
  cases hsecond : second.text? with
  | none =>
      have hbefore : ∀ tail, before (text (c :: t)) (second :: tail) =
          text (c :: t) :: second :: tail :=
        fun tail => before_text (List.cons_ne_nil c t) (by simpa using hsecond)
      rw [behind_cons hsecond, hbefore, hbefore, behind, behind_cons hsecond]
  | some u =>
      obtain rfl := eq_text_of_text? hsecond
      rw [before]
      cases rest with
      | nil =>
          cases last with
          | text v => simp only [behind, before, List.append_assoc]
          | _ => rfl
      | cons third rest => rw [behind, behind, before]

/-- It does not matter which of two tokens is added first. -/
theorem before_behind (first last : Kind) (kinds : List Kind) :
    before first (behind kinds last) = behind (before first kinds) last := by
  cases hfirst : first.text? with
  | none => rw [before_of_ne_text hfirst, before_of_ne_text hfirst, behind_cons hfirst]
  | some t =>
      obtain rfl := eq_text_of_text? hfirst
      cases t with
      | nil => rw [before_empty, before_empty]
      | cons c t =>
          cases kinds with
          | nil =>
              cases last with
              | text v => cases v <;> simp [behind, before]
              | _ => rfl
          | cons second rest => exact before_text_behind c t second last rest

/-- The last of some tokens is joined with the others. -/
theorem joined_concat (kinds : List Kind) (last : Kind) :
    joined (kinds ++ [last]) = behind (joined kinds) last := by
  induction kinds with
  | nil => rfl
  | cons kind kinds ih =>
      rw [List.cons_append, joined_cons, ih, before_behind, joined_cons]

end Kind
end Token

/-! ## Marks -/

namespace Token

/-- What a token or an instruction is written as, conditions as what they are read as. -/
inductive Mark where
  /-- A text. -/
  | text (t : Text)
  /-- A tag that prints a value. -/
  | reference (r : Reference)
  /-- The tag of a first branch. -/
  | ifStart (condition : Option Expr)
  /-- The tag of a further branch. -/
  | elseIf (condition : Option Expr)
  /-- The tag of what stands for none of the branches. -/
  | otherwise
  /-- The end of a choice. -/
  | endIf
  /-- The start of a loop. -/
  | loop (name : Text)
  /-- The end of a loop. -/
  | endLoop (name : Text)
  /-- The tag that puts another template in its place. -/
  | inclusion (name : Text)

/-- The text of a mark that is one. -/
def Mark.text? : Mark → Option Text
  | text t => some t
  | _ => none

/-- The mark of a token. -/
def Kind.mark : Kind → Mark
  | text t => .text t
  | reference r => .reference r
  | ifStart condition => .ifStart (Condition.parse condition).toOption
  | elseIf condition => .elseIf (Condition.parse condition).toOption
  | otherwise => .otherwise
  | endIf => .endIf
  | loop name => .loop name
  | endLoop name => .endLoop name
  | inclusion name => .inclusion name

/-- A token has the text of its mark. -/
@[simp] theorem Kind.text?_mark (kind : Kind) : kind.mark.text? = kind.text? := by
  cases kind <;> rfl

/-- A token with the mark of a text is that text. -/
theorem Kind.eq_text_of_mark {kind : Kind} {t : Text} (h : kind.mark = .text t) :
    kind = .text t := by
  apply eq_text_of_text?
  rw [← text?_mark, h]
  rfl

end Token

open Token (Mark TextsApart)
open Token.Kind (joined behind)

namespace Node

mutual
/-- The marks of an instruction. -/
def marks : Node → List Mark
  | .text t => [.text t]
  | .print v => [.reference (.var v)]
  | .constant name => [.reference (.constant name)]
  | .choice branches none => branchesMarks .ifStart branches ++ [.endIf]
  | .choice branches (some body) =>
    branchesMarks .ifStart branches ++ .otherwise :: bodyMarks body ++ [.endIf]
  | .loop name _ _ body _ => .loop name :: bodyMarks body ++ [.endLoop name]

/-- The marks of branches, the first of which has a tag of its own. -/
def branchesMarks : (Option Expr → Mark) → List Branch → List Mark
  | _, [] => []
  | first, .mk condition body _ :: rest =>
    first (some condition) :: bodyMarks body ++ branchesMarks .elseIf rest

/-- The marks of instructions in order. -/
def bodyMarks : List Node → List Mark
  | [] => []
  | node :: rest => node.marks ++ bodyMarks rest
end

/-- The marks of the last instruction come last. -/
theorem bodyMarks_concat (nodes : List Node) (node : Node) :
    bodyMarks (nodes ++ [node]) = bodyMarks nodes ++ node.marks := by
  induction nodes with
  | nil => simp [bodyMarks]
  | cons first rest ih => rw [List.cons_append, bodyMarks, bodyMarks, ih, List.append_assoc]

/-- The marks of the last branch come last, its body behind its tag. -/
theorem branchesMarks_concat (first : Option Expr → Mark) (branches : List Branch)
    (condition : Expr) (body : List Node) (span : Span) :
    branchesMarks first (branches ++ [.mk condition body span]) =
      branchesMarks first (branches ++ [.mk condition [] span]) ++ bodyMarks body := by
  induction branches generalizing first with
  | nil => simp [branchesMarks, bodyMarks]
  | cons branch rest ih =>
      obtain ⟨condition', body', span'⟩ := branch
      rw [List.cons_append, List.cons_append, branchesMarks, branchesMarks, ih, List.append_assoc]

/-- A branch behind others has the tag of a further branch. -/
theorem branchesMarks_elseIf (first : Option Expr → Mark) {branches : List Branch}
    (h : branches ≠ []) (condition : Expr) (span : Span) :
    branchesMarks first (branches ++ [.mk condition [] span]) =
      branchesMarks first branches ++ [.elseIf (some condition)] := by
  induction branches generalizing first with
  | nil => contradiction
  | cons branch rest ih =>
      obtain ⟨condition', body', span'⟩ := branch
      rw [List.cons_append, branchesMarks, branchesMarks]
      cases rest with
      | nil => simp [branchesMarks, bodyMarks]
      | cons next rest => rw [ih _ (List.cons_ne_nil next rest), List.append_assoc]

end Node

/-! ## What has been read -/

namespace Draft

open Node (bodyMarks branchesMarks bodyMarks_concat branchesMarks_concat branchesMarks_elseIf)

/-- The marks of an open tag with what is before its last body. -/
def tagMarks : OpenTag → List Mark
  | .branch _ earlier condition span => branchesMarks .ifStart (earlier ++ [.mk condition [] span])
  | .otherwise _ branches => branchesMarks .ifStart branches ++ [.otherwise]
  | .loop name .. => [.loop name]

/-- The marks of open tags and what is before each of them. -/
def layersMarks : List (OpenTag × List Node) → List Mark
  | [] => []
  | (tag, outer) :: layers => layersMarks layers ++ bodyMarks outer.reverse ++ tagMarks tag

/-- The marks of what has been read. -/
def marks (d : Draft) : List Mark := layersMarks d.layers ++ bodyMarks d.nodes.reverse

/-- An instruction behind others adds its marks. -/
theorem marks_cons (layers : List (OpenTag × List Node)) (nodes : List Node) (node : Node) :
    marks ⟨layers, node :: nodes⟩ = marks ⟨layers, nodes⟩ ++ node.marks := by
  rw [marks, marks, List.reverse_cons, bodyMarks_concat, List.append_assoc]

/-- A tag that is opened adds its marks. -/
theorem marks_enter (d : Draft) (tag : OpenTag) :
    (d.enter tag).marks = d.marks ++ tagMarks tag := by
  show layersMarks d.layers ++ bodyMarks d.nodes.reverse ++ tagMarks tag ++ [] = _
  rw [List.append_nil]
  rfl

/-- The marks of a branch that is read are those of its choice so far. -/
theorem marks_branch (opened : Span) (earlier : List Branch) (condition : Expr) (place : Span)
    (outer nodes : List Node) (layers : List (OpenTag × List Node)) :
    marks ⟨(.branch opened earlier condition place, outer) :: layers, nodes⟩ =
      layersMarks layers ++ bodyMarks outer.reverse ++
        branchesMarks .ifStart (earlier ++ [.mk condition nodes.reverse place]) := by
  rw [branchesMarks_concat, ← List.append_assoc]
  rfl

/-- An instruction that is not a text is added as it is. -/
theorem push_of_ne_text (d : Draft) {node : Node} (h : ∀ t, node ≠ .text t) :
    d.push node = ⟨d.layers, node :: d.nodes⟩ := by
  unfold push
  split
  · rename_i t _ _ _
    exact absurd rfl (h t)
  · rfl

/-- **A tag that is read adds its mark.** -/
theorem Steps.marks {d next : Draft} {token : Token} (h : Steps d token next)
    (htag : token.kind.text? = none) : next.marks = d.marks ++ [token.kind.mark] := by
  cases h with
  | text => contradiction
  | print =>
      rw [push_of_ne_text d (by simp), marks_cons]
      rfl
  | constant =>
      rw [push_of_ne_text d (by simp), marks_cons]
      rfl
  | ifStart hcondition =>
      rw [marks_enter, Token.Kind.mark, hcondition]
      rfl
  | elseIf hcondition =>
      rw [marks_branch, marks_branch, List.reverse_nil, branchesMarks_elseIf _ (by simp),
        ← List.append_assoc, Token.Kind.mark, hcondition]
      rfl
  | otherwise =>
      rw [marks_branch]
      simp [Draft.marks, layersMarks, tagMarks, bodyMarks, Token.Kind.mark]
  | endIf =>
      rw [marks_branch, marks_cons, Node.marks, ← List.append_assoc]
      rfl
  | endElse =>
      rw [marks_cons, Node.marks]
      simp [Draft.marks, layersMarks, tagMarks, Token.Kind.mark]
  | loop hsource => exact marks_enter _ _
  | endLoop =>
      rw [marks_cons, Node.marks]
      simp [Draft.marks, layersMarks, tagMarks, Token.Kind.mark]

/-- The marks of an instruction that is no text end with a tag. -/
theorem exists_marks_concat {node : Node} (h : ∀ t, node ≠ .text t) :
    ∃ before last, node.marks = before ++ [last] ∧ last.text? = none := by
  cases node with
  | text t => exact absurd rfl (h t)
  | print v => exact ⟨[], _, rfl, rfl⟩
  | constant name => exact ⟨[], _, rfl, rfl⟩
  | choice branches otherwise => cases otherwise <;> exact ⟨_, .endIf, rfl, rfl⟩
  | loop name parent key body span => exact ⟨_, .endLoop name, rfl, rfl⟩

/-- The marks of an open tag end with the tag. -/
theorem exists_tagMarks_concat (tag : OpenTag) :
    ∃ before last, tagMarks tag = before ++ [last] ∧ last.text? = none := by
  cases tag with
  | branch opened earlier condition span =>
      cases earlier with
      | nil =>
          refine ⟨[], .ifStart (some condition), ?_, rfl⟩
          simp [tagMarks, branchesMarks, bodyMarks]
      | cons branch rest =>
          exact ⟨_, _, branchesMarks_elseIf _ (List.cons_ne_nil branch rest) condition span, rfl⟩
  | otherwise opened branches => exact ⟨_, .otherwise, rfl, rfl⟩
  | loop name parent key span => exact ⟨[], .loop name, rfl, rfl⟩

/-- The last mark of what has been read is a text only where the last instruction is one. -/
theorem text?_of_mem_getLast?_marks {d : Draft} (h : ∀ t rest, d.nodes ≠ .text t :: rest) :
    ∀ last ∈ d.marks.getLast?, last.text? = none := by
  have hend : ∀ {list before : List Mark} {mark : Mark}, mark.text? = none →
      ∀ last ∈ (list ++ (before ++ [mark])).getLast?, last.text? = none := by
    intro list before mark hmark last hlast
    rw [← List.append_assoc, List.getLast?_concat] at hlast
    rw [← Option.some.inj hlast]
    exact hmark
  obtain ⟨layers, nodes⟩ := d
  cases nodes with
  | cons node rest =>
      have hnode : ∀ t, node ≠ .text t := fun t heq => h t rest (by rw [heq])
      obtain ⟨before, last, hmarks, hlast⟩ := exists_marks_concat hnode
      rw [marks_cons, hmarks]
      exact hend hlast
  | nil =>
      cases layers with
      | nil => simp [Draft.marks, layersMarks, bodyMarks]
      | cons layer layers =>
          obtain ⟨tag, outer⟩ := layer
          obtain ⟨before, last, hmarks, hlast⟩ := exists_tagMarks_concat tag
          have henter : Draft.mk ((tag, outer) :: layers) [] = enter ⟨layers, outer⟩ tag := rfl
          rw [henter, marks_enter, hmarks]
          exact hend hlast

/-- **A text that is read is joined with a text before it, or adds its mark.** -/
theorem marks_push_text {d : Draft} {t : Text} {kinds : List Token.Kind} (ht : t ≠ [])
    (h : d.marks = kinds.map Token.Kind.mark) :
    (d.push (.text t)).marks = (behind kinds (.text t)).map Token.Kind.mark := by
  obtain ⟨layers, nodes⟩ := d
  by_cases htext : ∃ u rest, nodes = .text u :: rest
  · obtain ⟨u, rest, rfl⟩ := htext
    show marks ⟨layers, .text (u ++ t) :: rest⟩ = _
    -- the text is that of the last of the tokens
    rw [marks_cons] at h
    obtain ⟨front, last, rfl, hfront, hlast⟩ := List.map_eq_append_iff.mp h.symm
    obtain ⟨kind, rfl, hkind⟩ := List.map_eq_singleton_iff.mp hlast
    rw [Token.Kind.eq_text_of_mark hkind, Token.Kind.behind_text_text, marks_cons, ← hfront,
      List.map_append]
    rfl
  · push Not at htext
    have hpush : push ⟨layers, nodes⟩ (.text t) = ⟨layers, .text t :: nodes⟩ := by
      unfold push
      split
      · rename_i u rest heq
        exact absurd heq (htext _ _)
      · rfl
    have hlast : ∀ last ∈ kinds.getLast?, last.text? = none := by
      intro last hmem
      have hmark : last.mark ∈ (marks ⟨layers, nodes⟩).getLast? := by
        rw [h, List.getLast?_map, Option.mem_def.mp hmem]
        rfl
      rw [← Token.Kind.text?_mark]
      exact text?_of_mem_getLast?_marks htext _ hmark
    rw [hpush, marks_cons, h, Token.Kind.behind_text ht hlast, List.map_append]
    rfl

/-- A token that is read is added behind the others. -/
theorem marks_of_steps {d next : Draft} {token : Token} {kinds : List Token.Kind}
    (hfilled : token.kind ≠ .text []) (hstep : Steps d token next)
    (h : d.marks = kinds.map Token.Kind.mark) :
    next.marks = (behind kinds token.kind).map Token.Kind.mark := by
  cases htext : token.kind.text? with
  | none =>
      rw [hstep.marks htext, Token.Kind.behind_of_ne_text htext, List.map_append, h]
      rfl
  | some t =>
      obtain ⟨kind, span⟩ := token
      obtain rfl := Token.Kind.eq_text_of_text? htext
      cases hstep
      exact marks_push_text (fun ht => hfilled (congrArg _ ht)) h

/-- **What has been read is what the draft is written back as, neighbouring texts joined.** -/
theorem marks_of_run {d final : Draft} {tokens : List Token} {kinds : List Token.Kind}
    (hfilled : ∀ token ∈ tokens, token.kind ≠ .text []) (hrun : d.run tokens = .ok final)
    (h : d.marks = (joined kinds).map Token.Kind.mark) :
    final.marks = (joined (kinds ++ tokens.map Token.kind)).map Token.Kind.mark := by
  induction tokens generalizing d kinds with
  | nil =>
      obtain rfl := Except.ok.inj hrun
      rw [List.map_nil, List.append_nil]
      exact h
  | cons token tokens ih =>
      obtain ⟨next, hstep, hnext⟩ := run_cons_eq_ok_iff.mp hrun
      obtain ⟨hfirst, hothers⟩ := List.forall_mem_cons.mp hfilled
      have hmarks := marks_of_steps hfirst hstep h
      rw [← Token.Kind.joined_concat] at hmarks
      have hfinal := ih hothers hnext hmarks
      rw [List.append_assoc] at hfinal
      exact hfinal

end Draft

/-! ## The bodies of a tree -/

namespace Node

/-- The text of an instruction that is one. -/
def text? : Node → Option Text
  | .text t => some t
  | _ => none

mutual
/-- The bodies inside an instruction. -/
def bodies : Node → List (List Node)
  | .text _ | .print _ | .constant _ => []
  | .choice branches none => branchesBodies branches
  | .choice branches (some body) => branchesBodies branches ++ body :: bodiesOf body
  | .loop _ _ _ body _ => body :: bodiesOf body

/-- The bodies of branches and those inside them. -/
def branchesBodies : List Branch → List (List Node)
  | [] => []
  | .mk _ body _ :: rest => body :: bodiesOf body ++ branchesBodies rest

/-- The bodies inside some instructions. -/
def bodiesOf : List Node → List (List Node)
  | [] => []
  | node :: rest => node.bodies ++ bodiesOf rest
end

mutual
/-- A body inside an instruction is written back as a part of it. -/
theorem infix_of_mem_bodies {body : List Node} :
    ∀ node : Node, body ∈ node.bodies → bodyMarks body <:+: node.marks
  | .text _, h | .print _, h | .constant _, h => absurd h List.not_mem_nil
  | .choice branches none, h =>
    (infix_of_mem_branchesBodies .ifStart branches h).trans (List.prefix_append _ _).isInfix
  | .choice branches (some last), h => by
      have hlast : bodyMarks last <:+: (choice branches (some last)).marks :=
        ⟨branchesMarks .ifStart branches ++ [.otherwise], [.endIf], by simp [marks]⟩
      rcases List.mem_append.mp h with hbranch | hbody
      · have hbranches := infix_of_mem_branchesBodies .ifStart branches hbranch
        rw [marks, List.append_assoc]
        exact hbranches.trans (List.prefix_append _ _).isInfix
      · rcases List.mem_cons.mp hbody with rfl | hinside
        · exact hlast
        · exact (infix_of_mem_bodiesOf last hinside).trans hlast
  | .loop name parent key last span, h => by
      have hlast : bodyMarks last <:+: (loop name parent key last span).marks :=
        ⟨[.loop name], [.endLoop name], by simp [marks]⟩
      rcases List.mem_cons.mp h with rfl | hinside
      · exact hlast
      · exact (infix_of_mem_bodiesOf last hinside).trans hlast

/-- So is one inside branches. -/
theorem infix_of_mem_branchesBodies {body : List Node} (first : Option Expr → Mark) :
    ∀ branches : List Branch, body ∈ branchesBodies branches →
      bodyMarks body <:+: branchesMarks first branches
  | [], h => absurd h List.not_mem_nil
  | .mk condition own span :: rest, h => by
      have hown : bodyMarks own <:+: branchesMarks first (.mk condition own span :: rest) :=
        ⟨[first (some condition)], branchesMarks .elseIf rest, by simp [branchesMarks]⟩
      rcases List.mem_append.mp h with hfirst | hothers
      · rcases List.mem_cons.mp hfirst with rfl | hinside
        · exact hown
        · exact (infix_of_mem_bodiesOf own hinside).trans hown
      · have hrest := infix_of_mem_branchesBodies .elseIf rest hothers
        exact hrest.trans (List.suffix_append _ _).isInfix

/-- So is one inside instructions. -/
theorem infix_of_mem_bodiesOf {body : List Node} :
    ∀ nodes : List Node, body ∈ bodiesOf nodes → bodyMarks body <:+: bodyMarks nodes
  | [], h => absurd h List.not_mem_nil
  | node :: rest, h => by
      rcases List.mem_append.mp h with hfirst | hothers
      · exact (infix_of_mem_bodies node hfirst).trans (List.prefix_append _ _).isInfix
      · exact (infix_of_mem_bodiesOf rest hothers).trans (List.suffix_append _ _).isInfix
end

/-- A body whose marks are apart has its texts apart. -/
theorem textsApart_of_bodyMarks {nodes : List Node}
    (h : TextsApart Mark.text? (bodyMarks nodes)) : TextsApart text? nodes := by
  induction nodes with
  | nil => exact ⟨by simp, .nil⟩
  | cons node rest ih =>
      have hrest := ih (h.of_isInfix (List.suffix_append _ _).isInfix)
      cases node with
      | text t =>
          refine hrest.cons (h.filled _ List.mem_cons_self) (Or.inr ?_)
          intro next hnext
          cases next with
          | text u =>
              -- the marks of both would be neighbours
              obtain ⟨others, rfl⟩ := List.head?_eq_some_iff.mp hnext
              exact absurd (h.head?_tail (t := t) rfl (.text u) rfl) (by simp [Mark.text?])
          | _ => rfl
      | _ => exact hrest.cons (by simp [text?]) (Or.inl rfl)

/-- **A tree that is written back with texts apart has none that is empty or beside another.** -/
theorem textsApart_of_mem_bodies {nodes body : List Node}
    (h : TextsApart Mark.text? (bodyMarks nodes)) (hbody : body ∈ nodes :: bodiesOf nodes) :
    TextsApart text? body := by
  rcases List.mem_cons.mp hbody with rfl | hinside
  · exact textsApart_of_bodyMarks h
  · exact textsApart_of_bodyMarks (h.of_isInfix (infix_of_mem_bodiesOf nodes hinside))

end Node

/-! ## The trees of sources -/

/-- Texts stay apart where tokens become marks. -/
theorem Token.Kind.textsApart_map_mark {kinds : List Token.Kind}
    (h : TextsApart Token.Kind.text? kinds) :
    TextsApart Mark.text? (kinds.map Token.Kind.mark) := by
  refine ⟨?_, ?_⟩
  · rintro _ hmem
    obtain ⟨kind, hkind, rfl⟩ := List.mem_map.mp hmem
    rw [text?_mark]
    exact h.filled kind hkind
  · rw [List.isChain_map]
    simpa using h.apart

/-- The tree of tokens is written back as the tokens with neighbouring texts joined. -/
theorem Node.bodyMarks_of_ofTokens {tokens : List Token} {tree : List Node}
    (hfilled : ∀ token ∈ tokens, token.kind ≠ .text []) (h : ofTokens tokens = .ok tree) :
    bodyMarks tree = (joined (tokens.map Token.kind)).map Token.Kind.mark := by
  obtain ⟨nodes, hrun, rfl⟩ := ofTokens_eq_ok_iff.mp h
  have hmarks : Draft.marks ⟨[], nodes⟩ =
      (joined ([] ++ tokens.map Token.kind)).map Token.Kind.mark :=
    Draft.marks_of_run hfilled hrun rfl
  exact hmarks

end PageServer
