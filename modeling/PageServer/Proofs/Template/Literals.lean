/-
# Values that are written in templates

What holds of every value in the conditions of a template. A tree is put
together from instructions and branches without a change to either, so its
values are those of its conditions, which are neither maps nor loops.

* `NodesLiterals`, `BranchesLiterals`: a property of every value in a tree
* `Draft.Literals`: the same of a tree of which a part has been read
* `Draft.step_literals`: one token keeps it
* `Node.ofTokens_literals`: what is written in a template is a scalar
-/
import PageServer.Proofs.Condition.Literals
import PageServer.Proofs.Template.Steps

namespace PageServer

/-! ## Trees -/

mutual
/-- A property of every value that is written in the conditions of an instruction. -/
def Node.Literals (P : Value → Prop) : Node → Prop
  | .text _ => True
  | .print _ => True
  | .constant _ => True
  | .choice branches none => BranchesLiterals P branches
  | .choice branches (some nodes) => BranchesLiterals P branches ∧ NodesLiterals P nodes
  | .loop _ _ _ body _ => NodesLiterals P body

/-- The same for each of some branches. -/
def BranchesLiterals (P : Value → Prop) : List Branch → Prop
  | [] => True
  | .mk condition body _ :: rest =>
    condition.Literals P ∧ NodesLiterals P body ∧ BranchesLiterals P rest

/-- The same for each of some instructions. -/
def NodesLiterals (P : Value → Prop) : List Node → Prop
  | [] => True
  | node :: rest => node.Literals P ∧ NodesLiterals P rest
end

mutual
def Node.decLiterals (P : Value → Prop) [DecidablePred P] :
    ∀ node : Node, Decidable (node.Literals P)
  | .text _ => isTrue trivial
  | .print _ => isTrue trivial
  | .constant _ => isTrue trivial
  | .choice branches none => decBranchesLiterals P branches
  | .choice branches (some nodes) =>
    @instDecidableAnd _ _ (decBranchesLiterals P branches) (decNodesLiterals P nodes)
  | .loop _ _ _ body _ => decNodesLiterals P body

def decBranchesLiterals (P : Value → Prop) [DecidablePred P] :
    ∀ branches : List Branch, Decidable (BranchesLiterals P branches)
  | [] => isTrue trivial
  | .mk condition body _ :: rest =>
    @instDecidableAnd _ _ (Expr.decidableLiterals P condition)
      (@instDecidableAnd _ _ (decNodesLiterals P body) (decBranchesLiterals P rest))

def decNodesLiterals (P : Value → Prop) [DecidablePred P] :
    ∀ nodes : List Node, Decidable (NodesLiterals P nodes)
  | [] => isTrue trivial
  | node :: rest => @instDecidableAnd _ _ (node.decLiterals P) (decNodesLiterals P rest)
end

instance (P : Value → Prop) [DecidablePred P] : DecidablePred (NodesLiterals P) :=
  decNodesLiterals P

/-- A property of the values of a branch. -/
def Branch.Literals (P : Value → Prop) (branch : Branch) : Prop :=
  branch.condition.Literals P ∧ NodesLiterals P branch.body

variable {P Q R : Value → Prop}

theorem nodesLiterals_iff {nodes : List Node} :
    NodesLiterals P nodes ↔ ∀ node ∈ nodes, node.Literals P := by
  induction nodes with
  | nil => simp [NodesLiterals]
  | cons node rest ih => rw [NodesLiterals, ih, List.forall_mem_cons]

theorem branchesLiterals_iff {branches : List Branch} :
    BranchesLiterals P branches ↔ ∀ branch ∈ branches, branch.Literals P := by
  induction branches with
  | nil => simp [BranchesLiterals]
  | cons branch rest ih =>
      obtain ⟨condition, body, span⟩ := branch
      rw [BranchesLiterals, ih, List.forall_mem_cons, Branch.Literals, and_assoc]
      rfl

/-! ## Two properties

Where two properties hold of all values, what follows from both of them does too. -/

theorem Expr.literals_of (h : ∀ v, P v → Q v → R v) {e : Expr} (hP : e.Literals P)
    (hQ : e.Literals Q) : e.Literals R := by
  induction e with
  | lit v => exact h v hP hQ
  | var v => trivial
  | constant name => trivial
  | not e ih => exact ih hP hQ
  | binary op left right ihleft ihright => exact ⟨ihleft hP.1 hQ.1, ihright hP.2 hQ.2⟩

mutual
theorem Node.literals_of (h : ∀ v, P v → Q v → R v) :
    ∀ node : Node, node.Literals P → node.Literals Q → node.Literals R
  | .text _, _, _ => trivial
  | .print _, _, _ => trivial
  | .constant _, _, _ => trivial
  | .choice branches none, hP, hQ => branchesLiterals_of h branches hP hQ
  | .choice branches (some nodes), hP, hQ =>
      ⟨branchesLiterals_of h branches hP.1 hQ.1, nodesLiterals_of h nodes hP.2 hQ.2⟩
  | .loop _ _ _ body _, hP, hQ => nodesLiterals_of h body hP hQ

theorem branchesLiterals_of (h : ∀ v, P v → Q v → R v) :
    ∀ branches : List Branch, BranchesLiterals P branches → BranchesLiterals Q branches →
      BranchesLiterals R branches
  | [], _, _ => trivial
  | .mk _ body _ :: rest, hP, hQ =>
      ⟨Expr.literals_of h hP.1 hQ.1, nodesLiterals_of h body hP.2.1 hQ.2.1,
        branchesLiterals_of h rest hP.2.2 hQ.2.2⟩

theorem nodesLiterals_of (h : ∀ v, P v → Q v → R v) :
    ∀ nodes : List Node, NodesLiterals P nodes → NodesLiterals Q nodes → NodesLiterals R nodes
  | [], _, _ => trivial
  | node :: rest, hP, hQ =>
      ⟨Node.literals_of h node hP.1 hQ.1, nodesLiterals_of h rest hP.2 hQ.2⟩
end

/-! ## Drafts -/

/-- A property of the values in an open tag. -/
def OpenTag.Literals (P : Value → Prop) : OpenTag → Prop
  | .branch _ earlier condition _ => BranchesLiterals P earlier ∧ condition.Literals P
  | .otherwise _ branches => BranchesLiterals P branches
  | .loop .. => True

namespace Draft

/-- A property of every value in what has been read of a tree. -/
structure Literals (P : Value → Prop) (d : Draft) : Prop where
  /-- It holds in the open tags and before them. -/
  layers : ∀ layer ∈ d.layers, layer.1.Literals P ∧ NodesLiterals P layer.2
  /-- It holds in the innermost block. -/
  nodes : NodesLiterals P d.nodes

/-- A block that is closed has the values of its instructions. -/
theorem nodesLiterals_reverse {nodes : List Node} (h : NodesLiterals P nodes) :
    NodesLiterals P nodes.reverse := by
  rw [nodesLiterals_iff] at h ⊢
  intro node hnode
  exact h node (List.mem_reverse.mp hnode)

/-- A branch that is closed goes behind the ones before it. -/
theorem branchesLiterals_append {earlier : List Branch} {condition : Expr} {nodes : List Node}
    (span : Span) (hearlier : BranchesLiterals P earlier) (hcondition : condition.Literals P)
    (hnodes : NodesLiterals P nodes) :
    BranchesLiterals P (earlier ++ [.mk condition nodes.reverse span]) := by
  rw [branchesLiterals_iff] at hearlier ⊢
  intro branch hbranch
  rcases List.mem_append.mp hbranch with hold | hnew
  · exact hearlier branch hold
  · obtain rfl := List.mem_singleton.mp hnew
    exact ⟨hcondition, nodesLiterals_reverse hnodes⟩

theorem push_literals {d : Draft} {node : Node} (hd : d.Literals P) (hnode : node.Literals P) :
    (d.push node).Literals P := by
  unfold push
  split
  · rename_i heq
    have hnodes := hd.nodes
    rw [heq] at hnodes
    exact ⟨hd.layers, trivial, hnodes.2⟩
  · exact ⟨hd.layers, hnode, hd.nodes⟩

theorem enter_literals {d : Draft} {tag : OpenTag} (hd : d.Literals P) (htag : tag.Literals P) :
    (d.enter tag).Literals P := by
  constructor
  · exact List.forall_mem_cons.mpr ⟨⟨htag, hd.nodes⟩, hd.layers⟩
  · trivial

/-- **A token that is read keeps the values scalars.** -/
theorem step_literals {d d' : Draft} {token : Token} (hd : d.Literals Value.IsScalar)
    (h : d.step token = .ok d') : d'.Literals Value.IsScalar := by
  -- what is closed comes from the layer on top, whose values are scalars by `hd`
  cases steps_of_step h with
  | text => exact push_literals hd trivial
  | print => exact push_literals hd trivial
  | constant => exact push_literals hd trivial
  | ifStart hcondition =>
      exact enter_literals hd ⟨trivial, Condition.parse_literals hcondition⟩
  | loop hsource => exact enter_literals hd trivial
  | elseIf hnext =>
      obtain ⟨⟨⟨hearlier, hcondition⟩, houter⟩, hlayers⟩ := List.forall_mem_cons.mp hd.layers
      constructor
      · refine List.forall_mem_cons.mpr ⟨⟨⟨?_, Condition.parse_literals hnext⟩, houter⟩, hlayers⟩
        exact branchesLiterals_append _ hearlier hcondition hd.nodes
      · trivial
  | otherwise =>
      obtain ⟨⟨⟨hearlier, hcondition⟩, houter⟩, hlayers⟩ := List.forall_mem_cons.mp hd.layers
      constructor
      · refine List.forall_mem_cons.mpr ⟨⟨?_, houter⟩, hlayers⟩
        exact branchesLiterals_append _ hearlier hcondition hd.nodes
      · trivial
  | endIf =>
      obtain ⟨⟨⟨hearlier, hcondition⟩, houter⟩, hlayers⟩ := List.forall_mem_cons.mp hd.layers
      exact ⟨hlayers, branchesLiterals_append _ hearlier hcondition hd.nodes, houter⟩
  | endElse =>
      obtain ⟨⟨hbranches, houter⟩, hlayers⟩ := List.forall_mem_cons.mp hd.layers
      exact ⟨hlayers, ⟨hbranches, nodesLiterals_reverse hd.nodes⟩, houter⟩
  | endLoop =>
      obtain ⟨⟨-, houter⟩, hlayers⟩ := List.forall_mem_cons.mp hd.layers
      exact ⟨hlayers, nodesLiterals_reverse hd.nodes, houter⟩

/-- Tokens that are read in order keep the values scalars. -/
theorem run_literals {tokens : List Token} {d d' : Draft} (hd : d.Literals Value.IsScalar)
    (h : d.run tokens = .ok d') : d'.Literals Value.IsScalar :=
  keeps_of_run (fun hd hstep => step_literals hd (step_of_steps hstep)) hd h

end Draft

/-- **What is written in a template is neither a map nor a loop.** -/
theorem Node.ofTokens_literals {tokens : List Token} {nodes : List Node}
    (h : ofTokens tokens = .ok nodes) : NodesLiterals Value.IsScalar nodes := by
  have hempty : Draft.Literals Value.IsScalar {} := by
    constructor
    · intro layer hlayer
      contradiction
    · trivial
  obtain ⟨rest, hrun, rfl⟩ := ofTokens_eq_ok_iff.mp h
  exact Draft.nodesLiterals_reverse (Draft.run_literals hempty hrun).nodes

end PageServer
