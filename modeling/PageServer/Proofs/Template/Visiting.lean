/-
# Where rendering comes to

Rendering goes through the instructions of a tree: into the first branch whose
condition holds, into what stands for none of them, and into a loop once for
each of its rows. It fails only at an instruction that it comes to.

* `Page.within`, `Page.followedBy`: the page for a row, a text behind another one
* `Node.Reaches`: what is rendered on which page, starting from some instructions
* `Node.Visits`: the same, with the conditions on the way as they are
* `Node.failsInside_of_renderAll`: a failure happens where rendering comes to
-/
import Mathlib
import PageServer.Template.Render

namespace PageServer

/-! ## Pages -/

namespace Page

/-- The page for one row of a loop. -/
def within (page : Page) (row : Row) : Page := { page with rows := row :: page.rows }

/-- A text and another one behind it. -/
def followedBy (first second : Except Fault Text) : Except Fault Text :=
  match first with
  | .error fault => .error fault
  | .ok here =>
    match second with
    | .error fault => .error fault
    | .ok after => .ok (here ++ after)

theorem followedBy_eq_error_iff {first second : Except Fault Text} {fault : Fault} :
    followedBy first second = .error fault ↔
      first = .error fault ∨ (∃ here, first = .ok here) ∧ second = .error fault := by
  cases first <;> cases second <;> simp [followedBy]

theorem forRows_cons (page : Page) (name : Text) (count : Nat) (body : Page → Except Fault Text)
    (index : Nat) (fields : Fields) (rest : List Fields) :
    page.forRows name count body index (fields :: rest) =
      followedBy (body (page.within ⟨name, fields, index, count⟩))
        (page.forRows name count body (index + 1) rest) := rfl

/-- Bodies that give the same for each row give the same for all of them. -/
theorem forRows_congr {page other : Page} {name : Text} {count : Nat}
    {body body' : Page → Except Fault Text}
    (h : ∀ fields index, body (page.within ⟨name, fields, index, count⟩) =
      body' (other.within ⟨name, fields, index, count⟩)) (index : Nat) (rows : List Fields) :
    page.forRows name count body index rows = other.forRows name count body' index rows := by
  induction rows generalizing index with
  | nil => rfl
  | cons fields rest ih =>
      rw [forRows_cons, forRows_cons, h fields index, ih]

/-- A loop fails for one of its rows. -/
theorem exists_row_of_forRows {page : Page} {name : Text} {count : Nat}
    {body : Page → Except Fault Text} {index : Nat} {rows : List Fields} {fault : Fault}
    (h : page.forRows name count body index rows = .error fault) :
    ∃ n fields, rows[n]? = some fields ∧
      body (page.within ⟨name, fields, index + n, count⟩) = .error fault := by
  induction rows generalizing index with
  | nil => contradiction
  | cons fields rest ih =>
      rw [forRows_cons, followedBy_eq_error_iff] at h
      rcases h with hhere | ⟨-, hrest⟩
      · exact ⟨0, fields, rfl, hhere⟩
      · obtain ⟨n, later, hlater, hbody⟩ := ih hrest
        refine ⟨n + 1, later, hlater, ?_⟩
        rwa [← Nat.add_assoc, Nat.add_right_comm]

end Page

namespace Node

theorem renderAll_cons (page : Page) (node : Node) (rest : List Node) :
    renderAll page (node :: rest) =
      Page.followedBy (renderOne page node) (renderAll page rest) := rfl

/-! ## What is rendered -/

/-- An instruction that rendering some instructions on a page may come to, and the page that it is
rendered on then. -/
inductive Reaches : Page → List Node → Page → Node → Prop where
  /-- One of the instructions. -/
  | here {page : Page} {nodes : List Node} {node : Node} (h : node ∈ nodes) :
      Reaches page nodes page node
  /-- One in a branch. -/
  | branch {page inside : Page} {nodes : List Node} {node : Node} {branches : List Branch}
      {otherwise : Option (List Node)} {branch : Branch} (h : .choice branches otherwise ∈ nodes)
      (hbranch : branch ∈ branches) (hbody : Reaches page branch.body inside node) :
      Reaches page nodes inside node
  /-- One in what stands for none of the branches. -/
  | otherwise {page inside : Page} {nodes body : List Node} {node : Node} {branches : List Branch}
      (h : .choice branches (some body) ∈ nodes) (hbody : Reaches page body inside node) :
      Reaches page nodes inside node
  /-- One in a loop, for one of its rows. -/
  | row {page inside : Page} {nodes body : List Node} {node : Node} {name key : Text}
      {parent : Option Text} {span : Span} {rows : List Fields} {fields : Fields} {index : Nat}
      (h : .loop name parent key body span ∈ nodes) (hrows : page.rowsOf parent key span = .ok rows)
      (hfields : rows[index]? = some fields)
      (hbody : Reaches (page.within ⟨name, fields, index, rows.length⟩) body inside node) :
      Reaches page nodes inside node

end Node

/-- The condition of a branch has a value on a page, which holds or does not. -/
def Branch.Decides (branch : Branch) (page : Page) (holds : Bool) : Prop :=
  ∃ v, branch.condition.evaluate page.scope = .ok v ∧ v.truthy = holds

namespace Node

/-- An instruction that rendering some instructions on a page comes to unless it fails before, and
the page that it is rendered on then: a branch is entered if its condition holds and those of the
branches before it do not. -/
inductive Visits : Page → List Node → Page → Node → Prop where
  /-- One of the instructions. -/
  | here {page : Page} {nodes : List Node} {node : Node} (h : node ∈ nodes) :
      Visits page nodes page node
  /-- One in the first branch whose condition holds. -/
  | branch {page inside : Page} {nodes : List Node} {node : Node} {earlier later : List Branch}
      {otherwise : Option (List Node)} {branch : Branch}
      (h : .choice (earlier ++ branch :: later) otherwise ∈ nodes)
      (hearlier : ∀ other ∈ earlier, other.Decides page false)
      (hbranch : branch.Decides page true) (hbody : Visits page branch.body inside node) :
      Visits page nodes inside node
  /-- One in what stands for none of the branches. -/
  | otherwise {page inside : Page} {nodes body : List Node} {node : Node} {branches : List Branch}
      (h : .choice branches (some body) ∈ nodes)
      (hbranches : ∀ branch ∈ branches, branch.Decides page false)
      (hbody : Visits page body inside node) : Visits page nodes inside node
  /-- One in a loop, for one of its rows. -/
  | row {page inside : Page} {nodes body : List Node} {node : Node} {name key : Text}
      {parent : Option Text} {span : Span} {rows : List Fields} {fields : Fields} {index : Nat}
      (h : .loop name parent key body span ∈ nodes) (hrows : page.rowsOf parent key span = .ok rows)
      (hfields : rows[index]? = some fields)
      (hbody : Visits (page.within ⟨name, fields, index, rows.length⟩) body inside node) :
      Visits page nodes inside node

theorem Visits.reaches {page inside : Page} {nodes : List Node} {node : Node}
    (h : Visits page nodes inside node) : Reaches page nodes inside node := by
  induction h with
  | here h => exact .here h
  | branch h _ _ _ ih => exact .branch h (List.mem_append_right _ List.mem_cons_self) ih
  | otherwise h _ _ ih => exact .otherwise h ih
  | row h hrows hfields _ ih => exact .row h hrows hfields ih

/-- What some of the instructions come to is what all of them come to. -/
theorem Visits.mono {page inside : Page} {nodes more : List Node} {node : Node}
    (h : Visits page nodes inside node) (hmore : nodes ⊆ more) : Visits page more inside node := by
  cases h with
  | here h => exact .here (hmore h)
  | branch h hearlier hbranch hbody => exact .branch (hmore h) hearlier hbranch hbody
  | otherwise h hbranches hbody => exact .otherwise (hmore h) hbranches hbody
  | row h hrows hfields hbody => exact .row (hmore h) hrows hfields hbody

/-! ## Failures -/

/-- The ways in which an instruction itself fails, and not one inside it. -/
inductive Fails (page : Page) : Node → Fault → Prop where
  /-- The condition of a branch has no value, and those before it do not hold. -/
  | condition {earlier later : List Branch} {branch : Branch} {otherwise : Option (List Node)}
      {message : Text} (hearlier : ∀ other ∈ earlier, other.Decides page false)
      (h : branch.condition.evaluate page.scope = .error message) :
      Fails page (.choice (earlier ++ branch :: later) otherwise) (Page.failure branch.span message)
  /-- The rows of a loop are not to be had. -/
  | rows {name key : Text} {parent : Option Text} {body : List Node} {span : Span} {fault : Fault}
      (h : page.rowsOf parent key span = .error fault) :
      Fails page (.loop name parent key body span) fault

/-- Rendering some instructions comes to one that fails. -/
def FailsInside (page : Page) (nodes : List Node) (fault : Fault) : Prop :=
  ∃ inside node, Visits page nodes inside node ∧ Fails inside node fault

mutual

theorem failsInside_of_renderOne (page : Page) {fault : Fault} : ∀ node : Node,
    renderOne page node = .error fault → FailsInside page [node] fault
  | .text _, h => by contradiction
  | .print _, h => by contradiction
  | .constant _, h => by contradiction
  | .choice branches none, h => by
      rcases failsInside_of_renderChoice page [] branches none (List.forall_mem_nil _) h with
        hinside | ⟨-, hotherwise⟩
      · exact hinside
      · contradiction
  | .choice branches (some nodes), h => by
      rcases failsInside_of_renderChoice page [] branches (some nodes) (List.forall_mem_nil _) h
        with hinside | ⟨hbranches, hotherwise⟩
      · exact hinside
      · obtain ⟨inside, node, hvisits, hfails⟩ := failsInside_of_renderAll page nodes hotherwise
        exact ⟨inside, node, .otherwise List.mem_cons_self hbranches hvisits, hfails⟩
  | .loop name parent key body span, h => by
      rw [renderOne] at h
      split at h
      · rename_i heq
        rw [← Except.error.inj h]
        exact ⟨page, _, .here List.mem_cons_self, .rows heq⟩
      · rename_i rows hrows
        obtain ⟨n, fields, hfields, hbody⟩ := Page.exists_row_of_forRows h
        rw [Nat.zero_add] at hbody
        obtain ⟨inside, node, hvisits, hfails⟩ := failsInside_of_renderAll _ body hbody
        exact ⟨inside, node, .row List.mem_cons_self hrows hfields hvisits, hfails⟩

/-- The branches before those that are left have been passed over. -/
theorem failsInside_of_renderChoice (page : Page) {fault : Fault}
    {rest : Page → Except Fault Text} (earlier : List Branch) : ∀ (branches : List Branch)
      (otherwise : Option (List Node)), (∀ branch ∈ earlier, branch.Decides page false) →
    renderChoice page rest branches = .error fault →
      FailsInside page [.choice (earlier ++ branches) otherwise] fault ∨
        (∀ branch ∈ earlier ++ branches, branch.Decides page false) ∧ rest page = .error fault
  | [], _, hearlier, h => Or.inr ⟨by rwa [List.append_nil], h⟩
  | .mk condition body span :: later, otherwise, hearlier, h => by
      rw [renderChoice] at h
      split at h
      · rename_i heq
        rw [← Except.error.inj h]
        exact Or.inl ⟨page, _, .here List.mem_cons_self, .condition hearlier heq⟩
      · rename_i v hvalue
        split at h
        · rename_i htrue
          obtain ⟨inside, node, hvisits, hfails⟩ := failsInside_of_renderAll page body h
          have hbranch : (Branch.mk condition body span).Decides page true := ⟨v, hvalue, htrue⟩
          exact Or.inl ⟨inside, node, .branch List.mem_cons_self hearlier hbranch hvisits, hfails⟩
        · rename_i hfalse
          have hbranch : (Branch.mk condition body span).Decides page false :=
            ⟨v, hvalue, by simpa using hfalse⟩
          have hpassed : ∀ branch ∈ earlier ++ [.mk condition body span],
              branch.Decides page false := by
            intro branch hmem
            rcases List.mem_append.mp hmem with hold | hnew
            · exact hearlier branch hold
            · rwa [List.mem_singleton.mp hnew]
          have hlater := failsInside_of_renderChoice page (earlier ++ [.mk condition body span])
            later otherwise hpassed h
          rwa [List.append_assoc, List.singleton_append] at hlater

/-- **A failure happens at an instruction that rendering comes to.** -/
theorem failsInside_of_renderAll (page : Page) {fault : Fault} : ∀ nodes : List Node,
    renderAll page nodes = .error fault → FailsInside page nodes fault
  | [], h => by contradiction
  | first :: rest, h => by
      rw [renderAll_cons, Page.followedBy_eq_error_iff] at h
      rcases h with hfirst | ⟨-, hrest⟩
      · obtain ⟨inside, node, hvisits, hfails⟩ := failsInside_of_renderOne page first hfirst
        exact ⟨inside, node, hvisits.mono (by simp), hfails⟩
      · obtain ⟨inside, node, hvisits, hfails⟩ := failsInside_of_renderAll page rest hrest
        exact ⟨inside, node, hvisits.mono (List.subset_cons_self first rest), hfails⟩

end

end Node
end PageServer
