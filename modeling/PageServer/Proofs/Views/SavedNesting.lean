/-
# Which trees are read back

A tree that is saved is read back exactly if each number in it can be and its
JSON is not nested too deeply. The readers open one container less for each
that they are inside of, so the nesting of what is written is compared with
what is left, one kind of value, condition and instruction after another.

* `Json.depth`: how many containers of a JSON tree stand one inside another
* `Value.Readable`, `Node.Readable`: numbers that can be read from JSON
* `SavedTree.isSome_value?`, `SavedTree.isSome_expr?`, `SavedTree.isSome_node?`: what is read with
  so many containers left
* `SavedTree.reads_back`: which trees are read back, and what becomes of the others
-/
import PageServer.Proofs.Text.Utf8
import PageServer.Proofs.Views.SavedTree
import PageServer.Views.Store

namespace PageServer

/-! ## Nesting -/

namespace Json

mutual
/-- How many containers of a tree stand one inside another at most. -/
def depth : Json → Nat
  | array items => itemsDepth items + 1
  | object members => membersDepth members + 1
  | _ => 0

/-- The greatest depth among items. -/
def itemsDepth : List Json → Nat
  | [] => 0
  | item :: rest => max item.depth (itemsDepth rest)

/-- The greatest depth among members. -/
def membersDepth : List (Option Text × Json) → Nat
  | [] => 0
  | (_, value) :: rest => max value.depth (membersDepth rest)
end

theorem itemsDepth_le {items : List Json} {n : Nat} :
    itemsDepth items ≤ n ↔ ∀ item ∈ items, item.depth ≤ n := by
  induction items with
  | nil => simp [itemsDepth]
  | cons item rest ih => rw [itemsDepth, max_le_iff, ih, List.forall_mem_cons]

theorem membersDepth_le {members : List (Option Text × Json)} {n : Nat} :
    membersDepth members ≤ n ↔ ∀ member ∈ members, member.2.depth ≤ n := by
  induction members with
  | nil => simp [membersDepth]
  | cons member rest ih =>
      obtain ⟨name, value⟩ := member
      rw [membersDepth, max_le_iff, ih, List.forall_mem_cons]

/-- Items stand one container further inside than their array. -/
theorem depth_array_le {items : List Json} {n : Nat} :
    (array items).depth ≤ n + 1 ↔ ∀ item ∈ items, item.depth ≤ n := by
  rw [depth, Nat.succ_le_succ_iff, itemsDepth_le]

/-- Members stand one container further inside than their object. -/
theorem depth_object_le {members : List (Option Text × Json)} {n : Nat} :
    (object members).depth ≤ n + 1 ↔ ∀ member ∈ members, member.2.depth ≤ n := by
  rw [depth, Nat.succ_le_succ_iff, membersDepth_le]

theorem depth_fields_le {members : List (Text × Json)} {n : Nat} :
    (fields members).depth ≤ n + 1 ↔ ∀ member ∈ members, member.2.depth ≤ n := by
  rw [fields, depth_object_le, List.forall_mem_map]

end Json

/-! ## Numbers -/

mutual
/-- Every number in a value can be read from JSON: integers are of 64 bits, and floating-point
numbers are finite. -/
def Value.Readable : Value → Prop
  | .int n => Number.minInt ≤ n ∧ n ≤ Number.maxInt
  | .float x => x.isFinite = true
  | .map fields => FieldsReadable fields
  | .rows rows => RowsReadable rows
  | _ => True

/-- The same for the values of a map. -/
def FieldsReadable : List (Text × Value) → Prop
  | [] => True
  | (_, value) :: rest => value.Readable ∧ FieldsReadable rest

/-- The same for the rows of a loop. -/
def RowsReadable : List (List (Text × Value)) → Prop
  | [] => True
  | row :: rest => FieldsReadable row ∧ RowsReadable rest
end

theorem fieldsReadable_iff {fields : Fields} :
    FieldsReadable fields ↔ ∀ entry ∈ fields, entry.2.Readable := by
  induction fields with
  | nil => simp [FieldsReadable]
  | cons entry rest ih =>
      obtain ⟨name, value⟩ := entry
      rw [FieldsReadable, ih, List.forall_mem_cons]

theorem rowsReadable_iff {rows : List Fields} :
    RowsReadable rows ↔ ∀ row ∈ rows, FieldsReadable row := by
  induction rows with
  | nil => simp [RowsReadable]
  | cons row rest ih => rw [RowsReadable, ih, List.forall_mem_cons]

mutual
/-- Every number in an instruction can be read from JSON: those in its conditions, and the lines
of its places, which are sizes. -/
def Node.Readable : Node → Prop
  | .text _ => True
  | .print _ => True
  | .constant _ => True
  | .choice branches none => BranchesReadable branches
  | .choice branches (some nodes) => BranchesReadable branches ∧ NodesReadable nodes
  | .loop _ _ _ body span => NodesReadable body ∧ span.line ≤ Number.maxSize

/-- The same for each of some branches. -/
def BranchesReadable : List Branch → Prop
  | [] => True
  | .mk condition body span :: rest =>
    (condition.Literals Value.Readable ∧ NodesReadable body ∧ span.line ≤ Number.maxSize) ∧
      BranchesReadable rest

/-- The same for each of some instructions. -/
def NodesReadable : List Node → Prop
  | [] => True
  | node :: rest => node.Readable ∧ NodesReadable rest
end

/-- Every number in a branch can be read from JSON. -/
def Branch.Readable (branch : Branch) : Prop :=
  branch.condition.Literals Value.Readable ∧ NodesReadable branch.body ∧
    branch.span.line ≤ Number.maxSize

theorem nodesReadable_iff {nodes : List Node} :
    NodesReadable nodes ↔ ∀ node ∈ nodes, node.Readable := by
  induction nodes with
  | nil => simp [NodesReadable]
  | cons node rest ih => rw [NodesReadable, ih, List.forall_mem_cons]

theorem branchesReadable_iff {branches : List Branch} :
    BranchesReadable branches ↔ ∀ branch ∈ branches, branch.Readable := by
  induction branches with
  | nil => simp [BranchesReadable]
  | cons branch rest ih =>
      obtain ⟨condition, body, span⟩ := branch
      rw [BranchesReadable, ih, List.forall_mem_cons]
      rfl

namespace SavedTree

/-! ## Lists and maps -/

/-- A list is read if each of its items is. -/
theorem isSome_mapM {α : Type} {read : Json → Option α} {items : List Json} :
    (items.mapM read).isSome ↔ ∀ item ∈ items, (read item).isSome := by
  induction items with
  | nil => simp
  | cons item rest ih =>
      rw [List.mapM_cons, List.forall_mem_cons, ← ih]
      cases read item <;> cases rest.mapM read <;> simp

/-- What is put together from two parts is read if both are. -/
theorem isSome_bind_map {α β γ : Type} {first : Option α} {second : Option β} {f : α → β → γ} :
    (first.bind fun a => second.map (f a)).isSome ↔ first.isSome ∧ second.isSome := by
  cases first <;> cases second <;> simp

/-- Members are read if the value of each of them is, whatever was there before. -/
theorem isSome_foldlM {read : Json → Option Value} {fields before : Fields} :
    ((ofFields fields).foldlM (fun (fields : Fields) (entry : Option Text × Json) =>
      match entry.1, read entry.2 with
      | some name, some value => some (Table.insert name value fields)
      | _, _ => none) before).isSome ↔ ∀ entry ∈ fields, (read (ofValue entry.2)).isSome := by
  induction fields generalizing before with
  | nil => simp [ofFields]
  | cons entry rest ih =>
      obtain ⟨name, value⟩ := entry
      rw [ofFields, List.foldlM_cons, List.forall_mem_cons]
      cases read (ofValue value) with
      | none => simp
      | some found =>
          rw [← @ih (before.insert name found)]
          simp

/-- A map is read if each of its values is. -/
theorem isSome_mapWith {read : Json → Option Value} {fields : Fields} :
    (mapWith read (ofFields fields)).isSome ↔
      ∀ entry ∈ fields, (read (ofValue entry.2)).isSome :=
  isSome_foldlM

/-- Rows are read if each value in them is. -/
theorem isSome_mapM_rows {read : Json → Option Value} {rows : List Fields} :
    ((ofRows rows).mapM (rowWith read)).isSome ↔
      ∀ row ∈ rows, ∀ entry ∈ row, (read (ofValue entry.2)).isSome := by
  rw [isSome_mapM, ofRows_eq_map, List.forall_mem_map]
  exact forall₂_congr fun row _ => isSome_mapWith

/-! ## Nesting of what is written -/

theorem depth_kind_le {name : Text} {content : Json} {n : Nat} :
    (kind name content).depth ≤ n + 1 ↔ content.depth ≤ n := by
  rw [kind, Json.depth_fields_le, List.forall_mem_singleton]

/-- A kind with what comes with it stands in a container. -/
theorem not_depth_kind_le (name : Text) (content : Json) : ¬ (kind name content).depth ≤ 0 :=
  Nat.not_succ_le_zero _

theorem depth_ofOption (t : Option Text) : (ofOption t).depth = 0 := by
  cases t <;> rfl

theorem depth_ofVar (v : VarRef) : (ofVar v).depth = 2 := by
  have hpath : Json.itemsDepth (v.path.map .text) ≤ 0 :=
    Json.itemsDepth_le.mpr (List.forall_mem_map.mpr fun _ _ => Nat.zero_le 0)
  have hdepth : (ofVar v).depth =
      max (ofOption v.scope).depth (max (Json.itemsDepth (v.path.map .text) + 1) 0) + 1 := rfl
  rw [hdepth, depth_ofOption, Nat.le_zero.mp hpath]
  rfl

theorem depth_ofSpan (s : Span) : (ofSpan s).depth = 1 := rfl

theorem depth_ofFields_le {fields : Fields} {n : Nat} :
    (Json.object (ofFields fields)).depth ≤ n + 1 ↔
      ∀ entry ∈ fields, (ofValue entry.2).depth ≤ n := by
  rw [Json.depth_object_le]
  induction fields with
  | nil => simp [ofFields]
  | cons entry rest ih =>
      obtain ⟨name, value⟩ := entry
      rw [ofFields, List.forall_mem_cons, List.forall_mem_cons, ih]

theorem depth_ofRows_le {rows : List Fields} {n : Nat} :
    (Json.array (ofRows rows)).depth ≤ n + 2 ↔
      ∀ row ∈ rows, ∀ entry ∈ row, (ofValue entry.2).depth ≤ n := by
  rw [Json.depth_array_le, ofRows_eq_map, List.forall_mem_map]
  exact forall₂_congr fun row _ => depth_ofFields_le

theorem depth_binary_le {op : Operator} {left right : Expr} {n : Nat} :
    (ofExpr (.binary op left right)).depth ≤ n + 2 ↔
      (ofExpr left).depth ≤ n ∧ (ofExpr right).depth ≤ n := by
  rw [ofExpr, depth_kind_le, Json.depth_fields_le]
  simp [Json.text, Json.depth]

theorem depth_ofBranch_le {condition : Expr} {body : List Node} {span : Span} {n : Nat} :
    (ofBranch (.mk condition body span)).depth ≤ n + 1 ↔
      (ofExpr condition).depth ≤ n ∧ (Json.array (ofNodes body)).depth ≤ n ∧
        (ofSpan span).depth ≤ n := by
  rw [ofBranch, Json.depth_fields_le]
  simp

theorem depth_loop_le {name key : Text} {parent : Option Text} {body : List Node} {span : Span}
    {n : Nat} :
    (ofNode (.loop name parent key body span)).depth ≤ n + 2 ↔
      (Json.array (ofNodes body)).depth ≤ n ∧ (ofSpan span).depth ≤ n := by
  rw [ofNode, depth_kind_le, Json.depth_fields_le]
  simp [Json.text, Json.depth, depth_ofOption]

/-! ## Variables and places -/

/-- A variable is read unless it is nested too deeply. -/
theorem isSome_var? {depth : Nat} {v : VarRef} :
    (var? depth (ofVar v)).isSome ↔ (ofVar v).depth ≤ depth := by
  rw [var?_ofVar, depth_ofVar]
  by_cases hdepth : 2 ≤ depth <;> simp [hdepth]

/-- A place is read if its line is a size. -/
theorem isSome_span? {depth : Nat} {s : Span} :
    (span? depth (ofSpan s)).isSome ↔
      s.line ≤ Number.maxSize ∧ (ofSpan s).depth ≤ depth := by
  rw [span?_ofSpan, depth_ofSpan]
  by_cases hplace : s.line ≤ Number.maxSize ∧ 1 ≤ depth <;> simp [hplace]

/-! ## Values -/

/-- An integer is read if it is one of 64 bits. -/
theorem isSome_intOf? {n : Int} :
    (Json.intOf? (Text.ofInt n)).isSome ↔ Number.minInt ≤ n ∧ n ≤ Number.maxInt := by
  rw [intOf?_ofInt]
  by_cases hsize : Number.minInt ≤ n ∧ n ≤ Number.maxInt <;> simp [hsize]

/-- **Which values are read** with so many containers left. -/
theorem isSome_value? {depth : Nat} {v : Value} (hexact : v.Exact) :
    (value? depth (ofValue v)).isSome ↔ v.Readable ∧ (ofValue v).depth ≤ depth := by
  -- what is inside a map or a loop is read with two or three containers less
  induction depth using Nat.strongRecOn generalizing v with
  | ind depth ih =>
      match v, depth, ih with
      | .null, depth, _ =>
          rw [value?_null]
          exact iff_of_true rfl ⟨trivial, Nat.zero_le depth⟩
      | .bool b, 0, _ | .int n, 0, _ | .float x, 0, _ | .str t, 0, _ | .map fields, 0, _
      | .rows rows, 0, _ =>
          exact iff_of_false Bool.false_ne_true fun h => not_depth_kind_le _ _ h.2
      | .map fields, 1, _ | .rows rows, 1, _ =>
          exact iff_of_false Bool.false_ne_true fun h =>
            Nat.not_succ_le_zero _ (depth_kind_le.mp h.2)
      | .bool b, depth + 1, _ =>
          rw [value?_bool]
          exact iff_of_true rfl ⟨trivial, depth_kind_le.mpr (Nat.zero_le depth)⟩
      | .int n, depth + 1, _ =>
          rw [value?_int, Option.isSome_map, isSome_intOf?]
          exact (and_iff_left (depth_kind_le.mpr (Nat.zero_le depth))).symm
      | .float x, depth + 1, _ =>
          rw [value?_float, ofValue, depth_kind_le, Value.Readable]
          by_cases hfinite : x.isFinite = true
          · rw [if_pos hfinite, if_pos hfinite, hexact hfinite]
            exact iff_of_true rfl ⟨hfinite, Nat.zero_le depth⟩
          · rw [if_neg hfinite]
            exact iff_of_false Bool.false_ne_true fun h => hfinite h.1
      | .str t, depth + 1, _ =>
          rw [value?_str]
          exact iff_of_true rfl ⟨trivial, depth_kind_le.mpr (Nat.zero_le depth)⟩
      | .map fields, depth + 2, ih =>
          have hentry : ∀ entry ∈ fields, ((value? depth (ofValue entry.2)).isSome ↔
              entry.2.Readable ∧ (ofValue entry.2).depth ≤ depth) :=
            fun entry hentry => ih depth (by omega) (exact_of_mem hexact hentry)
          rw [value?_map, Option.isSome_map, isSome_mapWith, ofValue, depth_kind_le,
            depth_ofFields_le, Value.Readable, fieldsReadable_iff, forall₂_congr hentry]
          exact forall₂_and
      | .rows [], 2, _ =>
          rw [value?_rows_two]
          exact iff_of_true rfl ⟨trivial, le_refl 2⟩
      | .rows (row :: rest), 2, _ =>
          refine iff_of_false Bool.false_ne_true fun h => ?_
          have hrow := Json.depth_array_le.mp (depth_kind_le.mp h.2) (.object (ofFields row))
            List.mem_cons_self
          exact Nat.not_succ_le_zero _ hrow
      | .rows rows, depth + 3, ih =>
          have hentry : ∀ row ∈ rows, ∀ entry ∈ row, ((value? depth (ofValue entry.2)).isSome ↔
              entry.2.Readable ∧ (ofValue entry.2).depth ≤ depth) :=
            fun row hrow entry hentry =>
              ih depth (by omega) (exact_of_mem_rows hexact hrow hentry)
          rw [value?_rows, Option.isSome_map, isSome_mapM_rows, ofValue, depth_kind_le,
            depth_ofRows_le, Value.Readable, rowsReadable_iff,
            forall₂_congr fun row _ => fieldsReadable_iff,
            forall₂_congr fun row hrow => forall₂_congr (hentry row hrow),
            forall₂_congr fun row _ => forall₂_and]
          exact forall₂_and

/-! ## Conditions -/

/-- **Which conditions are read** with so many containers left. -/
theorem isSome_expr? {depth : Nat} {e : Expr} (hexact : e.Literals Value.Exact) :
    (expr? depth (ofExpr e)).isSome ↔
      e.Literals Value.Readable ∧ (ofExpr e).depth ≤ depth := by
  have hzero : ∀ {e : Expr}, (expr? 0 (ofExpr e)).isSome ↔
      e.Literals Value.Readable ∧ (ofExpr e).depth ≤ 0 := by
    intro e
    cases e <;> exact iff_of_false Bool.false_ne_true fun h => not_depth_kind_le _ _ h.2
  induction e generalizing depth with
  | lit v =>
      cases depth with
      | zero => exact hzero
      | succ depth =>
          rw [expr?_lit, Option.isSome_map, isSome_value? hexact, ofExpr, depth_kind_le]
          rfl
  | var v =>
      cases depth with
      | zero => exact hzero
      | succ depth =>
          rw [expr?_var, Option.isSome_map, isSome_var?, ofExpr, depth_kind_le]
          exact (and_iff_right trivial).symm
  | constant name =>
      cases depth with
      | zero => exact hzero
      | succ depth =>
          rw [expr?_constant]
          exact iff_of_true rfl ⟨trivial, depth_kind_le.mpr (Nat.zero_le depth)⟩
  | not e ih =>
      cases depth with
      | zero => exact hzero
      | succ depth =>
          have hinside : (expr? depth (ofExpr e)).isSome ↔
              e.Literals Value.Readable ∧ (ofExpr e).depth ≤ depth := ih hexact
          rw [expr?_not, Option.isSome_map, hinside, ofExpr, depth_kind_le]
          rfl
  | binary op left right ihleft ihright =>
      match depth with
      | 0 => exact hzero
      | 1 =>
          exact iff_of_false Bool.false_ne_true fun h =>
            Nat.not_succ_le_zero _ (depth_kind_le.mp h.2)
      | depth + 2 =>
          have hleft : (expr? depth (ofExpr left)).isSome ↔
              left.Literals Value.Readable ∧ (ofExpr left).depth ≤ depth := ihleft hexact.1
          have hright : (expr? depth (ofExpr right)).isSome ↔
              right.Literals Value.Readable ∧ (ofExpr right).depth ≤ depth := ihright hexact.2
          rw [expr?_binary, isSome_bind_map, hleft, hright, depth_binary_le, Expr.Literals]
          exact and_and_and_comm

/-! ## Instructions -/

/-- Instructions are read if each one is. -/
theorem isSome_nodesAt {depth : Nat} {nodes : List Node}
    (hnode : ∀ inside < depth, ∀ node ∈ nodes,
      ((node? inside (ofNode node)).isSome ↔ node.Readable ∧ (ofNode node).depth ≤ inside)) :
    (nodesAt depth (.array (ofNodes nodes))).isSome ↔
      NodesReadable nodes ∧ (Json.array (ofNodes nodes)).depth ≤ depth := by
  cases depth with
  | zero => exact iff_of_false Bool.false_ne_true fun h => Nat.not_succ_le_zero _ h.2
  | succ depth =>
      rw [nodesAt, list?, isSome_mapM, Json.depth_array_le, ofNodes_eq_map, List.forall_mem_map,
        List.forall_mem_map, nodesReadable_iff,
        forall₂_congr (hnode depth (Nat.lt_succ_self depth))]
      exact forall₂_and

/-- A branch is read if its condition, its body and its place are. -/
theorem isSome_branchWith {depth : Nat} {branch : Branch}
    (hexact : branch.condition.Literals Value.Exact)
    (hnode : ∀ inside < depth, ∀ node ∈ branch.body,
      ((node? inside (ofNode node)).isSome ↔ node.Readable ∧ (ofNode node).depth ≤ inside)) :
    (branchWith depth (nodesAt depth) (ofBranch branch)).isSome ↔
      branch.Readable ∧ (ofBranch branch).depth ≤ depth + 1 := by
  obtain ⟨condition, body, span⟩ := branch
  have hparts : (branchWith depth (nodesAt depth) (ofBranch (.mk condition body span))).isSome ↔
      (expr? depth (ofExpr condition)).isSome ∧
        (nodesAt depth (.array (ofNodes body))).isSome ∧ (span? depth (ofSpan span)).isSome := by
    rw [branchWith_ofBranch]
    cases expr? depth (ofExpr condition) with
    | none => simp
    | some condition =>
        rw [Option.bind_some, isSome_bind_map]
        simp
  have hcondition : (expr? depth (ofExpr condition)).isSome ↔
      condition.Literals Value.Readable ∧ (ofExpr condition).depth ≤ depth := isSome_expr? hexact
  have hbody : (nodesAt depth (.array (ofNodes body))).isSome ↔
      NodesReadable body ∧ (Json.array (ofNodes body)).depth ≤ depth := isSome_nodesAt hnode
  rw [hparts, hcondition, hbody, isSome_span?, depth_ofBranch_le]
  constructor
  · rintro ⟨⟨hcondition, hinside⟩, ⟨hbody, hwithin⟩, hline, hplace⟩
    exact ⟨⟨hcondition, hbody, hline⟩, hinside, hwithin, hplace⟩
  · rintro ⟨⟨hcondition, hbody, hline⟩, hinside, hwithin, hplace⟩
    exact ⟨⟨hcondition, hinside⟩, ⟨hbody, hwithin⟩, hline, hplace⟩

/-- Branches are read if each one is. -/
theorem isSome_branchesAt {depth : Nat} {branches : List Branch}
    (hexact : ∀ branch ∈ branches, branch.condition.Literals Value.Exact)
    (hnode : ∀ inside < depth, ∀ branch ∈ branches, ∀ node ∈ branch.body,
      ((node? inside (ofNode node)).isSome ↔ node.Readable ∧ (ofNode node).depth ≤ inside)) :
    (branchesAt depth (.array (ofBranches branches))).isSome ↔
      BranchesReadable branches ∧ (Json.array (ofBranches branches)).depth ≤ depth := by
  match depth, branches with
  | 0, branches => exact iff_of_false Bool.false_ne_true fun h => Nat.not_succ_le_zero _ h.2
  | 1, [] => exact iff_of_true rfl ⟨trivial, le_refl 1⟩
  | 1, .mk condition body span :: rest =>
      refine iff_of_false Bool.false_ne_true fun h => ?_
      exact Nat.not_succ_le_zero _ (Json.depth_array_le.mp h.2 _ List.mem_cons_self)
  | depth + 2, branches =>
      have hbranch : ∀ branch ∈ branches,
          ((branchWith depth (nodesAt depth) (ofBranch branch)).isSome ↔
            branch.Readable ∧ (ofBranch branch).depth ≤ depth + 1) :=
        fun branch hmem => isSome_branchWith (hexact branch hmem)
          fun inside hinside => hnode inside (by omega) branch hmem
      rw [branchesAt, list?, isSome_mapM, Json.depth_array_le, ofBranches_eq_map,
        List.forall_mem_map, List.forall_mem_map, branchesReadable_iff, forall₂_congr hbranch]
      exact forall₂_and

/-- **Which instructions are read** with so many containers left. -/
theorem isSome_node? {depth : Nat} {node : Node} (hexact : node.Literals Value.Exact) :
    (node? depth (ofNode node)).isSome ↔ node.Readable ∧ (ofNode node).depth ≤ depth := by
  -- what is inside an instruction is read with fewer containers left
  induction depth using Nat.strongRecOn generalizing node with
  | ind depth ih =>
      match node, depth, ih with
      | .text _, 0, _ | .print _, 0, _ | .constant _, 0, _ | .choice _ none, 0, _
      | .choice _ (some _), 0, _ | .loop .., 0, _ =>
          exact iff_of_false Bool.false_ne_true fun h => not_depth_kind_le _ _ h.2
      | .choice _ none, 1, _ | .choice _ (some _), 1, _ | .loop .., 1, _ =>
          exact iff_of_false Bool.false_ne_true fun h =>
            Nat.not_succ_le_zero _ (depth_kind_le.mp h.2)
      | .text t, depth + 1, _ =>
          rw [node?_text]
          exact iff_of_true rfl ⟨trivial, depth_kind_le.mpr (Nat.zero_le depth)⟩
      | .print v, depth + 1, _ =>
          rw [node?_print, Option.isSome_map, isSome_var?, ofNode, depth_kind_le]
          exact (and_iff_right trivial).symm
      | .constant name, depth + 1, _ =>
          rw [node?_constant]
          exact iff_of_true rfl ⟨trivial, depth_kind_le.mpr (Nat.zero_le depth)⟩
      | .choice branches none, depth + 2, ih =>
          rw [Node.Literals, branchesLiterals_iff] at hexact
          have hbranches := isSome_branchesAt (fun branch hbranch => (hexact branch hbranch).1)
            fun inside (hinside : inside < depth) branch hbranch node hnode =>
              ih inside (by omega) (nodesLiterals_iff.mp (hexact branch hbranch).2 node hnode)
          rw [ofNode, node?_if, choiceWith_null, Option.isSome_map, hbranches, depth_kind_le,
            Json.depth_fields_le, Node.Readable]
          simp [Json.depth]
      | .choice branches (some nodes), depth + 2, ih =>
          rw [Node.Literals, branchesLiterals_iff, nodesLiterals_iff] at hexact
          have hbranches := isSome_branchesAt (fun branch hbranch => (hexact.1 branch hbranch).1)
            fun inside (hinside : inside < depth) branch hbranch node hnode =>
              ih inside (by omega) (nodesLiterals_iff.mp (hexact.1 branch hbranch).2 node hnode)
          have hnodes := isSome_nodesAt fun inside (hinside : inside < depth) node hnode =>
            ih inside (by omega) (hexact.2 node hnode)
          rw [ofNode, node?_if, choiceWith_array, isSome_bind_map, hbranches, hnodes,
            depth_kind_le, Json.depth_fields_le, Node.Readable, List.forall_mem_cons,
            List.forall_mem_singleton]
          exact and_and_and_comm
      | .loop name parent key body span, depth + 2, ih =>
          rw [Node.Literals, nodesLiterals_iff] at hexact
          have hbody := isSome_nodesAt fun inside (hinside : inside < depth) node hnode =>
            ih inside (by omega) (hexact node hnode)
          rw [depth_loop_le, ofNode, node?_loop, loopWith_fields, isSome_bind_map, hbody,
            isSome_span?, Node.Readable]
          exact and_and_and_comm

/-! ## Trees -/

/-- **A tree is read back or nothing is**, and it is read back exactly if each number in it can be
read and its JSON is not nested too deeply. A saved tree is used if it is read back and not out of
date. -/
theorem reads_back {nodes : List Node} (hexact : NodesLiterals Value.Exact nodes) :
    (read? (write nodes) = some nodes ∨ read? (write nodes) = none) ∧
      (read? (write nodes) = some nodes ↔
        NodesReadable nodes ∧ (Json.array (ofNodes nodes)).depth ≤ maxDepth) ∧
      ∀ (v : Views) (name : Text) (time : Int),
        v.disk.stat? (Views.savedName name) = some (.file (Utf8.encode (write nodes)) time) →
          (v.savedTree name).1 =
            if v.saves = true ∧ v.isExpired name time = false then read? (write nodes)
            else none := by
  have hcases : read? (write nodes) = some nodes ∨ read? (write nodes) = none := by
    cases hread : read? (write nodes) with
    | none => exact .inr rfl
    | some found => exact .inl (congrArg some (eq_of_read?_write hexact hread))
  have hread : read? (write nodes) = nodesAt maxDepth (.array (ofNodes nodes)) := by
    rw [read?, read?_write_json]
    rfl
  have hsome : (read? (write nodes)).isSome ↔
      NodesReadable nodes ∧ (Json.array (ofNodes nodes)).depth ≤ maxDepth := by
    rw [hread]
    exact isSome_nodesAt fun inside _ node hnode =>
      isSome_node? (nodesLiterals_iff.mp hexact node hnode)
  refine ⟨hcases, ?_, ?_⟩
  · rw [← hsome]
    constructor
    · intro h
      rw [h]
      rfl
    · intro h
      rcases hcases with hfound | hnone
      · exact hfound
      · rw [hnone] at h
        contradiction
  · intro v name time hstat
    unfold Views.savedTree
    rw [hstat]
    cases v.saves with
    | false => rfl
    | true =>
        cases hexpired : v.isExpired name time with
        | true => simp [Entry.modified, hexpired]
        | false =>
            simp only [Entry.modified, hexpired, Utf8.decode?_encode]
            cases read? (write nodes) <;> rfl

/-- One half. -/
def half : Binary64 := .ofDecimal false 5 (-1)

/-- Every kind of instruction, of condition and of value. -/
def noticeTree : List Node :=
  [.text "\"\\\n\x01é", .constant "SITE",
    .choice
      [.mk (.binary .and (.not (.lit (.float half)))
          (.binary .lt (.lit (.int (-3))) (.var ⟨some "ROW", ["A"]⟩)))
        [.print ⟨none, ["A", "B"]⟩] ⟨"a.html", 1, "<!--IF-->"⟩,
      .mk (.binary .ne (.constant "SITE")
          (.lit (.map [("a", .null), ("b", .rows [[("c", .str "d")], []]), ("c", .bool true)])))
        [] ⟨"a.html", 2, ""⟩]
      (some [.text ""]),
    .choice [] none, .loop "ROW" none "ROWS" [.loop "IN" (some "ROW") "ROWS" [] ⟨"b", 3, ""⟩]
      ⟨"b", 2, "x"⟩]

/-- It is read back. -/
theorem reads_back_sample :
    NodesLiterals Value.Exact noticeTree ∧ read? (write noticeTree) = some noticeTree := by
  have hfinite : half.isFinite = true := by decide +kernel
  have hhalf : Json.floatOf? (Decimal.data half) = some half := by decide +kernel
  have hnames : ("a".toList < "b".toList ∧ "a".toList < "c".toList) ∧ "b".toList < "c".toList := by
    decide
  have hexact : NodesLiterals Value.Exact noticeTree := by
    simpa [noticeTree, NodesLiterals, Node.Literals, BranchesLiterals, Expr.Literals,
      Value.Exact, FieldsExact, RowsExact, hhalf] using hnames
  have hreadable : NodesReadable noticeTree := by
    simp [noticeTree, NodesReadable, Node.Readable, BranchesReadable, Expr.Literals,
      Value.Readable, FieldsReadable, RowsReadable, Number.maxSize, Number.minInt, Number.maxInt,
      hfinite]
  exact ⟨hexact, (reads_back hexact).2.1.mpr ⟨hreadable, by decide⟩⟩

end SavedTree
end PageServer
