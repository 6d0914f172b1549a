/-
# Reading saved trees

A saved tree is read as itself or not at all. A tree that is nested too deeply,
or holds a number that is not finite, is not read; what is read differs in
nothing from what was saved, if every finite floating-point number in it is
read as itself.

* `Value.Exact`: values of which nothing else can be read
* `SavedTree.read?_write_json`: the JSON of a tree is read back as JSON
* `SavedTree.eq_of_read?_write`: a tree that is read is the one that was saved
-/
import PageServer.Proofs.Json.RoundTrip
import PageServer.Proofs.Template.Literals
import PageServer.Proofs.Text.Tables
import PageServer.Views.SavedTree

namespace PageServer

/-! ## Values -/

mutual
/-- A value of which nothing else can be read: every finite floating-point number in it is read as
itself, and maps are in the order of their names. -/
def Value.Exact : Value → Prop
  | .float x => x.isFinite = true → Json.floatOf? (Decimal.data x) = some x
  | .map fields => FieldsExact fields
  | .rows rows => RowsExact rows
  | _ => True

/-- The same for the values of a map. -/
def FieldsExact : List (Text × Value) → Prop
  | [] => True
  | (name, value) :: rest =>
    (∀ entry ∈ rest, name < entry.1) ∧ value.Exact ∧ FieldsExact rest

/-- The same for the rows of a loop. -/
def RowsExact : List (List (Text × Value)) → Prop
  | [] => True
  | row :: rest => FieldsExact row ∧ RowsExact rest
end

/-- A value that is read as itself if it is a finite floating-point number. -/
def Value.ReadsBack : Value → Prop
  | .float x => x.isFinite = true → Json.floatOf? (Decimal.data x) = some x
  | _ => True

instance Value.decidableReadsBack : DecidablePred Value.ReadsBack
  | .float x =>
    inferInstanceAs (Decidable (x.isFinite = true → Json.floatOf? (Decimal.data x) = some x))
  | .null => isTrue trivial
  | .bool _ => isTrue trivial
  | .int _ => isTrue trivial
  | .str _ => isTrue trivial
  | .map _ => isTrue trivial
  | .rows _ => isTrue trivial

/-- Of a scalar that is read as itself nothing else can be read. -/
theorem Value.exact_of_isScalar {v : Value} (hscalar : v.IsScalar) (hread : v.ReadsBack) :
    v.Exact := by
  cases v with
  | float x => exact hread
  | map fields => contradiction
  | rows rows => contradiction
  | null => trivial
  | bool b => trivial
  | int n => trivial
  | str t => trivial

namespace SavedTree

/-! ## The JSON of a tree -/

/-- The JSON of a branch. -/
def ofBranch : Branch → Json
  | .mk condition body span =>
    .fields [("condition", ofExpr condition), ("body", .array (ofNodes body)),
      ("span", ofSpan span)]

theorem ofNodes_eq_map (nodes : List Node) : ofNodes nodes = nodes.map ofNode := by
  induction nodes with
  | nil => rfl
  | cons node rest ih => rw [ofNodes, ih, List.map_cons]

theorem ofBranches_eq_map (branches : List Branch) : ofBranches branches = branches.map ofBranch := by
  induction branches with
  | nil => rfl
  | cons branch rest ih =>
      obtain ⟨condition, body, span⟩ := branch
      rw [ofBranches, ih, List.map_cons, ofBranch]

theorem ofRows_eq_map (rows : List (List (Text × Value))) :
    ofRows rows = rows.map fun row => .object (ofFields row) := by
  induction rows with
  | nil => rfl
  | cons row rest ih => rw [ofRows, ih, List.map_cons]

/-! ## It is read back as JSON -/

open Json (Written ItemsWritten MembersWritten)

/-- The JSON of a kind is read back if what comes with it is. -/
theorem written_kind {name : Text} {content : Json} (h : content.Written) :
    (kind name content).Written := ⟨rfl, h, trivial⟩

theorem written_ofOption (t : Option Text) : (ofOption t).Written := by
  cases t with
  | none => trivial
  | some t => rfl

theorem itemsWritten_texts (texts : List Text) : ItemsWritten (texts.map Json.text) := by
  induction texts with
  | nil => trivial
  | cons t rest ih => exact ⟨rfl, ih⟩

mutual
/-- The JSON of a value is read back. -/
theorem written_ofValue : ∀ v : Value, (ofValue v).Written
  | .null => rfl
  | .bool _ => written_kind trivial
  | .int n => written_kind (Json.isNumber_ofInt n)
  | .float x => by
      refine written_kind ?_
      by_cases h : x.isFinite = true
      · rw [if_pos h]
        exact Json.isNumber_data h
      · rw [if_neg h]
        trivial
  | .str _ => written_kind rfl
  | .map fields => written_kind (membersWritten_ofFields fields)
  | .rows rows => written_kind (itemsWritten_ofRows rows)

/-- The members of a map are read back. -/
theorem membersWritten_ofFields : ∀ fields : List (Text × Value), MembersWritten (ofFields fields)
  | [] => trivial
  | (_, value) :: rest => ⟨rfl, written_ofValue value, membersWritten_ofFields rest⟩

/-- The rows of a loop are read back. -/
theorem itemsWritten_ofRows : ∀ rows : List (List (Text × Value)), ItemsWritten (ofRows rows)
  | [] => trivial
  | row :: rest => ⟨membersWritten_ofFields row, itemsWritten_ofRows rest⟩
end

theorem written_ofVar (v : VarRef) : (ofVar v).Written :=
  ⟨rfl, written_ofOption v.scope, rfl, itemsWritten_texts v.path, trivial⟩

theorem written_ofSpan (s : Span) : (ofSpan s).Written :=
  ⟨rfl, rfl, rfl, Json.isNumber_ofNat s.line, rfl, rfl, trivial⟩

/-- The JSON of a condition is read back. -/
theorem written_ofExpr (e : Expr) : (ofExpr e).Written := by
  induction e with
  | lit v => exact written_kind (written_ofValue v)
  | var v => exact written_kind (written_ofVar v)
  | constant name => exact written_kind rfl
  | not e ih => exact written_kind ih
  | binary op left right ihleft ihright =>
      exact written_kind ⟨rfl, rfl, rfl, ihleft, rfl, ihright, trivial⟩

mutual
/-- The JSON of an instruction is read back. -/
theorem written_ofNode : ∀ node : Node, (ofNode node).Written
  | .text _ => written_kind rfl
  | .print v => written_kind (written_ofVar v)
  | .constant _ => written_kind rfl
  | .choice branches none =>
      written_kind ⟨rfl, itemsWritten_ofBranches branches, rfl, trivial, trivial⟩
  | .choice branches (some nodes) =>
      written_kind ⟨rfl, itemsWritten_ofBranches branches, rfl, itemsWritten_ofNodes nodes, trivial⟩
  | .loop _ parent _ body span =>
      written_kind ⟨rfl, rfl, rfl, written_ofOption parent, rfl, rfl, rfl,
        itemsWritten_ofNodes body, rfl, written_ofSpan span, trivial⟩

/-- The JSON of branches is read back. -/
theorem itemsWritten_ofBranches : ∀ branches : List Branch, ItemsWritten (ofBranches branches)
  | [] => trivial
  | .mk condition body span :: rest =>
      ⟨⟨rfl, written_ofExpr condition, rfl, itemsWritten_ofNodes body, rfl, written_ofSpan span,
        trivial⟩, itemsWritten_ofBranches rest⟩

/-- The JSON of instructions is read back. -/
theorem itemsWritten_ofNodes : ∀ nodes : List Node, ItemsWritten (ofNodes nodes)
  | [] => trivial
  | node :: rest => ⟨written_ofNode node, itemsWritten_ofNodes rest⟩
end

/-- **The text of a saved tree is read as its JSON.** -/
theorem read?_write_json (nodes : List Node) :
    Json.read? (write nodes) = some (.array (ofNodes nodes)) :=
  Json.read?_write (itemsWritten_ofNodes nodes)

/-! ## Nothing else is read -/

/-- Items of which each one is read as itself or not at all are read as themselves. -/
theorem eq_of_mapM {α : Type} {write : α → Json} {read : Json → Option α} {items found : List α}
    (h : ∀ item ∈ items, ∀ other, read (write item) = some other → other = item)
    (hread : (items.map write).mapM read = some found) : found = items := by
  induction items generalizing found with
  | nil =>
      rw [List.map_nil, List.mapM_nil] at hread
      exact (Option.some.inj hread).symm
  | cons item rest ih =>
      rw [List.map_cons, List.mapM_cons] at hread
      obtain ⟨first, hfirst, hread⟩ := Option.bind_eq_some_iff.mp hread
      obtain ⟨others, hothers, hfound⟩ := Option.bind_eq_some_iff.mp hread
      obtain rfl := Option.some.inj hfound
      rw [h item List.mem_cons_self first hfirst,
        ih (fun other hother => h other (List.mem_cons_of_mem item hother)) hothers]

theorem text?_text (t : Text) : text? (.text t) = some t := rfl

theorem optionText?_ofOption (t : Option Text) : optionText? (ofOption t) = some t := by
  cases t <;> rfl

theorem mapM_text? (texts : List Text) : (texts.map Json.text).mapM text? = some texts := by
  induction texts with
  | nil => rfl
  | cons t rest ih => rw [List.map_cons, List.mapM_cons, ih]; rfl

/-- A variable needs two containers, its own and that of its path. -/
theorem var?_ofVar (depth : Nat) (v : VarRef) :
    var? depth (ofVar v) = if 2 ≤ depth then some v else none := by
  have hfields : fields? [("scope", some .null), ("path", none)] (ofVar v) =
      some [ofOption v.scope, .array (v.path.map .text)] := rfl
  match depth with
  | 0 => rfl
  | 1 =>
      rw [var?, hfields]
      simp [optionText?_ofOption, texts?]
  | depth + 2 =>
      rw [var?, hfields, if_pos (Nat.le_add_left 2 depth)]
      dsimp only
      rw [optionText?_ofOption, texts?, mapM_text?]

/-- A variable is read as itself. -/
theorem eq_of_var? {depth : Nat} {v w : VarRef} (h : var? depth (ofVar v) = some w) : w = v := by
  rw [var?_ofVar] at h
  split_ifs at h
  exact (Option.some.inj h).symm

/-- A place needs a container, and its line must be a size. -/
theorem span?_ofSpan (depth : Nat) (s : Span) :
    span? depth (ofSpan s) = if s.line ≤ Number.maxSize ∧ 1 ≤ depth then some s else none := by
  have hfields : fields? [("file", none), ("line", none), ("snippet", none)] (ofSpan s) =
      some [.text s.file, .number (Text.ofNat s.line), .text s.snippet] := rfl
  cases depth with
  | zero => simp [span?]
  | succ depth =>
      rw [span?, hfields]
      simp only [text?_text, Json.natOf?, Number.readSize?_ofNat]
      by_cases hsize : s.line ≤ Number.maxSize <;> simp [Option.filter, hsize]

/-- A place is read as itself. -/
theorem eq_of_span? {depth : Nat} {s s' : Span} (h : span? depth (ofSpan s) = some s') :
    s' = s := by
  rw [span?_ofSpan] at h
  split_ifs at h
  exact (Option.some.inj h).symm

/-- An operator is read as itself. -/
theorem operator?_name (depth : Nat) (op : Operator) : operator? depth (.text op.name) = some op := by
  cases depth <;> cases op <;> rfl

/-! ### Values -/

/-- Members are added in their order behind those that come before them. -/
theorem eq_of_foldlM {read : Json → Option Value} {fields before found : Fields}
    (hexact : FieldsExact fields)
    (h : ∀ entry ∈ fields, ∀ other, read (ofValue entry.2) = some other → other = entry.2)
    (hbefore : ∀ entry ∈ before, ∀ next ∈ fields, entry.1 < next.1)
    (hfold : (ofFields fields).foldlM (fun fields entry =>
      match entry.1, read entry.2 with
      | some name, some value => some (Table.insert name value fields)
      | _, _ => none) before = some found) : found = before ++ fields := by
  induction fields generalizing before with
  | nil =>
      rw [List.append_nil]
      exact (Option.some.inj hfold).symm
  | cons entry rest ih =>
      obtain ⟨name, value⟩ := entry
      obtain ⟨hfirst, -, hrest⟩ := hexact
      rw [ofFields, List.foldlM_cons] at hfold
      cases hvalue : read (ofValue value) with
      | none => simp [hvalue] at hfold
      | some other =>
          obtain rfl := h (name, value) List.mem_cons_self other hvalue
          simp only [hvalue] at hfold
          -- the names come in order, so each member is added at the end
          have hlast := Table.insert_last other fun entry hentry =>
            hbefore entry hentry (name, other) List.mem_cons_self
          rw [Option.bind_eq_bind, Option.bind_some, hlast] at hfold
          rw [ih hrest (fun entry hentry => h entry (List.mem_cons_of_mem _ hentry)) ?_ hfold,
            List.append_assoc, List.singleton_append]
          intro entry hentry next hnext
          rcases List.mem_append.mp hentry with hold | hnew
          · exact hbefore entry hold next (List.mem_cons_of_mem _ hnext)
          · obtain rfl := List.mem_singleton.mp hnew
            exact hfirst next hnext

/-- A map is read as itself if its values are. -/
theorem eq_of_mapWith {read : Json → Option Value} {fields found : Fields}
    (hexact : FieldsExact fields)
    (h : ∀ entry ∈ fields, ∀ other, read (ofValue entry.2) = some other → other = entry.2)
    (hread : mapWith read (ofFields fields) = some found) : found = fields :=
  eq_of_foldlM hexact h (List.forall_mem_nil _) hread

/-- A minus sign is not written before a zero. -/
theorem ofInt_ne_negative_zero (n : Int) : Text.ofInt n ≠ "-0".toList := by
  intro h
  cases n with
  | ofNat n => exact (Number.ofNat_ne_sign h).1 rfl
  | negSucc n => exact absurd (Text.ofNat_eq_of_head (List.cons.inj h).2) (Nat.succ_ne_zero n)

/-- An integer must be one of 64 bits. -/
theorem intOf?_ofInt (n : Int) :
    Json.intOf? (Text.ofInt n) =
      if Number.minInt ≤ n ∧ n ≤ Number.maxInt then some n else none := by
  rw [Json.intOf?, if_neg (ofInt_ne_negative_zero n), Number.readInt?_ofInt]
  by_cases hsize : Number.minInt ≤ n ∧ n ≤ Number.maxInt <;> simp [Option.filter, hsize]

/-- An integer is read as itself. -/
theorem eq_of_intOf? {n m : Int} (h : Json.intOf? (Text.ofInt n) = some m) : m = n := by
  rw [intOf?_ofInt] at h
  split_ifs at h
  exact (Option.some.inj h).symm

/-- The values of a row, each read by `read`. -/
def rowWith (read : Json → Option Value) : Json → Option Fields
  | .object members => mapWith read members
  | _ => none

section
variable (depth : Nat)

attribute [local simp] value? ofValue kind Json.fields Json.text text? ofRows

theorem value?_null : value? depth (ofValue .null) = some .null := by
  cases depth <;> simp

theorem value?_bool (b : Bool) : value? (depth + 1) (ofValue (.bool b)) = some (.bool b) := by
  simp

theorem value?_int (n : Int) :
    value? (depth + 1) (ofValue (.int n)) = (Json.intOf? (Text.ofInt n)).map .int := by
  simp

theorem value?_float (x : Binary64) :
    value? (depth + 1) (ofValue (.float x)) =
      if x.isFinite then (Json.floatOf? (Decimal.data x)).map .float else none := by
  cases hfinite : x.isFinite <;> simp [hfinite]

theorem value?_str (t : Text) : value? (depth + 1) (ofValue (.str t)) = some (.str t) := by
  simp

theorem value?_map (fields : Fields) :
    value? (depth + 2) (ofValue (.map fields)) =
      (mapWith (value? depth) (ofFields fields)).map .map := by
  simp

theorem value?_rows (rows : List Fields) :
    value? (depth + 3) (ofValue (.rows rows)) =
      ((ofRows rows).mapM (rowWith (value? depth))).map .rows := by
  simp
  rfl

theorem value?_rows_two (rows : List Fields) :
    value? 2 (ofValue (.rows rows)) = if rows.isEmpty then some (.rows []) else none := by
  cases rows <;> simp

end

/-- Rows are read as themselves if their values are. -/
theorem eq_of_mapM_rows {read : Json → Option Value} {rows found : List Fields}
    (hexact : RowsExact rows)
    (h : ∀ row ∈ rows, ∀ entry ∈ row, ∀ other,
      read (ofValue entry.2) = some other → other = entry.2)
    (hread : (ofRows rows).mapM (rowWith read) = some found) : found = rows := by
  rw [ofRows_eq_map] at hread
  refine eq_of_mapM (fun row hrow other hother => ?_) hread
  have hrowExact : FieldsExact row := by
    clear h hread
    induction rows with
    | nil => contradiction
    | cons first rest ih =>
        rcases List.mem_cons.mp hrow with rfl | hrest
        · exact hexact.1
        · exact ih hexact.2 hrest
  exact eq_of_mapWith hrowExact (h row hrow) hother

theorem exact_of_mem {fields : Fields} (h : FieldsExact fields) {entry : Text × Value}
    (hentry : entry ∈ fields) : entry.2.Exact := by
  induction fields with
  | nil => contradiction
  | cons first rest ih =>
      rcases List.mem_cons.mp hentry with rfl | hrest
      · exact h.2.1
      · exact ih h.2.2 hrest

theorem exact_of_mem_rows {rows : List Fields} (h : RowsExact rows) {row : Fields}
    (hrow : row ∈ rows) {entry : Text × Value} (hentry : entry ∈ row) : entry.2.Exact := by
  induction rows with
  | nil => contradiction
  | cons first rest ih =>
      rcases List.mem_cons.mp hrow with rfl | hrest
      · exact exact_of_mem h.1 hentry
      · exact ih h.2 hrest

/-- **A value is read as itself or not at all.** -/
theorem eq_of_value? {depth : Nat} {v w : Value} (hexact : v.Exact)
    (h : value? depth (ofValue v) = some w) : w = v := by
  -- what is inside a map or a loop is read with two or three containers less
  induction depth using Nat.strongRecOn generalizing v w with
  | ind depth ih =>
      match v, depth, ih with
      | .null, depth, _ =>
          rw [value?_null] at h
          exact (Option.some.inj h).symm
      | .bool b, 0, _ | .int n, 0, _ | .float x, 0, _ | .str t, 0, _ | .map fields, 0, _
      | .rows rows, 0, _ | .map fields, 1, _ | .rows rows, 1, _ =>
          contradiction
      | .bool b, depth + 1, _ =>
          rw [value?_bool] at h
          exact (Option.some.inj h).symm
      | .int n, depth + 1, _ =>
          rw [value?_int] at h
          obtain ⟨m, hm, rfl⟩ := Option.map_eq_some_iff.mp h
          rw [eq_of_intOf? hm]
      | .float x, depth + 1, _ =>
          rw [value?_float] at h
          split_ifs at h with hfinite
          rw [hexact hfinite] at h
          exact (Option.some.inj h).symm
      | .str t, depth + 1, _ =>
          rw [value?_str] at h
          exact (Option.some.inj h).symm
      | .map fields, depth + 2, ih =>
          rw [value?_map] at h
          obtain ⟨found, hfound, rfl⟩ := Option.map_eq_some_iff.mp h
          rw [eq_of_mapWith hexact (fun entry hentry other hother =>
            ih depth (by omega) (exact_of_mem hexact hentry) hother) hfound]
      | .rows rows, 2, _ =>
          rw [value?_rows_two] at h
          split_ifs at h with hempty
          rw [List.isEmpty_iff.mp hempty]
          exact (Option.some.inj h).symm
      | .rows rows, depth + 3, ih =>
          rw [value?_rows] at h
          obtain ⟨found, hfound, rfl⟩ := Option.map_eq_some_iff.mp h
          rw [eq_of_mapM_rows hexact (fun row hrow entry hentry other hother =>
            ih depth (by omega) (exact_of_mem_rows hexact hrow hentry) hother) hfound]

/-! ### Conditions -/

section
variable (depth : Nat)

attribute [local simp] expr? ofExpr kind Json.fields Json.text text?

theorem expr?_lit (v : Value) :
    expr? (depth + 1) (ofExpr (.lit v)) = (value? depth (ofValue v)).map .lit := by
  cases depth <;> simp

theorem expr?_var (v : VarRef) :
    expr? (depth + 1) (ofExpr (.var v)) = (var? depth (ofVar v)).map .var := by
  cases depth <;> simp

theorem expr?_constant (name : Text) :
    expr? (depth + 1) (ofExpr (.constant name)) = some (.constant name) := by
  cases depth <;> simp

theorem expr?_not (e : Expr) :
    expr? (depth + 1) (ofExpr (.not e)) = (expr? depth (ofExpr e)).map .not := by
  cases depth <;> simp

theorem expr?_binary (op : Operator) (left right : Expr) :
    expr? (depth + 2) (ofExpr (.binary op left right)) =
      (expr? depth (ofExpr left)).bind fun left =>
        (expr? depth (ofExpr right)).map fun right => .binary op left right := by
  have hfields : fields? [("op", none), ("left", none), ("right", none)]
      (.fields [("op", .text op.name), ("left", ofExpr left), ("right", ofExpr right)]) =
        some [.text op.name, ofExpr left, ofExpr right] := rfl
  have hop : operator? depth (.string (some op.name)) = some op := operator?_name depth op
  simp at hfields
  simp [hfields, hop]
  cases expr? depth (ofExpr left) <;> cases expr? depth (ofExpr right) <;> rfl

end

/-- **A condition is read as itself or not at all.** -/
theorem eq_of_expr? {depth : Nat} {e e' : Expr} (hexact : e.Literals Value.Exact)
    (h : expr? depth (ofExpr e) = some e') : e' = e := by
  induction e generalizing depth e' with
  | lit v =>
      cases depth with
      | zero => contradiction
      | succ depth =>
          rw [expr?_lit] at h
          obtain ⟨w, hw, rfl⟩ := Option.map_eq_some_iff.mp h
          rw [eq_of_value? hexact hw]
  | var v =>
      cases depth with
      | zero => contradiction
      | succ depth =>
          rw [expr?_var] at h
          obtain ⟨w, hw, rfl⟩ := Option.map_eq_some_iff.mp h
          rw [eq_of_var? hw]
  | constant name =>
      cases depth with
      | zero => contradiction
      | succ depth =>
          rw [expr?_constant] at h
          exact (Option.some.inj h).symm
  | not e ih =>
      cases depth with
      | zero => contradiction
      | succ depth =>
          rw [expr?_not] at h
          obtain ⟨w, hw, rfl⟩ := Option.map_eq_some_iff.mp h
          rw [ih hexact hw]
  | binary op left right ihleft ihright =>
      match depth, h with
      | 0, h | 1, h => contradiction
      | depth + 2, h =>
          rw [expr?_binary] at h
          obtain ⟨left', hleft, h⟩ := Option.bind_eq_some_iff.mp h
          obtain ⟨right', hright, rfl⟩ := Option.map_eq_some_iff.mp h
          rw [ihleft hexact.1 hleft, ihright hexact.2 hright]

/-! ### Instructions -/

/-- The reader of a body within so many containers. -/
def nodesAt : Nat → Json → Option (List Node)
  | 0 => fun _ => none
  | depth + 1 => list? (node? depth)

/-- The reader of branches within so many containers. -/
def branchesAt : Nat → Json → Option (List Branch)
  | 0 => fun _ => none
  | 1 => list? fun _ => none
  | depth + 2 => list? (branchWith depth (nodesAt depth))

section
variable (depth : Nat)

attribute [local simp] node? ofNode kind Json.fields Json.text text?

theorem node?_text (t : Text) : node? (depth + 1) (ofNode (.text t)) = some (.text t) := by
  rcases depth with _ | _ | _ | _ | depth <;> simp

theorem node?_print (v : VarRef) :
    node? (depth + 1) (ofNode (.print v)) = (var? depth (ofVar v)).map .print := by
  rcases depth with _ | _ | _ | _ | depth <;> simp

theorem node?_constant (name : Text) :
    node? (depth + 1) (ofNode (.constant name)) = some (.constant name) := by
  rcases depth with _ | _ | _ | _ | depth <;> simp

theorem node?_if (content : Json) :
    node? (depth + 2) (kind "If" content) =
      choiceWith (branchesAt depth) (nodesAt depth) content := by
  rcases depth with _ | _ | _ | depth <;> simp <;> rfl

theorem node?_loop (content : Json) :
    node? (depth + 2) (kind "Loop" content) = loopWith depth (nodesAt depth) content := by
  rcases depth with _ | _ | _ | depth <;> simp <;> rfl

end

section
variable {depth : Nat} {branches? : Json → Option (List Branch)} {nodes? : Json → Option (List Node)}

theorem choiceWith_null (branches : Json) :
    choiceWith branches? nodes? (.fields [("branches", branches), ("otherwise", .null)]) =
      (branches? branches).map fun found => .choice found none := rfl

theorem choiceWith_array (branches : Json) (items : List Json) :
    choiceWith branches? nodes? (.fields [("branches", branches), ("otherwise", .array items)]) =
      (branches? branches).bind fun found =>
        (nodes? (.array items)).map fun nodes => .choice found (some nodes) := by
  have hfields : fields? [("branches", none), ("otherwise", some .null)]
      (.fields [("branches", branches), ("otherwise", .array items)]) =
        some [branches, .array items] := rfl
  rw [choiceWith, hfields]
  cases hbranches : branches? branches <;> cases hnodes : nodes? (.array items) <;>
    simp [hbranches, hnodes]

theorem loopWith_fields (name key : Text) (parent : Option Text) (body : Json) (span : Span) :
    loopWith depth nodes? (.fields [("name", .text name), ("parent", ofOption parent),
      ("key", .text key), ("body", body), ("span", ofSpan span)]) =
      (nodes? body).bind fun body =>
        (span? depth (ofSpan span)).map fun span => .loop name parent key body span := by
  have hfields : fields? [("name", none), ("parent", some .null), ("key", none), ("body", none),
      ("span", none)] (.fields [("name", .text name), ("parent", ofOption parent),
        ("key", .text key), ("body", body), ("span", ofSpan span)]) =
        some [.text name, ofOption parent, .text key, body, ofSpan span] := rfl
  rw [loopWith, hfields]
  simp only [text?_text, optionText?_ofOption]
  cases nodes? body <;> cases span? depth (ofSpan span) <;> rfl

theorem branchWith_ofBranch (condition : Expr) (body : List Node) (span : Span) :
    branchWith depth nodes? (ofBranch (.mk condition body span)) =
      (expr? depth (ofExpr condition)).bind fun condition =>
        (nodes? (.array (ofNodes body))).bind fun body =>
          (span? depth (ofSpan span)).map fun span => .mk condition body span := by
  have hfields : fields? [("condition", none), ("body", none), ("span", none)]
      (ofBranch (.mk condition body span)) =
        some [ofExpr condition, .array (ofNodes body), ofSpan span] := rfl
  rw [branchWith, hfields]
  dsimp only
  cases expr? depth (ofExpr condition) <;> cases nodes? (.array (ofNodes body)) <;>
    cases span? depth (ofSpan span) <;> rfl

end

/-- A branch is read as itself if its body is. -/
theorem eq_of_branchWith {depth : Nat} {nodes? : Json → Option (List Node)}
    {branch branch' : Branch} (hexact : branch.condition.Literals Value.Exact)
    (hbody : ∀ found, nodes? (.array (ofNodes branch.body)) = some found → found = branch.body)
    (h : branchWith depth nodes? (ofBranch branch) = some branch') : branch' = branch := by
  obtain ⟨condition, body, span⟩ := branch
  rw [branchWith_ofBranch] at h
  obtain ⟨condition', hcondition, h⟩ := Option.bind_eq_some_iff.mp h
  obtain ⟨body', hnodes, h⟩ := Option.bind_eq_some_iff.mp h
  obtain ⟨span', hspan, rfl⟩ := Option.map_eq_some_iff.mp h
  rw [eq_of_expr? hexact hcondition, eq_of_span? hspan, hbody body' hnodes]
  rfl

/-- Instructions are read as themselves if each one is, however few containers may be opened. -/
theorem eq_of_nodesAt {depth : Nat} {nodes found : List Node}
    (hnode : ∀ inside < depth, ∀ node ∈ nodes, ∀ other,
      node? inside (ofNode node) = some other → other = node)
    (h : nodesAt depth (.array (ofNodes nodes)) = some found) : found = nodes := by
  cases depth with
  | zero => contradiction
  | succ depth =>
      rw [nodesAt, list?, ofNodes_eq_map] at h
      exact eq_of_mapM (hnode depth (Nat.lt_succ_self depth)) h

/-- Branches are read as themselves if the instructions in them are. -/
theorem eq_of_branchesAt {depth : Nat} {branches found : List Branch}
    (hexact : ∀ branch ∈ branches, branch.condition.Literals Value.Exact)
    (hnode : ∀ inside < depth, ∀ branch ∈ branches, ∀ node ∈ branch.body, ∀ other,
      node? inside (ofNode node) = some other → other = node)
    (h : branchesAt depth (.array (ofBranches branches)) = some found) : found = branches := by
  match depth, h with
  | 0, h => contradiction
  | 1, h =>
      rw [branchesAt, list?, ofBranches_eq_map] at h
      refine eq_of_mapM (fun branch _ other hother => ?_) h
      contradiction
  | depth + 2, h =>
      rw [branchesAt, list?, ofBranches_eq_map] at h
      refine eq_of_mapM (fun branch hbranch other hother => ?_) h
      refine eq_of_branchWith (hexact branch hbranch) (fun body hbody => ?_) hother
      exact eq_of_nodesAt
        (fun inside hinside => hnode inside (by omega) branch hbranch) hbody

/-- **An instruction is read as itself or not at all.** -/
theorem eq_of_node? {depth : Nat} {node node' : Node} (hexact : node.Literals Value.Exact)
    (h : node? depth (ofNode node) = some node') : node' = node := by
  -- what is inside an instruction is read with fewer containers left
  induction depth using Nat.strongRecOn generalizing node node' with
  | ind depth ih =>
      match node, depth, ih with
      | .text _, 0, _ | .print _, 0, _ | .constant _, 0, _ => contradiction
      | .choice _ none, 0, _ | .choice _ none, 1, _ => contradiction
      | .choice _ (some _), 0, _ | .choice _ (some _), 1, _ => contradiction
      | .loop .., 0, _ | .loop .., 1, _ => contradiction
      | .text t, depth + 1, _ =>
          rw [node?_text] at h
          exact (Option.some.inj h).symm
      | .print v, depth + 1, _ =>
          rw [node?_print] at h
          obtain ⟨w, hw, rfl⟩ := Option.map_eq_some_iff.mp h
          rw [eq_of_var? hw]
      | .constant name, depth + 1, _ =>
          rw [node?_constant] at h
          exact (Option.some.inj h).symm
      | .choice branches none, depth + 2, ih =>
          rw [ofNode, node?_if, choiceWith_null] at h
          obtain ⟨found, hfound, rfl⟩ := Option.map_eq_some_iff.mp h
          rw [Node.Literals, branchesLiterals_iff] at hexact
          rw [eq_of_branchesAt (fun branch hbranch => (hexact branch hbranch).1)
            (fun inside hinside branch hbranch node hnode other =>
              ih inside (by omega) (nodesLiterals_iff.mp (hexact branch hbranch).2 node hnode))
            hfound]
      | .choice branches (some nodes), depth + 2, ih =>
          rw [ofNode, node?_if, choiceWith_array] at h
          obtain ⟨found, hfound, h⟩ := Option.bind_eq_some_iff.mp h
          obtain ⟨nodes', hnodes, rfl⟩ := Option.map_eq_some_iff.mp h
          rw [Node.Literals, branchesLiterals_iff, nodesLiterals_iff] at hexact
          rw [eq_of_branchesAt (fun branch hbranch => (hexact.1 branch hbranch).1)
              (fun inside hinside branch hbranch node hnode other =>
                ih inside (by omega)
                  (nodesLiterals_iff.mp (hexact.1 branch hbranch).2 node hnode))
              hfound,
            eq_of_nodesAt (fun inside hinside node hnode other =>
              ih inside (by omega) (hexact.2 node hnode)) hnodes]
      | .loop name parent key body span, depth + 2, ih =>
          rw [ofNode, node?_loop, loopWith_fields] at h
          obtain ⟨nodes, hnodes, h⟩ := Option.bind_eq_some_iff.mp h
          obtain ⟨span', hspan, rfl⟩ := Option.map_eq_some_iff.mp h
          rw [Node.Literals, nodesLiterals_iff] at hexact
          rw [eq_of_span? hspan, eq_of_nodesAt (fun inside hinside node hnode other =>
            ih inside (by omega) (hexact node hnode)) hnodes]

/-- **A saved tree is read as itself or not at all.** -/
theorem eq_of_read?_write {nodes nodes' : List Node} (hexact : NodesLiterals Value.Exact nodes)
    (h : read? (write nodes) = some nodes') : nodes' = nodes := by
  rw [read?, read?_write_json] at h
  have hread : nodesAt maxDepth (.array (ofNodes nodes)) = some nodes' := h
  exact eq_of_nodesAt
    (fun _ _ node hnode _ => eq_of_node? (nodesLiterals_iff.mp hexact node hnode)) hread

end SavedTree
end PageServer
