/-
# Comparing values

Two values may be compared either way round: equality does not depend on it, and
the order is reversed. Where both have an order, are not null and have no NaN as
their number, equality is that order, although it is decided apart from it.

* `Value.same_comm`: equality of content, by induction on the values
* `Value.looseEq_comm`, `Value.compare_swap`: either way round
* `Value.looseEq_iff_compare`: equality and order agree
* `Value.looseEq_self_iff`: which values are equal to themselves
* `Value.comparisons_coherent`: all of it, and what follows for the operators of conditions
-/
import PageServer.Proofs.Condition.Ordering
import PageServer.Proofs.Number.Order

namespace PageServer

namespace Value

/-! ## Equality of content -/

mutual
theorem same_comm : ∀ a b : Value, same a b = same b a
  | .null, b => by cases b <;> rfl
  | .bool x, b => by
      cases b with
      | bool y => exact Bool.beq_comm
      | _ => rfl
  | .int m, b => by
      cases b with
      | int n => exact BEq.comm
      | _ => rfl
  | .float x, b => by
      cases b with
      | float y => exact Binary64.same_comm x y
      | _ => rfl
  | .str t, b => by
      cases b with
      | str u => exact decide_eq_decide.mpr eq_comm
      | _ => rfl
  | .map fields, b => by
      cases b with
      | map others => exact sameFields_comm fields others
      | _ => rfl
  | .rows list, b => by
      cases b with
      | rows others => exact sameRows_comm list others
      | _ => rfl

theorem sameFields_comm : ∀ a b : List (Text × Value), sameFields a b = sameFields b a
  | [], b => by cases b <;> rfl
  | (name, value) :: rest, b => by
      cases b with
      | nil => rfl
      | cons entry others =>
          obtain ⟨other, value'⟩ := entry
          rw [sameFields, sameFields, same_comm value value', sameFields_comm rest others,
            decide_eq_decide.mpr (eq_comm (a := name))]

theorem sameRows_comm : ∀ a b : List (List (Text × Value)), sameRows a b = sameRows b a
  | [], b => by cases b <;> rfl
  | row :: rest, b => by
      cases b with
      | nil => rfl
      | cons row' others =>
          rw [sameRows, sameRows, sameFields_comm row row', sameRows_comm rest others]
end

/-! ## Numbers and texts -/

theorem compareText_swap (a b : Text) : compareText b a = (compareText a b).swap := by
  unfold compareText Text.before
  by_cases heq : a = b
  · rw [if_pos heq, if_pos heq.symm]
    rfl
  · rw [if_neg heq, if_neg (Ne.symm heq)]
    rcases lt_or_gt_of_ne heq with hless | hgreater
    · simp [hless, hless.not_gt]
    · simp [hgreater, hgreater.not_gt]

theorem compareText_eq_iff {a b : Text} : compareText a b = .eq ↔ a = b := by
  unfold compareText
  split_ifs with heq hless
  · simp [heq]
  · simp [heq]
  · simp [heq]

/-- Equality by number if both sides have one, and otherwise by text. -/
def plainEq (a b : Value) : Bool :=
  match a.number?, b.number? with
  | some x, some y => x.same y
  | _, _ => decide (a.text = b.text)

/-- Order by number if both sides have one, null being zero, and otherwise by text. -/
def plainOrder (a b : Value) : Ordering :=
  match a.measure?, b.measure? with
  | some x, some y => (x.compare? y).getD .eq
  | _, _ => compareText a.text b.text

theorem plainEq_comm (a b : Value) : plainEq a b = plainEq b a := by
  unfold plainEq
  cases a.number? with
  | none => cases b.number? <;> exact decide_eq_decide.mpr eq_comm
  | some x =>
      cases b.number? with
      | none => exact decide_eq_decide.mpr eq_comm
      | some y => exact Binary64.same_comm x y

theorem plainOrder_swap (a b : Value) : plainOrder b a = (plainOrder a b).swap := by
  unfold plainOrder
  cases a.measure? with
  | none => cases b.measure? <;> exact compareText_swap _ _
  | some x =>
      cases b.measure? with
      | none => exact compareText_swap _ _
      | some y =>
          dsimp only
          rw [Binary64.compare?_swap x y]
          cases x.compare? y <;> rfl

/-- Whether a value is a boolean. -/
def isBool : Value → Bool
  | bool _ => true
  | _ => false

/-- Values other than null are equal by truth if one is a boolean, by content if one is a map or a
loop, and otherwise by number or text. -/
theorem looseEq_eq {a b : Value} (ha : a ≠ null) (hb : b ≠ null) :
    a.looseEq b =
      if a.isBool || b.isBool then a.truthy == b.truthy
      else if a.isContainer || b.isContainer then same a b
      else plainEq a b := by
  cases a <;> cases b <;> first | contradiction | rfl

/-- Values that are neither maps nor loops have their order by truth if one is a boolean, and
otherwise by number or text. -/
theorem compare_eq {a b : Value} (ha : a.isContainer = false) (hb : b.isContainer = false) :
    a.compare b = .ok (if a.isBool || b.isBool then Ord.compare a.truthy.toNat b.truthy.toNat
      else plainOrder a b) := by
  have hplain : (match a.measure?, b.measure? with
      | some x, some y => Except.ok ((x.compare? y).getD .eq)
      | _, _ => .ok (compareText a.text b.text) : Except Text Ordering) =
        .ok (plainOrder a b) := by
    unfold plainOrder
    cases a.measure? <;> cases b.measure? <;> rfl
  cases a <;> cases b <;> first | contradiction | rfl | exact hplain

/-! ## Either way round -/

theorem looseEq_null (v : Value) : v.looseEq null = null.looseEq v := by
  cases v with
  | bool b => exact Bool.beq_comm
  | _ => rfl

/-- **Equality does not depend on the order of its sides.** -/
theorem looseEq_comm (a b : Value) : a.looseEq b = b.looseEq a := by
  by_cases ha : a = null
  · rw [ha]
    exact (looseEq_null b).symm
  by_cases hb : b = null
  · rw [hb]
    exact looseEq_null a
  rw [looseEq_eq ha hb, looseEq_eq hb ha, Bool.or_comm b.isBool, Bool.or_comm b.isContainer,
    same_comm b a, plainEq_comm b a, Bool.beq_comm (a := b.truthy)]

/-- **The other way round the order is reversed.** -/
theorem compare_swap {a b : Value} {order : Ordering} (h : a.compare b = .ok order) :
    b.compare a = .ok order.swap := by
  obtain ⟨ha, hb⟩ : a.isContainer = false ∧ b.isContainer = false := by
    rw [← Bool.or_eq_false_iff, Bool.eq_false_iff, Ne, Bool.or_eq_true]
    intro hcontainer
    have herror := compare_eq_error_iff.mpr ⟨hcontainer, rfl⟩
    rw [h] at herror
    contradiction
  rw [compare_eq ha hb] at h
  rw [compare_eq hb ha, ← Except.ok.inj h, Bool.or_comm b.isBool]
  split_ifs
  · rw [Nat.compare_swap]
  · rw [plainOrder_swap]

/-! ## Equality and order -/

/-- A value whose number is NaN: NaN itself, or a text that is read as NaN. -/
def IsNaN (v : Value) : Prop := ∃ x, v.number? = some x ∧ x.isNaN = true

/-- A text has NaN as its number if it names it, with blanks around or without. -/
theorem isNaN_str_iff {t : Text} : (str t).IsNaN ↔ Decimal.NamesNaN (Text.trim t) :=
  Decimal.isNaN_of_read?_iff

/-- A value that has its place among the others: no map or loop, not null, and with no NaN as its
number. -/
structure IsPlaced (v : Value) : Prop where
  isContainer : v.isContainer = false
  ne_null : v ≠ null
  not_isNaN : ¬ v.IsNaN

theorem plainEq_iff_plainOrder {a b : Value} (ha : a.IsPlaced) (hb : b.IsPlaced) :
    plainEq a b = true ↔ plainOrder a b = .eq := by
  have hmeasure : ∀ v : Value, v.IsPlaced → v.measure? = v.number? := by
    intro v hv
    cases v with
    | null => exact absurd rfl hv.ne_null
    | _ => rfl
  have hnumber : ∀ v : Value, v.IsPlaced → ∀ x, v.number? = some x → x.isNaN = false := by
    intro v hv x hx
    rw [Bool.eq_false_iff]
    exact fun hnan => hv.not_isNaN ⟨x, hx, hnan⟩
  unfold plainEq plainOrder
  rw [hmeasure a ha, hmeasure b hb]
  cases hx : a.number? with
  | none => cases b.number? <;> exact decide_eq_true_iff.trans compareText_eq_iff.symm
  | some x =>
      cases hy : b.number? with
      | none => exact decide_eq_true_iff.trans compareText_eq_iff.symm
      | some y => exact (Binary64.getD_compare?_eq_iff (hnumber a ha x hx) (hnumber b hb y hy)).symm

/-- **Equality is the order of values that have their place.** -/
theorem looseEq_iff_compare {a b : Value} (ha : a.IsPlaced) (hb : b.IsPlaced) :
    a.looseEq b = true ↔ a.compare b = .ok .eq := by
  rw [looseEq_eq ha.ne_null hb.ne_null, compare_eq ha.isContainer hb.isContainer, Except.ok.injEq,
    ha.isContainer, hb.isContainer, Bool.or_self, if_neg Bool.false_ne_true]
  split_ifs
  · cases a.truthy <;> cases b.truthy <;> decide
  · exact plainEq_iff_plainOrder ha hb

/-! ## A value and itself -/

mutual
/-- Whether a value is NaN, or a map or a loop that holds it at any depth. -/
def holdsNaN : Value → Bool
  | float x => x.isNaN
  | map fields => fieldsHoldNaN fields
  | rows list => rowsHoldNaN list
  | _ => false

/-- Whether a map holds NaN at any depth. -/
def fieldsHoldNaN : List (Text × Value) → Bool
  | [] => false
  | (_, value) :: rest => value.holdsNaN || fieldsHoldNaN rest

/-- Whether a loop holds NaN at any depth. -/
def rowsHoldNaN : List (List (Text × Value)) → Bool
  | [] => false
  | row :: rest => fieldsHoldNaN row || rowsHoldNaN rest
end

mutual
/-- **A value has the content of itself unless it holds NaN.** -/
theorem same_self : ∀ v : Value, same v v = !v.holdsNaN
  | .null => rfl
  | .bool b => beq_self_eq_true b
  | .int n => beq_self_eq_true n
  | .float x => Binary64.same_self x
  | .str _ => decide_eq_true rfl
  | .map fields => sameFields_self fields
  | .rows list => sameRows_self list

theorem sameFields_self : ∀ fields, sameFields fields fields = !fieldsHoldNaN fields
  | [] => rfl
  | (name, value) :: rest => by
      rw [sameFields, fieldsHoldNaN, same_self value, sameFields_self rest, decide_eq_true rfl,
        Bool.true_and, Bool.not_or]

theorem sameRows_self : ∀ list, sameRows list list = !rowsHoldNaN list
  | [] => rfl
  | row :: rest => by
      rw [sameRows, rowsHoldNaN, sameFields_self row, sameRows_self rest, Bool.not_or]
end

theorem plainEq_self_iff {v : Value} : plainEq v v = true ↔ ¬ v.IsNaN := by
  unfold plainEq IsNaN
  cases v.number? with
  | none => simp
  | some x => simp [Binary64.same_self]

theorem looseEq_self (v : Value) :
    v.looseEq v = if v.isContainer then same v v else plainEq v v := by
  cases v with
  | bool b => cases b <;> rfl
  | _ => rfl

/-- **A value is equal to itself unless it holds NaN or has it as its number.** -/
theorem looseEq_self_iff {v : Value} : v.looseEq v = true ↔ v.holdsNaN = false ∧ ¬ v.IsNaN := by
  rw [looseEq_self]
  split_ifs with hcontainer
  · have hnumber : ¬ v.IsNaN := by
      rintro ⟨x, hx, -⟩
      cases v <;> contradiction
    rw [same_self, Bool.not_eq_true', and_iff_left hnumber]
  · rw [plainEq_self_iff]
    refine (and_iff_right_of_imp fun hnumber => ?_).symm
    cases v with
    | float x => exact Bool.eq_false_iff.mpr fun hx => hnumber ⟨x, rfl, hx⟩
    | map fields => exact absurd rfl hcontainer
    | rows list => exact absurd rfl hcontainer
    | _ => rfl

/-- Of the values that hold no NaN only texts have it as their number. -/
theorem isNaN_iff {v : Value} (h : v.holdsNaN = false) :
    v.IsNaN ↔ ∃ t, v = .str t ∧ Decimal.NamesNaN (Text.trim t) := by
  constructor
  · rintro ⟨x, hx, hnan⟩
    cases v with
    | str t => exact ⟨t, rfl, isNaN_str_iff.mp ⟨x, hx, hnan⟩⟩
    | int n =>
        rw [← Option.some.inj hx, Binary64.isNaN_ofInt] at hnan
        contradiction
    | float y =>
        rw [← Option.some.inj hx] at hnan
        exact absurd hnan (Bool.eq_false_iff.mp h)
    | _ => contradiction
  · rintro ⟨t, rfl, hnames⟩
    exact isNaN_str_iff.mpr hnames

end Value

/-! ## The operators of conditions -/

namespace Expr

variable {left right v : Value}

/-- A comparison of order holds or not by the order of its sides. -/
theorem combine_eq_ok_iff {op : Operator} (h : op.isOrder = true) :
    combine op left right = .ok v ↔
      ∃ order, left.compare right = .ok order ∧ v = .bool (op.holds order) := by
  have hcombine : combine op left right =
      (left.compare right).map fun order => .bool (op.holds order) := by
    cases op <;> first | contradiction | rfl
  rw [hcombine]
  cases left.compare right with
  | error message => simp [Except.map]
  | ok order => simp [Except.map, eq_comm]

/-- An operator that says of swapped sides what another one says of them. -/
theorem combine_swap {op op' : Operator} (h : op.isOrder = true) (h' : op'.isOrder = true)
    (hswap : ∀ order : Ordering, op'.holds order.swap = op.holds order) :
    combine op left right = .ok v ↔ combine op' right left = .ok v := by
  rw [combine_eq_ok_iff h, combine_eq_ok_iff h']
  constructor
  · rintro ⟨order, horder, rfl⟩
    exact ⟨order.swap, Value.compare_swap horder, by rw [hswap]⟩
  · rintro ⟨order, horder, rfl⟩
    refine ⟨order.swap, Value.compare_swap horder, ?_⟩
    rw [← hswap, Ordering.swap_swap]

end Expr

/-- **Comparisons are coherent.** Equality is the same either way round. Maps and loops, and only
they, have no order with anything; any other order is reversed the other way round, so that what is
less on one side is greater on the other. Of values that are not null either and have no NaN as
their number, those are equal that are in order both ways. -/
theorem Value.comparisons_coherent (a b : Value) :
    a.looseEq b = b.looseEq a ∧
    ((∃ message, a.compare b = .error message) ↔
      a.isContainer = true ∨ b.isContainer = true) ∧
    (∀ order, a.compare b = .ok order → b.compare a = .ok order.swap) ∧
    (a.IsPlaced → b.IsPlaced → (a.looseEq b = true ↔ a.compare b = .ok .eq)) ∧
    (∀ v, Expr.combine .lt a b = .ok v ↔ Expr.combine .gt b a = .ok v) ∧
    (∀ v, Expr.combine .le a b = .ok v ↔ Expr.combine .ge b a = .ok v) ∧
    (a.IsPlaced → b.IsPlaced → ∃ le ge, Expr.combine .le a b = .ok (.bool le) ∧
      Expr.combine .ge a b = .ok (.bool ge) ∧ Expr.combine .eq a b = .ok (.bool (le && ge))) := by
  refine ⟨looseEq_comm a b, ?_, fun order => compare_swap, looseEq_iff_compare, ?_, ?_, ?_⟩
  · simp only [compare_eq_error_iff, exists_and_left, exists_eq, and_true]
  · exact fun v => Expr.combine_swap rfl rfl fun order => by cases order <;> rfl
  · exact fun v => Expr.combine_swap rfl rfl fun order => by cases order <;> rfl
  · intro ha hb
    have hcompare := compare_eq ha.isContainer hb.isContainer
    have hiff := looseEq_iff_compare ha hb
    generalize (if a.isBool || b.isBool then Ord.compare a.truthy.toNat b.truthy.toNat
      else plainOrder a b) = order at hcompare
    refine ⟨_, _, (Expr.combine_eq_ok_iff rfl).mpr ⟨order, hcompare, rfl⟩,
      (Expr.combine_eq_ok_iff rfl).mpr ⟨order, hcompare, rfl⟩, ?_⟩
    rw [hcompare, Except.ok.injEq] at hiff
    have heq : a.looseEq b = (Operator.le.holds order && Operator.ge.holds order) := by
      rw [Bool.eq_iff_iff, hiff]
      cases order <;> decide
    rw [Expr.combine, heq]

/-- A text that is a number between blanks is equal to the number, both ways. -/
theorem Value.comparisons_coherent_sample :
    (Value.str " 1e1 ").IsPlaced ∧ (Value.int 10).IsPlaced ∧
      (Value.str " 1e1 ").compare (.int 10) = .ok .eq ∧
      (Value.str " 1e1 ").looseEq (.int 10) = true ∧
      (Value.int 10).looseEq (.str " 1e1 ") = true ∧
      (Value.str "abc").compare (.int 10) = .ok .gt ∧
      (Value.int 10).compare (.str "abc") = .ok .lt := by
  have hnumber : (Value.str " 1e1 ").number? = some (.ofInt 10) := by decide +kernel
  have hnotNaN : ∀ v : Value, v.number? = some (.ofInt 10) → ¬ v.IsNaN := by
    rintro v hv ⟨x, hx, hnan⟩
    obtain rfl := Option.some.inj (hv.symm.trans hx)
    rw [Binary64.isNaN_ofInt] at hnan
    contradiction
  have htext : (Value.str " 1e1 ").IsPlaced := ⟨rfl, nofun, hnotNaN _ hnumber⟩
  have hint : (Value.int 10).IsPlaced := ⟨rfl, nofun, hnotNaN _ rfl⟩
  have horder : (Value.str " 1e1 ").compare (.int 10) = .ok .eq := by
    rw [compare_eq rfl rfl]
    exact congrArg Except.ok (by decide +kernel)
  obtain ⟨hcomm, -, -, heq, -⟩ := comparisons_coherent (.str " 1e1 ") (.int 10)
  obtain ⟨-, -, hswap, -⟩ := comparisons_coherent (.str "abc") (.int 10)
  have hless : (Value.str "abc").compare (.int 10) = .ok .gt := by
    rw [compare_eq rfl rfl]
    exact congrArg Except.ok (by decide +kernel)
  have hequal := (heq htext hint).mpr horder
  exact ⟨htext, hint, horder, hequal, hcomm ▸ hequal, hless, hswap _ hless⟩

end PageServer
