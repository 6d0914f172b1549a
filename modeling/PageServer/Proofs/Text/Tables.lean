/-
# Tables in the order of their names

Setting names one after another keeps a table in strict order. The table of some
pairs has the last value of each name, and a table in order is the table of its
own pairs.

* `Table.get?_ofList`: the table of some pairs has the last value of each name
* `Table.IsSorted`: tables in strict order of their names
* `Table.isSorted_foldl_insert`: setting names keeps the order
* `Table.ofList_eq_self`: a table in order is that of its pairs
-/
import Mathlib
import PageServer.Text.Table

namespace PageServer.Table

variable {α : Type}

/-! ## Tables of pairs -/

/-- The value of the last pair with a name. -/
def last? (name : Text) (pairs : List (Text × α)) : Option α :=
  ((pairs.filter fun pair => decide (pair.1 = name)).getLast?).map Prod.snd

/-- The last pair with a name is among the further ones if one of them has the name. -/
theorem last?_cons (name : Text) (pair : Text × α) (pairs : List (Text × α)) :
    last? name (pair :: pairs) =
      (last? name pairs).or (if pair.1 = name then some pair.2 else none) := by
  rw [last?, last?, List.filter_cons]
  by_cases h : pair.1 = name
  · rw [if_pos (by simpa using h), if_pos h, List.getLast?_cons]
    cases (pairs.filter fun pair => decide (pair.1 = name)).getLast? <;> rfl
  · rw [if_neg (by simpa using h), if_neg h, Option.or_none]

/-- Setting the names of some pairs one after another sets them to their last values. -/
theorem get?_foldl_insert (name : Text) (pairs : List (Text × α)) (table : Table α) :
    get? name (pairs.foldl (fun table pair => insert pair.1 pair.2 table) table) =
      (last? name pairs).or (get? name table) := by
  induction pairs generalizing table with
  | nil => rfl
  | cons pair pairs ih =>
      rw [List.foldl_cons, ih, last?_cons, Option.or_assoc]
      by_cases h : pair.1 = name
      · rw [if_pos h, ← h, get?_insert_self]
        rfl
      · rw [if_neg h, get?_insert_of_ne (Ne.symm h)]
        rfl

/-- **The table of some pairs has the last value of each name.** -/
theorem get?_ofList (name : Text) (pairs : List (Text × α)) :
    get? name (ofList pairs) = last? name pairs := by
  rw [ofList, get?_foldl_insert, get?, Option.or_none]

/-! ## Tables in order -/

/-- The names of a table come in order, each once. -/
def IsSorted (table : Table α) : Prop := table.Pairwise fun entry next => entry.1 < next.1

/-- What a table has after a name is set is new, or it was there. -/
theorem eq_or_mem_of_mem_insert {name : Text} {thing : α} {entry : Text × α} {table : Table α}
    (h : entry ∈ insert name thing table) : entry = (name, thing) ∨ entry ∈ table := by
  induction table with
  | nil => exact Or.inl (List.mem_singleton.mp h)
  | cons first rest ih =>
      obtain ⟨other, old⟩ := first
      rw [insert] at h
      split_ifs at h
      · exact (List.mem_cons.mp h).imp_right (List.mem_cons_of_mem _)
      · exact List.mem_cons.mp h
      · rcases List.mem_cons.mp h with heq | hrest
        · exact Or.inr (heq ▸ List.mem_cons_self)
        · exact (ih hrest).imp_right (List.mem_cons_of_mem _)

/-- Setting a name keeps the order. -/
theorem isSorted_insert {table : Table α} (h : IsSorted table) (name : Text) (thing : α) :
    IsSorted (insert name thing table) := by
  induction table with
  | nil => exact List.pairwise_singleton _ _
  | cons first rest ih =>
      obtain ⟨other, old⟩ := first
      obtain ⟨hfirst, hrest⟩ := List.pairwise_cons.mp h
      rw [insert]
      split_ifs with heq hbefore
      · subst heq
        exact List.pairwise_cons.mpr ⟨hfirst, hrest⟩
      · have hlt : name < other := of_decide_eq_true hbefore
        refine List.pairwise_cons.mpr ⟨fun entry hentry => ?_, h⟩
        rcases List.mem_cons.mp hentry with rfl | hentry
        · exact hlt
        · exact hlt.trans (hfirst entry hentry)
      · -- the name is neither that of the first entry nor before it
        have hlt : other < name :=
          lt_of_le_of_ne (not_lt.mp fun hlt => hbefore (decide_eq_true hlt)) (Ne.symm heq)
        refine List.pairwise_cons.mpr ⟨fun entry hentry => ?_, ih hrest⟩
        rcases eq_or_mem_of_mem_insert hentry with rfl | hentry
        · exact hlt
        · exact hfirst entry hentry

/-- **Setting names one after another keeps the order.** -/
theorem isSorted_foldl_insert {table : Table α} (h : IsSorted table) (pairs : List (Text × α)) :
    IsSorted (pairs.foldl (fun table pair => insert pair.1 pair.2 table) table) := by
  induction pairs generalizing table with
  | nil => exact h
  | cons pair pairs ih => exact ih (isSorted_insert h pair.1 pair.2)

/-- The table of some pairs is in order. -/
theorem isSorted_ofList (pairs : List (Text × α)) : IsSorted (ofList pairs) :=
  isSorted_foldl_insert .nil pairs

/-- Setting a name that comes after all others puts it at the end. -/
theorem insert_last {name : Text} (thing : α) {table : Table α}
    (h : ∀ entry ∈ table, entry.1 < name) : insert name thing table = table ++ [(name, thing)] := by
  induction table with
  | nil => rfl
  | cons entry rest ih =>
      obtain ⟨other, old⟩ := entry
      have hlt : other < name := h (other, old) List.mem_cons_self
      have hne : ¬ name = other := fun heq => absurd hlt (heq ▸ lt_irrefl _)
      have hnot : Text.before name other = false := decide_eq_false (not_lt_of_gt hlt)
      rw [insert, if_neg hne, hnot,
        ih fun entry hentry => h entry (List.mem_cons_of_mem _ hentry)]
      rfl

/-- Setting the names of a table in order behind names that come before them appends it. -/
theorem foldl_insert_eq_append {before table : Table α} (h : IsSorted (before ++ table)) :
    table.foldl (fun table pair => insert pair.1 pair.2 table) before = before ++ table := by
  induction table generalizing before with
  | nil => rw [List.append_nil, List.foldl_nil]
  | cons entry rest ih =>
      obtain ⟨-, -, hbefore⟩ := List.pairwise_append.mp h
      have hlast : insert entry.1 entry.2 before = before ++ [entry] :=
        insert_last entry.2 fun earlier hearlier =>
          hbefore earlier hearlier entry List.mem_cons_self
      have hmoved : before ++ [entry] ++ rest = before ++ entry :: rest := by
        rw [List.append_assoc, List.singleton_append]
      rw [List.foldl_cons, hlast, ih (hmoved ▸ h), hmoved]

/-- **A table in order is the table of its pairs.** -/
theorem ofList_eq_self {table : Table α} (h : IsSorted table) : ofList table = table := by
  have hsorted : IsSorted ([] ++ table) := h
  exact foldl_insert_eq_append hsorted

end PageServer.Table
