/-
# Addresses with parameters

Setting parameters of an address leaves its path, and what is read of the new
query is the table that was read before with the parameters set. The query is
written in the order of its names, so it does not matter whether parameters are
set at once or one after another.

* `Query.read_write`: the query of a table in order is read as the table
* `Query.setAll`: a table with parameters set
* `Query.splitAddress_extend`: the path and the query of an address with parameters
* `Query.extend_merges`: parameters are merged into the query
-/
import PageServer.Proofs.Http.Query

namespace PageServer.Query

/-! ## Tables -/

/-- **The query of a table in order is read as the table.** -/
theorem read_write {table : Table Text} (h : table.IsSorted) : read (write table) = table := by
  rw [read, pairs_write, Table.ofList_eq_self h]

/-- A table with parameters set, one after another. -/
def setAll (table : Table Text) (params : List (Text × Text)) : Table Text :=
  params.foldl (fun table pair => table.insert pair.1 pair.2) table

/-- The last of some parameters with a name counts, and other names keep what they have. -/
theorem get?_setAll (name : Text) (table : Table Text) (params : List (Text × Text)) :
    (setAll table params).get? name = (Table.last? name params).or (table.get? name) :=
  Table.get?_foldl_insert name params table

theorem setAll_append (table : Table Text) (params more : List (Text × Text)) :
    setAll table (params ++ more) = setAll (setAll table params) more :=
  List.foldl_append

/-- What is read of a query stays in order when parameters are set. -/
theorem isSorted_setAll_read (query : Text) (params : List (Text × Text)) :
    (setAll (read query) params).IsSorted :=
  Table.isSorted_foldl_insert (Table.isSorted_ofList (pairs query)) params

/-! ## Addresses -/

/-- The path of an address has no question mark. -/
theorem not_mem_path (address : Text) : '?' ∉ (splitAddress address).1 := by
  by_cases hmem : '?' ∈ address
  · obtain ⟨path, query, rfl, hpath⟩ := List.eq_append_cons_of_mem hmem
    rwa [splitAddress, Text.cut_append hpath]
  · rwa [splitAddress, Text.cut_of_not_mem hmem]

/-- An address with some parameters has a query. -/
theorem extend_of_ne_nil {params : List (Text × Text)} (h : params ≠ []) (address : Text) :
    extend address params =
      (splitAddress address).1 ++
        '?' :: write (setAll (read (splitAddress address).2) params) :=
  if_neg (mt List.isEmpty_iff.mp h)

/-- **The path stays, and the new query is that of the old one with the parameters set.** -/
theorem splitAddress_extend {params : List (Text × Text)} (h : params ≠ []) (address : Text) :
    splitAddress (extend address params) =
      ((splitAddress address).1, write (setAll (read (splitAddress address).2) params)) := by
  rw [extend_of_ne_nil h]
  generalize hpath : (splitAddress address).1 = path
  have hmark : '?' ∉ path := hpath ▸ not_mem_path address
  rw [splitAddress, Text.cut_append hmark, Option.getD_some]

/-- What is read of the new query. -/
theorem read_extend (address : Text) (params : List (Text × Text)) :
    read (splitAddress (extend address params)).2 =
      setAll (read (splitAddress address).2) params := by
  by_cases h : params = []
  · rw [h]
    rfl
  · rw [splitAddress_extend h, read_write (isSorted_setAll_read _ params)]

/-- **Parameters are merged into the query of an address. Its path stays; what is read of the new
query is the table of the old one with the parameters set in order, so that the last one of a name
counts and the other names keep what they have; and further parameters may as well be set at
once.** -/
theorem extend_merges (address : Text) (params more : List (Text × Text)) :
    (splitAddress (extend address params)).1 = (splitAddress address).1 ∧
      read (splitAddress (extend address params)).2 =
        setAll (read (splitAddress address).2) params ∧
      (∀ name, (read (splitAddress (extend address params)).2).get? name =
        (Table.last? name params).or ((read (splitAddress address).2).get? name)) ∧
      extend (extend address params) more = extend address (params ++ more) := by
  have hpath : (splitAddress (extend address params)).1 = (splitAddress address).1 := by
    by_cases h : params = []
    · rw [h]
      rfl
    · rw [splitAddress_extend h]
  have hread := read_extend address params
  refine ⟨hpath, hread, fun name => ?_, ?_⟩
  · rw [hread, get?_setAll]
  · by_cases h : more = []
    · rw [h, List.append_nil]
      rfl
    · have hboth : params ++ more ≠ [] := List.append_ne_nil_of_right_ne_nil params h
      rw [extend_of_ne_nil h, extend_of_ne_nil hboth, hpath, hread, setAll_append]

/-- A query that can not be read as it was written is written anew, in the order of the names. -/
example : extend "/users?p=%zz&ob=%E4%B8%AD&&q" [("p".toList, "a b&c".toList)] =
    "/users?ob=%E4%B8%AD&p=a+b%26c&q=".toList := by
  decide +kernel

end PageServer.Query
