/-
# The check of a re-routing table

When a table is loaded, re-routing is tried from the controllers of its entries
with no module and with the modules of its entries. That covers every path: a
module that no entry names is found by no entry, so a route with it goes the
way of a route with no module for as long as it keeps this module.

* `Reroutes.Forgets`: a route beside one that has an unknown module no more
* `Reroutes.exists_endless_start`: an endless run begins at one of the places tried
* `Reroutes.check_eq_ok_iff`: the check succeeds exactly if no path has an endless run
-/
import PageServer.Proofs.Routing.Rewriting

namespace PageServer.Reroutes

/-! ## Unknown modules -/

/-- The modules that the entries of a table name. -/
def knownModules (table : Reroutes) : List Text :=
  (table.map fun entry => Route.ofPath entry.1).filterMap Route.module

/-- A route beside another one at the same controller, which has the same module, or has none where
that of the first is known to no entry. -/
structure Forgets (table : Reroutes) (route other : Route) : Prop where
  /-- The names of the first route are those of a path. -/
  isPlain : route.IsPlain
  /-- The controllers are the same. -/
  controller : route.controller = other.controller
  /-- The modules are the same, or the second route has none in place of an unknown one. -/
  module : route.module = other.module ∨
    (other.module = none ∧ ∀ m ∈ route.module, m ∉ table.knownModules)

/-- An entry under a controller with a module makes the module known. -/
theorem mem_knownModules {table : Reroutes} {controller m target : Text}
    (hc : Route.IsSegment controller) (hm : Route.IsSegment m ∧ Route.number? m = none)
    (h : (controller ++ '/' :: m, target) ∈ table) : m ∈ table.knownModules := by
  have hplace := Route.place_ofPath_pathTo controller (some m) hc (by simpa using hm)
  simp only [Route.pathTo, Option.map_some, Option.getD_some, place, Prod.mk.injEq] at hplace
  exact List.mem_filterMap.mpr ⟨_, List.mem_map_of_mem h, hplace.2⟩

/-- An unknown module is as good as none when an entry is looked for. -/
theorem find?_of_unknown {table : Reroutes} {controller : Text} {module : Option Text}
    (hc : Route.IsSegment controller)
    (hm : ∀ m ∈ module, Route.IsSegment m ∧ Route.number? m = none)
    (hunknown : ∀ m ∈ module, m ∉ table.knownModules) :
    table.find? controller module = table.find? controller none := by
  cases module with
  | none => rfl
  | some m =>
      have hmiss : table.get? (controller ++ '/' :: m) = none := by
        cases hget : table.get? (controller ++ '/' :: m) with
        | none => rfl
        | some target =>
            refine absurd ?_ (hunknown m rfl)
            exact mem_knownModules hc (hm m rfl) (Table.mem_of_get? hget)
      simp [find?, hmiss]

/-- **Steps keep a route beside one that has forgotten an unknown module.** -/
theorem simulates_forgets (table : Reroutes) : table.Simulates table.Forgets := by
  intro route other key next hrel hstep
  obtain ⟨controller, target, hc, hfind, rfl⟩ := step?_eq_some_iff.mp hstep
  have hfind' : table.find? controller other.module = some (key, target) := by
    rcases hrel.module with heq | ⟨hnone, hunknown⟩
    · rw [← heq, hfind]
    · rw [hnone, ← find?_of_unknown (hrel.isPlain.controller controller hc) hrel.isPlain.module
        hunknown, hfind]
  refine ⟨other.overlay target, step?_eq_some_iff.mpr
    ⟨controller, target, hrel.controller ▸ hc, hfind', rfl⟩, ?_⟩
  have hplace := Route.place_overlay route target
  have hplace' := Route.place_overlay other target
  simp only [place, Prod.ext_iff] at hplace hplace'
  refine ⟨Route.isPlain_overlay hrel.isPlain target, ?_, ?_⟩
  · rw [hplace.1, hplace'.1, placeOver_controller, ← placeOver_controller other.module]
  · -- the path names a module of its own for both routes, or leaves both as they were
    rw [hplace.2, hplace'.2]
    rcases Route.segments target with _ | ⟨first, _ | ⟨second, others⟩⟩
    · exact hrel.module
    · exact hrel.module
    · simp only [Route.placeOver]
      split_ifs
      · exact hrel.module
      · exact Or.inl rfl

/-! ## The places that are tried -/

/-- The routes that are tried are those with the controller of an entry and with no module or the
module of an entry. -/
theorem mem_starts_iff {table : Reroutes} {start : Route} :
    start ∈ table.starts ↔
      ∃ controller module, start = { controller := some controller, module } ∧
        controller ∈ (table.map fun entry => Route.ofPath entry.1).filterMap Route.controller ∧
        ∀ m ∈ module, m ∈ table.knownModules := by
  have hmodules (module : Option Text) :
      module ∈ (none :: ((((table.map fun entry => Route.ofPath entry.1).filterMap
        Route.module).foldl (fun sorted name => Text.insertSorted name sorted) []).map some)) ↔
      ∀ m ∈ module, m ∈ table.knownModules := by
    cases module with
    | none => simp
    | some m => simp [Text.mem_sorted, knownModules]
  simp only [starts, List.mem_flatMap, List.mem_map, Text.mem_sorted, List.not_mem_nil, or_false,
    hmodules]
  constructor
  · rintro ⟨controller, hcontroller, module, hmodule, rfl⟩
    exact ⟨controller, module, rfl, hcontroller, hmodule⟩
  · rintro ⟨controller, module, rfl, hcontroller, hmodule⟩
    exact ⟨controller, hcontroller, module, hmodule, rfl⟩

/-- The routes that are tried have names that a path can give. -/
theorem isPlain_of_mem_starts {table : Reroutes} {start : Route} (h : start ∈ table.starts) :
    start.IsPlain ∧ start.controller.isSome := by
  obtain ⟨controller, module, rfl, hcontroller, hmodule⟩ := mem_starts_iff.mp h
  refine ⟨⟨?_, ?_⟩, rfl⟩
  · rintro c ⟨⟩
    obtain ⟨route, hroute, hc⟩ := List.mem_filterMap.mp hcontroller
    obtain ⟨entry, -, rfl⟩ := List.mem_map.mp hroute
    exact (Route.isPlain_ofPath entry.1).controller controller hc
  · intro m hm
    obtain ⟨route, hroute, hmod⟩ := List.mem_filterMap.mp (hmodule m hm)
    obtain ⟨entry, -, rfl⟩ := List.mem_map.mp hroute
    exact (Route.isPlain_ofPath entry.1).module m hmod

/-- A step is taken at the controller of an entry. -/
theorem mem_controllers_of_step? {table : Reroutes} {route next : Route} {key controller : Text}
    (hplain : route.IsPlain) (hc : route.controller = some controller)
    (h : table.step? route = some (key, next)) :
    controller ∈ (table.map fun entry => Route.ofPath entry.1).filterMap Route.controller := by
  obtain ⟨c, target, hc', hfind, -⟩ := step?_eq_some_iff.mp h
  obtain rfl : c = controller := Option.some.inj (hc'.symm.trans hc)
  obtain ⟨hmem, hkey⟩ := mem_of_find? hfind
  have hsegment := hplain.controller c hc
  have hentry : (Route.ofPath key).controller = some c := by
    rcases hkey with rfl | ⟨m, hm, rfl⟩
    · have hplace := Route.place_ofPath_pathTo key none hsegment (by simp)
      simp only [Route.pathTo, Option.map_none, Option.getD_none, List.append_nil, place,
        Prod.mk.injEq] at hplace
      exact hplace.1
    · have hplace := Route.place_ofPath_pathTo c (some m) hsegment
        (by simpa using hplain.module m hm)
      simp only [Route.pathTo, Option.map_some, Option.getD_some, place, Prod.mk.injEq] at hplace
      exact hplace.1
  exact List.mem_filterMap.mpr ⟨_, List.mem_map_of_mem hmem, hentry⟩

/-- **An endless run has one beside it that begins at a place which is tried.** -/
theorem exists_endless_start {table : Reroutes} {route : Route} (hplain : route.IsPlain)
    (h : table.Endless route) : ∃ start ∈ table.starts, table.Endless start := by
  obtain ⟨last, hlast⟩ := Option.isSome_iff_exists.mp (h 1)
  obtain ⟨⟨key, next⟩, hstep, -⟩ := Option.bind_eq_some_iff.mp hlast
  obtain ⟨controller, -, hc, -, -⟩ := step?_eq_some_iff.mp hstep
  -- the place that is tried has the module of the route, or none if the table does not know it
  let module := route.module.filter fun m => decide (m ∈ table.knownModules)
  let start : Route := { controller := some controller, module }
  have hmodule : ∀ m ∈ module, m ∈ table.knownModules := by
    intro m hm
    simpa using (Option.filter_eq_some_iff.mp hm).2
  have hforgets : table.Forgets route start := by
    refine ⟨hplain, hc, ?_⟩
    show route.module = module ∨ (module = none ∧ _)
    cases hm : route.module with
    | none => exact Or.inl (by simp [module, hm])
    | some m =>
        by_cases hknown : m ∈ table.knownModules
        · exact Or.inl (by simp [module, hm, Option.filter_some, hknown])
        · exact Or.inr ⟨by simp [module, hm, Option.filter_some, hknown], by simpa using hknown⟩
  refine ⟨start, mem_starts_iff.mpr ⟨controller, module, rfl, ?_, hmodule⟩, ?_⟩
  · exact mem_controllers_of_step? hplain hc hstep
  · exact h.of_simulates table.simulates_forgets hforgets

/-- An endless run from a place that is tried is that of some path. -/
theorem exists_endless_path {table : Reroutes} {start : Route} (hmem : start ∈ table.starts)
    (h : table.Endless start) : ∃ path, table.Endless (Route.ofPath path) := by
  obtain ⟨hplain, hsome⟩ := isPlain_of_mem_starts hmem
  obtain ⟨path, hplace⟩ := Route.exists_path_of_isPlain hplain hsome
  exact ⟨path, (endless_congr hplace).mpr h⟩

/-! ## The check -/

/-- A check of each member of a list succeeds exactly if that of every member does. -/
theorem forM_eq_ok_iff {α ε : Type} {check : α → Except ε Unit} {list : List α} :
    list.forM check = .ok () ↔ ∀ a ∈ list, check a = .ok () := by
  induction list with
  | nil => simp [pure, Except.pure]
  | cons a rest ih =>
      rw [List.forall_mem_cons, ← ih]
      show (check a >>= fun _ => rest.forM check) = .ok () ↔ _
      cases check a with
      | ok _ => simp [bind, Except.bind]
      | error _ => simp [bind, Except.bind]

/-- The check succeeds exactly if re-routing gives a result from every place that is tried. -/
theorem check_eq_ok_iff_starts {table : Reroutes} :
    table.check = .ok () ↔ ∀ start ∈ table.starts, ¬ table.Endless start := by
  rw [check, forM_eq_ok_iff]
  refine forall₂_congr fun start _ => ?_
  rw [← exists_apply_eq_ok_iff]
  cases table.apply start <;> simp [bind, Except.bind, pure, Except.pure]

/-- **The check of a table is exact.** It succeeds exactly if re-routing gives a result for every
path, and just as well exactly if no path has an endless run of replacements. -/
theorem check_eq_ok_iff (table : Reroutes) :
    (table.check = .ok () ↔
      ∀ path, ∃ route, table.apply (Route.ofPath path) = .ok route) ∧
    (table.check = .ok () ↔ ∀ path, ¬ table.Endless (Route.ofPath path)) := by
  have hends : table.check = .ok () ↔ ∀ path, ¬ table.Endless (Route.ofPath path) := by
    rw [check_eq_ok_iff_starts]
    constructor
    · intro hstarts path hpath
      obtain ⟨start, hmem, hstart⟩ := exists_endless_start (Route.isPlain_ofPath path) hpath
      exact hstarts start hmem hstart
    · intro hpaths start hmem hstart
      obtain ⟨path, hpath⟩ := exists_endless_path hmem hstart
      exact hpaths path hpath
  refine ⟨?_, hends⟩
  rw [hends]
  exact forall_congr' fun path => (exists_apply_eq_ok_iff table _).symm

end PageServer.Reroutes
