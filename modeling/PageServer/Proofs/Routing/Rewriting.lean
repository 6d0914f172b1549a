/-
# Runs of replacements

Re-routing replaces a route step by step. Only the place of a route decides
about the next step, so a run in which a place comes up twice never ends, and a
run that ends passes through no place twice. The places that can come up are
few enough for the bound of `Reroutes.apply`.

* `Reroutes.Replaces`: one step, by the entry that applies
* `Reroutes.after`: the route after a number of steps
* `Reroutes.Endless`: there always is a further step
* `Reroutes.Endless.of_simulates`: runs along a relation that steps respect
* `Reroutes.Run`: a run with the entries that it hits
* `Reroutes.Circles`: a run that hits an entry at the same place again
* `Reroutes.exists_apply_eq_ok_iff`: re-routing gives a result unless the run is endless
-/
import PageServer.Proofs.Routing.Paths

namespace PageServer

/-- What a name has is in the table. -/
theorem Table.mem_of_get? {α : Type} {name : Text} {thing : α} {table : Table α}
    (h : table.get? name = some thing) : (name, thing) ∈ table := by
  induction table with
  | nil => simp [Table.get?] at h
  | cons entry rest ih =>
      obtain ⟨other, old⟩ := entry
      rw [Table.get?] at h
      split_ifs at h with heq
      · simp_all
      · exact List.mem_cons_of_mem _ (ih h)

namespace Reroutes

/-! ## One step -/

/-- The entry that is found is one of the table: that of the controller with the module, or that
of the controller alone. -/
theorem mem_of_find? {table : Reroutes} {controller key target : Text} {module : Option Text}
    (h : table.find? controller module = some (key, target)) :
    (key, target) ∈ table ∧
      (key = controller ∨ ∃ m ∈ module, key = controller ++ '/' :: m) := by
  unfold find? at h
  rcases Option.or_eq_some_iff.mp h with hboth | ⟨-, halone⟩
  · obtain ⟨m, hm, hentry⟩ := Option.bind_eq_some_iff.mp hboth
    obtain ⟨found, hget, heq⟩ := Option.map_eq_some_iff.mp hentry
    obtain ⟨rfl, rfl⟩ := Prod.mk.injEq .. ▸ heq
    exact ⟨Table.mem_of_get? hget, Or.inr ⟨m, hm, rfl⟩⟩
  · obtain ⟨found, hget, heq⟩ := Option.map_eq_some_iff.mp halone
    obtain ⟨rfl, rfl⟩ := Prod.mk.injEq .. ▸ heq
    exact ⟨Table.mem_of_get? hget, Or.inl rfl⟩

/-- A step finds an entry for the place and puts its path over the route. -/
theorem step?_eq_some_iff {table : Reroutes} {route next : Route} {key : Text} :
    table.step? route = some (key, next) ↔
      ∃ controller target, route.controller = some controller ∧
        table.find? controller route.module = some (key, target) ∧
        next = route.overlay target := by
  unfold step?
  cases hc : route.controller with
  | none => simp
  | some controller =>
      cases hf : table.find? controller route.module with
      | none => simp [hf]
      | some hit =>
          obtain ⟨found, target⟩ := hit
          simp [hf, eq_comm]

/-- One step: the route is replaced by itself with the path of an entry put over it. The entry is
that of its controller with its module, or else that of the controller alone. -/
inductive Replaces (table : Reroutes) (route : Route) : Text → Route → Prop
  /-- There is an entry for the controller with the module. -/
  | both {controller module target : Text} (hcontroller : route.controller = some controller)
      (hmodule : route.module = some module)
      (hentry : table.get? (controller ++ '/' :: module) = some target) :
      Replaces table route (controller ++ '/' :: module) (route.overlay target)
  /-- There is none for both, but one for the controller. -/
  | alone {controller target : Text} (hcontroller : route.controller = some controller)
      (hnone : ∀ module, route.module = some module →
        table.get? (controller ++ '/' :: module) = none)
      (hentry : table.get? controller = some target) :
      Replaces table route controller (route.overlay target)

/-- A step finds the entry that applies. -/
theorem step?_eq_some_iff_replaces {table : Reroutes} {route next : Route} {key : Text} :
    table.step? route = some (key, next) ↔ table.Replaces route key next := by
  rw [step?_eq_some_iff]
  constructor
  · rintro ⟨controller, target, hcontroller, hfind, rfl⟩
    unfold find? at hfind
    rcases Option.or_eq_some_iff.mp hfind with hboth | ⟨hnone, halone⟩
    · obtain ⟨module, hmodule, hentry⟩ := Option.bind_eq_some_iff.mp hboth
      obtain ⟨found, hget, heq⟩ := Option.map_eq_some_iff.mp hentry
      obtain ⟨rfl, rfl⟩ := Prod.mk.injEq .. ▸ heq
      exact .both hcontroller hmodule hget
    · obtain ⟨found, hget, heq⟩ := Option.map_eq_some_iff.mp halone
      obtain ⟨rfl, rfl⟩ := Prod.mk.injEq .. ▸ heq
      refine .alone hcontroller (fun module hmodule => ?_) hget
      rw [hmodule, Option.bind_some, Option.map_eq_none_iff] at hnone
      exact hnone
  · rintro (@⟨controller, module, target, hcontroller, hmodule, hentry⟩ |
      @⟨_, target, hcontroller, hnone, hentry⟩)
    · refine ⟨controller, target, hcontroller, ?_, rfl⟩
      simp only [find?, hmodule, Option.bind_some, hentry, Option.map_some, Option.some_or]
    · refine ⟨key, target, hcontroller, ?_, rfl⟩
      have hboth : (route.module.bind fun name =>
          (table.get? (key ++ '/' :: name)).map fun target => (key ++ '/' :: name, target)) =
            none := by
        rw [Option.bind_eq_none_iff]
        intro module hmodule
        rw [hnone module hmodule, Option.map_none]
      simp only [find?, hboth, Option.none_or, hentry, Option.map_some]

/-- Steps respect a relation: a step on one side has one by the same entry on the other side. -/
def Simulates (table : Reroutes) (related : Route → Route → Prop) : Prop :=
  ∀ route other key next, related route other → table.step? route = some (key, next) →
    ∃ next', table.step? other = some (key, next') ∧ related next next'

/-- Only the place of a route decides about its step and about the place behind it. -/
theorem simulates_place (table : Reroutes) :
    table.Simulates fun route other => place route = place other := by
  intro route other key next hplace hstep
  obtain ⟨controller, target, hc, hfind, rfl⟩ := step?_eq_some_iff.mp hstep
  simp only [place, Prod.mk.injEq] at hplace
  obtain ⟨hcontroller, hmodule⟩ := hplace
  refine ⟨other.overlay target, ?_, ?_⟩
  · exact step?_eq_some_iff.mpr
      ⟨controller, target, hcontroller ▸ hc, hmodule ▸ hfind, rfl⟩
  · show place (route.overlay target) = place (other.overlay target)
    rw [Route.place_overlay, Route.place_overlay, hmodule]

/-! ## Runs -/

/-- The route after a number of steps, if there are as many. -/
def after (table : Reroutes) : Nat → Route → Option Route
  | 0, route => some route
  | n + 1, route => (table.step? route).bind fun hit => table.after n hit.2

/-- There always is a further step. -/
def Endless (table : Reroutes) (route : Route) : Prop := ∀ n, (table.after n route).isSome

/-- A run behind its first step. -/
theorem after_succ {table : Reroutes} {route next : Route} {key : Text}
    (h : table.step? route = some (key, next)) (n : Nat) :
    table.after (n + 1) route = table.after n next := by
  rw [after, h, Option.bind_some]

/-- A run in two parts. -/
theorem after_add (table : Reroutes) (m n : Nat) (route : Route) :
    table.after (m + n) route = (table.after m route).bind (table.after n) := by
  induction m generalizing route with
  | zero => simp [after]
  | succ m ih =>
      rw [Nat.add_right_comm]
      cases h : table.step? route with
      | none => simp [after, h]
      | some hit =>
          obtain ⟨key, next⟩ := hit
          rw [after_succ h, after_succ h, ih]

/-- A run of a number of steps has runs of fewer steps. -/
theorem isSome_after_of_le {table : Reroutes} {route : Route} {m n : Nat} (hle : m ≤ n)
    (h : (table.after n route).isSome) : (table.after m route).isSome := by
  obtain ⟨k, rfl⟩ := Nat.exists_eq_add_of_le hle
  rw [after_add] at h
  exact Option.isSome_of_isSome_bind h

/-- Along a relation that steps respect, a run has a run beside it. -/
theorem exists_after_of_simulates {table : Reroutes} {related : Route → Route → Prop}
    (hsim : table.Simulates related) (n : Nat) {route other last : Route}
    (hrel : related route other) (h : table.after n route = some last) :
    ∃ last', table.after n other = some last' ∧ related last last' := by
  induction n generalizing route other with
  | zero =>
      rw [after, Option.some.injEq] at h
      exact ⟨other, rfl, h ▸ hrel⟩
  | succ n ih =>
      obtain ⟨⟨key, next⟩, hstep, hrest⟩ := Option.bind_eq_some_iff.mp h
      obtain ⟨next', hstep', hrel'⟩ := hsim route other key next hrel hstep
      obtain ⟨last', hlast, hrelLast⟩ := ih hrel' hrest
      exact ⟨last', by rw [after_succ hstep', hlast], hrelLast⟩

/-- Along such a relation an endless run has an endless run beside it. -/
theorem Endless.of_simulates {table : Reroutes} {related : Route → Route → Prop}
    (hsim : table.Simulates related) {route other : Route} (hrel : related route other)
    (h : table.Endless route) : table.Endless other := by
  intro n
  obtain ⟨last, hlast⟩ := Option.isSome_iff_exists.mp (h n)
  obtain ⟨last', hlast', -⟩ := exists_after_of_simulates hsim n hrel hlast
  exact Option.isSome_of_mem hlast'

/-- Whether a run is endless depends on the place only. -/
theorem endless_congr {table : Reroutes} {route other : Route} (h : place route = place other) :
    table.Endless route ↔ table.Endless other :=
  ⟨Endless.of_simulates table.simulates_place h,
    Endless.of_simulates table.simulates_place h.symm⟩

/-- A run is endless exactly if it is so behind its first step. -/
theorem endless_step {table : Reroutes} {route next : Route} {key : Text}
    (h : table.step? route = some (key, next)) : table.Endless route ↔ table.Endless next := by
  constructor
  · intro hroute n
    rw [← after_succ h]
    exact hroute (n + 1)
  · intro hnext n
    cases n with
    | zero => rfl
    | succ n =>
        rw [after_succ h]
        exact hnext n

/-- **A place that comes up again makes a run endless.** -/
theorem endless_of_return {table : Reroutes} {route last : Route} {k : Nat} (hpos : 0 < k)
    (hk : table.after k route = some last) (hplace : place last = place route) :
    table.Endless route := by
  intro n
  induction n using Nat.strong_induction_on with
  | _ n ih =>
      rcases Nat.lt_or_ge n k with hlt | hge
      · exact isSome_after_of_le hlt.le (Option.isSome_of_mem hk)
      · -- the steps behind the return repeat those behind the start
        obtain ⟨j, rfl⟩ := Nat.exists_eq_add_of_le hge
        obtain ⟨other, hother⟩ := Option.isSome_iff_exists.mp (ih j (by omega))
        obtain ⟨other', hother', -⟩ :=
          exists_after_of_simulates table.simulates_place j hplace.symm hother
        rw [after_add, hk, Option.bind_some, hother']
        rfl

/-! ## The entries that a run hits -/

/-- A run, with what it hits: for each step the place of the route and the key of the entry. -/
inductive Run (table : Reroutes) : Route → List (Place × Text) → Route → Prop
  /-- No step. -/
  | nil (route : Route) : Run table route [] route
  /-- A step before a run. -/
  | cons {route next last : Route} {key : Text} {hits : List (Place × Text)}
      (hstep : table.Replaces route key next) (hrun : Run table next hits last) :
      Run table route ((place route, key) :: hits) last

namespace Run

variable {table : Reroutes} {start middle last : Route} {hits others : List (Place × Text)}

/-- A run behind a run. -/
theorem append (h : table.Run start hits middle) (h' : table.Run middle others last) :
    table.Run start (hits ++ others) last := by
  induction h with
  | nil route => exact h'
  | cons hstep hrun ih => exact .cons hstep (ih h')

/-- A step behind a run. -/
theorem concat {key : Text} (h : table.Run start hits middle)
    (hstep : table.Replaces middle key last) :
    table.Run start (hits ++ [(place middle, key)]) last :=
  h.append (.cons hstep (.nil last))

/-- The first hit of a run is at the place where it starts. -/
theorem place_eq {hit : Place × Text} (h : table.Run start (hit :: hits) last) :
    place start = hit.1 := by
  generalize hall : hit :: hits = all at h
  cases h with
  | nil => contradiction
  | cons hstep hrun => rw [(List.cons.inj hall).1]

/-- A run in two parts. -/
theorem exists_middle (h : table.Run start (hits ++ others) last) :
    ∃ middle, table.Run start hits middle ∧ table.Run middle others last := by
  induction hits generalizing start with
  | nil => exact ⟨start, .nil start, h⟩
  | cons hit hits ih =>
      cases h with
      | cons hstep hrun =>
          obtain ⟨middle, hbefore, hbehind⟩ := ih hrun
          exact ⟨middle, .cons hstep hbefore, hbehind⟩

/-- A run leads to the route after as many steps as it has. -/
theorem after_eq (h : table.Run start hits last) : table.after hits.length start = some last := by
  induction h with
  | nil route => rfl
  | cons hstep hrun ih =>
      rw [List.length_cons, after_succ (step?_eq_some_iff_replaces.mpr hstep), ih]

/-- A run to the route after a number of steps. -/
theorem exists_of_after {n : Nat} (h : table.after n start = some last) :
    ∃ hits, hits.length = n ∧ table.Run start hits last := by
  induction n generalizing start with
  | zero =>
      rw [after, Option.some.injEq] at h
      exact ⟨[], rfl, h ▸ .nil start⟩
  | succ n ih =>
      obtain ⟨⟨key, next⟩, hstep, hrest⟩ := Option.bind_eq_some_iff.mp h
      obtain ⟨hits, rfl, hrun⟩ := ih hrest
      exact ⟨_, rfl, .cons (step?_eq_some_iff_replaces.mp hstep) hrun⟩

/-- At a place that a run has come to, the entry is the one that it has hit there. -/
theorem mem_of_place {route next : Route} {key : Text} (h : table.Run start hits last)
    (hplace : place route ∈ hits.map Prod.fst) (hstep : table.step? route = some (key, next)) :
    (place route, key) ∈ hits := by
  induction h with
  | nil => contradiction
  | @cons other next' last' key' hits hstep' hrun ih =>
      rcases List.mem_cons.mp hplace with hsame | hlater
      · -- only the place decides about the entry
        obtain ⟨_, hother, -⟩ :=
          table.simulates_place route other key next hsame hstep
        have heq := hother.symm.trans (step?_eq_some_iff_replaces.mpr hstep')
        rw [hsame, (Prod.mk.inj (Option.some.inj heq)).1]
        exact List.mem_cons_self
      · exact List.mem_cons_of_mem _ (ih hlater)

/-- A run to an endless one is endless. -/
theorem endless (h : table.Run start hits last) (hlast : table.Endless last) :
    table.Endless start := by
  induction h with
  | nil route => exact hlast
  | cons hstep hrun ih => exact (endless_step (step?_eq_some_iff_replaces.mpr hstep)).mpr (ih hlast)

end Run

/-- A run has gone round: it has hit the last entry at the same place before, and all places before
this one only once. -/
def Circles (table : Reroutes) (start : Route) (hits : List (Place × Text)) : Prop :=
  ∃ before hit round last, hits = before ++ hit :: round ++ [hit] ∧ table.Run start hits last ∧
    ((before ++ hit :: round).map Prod.fst).Nodup

/-- **A run that has gone round is endless.** -/
theorem Circles.endless {table : Reroutes} {start : Route} {hits : List (Place × Text)}
    (h : table.Circles start hits) : table.Endless start := by
  obtain ⟨before, hit, round, last, rfl, hrun, -⟩ := h
  obtain ⟨back, hthere, hagain⟩ := hrun.exists_middle
  obtain ⟨first, hbefore, hround⟩ := hthere.exists_middle
  have hreturn : place back = place first := hagain.place_eq.trans hround.place_eq.symm
  exact hbefore.endless (endless_of_return (Nat.succ_pos _) hround.after_eq hreturn)

/-! ## Following a run -/

/-- A route that following ends with has no further step. -/
theorem after_of_follow_eq_ok {table : Reroutes} {fuel : Nat} {visited : List Place}
    {chain : List Text} {route last : Route}
    (h : table.follow fuel visited chain route = .ok last) :
    ∃ n, table.after n route = some last ∧ table.step? last = none := by
  induction fuel generalizing visited chain route with
  | zero => simp [follow] at h
  | succ fuel ih =>
      rw [follow] at h
      cases hstep : table.step? route with
      | none =>
          rw [hstep] at h
          simp only [Except.ok.injEq] at h
          exact ⟨0, by rw [after, h], h ▸ hstep⟩
      | some hit =>
          obtain ⟨key, next⟩ := hit
          simp only [hstep] at h
          split_ifs at h
          obtain ⟨n, hn, hlast⟩ := ih h
          exact ⟨n + 1, by rw [after_succ hstep, hn], hlast⟩

/-- Some places that steps do not leave. -/
def Closed (table : Reroutes) (places : Finset Place) : Prop :=
  ∀ route key next, place route ∈ places → table.step? route = some (key, next) →
    place next ∈ places

/-- What following a run keeps while some steps are left: no place has come up twice, all of them
are among places that steps do not leave, and there are more steps left than further places. -/
structure Roams (places : Finset Place) (fuel : Nat) (hits : List (Place × Text))
    (route : Route) : Prop where
  /-- There are more steps left than further places. -/
  room : places.card < fuel + hits.length
  /-- No place has come up twice. -/
  nodup : (hits.map Prod.fst).Nodup
  /-- The places are among those that steps do not leave. -/
  inside : ∀ hit ∈ hits, hit.1 ∈ places
  /-- So is the place of the route. -/
  here : place route ∈ places

/-- There always is a step left. -/
theorem Roams.pos {places : Finset Place} {fuel : Nat} {hits : List (Place × Text)} {route : Route}
    (h : Roams places fuel hits route) : fuel ≠ 0 := by
  rintro rfl
  have hsub : (hits.map Prod.fst).toFinset ⊆ places := by
    intro p hp
    obtain ⟨hit, hhit, rfl⟩ := List.mem_map.mp (List.mem_toFinset.mp hp)
    exact h.inside hit hhit
  have hcard := Finset.card_le_card hsub
  rw [List.toFinset_card_of_nodup h.nodup, List.length_map] at hcard
  have hroom := h.room
  omega

/-- A step at a new place keeps this. -/
theorem Roams.step {table : Reroutes} {places : Finset Place} {fuel : Nat}
    {hits : List (Place × Text)} {route next : Route} {key : Text}
    (h : Roams places (fuel + 1) hits route) (hclosed : table.Closed places)
    (hnew : place route ∉ hits.map Prod.fst) (hstep : table.step? route = some (key, next)) :
    Roams places fuel (hits ++ [(place route, key)]) next where
  room := by
    have hroom := h.room
    rw [List.length_append, List.length_singleton]
    omega
  nodup := by
    rw [List.map_append, List.nodup_append]
    refine ⟨h.nodup, List.nodup_singleton _, fun p hp q hq heq => ?_⟩
    rw [List.mem_singleton.mp hq] at heq
    rw [heq] at hp
    exact hnew hp
  inside := by
    intro hit hhit
    rcases List.mem_append.mp hhit with hold | hlast
    · exact h.inside hit hold
    · rw [List.mem_singleton.mp hlast]
      exact h.here
  here := hclosed route key next h.here hstep

/-- Following that fails has come back to a place, provided that it may take more steps than there
are places. -/
theorem circles_of_follow_eq_error {table : Reroutes} {places : Finset Place}
    (hclosed : table.Closed places) {fuel : Nat} {hits : List (Place × Text)} {start route : Route}
    {fault : Fault} (hroams : Roams places fuel hits route) (hrun : table.Run start hits route)
    (h : table.follow fuel (hits.map Prod.fst).reverse (hits.map Prod.snd).reverse route =
      .error fault) :
    ∃ hits', fault = .rerouteCycle (hits'.map Prod.snd) ∧ table.Circles start hits' := by
  induction fuel generalizing hits route with
  | zero => exact absurd rfl hroams.pos
  | succ fuel ih =>
      rw [follow] at h
      cases hstep : table.step? route with
      | none => simp [hstep] at h
      | some hit =>
          obtain ⟨key, next⟩ := hit
          simp only [hstep] at h
          have hmore : table.Run start (hits ++ [(place route, key)]) next :=
            hrun.concat (step?_eq_some_iff_replaces.mp hstep)
          have hkeys : key :: (hits.map Prod.snd).reverse =
              ((hits ++ [(place route, key)]).map Prod.snd).reverse := by
            simp
          have hplaces : place route :: (hits.map Prod.fst).reverse =
              ((hits ++ [(place route, key)]).map Prod.fst).reverse := by
            simp
          rw [hkeys, hplaces] at h
          split_ifs at h with hmem
          · -- the run has come back to this place, where it has hit the same entry before
            have hknown := hrun.mem_of_place (List.mem_reverse.mp hmem) hstep
            obtain ⟨before, round, rfl⟩ := List.append_of_mem hknown
            refine ⟨_, ?_, before, (place route, key), round, next, rfl, hmore, hroams.nodup⟩
            rw [← Except.error.inj h, List.reverse_reverse]
          · exact ih (hroams.step hclosed (fun hold => hmem (List.mem_reverse.mpr hold)) hstep)
              hmore h

/-! ## The places that can come up -/

/-- The places that can come up from a route: its controller or that of a path in the table, with
its module or that of a path in the table. -/
def placesFrom (table : Reroutes) (route : Route) : Finset Place :=
  let targets := table.map fun entry => place (Route.ofPath entry.2)
  (route.controller :: targets.map Prod.fst).toFinset ×ˢ
    (route.module :: targets.map Prod.snd).toFinset

/-- There are fewer such places than the bound of steps. -/
theorem card_placesFrom_lt (table : Reroutes) (route : Route) :
    (table.placesFrom route).card < table.bound := by
  have hcard (first : Option Text) (others : List (Option Text))
      (hlen : others.length = table.length) :
      (first :: others).toFinset.card ≤ table.length + 1 := by
    have := List.toFinset_card_le (first :: others)
    simp only [List.length_cons] at this
    omega
  unfold placesFrom bound
  rw [Finset.card_product]
  calc _ ≤ (table.length + 1) * (table.length + 1) :=
        Nat.mul_le_mul (hcard _ _ (by simp)) (hcard _ _ (by simp))
    _ < (table.length + 2) * (table.length + 2) :=
        Nat.mul_lt_mul_of_lt_of_lt (Nat.lt_succ_self _) (Nat.lt_succ_self _)

/-- The module that a path leaves behind is the one before or that of the path alone. -/
theorem placeOver_module (module : Option Text) (segments : List Text) :
    (Route.placeOver module segments).2 = module ∨
      (Route.placeOver module segments).2 = (Route.placeOver none segments).2 := by
  match segments with
  | [] => exact Or.inl rfl
  | [first] => exact Or.inl rfl
  | first :: second :: others =>
      simp only [Route.placeOver]
      split_ifs <;> simp

/-- The controller that a path leaves behind is its own. -/
theorem placeOver_controller (module : Option Text) (segments : List Text) :
    (Route.placeOver module segments).1 = (Route.placeOver none segments).1 := by
  match segments with
  | [] => rfl
  | [first] => rfl
  | first :: second :: others => rfl

/-- Steps lead only to such places. -/
theorem closed_placesFrom (table : Reroutes) (start : Route) :
    table.Closed (table.placesFrom start) := by
  intro route key next hplace hstep
  obtain ⟨controller, target, -, hfind, rfl⟩ := step?_eq_some_iff.mp hstep
  have htarget : place (Route.ofPath target) ∈
      table.map fun entry => place (Route.ofPath entry.2) :=
    List.mem_map.mpr ⟨(key, target), (mem_of_find? hfind).1, rfl⟩
  have hover : place (Route.ofPath target) = Route.placeOver none (Route.segments target) :=
    Route.place_overlay {} target
  simp only [placesFrom, Finset.mem_product, List.mem_toFinset, List.mem_cons] at hplace ⊢
  rw [Route.place_overlay, placeOver_controller, ← hover]
  refine ⟨Or.inr (List.mem_map_of_mem htarget), ?_⟩
  rcases placeOver_module route.module (Route.segments target) with hmodule | hmodule
  · rw [hmodule]
    exact hplace.2
  · rw [hmodule, ← hover]
    exact Or.inr (List.mem_map_of_mem htarget)

/-! ## The result -/

/-- Re-routing that fails names the entries of a run that has gone round. -/
theorem circles_of_apply_eq_error {table : Reroutes} {route : Route} {fault : Fault}
    (h : table.apply route = .error fault) :
    ∃ hits, fault = .rerouteCycle (hits.map Prod.snd) ∧ table.Circles route hits := by
  have hroams : Roams (table.placesFrom route) table.bound [] route :=
    ⟨by simpa using table.card_placesFrom_lt route, List.nodup_nil, nofun,
      by simp [placesFrom, place]⟩
  exact circles_of_follow_eq_error (table.closed_placesFrom route) hroams (.nil route) h

/-- **Re-routing gives a result exactly if its run is not endless.** -/
theorem exists_apply_eq_ok_iff (table : Reroutes) (route : Route) :
    (∃ last, table.apply route = .ok last) ↔ ¬ table.Endless route := by
  constructor
  · rintro ⟨last, h⟩ hendless
    obtain ⟨n, hn, hlast⟩ := after_of_follow_eq_ok h
    have hnext := hendless (n + 1)
    rw [after_add, hn, Option.bind_some, after, hlast] at hnext
    simp at hnext
  · intro hends
    cases h : table.apply route with
    | ok last => exact ⟨last, rfl⟩
    | error fault =>
        obtain ⟨hits, -, hcircles⟩ := circles_of_apply_eq_error h
        exact absurd hcircles.endless hends

end Reroutes
end PageServer
