/-
# Where re-routing ends

Re-routing gives the route at which the replacements end, whichever table it
goes by. If they never end, it names the entries up to the first one that is
hit again at the same place.

* `Reroutes.Settled`: nothing replaces a route
* `Reroutes.apply_eq_ok_iff`: re-routing gives the settled route that a run leads to
* `Reroutes.apply_normalForm`: what re-routing gives, and when it finds a cycle
-/
import PageServer.Proofs.Routing.Rewriting

namespace PageServer.Reroutes

variable {table : Reroutes} {route last : Route}

/-! ## Routes that nothing replaces -/

/-- Nothing replaces a route: it has no controller, or there is an entry neither for its
controller with its module nor for its controller alone. -/
def Settled (table : Reroutes) (route : Route) : Prop :=
  ∀ controller, route.controller = some controller →
    table.get? controller = none ∧
      ∀ module, route.module = some module → table.get? (controller ++ '/' :: module) = none

/-- Nothing replaces a route exactly if it has no step. -/
theorem settled_iff : table.Settled route ↔ ∀ key next, ¬ table.Replaces route key next := by
  constructor
  · rintro h key next (⟨hcontroller, hmodule, hentry⟩ | ⟨hcontroller, -, hentry⟩)
    · rw [(h _ hcontroller).2 _ hmodule] at hentry
      contradiction
    · rw [(h _ hcontroller).1] at hentry
      contradiction
  · intro h controller hcontroller
    have hboth : ∀ module, route.module = some module →
        table.get? (controller ++ '/' :: module) = none := by
      intro module hmodule
      cases hentry : table.get? (controller ++ '/' :: module) with
      | none => rfl
      | some target => exact absurd (.both hcontroller hmodule hentry) (h _ _)
    refine ⟨?_, hboth⟩
    cases hentry : table.get? controller with
    | none => rfl
    | some target => exact absurd (.alone hcontroller hboth hentry) (h _ _)

/-- The same, for the step that is taken. -/
theorem step?_eq_none_iff : table.step? route = none ↔ table.Settled route := by
  rw [settled_iff, Option.eq_none_iff_forall_ne_some]
  constructor
  · intro h key next hreplaces
    exact h (key, next) (step?_eq_some_iff_replaces.mpr hreplaces)
  · rintro h ⟨key, next⟩ hstep
    exact h key next (step?_eq_some_iff_replaces.mp hstep)

/-- There is no further step from a settled route. -/
theorem Settled.eq_zero {n : Nat} {next : Route} (h : table.Settled route)
    (hafter : table.after n route = some next) : n = 0 := by
  cases n with
  | zero => rfl
  | succ n =>
      rw [after, step?_eq_none_iff.mpr h] at hafter
      contradiction

/-- A run leads to one settled route at most. -/
theorem Settled.eq_of_after {other : Route} {m n : Nat} (h : table.Settled last)
    (hother : table.Settled other) (hm : table.after m route = some last)
    (hn : table.after n route = some other) : last = other := by
  wlog hle : m ≤ n generalizing m n last other
  · exact (this hother h hn hm (Nat.le_of_not_le hle)).symm
  · obtain ⟨k, rfl⟩ := Nat.exists_eq_add_of_le hle
    rw [after_add, hm, Option.bind_some] at hn
    obtain rfl := h.eq_zero hn
    exact Option.some.inj hn

/-! ## What re-routing gives -/

/-- **Re-routing gives the settled route that a run leads to.** -/
theorem apply_eq_ok_iff :
    table.apply route = .ok last ↔ (∃ hits, table.Run route hits last) ∧ table.Settled last := by
  constructor
  · intro h
    obtain ⟨n, hn, hlast⟩ := after_of_follow_eq_ok h
    obtain ⟨hits, -, hrun⟩ := Run.exists_of_after hn
    exact ⟨⟨hits, hrun⟩, step?_eq_none_iff.mp hlast⟩
  · rintro ⟨⟨hits, hrun⟩, hsettled⟩
    have hends : ¬ table.Endless route := by
      intro hendless
      obtain ⟨next, hnext⟩ := Option.isSome_iff_exists.mp (hendless (hits.length + 1))
      rw [after_add, hrun.after_eq, Option.bind_some] at hnext
      exact absurd (hsettled.eq_zero hnext) Nat.one_ne_zero
    obtain ⟨found, hfound⟩ := (exists_apply_eq_ok_iff table route).mpr hends
    obtain ⟨n, hn, hstep⟩ := after_of_follow_eq_ok hfound
    rw [hfound, hsettled.eq_of_after (step?_eq_none_iff.mp hstep) hrun.after_eq hn]

/-- Re-routing by no entries leaves each route as it is. -/
theorem apply_nil (route : Route) : apply [] route = .ok route :=
  apply_eq_ok_iff.mpr ⟨⟨[], .nil route⟩, fun _ _ => ⟨rfl, fun _ _ => rfl⟩⟩

/-- A run is endless exactly if it has a part of every length. -/
theorem endless_iff :
    table.Endless route ↔ ∀ n, ∃ hits last, hits.length = n ∧ table.Run route hits last := by
  constructor
  · intro h n
    obtain ⟨last, hlast⟩ := Option.isSome_iff_exists.mp (h n)
    obtain ⟨hits, hlength, hrun⟩ := Run.exists_of_after hlast
    exact ⟨hits, last, hlength, hrun⟩
  · intro h n
    obtain ⟨hits, last, rfl, hrun⟩ := h n
    exact Option.isSome_of_mem hrun.after_eq

/-- **Re-routing gives the normal form of a route, or names a genuine cycle.** For every table and
every route:

* it gives a route exactly if finitely many replacements lead to one without a controller or
  without an entry that applies, and gives this one;
* it fails exactly if the replacements never end;
* if it fails, it names the keys of the entries in the order in which they are hit, up to one that
  is hit again at the same place; this one stands among the others before, and no other place has
  come up twice;
* the route that it gives is replaced by itself. -/
theorem apply_normalForm (table : Reroutes) (route : Route) :
    (∀ last, table.apply route = .ok last ↔
      (∃ hits, table.Run route hits last) ∧ table.Settled last) ∧
    ((∃ fault, table.apply route = .error fault) ↔
      ∀ n, ∃ hits last, hits.length = n ∧ table.Run route hits last) ∧
    (∀ fault, table.apply route = .error fault →
      ∃ before place key round last,
        fault = .rerouteCycle (before.map Prod.snd ++ key :: round.map Prod.snd ++ [key]) ∧
        table.Run route (before ++ (place, key) :: round ++ [(place, key)]) last ∧
        ((before ++ (place, key) :: round).map Prod.fst).Nodup) ∧
    ∀ last, table.apply route = .ok last → table.apply last = .ok last := by
  refine ⟨fun last => apply_eq_ok_iff, ?_, ?_, ?_⟩
  · rw [← endless_iff]
    constructor
    · rintro ⟨fault, hfault⟩
      obtain ⟨hits, -, hcircles⟩ := circles_of_apply_eq_error hfault
      exact hcircles.endless
    · intro hendless
      cases h : table.apply route with
      | error fault => exact ⟨fault, rfl⟩
      | ok last => exact absurd hendless ((exists_apply_eq_ok_iff table route).mp ⟨last, h⟩)
  · intro fault hfault
    obtain ⟨hits, hnames, before, ⟨place, key⟩, round, last, rfl, hrun, hnodup⟩ :=
      circles_of_apply_eq_error hfault
    refine ⟨before, place, key, round, last, ?_, hrun, hnodup⟩
    rw [hnames]
    simp
  · intro last h
    exact apply_eq_ok_iff.mpr ⟨⟨[], .nil last⟩, (apply_eq_ok_iff.mp h).2⟩

/-- A key may be hit again at another place; only the same place is a cycle. -/
example :
    apply [("a", "b"), ("b/m", "a/n")] (.ofPath "a/m") = .ok (.ofPath "b/n") ∧
      apply [("a/m", "b"), ("b", "a")] (.ofPath "a/m") =
        .error (.rerouteCycle ["a/m", "b", "a/m"]) := by
  decide +kernel

end PageServer.Reroutes
