/-
# Registering controllers

A registration checks every name before it writes to the registry, so one that
fails leaves no trace. The names that pass are those that a path can spell:
whatever is registered is reached by the path of its name, and no path leads to
anything else.

* `Registry.register_eq_ok_iff`: when a registration succeeds, and what it adds
* `Registration.run_enter`: a registration in place writes only when it succeeds
* `Registry.Records`: a registry holds just what was registered
* `Registry.Records.reaches`: what is registered is reached
* `Registration.registered_of_run`: all of it, over any run of registrations
-/
import PageServer.Proofs.Action
import PageServer.Proofs.Number.Shape
import PageServer.Proofs.Routing.Paths
import PageServer.Site.Basic

namespace PageServer

/-! ## Paths of names -/

namespace Route

/-- A path may go on behind the controller and the module. -/
theorem segments_pathTo_append {controller module : Text} (hc : IsSegment controller)
    (hm : IsSegment module) (rest : Text) :
    ∃ others, segments (pathTo controller (some module) ++ '/' :: rest) =
      controller :: module :: others := by
  have hparts : AreSegments (controller :: (some module).toList) :=
    areSegments_of_forall (isSegment_pathTo hc (by simpa using hm))
  have hfirst : (pathTo controller (some module) ++ '/' :: rest).dropWhile (· = '/') =
      pathTo controller (some module) ++ '/' :: rest := by
    cases hpath : pathTo controller (some module) with
    | nil => exact absurd (List.append_eq_nil_iff.mp hpath).1 hc.1
    | cons c path =>
        have hhead := head?_join_ne hparts
        rw [← pathTo_eq, hpath, List.head?_cons] at hhead
        rw [List.cons_append, List.dropWhile_cons_of_neg]
        simpa using hhead
  have hlast : ∀ c ∈ (pathTo controller (some module)).getLast?, ¬ decide (c = '/') = true := by
    intro c hc' heq
    obtain rfl := of_decide_eq_true heq
    rw [pathTo_eq] at hc'
    exact getLast?_join_ne hparts hc'
  rw [segments, Text.trimBy, hfirst, Text.dropEndWhile_append hlast, Text.dropEndWhile]
  -- slashes at the end are dropped, also the one behind the module
  cases Text.dropEndWhile (· = '/') rest with
  | nil =>
      refine ⟨[], ?_⟩
      rw [if_pos (by decide), List.append_nil, pathTo, Option.map_some, Option.getD_some,
        Text.splitOn_cons_of_not_mem hc.2, Text.splitOn_of_not_mem hm.2]
  | cons c kept =>
      refine ⟨Text.splitOn '/' (c :: kept), ?_⟩
      rw [pathTo, Option.map_some, Option.getD_some, List.append_assoc, List.cons_append,
        Text.splitOn_cons_of_not_mem hc.2, Text.splitOn_cons_of_not_mem hm.2]

/-- The place of such a path is still the controller and the module. -/
theorem place_ofPath_pathTo_append {controller module : Text} (hc : IsSegment controller)
    (hm : IsSegment module) (hnumber : number? module = none) (rest : Text) :
    Reroutes.place (ofPath (pathTo controller (some module) ++ '/' :: rest)) =
      (some controller, some module) := by
  have hname {t : Text} (ht : IsSegment t) : named? t = some t :=
    named?_eq_some_iff.mpr ⟨ht.1, rfl⟩
  obtain ⟨others, hsegments⟩ := segments_pathTo_append hc hm rest
  rw [ofPath, place_overlay, hsegments]
  simp [placeOver, hname hc, hname hm, hnumber]

end Route

/-! ## What is checked -/

namespace Registry

variable {α : Type}

/-- A name that a path can spell: a segment that is no number, without the mark that ends a
path. -/
structure IsName (name : Text) : Prop where
  /-- It is one segment of a path. -/
  segment : Route.IsSegment name
  /-- It has no question mark. -/
  mark : '?' ∉ name
  /-- It does not consist of digits. -/
  word : name.all Number.isDigit = false

/-- A name is not taken for the number of an id. -/
theorem IsName.number?_eq_none {name : Text} (h : IsName name) : Route.number? name = none := by
  unfold Route.number?
  cases hread : Number.readNat? name with
  | none => rfl
  | some n =>
      have hdigits : name.all Number.isDigit = true :=
        List.all_eq_true.mpr (Number.isDigit_of_readNat? hread).2
      rw [h.word] at hdigits
      contradiction

/-- Just the names that a path can spell pass the check. -/
theorem checkName_eq_ok_iff {kind name : Text} : checkName kind name = .ok () ↔ IsName name := by
  unfold checkName
  constructor
  · intro h
    split_ifs at h with hempty hseparator hdigits
    obtain ⟨hslash, hmark⟩ := not_or.mp hseparator
    exact ⟨⟨by simpa using hempty, hslash⟩, hmark, by simpa using hdigits⟩
  · rintro ⟨⟨hne, hslash⟩, hmark, hword⟩
    rw [if_neg (by simpa using hne), if_neg (not_or.mpr ⟨hslash, hmark⟩), if_neg (by simp [hword])]

/-- Some modules in order, after those that are known. -/
def sortedAfter (known modules : List Text) : List Text :=
  modules.foldl (fun known module => Text.insertSorted module known) known

/-- Modules pass the check if they are names, each comes once, and none is known. -/
theorem checkModules_eq_ok_iff {controller : Text} {known modules sorted : List Text} :
    checkModules controller known modules = .ok sorted ↔
      (∀ module ∈ modules, IsName module ∧ module ∉ known) ∧ modules.Nodup ∧
        sorted = sortedAfter known modules := by
  induction modules generalizing known with
  | nil =>
      simp only [checkModules, Except.ok.injEq, List.not_mem_nil, false_implies, implies_true,
        List.nodup_nil, true_and, sortedAfter, List.foldl_nil]
      exact eq_comm
  | cons module rest ih =>
      rw [checkModules]
      cases hcheck : checkName "module" module with
      | error fault =>
          have hnot : ¬ IsName module := by
            intro hname
            have hpass : checkName "module" module = .ok () := checkName_eq_ok_iff.mpr hname
            rw [hcheck] at hpass
            contradiction
          constructor
          · intro h
            contradiction
          · rintro ⟨hall, -⟩
            exact absurd (hall module List.mem_cons_self).1 hnot
      | ok passed =>
          have hname : IsName module := checkName_eq_ok_iff.mp hcheck
          show (if module ∈ known then Except.error _ else _) = _ ↔ _
          split_ifs with hknown
          · constructor
            · intro h
              contradiction
            · rintro ⟨hall, -⟩
              exact absurd hknown (hall module List.mem_cons_self).2
          · rw [ih]
            simp only [List.forall_mem_cons, List.nodup_cons, Text.mem_insertSorted, not_or]
            constructor
            · rintro ⟨hall, hnodup, hsorted⟩
              have hfresh : module ∉ rest := fun hmem => (hall module hmem).2.1 rfl
              refine ⟨⟨⟨hname, hknown⟩, fun other hmem => ?_⟩, ⟨hfresh, hnodup⟩, hsorted⟩
              exact ⟨(hall other hmem).1, (hall other hmem).2.2⟩
            · rintro ⟨⟨-, hall⟩, ⟨hfresh, hnodup⟩, hsorted⟩
              refine ⟨fun other hmem => ?_, hnodup, hsorted⟩
              have hother : other ≠ module := by
                rintro rfl
                exact hfresh hmem
              exact ⟨(hall other hmem).1, hother, (hall other hmem).2⟩

/-- **When a registration succeeds, and what it adds.** -/
theorem register_eq_ok_iff {registry after : Registry α} {name : Text} {modules : List Text}
    {controller : α} :
    registry.register name modules controller = .ok after ↔
      IsName name ∧ registry.get? name = none ∧ (∀ module ∈ modules, IsName module) ∧
        modules.Nodup ∧
        after = registry.insert name { modules := sortedAfter [] modules, controller } := by
  unfold register
  cases hcheck : checkName "controller" name with
  | error fault =>
      have hnot : ¬ IsName name := by
        intro hname
        have hpass : checkName "controller" name = .ok () := checkName_eq_ok_iff.mpr hname
        rw [hcheck] at hpass
        contradiction
      constructor
      · intro h
        contradiction
      · rintro ⟨hname, -⟩
        exact absurd hname hnot
  | ok passed =>
      have hname : IsName name := checkName_eq_ok_iff.mp hcheck
      show (if registry.holds name then Except.error _ else _) = _ ↔ _
      rw [Table.holds]
      cases hfound : registry.get? name with
      | some registered => simp
      | none =>
          rw [if_neg (by simp)]
          cases hmodules : checkModules name [] modules with
          | error fault =>
              constructor
              · intro h
                contradiction
              · rintro ⟨-, -, hnames, hnodup, -⟩
                have hok : checkModules name [] modules = .ok (sortedAfter [] modules) :=
                  checkModules_eq_ok_iff.mpr
                    ⟨fun module hmem => ⟨hnames module hmem, List.not_mem_nil⟩, hnodup, rfl⟩
                rw [hmodules] at hok
                contradiction
          | ok sorted =>
              obtain ⟨hnames, hnodup, rfl⟩ := checkModules_eq_ok_iff.mp hmodules
              constructor
              · intro h
                exact ⟨hname, rfl, fun module hmem => (hnames module hmem).1, hnodup,
                  (Except.ok.inj h).symm⟩
              · rintro ⟨-, -, -, -, rfl⟩
                rfl

end Registry

/-! ## Registering in place -/

/-- What a registry is asked for: a controller under a name, with modules that it may be asked
for. -/
structure Registration (α : Type) where
  /-- The name of the controller. -/
  name : Text
  /-- The modules. -/
  modules : List Text
  /-- What answers the requests. -/
  controller : α

namespace Registration

variable {α : Type}

/-- What is registered when a registration succeeds. -/
def record (registration : Registration α) : Registered α :=
  { modules := Registry.sortedAfter [] registration.modules
    controller := registration.controller }

/-- The modules that are registered are those that were asked for. -/
theorem mem_record {registration : Registration α} {module : Text} :
    module ∈ registration.record.modules ↔ module ∈ registration.modules := by
  rw [record, Registry.sortedAfter, Text.mem_sorted]
  simp

/-- Registers a controller in a registry that is changed in place. The names are checked one after
another, and the last step alone writes. -/
def enter (registration : Registration α) : Action (Registry α) Unit := do
  Action.ofExcept (Registry.checkName "controller" registration.name)
  let registry ← get
  if registry.holds registration.name then
    throw (.invalidRegistration
      ("controller \x27" ++ registration.name ++ "\x27 registered twice"))
  else
    let modules ←
      Action.ofExcept (Registry.checkModules registration.name [] registration.modules)
    modify fun registry =>
      registry.insert registration.name { modules, controller := registration.controller }

/-- **A registration in place writes only when it succeeds.** -/
theorem run_enter (registration : Registration α) (registry : Registry α) :
    Action.run registration.enter registry =
      match registry.register registration.name registration.modules registration.controller with
      | .ok after => (.ok (), after)
      | .error fault => (.error fault, registry) := by
  unfold enter Registry.register
  rw [Action.run_bind, Action.run_ofExcept]
  cases Registry.checkName "controller" registration.name with
  | error fault => rfl
  | ok passed =>
      dsimp only
      rw [Action.run_bind_of_ok (Action.run_get registry)]
      show Action.run (if registry.holds registration.name then _ else _) registry =
        match (if registry.holds registration.name then _ else _ : Except Fault (Registry α)) with
        | .ok after => _
        | .error fault => _
      split_ifs
      · rfl
      · rw [Action.run_bind, Action.run_ofExcept]
        cases Registry.checkModules registration.name [] registration.modules <;> rfl

/-- A registration that fails leaves the registry. -/
theorem eq_of_run_enter_error {registration : Registration α} {registry after : Registry α}
    {fault : Fault} (h : Action.run registration.enter registry = (.error fault, after)) :
    after = registry := by
  rw [run_enter] at h
  split at h
  · simp at h
  · exact (Prod.mk.inj h).2.symm

/-- A registration that succeeds adds what was asked for. -/
theorem run_enter_eq_ok_iff {registration : Registration α} {registry after : Registry α} :
    Action.run registration.enter registry = (.ok (), after) ↔
      registry.register registration.name registration.modules registration.controller =
        .ok after := by
  rw [run_enter]
  cases registry.register registration.name registration.modules registration.controller <;> simp

/-- Registers controllers one after another; where that fails, the next one follows. -/
def enterAll (registrations : List (Registration α)) (registry : Registry α) : Registry α :=
  registrations.foldl (fun registry registration => (Action.run registration.enter registry).2)
    registry

/-- The registrations that succeed when they are made one after another. -/
def successes : List (Registration α) → Registry α → List (Registration α)
  | [], _ => []
  | registration :: rest, registry =>
    match Action.run registration.enter registry with
    | (.ok _, after) => registration :: successes rest after
    | (.error _, after) => successes rest after

end Registration

/-! ## What a registry holds -/

namespace Registry

variable {α : Type}

/-- A registry holds what some registrations asked for, and nothing else. -/
structure Records (registry : Registry α) (done : List (Registration α)) : Prop where
  /-- A path can spell the names. -/
  names : ∀ registration ∈ done,
    IsName registration.name ∧ ∀ module ∈ registration.modules, IsName module
  /-- What has a name is what was asked for under this name. -/
  get?_iff : ∀ name registered, registry.get? name = some registered ↔
    ∃ registration ∈ done, registration.name = name ∧ registration.record = registered

/-- A registry that is empty holds nothing. -/
theorem records_nil : Records ([] : Registry α) [] :=
  ⟨nofun, fun name registered => by simp [Table.get?]⟩

namespace Records

variable {registry after : Registry α} {done : List (Registration α)}
  {registration : Registration α}

/-- **A registration that succeeds is held besides those before it.** -/
theorem enter (h : registry.Records done)
    (hrun : Action.run registration.enter registry = (.ok (), after)) :
    after.Records (done ++ [registration]) := by
  obtain ⟨hname, hfree, hmodules, -, rfl⟩ :=
    register_eq_ok_iff.mp (Registration.run_enter_eq_ok_iff.mp hrun)
  refine ⟨?_, fun name registered => ?_⟩
  · intro other hother
    rcases List.mem_append.mp hother with hold | hnew
    · exact h.names other hold
    · obtain rfl := List.mem_singleton.mp hnew
      exact ⟨hname, hmodules⟩
  · by_cases hsame : name = registration.name
    · -- the name was free, so no earlier registration has it
      subst hsame
      have hold : ∀ other ∈ done, other.name ≠ registration.name := by
        intro other hother heq
        have hthere := (h.get?_iff registration.name other.record).mpr ⟨other, hother, heq, rfl⟩
        rw [hfree] at hthere
        contradiction
      rw [Table.get?_insert_self, Option.some.injEq]
      constructor
      · rintro rfl
        exact ⟨registration, List.mem_append_right _ (List.mem_singleton.mpr rfl), rfl, rfl⟩
      · rintro ⟨other, hother, hequal, rfl⟩
        rcases List.mem_append.mp hother with hmem | hnew
        · exact absurd hequal (hold other hmem)
        · obtain rfl := List.mem_singleton.mp hnew
          rfl
    · rw [Table.get?_insert_of_ne hsame, h.get?_iff]
      constructor
      · rintro ⟨other, hother, hequal⟩
        exact ⟨other, List.mem_append_left _ hother, hequal⟩
      · rintro ⟨other, hother, hequal, hrecord⟩
        rcases List.mem_append.mp hother with hmem | hnew
        · exact ⟨other, hmem, hequal, hrecord⟩
        · obtain rfl := List.mem_singleton.mp hnew
          exact absurd hequal.symm hsame

/-- **After any registrations a registry holds those that succeeded.** -/
theorem enterAll (h : registry.Records done) (registrations : List (Registration α)) :
    (Registration.enterAll registrations registry).Records
      (done ++ Registration.successes registrations registry) := by
  induction registrations generalizing registry done with
  | nil => rwa [Registration.successes, List.append_nil]
  | cons registration rest ih =>
      rw [Registration.enterAll, List.foldl_cons, Registration.successes]
      rcases hrun : Action.run registration.enter registry with ⟨fault | passed, after⟩
      · obtain rfl := Registration.eq_of_run_enter_error hrun
        exact ih h
      · have hmore := ih (h.enter hrun)
        rwa [List.append_assoc, List.singleton_append] at hmore

end Records

/-! ## Paths to what is registered -/

/-- A path leads to a controller of a registry and maybe to one of its modules. -/
structure Reaches (registry : Registry α) (path name : Text) (module : Option Text)
    (registered : Registered α) : Prop where
  /-- It names the controller. -/
  controller : (Route.ofPath path).controller = some name
  /-- It names the module. -/
  module : (Route.ofPath path).module = module
  /-- It is accepted. -/
  valid : (registry.validate (Route.ofPath path)).valid = true
  /-- It is answered by the controller. -/
  answered : registry.controllerOf (registry.validate (Route.ofPath path)) =
    .ok registered.controller

/-- A path is accepted if its place is registered. -/
theorem reaches_of_place {registry : Registry α} {path name : Text} {module : Option Text}
    {registered : Registered α} (hplace : Reroutes.place (Route.ofPath path) = (some name, module))
    (hfound : registry.get? name = some registered)
    (hmodule : ∀ m ∈ module, m ∈ registered.modules) :
    registry.Reaches path name module registered := by
  obtain ⟨hcontroller, hmodules⟩ := Prod.mk.inj hplace
  have hvalid : registry.accepts (Route.ofPath path) = true := by
    unfold accepts
    rw [hcontroller, Option.bind_some, hfound, hmodules]
    cases module with
    | none => rfl
    | some m => exact decide_eq_true (hmodule m rfl)
  refine ⟨hcontroller, hmodules, hvalid, ?_⟩
  unfold controllerOf validate
  simp only [hcontroller, Option.getD_some, hfound, hvalid, if_true]

namespace Records

variable {registry : Registry α} {done : List (Registration α)}

/-- **What is registered is reached**: a controller by its name, and each of its modules by both
names, whatever follows them. -/
theorem reaches (h : registry.Records done) {name : Text} {registered : Registered α}
    (hfound : registry.get? name = some registered) :
    registry.Reaches name name none registered ∧
      ∀ module ∈ registered.modules,
        registry.Reaches (name ++ '/' :: module) name (some module) registered ∧
        ∀ rest, registry.Reaches (name ++ '/' :: module ++ '/' :: rest) name (some module)
          registered := by
  obtain ⟨registration, hmem, rfl, rfl⟩ := (h.get?_iff name registered).mp hfound
  obtain ⟨hname, hmodules⟩ := h.names registration hmem
  refine ⟨?_, fun module hmodule => ?_⟩
  · have hplace := Route.place_ofPath_pathTo registration.name none hname.segment (by simp)
    rw [Route.pathTo, Option.map_none, Option.getD_none, List.append_nil] at hplace
    exact reaches_of_place hplace hfound (by simp)
  · have hword := hmodules module (Registration.mem_record.mp hmodule)
    have hallowed : ∀ m ∈ some module, m ∈ registration.record.modules := by
      rintro _ ⟨⟩
      exact hmodule
    refine ⟨?_, fun rest => ?_⟩
    · refine reaches_of_place (Route.place_ofPath_pathTo registration.name (some module)
        hname.segment ?_) hfound hallowed
      rintro _ ⟨⟩
      exact ⟨hword.segment, hword.number?_eq_none⟩
    · exact reaches_of_place (Route.place_ofPath_pathTo_append hname.segment hword.segment
        hword.number?_eq_none rest) hfound hallowed

/-- **Nothing else is accepted**: a route that is has the name of a registered controller, and no
module or one that was asked for with it. -/
theorem exists_of_accepts (h : registry.Records done) {route : Route}
    (haccepts : registry.accepts route = true) :
    ∃ registration ∈ done, route.controller = some registration.name ∧
      ∀ module ∈ route.module, module ∈ registration.modules := by
  unfold accepts at haccepts
  cases hcontroller : route.controller with
  | none =>
      rw [hcontroller] at haccepts
      contradiction
  | some name =>
      rw [hcontroller, Option.bind_some] at haccepts
      cases hfound : registry.get? name with
      | none =>
          rw [hfound] at haccepts
          contradiction
      | some registered =>
          obtain ⟨registration, hmem, rfl, rfl⟩ := (h.get?_iff name registered).mp hfound
          refine ⟨registration, hmem, rfl, fun module hmodule => ?_⟩
          rw [hfound, Option.mem_def.mp hmodule] at haccepts
          exact Registration.mem_record.mp (of_decide_eq_true haccepts)

end Records
end Registry

/-! ## Runs of registrations -/

/-- The registrations of the controllers that every site has. -/
def Site.builtinRegistrations : List (Registration Controller) :=
  [
    { name := Route.indexController, modules := [], controller := Controller.index },
    { name := "auth", modules := Auth.handlers.map Prod.fst, controller := Auth.controller }
  ]

/-- The controllers that every site has are what is there after these registrations. -/
theorem Site.builtin_eq :
    Site.builtin = .ok (Registration.enterAll Site.builtinRegistrations []) := rfl

/-- They all succeed. -/
theorem Site.successes_builtinRegistrations :
    Registration.successes Site.builtinRegistrations [] = Site.builtinRegistrations := rfl

namespace Registration

/-- **Registration is all or nothing, and what is registered is reached.** Registrations are made
one after another, on a registry that is empty or holds what every site has.

* One that fails leaves the registry as it was after those before it.
* Afterwards the registry holds what was asked for by those that succeeded, and nothing else.
* Each controller that it holds is reached by its name, and each of its modules by both names,
  whatever follows these in the path.
* Every path that is accepted has a controller and a module, if any, that were registered by one
  that succeeded. -/
theorem registered_of_run {start : Registry Controller} {given : List (Registration Controller)}
    (hstart : (start = [] ∧ given = []) ∨
      (Site.builtin = .ok start ∧ given = Site.builtinRegistrations))
    (registrations : List (Registration Controller)) :
    (∀ before (registration : Registration Controller) fault after,
      Action.run registration.enter (enterAll before start) = (.error fault, after) →
        after = enterAll before start) ∧
    (∀ name registered, (enterAll registrations start).get? name = some registered ↔
      ∃ registration ∈ given ++ successes registrations start,
        registration.name = name ∧ registration.record = registered) ∧
    (∀ name registered, (enterAll registrations start).get? name = some registered →
      (enterAll registrations start).Reaches name name none registered ∧
        ∀ module ∈ registered.modules,
          (enterAll registrations start).Reaches (name ++ '/' :: module) name (some module)
            registered ∧
          ∀ ids, (enterAll registrations start).Reaches (name ++ '/' :: module ++ '/' :: ids) name
            (some module) registered) ∧
    (∀ path, ((enterAll registrations start).validate (Route.ofPath path)).valid = true →
      ∃ registration ∈ given ++ successes registrations start,
        (Route.ofPath path).controller = some registration.name ∧
          ∀ module ∈ (Route.ofPath path).module, module ∈ registration.modules) := by
  have hbegin : start.Records given := by
    rcases hstart with ⟨rfl, rfl⟩ | ⟨hbuiltin, rfl⟩
    · exact Registry.records_nil
    · rw [Site.builtin_eq] at hbuiltin
      obtain rfl := Except.ok.inj hbuiltin
      have hrecords :=
        (Registry.records_nil (α := Controller)).enterAll Site.builtinRegistrations
      rwa [Site.successes_builtinRegistrations, List.nil_append] at hrecords
  have hrecords := hbegin.enterAll registrations
  exact ⟨fun before registration fault after hrun => eq_of_run_enter_error hrun,
    hrecords.get?_iff, fun name registered hfound => hrecords.reaches hfound,
    fun path hvalid => hrecords.exists_of_accepts hvalid⟩

/-- A controller with two modules, one that has the name of another one, and one with a module
that is a number. -/
def sampleRegistrations : List (Registration Controller) :=
  [
    { name := "users", modules := ["list", "edit"], controller := Controller.index },
    { name := "auth", modules := ["check"], controller := Controller.index },
    { name := "posts", modules := ["all", "12"], controller := Controller.index }
  ]

/-- Only the first one succeeds on what every site has; its modules are reached, and no path leads
to a module of the last one. -/
theorem registered_of_run_sample :
    (∃ registration ∈ Site.builtinRegistrations ++
        successes sampleRegistrations (enterAll Site.builtinRegistrations []),
      registration.name = ("users" : Text)) ∧
    enterAll sampleRegistrations (enterAll Site.builtinRegistrations []) =
      enterAll (sampleRegistrations.take 2) (enterAll Site.builtinRegistrations []) ∧
    (enterAll sampleRegistrations (enterAll Site.builtinRegistrations [])).Reaches
      "users/edit/7/8" "users" (some "edit")
      { modules := ["edit", "list"], controller := Controller.index } ∧
    ((enterAll sampleRegistrations (enterAll Site.builtinRegistrations [])).validate
      (Route.ofPath "posts/all")).valid = false := by
  obtain ⟨hfailed, hregistered, hreached, -⟩ :=
    registered_of_run (Or.inr ⟨Site.builtin_eq, rfl⟩) sampleRegistrations
  have husers : (enterAll sampleRegistrations (enterAll Site.builtinRegistrations [])).get?
      "users" = some { modules := ["edit", "list"], controller := Controller.index } := by rfl
  refine ⟨?_, ?_, ?_, ?_⟩
  · obtain ⟨registration, hmem, hname, -⟩ := (hregistered "users" _).mp husers
    exact ⟨registration, hmem, hname⟩
  · exact hfailed (sampleRegistrations.take 2) sampleRegistrations[2] _ _ rfl
  · exact ((hreached "users" _ husers).2 "edit" (by decide)).2 "7/8"
  · rfl

end Registration
end PageServer
