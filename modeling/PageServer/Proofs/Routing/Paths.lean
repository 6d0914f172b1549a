/-
# Places and paths

A route names its place, the controller and the module, by segments of a path.
Every place that a path can lead to is also that of a path with nothing else in
it, and what is put over a route decides its place from the place before.

* `Route.IsPlain`: the names that a path can give to a route
* `Route.isPlain_ofPath`: every path gives such names
* `Route.segments_join`: the segments of a path that is made of them
* `Route.segments_cases`: the segments of every path
* `Route.exists_path_of_isPlain`: such names are given by a path
-/
import PageServer.Proofs.Text.Cutting
import PageServer.Routing.Reroutes

namespace PageServer

namespace Route

/-! ## Plain names -/

/-- A text that is one segment of a path. -/
def IsSegment (t : Text) : Prop := t ≠ [] ∧ '/' ∉ t

/-- A controller and a module as a path can give them: segments, the module being no number. -/
structure IsPlain (route : Route) : Prop where
  /-- The controller is a segment. -/
  controller : ∀ c ∈ route.controller, IsSegment c
  /-- The module is a segment that is not taken for a number. -/
  module : ∀ m ∈ route.module, IsSegment m ∧ number? m = none

/-- What `named?` gives is the text itself, which is not empty. -/
theorem named?_eq_some_iff {t name : Text} : named? t = some name ↔ t ≠ [] ∧ t = name := by
  unfold named?
  cases t with
  | nil => simp
  | cons c rest => simp

/-- A name taken from a segment of a path is a segment. -/
theorem isSegment_of_named? (path : Text) {t name : Text} (ht : t ∈ segments path)
    (h : named? t = some name) : IsSegment name := by
  obtain ⟨hne, rfl⟩ := named?_eq_some_iff.mp h
  exact ⟨hne, Text.not_mem_of_mem_splitOn ht⟩

/-! ## The place after an overlay -/

/-- The place that is left behind by segments put over a route with some module. -/
def placeOver (module : Option Text) : List Text → Reroutes.Place
  | [] => (none, module)
  | [first] => (named? first, module)
  | first :: second :: _ =>
    (named? first, if (number? second).isSome then module else named? second)

/-- A path has at least one segment. -/
theorem segments_ne_nil (path : Text) : segments path ≠ [] :=
  Text.splitOn_ne_nil '/' _

/-- The place after an overlay is read off the segments and the module before. -/
theorem place_overlay (route : Route) (path : Text) :
    Reroutes.place (route.overlay path) = placeOver route.module (segments path) := by
  unfold overlay
  match h : segments path with
  | [] => exact absurd h (segments_ne_nil path)
  | [first] => rfl
  | first :: second :: others =>
      cases hn : number? second <;>
        simp [overlaySegments, placeOver, Reroutes.place, hn]

/-- An overlay gives plain names to a route that had plain names. -/
theorem isPlain_overlay {route : Route} (h : route.IsPlain) (path : Text) :
    (route.overlay path).IsPlain := by
  have hplace := place_overlay route path
  simp only [Reroutes.place, Prod.ext_iff] at hplace
  obtain ⟨hcontroller, hmodule⟩ := hplace
  match hs : segments path with
  | [] => exact absurd hs (segments_ne_nil path)
  | [first] =>
      rw [hs] at hcontroller hmodule
      refine ⟨?_, ?_⟩
      · intro c hc
        rw [hcontroller] at hc
        exact isSegment_of_named? path (by simp [hs]) hc
      · rw [hmodule]
        exact h.module
  | first :: second :: others =>
      rw [hs] at hcontroller hmodule
      refine ⟨?_, ?_⟩
      · intro c hc
        rw [hcontroller] at hc
        exact isSegment_of_named? path (by simp [hs]) hc
      · intro m hm
        rw [hmodule] at hm
        simp only [placeOver] at hm
        split at hm
        · exact h.module m hm
        · rename_i hnumber
          obtain ⟨-, rfl⟩ := named?_eq_some_iff.mp hm
          refine ⟨isSegment_of_named? path (by simp [hs]) hm, ?_⟩
          simpa using hnumber

/-- A path gives plain names. -/
theorem isPlain_ofPath (path : Text) : (ofPath path).IsPlain :=
  isPlain_overlay ⟨by simp, by simp⟩ path

/-! ## Paths of segments -/

/-- Segments as a path has them: none holds a slash, and the first and the last are not empty. -/
structure AreSegments (parts : List Text) : Prop where
  /-- None holds a slash. -/
  slash : ∀ part ∈ parts, '/' ∉ part
  /-- The first one is not empty. -/
  first : ∀ part ∈ parts.head?, part ≠ []
  /-- The last one is not empty. -/
  last : ∀ part ∈ parts.getLast?, part ≠ []

/-- Texts that are one segment each are such segments. -/
theorem areSegments_of_forall {parts : List Text} (h : ∀ part ∈ parts, IsSegment part) :
    AreSegments parts where
  slash part hpart := (h part hpart).2
  first part hpart := (h part (List.mem_of_head? hpart)).1
  last part hpart := (h part (List.mem_of_getLast? hpart)).1

/-- A path of segments does not begin with a slash. -/
theorem head?_join_ne {parts : List Text} (h : AreSegments parts) :
    (Text.join ['/'] parts).head? ≠ some '/' := by
  cases parts with
  | nil => simp [Text.join]
  | cons first others =>
      rw [Text.head?_join (h.first first rfl)]
      intro hfirst
      exact h.slash first List.mem_cons_self (List.mem_of_head? hfirst)

/-- Nor does it end with one. -/
theorem getLast?_join_ne {parts : List Text} (h : AreSegments parts) :
    (Text.join ['/'] parts).getLast? ≠ some '/' := by
  rcases List.eq_nil_or_concat' parts with rfl | ⟨others, last, rfl⟩
  · simp [Text.join]
  · rw [Text.getLast?_join (h.last last List.getLast?_concat)]
    intro hlast
    exact h.slash last (by simp) (List.mem_of_getLast? hlast)

/-- **The segments of a path of segments are these.** -/
theorem segments_join {parts : List Text} (hne : parts ≠ []) (h : AreSegments parts) :
    segments (Text.join ['/'] parts) = parts := by
  have htrim : Text.trimBy (· = '/') (Text.join ['/'] parts) = Text.join ['/'] parts := by
    apply Text.trimBy_eq_self
    · intro c hfirst
      rw [decide_eq_true_eq]
      rintro rfl
      exact head?_join_ne h hfirst
    · intro c hlast
      rw [decide_eq_true_eq]
      rintro rfl
      exact getLast?_join_ne h hlast
  rw [segments, htrim, Text.splitOn_join h.slash hne]

/-- Every path has such segments, unless it has nothing but slashes. -/
theorem segments_cases (path : Text) : segments path = [[]] ∨ AreSegments (segments path) := by
  have hjoin : Text.join ['/'] (segments path) = Text.trimBy (· = '/') path :=
    Text.join_splitOn '/' _
  obtain ⟨hfirst, hlast⟩ := Text.of_trimBy_eq_self (Text.trimBy_trimBy (· = '/') path)
  rw [← hjoin] at hfirst hlast
  have hslash : ∀ part ∈ segments path, '/' ∉ part := fun part => Text.not_mem_of_mem_splitOn
  by_cases halone : segments path = [[]]
  · exact Or.inl halone
  refine Or.inr ⟨hslash, ?_, ?_⟩
  · rintro part hpart rfl
    -- the path would begin with the slash behind an empty first segment
    obtain ⟨others, hothers⟩ := List.head?_eq_some_iff.mp hpart
    have hne : others ≠ [] := by
      rintro rfl
      exact halone hothers
    rw [hothers, Text.join_cons hne] at hfirst
    exact hfirst '/' rfl (by decide)
  · rintro part hpart rfl
    obtain ⟨others, hothers⟩ := List.getLast?_eq_some_iff.mp hpart
    have hne : others ≠ [] := by
      rintro rfl
      exact halone hothers
    rw [hothers, Text.join_concat hne] at hlast
    exact hlast '/' (by simp) (by decide)

/-! ## The path of a place -/

/-- A path that gives a controller and, if there is one, a module. -/
def pathTo (controller : Text) (module : Option Text) : Text :=
  controller ++ (module.map fun m => '/' :: m).getD []

/-- It is the path of one or two segments. -/
theorem pathTo_eq (controller : Text) (module : Option Text) :
    pathTo controller module = Text.join ['/'] (controller :: module.toList) := by
  cases module with
  | none => simp [pathTo, Text.join]
  | some m => simp [pathTo, Text.join]

/-- Its controller and its module are segments. -/
theorem isSegment_pathTo {controller : Text} {module : Option Text} (hc : IsSegment controller)
    (hm : ∀ m ∈ module, IsSegment m) : ∀ part ∈ controller :: module.toList, IsSegment part := by
  rw [List.forall_mem_cons]
  exact ⟨hc, fun m h => hm m (Option.mem_toList.mp h)⟩

/-- The segments of such a path are the controller and the module. -/
theorem segments_pathTo {controller : Text} {module : Option Text}
    (hc : IsSegment controller) (hm : ∀ m ∈ module, IsSegment m) :
    segments (pathTo controller module) = controller :: module.toList := by
  rw [pathTo_eq, segments_join (List.cons_ne_nil _ _)
    (areSegments_of_forall (isSegment_pathTo hc hm))]

/-- Such a path leads to its controller and its module. -/
theorem place_ofPath_pathTo (controller : Text) (module : Option Text)
    (hc : IsSegment controller) (hm : ∀ m ∈ module, IsSegment m ∧ number? m = none) :
    Reroutes.place (ofPath (pathTo controller module)) = (some controller, module) := by
  have hname {t : Text} (ht : IsSegment t) : named? t = some t :=
    named?_eq_some_iff.mpr ⟨ht.1, rfl⟩
  rw [ofPath, place_overlay, segments_pathTo hc fun m h => (hm m h).1]
  cases module with
  | none => simp [placeOver, hname hc]
  | some m =>
      obtain ⟨hsegment, hnumber⟩ := hm m rfl
      simp [placeOver, hname hc, hname hsegment, hnumber]

/-- Plain names with a controller are those of some path. -/
theorem exists_path_of_isPlain {route : Route} (h : route.IsPlain)
    (hc : route.controller.isSome) :
    ∃ path, Reroutes.place (ofPath path) = Reroutes.place route := by
  obtain ⟨controller, hcontroller⟩ := Option.isSome_iff_exists.mp hc
  refine ⟨pathTo controller route.module, ?_⟩
  rw [place_ofPath_pathTo _ _ (h.controller controller hcontroller) h.module,
    Reroutes.place, hcontroller]

end Route
end PageServer
