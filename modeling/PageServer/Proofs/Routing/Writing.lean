/-
# Routes as paths

The text of a route is a path of segments: the controller, the module if there is
one, and those of the id. Read again it gives the route, unless an id that is no
integer stands in the place of a module that is not there.

* `Route.IsRead`: the routes that paths can say
* `Route.written`: the segments of the text of a route
* `Route.segments_text`: its text is the path of these
* `Route.overlay_written`: what they say
* `Route.ofPath_text`: the routes that are read back from their text
-/
import PageServer.Proofs.Number.Digits
import PageServer.Proofs.Routing.Splitting

namespace PageServer

/-! ## Numbers -/

namespace Route

/-- A number that is read from a segment is not negative, and not too large. -/
theorem range_of_number? {t : Text} {n : Int} (h : number? t = some n) :
    0 ≤ n ∧ n ≤ Number.maxInt := by
  obtain ⟨hread, hmax⟩ := Option.filter_eq_some_iff.mp h
  obtain ⟨value, -, rfl⟩ := Option.map_eq_some_iff.mp hread
  exact ⟨Int.natCast_nonneg value, of_decide_eq_true hmax⟩

/-- Such a number is read from its own digits. -/
theorem number?_ofInt {n : Int} (hmin : 0 ≤ n) (hmax : n ≤ Number.maxInt) :
    number? (Text.ofInt n) = some n := by
  obtain ⟨value, rfl⟩ := Int.eq_ofNat_of_zero_le hmin
  show ((Number.readNat? (Text.ofNat value)).map Int.ofNat).filter _ = _
  rw [Number.readNat?_ofNat, Option.map_some, Option.filter_some]
  exact if_pos (decide_eq_true hmax)

/-- The digits of such a number are a segment. -/
theorem isSegment_ofInt {n : Int} (hmin : 0 ≤ n) : IsSegment (Text.ofInt n) := by
  obtain ⟨value, rfl⟩ := Int.eq_ofNat_of_zero_le hmin
  refine ⟨Text.ofNat_ne_nil value, fun hslash => ?_⟩
  exact absurd (Text.isDigit_of_mem_ofNat hslash) (by decide)

end Route

/-! ## Ids -/

namespace RouteId

open Route (IsSegment number? idOf)

/-- The segments of an id. -/
def segments : RouteId → List Text
  | int n => [Text.ofInt n]
  | str t => [t]
  | list parts => parts

/-- Its text is the path of these. -/
theorem text_eq (id : RouteId) : id.text = Text.join ['/'] id.segments := by
  cases id with
  | int n => simp [text, segments, Text.join]
  | str t => simp [text, segments, Text.join]
  | list parts => rfl

/-- What paths can say of an id: an integer, a word that is none, or at least two segments of which
only the last one has to be filled. -/
def IsRead : RouteId → Prop
  | int n => 0 ≤ n ∧ n ≤ Number.maxInt
  | str t => IsSegment t ∧ number? t = none
  | list parts =>
    2 ≤ parts.length ∧ (∀ part ∈ parts, '/' ∉ part) ∧ ∀ last ∈ parts.getLast?, last ≠ []

/-- Such an id has segments. -/
theorem IsRead.segments_ne_nil {id : RouteId} (h : id.IsRead) : id.segments ≠ [] := by
  cases id with
  | int n => exact List.cons_ne_nil _ _
  | str t => exact List.cons_ne_nil _ _
  | list parts =>
      rintro rfl
      exact absurd h.1 (by decide)

/-- No slash stands in one of them, and the last one is not empty. -/
theorem IsRead.segments {id : RouteId} (h : id.IsRead) :
    (∀ part ∈ id.segments, '/' ∉ part) ∧ ∀ last ∈ id.segments.getLast?, last ≠ [] := by
  cases id with
  | int n =>
      obtain ⟨hne, hslash⟩ := Route.isSegment_ofInt h.1
      simpa [RouteId.segments] using ⟨hslash, hne⟩
  | str t =>
      obtain ⟨⟨hne, hslash⟩, -⟩ := h
      simpa [RouteId.segments] using ⟨hslash, hne⟩
  | list parts => exact h.2

/-- What the segments from the third one on say can be said. -/
theorem isRead_of_idOf {parts : List Text} {id : RouteId} (hslash : ∀ part ∈ parts, '/' ∉ part)
    (hlast : ∀ last ∈ parts.getLast?, last ≠ []) (h : idOf parts = some id) : id.IsRead := by
  match parts with
  | [] => contradiction
  | [segment] =>
      rw [idOf] at h
      cases hnumber : number? segment with
      | some n =>
          rw [hnumber] at h
          obtain rfl := Option.some.inj h
          exact Route.range_of_number? hnumber
      | none =>
          rw [hnumber] at h
          obtain rfl := Option.some.inj h
          exact ⟨⟨hlast segment rfl, hslash segment List.mem_cons_self⟩, hnumber⟩
  | first :: second :: others =>
      obtain rfl := Option.some.inj h
      exact ⟨by simp, hslash, hlast⟩

/-- From its segments an id is read again. -/
theorem IsRead.idOf_segments {id : RouteId} (h : id.IsRead) : idOf id.segments = some id := by
  cases id with
  | int n => rw [RouteId.segments, idOf, Route.number?_ofInt h.1 h.2]
  | str t => rw [RouteId.segments, idOf, h.2]
  | list parts =>
      rcases parts with - | ⟨first, - | ⟨second, others⟩⟩
      · exact absurd h.1 (by decide)
      · exact absurd h.1 (by simp)
      · rfl

/-- Several segments are an id only together. -/
theorem eq_of_idOf {parts parts' : List Text} (h : idOf parts = some (.list parts')) :
    parts' = parts := by
  match parts with
  | [] => contradiction
  | [segment] =>
      rw [idOf] at h
      cases hnumber : number? segment <;> simp [hnumber] at h
  | first :: second :: others => exact (RouteId.list.inj (Option.some.inj h)).symm

end RouteId

namespace Route

/-! ## Routes that are read -/

/-- The routes that paths can say. -/
structure IsRead (route : Route) : Prop extends IsPlain route where
  /-- Without a controller there is nothing else. -/
  alone : route.controller = none → route = {}
  /-- The id is one that a path can say. -/
  id : ∀ id ∈ route.id, id.IsRead
  /-- A path is not known to be that of the index page. -/
  index : route.isIndex = false
  /-- Nor is it known to be valid. -/
  valid : route.valid = false

/-- What segments say over no route is only what they say. -/
theorem frame_overlaySegments (parts : List Text) :
    (overlaySegments {} parts).isIndex = false ∧ (overlaySegments {} parts).valid = false := by
  match parts with
  | [] | [first] => exact ⟨rfl, rfl⟩
  | first :: second :: others => cases hsecond : number? second <;> simp [overlaySegments, hsecond]

/-- The id is the number in the second segment, or what the segments behind it say. -/
theorem id_overlaySegments {parts : List Text} {id : RouteId}
    (h : (overlaySegments {} parts).id = some id) :
    idOf (parts.drop 2) = some id ∨ ∃ second n, number? second = some n ∧ id = .int n := by
  match parts with
  | [] | [first] => contradiction
  | first :: second :: others =>
      have hid : (overlaySegments {} (first :: second :: others)).id =
          (idOf others).or ((number? second).map .int) := by
        cases hsecond : number? second <;> simp [overlaySegments, hsecond]
      rw [hid, Option.or_eq_some_iff] at h
      rcases h with hbehind | ⟨-, hsecond⟩
      · exact Or.inl hbehind
      · obtain ⟨n, hn, rfl⟩ := Option.map_eq_some_iff.mp hsecond
        exact Or.inr ⟨second, n, hn, rfl⟩

/-- **The route of a path is one that can be said.** -/
theorem isRead_ofPath (path : Text) : (ofPath path).IsRead := by
  obtain ⟨hindex, hvalid⟩ := frame_overlaySegments (segments path)
  refine ⟨isPlain_ofPath path, ?_, ?_, hindex, hvalid⟩
  · intro hnone
    rcases segments_cases path with hempty | hsegments
    · rw [ofPath, overlay, hempty]
      rfl
    · -- the first segment would be the controller
      obtain ⟨first, others, hparts⟩ := List.exists_cons_of_ne_nil (segments_ne_nil path)
      have hplace := place_overlay {} path
      have hfirst : named? first = some first :=
        named?_eq_some_iff.mpr ⟨hsegments.first first (by rw [hparts]; rfl), rfl⟩
      have hcontroller : (ofPath path).controller = named? first := by
        cases others <;> exact congrArg Prod.fst (hparts ▸ hplace)
      rw [hcontroller, hfirst] at hnone
      contradiction
  · intro id hid
    rcases id_overlaySegments hid with hbehind | ⟨second, n, hn, rfl⟩
    · rcases segments_cases path with hempty | hsegments
      · rw [hempty] at hbehind
        contradiction
      · refine RouteId.isRead_of_idOf (fun part hpart => ?_) (fun last hlast => ?_) hbehind
        · exact hsegments.slash part (List.mem_of_mem_drop hpart)
        · refine hsegments.last last ?_
          rw [List.getLast?_drop] at hlast
          split at hlast
          · contradiction
          · exact hlast
    · exact range_of_number? hn

/-! ## Their text -/

/-- The segments of the text of a route. -/
def written (route : Route) : List Text :=
  route.controller.getD [] ::
    (route.module.toList ++ (route.id.map RouteId.segments).getD [])

/-- The text is the path of these segments. -/
theorem IsRead.text_eq {route : Route} (h : route.IsRead) :
    route.text = Text.join ['/'] route.written := by
  obtain ⟨controller, module, id, isIndex, valid⟩ := route
  cases id with
  | none =>
      cases module with
      | none => simp [text, written, Text.join]
      | some m => simp [text, written, Text.join]
  | some id =>
      have hne : id.segments ≠ [] := (h.id id rfl).segments_ne_nil
      cases module with
      | none => simp [text, written, Text.join_cons hne, RouteId.text_eq]
      | some m => simp [text, written, Text.join_cons, hne, RouteId.text_eq]

/-- **The text of a route has the segments that are written for it.** -/
theorem IsRead.segments_text {route : Route} (h : route.IsRead) :
    segments route.text = route.written := by
  rw [h.text_eq]
  cases hcontroller : route.controller with
  | none =>
      rw [h.alone hcontroller]
      rfl
  | some controller =>
      obtain ⟨hne, hslash⟩ := h.controller controller hcontroller
      have hwritten : route.written ≠ [] := List.cons_ne_nil _ _
      apply segments_join hwritten
      rw [written, hcontroller, Option.getD_some]
      cases hid : route.id with
      | none =>
          -- the controller, and maybe the module
          apply areSegments_of_forall
          rw [List.forall_mem_cons]
          refine ⟨⟨hne, hslash⟩, fun part hpart => ?_⟩
          have hmodule : part ∈ route.module := by simpa using hpart
          exact (h.module part hmodule).1
      | some id =>
          obtain ⟨hslashes, hlast⟩ := (h.id id hid).segments
          have hfilled := (h.id id hid).segments_ne_nil
          rw [Option.map_some, Option.getD_some]
          refine ⟨?_, by simpa using hne, fun last hmem => hlast last ?_⟩
          · simp only [List.forall_mem_cons, List.forall_mem_append]
            exact ⟨hslash, fun m hm => (h.module m (Option.mem_toList.mp hm)).1.2, hslashes⟩
          · rw [← List.cons_append, List.getLast?_append_of_ne_nil _ hfilled] at hmem
            exact hmem

/-- A route with a module, or without an id, or with an integer as its id. -/
def Restorable (route : Route) : Prop :=
  route.module.isSome ∨ route.id = none ∨ ∃ n, route.id = some (.int n)

/-- **What is written for a route says the route, unless an id that is no integer comes right behind
the controller.** -/
theorem IsRead.overlay_written {route : Route} (h : route.IsRead) :
    overlaySegments {} route.written = route ↔ route.Restorable := by
  obtain ⟨⟨hcontroller, hmodule⟩, halone, hid, hindex, hvalid⟩ := h
  obtain ⟨controller, module, id, isIndex, valid⟩ := route
  obtain rfl : isIndex = false := hindex
  obtain rfl : valid = false := hvalid
  cases controller with
  | none =>
      obtain ⟨-, rfl, rfl, -⟩ := Route.mk.inj (halone rfl)
      exact iff_of_true rfl (Or.inr (Or.inl rfl))
  | some c =>
      have hc : named? c = some c := named?_eq_some_iff.mpr ⟨(hcontroller c rfl).1, rfl⟩
      cases module with
      | some m =>
          obtain ⟨⟨hne, -⟩, hnumber⟩ := hmodule m rfl
          have hm : named? m = some m := named?_eq_some_iff.mpr ⟨hne, rfl⟩
          refine iff_of_true ?_ (Or.inl rfl)
          cases id with
          | none => simp [written, overlaySegments, idOf, hc, hm, hnumber]
          | some id =>
              simp [written, overlaySegments, hc, hm, hnumber, (hid id rfl).idOf_segments]
      | none =>
          cases id with
          | none => exact iff_of_true (by simp [written, overlaySegments, hc]) (Or.inr (Or.inl rfl))
          | some id =>
              cases id with
              | int n =>
                  obtain ⟨hmin, hmax⟩ := hid _ rfl
                  refine iff_of_true ?_ (Or.inr (Or.inr ⟨n, rfl⟩))
                  simp [written, overlaySegments, RouteId.segments, idOf, hc,
                    number?_ofInt hmin hmax]
              | str t =>
                  -- the word is taken for the module
                  obtain ⟨⟨hne, -⟩, hnumber⟩ := hid _ rfl
                  have ht : named? t = some t := named?_eq_some_iff.mpr ⟨hne, rfl⟩
                  refine iff_of_false (fun hsame => ?_) (by simp [Restorable])
                  have hmodule := congrArg Route.module hsame
                  simp [written, overlaySegments, RouteId.segments, ht, hnumber] at hmodule
              | list parts =>
                  -- the first one of the segments is not part of the id any more
                  obtain ⟨hlength, -⟩ := hid _ rfl
                  refine iff_of_false (fun hsame => ?_) (by simp [Restorable])
                  obtain ⟨first, others, rfl⟩ := List.exists_cons_of_ne_nil
                    (List.ne_nil_of_length_pos (by omega : 0 < parts.length))
                  rcases id_overlaySegments (congrArg Route.id hsame) with hbehind | ⟨-, n, -, hn⟩
                  · have hparts := congrArg List.length (RouteId.eq_of_idOf hbehind)
                    simp [written, RouteId.segments] at hparts
                  · contradiction

/-- **A route is read back from its text.** For every path, the text of its route gives this route
again exactly if there is a module, or no id, or an integer as the id. Then the text is the one form
of the route: it is written again for what it says, and no other such route has it. -/
theorem ofPath_text (path : Text) :
    (ofPath (ofPath path).text = ofPath path ↔ (ofPath path).Restorable) ∧
    ((ofPath path).Restorable →
      (ofPath (ofPath path).text).text = (ofPath path).text ∧
      ∀ other, (ofPath other).Restorable → (ofPath other).text = (ofPath path).text →
        ofPath other = ofPath path) := by
  have hiff (path : Text) :
      ofPath (ofPath path).text = ofPath path ↔ (ofPath path).Restorable := by
    have hread := isRead_ofPath path
    rw [← hread.overlay_written, ← hread.segments_text]
    rfl
  refine ⟨hiff path, fun h => ⟨?_, fun other hother htext => ?_⟩⟩
  · rw [(hiff path).mpr h]
  · rw [← (hiff other).mpr hother, htext, (hiff path).mpr h]

/-- An integer behind an empty segment is an id, and its zeros are not written. -/
theorem ofPath_text_sample :
    (ofPath "/shop//0042/").Restorable ∧ (ofPath "/shop//0042/").text = "shop/42".toList ∧
      ofPath (ofPath "/shop//0042/").text = ofPath "/shop//0042/" ∧
      (ofPath (ofPath "/shop//0042/").text).text = (ofPath "/shop//0042/").text := by
  have hroute : ofPath "/shop//0042/" =
      { controller := some "shop".toList, id := some (.int 42) } := by decide +kernel
  have hrestorable : (ofPath "/shop//0042/").Restorable :=
    Or.inr (Or.inr ⟨42, by rw [hroute]⟩)
  obtain ⟨hiff, htext⟩ := ofPath_text "/shop//0042/"
  exact ⟨hrestorable, by decide +kernel, hiff.mpr hrestorable, (htext hrestorable).1⟩

end Route
end PageServer
