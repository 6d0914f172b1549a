/-
# Addresses under a root

The route of an address depends neither on its query nor on slashes at the end
of its path, and the link to a path leads where the path itself leads. The root
is taken off a path as text, though, whatever follows it: a root without a slash
at its end is also taken off inside a segment.

* `Route.ofPath_slashes_append`, `Route.ofPath_append_slashes`: slashes around a path
* `Router.ofPath_relative_append`: slashes behind a path that is not that of the root
* `Router.route_append`: slashes and a query behind an address
* `Router.route_link`: links
* `Router.route_slash_iff`: a slash behind the root
-/
import PageServer.Proofs.Routing.NormalForm
import PageServer.Routing.Router

namespace PageServer

/-! ## Slashes at the ends -/

namespace Route

variable {slashes : Text}

/-- Slashes before a path and behind it do not change its segments. -/
theorem segments_slashes {before behind : Text} (hbefore : ∀ c ∈ before, c = '/')
    (hbehind : ∀ c ∈ behind, c = '/') (path : Text) :
    segments (before ++ path ++ behind) = segments path := by
  rw [segments, segments, Text.trimBy_append]
  · simpa using hbefore
  · simpa using hbehind

/-- Slashes before a path do not change its route. -/
theorem ofPath_slashes_append (h : ∀ c ∈ slashes, c = '/') (path : Text) :
    ofPath (slashes ++ path) = ofPath path := by
  have hsegments := segments_slashes h (List.forall_mem_nil _) path
  rw [List.append_nil] at hsegments
  rw [ofPath, overlay, hsegments]
  rfl

/-- Nor do slashes behind it. -/
theorem ofPath_append_slashes (path : Text) (h : ∀ c ∈ slashes, c = '/') :
    ofPath (path ++ slashes) = ofPath path := by
  have hsegments := segments_slashes (List.forall_mem_nil _) h path
  rw [List.nil_append] at hsegments
  rw [ofPath, overlay, hsegments]
  rfl

end Route

namespace Router

variable {slashes : Text}

/-- Slashes behind a text are dropped. -/
theorem dropSlashes_append (t : Text) (h : ∀ c ∈ slashes, c = '/') :
    dropSlashes (t ++ slashes) = dropSlashes t := by
  apply Text.dropEndWhile_append_of_pos
  simpa using h

/-- A text is what is left of it, with slashes behind that. -/
theorem exists_eq_dropSlashes_append (t : Text) :
    ∃ slashes, t = dropSlashes t ++ slashes ∧ ∀ c ∈ slashes, c = '/' := by
  simpa [dropSlashes] using Text.exists_eq_dropEndWhile_append (· = '/') t

/-! ## Routes of addresses -/

/-- The route of an address without a query. -/
theorem route_eq {path : Text} (h : '?' ∉ path) (router : Router) :
    router.route path =
      if router.isIndex path then .ok .index
      else router.reroutes.apply (.ofPath (router.relative path)) := by
  rw [route, Query.splitAddress, Text.cut_of_not_mem h]
  rfl

/-- A query does not change the route. -/
theorem route_append_query {path : Text} (h : '?' ∉ path) (router : Router) (query : Text) :
    router.route (path ++ '?' :: query) = router.route path := by
  rw [route_eq h, route, Query.splitAddress, Text.cut_append h]
  rfl

/-- A path is that of the root with slashes behind it exactly if it is without them. -/
theorem isIndex_append (router : Router) (path : Text) (h : ∀ c ∈ slashes, c = '/') :
    router.isIndex (path ++ slashes) = router.isIndex path := by
  rw [isIndex, isIndex, dropSlashes_append path h]

/-- If slashes behind a path complete the root, the path is that of the root. -/
theorem isIndex_of_prefix_append {router : Router} {path : Text} (h : ∀ c ∈ slashes, c = '/')
    (hlonger : router.root <+: path ++ slashes) (hnot : ¬ router.root <+: path) :
    router.isIndex path = true := by
  rcases List.prefix_or_prefix_of_prefix hlonger (List.prefix_append path slashes) with
    hshort | ⟨others, hroot⟩
  · contradiction
  · rw [← hroot, List.prefix_append_right_inj] at hlonger
    rw [isIndex, decide_eq_true_eq, ← hroot, dropSlashes_append]
    intro c hc
    exact h c (hlonger.subset hc)

/-- **Slashes behind a path that is not that of the root do not change the route of what follows
the root**: the root stands before the path with them exactly if it does without them. -/
theorem ofPath_relative_append {router : Router} {path : Text} (h : ∀ c ∈ slashes, c = '/')
    (hindex : router.isIndex path = false) :
    Route.ofPath (router.relative (path ++ slashes)) = Route.ofPath (router.relative path) := by
  rw [relative, relative]
  cases hafter : Text.after? router.root path with
  | some rest =>
      have hrest : Text.after? router.root (path ++ slashes) = some (rest ++ slashes) := by
        rw [Text.after?_eq_some_iff, ← List.append_assoc, ← Text.after?_eq_some_iff.mp hafter]
      rw [hrest]
      exact Route.ofPath_append_slashes rest h
  | none =>
      have hnone : Text.after? router.root (path ++ slashes) = none := by
        rw [Text.after?_eq_none_iff] at hafter ⊢
        intro hlonger
        rw [isIndex_of_prefix_append h hlonger hafter] at hindex
        contradiction
      rw [hnone]
      exact Route.ofPath_append_slashes path h

/-- Slashes are no question marks. -/
theorem mark_not_mem_append {path : Text} (hpath : '?' ∉ path) (h : ∀ c ∈ slashes, c = '/') :
    '?' ∉ path ++ slashes := by
  intro hmem
  rcases List.mem_append.mp hmem with hin | hin
  · exact hpath hin
  · exact absurd (h _ hin) (by decide)

/-- Slashes behind a path do not change its route. -/
theorem route_append_slashes {path : Text} (hpath : '?' ∉ path) (h : ∀ c ∈ slashes, c = '/')
    (router : Router) : router.route (path ++ slashes) = router.route path := by
  rw [route_eq (mark_not_mem_append hpath h), route_eq hpath, isIndex_append router path h]
  cases hindex : router.isIndex path with
  | true => rfl
  | false => rw [ofPath_relative_append h hindex]

/-- **Neither slashes behind an address nor a query behind them change its route**, whatever the
root and the re-routing are. -/
theorem route_append (router : Router) (address : Text) (k : Nat) (query : Text) :
    router.route (address ++ List.replicate k '/') = router.route address ∧
      router.route (address ++ List.replicate k '/' ++ '?' :: query) = router.route address := by
  have hslashes : ∀ c ∈ List.replicate k '/', c = '/' := by
    intro c hc
    exact List.eq_of_mem_replicate hc
  by_cases hmark : '?' ∈ address
  · -- what is behind the address belongs to its query
    obtain ⟨path, rest, rfl, hpath⟩ := List.eq_append_cons_of_mem hmark
    simp only [List.append_assoc, List.cons_append]
    rw [route_append_query hpath, route_append_query hpath, route_append_query hpath]
    exact ⟨rfl, rfl⟩
  · rw [route_append_query (mark_not_mem_append hmark hslashes),
      route_append_slashes hmark hslashes]
    exact ⟨rfl, rfl⟩

/-- The slashes may complete the root of a router. -/
example :
    (ofRoot "/app//" []).route "/app" = .ok .index ∧
      (ofRoot "/app//" []).route "/app//?next=/app//users" = .ok .index := by
  decide +kernel

/-! ## Links -/

/-- A root that ends in one slash at most is what is left without it, or has it behind that. -/
theorem root_cases {root : Text} (h : ¬ ['/', '/'] <:+ root) :
    root = dropSlashes root ∨ root = dropSlashes root ++ ['/'] := by
  obtain ⟨slashes, hroot, hslashes⟩ := exists_eq_dropSlashes_append root
  obtain ⟨k, rfl⟩ : ∃ k, slashes = List.replicate k '/' :=
    ⟨slashes.length, List.eq_replicate_of_mem hslashes⟩
  match k with
  | 0 => exact Or.inl (by rwa [List.replicate_zero, List.append_nil] at hroot)
  | 1 => exact Or.inr hroot
  | k + 2 =>
      rw [List.replicate_add, ← List.append_assoc] at hroot
      exact absurd ⟨_, hroot.symm⟩ h

/-- A link has no query if neither the root nor its path has one. -/
theorem mark_not_mem_link {router : Router} {path : Text} (hroot : '?' ∉ router.root)
    (hpath : '?' ∉ path) : '?' ∉ router.link path := by
  obtain ⟨slashes, heq, -⟩ := exists_eq_dropSlashes_append router.root
  have hkept : '?' ∉ dropSlashes router.root := by
    intro hmem
    rw [heq] at hroot
    exact hroot (List.mem_append_left slashes hmem)
  rw [link, List.mem_append, List.mem_cons]
  rintro (hmem | hslash | hmem)
  · exact hkept hmem
  · exact absurd hslash (by decide)
  · exact hpath ((List.dropWhile_suffix _).subset hmem)

/-- A link to a path that has more than slashes is not the address of the root. -/
theorem isIndex_link {router : Router} {path : Text} (h : ∃ c ∈ path, c ≠ '/') :
    router.isIndex (router.link path) = false := by
  obtain ⟨c, hmem, hc⟩ := h
  have hkept : c ∈ path.dropWhile (· = '/') := by
    rw [← List.takeWhile_append_dropWhile (p := (· = '/')) (l := path), List.mem_append] at hmem
    rcases hmem with htaken | hkept
    · exact absurd (by simpa using List.mem_takeWhile_imp htaken) hc
    · exact hkept
  rw [isIndex, decide_eq_false_iff_not]
  intro hindex
  obtain ⟨slashes, hlink, hslashes⟩ := exists_eq_dropSlashes_append (router.link path)
  rw [hindex, link, List.append_cancel_left_eq] at hlink
  exact hc (hslashes c (hlink ▸ List.mem_cons_of_mem '/' hkept))

/-- What follows the root in a link names the route of the path. -/
theorem ofPath_relative_link {router : Router} (h : ¬ ['/', '/'] <:+ router.root) (path : Text) :
    Route.ofPath (router.relative (router.link path)) = Route.ofPath path := by
  have hslashes : ∀ c ∈ path.takeWhile (· = '/'), c = '/' := by
    intro c hc
    simpa using List.mem_takeWhile_imp hc
  have hkept : Route.ofPath (path.dropWhile (· = '/')) = Route.ofPath path := by
    rw [← Route.ofPath_slashes_append hslashes, List.takeWhile_append_dropWhile]
  rcases root_cases h with hroot | hroot
  · have hafter : Text.after? router.root (router.link path) =
        some ('/' :: path.dropWhile (· = '/')) := by
      rw [Text.after?_eq_some_iff, link, ← hroot]
    rw [relative, hafter, Option.getD_some, ← hkept]
    exact Route.ofPath_slashes_append (List.forall_mem_singleton.mpr rfl) _
  · have hafter : Text.after? router.root (router.link path) =
        some (path.dropWhile (· = '/')) := by
      rw [Text.after?_eq_some_iff, hroot, link, List.append_assoc]
      rfl
    rw [relative, hafter, Option.getD_some, hkept]

/-- **A link leads where its path leads.** Under every root that has no question mark and ends in
one slash at most, and for every table, the route of the link to a path is the one that re-routing
gives for the path, and the link to the empty path is an address of the index page. -/
theorem route_link {root : Text} (hmark : '?' ∉ root) (hslash : ¬ ['/', '/'] <:+ root)
    (table : Reroutes) :
    (∀ path, '?' ∉ path → (∃ c ∈ path, c ≠ '/') →
      (ofRoot root table).route ((ofRoot root table).link path) = table.apply (.ofPath path)) ∧
    (ofRoot root table).route ((ofRoot root table).link []) = .ok .index := by
  -- the slash that stands for an empty root is such a root, too
  have hroot : '?' ∉ (ofRoot root table).root ∧ ¬ ['/', '/'] <:+ (ofRoot root table).root := by
    rw [ofRoot]
    dsimp only
    split_ifs
    · decide
    · exact ⟨hmark, hslash⟩
  constructor
  · intro path hpath hword
    rw [route_eq (mark_not_mem_link hroot.1 hpath), isIndex_link hword, ofPath_relative_link hroot.2]
    rfl
  · have hindex : (ofRoot root table).isIndex ((ofRoot root table).link []) = true := by
      rw [isIndex, decide_eq_true_eq, link, List.dropWhile_nil,
        dropSlashes_append _ (List.forall_mem_singleton.mpr rfl)]
      exact Text.dropEndWhile_dropEndWhile _ _
    rw [route_eq (mark_not_mem_link hroot.1 (by decide)), hindex]
    rfl

/-- A link with slashes all around its path, below a root that ends in one. -/
theorem route_link_sample :
    '?' ∉ ("/app/" : Text) ∧ ¬ ['/', '/'] <:+ ("/app/" : Text) ∧ '?' ∉ ("//app/u//" : Text) ∧
      (∃ c ∈ ("//app/u//" : Text), c ≠ '/') ∧
      (ofRoot "/app/" [("app", "users")]).link "//app/u//" = "/app/app/u//" ∧
      (ofRoot "/app/" [("app", "users")]).route "/app/app/u//" = .ok (.ofPath "users/u") ∧
      (ofRoot "/app/" [("app", "users")]).route "/app/" = .ok .index := by
  have hmark : '?' ∉ ("/app/" : Text) := by decide
  have hslash : ¬ ['/', '/'] <:+ ("/app/" : Text) := by decide
  have hpath : '?' ∉ ("//app/u//" : Text) := by decide
  have hword : ∃ c ∈ ("//app/u//" : Text), c ≠ '/' := ⟨'u', by decide, by decide⟩
  have hlink : (ofRoot "/app/" [("app", "users")]).link "//app/u//" = "/app/app/u//" := by decide
  obtain ⟨hlinks, hindex⟩ := route_link hmark hslash [("app", "users")]
  refine ⟨hmark, hslash, hpath, hword, hlink, ?_, hindex⟩
  rw [← hlink, hlinks "//app/u//" hpath hword]
  decide +kernel

/-- Below a root that ends in two slashes a link leads elsewhere. -/
example :
    (ofRoot "/app//" []).link "users" = "/app/users" ∧
      (ofRoot "/app//" []).route "/app/users" = .ok (.ofPath "app/users") := by
  decide +kernel

/-! ## The slash behind the root -/

/-- A root that is not empty stands for itself. -/
theorem ofRoot_of_ne {root : Text} (h : root ≠ []) (table : Reroutes) :
    ofRoot root table = { root, reroutes := table } := by
  rw [ofRoot, if_neg (by simpa using h)]

/-- The same for a root with a slash behind it. -/
theorem ofRoot_slash (root : Text) (table : Reroutes) :
    ofRoot (root ++ ['/']) table = { root := root ++ ['/'], reroutes := table } :=
  ofRoot_of_ne (by simp) table

/-- Such a root is not taken off a path that goes on inside the last segment. -/
theorem relative_slash_inside (root : Text) (table : Reroutes) {c : Char} (hc : c ≠ '/')
    (rest : Text) :
    (ofRoot (root ++ ['/']) table).relative (root ++ c :: rest) = root ++ c :: rest := by
  have hafter : Text.after? (root ++ ['/']) (root ++ c :: rest) = none := by
    rw [Text.after?_eq_none_iff, List.prefix_append_right_inj, List.singleton_prefix_cons_iff]
    exact fun heq => hc heq.symm
  rw [ofRoot_slash, relative, hafter]
  rfl

section Slash

variable {root : Text} (hne : root ≠ []) (table : Reroutes)
include hne

/-- A slash behind the root does not change which paths are those of the root. -/
theorem isIndex_slash (path : Text) :
    (ofRoot (root ++ ['/']) table).isIndex path = (ofRoot root table).isIndex path := by
  rw [ofRoot_of_ne hne, ofRoot_slash, isIndex, isIndex,
    dropSlashes_append root (List.forall_mem_singleton.mpr rfl)]

/-- A path that goes on inside the last segment of the root is not that of the root. -/
theorem isIndex_of_inside (hlast : root.getLast? ≠ some '/') {c : Char} (hc : c ≠ '/')
    (rest : Text) : (ofRoot root table).isIndex (root ++ c :: rest) = false := by
  have hroot : dropSlashes root = root := by
    rw [dropSlashes, Text.dropEndWhile_eq, List.rdropWhile_eq_self_iff]
    intro hnil hslash
    rw [List.getLast?_eq_some_getLast hnil, of_decide_eq_true hslash] at hlast
    exact hlast rfl
  rw [ofRoot_of_ne hne, isIndex, decide_eq_false_iff_not]
  dsimp only
  rw [hroot]
  intro hindex
  obtain ⟨slashes, hpath, hslashes⟩ := exists_eq_dropSlashes_append (root ++ c :: rest)
  rw [hindex, List.append_cancel_left_eq] at hpath
  exact hc (hslashes c (hpath ▸ List.mem_cons_self))

/-- The root is taken off such a path, in the middle of a segment. -/
theorem relative_inside (c : Char) (rest : Text) :
    (ofRoot root table).relative (root ++ c :: rest) = c :: rest := by
  have hafter : Text.after? root (root ++ c :: rest) = some (c :: rest) :=
    Text.after?_eq_some_iff.mpr rfl
  rw [ofRoot_of_ne hne, relative, hafter]
  rfl

/-- If the path does not go on inside the last segment of the root, what follows the root names one
route with the slash and without it. -/
theorem ofPath_relative_slash {path : Text} (hindex : (ofRoot root table).isIndex path = false)
    (hwhole : ∀ c rest, path = root ++ c :: rest → c = '/') :
    Route.ofPath ((ofRoot (root ++ ['/']) table).relative path) =
      Route.ofPath ((ofRoot root table).relative path) := by
  rw [ofRoot_of_ne hne] at hindex ⊢
  rw [ofRoot_slash, relative, relative]
  dsimp only
  cases hafter : Text.after? root path with
  | none =>
      have hnone : Text.after? (root ++ ['/']) path = none := by
        rw [Text.after?_eq_none_iff] at hafter ⊢
        exact fun hslash => hafter ((List.prefix_append root ['/']).trans hslash)
      rw [hnone]
  | some others =>
      have hpath := Text.after?_eq_some_iff.mp hafter
      cases others with
      | nil =>
          rw [List.append_nil] at hpath
          rw [hpath, isIndex, decide_eq_false_iff_not] at hindex
          exact absurd rfl hindex
      | cons c rest =>
          obtain rfl := hwhole c rest hpath
          have hslash : Text.after? (root ++ ['/']) path = some rest := by
            rw [Text.after?_eq_some_iff, hpath, List.append_assoc]
            rfl
          rw [hslash]
          exact (Route.ofPath_slashes_append (List.forall_mem_singleton.mpr rfl) rest).symm

end Slash

/-- **A slash behind the root changes the routes of just the paths that go on inside its last
segment.** Let a root be not empty and not end in a slash. With a slash behind it every table gives
an address the same route as without exactly if the path does not go on in the middle of the
segment in which the root ends, or what follows the root there happens to name the route of the
whole path. Where it does go on there, the root is taken off inside the segment, while the one
with the slash is not taken off. -/
theorem route_slash_iff {root : Text} (hne : root ≠ []) (hlast : root.getLast? ≠ some '/')
    (address : Text) :
    ((∀ table, (ofRoot (root ++ ['/']) table).route address = (ofRoot root table).route address) ↔
      ∀ c rest, (Query.splitAddress address).1 = root ++ c :: rest → c ≠ '/' →
        Route.ofPath (c :: rest) = Route.ofPath (root ++ c :: rest)) ∧
    ∀ c rest, (Query.splitAddress address).1 = root ++ c :: rest → c ≠ '/' → ∀ table,
      (ofRoot root table).route address = table.apply (.ofPath (c :: rest)) ∧
      (ofRoot (root ++ ['/']) table).route address =
        table.apply (.ofPath (root ++ c :: rest)) := by
  have hinside : ∀ c rest, (Query.splitAddress address).1 = root ++ c :: rest → c ≠ '/' →
      ∀ table, (ofRoot root table).route address = table.apply (.ofPath (c :: rest)) ∧
        (ofRoot (root ++ ['/']) table).route address =
          table.apply (.ofPath (root ++ c :: rest)) := by
    intro c rest hpath hc table
    rw [route, route, hpath, isIndex_slash hne, isIndex_of_inside hne table hlast hc,
      relative_inside hne, relative_slash_inside root table hc, ofRoot_of_ne hne, ofRoot_slash]
    exact ⟨rfl, rfl⟩
  refine ⟨⟨fun hsame c rest hpath hc => ?_, fun hsame table => ?_⟩, hinside⟩
  · -- no entries: the routes are those of the two paths
    obtain ⟨hroot, hslash⟩ := hinside c rest hpath hc []
    have heq := hsame []
    rw [hroot, hslash, Reroutes.apply_nil, Reroutes.apply_nil] at heq
    exact (Except.ok.inj heq).symm
  · by_cases hwhole : ∀ c rest, (Query.splitAddress address).1 = root ++ c :: rest → c = '/'
    · rw [route, route, isIndex_slash hne]
      cases hindex : (ofRoot root table).isIndex (Query.splitAddress address).1 with
      | true => rfl
      | false =>
          rw [ofPath_relative_slash hne table hindex hwhole, ofRoot_of_ne hne, ofRoot_slash]
    · push Not at hwhole
      obtain ⟨c, rest, hpath, hc⟩ := hwhole
      obtain ⟨hroot, hslash⟩ := hinside c rest hpath hc table
      rw [hroot, hslash, hsame c rest hpath hc]

/-- Behind the root stand two slashes, and a question mark behind them. -/
theorem route_slash_iff_sample :
    ("/app" : Text) ≠ [] ∧ ("/app" : Text).getLast? ≠ some '/' ∧
      ∀ table, (ofRoot "/app/" table).route "/app//users?from=/application" =
        (ofRoot "/app" table).route "/app//users?from=/application" := by
  have hne : ("/app" : Text) ≠ [] := by decide
  have hlast : ("/app" : Text).getLast? ≠ some '/' := by decide
  refine ⟨hne, hlast, (route_slash_iff hne hlast "/app//users?from=/application").1.mpr ?_⟩
  intro c rest hpath hc
  have hsplit : (Query.splitAddress "/app//users?from=/application").1 =
      ("/app" : Text) ++ '/' :: ("/users" : Text) := by decide +kernel
  rw [hsplit, List.append_cancel_left_eq] at hpath
  exact absurd (List.cons.inj hpath).1.symm hc

/-- The root is taken off in the middle of a word. -/
theorem root_inside_word :
    ¬ ∀ (table : Reroutes) (root address : Text), root ≠ [] → root.getLast? ≠ some '/' →
      (ofRoot (root ++ ['/']) table).route address = (ofRoot root table).route address := by
  intro h
  have hsame := h [] "/app" "/application" (by decide) (by decide)
  have hroot : (ofRoot "/app" []).route "/application" = .ok (.ofPath "lication") := by
    decide +kernel
  have hslash : (ofRoot "/app/" []).route "/application" = .ok (.ofPath "application") := by
    decide +kernel
  have heq := hslash.symm.trans (hsame.trans hroot)
  exact absurd heq (by decide +kernel)

end Router
end PageServer
