/-
# Recognizing and serving on sound stores

On sound stores a visit is that of somebody who is logged in, or of nobody, who
has no session. So a session never changes its owner, and what a request can do
to the sessions is told by the way in which it is served.

* `Visit.Recognition`: what is known once a visit has been recognized
* `Visit.Served.sound`: serving a request keeps stores sound
* `Visit.Served.find?`: how a session comes to be there at the end of a visit
-/
import PageServer.Proofs.Site.Course
import PageServer.Proofs.Site.Stores

namespace PageServer

/-! ## Recognizing who makes a request -/

namespace Visit

/-- How a visit on sound stores is recognized: its token has a session that lasts, and the visit
is that of the owner, or nobody is known. -/
structure Recognition (v v' : Visit) : Prop where
  /-- The stores are sound. -/
  sound : v'.stores.Sound
  /-- Sessions only end. -/
  fewer : ∀ token session, v'.stores.sessions.find? token = some session →
    v.stores.sessions.find? token = some session
  /-- All but the sessions and the user stays as it is. -/
  frame : ∃ sessions user session,
    v' = { v with stores := { v.stores with sessions }, user, session } ∧
      sessions.length = v.stores.sessions.length ∧
      sessions.tokenOf = v.stores.sessions.tokenOf ∧
      sessions.issued = v.stores.sessions.issued
  /-- The token of the visit has a session that lasts, and its owner is logged in. -/
  known : ∀ token, v'.session = some token →
    v'.user.isLoggedIn = true ∧ v.request.cookie? Visiting.sessionCookie = some token ∧
      ∃ session, v.stores.sessions.find? token = some session ∧
        v.now - session.updated ≤ v.stores.sessions.length ∧ session.userId = v'.user.id
  /-- Without a token nobody is known. -/
  unknown : v'.session = none → v'.user = .guest
  /-- A token that comes with the request is that of the visit if it still has a session. -/
  kept : ∀ token session, v.request.cookie? Visiting.sessionCookie = some token →
    v'.stores.sessions.find? token = some session → v'.session = some token

/-- A visit that begins is recognized. -/
theorem recognition {v : Visit} (h : v.stores.Sound) (huser : v.user = .guest)
    (hsession : v.session = none) : v.Recognition v.recognized := by
  cases hcookie : v.request.cookie? Visiting.sessionCookie with
  | none =>
      -- no token comes with the request
      rw [recognized_of_cookie_eq_none hcookie]
      refine ⟨h, fun _ _ hfind => hfind, ⟨_, _, _, rfl, rfl, rfl, rfl⟩, ?_, fun _ => huser, ?_⟩
      · intro token htoken
        rw [hsession] at htoken
        contradiction
      · intro token session htoken
        rw [hcookie] at htoken
        contradiction
  | some token =>
      have hframe := v.stores.sessions.current_frame token v.now
      cases howner : (v.stores.sessions.current token v.now).1 with
      | none =>
          -- the token has no session that lasts, and none at all from now on
          have hrecognized :
              v.recognized = v.withSessions (v.stores.sessions.current token v.now).2 := by
            simp only [recognized, hcookie, howner]
          rw [hrecognized]
          refine ⟨h.current token v.now, fun _ _ => Sessions.find?_of_find?_current,
            ⟨_, _, _, rfl, hframe⟩, ?_, fun _ => huser, ?_⟩
          · intro other hother
            exact absurd (hsession.symm.trans hother) (by simp)
          · intro other session hother hfind
            obtain rfl := Option.some.inj (hcookie.symm.trans hother)
            rw [Sessions.current_of_find?_current hfind] at howner
            contradiction
      | some id =>
          -- sessions belong to accounts, so the owner is found
          obtain ⟨session, hfind, hlasts, rfl⟩ := Sessions.current_eq_some_iff.mp howner
          obtain ⟨user, huser'⟩ := Option.isSome_iff_exists.mp (h.owned token session hfind)
          obtain ⟨hid, account, hmem, haccount⟩ := Directory.mem_of_findById huser'
          have hpositive : 0 < user.id := haccount ▸ h.positive account hmem
          rw [recognized_of_lasting hcookie hfind hlasts huser']
          refine ⟨h.current token v.now, fun _ _ => Sessions.find?_of_find?_current,
            ⟨_, _, _, rfl, hframe⟩, ?_, ?_, ?_⟩
          · intro other hother
            obtain rfl := Option.some.inj hother
            exact ⟨by simpa [User.isLoggedIn] using hpositive, hcookie, session, hfind, hlasts,
              hid.symm⟩
          · intro hnone
            contradiction
          · intro other _ hother _
            exact hcookie.symm.trans hother

variable {v v' w : Visit}

/-- Being recognized leaves it where both stores can be reached. -/
theorem Recognition.reached (h : v.Recognition v') (hv : v.stores.Reached) :
    v'.stores.Reached := by
  obtain ⟨_, _, _, rfl, -⟩ := h.frame
  exact ⟨hv.sessions, hv.directory⟩

/-- A visit of nobody has no token. -/
theorem Recognition.session_eq_none (h : v.Recognition v')
    (hguest : v'.user.isLoggedIn = false) : v'.session = none := by
  cases hsession : v'.session with
  | none => rfl
  | some token =>
      obtain ⟨hlogged, -⟩ := h.known token hsession
      rw [hguest] at hlogged
      contradiction

/-- A token with a session that is not that of the visit has not come with the request. -/
theorem Recognition.not_presented (h : v.Recognition v') {token : Text} {session : Session}
    (hfind : v'.stores.sessions.find? token = some session) (hother : v'.session ≠ some token) :
    v.request.cookie? Visiting.sessionCookie ≠ some token :=
  fun hpresents => hother (h.kept token session hpresents hfind)

/-- A visit of nobody that logs in gets a token of its own. -/
theorem loggedInAs_of_session_eq_none (h : v.session = none) (user : User) :
    v.loggedInAs user =
      { v.withSessions (v.stores.sessions.update none user.id v.now).2 with
        cookies := v.cookies ++ [Visiting.tokenCookie
          (v.stores.sessions.tokenOf v.stores.sessions.issued) (v.settings.sessionHours * 3600)]
        session := some (v.stores.sessions.tokenOf v.stores.sessions.issued)
        user := { user with loggedIn := true } } := by
  simp only [loggedInAs, h, Sessions.update_none]

/-- Making a page keeps stores sound. -/
theorem OnlyPage.sound (h : v.OnlyPage w) (hv : v.stores.Sound) : w.stores.Sound := by
  obtain ⟨views, _, _, rfl⟩ := h
  exact hv.withViews views

/-- Serving a request keeps stores sound. -/
theorem Served.sound (hserved : v'.Served w) (h : v.Recognition v') : w.stores.Sound := by
  cases hserved with
  | page hpage => exact hpage.sound h.sound
  | loggedIn user hguest hfound hverified hpage =>
      obtain ⟨account, hmem, rfl⟩ := Directory.mem_of_findByEmail hfound
      rw [loggedInAs_of_session_eq_none (h.session_eq_none hguest)] at hpage
      exact hpage.sound (h.sound.update_none hmem v'.now)
  | registered user directory hfree hcreated hpage => exact hpage.sound (h.sound.create hcreated)
  | loggedOut hpage =>
      refine hpage.sound ?_
      unfold Visit.loggedOut withSessions
      cases v'.session with
      | none => exact h.sound
      | some token => exact h.sound.remove token

/-- Serving a request leaves it where both stores can be reached. -/
theorem Served.reached (hserved : v'.Served w) (h : v'.stores.Reached) : w.stores.Reached := by
  cases hserved with
  | page hpage => exact hpage.reached h
  | loggedIn user hguest hfound hverified hpage => exact hpage.reached ⟨h.sessions, h.directory⟩
  | registered user directory hfree hcreated hpage =>
      exact hpage.reached ⟨h.sessions, h.directory⟩
  | loggedOut hpage => exact hpage.reached ⟨h.sessions, h.directory⟩

/-- Serving a request changes neither for how long sessions last nor which tokens they get. -/
theorem Served.sessions_frame (hserved : v'.Served w) :
    w.stores.sessions.length = v'.stores.sessions.length ∧
      w.stores.sessions.tokenOf = v'.stores.sessions.tokenOf := by
  cases hserved with
  | page hpage => rw [hpage.sessions_eq]; exact ⟨rfl, rfl⟩
  | loggedIn user hguest hfound hverified hpage =>
      rw [hpage.sessions_eq]
      exact Sessions.update_frame _ _ _ _
  | registered user directory hfree hcreated hpage => rw [hpage.sessions_eq]; exact ⟨rfl, rfl⟩
  | loggedOut hpage =>
      rw [hpage.sessions_eq]
      unfold Visit.loggedOut
      cases v'.session <;> exact ⟨rfl, rfl⟩

/-- How a session comes to be there at the end of a visit: it was there at the beginning, and
has not ended, or a user whose password was verified has been given its token. -/
theorem Served.find? (hserved : v'.Served w) (h : v.Recognition v') (hcookies : v.cookies = [])
    {token : Text} {session : Session} (hfind : w.stores.sessions.find? token = some session) :
    (v.stores.sessions.find? token = some session ∧
      (v.request.cookie? Visiting.sessionCookie = some token →
        Visiting.tokenCookie [] 0 ∉ w.cookies)) ∨
    ∃ user, v.stores.directory.findByEmail v.email = some user ∧
      v.stores.directory.verify user v.password = true ∧
      token = v.stores.sessions.tokenOf v.stores.sessions.issued ∧
      session = { userId := user.id, updated := v.now } ∧ w.session = some token ∧
      Visiting.tokenCookie token (v.settings.sessionHours * 3600) ∈ w.cookies := by
  obtain ⟨sessions, known, presented, heq, -, htokenOf, hissued⟩ := h.frame
  have hsame : v'.cookies = [] := by rw [heq]; exact hcookies
  cases hserved with
  | page hpage =>
      rw [hpage.sessions_eq] at hfind
      refine Or.inl ⟨h.fewer token session hfind, fun _ => ?_⟩
      rw [hpage.cookies_eq, hsame]
      exact List.not_mem_nil
  | registered user directory hfree hcreated hpage =>
      rw [hpage.sessions_eq] at hfind
      refine Or.inl ⟨h.fewer token session hfind, fun _ => ?_⟩
      rw [hpage.cookies_eq]
      show _ ∉ v'.cookies
      rw [hsame]
      exact List.not_mem_nil
  | loggedIn user hguest hfound hverified hpage =>
      have hnone := h.session_eq_none hguest
      rw [loggedInAs_of_session_eq_none hnone] at hpage
      rw [hpage.sessions_eq] at hfind
      change (v'.stores.sessions.update none user.id v'.now).2.find? token = _ at hfind
      rw [Sessions.find?_update_none] at hfind
      split_ifs at hfind with hnew
      · -- the session is the new one
        refine Or.inr ⟨user, ?_⟩
        rw [hpage.session_eq, hpage.cookies_eq, hsame]
        subst heq
        change token = sessions.tokenOf sessions.issued at hnew
        refine ⟨hfound, hverified, ?_, (Option.some.inj hfind).symm, ?_, ?_⟩
        · rw [hnew, htokenOf, hissued]
        · rw [hnew]
        · rw [hnew]
          exact List.mem_singleton.mpr rfl
      · -- the session is an old one, and not that of the visit, which had none
        have hother : v'.session ≠ some token := by simp [hnone]
        exact Or.inl ⟨h.fewer token session hfind,
          fun hpresents => absurd hpresents (h.not_presented hfind hother)⟩
  | loggedOut hpage =>
      rw [hpage.sessions_eq] at hfind
      cases hsession : v'.session with
      | none =>
          simp only [Visit.loggedOut, hsession, Option.map_none, Option.getD_none] at hfind
          have hother : v'.session ≠ some token := by simp [hsession]
          exact Or.inl ⟨h.fewer token session hfind,
            fun hpresents => absurd hpresents (h.not_presented hfind hother)⟩
      | some own =>
          simp only [Visit.loggedOut, hsession, Option.map_some, Option.getD_some] at hfind
          change (v'.stores.sessions.remove own).find? token = _ at hfind
          rw [Sessions.find?_remove] at hfind
          -- the token of the visit has lost its session, so this is another one
          split_ifs at hfind with hne
          have hother : v'.session ≠ some token := by
            rw [hsession]
            exact fun heq => hne (Option.some.inj heq).symm
          exact Or.inl ⟨h.fewer token session hfind,
            fun hpresents => absurd hpresents (h.not_presented hfind hother)⟩

end Visit

end PageServer
