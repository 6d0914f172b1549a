/-
# What a session store holds

The sessions that are active after each operation, by token, and the accounts
that are found after one has been made.

* `Sessions.current_eq_some_iff`: a token has a user while its session lasts
* `Sessions.find?_update_none`: a session under a token that has just been made up
* `Directory.eq_of_create`: the accounts after one has been made
-/
import Mathlib
import PageServer.Accounts.Directory
import PageServer.Accounts.Sessions

namespace PageServer

/-! ## Tables -/

/-- What a name has after some entries have been left out. -/
theorem Table.get?_filter_ne {α : Type} (gone name : Text) (table : Table α) :
    Table.get? name (table.filter fun entry => entry.1 ≠ gone) =
      if name = gone then none else table.get? name := by
  induction table with
  | nil => simp [Table.get?]
  | cons entry rest ih =>
      obtain ⟨other, thing⟩ := entry
      by_cases hgone : other = gone
      · rw [List.filter_cons_of_neg (by simpa using hgone), ih, Table.get?]
        by_cases hname : name = gone
        · simp [hname]
        · simp [hname, hgone]
      · rw [List.filter_cons_of_pos (by simpa using hgone), Table.get?, Table.get?, ih]
        by_cases hname : name = other
        · simp [hname, hgone]
        · simp [hname]

namespace Sessions

/-! ## Sessions by token -/

/-- The session of a token, if it is active. -/
def find? (sessions : Sessions) (token : Text) : Option Session := sessions.active.get? token

/-- After a token has been removed, the others have their sessions. -/
theorem find?_remove (sessions : Sessions) (token other : Text) :
    (sessions.remove token).find? other =
      if other = token then none else sessions.find? other :=
  Table.get?_filter_ne token other sessions.active

/-- The sessions at first: for how long they last, and which tokens they get. -/
theorem eq_of_ofHours {hours : Int} {tokenOf : Nat → Text} {sessions : Sessions}
    (h : ofHours hours tokenOf = .ok sessions) :
    sessions.length = hours * millisecondsPerHour ∧ sessions.tokenOf = tokenOf := by
  unfold ofHours at h
  split_ifs at h
  obtain rfl := Except.ok.inj h
  exact ⟨rfl, rfl⟩

/-- At first no token has a session. -/
theorem find?_of_ofHours {hours : Int} {tokenOf : Nat → Text} {sessions : Sessions}
    (h : ofHours hours tokenOf = .ok sessions) (token : Text) : sessions.find? token = none := by
  unfold ofHours at h
  split_ifs at h
  obtain rfl := Except.ok.inj h
  rfl

/-- A token has a user exactly while its session lasts. -/
theorem current_eq_some_iff {sessions : Sessions} {token : Text} {now id : Int} :
    (sessions.current token now).1 = some id ↔
      ∃ session, sessions.find? token = some session ∧
        now - session.updated ≤ sessions.length ∧ session.userId = id := by
  unfold current find?
  cases sessions.active.get? token with
  | none => simp
  | some session =>
      by_cases h : now - session.updated ≤ sessions.length
      · simp only [if_pos h, Option.some.injEq]
        exact ⟨fun hid => ⟨session, rfl, h, hid⟩, fun ⟨_, rfl, _, hid⟩ => hid⟩
      · simp only [if_neg h, Option.some.injEq, reduceCtorEq, false_iff]
        rintro ⟨_, rfl, hlast, -⟩
        exact h hlast

/-- Asking for the user of a token changes nothing, or removes the token, whose session has lasted
too long. -/
theorem current_snd (sessions : Sessions) (token : Text) (now : Int) :
    (sessions.current token now).2 = sessions ∨
      (∃ session, sessions.find? token = some session ∧
        sessions.length < now - session.updated) ∧
      (sessions.current token now).2 = sessions.remove token := by
  unfold current find?
  cases sessions.active.get? token with
  | none => exact Or.inl rfl
  | some session =>
      by_cases h : now - session.updated ≤ sessions.length
      · exact Or.inl (by simp only [if_pos h])
      · refine Or.inr ⟨⟨session, rfl, Int.not_le.mp h⟩, ?_⟩
        simp only [if_neg h]

/-- A session that is still there after a token was asked for was there before. -/
theorem find?_of_find?_current {sessions : Sessions} {token other : Text} {now : Int}
    {session : Session} (h : (sessions.current token now).2.find? other = some session) :
    sessions.find? other = some session := by
  rcases sessions.current_snd token now with hsame | ⟨-, hremoved⟩
  · rwa [hsame] at h
  · rw [hremoved, find?_remove] at h
    split_ifs at h
    exact h

/-- A token whose session is still there after it was asked for has a user. -/
theorem current_of_find?_current {sessions : Sessions} {token : Text} {now : Int}
    {session : Session} (h : (sessions.current token now).2.find? token = some session) :
    (sessions.current token now).1 = some session.userId := by
  have hbefore := find?_of_find?_current h
  rw [current_eq_some_iff]
  refine ⟨session, hbefore, ?_, rfl⟩
  by_contra hlong
  have hgone : (sessions.current token now).2 = sessions.remove token := by
    unfold find? at hbefore
    simp [current, hbefore, hlong]
  rw [hgone, find?_remove, if_pos rfl] at h
  simp at h

/-- What asking for the user of a token leaves alone. -/
theorem current_frame (sessions : Sessions) (token : Text) (now : Int) :
    (sessions.current token now).2.length = sessions.length ∧
      (sessions.current token now).2.tokenOf = sessions.tokenOf ∧
      (sessions.current token now).2.issued = sessions.issued := by
  rcases sessions.current_snd token now with hsame | ⟨-, hremoved⟩
  · rw [hsame]
    exact ⟨rfl, rfl, rfl⟩
  · rw [hremoved]
    exact ⟨rfl, rfl, rfl⟩

/-- What starting or prolonging a session leaves alone. -/
theorem update_frame (sessions : Sessions) (token : Option Text) (id now : Int) :
    (sessions.update token id now).2.length = sessions.length ∧
      (sessions.update token id now).2.tokenOf = sessions.tokenOf := by
  unfold update
  dsimp only
  split <;> exact ⟨rfl, rfl⟩

/-- Without a token a session starts under one that is made up for it. -/
theorem update_none (sessions : Sessions) (id now : Int) :
    sessions.update none id now =
      (sessions.tokenOf sessions.issued,
        { sessions with
          issued := sessions.issued + 1
          active := sessions.active.insert (sessions.tokenOf sessions.issued)
            { userId := id, updated := now } }) := rfl

/-- Such a session is there beside those that were there. -/
theorem find?_update_none (sessions : Sessions) (id now : Int) (token : Text) :
    (sessions.update none id now).2.find? token =
      if token = sessions.tokenOf sessions.issued then some { userId := id, updated := now }
      else sessions.find? token := by
  rw [update_none, find?]
  split_ifs with h
  · rw [h, Table.get?_insert_self]
  · exact Table.get?_insert_of_ne h _ _

end Sessions

namespace Directory

/-! ## Accounts by number -/

/-- The first account with a number is one of the accounts. -/
theorem mem_of_findById {directory : Directory} {id : Int} {user : User}
    (h : directory.findById id = some user) :
    user.id = id ∧ ∃ account ∈ directory, account.user = user := by
  obtain ⟨account, hfind, rfl⟩ := Option.map_eq_some_iff.mp h
  exact ⟨by simpa using List.find?_some hfind, account, List.mem_of_find?_eq_some hfind, rfl⟩

/-- The first account with an address is one of the accounts. -/
theorem mem_of_findByEmail {directory : Directory} {email : Text} {user : User}
    (h : directory.findByEmail email = some user) :
    ∃ account ∈ directory, account.user = user := by
  obtain ⟨account, hfind, rfl⟩ := Option.map_eq_some_iff.mp h
  exact ⟨account, List.mem_of_find?_eq_some hfind, rfl⟩

/-- Each account is found by its number, or another one with this number is. -/
theorem isSome_findById {directory : Directory} {account : Account} (h : account ∈ directory) :
    (directory.findById account.user.id).isSome := by
  rw [findById, Option.isSome_map, List.find?_isSome]
  exact ⟨account, h, by simp⟩

/-- The greatest number of an account is not negative if no number is. -/
theorem lastId_nonneg {directory : Directory} (h : ∀ account ∈ directory, 0 < account.user.id) :
    0 ≤ directory.lastId := by
  unfold lastId
  cases hmax : (directory.map fun account => account.user.id).max? with
  | none => simp
  | some id =>
      obtain ⟨account, hmem, rfl⟩ := List.mem_map.mp (List.max?_mem hmax)
      exact (h account hmem).le

/-- An account that is made comes last, and has a positive number if all others have one. -/
theorem eq_of_create {directory directory' : Directory} {email password : Text} {user : User}
    (h : directory.create email password = .ok (user, directory')) :
    directory' = directory ++ [⟨user, password⟩] ∧ user.id = directory.lastId + 1 := by
  simp only [create] at h
  split_ifs at h
  obtain ⟨rfl, rfl⟩ := Prod.mk.inj (Except.ok.inj h)
  exact ⟨rfl, rfl⟩

end Directory
end PageServer
