/-
# Sessions and their history

The sessions that are active after any calls, told by the calls and their
answers alone: a token has a session from the last update that gave it out until
the token is removed, or is asked for when the session has lasted too long.
Asking later for an earlier time does not bring a session back.

* `Sessions.Call`, `Sessions.run`: calls in order, with the events that they are
* `Sessions.Lives`: the session of a token by the events
* `Sessions.find?_run`: the session that is active is this one, by induction on the calls
* `Sessions.lives_of_run`: what every later call answers
-/
import PageServer.Proofs.Accounts.Sessions
import PageServer.Proofs.Number.Digits

namespace PageServer.Sessions

variable {sessions : Sessions} {token other : Text} {session : Session}

/-! ## The sessions after one operation -/

/-- A token that has a session keeps it, and any other one is made up. -/
theorem update_some (sessions : Sessions) (token : Text) (id now : Int) :
    ((sessions.find? token).isSome → (sessions.update (some token) id now).1 = token ∧
      (sessions.update (some token) id now).2.issued = sessions.issued) ∧
    (sessions.find? token = none → sessions.update (some token) id now =
      sessions.update none id now) := by
  unfold update find?
  constructor
  · intro hknown
    have hfilter : (some token).filter (fun t => sessions.active.holds t) = some token :=
      Option.filter_eq_some_iff.mpr ⟨rfl, hknown⟩
    rw [hfilter]
    exact ⟨rfl, rfl⟩
  · intro hnone
    have hfilter : (some token).filter (fun t => sessions.active.holds t) = none := by
      simp [Table.holds, hnone]
    rw [hfilter]
    rfl

/-- The token that is given out has a session from then on, and the others have theirs. -/
theorem find?_update (sessions : Sessions) (asked : Option Text) (id now : Int) (other : Text) :
    (sessions.update asked id now).2.find? other =
      if other = (sessions.update asked id now).1 then some { userId := id, updated := now }
      else sessions.find? other := by
  have hactive : (sessions.update asked id now).2.active =
      sessions.active.insert (sessions.update asked id now).1 { userId := id, updated := now } := by
    unfold update
    dsimp only
    split <;> rfl
  rw [find?, hactive]
  split_ifs with h
  · rw [h]
    exact Table.get?_insert_self _ _ _
  · exact Table.get?_insert_of_ne h _ _

/-- A token that is given out was there, or it is the next one to be made up. -/
theorem update_cases (sessions : Sessions) (asked : Option Text) (id now : Int) :
    ((sessions.find? (sessions.update asked id now).1).isSome ∧
        (sessions.update asked id now).2.issued = sessions.issued) ∨
      ((sessions.update asked id now).1 = sessions.tokenOf sessions.issued ∧
        (sessions.update asked id now).2.issued = sessions.issued + 1) := by
  cases asked with
  | none => exact Or.inr ⟨rfl, rfl⟩
  | some token =>
      obtain ⟨hknown, hnew⟩ := sessions.update_some token id now
      cases hfind : sessions.find? token with
      | none =>
          rw [hnew hfind]
          exact Or.inr ⟨rfl, rfl⟩
      | some session =>
          have hsome : (sessions.find? token).isSome := by rw [hfind]; rfl
          obtain ⟨htoken, hissued⟩ := hknown hsome
          rw [htoken]
          exact Or.inl ⟨hsome, hissued⟩

/-- Asking for a token ends its session if this has lasted too long, and no other one. -/
theorem find?_current (sessions : Sessions) (token : Text) (now : Int) (other : Text)
    (session : Session) :
    (sessions.current token now).2.find? other = some session ↔
      sessions.find? other = some session ∧
        ¬ (other = token ∧ sessions.length < now - session.updated) := by
  constructor
  · intro hafter
    have hbefore := find?_of_find?_current hafter
    refine ⟨hbefore, ?_⟩
    rintro ⟨rfl, hlong⟩
    have howner := current_of_find?_current hafter
    obtain ⟨found, hfound, hlasts, -⟩ := current_eq_some_iff.mp howner
    obtain rfl := Option.some.inj (hbefore.symm.trans hfound)
    omega
  · rintro ⟨hbefore, hkept⟩
    rcases sessions.current_snd token now with hsame | ⟨⟨found, hfound, hlong⟩, hremoved⟩
    · rw [hsame]
      exact hbefore
    · rw [hremoved, find?_remove, if_neg]
      · exact hbefore
      · rintro rfl
        obtain rfl := Option.some.inj (hfound.symm.trans hbefore)
        exact hkept ⟨rfl, hlong⟩

/-! ## Calls and events -/

/-- A call of a session store. -/
inductive Call where
  /-- Starts or prolongs a session of a user, with the token that comes with the call. -/
  | update (asked : Option Text) (userId now : Int)
  /-- Asks for the user of a token. -/
  | current (token : Text) (now : Int)
  /-- Ends the session of a token. -/
  | remove (token : Text)
  deriving DecidableEq, Repr

/-- A call with its answer. -/
inductive Event where
  /-- A token was given out for a session of a user that starts or goes on at a time. -/
  | updated (asked : Option Text) (token : Text) (session : Session)
  /-- The user of a token was asked for. -/
  | asked (token : Text) (now : Int) (answer : Option Int)
  /-- The session of a token was ended. -/
  | removed (token : Text)
  deriving DecidableEq, Repr

/-- What a call is, with its answer, and the sessions after it. -/
def call (sessions : Sessions) : Call → Event × Sessions
  | .update asked userId now =>
    let (token, sessions) := sessions.update asked userId now
    (.updated asked token { userId, updated := now }, sessions)
  | .current token now =>
    let (answer, sessions) := sessions.current token now
    (.asked token now answer, sessions)
  | .remove token => (.removed token, sessions.remove token)

/-- The events of calls in order, and the sessions after them. -/
def run (sessions : Sessions) : List Call → List Event × Sessions
  | [] => ([], sessions)
  | first :: calls =>
    let after := sessions.call first
    let later := run after.2 calls
    (after.1 :: later.1, later.2)

/-- One more call comes last. -/
theorem run_concat (sessions : Sessions) (calls : List Call) (last : Call) :
    sessions.run (calls ++ [last]) =
      ((sessions.run calls).1 ++ [((sessions.run calls).2.call last).1],
        ((sessions.run calls).2.call last).2) := by
  induction calls generalizing sessions with
  | nil => rfl
  | cons first calls ih =>
      rw [List.cons_append, run, ih]
      rfl

/-- Calls change neither for how long sessions last nor which tokens they get. -/
theorem run_frame (sessions : Sessions) (calls : List Call) :
    (sessions.run calls).2.length = sessions.length ∧
      (sessions.run calls).2.tokenOf = sessions.tokenOf := by
  induction calls using List.reverseRecOn with
  | nil => exact ⟨rfl, rfl⟩
  | append_singleton calls last ih =>
      rw [run_concat]
      cases last with
      | update asked userId now =>
          obtain ⟨hlength, htokenOf⟩ := (sessions.run calls).2.update_frame asked userId now
          exact ⟨hlength.trans ih.1, htokenOf.trans ih.2⟩
      | current token now =>
          obtain ⟨hlength, htokenOf, -⟩ := (sessions.run calls).2.current_frame token now
          exact ⟨hlength.trans ih.1, htokenOf.trans ih.2⟩
      | remove token => exact ih

/-- No call takes back a token that has been made up. -/
theorem issued_le_call (sessions : Sessions) (last : Call) :
    sessions.issued ≤ (sessions.call last).2.issued := by
  cases last with
  | update asked userId now =>
      rcases sessions.update_cases asked userId now with ⟨-, hsame⟩ | ⟨-, hmore⟩
      · exact hsame.ge
      · exact (Nat.le_succ _).trans hmore.ge
  | current token now => exact (sessions.current_frame token now).2.2.ge
  | remove token => exact Nat.le_refl _

/-! ## The session of a token by the events -/

namespace Event

/-- A token was given out. -/
def Gives (token : Text) : Event → Prop
  | updated _ given _ => given = token
  | asked .. | removed _ => False

/-- The session of a token ended that may last for `length` and was prolonged last at `since`: it
was removed, or asked for when that was too long ago. -/
def Ends (length : Int) (token : Text) (since : Int) : Event → Prop
  | updated .. => False
  | asked t now _ => t = token ∧ length < now - since
  | removed t => t = token

end Event

/-- The last update that gave a token out was for this session, and nothing has ended it since. -/
def Lives (length : Int) (events : List Event) (token : Text) (session : Session) : Prop :=
  ∃ earlier asked later, events = earlier ++ .updated asked token session :: later ∧
    ∀ event ∈ later, ¬ event.Gives token ∧ ¬ event.Ends length token session.updated

/-- At first no token has a session. -/
theorem not_lives_nil (length : Int) (token : Text) (session : Session) :
    ¬ Lives length [] token session := by
  rintro ⟨earlier, asked, later, heq, -⟩
  simp at heq

/-- A token with a session was given out. -/
theorem Lives.exists_gives {length : Int} {events : List Event}
    (h : Lives length events token session) : ∃ event ∈ events, event.Gives token := by
  obtain ⟨earlier, asked, later, rfl, -⟩ := h
  exact ⟨_, List.mem_append_right _ List.mem_cons_self, rfl⟩

/-- After one more event the session is the one that it gave out, or one from before that it has
not ended. -/
theorem lives_concat {length : Int} {events : List Event} {last : Event} :
    Lives length (events ++ [last]) token session ↔
      (∃ asked, last = .updated asked token session) ∨
        Lives length events token session ∧ ¬ last.Gives token ∧
          ¬ last.Ends length token session.updated := by
  constructor
  · rintro ⟨earlier, asked, later, heq, hlater⟩
    rcases List.eq_nil_or_concat' later with rfl | ⟨before, final, rfl⟩
    · obtain ⟨-, hlast⟩ := List.append_inj' heq rfl
      exact Or.inl ⟨asked, List.singleton_inj.mp hlast⟩
    · rw [← List.cons_append, ← List.append_assoc] at heq
      obtain ⟨hevents, hlast⟩ := List.append_inj' heq rfl
      obtain rfl := List.singleton_inj.mp hlast
      obtain ⟨hbefore, hfinal⟩ := List.forall_mem_append.mp hlater
      exact Or.inr ⟨⟨earlier, asked, before, hevents, hbefore⟩,
        hfinal _ (List.mem_singleton_self _)⟩
  · rintro (⟨asked, rfl⟩ | ⟨⟨earlier, asked, later, rfl, hlater⟩, hlast⟩)
    · exact ⟨events, asked, [], rfl, nofun⟩
    · refine ⟨earlier, asked, later ++ [last], by simp, ?_⟩
      exact List.forall_mem_append.mpr ⟨hlater, List.forall_mem_singleton.mpr hlast⟩

/-! ## Runs -/

/-- **The session that a token has after some calls is the one that its events tell.** -/
theorem find?_run (hempty : ∀ token, sessions.find? token = none) (calls : List Call)
    (token : Text) (session : Session) :
    (sessions.run calls).2.find? token = some session ↔
      Lives sessions.length (sessions.run calls).1 token session := by
  induction calls using List.reverseRecOn with
  | nil =>
      have hnone : (sessions.run []).2.find? token = none := hempty token
      rw [hnone]
      exact iff_of_false nofun (not_lives_nil _ _ _)
  | append_singleton calls last ih =>
      obtain ⟨hlength, -⟩ := sessions.run_frame calls
      rw [run_concat, lives_concat, ← ih]
      cases last with
      | update asked userId now =>
          simp only [call, find?_update, Event.Gives, Event.Ends, Event.updated.injEq]
          by_cases htoken : token = ((sessions.run calls).2.update asked userId now).1
          · simp [← htoken, eq_comm]
          · simp [htoken, Ne.symm htoken]
      | current asked now =>
          simp only [call, find?_current, Event.Gives, Event.Ends, hlength, reduceCtorEq,
            exists_false, false_or, not_false_eq_true, true_and, eq_comm (a := token)]
      | remove gone =>
          simp only [call, find?_remove, Event.Gives, Event.Ends, reduceCtorEq, exists_false,
            false_or, not_false_eq_true, true_and]
          by_cases htoken : token = gone
          · simp [htoken]
          · simp [htoken, Ne.symm htoken]

/-- Every token that was given out was made up before. -/
theorem exists_issued_of_gives (hempty : ∀ token, sessions.find? token = none)
    (calls : List Call) {event : Event} (hevent : event ∈ (sessions.run calls).1)
    (hgives : event.Gives token) :
    ∃ i < (sessions.run calls).2.issued, token = sessions.tokenOf i := by
  induction calls using List.reverseRecOn generalizing event with
  | nil => exact absurd hevent List.not_mem_nil
  | append_singleton calls last ih =>
      obtain ⟨-, htokenOf⟩ := sessions.run_frame calls
      rw [run_concat] at hevent ⊢
      have hissued := (sessions.run calls).2.issued_le_call last
      rcases List.mem_append.mp hevent with hbefore | hlast
      · obtain ⟨i, hi, htoken⟩ := ih hbefore hgives
        exact ⟨i, Nat.lt_of_lt_of_le hi hissued, htoken⟩
      · obtain rfl := List.mem_singleton.mp hlast
        cases last with
        | update asked userId now =>
            obtain rfl : ((sessions.run calls).2.update asked userId now).1 = token := hgives
            rcases (sessions.run calls).2.update_cases asked userId now with
              ⟨hknown, -⟩ | ⟨hnew, hmore⟩
            · -- a token that is kept has a session, so it was given out before
              obtain ⟨session, hsession⟩ := Option.isSome_iff_exists.mp hknown
              obtain ⟨earlier, hmem, hearlier⟩ :=
                ((find?_run hempty calls _ session).mp hsession).exists_gives
              obtain ⟨i, hi, htoken⟩ := ih hmem hearlier
              exact ⟨i, Nat.lt_of_lt_of_le hi hissued, htoken⟩
            · rw [htokenOf] at hnew
              exact ⟨_, Nat.lt_of_lt_of_eq (Nat.lt_succ_self _) hmore.symm, hnew⟩
        | current asked now => exact absurd hgives id
        | remove gone => exact absurd hgives id

/-- **A session store against its history.** After any calls on a store that was empty, whose
tokens are all different, at any times:

* a token has a user exactly if the last update that gave it out was for this user, at a time from
  which the session still lasts, and since then the token has neither been removed nor been asked
  for when the session had lasted too long;
* a token has a session exactly if the events tell one;
* a token that has a session is given out again, and none is made up; instead of any other one the
  next token is made up, which no update has given out before; so a token comes back exactly if it
  has a session, unless it happens to be that next one;
* a token that was not made up by the store has no session. -/
theorem lives_of_run {hours : Int} {tokenOf : Nat → Text}
    (hempty : ofHours hours tokenOf = .ok sessions) (htokenOf : Function.Injective tokenOf)
    (calls : List Call) :
    (∀ token now userId, ((sessions.run calls).2.current token now).1 = some userId ↔
      ∃ since, Lives (hours * millisecondsPerHour) (sessions.run calls).1 token ⟨userId, since⟩ ∧
        now - since ≤ hours * millisecondsPerHour) ∧
    (∀ token session, (sessions.run calls).2.find? token = some session ↔
      Lives (hours * millisecondsPerHour) (sessions.run calls).1 token session) ∧
    (∀ token userId now,
      let store := (sessions.run calls).2
      let next := tokenOf store.issued
      ((store.find? token).isSome → (store.update (some token) userId now).1 = token ∧
        (store.update (some token) userId now).2.issued = store.issued) ∧
      (store.find? token = none → (store.update (some token) userId now).1 = next ∧
        (store.update (some token) userId now).2.issued = store.issued + 1) ∧
      (∀ event ∈ (sessions.run calls).1, ¬ event.Gives next) ∧
      (token ≠ next →
        ((store.update (some token) userId now).1 = token ↔ (store.find? token).isSome))) ∧
    (∀ token, (∀ i < (sessions.run calls).2.issued, token ≠ tokenOf i) →
      (sessions.run calls).2.find? token = none) := by
  have hnone := find?_of_ofHours hempty
  obtain ⟨hlength, htokens⟩ := eq_of_ofHours hempty
  obtain ⟨hkeptLength, hkeptTokens⟩ := sessions.run_frame calls
  rw [hlength] at hkeptLength
  rw [htokens] at hkeptTokens
  have hlives : ∀ token session, (sessions.run calls).2.find? token = some session ↔
      Lives (hours * millisecondsPerHour) (sessions.run calls).1 token session := by
    intro token session
    rw [← hlength]
    exact find?_run hnone calls token session
  refine ⟨?_, hlives, ?_, ?_⟩
  · intro token now userId
    rw [current_eq_some_iff, hkeptLength]
    constructor
    · rintro ⟨⟨owner, since⟩, hfind, hlasts, rfl⟩
      exact ⟨since, (hlives token _).mp hfind, hlasts⟩
    · rintro ⟨since, hlive, hlasts⟩
      exact ⟨⟨userId, since⟩, (hlives token _).mpr hlive, hlasts, rfl⟩
  · intro token userId now store next
    obtain ⟨hknown, hnew⟩ := store.update_some token userId now
    have hnext : store.find? token = none →
        (store.update (some token) userId now).1 = next ∧
          (store.update (some token) userId now).2.issued = store.issued + 1 := by
      intro hfind
      rw [hnew hfind, update_none, hkeptTokens]
      exact ⟨rfl, rfl⟩
    refine ⟨hknown, hnext, ?_, ?_⟩
    · intro event hevent hgives
      obtain ⟨i, hi, heq⟩ := exists_issued_of_gives hnone calls hevent hgives
      rw [htokens] at heq
      exact absurd (htokenOf heq) (Nat.ne_of_gt hi)
    · intro hother
      refine ⟨fun hsame => ?_, fun hsome => (hknown hsome).1⟩
      by_contra hgone
      have hfind : store.find? token = none := Option.not_isSome_iff_eq_none.mp hgone
      exact hother (hsame.symm.trans (hnext hfind).1)
  · intro token hforeign
    by_contra hsome
    obtain ⟨session, hsession⟩ := Option.ne_none_iff_exists'.mp hsome
    obtain ⟨event, hevent, hgives⟩ := ((hlives token session).mp hsession).exists_gives
    obtain ⟨i, hi, htoken⟩ := exists_issued_of_gives hnone calls hevent hgives
    rw [htokens] at htoken
    exact hforeign i hi htoken

/-! ## A session that ends when it is asked for -/

/-- A store whose sessions last for an hour and whose tokens are numbers. -/
def numbered : Sessions := { length := 1 * millisecondsPerHour, tokenOf := Text.ofNat }

/-- A session that is given to another user, then asked for too late; at the end somebody comes
with a token of their own. -/
def lateCalls : List Call :=
  [.update none 5 0, .update (some "0") 6 3000000, .current "0" 6000000, .current "0" 6600001,
    .update (some "own") 7 0]

/-- Nobody has the first token after it was asked for too late, even at a time when its session
would have lasted, and the text that a client made up has no session. -/
theorem lives_of_run_sample :
    ofHours 1 Text.ofNat = .ok numbered ∧
      (numbered.run lateCalls).1 =
        [.updated none "0" ⟨5, 0⟩, .updated (some "0") "0" ⟨6, 3000000⟩,
          .asked "0" 6000000 (some 6), .asked "0" 6600001 none,
          .updated (some "own") "1" ⟨7, 0⟩] ∧
      (∀ userId since, ¬ (Lives (1 * millisecondsPerHour) (numbered.run lateCalls).1 "0"
          ⟨userId, since⟩ ∧ 3000001 - since ≤ 1 * millisecondsPerHour)) ∧
      (numbered.run lateCalls).2.find? "own" = none := by
  have hinjective : Function.Injective Text.ofNat := by
    intro m n h
    have hread := congrArg Number.readNat? h
    rw [Number.readNat?_ofNat, Number.readNat?_ofNat] at hread
    exact Option.some.inj hread
  have hempty : ofHours 1 Text.ofNat = .ok numbered := rfl
  obtain ⟨hcurrent, -, -, hforeign⟩ := lives_of_run hempty hinjective lateCalls
  refine ⟨hempty, by decide, ?_, hforeign "own" (by decide)⟩
  intro userId since hlive
  have howner := (hcurrent "0" 3000001 userId).mpr ⟨since, hlive⟩
  have hnobody : ((numbered.run lateCalls).2.current "0" 3000001).1 = none := by
    decide
  rw [hnobody] at howner
  contradiction

end PageServer.Sessions
