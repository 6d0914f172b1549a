/-
# Sessions

A session lets a user go on without a password for a while. It is known by a
token that is made up when it starts; the token at each place in the row of all
that are made up is given from outside.

* `Sessions.current`: the user of a token
* `Sessions.update`, `Sessions.remove`: start or prolong a session, end it
-/
import PageServer.Abort
import PageServer.Number.Integer
import PageServer.Text.Table

namespace PageServer

/-- Who has a session, and when it was prolonged last. -/
structure Session where
  /-- The number of the account. -/
  userId : Int
  /-- The time in milliseconds. -/
  updated : Int
  deriving DecidableEq, Repr

/-- The sessions of a site. -/
structure Sessions where
  /-- For how long a session lasts, in milliseconds. -/
  length : Int
  /-- The tokens that are made up, one after another. -/
  tokenOf : Nat → Text
  /-- How many tokens have been made up. -/
  issued : Nat := 0
  /-- The sessions by token. -/
  active : Table Session := []

namespace Sessions

/-- The milliseconds of an hour. -/
def millisecondsPerHour : Int := 60 * 60 * 1000

/-- The greatest number of seconds, in either direction, that a length can have. -/
def maxSeconds : Int := Number.maxInt / 1000

/-- No sessions yet, of which each lasts for some hours. -/
def ofHours (hours : Int) (tokenOf : Nat → Text) : Except Abort Sessions :=
  if hours * 3600 < -maxSeconds ∨ maxSeconds < hours * 3600 then .error .sessionLength
  else .ok { length := hours * millisecondsPerHour, tokenOf }

/-- The sessions without that of a token. -/
def remove (sessions : Sessions) (token : Text) : Sessions :=
  { sessions with active := sessions.active.filter fun entry => entry.1 ≠ token }

/-- The user of a token at a time. A session that has lasted too long ends. -/
def current (sessions : Sessions) (token : Text) (now : Int) : Option Int × Sessions :=
  match sessions.active.get? token with
  | some session =>
    if now - session.updated ≤ sessions.length then (some session.userId, sessions)
    else (none, sessions.remove token)
  | none => (none, sessions)

/-- Starts a session of a user at a time, or prolongs that of a token, and gives its token. -/
def update (sessions : Sessions) (token : Option Text) (userId now : Int) : Text × Sessions :=
  let known := token.filter fun t => sessions.active.holds t
  match known with
  | some t => (t, { sessions with active := sessions.active.insert t { userId, updated := now } })
  | none =>
    let t := sessions.tokenOf sessions.issued
    (t, { sessions with
      issued := sessions.issued + 1
      active := sessions.active.insert t { userId, updated := now } })

end Sessions
end PageServer
