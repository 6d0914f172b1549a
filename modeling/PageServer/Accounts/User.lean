/-
# Users

Who makes a request: a guest, or the owner of an account.

* `User.guest`, `User.isLoggedIn`: who is nobody, and who is known
* `User.description`: what templates can say of a user
-/
import PageServer.Template.Value

namespace PageServer

/-- A user. -/
structure User where
  /-- The number of the account; only accounts with a positive number can be logged in. -/
  id : Int
  /-- The address for mail. -/
  email : Text
  /-- What the user is to the site. -/
  role : Text
  /-- What the user may do. -/
  permissions : List Text := []
  /-- Whether the request comes with a session of the user. -/
  loggedIn : Bool := false
  deriving DecidableEq, Repr, Inhabited

namespace User

/-- A user without an account. -/
def guest : User := { id := 0, email := [], role := [] }

/-- The role of those who register. -/
def usualRole : Text := "user"

/-- The permission of administrators. -/
def adminPermission : Text := "admin_access"

/-- Whether a user may do something. -/
def may (user : User) (permission : Text) : Bool := decide (permission ∈ user.permissions)

/-- Whether a user is an administrator. -/
def isAdmin (user : User) : Bool := user.may adminPermission

/-- Whether a user is logged in to an account. -/
def isLoggedIn (user : User) : Bool := user.loggedIn && decide (0 < user.id)

/-- What templates can say of a user. -/
def description (user : User) : List (Text × Value) :=
  [
    ("LOGGED_IN", .bool user.isLoggedIn),
    ("USER_ID", .int user.id),
    ("USER_EMAIL", .str user.email),
    ("USER_IS_ADMIN", .bool user.isAdmin),
    ("USER_ROLE", .str user.role)
  ]

end User
end PageServer
