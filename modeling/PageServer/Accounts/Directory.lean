/-
# The directory of accounts

The accounts of a site in the order in which they were made.

* `Directory.findById`, `Directory.findByEmail`: the first account with a number or an address
* `Directory.create`: makes an account with a number of its own
* `Directory.verify`: whether a password is that of an account
-/
import PageServer.Abort
import PageServer.Accounts.User
import PageServer.Number.Integer
import PageServer.Text.Lower

namespace PageServer

/-- A user with the password that proves it. -/
structure Account where
  /-- The user. -/
  user : User
  /-- The password. -/
  password : Text
  deriving DecidableEq, Repr

/-- The accounts in the order in which they were made. -/
abbrev Directory := List Account

namespace Directory

/-- The directory with one more account. -/
def insert (directory : Directory) (user : User) (password : Text) : Directory :=
  directory ++ [⟨user, password⟩]

/-- The first account with a number. -/
def findById (directory : Directory) (id : Int) : Option User :=
  (directory.find? fun account => account.user.id = id).map Account.user

/-- The first account with an address for mail, in letters of either case. -/
def findByEmail (directory : Directory) (email : Text) : Option User :=
  (directory.find? fun account => Text.sameLetters account.user.email email).map Account.user

/-- The greatest number of an account; without accounts it is zero. -/
def lastId (directory : Directory) : Int :=
  ((directory.map fun account => account.user.id).max?).getD 0

/-- Makes an account whose number follows the greatest one. -/
def create (directory : Directory) (email password : Text) : Except Abort (User × Directory) :=
  let id := directory.lastId + 1
  if Number.maxInt < id then .error .noFreeNumber
  else
    let user : User := { id, email, role := User.usualRole }
    .ok (user, directory.insert user password)

/-- Whether a password is that of an account with the number of a user. -/
def verify (directory : Directory) (user : User) (password : Text) : Bool :=
  directory.any fun account => account.user.id = user.id && account.password = password

end Directory
end PageServer
