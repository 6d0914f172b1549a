/-
# One more account

A directory into which users are put and in which accounts are made makes the
next account under a number that no account has. Afterwards this account is
found and its password is verified, and whatever was said of the others is still
said.

* `Directory.Call`, `Directory.run`: users put in and accounts made, in order
* `Directory.findById_insert`, `Directory.findByEmail_insert`, `Directory.verify_insert`:
  what one more account changes
* `Directory.Adds`, `Directory.adds_insert`: a directory with exactly one more account
* `Directory.Room`, `Directory.exists_run`: there are numbers for the accounts still to be made,
  by induction on the calls
* `Directory.create_adds`: the next account after any calls
-/
import PageServer.Proofs.Accounts.Sessions

namespace PageServer.Directory

variable {directory : Directory} {user : User} {email password : Text} {later : Nat}

/-! ## What one more account changes -/

/-- An account that is put in is found by its number if no account before it is. -/
theorem findById_insert (directory : Directory) (user : User) (password : Text) (id : Int) :
    (directory.insert user password).findById id =
      (directory.findById id).or (if user.id = id then some user else none) := by
  unfold insert findById
  rw [List.find?_append, Option.map_or, List.find?_singleton]
  by_cases h : user.id = id <;> simp [h]

/-- It is found by its address if no account before it is. -/
theorem findByEmail_insert (directory : Directory) (user : User) (password email : Text) :
    (directory.insert user password).findByEmail email =
      (directory.findByEmail email).or
        (if Text.sameLetters user.email email then some user else none) := by
  unfold insert findByEmail
  rw [List.find?_append, Option.map_or, List.find?_singleton]
  by_cases h : Text.sameLetters user.email email <;> simp [h]

/-- Its password is verified beside those that were. -/
theorem verify_insert (directory : Directory) (user asked : User) (password given : Text) :
    (directory.insert user password).verify asked given =
      (directory.verify asked given || decide (user.id = asked.id ∧ password = given)) := by
  unfold insert verify
  simp

/-- Under a number that no account has, none is found. -/
theorem findById_eq_none {id : Int} (h : ∀ account ∈ directory, account.user.id ≠ id) :
    directory.findById id = none := by
  rw [findById, Option.map_eq_none_iff, List.find?_eq_none]
  intro account hmem
  simpa using h account hmem

/-- No password is verified for a number that no account has. -/
theorem verify_eq_false (h : ∀ account ∈ directory, account.user.id ≠ user.id)
    (given : Text) : directory.verify user given = false := by
  rw [verify, List.any_eq_false]
  intro account hmem
  simp [h account hmem]

/-- A directory has exactly one account more than another one, that of a user with a password. -/
structure Adds (before after : Directory) (user : User) (password : Text) : Prop where
  /-- The number is positive. -/
  positive : 0 < user.id
  /-- No account has had the number. -/
  fresh : ∀ account ∈ before, account.user.id ≠ user.id
  /-- There is one account more. -/
  length_eq : after.length = before.length + 1
  /-- The number finds the user. -/
  findById_self : after.findById user.id = some user
  /-- Any other number finds what it found. -/
  findById_other : ∀ id, id ≠ user.id → after.findById id = before.findById id
  /-- For the number the password is verified, and no other one. -/
  verify_self : ∀ asked : User, asked.id = user.id →
    ∀ given, after.verify asked given = true ↔ given = password
  /-- For any other number the passwords are verified that were. -/
  verify_other : ∀ asked : User, asked.id ≠ user.id →
    ∀ given, after.verify asked given = before.verify asked given
  /-- An address that found a user finds it still. -/
  findByEmail_found : ∀ email found, before.findByEmail email = some found →
    after.findByEmail email = some found
  /-- An address that found nobody finds the user if it is the user's, in letters of either case. -/
  findByEmail_free : ∀ email, before.findByEmail email = none →
    after.findByEmail email = if Text.sameLetters user.email email then some user else none

/-- **A user with a positive number that no account has is exactly one account more.** -/
theorem adds_insert (password : Text) (hpositive : 0 < user.id)
    (hfresh : ∀ account ∈ directory, account.user.id ≠ user.id) :
    Adds directory (directory.insert user password) user password where
  positive := hpositive
  fresh := hfresh
  length_eq := List.length_append
  findById_self := by
    rw [findById_insert, findById_eq_none hfresh, if_pos rfl, Option.none_or]
  findById_other := by
    intro id hne
    rw [findById_insert, if_neg (Ne.symm hne), Option.or_none]
  verify_self := by
    intro asked hid given
    have hasked : ∀ account ∈ directory, account.user.id ≠ asked.id := by
      rw [hid]
      exact hfresh
    rw [verify_insert, verify_eq_false hasked, Bool.false_or, decide_eq_true_eq]
    exact ⟨fun h => h.2.symm, fun h => ⟨hid.symm, h.symm⟩⟩
  verify_other := by
    intro asked hne given
    rw [verify_insert, decide_eq_false fun h => hne h.1.symm, Bool.or_false]
  findByEmail_found := by
    intro email found hfound
    rw [findByEmail_insert, hfound, Option.some_or]
  findByEmail_free := by
    intro email hnone
    rw [findByEmail_insert, hnone, Option.none_or]

/-! ## The greatest number -/

/-- No account has a greater number than the greatest one. -/
theorem le_lastId {account : Account} (hmem : account ∈ directory) :
    account.user.id ≤ directory.lastId := by
  have hid : account.user.id ∈ directory.map fun account => account.user.id :=
    List.mem_map_of_mem hmem
  unfold lastId
  cases hmax : (directory.map fun account => account.user.id).max? with
  | none =>
      rw [List.max?_eq_none_iff.mp hmax] at hid
      exact absurd hid List.not_mem_nil
  | some greatest => exact (List.max?_eq_some_iff.mp hmax).2 _ hid

/-- The greatest number is within any bound of all numbers that is not negative. -/
theorem lastId_le {bound : Int} (hbound : 0 ≤ bound)
    (h : ∀ account ∈ directory, account.user.id ≤ bound) : directory.lastId ≤ bound := by
  unfold lastId
  cases hmax : (directory.map fun account => account.user.id).max? with
  | none => exact hbound
  | some greatest =>
      obtain ⟨account, hmem, rfl⟩ := List.mem_map.mp (List.max?_mem hmax)
      exact h account hmem

/-- There are numbers left for accounts still to be made. -/
structure Room (later : Nat) (directory : Directory) : Prop where
  /-- All numbers are positive. -/
  positive : ∀ account ∈ directory, 0 < account.user.id
  /-- As many numbers follow the greatest one. -/
  left : directory.lastId + later ≤ Number.maxInt

namespace Room

/-- A directory without accounts has room for as many as there are positive numbers. -/
theorem nil (h : later ≤ Number.maxInt) : Room later [] where
  positive := by
    intro account hmem
    exact absurd hmem List.not_mem_nil
  left := by
    rw [show lastId [] = 0 from rfl, Int.zero_add]
    exact h

/-- A user whose number leaves room can be put in. -/
theorem insert (hroom : Room later directory) (password : Text) (hpositive : 0 < user.id)
    (hleft : user.id + later ≤ Number.maxInt) :
    Room later (directory.insert user password) where
  positive := by
    intro account hmem
    rcases List.mem_append.mp hmem with hold | hnew
    · exact hroom.positive account hold
    · rw [List.mem_singleton.mp hnew]
      exact hpositive
  left := by
    have hbefore := hroom.left
    have hlast := lastId_nonneg hroom.positive
    have hbound : (directory.insert user password).lastId ≤ Number.maxInt - later := by
      refine lastId_le (by omega) ?_
      intro account hmem
      rcases List.mem_append.mp hmem with hold | hnew
      · have hle := le_lastId hold
        omega
      · rw [List.mem_singleton.mp hnew]
        exact Int.le_sub_right_of_add_le hleft
    omega

/-- **Where there is room an account is made**, under a positive number that is greater than all
others, and one number less is left. -/
theorem create (hroom : Room (later + 1) directory) (email password : Text) :
    ∃ user : User, directory.create email password = .ok (user, directory.insert user password) ∧
      user.email = email ∧ user.role = User.usualRole ∧ 0 < user.id ∧
      (∀ account ∈ directory, account.user.id < user.id) ∧
      Room later (directory.insert user password) := by
  have hleft := hroom.left
  have hlast := lastId_nonneg hroom.positive
  push_cast at hleft
  refine ⟨{ id := directory.lastId + 1, email, role := User.usualRole }, ?_, rfl, rfl, ?_, ?_, ?_⟩
  · unfold Directory.create
    rw [if_neg (by omega)]
  · dsimp only
    omega
  · intro account hmem
    have hle := le_lastId hmem
    dsimp only
    omega
  · refine Room.insert ⟨hroom.positive, by omega⟩ password ?_ ?_ <;> dsimp only <;> omega

end Room

/-! ## Calls in order -/

/-- A call that changes a directory. -/
inductive Call where
  /-- Puts a user in with a password. -/
  | insert (user : User) (password : Text)
  /-- Makes an account for an address and a password. -/
  | create (email password : Text)
  deriving DecidableEq, Repr

/-- The directory after a call. -/
def Call.apply (directory : Directory) : Call → Except Abort Directory
  | .insert user password => .ok (directory.insert user password)
  | .create email password => do
      let (_, after) ← directory.create email password
      return after

/-- The directory after calls. -/
def run (directory : Directory) (calls : List Call) : Except Abort Directory :=
  calls.foldlM Call.apply directory

/-- How many accounts are made by calls. -/
def made : List Call → Nat
  | [] => 0
  | .insert _ _ :: calls => made calls
  | .create _ _ :: calls => made calls + 1

/-- The users that are put in have positive numbers, after which there are numbers for all accounts
that are made later on, by these calls and behind them. -/
def Fits (later : Nat) : List Call → Prop
  | [] => True
  | .insert user _ :: calls =>
      0 < user.id ∧ user.id + (made calls + later : Nat) ≤ Number.maxInt ∧ Fits later calls
  | .create _ _ :: calls => Fits later calls

/-- **Calls that fit have a directory**, in which there is room for the accounts made behind them. -/
theorem exists_run {calls : List Call} (hroom : Room (made calls + later) directory)
    (hfits : Fits later calls) :
    ∃ after, run directory calls = .ok after ∧ Room later after := by
  induction calls generalizing directory with
  | nil =>
      refine ⟨directory, rfl, ?_⟩
      rwa [made, Nat.zero_add] at hroom
  | cons call calls ih =>
      cases call with
      | insert user password =>
          obtain ⟨hpositive, hleft, hrest⟩ := hfits
          exact ih (hroom.insert password hpositive hleft) hrest
      | create email password =>
          rw [made, Nat.add_right_comm] at hroom
          obtain ⟨user, hcreate, -, -, -, -, hafter⟩ := hroom.create email password
          obtain ⟨after, hrun, hleft⟩ := ih hafter hfits
          refine ⟨after, ?_, hleft⟩
          unfold run
          rw [List.foldlM_cons, Call.apply, hcreate]
          exact hrun

/-- **The next account is exactly one account more.** After users were put in, with positive numbers
that leave as many numbers as accounts are made later, and accounts were made, in any order, the
directory makes one more account, for any address and password. A directory never has as many
accounts as there are numbers, for it is held in memory. -/
theorem create_adds (calls : List Call) (email password : Text) (hfits : Fits 1 calls)
    (hmade : made calls < Number.maxInt) :
    ∃ before user after, run [] calls = .ok before ∧
      before.create email password = .ok (user, after) ∧
      user.email = email ∧ user.role = User.usualRole ∧ Adds before after user password := by
  have hroom : Room (made calls + 1) [] := Room.nil (by push_cast; omega)
  obtain ⟨before, hrun, hleft⟩ := exists_run hroom hfits
  obtain ⟨user, hcreate, hemail, hrole, hpositive, hfresh, -⟩ := hleft.create email password
  exact ⟨before, user, before.insert user password, hrun, hcreate, hemail, hrole,
    adds_insert password hpositive fun account hmem => (hfresh account hmem).ne⟩

/-- An account made between two users that were put in, and the next one. -/
theorem create_adds_between :
    ∃ before user after,
      run [] [.insert { id := 7, email := "ann@example.com", role := "user" } "Secret1!",
          .create "Bob@example.com" "Secret1!",
          .insert { id := 3, email := "bob@example.com", role := "editor" } "other"] = .ok before ∧
      before.create "cid@example.com" "Secret1!" = .ok (user, after) ∧
      user.email = "cid@example.com" ∧ user.role = User.usualRole ∧
      Adds before after user "Secret1!" :=
  create_adds _ _ _ (by simp [Fits, made, Number.maxInt]) (by simp [made, Number.maxInt])

end PageServer.Directory
