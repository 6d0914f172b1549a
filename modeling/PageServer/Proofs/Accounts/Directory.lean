/-
# Accounts in order

A directory that only ever gets an account for an address that has none, under
the next number, numbers its accounts one after another and has each address
once, in whatever case its letters are written.

* `Directory.newAccount`: the account that is made next
* `Directory.findByEmail_eq_none_iff`: which addresses are free
* `Directory.Orderly`: numbers in order, and no address twice
* `Directory.Orderly.concat`: an account for a free address keeps this
* `Directory.Orderly.findByEmail_eq`, `Directory.Orderly.findById_eq`: how an account is found
-/
import PageServer.Proofs.Accounts.Sessions

namespace PageServer.Directory

/-- The letters of an address, which do not differ by their case. -/
def letters (account : Account) : Text := account.user.email.map Text.lowerAscii

/-- The numbers of the accounts, in the order in which these were made. -/
def numbers (directory : Directory) : List Int := directory.map fun account => account.user.id

/-- The account that is made next for an address and a password. -/
def newAccount (directory : Directory) (email password : Text) : Account :=
  { user := { id := directory.lastId + 1, email, role := User.usualRole }, password }

/-- What is made for an address and a password is the new account, and it comes last. -/
theorem eq_newAccount_of_create {directory directory' : Directory} {email password : Text}
    {user : User} (h : directory.create email password = .ok (user, directory')) :
    directory' = directory ++ [directory.newAccount email password] := by
  simp only [create] at h
  split_ifs at h
  obtain ⟨rfl, rfl⟩ := Prod.mk.inj (Except.ok.inj h)
  rfl

/-- An address is free exactly if no account has the same letters. -/
theorem findByEmail_eq_none_iff {directory : Directory} {email : Text} :
    directory.findByEmail email = none ↔
      ∀ account ∈ directory, letters account ≠ email.map Text.lowerAscii := by
  simp only [findByEmail, Option.map_eq_none_iff, List.find?_eq_none, Text.sameLetters, letters,
    beq_iff_eq]

/-- The accounts are numbered from one on, and no two have the same address. -/
structure Orderly (directory : Directory) : Prop where
  /-- The numbers follow one another. -/
  numbers_eq : directory.numbers = (List.range' 1 directory.length).map Int.ofNat
  /-- No address comes twice. -/
  nodup : (directory.map letters).Nodup

/-- A directory without accounts is orderly. -/
theorem orderly_nil : Orderly [] := ⟨rfl, List.nodup_nil⟩

namespace Orderly

variable {directory : Directory}

/-- The greatest number is that of the last account. -/
theorem lastId_eq (h : directory.Orderly) : directory.lastId = directory.length := by
  have hnumbers := h.numbers_eq
  unfold numbers at hnumbers
  unfold lastId
  rw [hnumbers]
  cases directory.length with
  | zero => rfl
  | succ n =>
      have hmax : ((List.range' 1 (n + 1)).map Int.ofNat).max? = some (Int.ofNat (n + 1)) := by
        rw [List.max?_eq_some_iff]
        refine ⟨List.mem_map_of_mem (List.mem_range'_1.mpr ⟨by omega, by omega⟩), ?_⟩
        intro number hnumber
        obtain ⟨i, hi, rfl⟩ := List.mem_map.mp hnumber
        have hle := (List.mem_range'_1.mp hi).2
        exact Int.ofNat_le.mpr (by omega)
      rw [hmax]
      rfl

/-- **An account for a free address keeps a directory orderly.** -/
theorem concat (h : directory.Orderly) {email : Text} (password : Text)
    (hfree : directory.findByEmail email = none) :
    Orderly (directory ++ [directory.newAccount email password]) where
  numbers_eq := by
    have hnumbers := h.numbers_eq
    have hlast := h.lastId_eq
    unfold numbers at hnumbers ⊢
    rw [List.map_append, hnumbers, List.length_append, List.length_singleton, List.range'_concat,
      List.map_append, List.map_singleton, List.map_singleton, newAccount, hlast, Nat.one_mul,
      Nat.add_comm 1]
    rfl
  nodup := by
    rw [List.map_append, List.map_singleton, List.nodup_append]
    refine ⟨h.nodup, List.nodup_singleton _, ?_⟩
    rintro _ hold _ hnew rfl
    obtain ⟨account, hmem, heq⟩ := List.mem_map.mp hold
    rw [List.mem_singleton] at hnew
    exact findByEmail_eq_none_iff.mp hfree account hmem (heq.trans hnew)

/-- An account is found by its address, in letters of either case. -/
theorem findByEmail_eq (h : directory.Orderly) {account : Account} (hmem : account ∈ directory)
    {email : Text} (hsame : Text.sameLetters account.user.email email = true) :
    directory.findByEmail email = some account.user := by
  unfold findByEmail
  cases hfind : directory.find? fun other => Text.sameLetters other.user.email email with
  | none =>
      rw [List.find?_eq_none] at hfind
      exact absurd hsame (hfind account hmem)
  | some found =>
      -- no other account has these letters
      have hfound := List.find?_some hfind
      rw [Text.sameLetters, beq_iff_eq] at hsame hfound
      have hequal : found = account := List.inj_on_of_nodup_map h.nodup
        (List.mem_of_find?_eq_some hfind) hmem (hfound.trans hsame.symm)
      rw [hequal, Option.map_some]

/-- An account is found by its number. -/
theorem findById_eq (h : directory.Orderly) {account : Account} (hmem : account ∈ directory) :
    directory.findById account.user.id = some account.user := by
  have hnodup : (directory.map fun account => account.user.id).Nodup := by
    have hnumbers := h.numbers_eq
    unfold numbers at hnumbers
    rw [hnumbers]
    exact List.Nodup.map (fun _ _ => Int.ofNat.inj) List.nodup_range'
  unfold findById
  cases hfind : directory.find? fun other => other.user.id = account.user.id with
  | none =>
      rw [List.find?_eq_none] at hfind
      exact absurd (decide_eq_true rfl) (hfind account hmem)
  | some found =>
      have hfound : found.user.id = account.user.id := by
        simpa using List.find?_some hfind
      have hequal : found = account := List.inj_on_of_nodup_map hnodup
        (List.mem_of_find?_eq_some hfind) hmem hfound
      rw [hequal, Option.map_some]

end Orderly

/-- The password of an account is verified for its owner. -/
theorem verify_of_mem {directory : Directory} {account : Account} (hmem : account ∈ directory) :
    directory.verify account.user account.password = true := by
  rw [verify, List.any_eq_true]
  exact ⟨account, hmem, by simp⟩

end PageServer.Directory
