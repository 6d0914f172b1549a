/-
# Accounts over a run

On a site with the controllers that every site has, a request leaves the
accounts as they are or makes one, for an address that had none. So the accounts
of a fresh site are numbered in the order in which they were made, no two have
the same address, and none is ever changed or removed.

* `Visit.Served.directory`: what serving a request does to the accounts
* `Site.Makes`: a request that makes an account
* `Site.Ready.accounts_handle`: what one request does to the accounts
* `Site.accounts_of_run`: the accounts of a whole run
-/
import PageServer.Proofs.Accounts.Directory
import PageServer.Proofs.Site.Login

namespace PageServer

/-! ## One visit -/

namespace Visit

variable {v w : Visit}

/-- Serving a request leaves the accounts, or makes one for an address that had none. -/
theorem Served.directory (h : v.Served w) :
    w.stores.directory = v.stores.directory ∨
      v.stores.directory.findByEmail v.email = none ∧
        w.stores.directory =
          v.stores.directory ++ [v.stores.directory.newAccount v.email v.password] := by
  cases h with
  | page hpage => exact Or.inl hpage.directory_eq
  | loggedIn user hguest hfound hverified hpage => exact Or.inl hpage.directory_eq
  | loggedOut hpage => exact Or.inl hpage.directory_eq
  | registered user directory hfree hcreated hpage =>
      refine Or.inr ⟨hfree, ?_⟩
      rw [hpage.directory_eq]
      exact Directory.eq_newAccount_of_create hcreated

end Visit

/-! ## One request -/

/-- The address for mail that comes with a request. -/
def Arrival.email (arrival : Arrival) : Text := Text.trim (arrival.request.inputOr "email" "")

/-- The password that comes with a request. -/
def Arrival.password (arrival : Arrival) : Text := arrival.request.inputOr "password" ""

namespace Site

variable {site : Site} {arrival : Arrival}

/-- A request makes an account: the address that was sent had none, and the account with this
address and the password that was sent comes last. -/
structure Makes (site : Site) (arrival : Arrival) (account : Account) : Prop where
  /-- The address was free. -/
  free : site.stores.directory.findByEmail arrival.email = none
  /-- The account is the next one, for the address and the password. -/
  account_eq : account = site.stores.directory.newAccount arrival.email arrival.password
  /-- It comes last, behind the accounts that were there. -/
  directory_eq : (site.handle arrival.request arrival.now).2.stores.directory =
    site.stores.directory ++ [account]

/-- A site with the controllers that every site has, on stores that can be reached. -/
structure Ready (site : Site) : Prop where
  /-- The controllers are those that every site has. -/
  builtin : Site.builtin = .ok site.registry
  /-- Both stores can be reached. -/
  reached : site.stores.Reached

/-- A request that enters a controller takes its course, for whoever has been recognized. -/
theorem Ready.course (h : site.Ready) {controller : Controller} {v : Visit}
    (hentered : site.entered arrival = some (controller, v)) :
    v.Course v.change (Action.run controller.serve v) ∧
      ∃ route, v = (site.visit arrival.request route arrival.now).recognized := by
  obtain ⟨-, -, hcontroller, route, hv⟩ := outcome_of_entered h.reached hentered
  refine ⟨course_of_builtin h.builtin hcontroller ?_, route, hv⟩
  rw [hv]
  exact Visit.reached_recognized h.reached

/-- What a request does to the stores, whoever makes it: it leaves the sessions and the accounts,
or is served. -/
theorem Ready.stores_handle (h : site.Ready) (arrival : Arrival) :
    (∃ views, (site.handle arrival.request arrival.now).2.stores =
      { site.stores with views }) ∨
    ∃ route v w views,
      v = (site.visit arrival.request route arrival.now).recognized ∧ v.Served w ∧
        (site.handle arrival.request arrival.now).2.stores = { w.stores with views } := by
  cases hentered : site.entered arrival with
  | none => exact Or.inl (handle_of_entered_none hentered)
  | some entered =>
      obtain ⟨controller, v⟩ := entered
      obtain ⟨views, hstores⟩ := handle_of_entered h.reached hentered
      obtain ⟨hcourse, route, hv⟩ := h.course hentered
      exact Or.inr ⟨route, v, _, views, hv, hcourse.served, hstores⟩

/-- Answering a request leaves a site ready. -/
theorem Ready.handle (h : site.Ready) (arrival : Arrival) :
    (site.handle arrival.request arrival.now).2.Ready := by
  refine ⟨?_, ?_⟩
  · rw [(handle_frame _ _ _).2]
    exact h.builtin
  · rcases h.stores_handle arrival with
      ⟨views, hstores⟩ | ⟨route, v, w, views, hv, hserved, hstores⟩
    · rw [hstores]
      exact ⟨h.reached.sessions, h.reached.directory⟩
    · have hreached : w.stores.Reached := by
        apply hserved.reached
        rw [hv]
        exact Visit.reached_recognized h.reached
      rw [hstores]
      exact ⟨hreached.sessions, hreached.directory⟩

/-- **A request leaves the accounts as they are, or makes one.** -/
theorem Ready.accounts_handle (h : site.Ready) (arrival : Arrival) :
    (site.handle arrival.request arrival.now).2.stores.directory = site.stores.directory ∨
      ∃ account, site.Makes arrival account := by
  rcases h.stores_handle arrival with
    ⟨views, hstores⟩ | ⟨route, v, w, views, hv, hserved, hstores⟩
  · rw [hstores]
    exact Or.inl rfl
  · obtain ⟨_, _, _, hframe⟩ :=
      (site.visit arrival.request route arrival.now).recognized_frame
    rw [hframe] at hv
    subst hv
    rcases hserved.directory with hsame | ⟨hfree, hmade⟩
    · rw [hstores]
      exact Or.inl hsame
    · refine Or.inr ⟨_, hfree, rfl, ?_⟩
      rw [hstores]
      exact hmade

/-! ## Whole runs -/

/-- The accounts that a request of a run meets. -/
def accounts (site : Site) (arrivals : Nat → Arrival) (n : Nat) : Directory :=
  (site.meeting arrivals n).stores.directory

/-- A site stays ready over a whole run. -/
theorem Ready.meeting (h : site.Ready) (arrivals : Nat → Arrival) (n : Nat) :
    (site.meeting arrivals n).Ready := by
  induction n with
  | zero => exact h
  | succ n ih => exact ih.handle (arrivals n)

/-- The accounts behind a request are those before it, or one more. -/
theorem Ready.accounts_succ (h : site.Ready) (arrivals : Nat → Arrival) (n : Nat) :
    site.accounts arrivals (n + 1) = site.accounts arrivals n ∨
      ∃ account, (site.meeting arrivals n).Makes (arrivals n) account ∧
        site.accounts arrivals (n + 1) = site.accounts arrivals n ++ [account] := by
  rcases (h.meeting arrivals n).accounts_handle (arrivals n) with hsame | ⟨account, hmakes⟩
  · exact Or.inl hsame
  · exact Or.inr ⟨account, hmakes, hmakes.directory_eq⟩

/-- Accounts stay in order over a whole run. -/
theorem Ready.orderly_accounts (h : site.Ready) (hstart : site.stores.directory.Orderly)
    (arrivals : Nat → Arrival) (n : Nat) : (site.accounts arrivals n).Orderly := by
  induction n with
  | zero => exact hstart
  | succ n ih =>
      rcases h.accounts_succ arrivals n with hsame | ⟨account, hmakes, hmore⟩
      · rw [hsame]
        exact ih
      · rw [hmore, hmakes.account_eq]
        exact ih.concat _ hmakes.free

/-- Accounts that are there once stay as they are. -/
theorem Ready.accounts_prefix (h : site.Ready) (arrivals : Nat → Arrival) {m n : Nat}
    (hmn : m ≤ n) : site.accounts arrivals m <+: site.accounts arrivals n := by
  induction hmn with
  | refl => exact List.prefix_rfl
  | step _ ih =>
      refine ih.trans ?_
      rcases h.accounts_succ arrivals _ with hsame | ⟨account, -, hmore⟩
      · rw [hsame]
      · rw [hmore]
        exact List.prefix_append _ _

/-- Each account of a run was made by a request, when there were as many accounts as stand before
it. -/
theorem Ready.exists_makes (h : site.Ready) (hstart : site.stores.directory = [])
    (arrivals : Nat → Arrival) {n i : Nat} {account : Account}
    (hget : (site.accounts arrivals n)[i]? = some account) :
    ∃ k < n, (site.accounts arrivals k).length = i ∧
      (site.meeting arrivals k).Makes (arrivals k) account := by
  induction n with
  | zero =>
      have hnone : site.accounts arrivals 0 = [] := hstart
      rw [hnone] at hget
      contradiction
  | succ n ih =>
      rcases h.accounts_succ arrivals n with hsame | ⟨made, hmakes, hmore⟩
      · rw [hsame] at hget
        obtain ⟨k, hk, hlength, hmakes⟩ := ih hget
        exact ⟨k, Nat.lt_succ_of_lt hk, hlength, hmakes⟩
      · rw [hmore] at hget
        rcases Nat.lt_trichotomy i (site.accounts arrivals n).length with hlt | rfl | hgt
        · rw [List.getElem?_append_left hlt] at hget
          obtain ⟨k, hk, hlength, hmakes⟩ := ih hget
          exact ⟨k, Nat.lt_succ_of_lt hk, hlength, hmakes⟩
        · rw [List.getElem?_concat_length] at hget
          obtain rfl := Option.some.inj hget
          exact ⟨n, Nat.lt_succ_self n, rfl, hmakes⟩
        · rw [List.getElem?_eq_none (by simpa using hgt)] at hget
          contradiction

/-- **Accounts stay unique and are never lost.** Over any run of a fresh site:

* the accounts are numbered from one on, in the order in which they stand;
* no two of them have the same address, in letters of either case;
* the accounts that are there before some request are there before every later one, with the
  number, the address, the role and the password that they had;
* each account was made by a request, which sent its address and its password, at a time when
  there were as many accounts as stand before it. -/
theorem accounts_of_run {hours : Int} {tokenOf : Nat → Text} {site : Site}
    (hfresh : site.Fresh hours tokenOf) (arrivals : Nat → Arrival) (n : Nat) :
    (site.accounts arrivals n).numbers =
        (List.range' 1 (site.accounts arrivals n).length).map Int.ofNat ∧
      ((site.accounts arrivals n).map Directory.letters).Nodup ∧
      (∀ m ≤ n, site.accounts arrivals m <+: site.accounts arrivals n) ∧
      ∀ i account, (site.accounts arrivals n)[i]? = some account →
        ∃ k < n, (site.accounts arrivals k).length = i ∧
          (site.meeting arrivals k).Makes (arrivals k) account := by
  have hready : site.Ready := ⟨hfresh.builtin, hfresh.reached⟩
  have hstart : site.stores.directory.Orderly := by
    rw [hfresh.directory]
    exact Directory.orderly_nil
  obtain ⟨hnumbers, hnodup⟩ := hready.orderly_accounts hstart arrivals n
  exact ⟨hnumbers, hnodup, fun m hmn => hready.accounts_prefix arrivals hmn,
    fun i account hget => hready.exists_makes hfresh.directory arrivals hget⟩

/-! ## A run in which two of three register -/

/-- A form to register with an address. -/
def registerForm (email : Text) : Request :=
  sampleForm "/auth/register"
    [("email", email), ("password", "Secret-12"), ("submit", "1"),
      ("verify_password", "Secret-12")] []

/-- Two register, and somebody tries to do so with the address of the first in capitals. -/
def registrations : Nat → Arrival
  | 0 => { request := registerForm "a@b.cd", now := 0 }
  | 1 => { request := registerForm "A@B.CD", now := 1000 }
  | _ => { request := registerForm "c@d.ef", now := 2000 }

/-- There are two accounts, with the numbers one and two, of which the first was there before. -/
theorem accounts_of_run_sample :
    (sample.accounts registrations 3).length = 2 ∧
      (sample.accounts registrations 3).numbers = [1, 2] ∧
      ((sample.accounts registrations 3).map Directory.letters).Nodup ∧
      sample.accounts registrations 2 <+: sample.accounts registrations 3 ∧
      (sample.accounts registrations 2).length = 1 := by
  have hlength : (sample.accounts registrations 3).length = 2 := by decide +kernel
  obtain ⟨hnumbers, hnodup, hprefix, -⟩ := accounts_of_run fresh_sample registrations 3
  rw [hlength] at hnumbers
  exact ⟨hlength, hnumbers, hnodup, hprefix 2 (by decide), by decide +kernel⟩

end Site
end PageServer
