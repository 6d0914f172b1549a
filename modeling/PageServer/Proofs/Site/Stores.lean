/-
# What sessions and accounts keep

While requests are served, every session keeps a token that was made up and an
owner, and every account a positive number.

* `Stores.Sound`: these facts together
* `Stores.Sound.current`, `Stores.Sound.update_none`, …: every operation on sessions and accounts
  keeps them
-/
import PageServer.Proofs.Accounts.Sessions
import PageServer.Site.Visit

namespace PageServer

/-! ## What stores keep -/

namespace Stores

/-- What sessions and accounts keep while requests are served. -/
structure Sound (stores : Stores) : Prop where
  /-- No two tokens that are made up are equal. -/
  injective : Function.Injective stores.sessions.tokenOf
  /-- Every session has a token that was made up. -/
  issued : ∀ token session, stores.sessions.find? token = some session →
    ∃ i < stores.sessions.issued, token = stores.sessions.tokenOf i
  /-- Every session has an owner. -/
  owned : ∀ token session, stores.sessions.find? token = some session →
    (stores.directory.findById session.userId).isSome
  /-- Accounts have positive numbers. -/
  positive : ∀ account ∈ stores.directory, 0 < account.user.id

variable {stores : Stores}

/-- Stores without sessions and accounts are sound. -/
theorem sound_of_empty (hinjective : Function.Injective stores.sessions.tokenOf)
    (hsessions : ∀ token, stores.sessions.find? token = none) (hdirectory : stores.directory = []) :
    stores.Sound where
  injective := hinjective
  issued token session h := by rw [hsessions] at h; contradiction
  owned token session h := by rw [hsessions] at h; contradiction
  positive account h := by rw [hdirectory] at h; contradiction

namespace Sound

/-- The templates do not matter. -/
theorem withViews (h : stores.Sound) (views : Views) : ({ stores with views } : Stores).Sound :=
  ⟨h.injective, h.issued, h.owned, h.positive⟩

/-- Fewer sessions are sound as well. -/
theorem of_fewer (h : stores.Sound) {sessions : Sessions}
    (htokenOf : sessions.tokenOf = stores.sessions.tokenOf)
    (hissued : sessions.issued = stores.sessions.issued)
    (hfewer : ∀ token session, sessions.find? token = some session →
      stores.sessions.find? token = some session) :
    ({ stores with sessions } : Stores).Sound where
  injective := by
    show Function.Injective sessions.tokenOf
    rw [htokenOf]
    exact h.injective
  issued token session hfind := by
    show ∃ i < sessions.issued, token = sessions.tokenOf i
    rw [htokenOf, hissued]
    exact h.issued token session (hfewer token session hfind)
  owned token session hfind := h.owned token session (hfewer token session hfind)
  positive := h.positive

/-- Asking for the user of a token keeps stores sound. -/
theorem current (h : stores.Sound) (token : Text) (now : Int) :
    ({ stores with sessions := (stores.sessions.current token now).2 } : Stores).Sound := by
  obtain ⟨-, htokenOf, hissued⟩ := stores.sessions.current_frame token now
  exact h.of_fewer htokenOf hissued fun _ _ hfind => Sessions.find?_of_find?_current hfind

/-- Ending a session keeps stores sound. -/
theorem remove (h : stores.Sound) (token : Text) :
    ({ stores with sessions := stores.sessions.remove token } : Stores).Sound := by
  refine h.of_fewer rfl rfl fun other session hfind => ?_
  rw [Sessions.find?_remove] at hfind
  split_ifs at hfind
  exact hfind

/-- The token that is made up next is not in use. -/
theorem find?_next (h : stores.Sound) :
    stores.sessions.find? (stores.sessions.tokenOf stores.sessions.issued) = none := by
  cases hfind : stores.sessions.find? (stores.sessions.tokenOf stores.sessions.issued) with
  | none => rfl
  | some session =>
      obtain ⟨i, hi, heq⟩ := h.issued _ _ hfind
      exact absurd (h.injective heq) (Nat.ne_of_gt hi)

/-- A session that starts for the owner of an account keeps stores sound. -/
theorem update_none (h : stores.Sound) {account : Account} (haccount : account ∈ stores.directory)
    (now : Int) :
    ({ stores with sessions :=
        (stores.sessions.update none account.user.id now).2 } : Stores).Sound where
  injective := h.injective
  issued token session hfind := by
    rw [Sessions.find?_update_none] at hfind
    split_ifs at hfind with hnew
    · exact ⟨stores.sessions.issued, Nat.lt_succ_self _, hnew⟩
    · obtain ⟨i, hi, heq⟩ := h.issued token session hfind
      exact ⟨i, Nat.lt_succ_of_lt hi, heq⟩
  owned token session hfind := by
    rw [Sessions.find?_update_none] at hfind
    split_ifs at hfind with hnew
    · obtain rfl := Option.some.inj hfind
      exact Directory.isSome_findById haccount
    · exact h.owned token session hfind
  positive := h.positive

/-- An account that is made keeps stores sound. -/
theorem create (h : stores.Sound) {email password : Text} {user : User} {directory : Directory}
    (hcreated : stores.directory.create email password = .ok (user, directory)) :
    ({ stores with directory } : Stores).Sound := by
  obtain ⟨rfl, hid⟩ := Directory.eq_of_create hcreated
  refine ⟨h.injective, h.issued, ?_, ?_⟩
  · intro token session hfind
    have howned := h.owned token session hfind
    simp only [Directory.findById, Option.isSome_map, List.find?_isSome] at howned ⊢
    obtain ⟨account, hmem, hnumber⟩ := howned
    exact ⟨account, List.mem_append_left _ hmem, hnumber⟩
  · intro account hmem
    rcases List.mem_append.mp hmem with hold | hnew
    · exact h.positive account hold
    · obtain rfl := List.mem_singleton.mp hnew
      have hlast := Directory.lastId_nonneg h.positive
      show 0 < user.id
      omega

end Sound
end Stores

end PageServer
