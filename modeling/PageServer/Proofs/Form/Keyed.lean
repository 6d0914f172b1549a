/-
# Setting by key

Setting an element in a list puts it in the place of the one with its key, or at
the end if there is none. After a history of elements has been set, each key is
there once, where it was first set, with the element that was set last.

* `Keyed.put`: sets an element
* `Keyed.IsLatest`: what a list has after a history
* `Keyed.IsLatest.put`, `Keyed.IsLatest.foldl`: setting one more, and some more
-/
import Mathlib

namespace PageServer.Keyed

variable {α κ : Type} {key : α → κ} {a b : α} {list history : List α}

/-! ## One element -/

section One

variable [DecidableEq κ]

/-- Some elements with one more, which takes the place of one with its key. -/
def put (key : α → κ) (a : α) : List α → List α
  | [] => [a]
  | other :: rest => if key other = key a then a :: rest else other :: put key a rest

/-- A key that is there stays in its place, and a new one comes last. -/
theorem map_key_put (key : α → κ) (a : α) (list : List α) :
    (put key a list).map key =
      if key a ∈ list.map key then list.map key else list.map key ++ [key a] := by
  induction list with
  | nil => rfl
  | cons other rest ih =>
      rw [put]
      by_cases hkey : key other = key a
      · rw [if_pos hkey, if_pos (by simp [hkey]), List.map_cons, List.map_cons, hkey]
      · rw [if_neg hkey, List.map_cons, ih, List.map_cons]
        have hmem : key a ∈ key other :: rest.map key ↔ key a ∈ rest.map key :=
          List.mem_cons.trans (or_iff_right (Ne.symm hkey))
        simp only [hmem]
        split_ifs <;> rfl

theorem put_of_not_mem (h : key a ∉ list.map key) : put key a list = list ++ [a] := by
  induction list with
  | nil => rfl
  | cons other rest ih =>
      obtain ⟨hother, hrest⟩ := List.ne_and_not_mem_of_not_mem_cons h
      rw [put, if_neg (Ne.symm hother), ih hrest, List.cons_append]

/-- Setting an element brings no other one. -/
theorem mem_of_mem_put (h : b ∈ put key a list) : b = a ∨ b ∈ list := by
  induction list with
  | nil => exact .inl (List.mem_singleton.mp h)
  | cons other rest ih =>
      rw [put] at h
      split_ifs at h
      · exact (List.mem_cons.mp h).imp_right (List.mem_cons_of_mem other)
      · rcases List.mem_cons.mp h with rfl | hrest
        · exact .inr List.mem_cons_self
        · exact (ih hrest).imp_right (List.mem_cons_of_mem other)

/-- Where no key is there twice, the other elements have other keys. -/
theorem key_ne_of_mem_put (hlist : (list.map key).Nodup) (h : b ∈ put key a list) (hne : b ≠ a) :
    b ∈ list ∧ key b ≠ key a := by
  induction list with
  | nil => exact absurd (List.mem_singleton.mp h) hne
  | cons other rest ih =>
      obtain ⟨hother, hrest⟩ := List.nodup_cons.mp hlist
      rw [put] at h
      split_ifs at h with hkey
      · have hmem : b ∈ rest := (List.mem_cons.mp h).resolve_left hne
        refine ⟨List.mem_cons_of_mem other hmem, fun hb => hother ?_⟩
        rw [hkey, ← hb]
        exact List.mem_map_of_mem hmem
      · rcases List.mem_cons.mp h with rfl | hmem
        · exact ⟨List.mem_cons_self, hkey⟩
        · obtain ⟨hold, hb⟩ := ih hrest hmem
          exact ⟨List.mem_cons_of_mem other hold, hb⟩

end One

/-! ## Each once -/

section Once

variable [BEq κ] [LawfulBEq κ]

/-- One more key comes last if it is new. -/
theorem eraseDups_concat (keys : List κ) (k : κ) :
    (keys ++ [k]).eraseDups = if k ∈ keys then keys.eraseDups else keys.eraseDups ++ [k] := by
  rw [List.eraseDups_append]
  by_cases h : k ∈ keys
  · have hrest : [k].removeAll keys = [] := by simp [List.removeAll, h]
    rw [hrest, if_pos h, List.eraseDups_nil, List.append_nil]
  · have hrest : [k].removeAll keys = [k] := by simp [List.removeAll, h]
    rw [hrest, if_neg h]
    rfl

theorem nodup_eraseDups (keys : List κ) : keys.eraseDups.Nodup := by
  induction keys using List.reverseRecOn with
  | nil => exact List.nodup_nil
  | append_singleton keys k ih =>
      rw [eraseDups_concat]
      split_ifs with h
      · exact ih
      · refine List.nodup_append.mpr ⟨ih, List.nodup_singleton k, ?_⟩
        intro other hother k' hk' heq
        obtain rfl := List.mem_singleton.mp hk'
        rw [heq, List.mem_eraseDups] at hother
        exact h hother

end Once

/-! ## Histories -/

/-- An element is the last of a history with its key. -/
def IsLast (key : α → κ) (history : List α) (a : α) : Prop :=
  ∃ before after, history = before ++ a :: after ∧ ∀ b ∈ after, key b ≠ key a

/-- What a list has after the elements of a history have been set: each key once, in the order in
which they were first set, with the last element of that key. -/
structure IsLatest [BEq κ] (key : α → κ) (history list : List α) : Prop where
  keys : list.map key = (history.map key).eraseDups
  last : ∀ a ∈ list, IsLast key history a

/-- No key is there twice. -/
theorem IsLatest.nodup [BEq κ] [LawfulBEq κ] (h : IsLatest key history list) :
    (list.map key).Nodup := by
  rw [h.keys]
  exact nodup_eraseDups _

variable [DecidableEq κ] [BEq κ] [LawfulBEq κ]

/-- The keys of a list after one more element, in the order in which they were first set. -/
theorem map_key_put_eq_eraseDups {keys : List κ} (h : list.map key = keys.eraseDups) (a : α) :
    (put key a list).map key = (keys ++ [key a]).eraseDups := by
  rw [map_key_put, eraseDups_concat, h]
  by_cases hmem : key a ∈ keys
  · rw [if_pos hmem, if_pos (List.mem_eraseDups.mpr hmem)]
  · rw [if_neg hmem, if_neg (mt List.mem_eraseDups.mp hmem)]

namespace IsLatest

/-- **Setting one more element goes on with the history.** -/
theorem put (h : IsLatest key history list) (a : α) :
    IsLatest key (history ++ [a]) (put key a list) := by
  constructor
  · rw [List.map_append]
    exact map_key_put_eq_eraseDups h.keys a
  · intro b hb
    by_cases hne : b = a
    · exact ⟨history, [], by rw [hne], nofun⟩
    · obtain ⟨hold, hkey⟩ := key_ne_of_mem_put h.nodup hb hne
      obtain ⟨before, after, hhistory, hafter⟩ := h.last b hold
      refine ⟨before, after ++ [a], by rw [hhistory, List.append_assoc]; rfl, fun c hc => ?_⟩
      rcases List.mem_append.mp hc with hc | hc
      · exact hafter c hc
      · rw [List.mem_singleton.mp hc]
        exact Ne.symm hkey

/-- **So does setting some more.** -/
theorem foldl (h : IsLatest key history list) (more : List α) :
    IsLatest key (history ++ more) (more.foldl (fun list a => Keyed.put key a list) list) := by
  induction more generalizing history list with
  | nil =>
      rw [List.append_nil]
      exact h
  | cons a rest ih =>
      have hrest := ih (h.put a)
      rw [List.append_assoc] at hrest
      exact hrest

end IsLatest

end PageServer.Keyed
