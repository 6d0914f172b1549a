/-
# The characters of what fits

A text that fits a pattern as a whole consists of characters of its sets. From a
place to one that a pattern leads to, each character is one of a set of the
pattern: this holds of one character, and goes on over parts behind each other
and repeated ones.

* `Pattern.Within`: a pattern whose sets have only characters of some kind
* `Pattern.Over`: there are only such characters between two places
* `Pattern.over_of_leads`: the places that such a pattern leads to
* `Pattern.forall_mem_of_fits_whole`: a text that fits it as a whole
-/
import PageServer.Proofs.Pattern.Places

namespace PageServer.Pattern

variable {good : Char → Prop} {text : Text} {i j k : Nat}

/-- All sets of a pattern have only characters of some kind. -/
def Within (good : Char → Prop) : Pattern → Prop
  | empty => True
  | one set => ∀ c, set.mem c = true → good c
  | look _ => True
  | cat first second | alt first second => Within good first ∧ Within good second
  | times part _ _ => Within good part

/-- The second place is not before the first, and all characters between them are of some kind. -/
def Over (good : Char → Prop) (text : Text) (i j : Nat) : Prop :=
  i ≤ j ∧ ∀ k, i ≤ k → k < j → ∀ c, text[k]? = some c → good c

theorem Over.refl (i : Nat) : Over good text i i :=
  ⟨Nat.le_refl i, fun _ hik hki => absurd hki (Nat.not_lt.mpr hik)⟩

theorem Over.trans (hij : Over good text i j) (hjk : Over good text j k) : Over good text i k := by
  refine ⟨hij.1.trans hjk.1, fun place hi hk => ?_⟩
  by_cases hj : place < j
  · exact hij.2 place hi hj
  · exact hjk.2 place (Nat.not_lt.mp hj) hk

/-- A relation that leads over such characters does so in several steps. -/
theorem over_of_steps {r : Nat → Nat → Prop} (h : ∀ i j, r i j → Over good text i j) {n : Nat}
    (hsteps : Steps r n i j) : Over good text i j := by
  induction n generalizing i with
  | zero => exact hsteps ▸ Over.refl i
  | succ n ih =>
      obtain ⟨k, hik, hkj⟩ := hsteps
      exact (h i k hik).trans (ih hkj)

/-- **A pattern leads over characters of its sets.** -/
theorem over_of_leads {pattern : Pattern} (h : pattern.Within good)
    (hleads : Leads text pattern i j) : Over good text i j := by
  induction pattern generalizing i j with
  | empty => exact hleads ▸ Over.refl i
  | one set =>
      obtain ⟨rfl, c, hc, hmem⟩ := hleads
      refine ⟨Nat.le_succ i, fun place hi hnext other hother => ?_⟩
      obtain rfl : i = place := by omega
      obtain rfl := Option.some.inj (hc.symm.trans hother)
      exact h _ hmem
  | look l => exact hleads.1 ▸ Over.refl i
  | cat first second ihFirst ihSecond =>
      obtain ⟨k, hfirst, hsecond⟩ := hleads
      exact (ihFirst h.1 hfirst).trans (ihSecond h.2 hsecond)
  | alt first second ihFirst ihSecond => exact hleads.elim (ihFirst h.1) (ihSecond h.2)
  | times part least most ih =>
      obtain ⟨more, -, hsteps⟩ := hleads
      exact over_of_steps (fun _ _ => ih h) hsteps

/-- **A text that fits a pattern as a whole consists of characters of its sets.** -/
theorem forall_mem_of_fits_whole {part : Pattern} (h : part.Within good)
    (hfits : (whole part).fits text = true) : ∀ c ∈ text, good c := by
  obtain ⟨-, hbetween⟩ := over_of_leads h ((fits_whole_iff part text).mp hfits)
  intro c hc
  obtain ⟨k, hk⟩ := List.mem_iff_getElem?.mp hc
  exact hbetween k (Nat.zero_le k) (List.getElem?_eq_some_iff.mp hk).1 c hk

end PageServer.Pattern
