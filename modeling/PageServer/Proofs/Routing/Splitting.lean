/-
# What the segments of a path say

A path of some segments says its controller, module and id by how many segments
there are and by which of them are integers. A text of digits is an integer as
long as it does not exceed the greatest one; beyond that it counts as a word.

* `Route.integer?`: the integer that digits stand for, of any size
* `Route.ofSegments`: the route of some segments, given what is an integer
* `Route.number?_eq`: digits up to the greatest integer are numbers
* `Route.ofPath_join`: the route of a path by its segments
-/
import PageServer.Proofs.Number.Shape
import PageServer.Proofs.Routing.Paths

namespace PageServer.Route

/-! ## Digits -/

/-- The integer that a text of digits alone stands for, of any size. -/
def integer? (t : Text) : Option Int :=
  if t ≠ [] ∧ t.all Number.isDigit then some (Nat.ofDigitChars 10 t 0) else none

/-- A natural number is read from digits alone. -/
theorem readNat?_eq (t : Text) : (Number.readNat? t).map Int.ofNat = integer? t := by
  rw [integer?]
  split_ifs with h
  · rw [Number.readNat?_eq_some_iff.mpr ⟨h.1, List.all_eq_true.mp h.2, rfl⟩]
    rfl
  · cases hread : Number.readNat? t with
    | none => rfl
    | some n =>
        obtain ⟨hne, hdigits, -⟩ := Number.readNat?_eq_some_iff.mp hread
        exact absurd ⟨hne, List.all_eq_true.mpr hdigits⟩ h

/-- **Digits are a number up to the greatest integer.** -/
theorem number?_eq (t : Text) :
    number? t = (integer? t).filter fun n => decide (n ≤ Number.maxInt) := by
  rw [number?, readNat?_eq]

/-- Digits that are not too large are the number that they stand for. -/
theorem number?_eq_integer? {t : Text} (h : ∀ n, integer? t = some n → n ≤ Number.maxInt) :
    number? t = integer? t := by
  rw [number?_eq]
  cases hinteger : integer? t with
  | none => rfl
  | some n => rw [Option.filter_some, if_pos (decide_eq_true (h n hinteger))]

/-- Digits that are too large are no number. -/
theorem number?_eq_none {t : Text} {n : Int} (h : integer? t = some n) (hn : ¬ n ≤ Number.maxInt) :
    number? t = none := by
  rw [number?_eq, h, Option.filter_some, if_neg (by simpa using hn)]

/-! ## Segments -/

/-- The route that segments say, where `value?` tells which of them are integers. The first one is
the controller. The second one is the module, unless it is an integer. The id is the second one of
two if it is an integer, the third one of three, as an integer or as a word, and the list of all
from the third one on if there are more. -/
def ofSegments (value? : Text → Option Int) (parts : List Text) : Route where
  controller := parts.head?
  module := parts[1]?.filter fun second => (value? second).isNone
  id :=
    match parts with
    | [_, second] => (value? second).map .int
    | [_, _, third] => some (((value? third).map .int).getD (.str third))
    | _ :: _ :: third :: fourth :: others => some (.list (third :: fourth :: others))
    | _ => none

/-- What segments that are not empty say over no route. -/
theorem overlaySegments_eq {parts : List Text} (h : ∀ part ∈ parts, part ≠ []) :
    overlaySegments {} parts = ofSegments number? parts := by
  have hname : ∀ part ∈ parts, named? part = some part := by
    intro part hpart
    exact named?_eq_some_iff.mpr ⟨h part hpart, rfl⟩
  match parts with
  | [] => rfl
  | [first] => simp [overlaySegments, ofSegments, hname]
  | [first, second] =>
      cases hsecond : number? second <;>
        simp [overlaySegments, ofSegments, idOf, hname, hsecond, Option.filter_some]
  | [first, second, third] =>
      cases hsecond : number? second <;> cases hthird : number? third <;>
        simp [overlaySegments, ofSegments, idOf, hname, hsecond, hthird, Option.filter_some]
  | first :: second :: third :: fourth :: others =>
      cases hsecond : number? second <;>
        simp [overlaySegments, ofSegments, idOf, hname, hsecond, Option.filter_some]

/-- **The path of some segments names the route that they say**, where digits up to the greatest
integer are one. -/
theorem ofPath_join_eq {first : Text} {others : List Text}
    (h : ∀ part ∈ first :: others, IsSegment part) :
    ofPath (Text.join ['/'] (first :: others)) = ofSegments number? (first :: others) := by
  rw [ofPath, overlay, segments_join (List.cons_ne_nil first others) (areSegments_of_forall h),
    overlaySegments_eq fun part hpart => (h part hpart).1]

/-- What segments say depends on the second one, and on the last one of three. -/
theorem ofSegments_congr {f g : Text → Option Int} {parts : List Text}
    (hsecond : ∀ second, parts[1]? = some second → f second = g second)
    (hthird : ∀ first second third, parts = [first, second, third] → f third = g third) :
    ofSegments f parts = ofSegments g parts := by
  match parts with
  | [] => rfl
  | [first] => rfl
  | [first, second] => simp [ofSegments, Option.filter_some, hsecond second rfl]
  | [first, second, third] =>
      simp [ofSegments, Option.filter_some, hsecond second rfl, hthird first second third rfl]
  | first :: second :: third :: fourth :: others =>
      simp [ofSegments, Option.filter_some, hsecond second rfl]

/-- **What a path of segments says.** For every list of segments, at least one:

* its path names the route that they say, where digits up to the greatest integer are one;
* this is the route that they say with digits of any size exactly if neither the second segment nor
  the last one of three is greater. -/
theorem ofPath_join {first : Text} {others : List Text}
    (h : ∀ part ∈ first :: others, IsSegment part) :
    ofPath (Text.join ['/'] (first :: others)) =
      ofSegments (fun t => (integer? t).filter fun n => decide (n ≤ Number.maxInt))
        (first :: others) ∧
    (ofPath (Text.join ['/'] (first :: others)) = ofSegments integer? (first :: others) ↔
      (∀ second n, others.head? = some second → integer? second = some n →
        n ≤ Number.maxInt) ∧
      ∀ second third n, others = [second, third] → integer? third = some n →
        n ≤ Number.maxInt) := by
  rw [ofPath_join_eq h]
  constructor
  · exact ofSegments_congr (fun second _ => number?_eq second) fun _ _ third _ => number?_eq third
  · constructor
    · intro hsame
      refine ⟨fun second n hsecond hn => ?_, fun second third n hothers hn => ?_⟩
      · by_contra hlarge
        have hmodule := congrArg Route.module hsame
        simp [ofSegments, ← List.head?_eq_getElem?, hsecond, Option.filter_some, hn,
          number?_eq_none hn hlarge] at hmodule
      · by_contra hlarge
        subst hothers
        have hid := congrArg Route.id hsame
        simp [ofSegments, hn, number?_eq_none hn hlarge] at hid
    · rintro ⟨hsecond, hthird⟩
      apply ofSegments_congr
      · intro second hin
        rw [List.getElem?_cons_succ, ← List.head?_eq_getElem?] at hin
        exact number?_eq_integer? fun n => hsecond second n hin
      · rintro _ second third hparts
        exact number?_eq_integer? fun n => hthird second third n (List.cons.inj hparts).2

/-- The greatest integer is an id, also with zeros before it. -/
theorem ofPath_join_sample :
    (∀ part ∈ (["users", "edit", "009223372036854775807"] : List Text), IsSegment part) ∧
      ofPath "users/edit/009223372036854775807" =
        { controller := some "users", module := some "edit", id := some (.int Number.maxInt) } := by
  have hsegments :
      ∀ part ∈ (["users", "edit", "009223372036854775807"] : List Text), IsSegment part := by
    intro part hpart
    fin_cases hpart <;> exact ⟨by decide, by decide⟩
  exact ⟨hsegments, (ofPath_join hsegments).1⟩

/-- The number behind it is a module. -/
theorem module_of_digits :
    ¬ ∀ (first : Text) (others : List Text), (∀ part ∈ first :: others, IsSegment part) →
      ofPath (Text.join ['/'] (first :: others)) = ofSegments integer? (first :: others) := by
  intro h
  have hsegments :
      ∀ part ∈ (["users", "9223372036854775808", "a", "b"] : List Text), IsSegment part := by
    intro part hpart
    fin_cases hpart <;> exact ⟨by decide, by decide⟩
  exact absurd (h _ _ hsegments) (by decide +kernel)

end PageServer.Route
