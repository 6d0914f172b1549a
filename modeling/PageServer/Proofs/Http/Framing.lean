/-
# Reading a request piece by piece

The bytes of a request come in pieces, and after each one it is told how far
the reading has come. What is told once is final: a header that has ended ends
there whatever follows, and one that has not ended within the limit ends behind
it. So it does not matter where the stream is cut.

* `headerEnd?_eq_some_iff`: the body starts behind the first empty line
* `progress_append`: more bytes do not change a verdict
* `verdictOn_eq`: the verdict on pieces is the one on all bytes at once
* `checkedProgress?_eq`: no sum or difference on the way leaves the sizes
* `progress_final`: all of it, and what a complete request has
-/
import Mathlib
import PageServer.Http.Framing

namespace PageServer.Http

/-! ## Where the body starts -/

/-- The end of the last line of a header and the empty line behind it. -/
def emptyLine : Bytes := [0x0D, 0x0A, 0x0D, 0x0A]

theorem headerEnd?_cons (b : UInt8) (rest : Bytes) :
    headerEnd? (b :: rest) =
      if emptyLine <+: b :: rest then some 4 else (headerEnd? rest).map fun n => n + 1 := rfl

/-- Too few bytes do not end with an empty line. -/
theorem le_length_of_suffix {head : Bytes} (h : emptyLine <:+ head) : 4 ≤ head.length :=
  h.length_le

/-- **The body starts behind the first empty line.** -/
theorem headerEnd?_eq_some_iff {received : Bytes} {size : Nat} :
    headerEnd? received = some size ↔
      size ≤ received.length ∧ emptyLine <:+ received.take size ∧
        ∀ n < size, ¬ emptyLine <:+ received.take n := by
  induction received generalizing size with
  | nil =>
      have hnone : ¬ emptyLine <:+ ([] : Bytes) := fun h => by simpa using le_length_of_suffix h
      simp [headerEnd?, hnone]
  | cons b rest ih =>
      rw [headerEnd?_cons]
      by_cases hstart : emptyLine <+: b :: rest
      · -- the bytes begin with the empty line, and it is the first one
        have htake : (b :: rest).take 4 = emptyLine := (List.prefix_iff_eq_take.mp hstart).symm
        have hearly : ∀ n < 4, ¬ emptyLine <:+ (b :: rest).take n := by
          intro n hn h
          have hlength := le_length_of_suffix h
          rw [List.length_take] at hlength
          omega
        rw [if_pos hstart, Option.some.injEq]
        constructor
        · rintro rfl
          exact ⟨hstart.length_le, htake ▸ List.suffix_rfl, hearly⟩
        · rintro ⟨-, hend, hfirst⟩
          rcases Nat.lt_trichotomy size 4 with hlt | heq | hgt
          · exact absurd hend (hearly size hlt)
          · exact heq.symm
          · exact absurd (htake ▸ List.suffix_rfl) (hfirst 4 hgt)
      · -- an empty line ends where it ends behind the first byte
        have hbehind : ∀ n, emptyLine <:+ (b :: rest).take (n + 1) ↔ emptyLine <:+ rest.take n := by
          intro n
          rw [List.take_succ_cons, List.suffix_cons_iff, or_iff_right]
          rintro heq
          apply hstart
          rw [heq, ← List.take_succ_cons]
          exact List.take_prefix _ _
        rw [if_neg hstart, Option.map_eq_some_iff]
        constructor
        · rintro ⟨n, hn, rfl⟩
          obtain ⟨hle, hend, hfirst⟩ := ih.mp hn
          refine ⟨Nat.succ_le_succ hle, (hbehind n).mpr hend, fun m hm h => ?_⟩
          cases m with
          | zero => simpa using le_length_of_suffix h
          | succ m => exact hfirst m (by omega) ((hbehind m).mp h)
        · rintro ⟨hle, hend, hfirst⟩
          cases size with
          | zero => simpa using le_length_of_suffix hend
          | succ n =>
              refine ⟨n, ih.mpr ⟨Nat.le_of_succ_le_succ hle, (hbehind n).mp hend, ?_⟩, rfl⟩
              exact fun m hm h => hfirst (m + 1) (by omega) ((hbehind m).mpr h)

/-- The header ends within the bytes. -/
theorem headerEnd?_le {received : Bytes} {size : Nat} (h : headerEnd? received = some size) :
    size ≤ received.length := (headerEnd?_eq_some_iff.mp h).1

/-- Bytes up to some number end a header just if they do so with more bytes behind them. -/
theorem headerEnd?_append_iff {received : Bytes} {size : Nat} (hsize : size ≤ received.length)
    (more : Bytes) :
    headerEnd? (received ++ more) = some size ↔ headerEnd? received = some size := by
  have htake : ∀ n ≤ size, (received ++ more).take n = received.take n :=
    fun n hn => List.take_append_of_le_length (hn.trans hsize)
  have hlength : size ≤ (received ++ more).length := by
    rw [List.length_append]
    omega
  rw [headerEnd?_eq_some_iff, headerEnd?_eq_some_iff, htake size le_rfl,
    iff_true_intro hsize, iff_true_intro hlength]
  constructor <;> rintro ⟨-, hend, hfirst⟩ <;> refine ⟨trivial, hend, fun n hn h => ?_⟩
  · exact hfirst n hn (by rwa [htake n hn.le])
  · exact hfirst n hn (by rwa [htake n hn.le] at h)

/-- A header that has ended ends there whatever follows. -/
theorem headerEnd?_append {received : Bytes} {size : Nat} (h : headerEnd? received = some size)
    (more : Bytes) : headerEnd? (received ++ more) = some size :=
  (headerEnd?_append_iff (headerEnd?_le h) more).mpr h

/-- A header that has not ended ends behind the bytes that are there. -/
theorem length_lt_of_headerEnd?_append {received more : Bytes} {size : Nat}
    (hnone : headerEnd? received = none) (h : headerEnd? (received ++ more) = some size) :
    received.length < size := by
  by_contra hle
  rw [headerEnd?_append_iff (not_lt.mp hle), hnone] at h
  contradiction

/-! ## More bytes -/

/-- The verdict once the header has ended. -/
theorem progress_of_headerEnd? {received : Bytes} {size : Nat} (limit : Nat)
    (h : headerEnd? received = some size) :
    progress received limit =
      if limit < size ∨ limit - size < declaredLength (received.take size) then .tooLarge
      else if size + declaredLength (received.take size) ≤ received.length then .complete
      else .incomplete := by
  rw [progress, h]

/-- The verdict while the header has not ended. -/
theorem progress_of_headerEnd?_none {received : Bytes} (limit : Nat)
    (h : headerEnd? received = none) :
    progress received limit = if limit < received.length then .tooLarge else .incomplete := by
  rw [progress, h]

/-- **A verdict is final: more bytes do not change it.** -/
theorem progress_append {received : Bytes} {limit : Nat} (more : Bytes)
    (h : progress received limit ≠ .incomplete) :
    progress (received ++ more) limit = progress received limit := by
  cases hend : headerEnd? received with
  | some size =>
      have htake : (received ++ more).take size = received.take size :=
        List.take_append_of_le_length (headerEnd?_le hend)
      rw [progress_of_headerEnd? limit hend] at h ⊢
      rw [progress_of_headerEnd? limit (headerEnd?_append hend more), htake]
      by_cases hlarge : limit < size ∨ limit - size < declaredLength (received.take size)
      · rw [if_pos hlarge, if_pos hlarge]
      · rw [if_neg hlarge] at h ⊢
        rw [if_neg hlarge]
        have hthere : size + declaredLength (received.take size) ≤ received.length := by
          by_contra hmissing
          exact h (if_neg hmissing)
        have hstill : size + declaredLength (received.take size) ≤ (received ++ more).length := by
          rw [List.length_append]
          omega
        rw [if_pos hthere, if_pos hstill]
  | none =>
      rw [progress_of_headerEnd?_none limit hend] at h ⊢
      have hlarge : limit < received.length := by
        by_contra hsmall
        exact h (if_neg hsmall)
      rw [if_pos hlarge]
      -- the limit has been passed, so a header that ends later is too long
      cases hlater : headerEnd? (received ++ more) with
      | some size =>
          have hbehind := length_lt_of_headerEnd?_append hend hlater
          rw [progress_of_headerEnd? limit hlater, if_pos (Or.inl (hlarge.trans hbehind))]
      | none =>
          rw [progress_of_headerEnd?_none limit hlater, if_pos]
          rw [List.length_append]
          omega

/-! ## Pieces -/

/-- The first verdict on bytes that come in pieces behind those that are there, if there is one:
reading goes on while the request is incomplete. -/
def verdictOn (limit : Nat) : Bytes → List Bytes → Progress
  | _, [] => .incomplete
  | received, piece :: rest =>
    match progress (received ++ piece) limit with
    | .incomplete => verdictOn limit (received ++ piece) rest
    | verdict => verdict

/-- **The verdict on pieces is the one on all bytes at once.** -/
theorem verdictOn_eq {limit : Nat} {received : Bytes} (pieces : List Bytes)
    (h : progress received limit = .incomplete) :
    verdictOn limit received pieces = progress (received ++ pieces.flatten) limit := by
  induction pieces generalizing received with
  | nil => rw [List.flatten_nil, List.append_nil, h, verdictOn]
  | cons piece rest ih =>
      rw [List.flatten_cons, ← List.append_assoc, verdictOn]
      cases hpiece : progress (received ++ piece) limit with
      | incomplete => exact ih hpiece
      | complete => rw [progress_append _ (by simp [hpiece]), hpiece]
      | tooLarge => rw [progress_append _ (by simp [hpiece]), hpiece]

/-- Nothing has been told before the first byte. -/
theorem progress_nil (limit : Nat) : progress [] limit = .incomplete := by
  rw [progress_of_headerEnd?_none limit rfl, if_neg (by simp)]

/-! ## Sizes -/

/-- The sum of two sizes, if it is a size. -/
def sum? (a b : Nat) : Option Nat := if a + b ≤ Number.maxSize then some (a + b) else none

/-- The difference of two sizes, if it is a size. -/
def difference? (a b : Nat) : Option Nat := if b ≤ a then some (a - b) else none

/-- Where the body starts, if it is a size: four bytes behind the place of the empty line. -/
def checkedEnd? (received : Bytes) : Option (Option Nat) :=
  match received.tails.findIdx? fun rest => decide (emptyLine <+: rest) with
  | none => some none
  | some place => (sum? place 4).map some

/-- The verdict on a header of `size` bytes that declares a body of `length` bytes, if each sum
and difference on the way is a size. -/
def checkedVerdict? (limit size length received : Nat) : Option Progress :=
  if limit < size then some .tooLarge
  else do
    let room ← difference? limit size
    if room < length then return .tooLarge
    let total ← sum? size length
    return if total ≤ received then .complete else .incomplete

/-- How far the reading of a request has come, if each sum and difference on the way is a size. -/
def checkedProgress? (received : Bytes) (limit : Nat) : Option Progress := do
  match ← checkedEnd? received with
  | some size =>
    checkedVerdict? limit size (declaredLength (received.take size)) received.length
  | none => return if limit < received.length then .tooLarge else .incomplete

/-- The body starts four bytes behind the place of the first empty line. -/
theorem headerEnd?_eq_map (received : Bytes) :
    headerEnd? received =
      (received.tails.findIdx? fun rest => decide (emptyLine <+: rest)).map fun n => n + 4 := by
  induction received with
  | nil => rfl
  | cons b rest ih =>
      rw [headerEnd?_cons, List.tails_cons, List.findIdx?_cons, ih]
      by_cases hstart : emptyLine <+: b :: rest
      · simp [hstart]
      · simp only [hstart, decide_false, if_false, Option.map_map, Bool.false_eq_true]
        rfl

theorem checkedEnd?_eq {received : Bytes} (h : received.length ≤ Number.maxSize) :
    checkedEnd? received = some (headerEnd? received) := by
  have hend := headerEnd?_eq_map received
  unfold checkedEnd?
  cases hplace : received.tails.findIdx? fun rest => decide (emptyLine <+: rest) with
  | none => rw [hend, hplace, Option.map_none]
  | some place =>
      rw [hplace, Option.map_some] at hend
      have hle := headerEnd?_le hend
      have hsum : sum? place 4 = some (place + 4) := if_pos (hle.trans h)
      rw [hend]
      exact congrArg (Option.map some) hsum

/-- Whatever length a header declares, each sum and difference is a size. -/
theorem checkedVerdict?_eq {limit : Nat} (h : limit ≤ Number.maxSize)
    (size length received : Nat) :
    checkedVerdict? limit size length received =
      some (if limit < size ∨ limit - size < length then .tooLarge
        else if size + length ≤ received then .complete else .incomplete) := by
  unfold checkedVerdict?
  by_cases hsize : limit < size
  · rw [if_pos hsize, if_pos (Or.inl hsize)]
  · have hroom : difference? limit size = some (limit - size) := if_pos (not_lt.mp hsize)
    rw [if_neg hsize, hroom]
    by_cases hlength : limit - size < length
    · simp [hlength]
    · -- what fits into the limit is a size
      have htotal : sum? size length = some (size + length) := if_pos (by omega)
      simp [hsize, hlength, htotal]

/-- **No sum or difference on the way leaves the sizes.** -/
theorem checkedProgress?_eq {received : Bytes} {limit : Nat}
    (hreceived : received.length ≤ Number.maxSize) (hlimit : limit ≤ Number.maxSize) :
    checkedProgress? received limit = some (progress received limit) := by
  rw [checkedProgress?, checkedEnd?_eq hreceived]
  cases hend : headerEnd? received with
  | none => simp [progress_of_headerEnd?_none limit hend]
  | some size => simp [checkedVerdict?_eq hlimit, progress_of_headerEnd? limit hend]

/-! ## Verdicts -/

/-- **A request that is complete has its header and all bytes of the body that the header
declares, within the limit.** -/
theorem exists_of_progress_complete {received : Bytes} {limit : Nat}
    (h : progress received limit = .complete) :
    ∃ head body rest, received = head ++ body ++ rest ∧ headerEnd? received = some head.length ∧
      body.length = declaredLength head ∧ head.length + body.length ≤ limit := by
  cases hend : headerEnd? received with
  | none =>
      rw [progress_of_headerEnd?_none limit hend] at h
      split_ifs at h
  | some size =>
      rw [progress_of_headerEnd? limit hend] at h
      split_ifs at h with hlarge hthere
      have hle := headerEnd?_le hend
      have hhead : (received.take size).length = size := List.length_take_of_le hle
      have hbody : ((received.drop size).take (declaredLength (received.take size))).length =
          declaredLength (received.take size) := by
        rw [List.length_take_of_le]
        rw [List.length_drop]
        omega
      refine ⟨received.take size, (received.drop size).take (declaredLength (received.take size)),
        (received.drop size).drop (declaredLength (received.take size)), ?_, ?_, hbody, ?_⟩
      · rw [List.append_assoc, List.take_append_drop, List.take_append_drop]
      · rw [hhead]
      · rw [hhead, hbody]
        omega

/-- **How far the reading of a request has come is told once and for all. More bytes do not change
a verdict; the verdict on pieces is the one on all bytes at once, and the same for every stream
that begins with them, wherever it is cut. A complete request has its header and all of the body
that the header declares, within the limit. No sum or difference on the way leaves the sizes of 64
bits, whatever length is declared.** -/
theorem progress_final (limit : Nat) :
    (∀ received more, progress received limit ≠ .incomplete →
      progress (received ++ more) limit = progress received limit) ∧
    (∀ pieces, verdictOn limit [] pieces = progress pieces.flatten limit) ∧
    (∀ pieces others : List Bytes, pieces.flatten <+: others.flatten →
      verdictOn limit [] pieces ≠ .incomplete →
        verdictOn limit [] others = verdictOn limit [] pieces) ∧
    (∀ received, progress received limit = .complete →
      ∃ head body rest, received = head ++ body ++ rest ∧ headerEnd? received = some head.length ∧
        body.length = declaredLength head ∧ head.length + body.length ≤ limit) ∧
    (limit ≤ Number.maxSize →
      (∀ received, received.length ≤ Number.maxSize →
        checkedProgress? received limit = some (progress received limit)) ∧
      ∀ size length received, (checkedVerdict? limit size length received).isSome) := by
  have hpieces : ∀ pieces, verdictOn limit [] pieces = progress pieces.flatten limit :=
    fun pieces => by rw [verdictOn_eq pieces (progress_nil limit), List.nil_append]
  refine ⟨fun _ more => progress_append more, hpieces, fun pieces others hstart h => ?_,
    fun _ => exists_of_progress_complete, fun hlimit => ⟨fun received hreceived => ?_, ?_⟩⟩
  · obtain ⟨more, hmore⟩ := hstart
    rw [hpieces] at h
    rw [hpieces, hpieces, ← hmore, progress_append more h]
  · exact checkedProgress?_eq hreceived hlimit
  · intro size length received
    rw [checkedVerdict?_eq hlimit, Option.isSome_some]

/-- A request with a body of two bytes that ends in the middle of a stream. -/
def samplePieces : List Bytes :=
  [Utf8.encode "POST / HTTP/1.1\r\nContent-Length: 2\r\n\r".toList, [0x0A, 0x61],
    [0x62, 0x63]]

/-- It is complete with its last piece, wherever it is cut, and stays so. -/
theorem progress_final_sample :
    progress samplePieces.flatten 64 = .complete ∧ verdictOn 64 [] samplePieces = .complete ∧
      progress (samplePieces.flatten ++ [0x64]) 64 = .complete ∧
      verdictOn 64 [] [samplePieces.flatten, [0x64]] = .complete ∧
      (∃ head body rest, samplePieces.flatten = head ++ body ++ rest ∧
        headerEnd? samplePieces.flatten = some head.length ∧
        body.length = declaredLength head ∧ head.length + body.length ≤ 64) ∧
      checkedProgress? samplePieces.flatten 64 = some .complete := by
  obtain ⟨hmore, hpieces, hstart, hcomplete, hsizes⟩ := progress_final 64
  have hwhole : progress samplePieces.flatten 64 = .complete := by decide +kernel
  have hverdict : verdictOn 64 [] samplePieces = .complete := (hpieces samplePieces).trans hwhole
  refine ⟨hwhole, hverdict, ?_, ?_, hcomplete _ hwhole, ?_⟩
  · rw [hmore _ _ (by rw [hwhole]; decide), hwhole]
  · rw [hstart samplePieces _ ⟨[0x64], by simp⟩ (by rw [hverdict]; decide), hverdict]
  · rw [(hsizes (by decide)).1 _ (by decide), hwhole]

end PageServer.Http
