/-
# What is kept after any calls

The contents that are kept after contents have been put in, asked for and
dropped in any order. One that is kept is the one that was put in last under its
name. It stays as long as fewer other names than there is room for have been put
in or found since it was put in or found itself: what stands before it in the
list are names that were used since then, each once.

* `Recent.Call`, `Recent.run`: calls in order
* `Recent.LastPut`: the content put in last under a name, and not dropped since
* `Recent.used?`, `Recent.usedNames`: the names that calls put in or find
* `Recent.Records`: what is kept goes back to the calls
* `Recent.Ahead`: a content is kept, and only given names stand before it
* `Recent.leastRecentlyUsed`: what is found after any calls
-/
import PageServer.Proofs.Views.Faithful

namespace PageServer.Recent

variable {r : Recent} {name other : Text} {content : Bytes} {time : Int} {k : Kept}
  {capacity : Nat}

/-! ## Calls -/

/-- A call of a store of recent contents. -/
inductive Call where
  /-- Keeps a content with the time of its file. -/
  | put (name : Text) (content : Bytes) (time : Int)
  /-- Asks for a content of a file with this time. -/
  | find (name : Text) (time : Int)
  /-- Drops a content. -/
  | forget (name : Text)
  deriving DecidableEq, Repr

/-- What is kept after a call. -/
def call (r : Recent) : Call → Recent
  | .put name content time => r.put name content time
  | .find name time => (r.find name time).2
  | .forget name => r.forget name

/-- What is kept after calls in order. -/
def run (r : Recent) (calls : List Call) : Recent := calls.foldl call r

@[simp]
theorem run_nil (r : Recent) : r.run [] = r := rfl

theorem run_append (r : Recent) (earlier later : List Call) :
    r.run (earlier ++ later) = (r.run earlier).run later :=
  List.foldl_append

/-- One more call comes last. -/
theorem run_concat (r : Recent) (calls : List Call) (last : Call) :
    r.run (calls ++ [last]) = (r.run calls).call last := by
  rw [run_append]
  rfl

/-- A content of a name is kept. -/
def Holds (r : Recent) (name : Text) : Prop := ∃ k ∈ r.kept, k.name = name

instance (r : Recent) (name : Text) : Decidable (r.Holds name) :=
  inferInstanceAs (Decidable (∃ k ∈ r.kept, k.name = name))

/-- The name that a call uses: the one that it puts in, or asks for while its content is kept,
whatever the time. -/
def used? (r : Recent) : Call → Option Text
  | .put name _ _ => some name
  | .find name _ => if r.Holds name then some name else none
  | .forget _ => none

/-- The names that calls in order use. -/
def usedNames (r : Recent) : List Call → List Text
  | [] => []
  | first :: calls => (r.used? first).toList ++ usedNames (r.call first) calls

/-- The last call uses the last name, if it uses one. -/
theorem usedNames_concat (r : Recent) (calls : List Call) (last : Call) :
    r.usedNames (calls ++ [last]) = r.usedNames calls ++ ((r.run calls).used? last).toList := by
  induction calls generalizing r with
  | nil => exact List.append_nil _
  | cons first calls ih =>
      rw [List.cons_append, usedNames, usedNames, ih, List.append_assoc]
      rfl

/-! ## What was put in last -/

/-- A call that settles what is kept under a name. -/
def Call.Settles (name : Text) : Call → Prop
  | put other _ _ => other = name
  | find .. => False
  | forget other => other = name

instance (name : Text) : DecidablePred (Call.Settles name)
  | .put other _ _ => inferInstanceAs (Decidable (other = name))
  | .find .. => inferInstanceAs (Decidable False)
  | .forget other => inferInstanceAs (Decidable (other = name))

/-- The content put in last under a name is this one, with this time, and the name has not been
dropped since. -/
def LastPut (calls : List Call) (name : Text) (content : Bytes) (time : Int) : Prop :=
  ∃ earlier later, calls = earlier ++ .put name content time :: later ∧
    ∀ call ∈ later, ¬ call.Settles name

/-- After one more call it is what this call puts in, or what it was before if the call is not
about the name. -/
theorem lastPut_concat {calls : List Call} {last : Call} :
    LastPut (calls ++ [last]) name content time ↔
      last = .put name content time ∨ LastPut calls name content time ∧ ¬ last.Settles name := by
  constructor
  · rintro ⟨earlier, later, heq, hlater⟩
    rcases List.eq_nil_or_concat' later with rfl | ⟨before, final, rfl⟩
    · obtain ⟨-, hlast⟩ := List.append_inj' heq rfl
      exact Or.inl (List.singleton_inj.mp hlast)
    · rw [← List.cons_append, ← List.append_assoc] at heq
      obtain ⟨hcalls, hlast⟩ := List.append_inj' heq rfl
      obtain rfl := List.singleton_inj.mp hlast
      obtain ⟨hbefore, hfinal⟩ := List.forall_mem_append.mp hlater
      exact Or.inr ⟨⟨earlier, before, hcalls, hbefore⟩, hfinal _ (List.mem_singleton_self _)⟩
  · rintro (rfl | ⟨⟨earlier, later, rfl, hlater⟩, hlast⟩)
    · exact ⟨calls, [], rfl, nofun⟩
    · refine ⟨earlier, later ++ [last], by simp, ?_⟩
      exact List.forall_mem_append.mpr ⟨hlater, List.forall_mem_singleton.mpr hlast⟩

/-- Only one content was put in last under a name. -/
theorem LastPut.unique {calls : List Call} {content' : Bytes} {time' : Int}
    (h : LastPut calls name content time) (h' : LastPut calls name content' time') :
    content' = content ∧ time' = time := by
  induction calls using List.reverseRecOn with
  | nil =>
      obtain ⟨earlier, later, heq, -⟩ := h
      simp at heq
  | append_singleton calls last ih =>
      rw [lastPut_concat] at h h'
      rcases h with rfl | ⟨hbefore, hlast⟩
      · rcases h' with heq | ⟨-, hlast'⟩
        · cases heq
          exact ⟨rfl, rfl⟩
        · exact absurd rfl hlast'
      · rcases h' with rfl | ⟨hbefore', -⟩
        · exact absurd rfl hlast
        · exact ih hbefore hbefore'

/-! ## One call -/

theorem mem_without {kept : List Kept} : k ∈ without name kept ↔ k ∈ kept ∧ k.name ≠ name := by
  simp [without]

/-- Contents of which no two have the same name. -/
def Distinct (kept : List Kept) : Prop := (kept.map Kept.name).Nodup

theorem Distinct.sublist {kept kept' : List Kept} (h : Distinct kept) (hsub : kept'.Sublist kept) :
    Distinct kept' :=
  List.Nodup.sublist (hsub.map _) h

/-- A content may come in front of those with other names. -/
theorem Distinct.cons_without {kept : List Kept} (h : Distinct kept) (k : Kept) :
    Distinct (k :: without k.name kept) := by
  apply List.nodup_cons.mpr
  refine ⟨?_, h.sublist List.filter_sublist⟩
  intro hmem
  obtain ⟨k', hk', hname⟩ := List.mem_map.mp hmem
  exact (mem_without.mp hk').2 hname

/-- A kept content has others beside it, so that there is room for it in front of them. -/
theorem length_without_lt {kept : List Kept} (hk : k ∈ kept) :
    (without k.name kept).length < kept.length := by
  apply List.length_filter_lt_length_iff_exists.mpr
  exact ⟨k, hk, by simp⟩

/-- What one call does: it asks for a content that is not kept, uses a content, or drops one. A
content that is found is put in once more. -/
inductive Effect (r : Recent) : Call → Recent → Prop
  | missed (name : Text) (time : Int) (h : ¬ r.Holds name) : Effect r (.find name time) r
  | put (k : Kept) : Effect r (.put k.name k.content k.time) (r.put k.name k.content k.time)
  | found (k : Kept) (hk : k ∈ r.kept) (time : Int) :
      Effect r (.find k.name time) (r.put k.name k.content k.time)
  | forgotten (name : Text) : Effect r (.forget name) (r.forget name)

/-- A name that is kept is found, and then its content is as good as just put in. -/
theorem find_of_holds (h : r.Holds name) (hroom : r.kept.length ≤ r.capacity) (time : Int) :
    ∃ k ∈ r.kept, k.name = name ∧
      r.find name time = (if k.time = time then some k.content else none,
        r.put k.name k.content k.time) := by
  unfold find
  cases hfind : r.kept.find? fun k => decide (k.name = name) with
  | none =>
      obtain ⟨k, hk, hname⟩ := h
      have hne := List.find?_eq_none.mp hfind k hk
      exact absurd (decide_eq_true hname) hne
  | some k =>
      have hk : k ∈ r.kept := List.mem_of_find?_eq_some hfind
      have hname : k.name = name := by simpa using List.find?_some hfind
      refine ⟨k, hk, hname, ?_⟩
      have hlength : (k :: without k.name r.kept).length ≤ r.capacity :=
        (length_without_lt hk).trans_le hroom
      rw [put, List.take_of_length_le hlength, hname]

theorem find_of_not_holds (h : ¬ r.Holds name) (time : Int) : r.find name time = (none, r) := by
  unfold find
  cases hfind : r.kept.find? fun k => decide (k.name = name) with
  | none => rfl
  | some k =>
      have hname : k.name = name := by simpa using List.find?_some hfind
      exact absurd ⟨k, List.mem_of_find?_eq_some hfind, hname⟩ h

/-- Every call has one of these effects. -/
theorem effect_call (hroom : r.kept.length ≤ r.capacity) (last : Call) :
    Effect r last (r.call last) := by
  cases last with
  | put name content time => exact Effect.put ⟨name, content, time⟩
  | find name time =>
      by_cases hholds : r.Holds name
      · obtain ⟨k, hk, rfl, hfind⟩ := find_of_holds hholds hroom time
        rw [call, hfind]
        exact Effect.found k hk time
      · rw [call, find_of_not_holds hholds]
        exact Effect.missed name time hholds
  | forget name => exact Effect.forgotten name

/-! ## What is kept goes back to the calls -/

/-- What is kept after some calls: no more than there is room for, one content under each name,
and that is the one put in last. -/
structure Records (capacity : Nat) (calls : List Call) (r : Recent) : Prop where
  capacity_eq : r.capacity = capacity
  length_le : r.kept.length ≤ capacity
  distinct : Distinct r.kept
  lastPut : ∀ k ∈ r.kept, LastPut calls k.name k.content k.time

/-- One call keeps this. -/
theorem Records.concat {calls : List Call} (h : Records capacity calls r) (last : Call) :
    Records capacity (calls ++ [last]) (r.call last) := by
  -- a content other than the one that is used was there before
  have hold : ∀ k ∈ r.kept, ¬ last.Settles k.name →
      LastPut (calls ++ [last]) k.name k.content k.time := by
    intro k hk hlast
    exact lastPut_concat.mpr (Or.inr ⟨h.lastPut k hk, hlast⟩)
  have hput : ∀ k : Kept, LastPut (calls ++ [last]) k.name k.content k.time →
      (∀ name, last.Settles name → name = k.name) →
      Records capacity (calls ++ [last]) (r.put k.name k.content k.time) := by
    intro k hk hsettles
    constructor
    · exact h.capacity_eq
    · exact (List.length_take_le _ _).trans h.capacity_eq.le
    · exact (h.distinct.cons_without k).sublist (List.take_sublist _ _)
    · intro k' hk'
      rcases List.mem_cons.mp (List.mem_of_mem_take hk') with rfl | hrest
      · exact hk
      · obtain ⟨hmem, hne⟩ := mem_without.mp hrest
        exact hold k' hmem fun hlast => hne (hsettles _ hlast)
  have heffect := effect_call (h.length_le.trans h.capacity_eq.ge) last
  generalize r.call last = r' at heffect ⊢
  cases heffect with
  | missed name time hmissed =>
      refine ⟨h.capacity_eq, h.length_le, h.distinct, ?_⟩
      intro k hk
      exact hold k hk (fun hlast => hlast)
  | put k => exact hput k (lastPut_concat.mpr (Or.inl rfl)) fun _ hlast => hlast.symm
  | found k hk time => exact hput k (hold k hk fun hlast => hlast) nofun
  | forgotten name =>
      refine ⟨h.capacity_eq, (List.length_filter_le _ _).trans h.length_le,
        h.distinct.sublist List.filter_sublist, ?_⟩
      intro k hk
      obtain ⟨hmem, hne⟩ := mem_without.mp hk
      exact hold k hmem fun hlast => hne hlast.symm

/-- Whatever the calls were. -/
theorem records_run (capacity : Nat) (calls : List Call) :
    Records capacity calls (run { capacity } calls) := by
  induction calls using List.reverseRecOn with
  | nil => exact ⟨rfl, Nat.zero_le _, List.nodup_nil, nofun⟩
  | append_singleton calls last ih =>
      rw [run_concat]
      exact ih.concat last

/-! ## What stands before a content -/

/-- A content is kept, and before it stand only contents with names among some others. -/
def Ahead (names : Finset Text) (k : Kept) (kept : List Kept) : Prop :=
  ∃ front back, kept = front ++ k :: back ∧ ∀ k' ∈ front, k'.name ∈ names

theorem Ahead.mem {names : Finset Text} {kept : List Kept} (h : Ahead names k kept) :
    k ∈ kept := by
  obtain ⟨front, back, rfl, -⟩ := h
  exact List.mem_append_right _ List.mem_cons_self

theorem Ahead.mono {names names' : Finset Text} {kept : List Kept} (h : Ahead names k kept)
    (hsub : names ⊆ names') : Ahead names' k kept := by
  obtain ⟨front, back, heq, hfront⟩ := h
  exact ⟨front, back, heq, fun k' hk' => hsub (hfront k' hk')⟩

/-- Other contents may go. -/
theorem Ahead.without {names : Finset Text} {kept : List Kept} (h : Ahead names k kept)
    (hne : k.name ≠ other) : Ahead names k (without other kept) := by
  obtain ⟨front, back, rfl, hfront⟩ := h
  refine ⟨Recent.without other front, Recent.without other back, ?_, ?_⟩
  · simp [Recent.without, List.filter_append, hne]
  · intro k' hk'
    exact hfront k' (mem_without.mp hk').1

/-- A content with fewer names before it than there is room for stays when another one is
used. -/
theorem Ahead.put {names : Finset Text} {k' : Kept} (h : Ahead names k r.kept)
    (hdistinct : Distinct r.kept) (hmem : k'.name ∈ names) (hne : k.name ≠ k'.name)
    (hroom : names.card < r.capacity) :
    Ahead names k (r.put k'.name k'.content k'.time).kept := by
  obtain ⟨front, back, heq, hfront⟩ := h.without hne
  have hcons : ∀ k'' ∈ k' :: front, k''.name ∈ names :=
    List.forall_mem_cons.mpr ⟨hmem, hfront⟩
  -- the names before it are different ones, so that they are no more than `names` has
  have hshort : (k' :: front).length ≤ names.card := by
    have hnames : Distinct (k' :: front) := by
      apply (hdistinct.cons_without k').sublist
      rw [heq]
      exact (List.sublist_append_left _ _).cons_cons _
    calc (k' :: front).length = ((k' :: front).map Kept.name).toFinset.card := by
            rw [List.toFinset_card_of_nodup hnames, List.length_map]
      _ ≤ names.card := by
            apply Finset.card_le_card
            intro n hn
            obtain ⟨k'', hk'', rfl⟩ := List.mem_map.mp (List.mem_toFinset.mp hn)
            exact hcons k'' hk''
  obtain ⟨room, hspace⟩ := Nat.exists_eq_add_of_lt (hshort.trans_lt hroom)
  refine ⟨k' :: front, back.take room, ?_, hcons⟩
  calc (r.put k'.name k'.content k'.time).kept
      = (k' :: front ++ k :: back).take ((k' :: front).length + (room + 1)) := by
          rw [Recent.put, heq, hspace]
          rfl
    _ = k' :: front ++ k :: back.take room := List.take_length_add_append _

/-- A content that is used comes first. -/
theorem ahead_put (names : Finset Text) (k : Kept) (hcapacity : 0 < r.capacity) :
    Ahead names k (r.put k.name k.content k.time).kept := by
  obtain ⟨room, hroom⟩ := Nat.exists_eq_succ_of_ne_zero hcapacity.ne'
  refine ⟨[], (Recent.without k.name r.kept).take room, ?_, nofun⟩
  rw [put, hroom]
  rfl

/-! ## Long enough kept -/

/-- The other names that calls use. -/
def others (r : Recent) (name : Text) (calls : List Call) : Finset Text :=
  (r.usedNames calls).toFinset.erase name

theorem others_concat (r : Recent) (name : Text) (calls : List Call) (last : Call) :
    r.others name (calls ++ [last]) =
      r.others name calls ∪ ((r.run calls).used? last).toList.toFinset.erase name := by
  rw [others, usedNames_concat, List.toFinset_append, Finset.erase_union_distrib]
  rfl

/-- A name that a call uses has its content in front after the call. -/
theorem Records.ahead_of_used {calls : List Call} {use : Call} (h : Records capacity calls r)
    (hcapacity : 0 < capacity) (hused : r.used? use = some k.name)
    (hlast : LastPut (calls ++ [use]) k.name k.content k.time) (names : Finset Text) :
    Ahead names k (r.call use).kept := by
  have hafter := h.concat use
  have heffect := effect_call (h.length_le.trans h.capacity_eq.ge) use
  have hroom : 0 < r.capacity := h.capacity_eq ▸ hcapacity
  -- the content in front was put in last, and that is `k`
  have hfront : ∀ k' : Kept, r.call use = r.put k'.name k'.content k'.time →
      k'.name = k.name → Ahead names k (r.call use).kept := by
    intro k' hcall hname
    have hahead : Ahead names k' (r.call use).kept := by
      rw [hcall]
      exact ahead_put names k' hroom
    have hput := hafter.lastPut k' hahead.mem
    rw [hname] at hput
    obtain ⟨hcontent, htime⟩ := hlast.unique hput
    have heq : k' = k := by
      cases k
      cases k'
      simp_all
    rw [← heq]
    exact hahead
  generalize hcall : r.call use = r' at heffect hfront ⊢
  cases heffect with
  | missed name time hmissed => simp [used?, hmissed] at hused
  | put k' => exact hfront k' rfl (Option.some.inj hused)
  | found k' hk' time =>
      have hholds : r.Holds k'.name := ⟨k', hk', rfl⟩
      rw [used?, if_pos hholds] at hused
      exact hfront k' rfl (Option.some.inj hused)
  | forgotten name => simp [used?] at hused

/-- One call that uses another name leaves a content with fewer names before it than there is
room for. -/
theorem Records.ahead_call {calls : List Call} {last : Call} {names : Finset Text}
    (h : Records capacity calls r) (hahead : Ahead names k r.kept)
    (hlast : ¬ last.Settles k.name) (hother : r.used? last ≠ some k.name)
    (hnames : ∀ n, r.used? last = some n → n ∈ names) (hroom : names.card < capacity) :
    Ahead names k (r.call last).kept := by
  have hroom' : names.card < r.capacity := h.capacity_eq ▸ hroom
  -- a use of another content puts this one in front
  have hput : ∀ k' : Kept, r.used? last = some k'.name →
      Ahead names k (r.put k'.name k'.content k'.time).kept := by
    intro k' hused
    have hne : k.name ≠ k'.name := by
      intro heq
      exact hother (heq ▸ hused)
    exact hahead.put h.distinct (hnames _ hused) hne hroom'
  have heffect := effect_call (h.length_le.trans h.capacity_eq.ge) last
  generalize r.call last = r' at heffect ⊢
  cases heffect with
  | missed name time hmissed => exact hahead
  | put k' => exact hput k' rfl
  | found k' hk' time => exact hput k' (if_pos ⟨k', hk', rfl⟩)
  | forgotten name => exact hahead.without (Ne.symm hlast)

/-- As long as fewer other names are used than there is room for, a content stays, with no other
names before it than these. -/
theorem ahead_run {earlier : List Call} {use : Call} (later : List Call)
    (hused : (run { capacity } earlier).used? use = some k.name)
    (hlast : LastPut (earlier ++ use :: later) k.name k.content k.time)
    (hfew : ((run { capacity } (earlier ++ [use])).others k.name later).card < capacity) :
    Ahead ((run { capacity } (earlier ++ [use])).others k.name later) k
      (run { capacity } (earlier ++ use :: later)).kept := by
  have hcapacity : 0 < capacity := (Nat.zero_le _).trans_lt hfew
  induction later using List.reverseRecOn with
  | nil =>
      rw [run_concat]
      exact (records_run capacity earlier).ahead_of_used hcapacity hused hlast _
  | append_singleton later last ih =>
      have hcalls : earlier ++ use :: (later ++ [last]) = (earlier ++ use :: later) ++ [last] := by
        simp
      have hrun : (run { capacity } (earlier ++ [use])).run later =
          run { capacity } (earlier ++ use :: later) := by
        rw [← run_append, List.append_assoc, List.singleton_append]
      have hrecords := records_run capacity (earlier ++ use :: later)
      rw [hcalls] at hlast ⊢
      rw [run_concat _ (earlier ++ use :: later)]
      by_cases hself : (run { capacity } (earlier ++ use :: later)).used? last = some k.name
      · exact hrecords.ahead_of_used hcapacity hself hlast _
      · rcases lastPut_concat.mp hlast with rfl | ⟨hbefore, hsettles⟩
        · exact absurd rfl hself
        · rw [others_concat, hrun] at hfew ⊢
          have hfewer := (Finset.card_le_card Finset.subset_union_left).trans_lt hfew
          have hahead := ih hbefore hfewer
          apply hrecords.ahead_call (hahead.mono Finset.subset_union_left) hsettles hself _ hfew
          intro n hn
          apply Finset.mem_union_right
          simp only [hn, Option.toList_some, List.toFinset_cons, List.toFinset_nil,
            insert_empty_eq, Finset.mem_erase, Finset.mem_singleton, and_true]
          rintro rfl
          exact hself hn

/-! ## What is found -/

/-- A kept content is found by its name and time. -/
theorem Records.find_of_mem {calls : List Call} (h : Records capacity calls r) (hk : k ∈ r.kept)
    (time : Int) :
    r.find k.name time =
      (if k.time = time then some k.content else none, r.put k.name k.content k.time) := by
  have hroom := h.length_le.trans h.capacity_eq.ge
  obtain ⟨k', hk', hname, hfind⟩ := find_of_holds ⟨k, hk, rfl⟩ hroom time
  have heq : k' = k := List.inj_on_of_nodup_map h.distinct hk' hk hname
  rw [hfind, heq]

/-- **The store keeps the contents used most recently, and never gives one out under another
time.** After any calls on a new store with room for at least one content: there are no more
contents than there is room for; what is found is what was put in last under the name, with this
time, and not dropped since; and it is found if fewer other names than there is room for have been
put in or found since the name was put in or found, at any time. Asking for a kept content with a
wrong time finds nothing, but leaves the store as if it had been found. -/
theorem leastRecentlyUsed (hcapacity : 0 < capacity) (calls : List Call) :
    ∃ empty, ofCapacity capacity = .ok empty ∧
      (empty.run calls).kept.length ≤ capacity ∧
      (∀ name content time, ((empty.run calls).find name time).1 = some content →
        LastPut calls name content time) ∧
      (∀ name content time earlier use later, LastPut calls name content time →
        calls = earlier ++ use :: later → (empty.run earlier).used? use = some name →
        ((empty.run (earlier ++ [use])).others name later).card < capacity →
        ((empty.run calls).find name time).1 = some content) ∧
      (∀ k ∈ (empty.run calls).kept, ∀ time, time ≠ k.time →
        ((empty.run calls).find k.name time).1 = none ∧
          ((empty.run calls).find k.name time).2 = ((empty.run calls).find k.name k.time).2) := by
  refine ⟨{ capacity }, if_neg hcapacity.ne', ?_⟩
  have hrecords := records_run capacity calls
  refine ⟨hrecords.length_le, ?_, ?_, ?_⟩
  · intro name content time hfind
    exact hrecords.lastPut _ (of_find hfind)
  · rintro name content time earlier use later hlast rfl hused hfew
    have hahead : Ahead _ ⟨name, content, time⟩ _ := ahead_run later hused hlast hfew
    rw [hrecords.find_of_mem hahead.mem]
    exact if_pos rfl
  · intro k hk time hne
    rw [hrecords.find_of_mem hk, hrecords.find_of_mem hk]
    exact ⟨if_neg hne.symm, rfl⟩

/-- With room for two contents: of two that are put in, the one that is asked for stays when a
third one comes, even if the time is a wrong one, and the other one goes. -/
theorem leastRecentlyUsed_three :
    0 < 2 ∧ ∃ empty, ofCapacity 2 = .ok empty ∧
      let r := empty.run [.put "a".toList [1] 0, .put "b".toList [2] 0, .find "a".toList 5,
        .put "c".toList [3] 0]
      r.kept.length ≤ 2 ∧ (r.find "a".toList 0).1 = some [1] ∧ (r.find "b".toList 0).1 = none ∧
        (r.find "c".toList 0).1 = some [3] := by
  have hcapacity : 0 < 2 := by decide
  obtain ⟨empty, hempty, hlength, -, hstays, -⟩ := leastRecentlyUsed hcapacity
    [.put "a".toList [1] 0, .put "b".toList [2] 0, .find "a".toList 5,
      .put "c".toList [3] 0]
  cases hempty
  refine ⟨hcapacity, _, rfl, hlength, ?_, by decide, ?_⟩
  · apply hstays _ _ _ [.put "a".toList [1] 0, .put "b".toList [2] 0] (.find "a".toList 5)
      [.put "c".toList [3] 0] ⟨[], _, rfl, by decide⟩ rfl
    · decide
    · decide
  · apply hstays _ _ _ [.put "a".toList [1] 0, .put "b".toList [2] 0, .find "a".toList 5]
      (.put "c".toList [3] 0) []
      ⟨[.put "a".toList [1] 0, .put "b".toList [2] 0, .find "a".toList 5], [], rfl, nofun⟩ rfl
    · decide
    · decide

end PageServer.Recent
