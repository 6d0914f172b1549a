/-
# Escaped texts are read back

An escaped text holds special characters only as parts of its entities, and the
entities are read back in one pass from the left. The line breaks of an error
page do not collide with them, as an escaped text holds no angle bracket.

* `Html.unescape_escape`: an escaped text is read as it was
* `Html.exists_entity_of_escape`: each ampersand begins an entity
* `Html.unescape_append`: what is in front of a blank is read by itself
* `Fault.pageMessage_eq`: the wording in an error page, character by character
* `Fault.shown_pageMessage`: the wording is read back
* `Html.escape_reversible`: all of it
-/
import PageServer.Fault
import PageServer.Proofs.Text.Cutting
import PageServer.Proofs.Text.Replacing

namespace PageServer

namespace Html

/-! ## Characters -/

/-- The characters that are written as entities. -/
def special : List Char := entities.map Prod.fst

/-- What holds of each of them by evaluation. -/
theorem forall_special {p : Char → Prop} [DecidablePred p]
    (h : (special.all fun c => decide (p c)) = true) : ∀ c ∈ special, p c :=
  fun c hc => of_decide_eq_true (List.all_eq_true.mp h c hc)

/-- A special character is written as its entity. -/
theorem mem_entities_of_special : ∀ c ∈ special, (c, escapeChar c) ∈ entities :=
  forall_special (by decide)

/-- An entity begins with an ampersand and ends with a semicolon, and holds no other special
character. -/
theorem entity_shape : ∀ entry ∈ entities, ∃ name, entry.2 = '&' :: (name ++ [';']) ∧
    ∀ c ∈ special, c ∉ name := by
  simp only [entities, List.forall_mem_cons]
  exact ⟨⟨"amp", rfl, forall_special (by decide)⟩, ⟨"lt", rfl, forall_special (by decide)⟩,
    ⟨"gt", rfl, forall_special (by decide)⟩, ⟨"quot", rfl, forall_special (by decide)⟩,
    ⟨"#039", rfl, forall_special (by decide)⟩, nofun⟩

/-- Another character stands for itself. -/
theorem escapeChar_of_not_special {c : Char} (h : c ∉ special) : escapeChar c = [c] := by
  have hnone : entities.lookup c = none := by
    rw [List.lookup_eq_none_iff]
    intro entry hentry
    rw [bne_iff_ne]
    rintro rfl
    exact h (List.mem_map_of_mem hentry)
  rw [escapeChar, hnone, Option.getD_none]

/-- What a character is written as holds no special character but the ampersand in front. -/
theorem not_mem_escapeChar {c d : Char} (hd : d ∈ special) (hne : d ≠ '&') :
    d ∉ escapeChar c := by
  by_cases hc : c ∈ special
  · obtain ⟨name, hname, hplain⟩ := entity_shape _ (mem_entities_of_special c hc)
    have hend : d ≠ ';' := fun heq => absurd (heq ▸ hd) (by decide)
    dsimp only at hname
    simp [hname, hne, hend, hplain d hd]
  · rw [escapeChar_of_not_special hc, List.mem_singleton]
    rintro rfl
    exact hc hd

/-- An escaped text holds no special character but ampersands. -/
theorem not_mem_escape {d : Char} (hd : d ∈ special) (hne : d ≠ '&') (t : Text) :
    d ∉ escape t := by
  intro hmem
  obtain ⟨c, -, hc⟩ := List.mem_flatMap.mp hmem
  exact not_mem_escapeChar hd hne hc

/-- **Each ampersand of an escaped text begins an entity.** -/
theorem exists_entity_of_escape {t before after : Text} (h : escape t = before ++ '&' :: after) :
    ∃ entry ∈ entities, entry.2 <+: '&' :: after := by
  obtain ⟨c, -, left, right, hc, -, hright⟩ := Text.exists_of_flatMap_eq h
  by_cases hspecial : c ∈ special
  · have hentry := mem_entities_of_special c hspecial
    obtain ⟨name, hname, hplain⟩ := entity_shape _ hentry
    cases left with
    | nil => exact ⟨_, hentry, hc ▸ List.cons_prefix_cons.mpr ⟨rfl, hright⟩⟩
    | cons first left =>
        -- the ampersand in front is the only one
        have hboth : first :: (left ++ '&' :: right) = '&' :: (name ++ [';']) := hc.symm.trans hname
        have hmem : '&' ∈ name ++ [';'] := by
          rw [← (List.cons.inj hboth).2]
          exact List.mem_append_right left List.mem_cons_self
        rcases List.mem_append.mp hmem with hin | hend
        · exact absurd hin (hplain '&' (by decide))
        · exact absurd hend (by decide)
  · rw [escapeChar_of_not_special hspecial] at hc
    have hmem : '&' ∈ [c] := hc ▸ List.mem_append_right left List.mem_cons_self
    rw [← List.mem_singleton.mp hmem] at hspecial
    exact absurd (by decide : '&' ∈ special) hspecial

/-- A text without special characters stands for itself. -/
theorem escape_eq_self {t : Text} (h : ∀ c ∈ t, c ∉ special) : escape t = t := by
  rw [escape, List.flatMap_congr fun c hc => escapeChar_of_not_special (h c hc)]
  exact List.flatMap_singleton' t

/-- What a special character is written as ends with another character. -/
theorem exists_escapeChar_eq {c : Char} (hc : c ∈ special) :
    ∃ start, escapeChar c = start ++ [';'] ∧ c ≠ ';' := by
  obtain ⟨name, hname, -⟩ := entity_shape _ (mem_entities_of_special c hc)
  exact ⟨'&' :: name, hname, fun heq => absurd (heq ▸ hc) (by decide)⟩

/-- **A text stands at the end of its escaped form, whatever is in front of this, only if it holds
no special character.** -/
theorem suffix_append_escape_iff {t before : Text} :
    t <:+ before ++ escape t ↔ ∀ c ∈ t, c ∉ special := by
  refine ⟨fun h => ?_, fun h => ?_⟩
  · -- the last characters are compared first
    induction t using List.reverseRecOn with
    | nil => exact fun c hc => absurd hc List.not_mem_nil
    | append_singleton t last ih =>
        have hlast : ∀ {whole : Text} {final : Char}, t ++ [last] <:+ whole ++ [final] →
            last = final ∧ t <:+ whole := by
          intro whole final hsuffix
          obtain ⟨more, heq, hmore⟩ := (List.suffix_concat_iff.mp hsuffix).resolve_left (by simp)
          obtain ⟨rfl, hsingle⟩ := List.append_inj' heq rfl
          exact ⟨List.singleton_inj.mp hsingle, hmore⟩
        rw [escape, List.flatMap_append, List.flatMap_singleton, ← List.append_assoc] at h
        by_cases hspecial : last ∈ special
        · obtain ⟨start, hstart, hne⟩ := exists_escapeChar_eq hspecial
          rw [hstart, ← List.append_assoc] at h
          exact absurd (hlast h).1 hne
        · rw [escapeChar_of_not_special hspecial] at h
          rw [List.forall_mem_append, List.forall_mem_singleton]
          exact ⟨ih (hlast h).2, hspecial⟩
  · rw [escape_eq_self h]
    exact List.suffix_append before t

/-! ## Reading entities -/

/-- The rest of an entity is passed over. -/
theorem unescapeFrom_length (skipped rest : Text) :
    unescapeFrom skipped.length (skipped ++ rest) = unescape rest := by
  induction skipped with
  | nil => rfl
  | cons c skipped ih => exact ih

/-- A character other than an ampersand begins no entity. -/
theorem entityAt?_of_ne {c : Char} (h : c ≠ '&') (rest : Text) : entityAt? (c :: rest) = none := by
  have hnone : entities.find? (fun entry => Text.startsWith entry.2 (c :: rest)) = none := by
    rw [List.find?_eq_none]
    intro entry hentry hstarts
    obtain ⟨name, hname, -⟩ := entity_shape entry hentry
    rw [Text.startsWith_iff, hname] at hstarts
    exact h (List.cons_prefix_cons.mp hstarts).1.symm
  rw [entityAt?, hnone, Option.map_none]

/-- Such a character stands for itself. -/
theorem unescape_cons_of_ne {c : Char} (h : c ≠ '&') (rest : Text) :
    unescape (c :: rest) = c :: unescape rest := by
  rw [unescape, unescapeFrom, entityAt?_of_ne h]
  rfl

/-- What a character is written as is read before what follows. -/
theorem unescape_escapeChar (c : Char) (rest : Text) :
    unescape (escapeChar c ++ rest) = c :: unescape rest := by
  by_cases hc : c ∈ special
  · -- no entity is the beginning of another one
    have hfirst : ∀ d ∈ special, entityAt? (escapeChar d ++ rest) =
        some (d, (escapeChar d).length) := by
      simp only [special, entities, List.map_cons, List.map_nil, List.forall_mem_cons]
      exact ⟨rfl, rfl, rfl, rfl, rfl, nofun⟩
    obtain ⟨name, hname, -⟩ := entity_shape _ (mem_entities_of_special c hc)
    have hentity := hfirst c hc
    dsimp only at hname
    rw [hname, List.cons_append] at hentity ⊢
    rw [unescape, unescapeFrom, hentity]
    exact congrArg (c :: ·) (unescapeFrom_length (name ++ [';']) rest)
  · have hne : c ≠ '&' := fun heq => hc (heq ▸ by decide)
    rw [escapeChar_of_not_special hc, List.singleton_append, unescape_cons_of_ne hne]

/-- **An escaped text is read as it was.** -/
theorem unescape_escape (t : Text) : unescape (escape t) = t := by
  induction t with
  | nil => rfl
  | cons c t ih =>
      rw [escape, List.flatMap_cons, unescape_escapeChar]
      exact congrArg (c :: ·) ih

/-- Different texts have different escaped forms. -/
theorem escape_injective : Function.Injective escape :=
  Function.LeftInverse.injective unescape_escape

/-! ## Texts in front of a blank -/

/-- No entity goes over a blank. -/
theorem entityAt?_append (t rest : Text) : entityAt? (t ++ ' ' :: rest) = entityAt? t := by
  have hsame : ∀ entry ∈ entities,
      Text.startsWith entry.2 (t ++ ' ' :: rest) = Text.startsWith entry.2 t := by
    intro entry hentry
    have hblank : ' ' ∉ entry.2 := of_decide_eq_true (List.all_eq_true.mp
      (by decide : (entities.all fun entry => decide (' ' ∉ entry.2)) = true) entry hentry)
    rw [Bool.eq_iff_iff, Text.startsWith_iff, Text.startsWith_iff]
    refine ⟨fun hstarts => ?_, fun hstarts => hstarts.trans (List.prefix_append t _)⟩
    rcases List.prefix_or_prefix_of_prefix hstarts (List.prefix_append t _) with hshort | hlong
    · exact hshort
    · obtain ⟨more, hmore⟩ := hlong
      rw [← hmore, List.prefix_append_right_inj] at hstarts
      cases more with
      | nil => rw [← hmore, List.append_nil]
      | cons c more =>
          obtain ⟨rfl, -⟩ := List.cons_prefix_cons.mp hstarts
          exact absurd (hmore ▸ List.mem_append_right t List.mem_cons_self) hblank
  have hfind : entities.find? (fun entry => Text.startsWith entry.2 (t ++ ' ' :: rest)) =
      entities.find? fun entry => Text.startsWith entry.2 t :=
    List.find?_congr hsame
  rw [entityAt?, entityAt?, hfind]

/-- An entity is not longer than the text that it begins. -/
theorem length_le_of_entityAt? {t : Text} {plain : Char} {size : Nat}
    (h : entityAt? t = some (plain, size)) : size ≤ t.length := by
  obtain ⟨entry, hentry, heq⟩ := Option.map_eq_some_iff.mp h
  obtain ⟨rfl, rfl⟩ := Prod.mk.inj heq
  have hstarts : Text.startsWith entry.2 t = true := by simpa using List.find?_some hentry
  exact (Text.startsWith_iff.mp hstarts).length_le

/-- **What is in front of a blank is read by itself.** -/
theorem unescape_append (t rest : Text) :
    unescape (t ++ ' ' :: rest) = unescape t ++ ' ' :: unescape rest := by
  have hfrom (skip : Nat) (hskip : skip ≤ t.length) :
      unescapeFrom skip (t ++ ' ' :: rest) = unescapeFrom skip t ++ ' ' :: unescape rest := by
    induction t generalizing skip with
    | nil =>
        obtain rfl : skip = 0 := Nat.le_zero.mp hskip
        exact unescape_cons_of_ne (by decide) rest
    | cons c t ih =>
        cases skip with
        | succ skip => exact ih skip (Nat.le_of_succ_le_succ hskip)
        | zero =>
            have hentity : entityAt? (c :: (t ++ ' ' :: rest)) = entityAt? (c :: t) :=
              entityAt?_append (c :: t) rest
            rw [List.cons_append, unescapeFrom, unescapeFrom, hentity]
            cases hfound : entityAt? (c :: t) with
            | none => exact congrArg (c :: ·) (ih 0 (Nat.zero_le _))
            | some found =>
                have hlength : found.2 ≤ t.length + 1 := length_le_of_entityAt? hfound
                exact congrArg (found.1 :: ·) (ih (found.2 - 1) (by omega))
  exact hfrom 0 (Nat.zero_le _)

/-! ## Line breaks -/

/-- What a text with line breaks and entities shows: a line feed for each line break, and what the
entities stand for. -/
def shown (t : Text) : Text := unescape (Text.replaceAll "<br>" "\n" t)

end Html

/-! ## Error pages -/

namespace Fault

open Html (special escape escapeChar escapeChar_of_not_special mem_entities_of_special
  not_mem_escape not_mem_escapeChar shown)

/-- In debug mode the wording is the full one. -/
theorem publicMessage_true (fault : Fault) : fault.publicMessage true = fault.message := by
  cases fault <;> rfl

/-- No line feed comes from another character. -/
theorem newline_not_mem_escapeChar {c : Char} (hc : c ≠ '\n') : '\n' ∉ escapeChar c := by
  by_cases hspecial : c ∈ special
  · have hall : ∀ d ∈ special, '\n' ∉ escapeChar d := Html.forall_special (by decide)
    exact hall c hspecial
  · rw [escapeChar_of_not_special hspecial, List.mem_singleton]
    exact Ne.symm hc

/-- A character of a wording as it stands in an error page. -/
def pageChar (c : Char) : Text := if c = '\n' then "<br>" else escapeChar c

/-- A line feed stays when it is escaped, and becomes a line break afterwards. -/
theorem flatMap_escapeChar (c : Char) :
    (escapeChar c).flatMap (fun d => if d = '\n' then "<br>" else [d]) = pageChar c := by
  unfold pageChar
  by_cases hc : c = '\n'
  · rw [if_pos hc, hc]
    rfl
  · have hsame : ∀ d ∈ escapeChar c, (if d = '\n' then "<br>".toList else [d]) = [d] := by
      intro d hd
      rw [if_neg]
      rintro rfl
      exact newline_not_mem_escapeChar hc hd
    rw [if_neg hc, List.flatMap_congr hsame, List.flatMap_singleton']

/-- **The wording in an error page, character by character.** -/
theorem pageMessage_eq (fault : Fault) (safe : Text) :
    fault.pageMessage true safe = fault.message.flatMap pageChar := by
  have hbreaks : fault.pageMessage true safe =
      Text.replaceAll ['\n'] "<br>" (escape fault.message) := by
    rw [← publicMessage_true]
    rfl
  rw [hbreaks, Text.replaceAll_singleton, escape, List.flatMap_assoc]
  exact List.flatMap_congr fun c _ => flatMap_escapeChar c

/-- An angle bracket in an error page comes from a line feed. -/
theorem eq_break_of_pageChar {c d : Char} {left right : Text} (hd : d ∈ ['<', '>'])
    (h : pageChar c = left ++ d :: right) : "<br>".toList = left ++ d :: right := by
  by_cases hc : c = '\n'
  · rw [← h, pageChar, if_pos hc]
  · have hmem : d ∈ pageChar c := h ▸ List.mem_append_right left List.mem_cons_self
    have hspecial : d ∈ special ∧ d ≠ '&' := by
      rcases List.mem_pair.mp hd with rfl | rfl <;> decide
    rw [pageChar, if_neg hc] at hmem
    exact absurd hmem (not_mem_escapeChar hspecial.1 hspecial.2)

/-- A less-than sign in an error page begins a line break. -/
theorem break_of_less {fault : Fault} {safe before after : Text}
    (h : fault.pageMessage true safe = before ++ '<' :: after) : "br>".toList <+: after := by
  rw [pageMessage_eq] at h
  obtain ⟨c, -, left, right, hc, -, hright⟩ := Text.exists_of_flatMap_eq h
  have hbreak : '<' :: "br>".toList = left ++ '<' :: right := eq_break_of_pageChar (by decide) hc
  cases left with
  | nil =>
      have hrest : "br>".toList = right := (List.cons.inj hbreak).2
      rw [hrest]
      exact hright
  | cons first left =>
      have hrest : "br>".toList = left ++ '<' :: right := (List.cons.inj hbreak).2
      have hmem : '<' ∈ "br>".toList := by
        rw [hrest]
        exact List.mem_append_right left List.mem_cons_self
      exact absurd hmem (by decide)

/-- A greater-than sign in an error page ends a line break. -/
theorem break_of_greater {fault : Fault} {safe before after : Text}
    (h : fault.pageMessage true safe = before ++ '>' :: after) : "<br".toList <:+ before := by
  rw [pageMessage_eq] at h
  obtain ⟨c, -, left, right, hc, hleft, -⟩ := Text.exists_of_flatMap_eq h
  have hbreak : "<br".toList ++ ['>'] = left ++ '>' :: right := eq_break_of_pageChar (by decide) hc
  rcases List.eq_nil_or_concat right with rfl | ⟨more, last, rfl⟩
  · have hstart : "<br".toList = left := List.append_inj_left' hbreak rfl
    rw [hstart]
    exact hleft
  · have happend : "<br".toList ++ ['>'] = (left ++ '>' :: more) ++ [last] := by
      rw [hbreak, List.concat_eq_append, List.append_assoc, List.cons_append]
    have hstart : "<br".toList = left ++ '>' :: more := List.append_inj_left' happend rfl
    have hmem : '>' ∈ "<br".toList := by
      rw [hstart]
      exact List.mem_append_right left List.mem_cons_self
    exact absurd hmem (by decide)

/-- An error page shows its wording in one line. -/
theorem not_mem_pageMessage (fault : Fault) (safe : Text) :
    '\n' ∉ fault.pageMessage true safe := by
  intro hmem
  rw [pageMessage_eq] at hmem
  obtain ⟨c, -, hc⟩ := List.mem_flatMap.mp hmem
  unfold pageChar at hc
  split at hc
  · exact absurd hc (by decide)
  · exact newline_not_mem_escapeChar ‹_› hc

/-- **The wording of a fault is read back from an error page.** -/
theorem shown_pageMessage (fault : Fault) (safe : Text) :
    shown (fault.pageMessage true safe) = fault.message := by
  have hless : '<' ∉ escape fault.message := not_mem_escape (by decide) (by decide) _
  have hundone : Text.replaceAll "<br>" "\n" (fault.pageMessage true safe) =
      escape fault.message := by
    rw [pageMessage, if_pos rfl, publicMessage_true]
    exact Text.replaceAll_undone hless '\n' "br>"
  rw [shown, hundone, Html.unescape_escape]

end Fault

namespace Html

/-- **Escaping is safe and loses nothing.** An escaped text holds no angle bracket and no quote,
each ampersand in it begins one of the five entities, and reading the entities in one pass from the
left gives the text, so that different texts have different escaped forms. The wording of a fault
in an error page of debug mode holds angle brackets only in its line breaks, and no line feed; with
the line breaks undone and the entities read it is the wording of the fault. -/
theorem escape_reversible :
    (∀ t, (∀ c ∈ ['<', '>', '\x22', '\x27'], c ∉ escape t) ∧
      (∀ before after, escape t = before ++ '&' :: after →
        ∃ entry ∈ entities, entry.2 <+: '&' :: after) ∧
      unescape (escape t) = t) ∧
    Function.Injective escape ∧
    ∀ (fault : Fault) (safe : Text),
      (∀ before after, fault.pageMessage true safe = before ++ '<' :: after →
        "br>".toList <+: after) ∧
      (∀ before after, fault.pageMessage true safe = before ++ '>' :: after →
        "<br".toList <:+ before) ∧
      '\n' ∉ fault.pageMessage true safe ∧
      unescape (Text.replaceAll "<br>" "\n" (fault.pageMessage true safe)) = fault.message := by
  have hquotes : ∀ c ∈ ['<', '>', '\x22', '\x27'], c ∈ special ∧ c ≠ '&' := by
    simp only [List.forall_mem_cons]
    exact ⟨by decide, by decide, by decide, by decide, nofun⟩
  refine ⟨fun t => ⟨fun c hc => ?_, fun before after => exists_entity_of_escape,
    unescape_escape t⟩, escape_injective, fun fault safe => ⟨fun before after =>
      Fault.break_of_less, fun before after => Fault.break_of_greater,
      fault.not_mem_pageMessage safe, fault.shown_pageMessage safe⟩⟩
  exact not_mem_escape (hquotes c hc).1 (hquotes c hc).2 t

/-- A tag, and a text that looks like an entity already. -/
theorem escape_reversible_sample :
    escape "<b>&lt;" = "&lt;b&gt;&amp;lt;".toList ∧ '<' ∉ escape "<b>&lt;" ∧
      unescape "&lt;b&gt;&amp;lt;" = "<b>&lt;".toList := by
  have hescaped : escape "<b>&lt;" = "&lt;b&gt;&amp;lt;".toList := by decide
  obtain ⟨hquotes, -, hread⟩ := escape_reversible.1 "<b>&lt;".toList
  exact ⟨hescaped, hquotes '<' (by decide), hescaped ▸ hread⟩

end Html
end PageServer
