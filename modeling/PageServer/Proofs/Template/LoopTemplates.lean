/-
# Templates of loops

Loops inside each other, each one directly inside the one before, with letters
and values around them. Such a template is read as a tree of loops, where the
parts around an inner loop show what the letters and values do.

* `IsChain`, `enclosing`: the names of loops inside each other
* `Cell`, `Level`: what stands around an inner loop, and a loop with it
* `Level.reads_source`: the pieces of the template, by induction on the loops
* `Draft.exists_run_joined`: texts may be read in parts
* `Level.parse_source`: its tree, by induction on the loops
-/
import Mathlib
import PageServer.Proofs.Template.Scoping

namespace PageServer

open Token.Kind (isLoopName)

/-! ## Names of loops -/

/-- The parts of the names of loops inside each other: the name of each loop is joined from its
own part and those of the loops around it. -/
structure IsChain (parts : List Text) : Prop where
  /-- No part is empty. -/
  filled : ∀ part ∈ parts, part ≠ []
  /-- All characters are small letters, digits or low lines. -/
  chars : ∀ part ∈ parts, ∀ c ∈ part, Reference.isLoopChar c = true
  /-- The first part has at least two of them. -/
  long : ∀ first ∈ parts.head?, 2 ≤ first.length

/-- The name of the innermost of the loops around a place. -/
def enclosing : List Text → Option Text
  | [] => none
  | first :: others => some (Text.join "." (first :: others))

/-- A name is as long as its first part or longer. -/
theorem length_le_join (first : Text) (others : List Text) :
    first.length ≤ (Text.join "." (first :: others)).length := by
  cases others with
  | nil => simp [Text.join]
  | cons next others =>
      rw [Text.join, List.intercalate_cons_cons, List.length_append, List.length_append]
      omega

/-- The name of a loop inside another one goes on behind that of the other one. -/
theorem join_concat {outer : List Text} (h : outer ≠ []) (segment : Text) :
    Text.join "." (outer ++ [segment]) = Text.join "." outer ++ '.' :: segment :=
  Text.join_concat h '.' segment

theorem enclosing_concat (outer : List Text) (segment : Text) :
    enclosing (outer ++ [segment]) = some (Text.join "." (outer ++ [segment])) := by
  cases outer <;> rfl

/-- Such a name may stand in the tag of a loop. -/
theorem IsChain.isLoopName {path more : List Text} (h : IsChain (path ++ more))
    (hpath : path ≠ []) : isLoopName (Text.join "." path) = true := by
  have hscope : Reference.IsScope path :=
    ⟨hpath, fun part hpart => h.filled part (List.mem_append_left _ hpart),
      fun part hpart => h.chars part (List.mem_append_left _ hpart)⟩
  have hlong : 2 ≤ (Text.join "." path).length := by
    obtain ⟨first, others, rfl⟩ := List.exists_cons_of_ne_nil hpath
    exact (h.long first rfl).trans (length_le_join first others)
  rw [Token.Kind.isLoopName, Bool.and_eq_true, decide_eq_true_eq, List.all_eq_true]
  exact ⟨hlong, fun c hc => by simpa using hscope.mem_join hc⟩

/-- The rows of a loop lie in the row of the loop around it, under the part of its own. -/
theorem IsChain.loopSource {outer more : List Text} {segment : Text}
    (h : IsChain (outer ++ segment :: more)) (span : Span) :
    Draft.loopSource (enclosing outer) span (Text.join "." (outer ++ [segment])) =
      .ok (enclosing outer, segment) := by
  have hmem : segment ∈ outer ++ segment :: more := by simp
  have hdot : '.' ∉ segment := fun hc => absurd (h.chars segment hmem '.' hc) (by decide)
  cases outer with
  | nil =>
      have halone : Text.join "." ([] ++ [segment]) = segment := by simp [Text.join]
      rw [halone, Draft.loopSource, Text.cutLast_of_not_mem hdot, enclosing]
  | cons first others =>
      have hlong : 2 ≤ (Text.join "." (first :: others)).length :=
        (h.long first rfl).trans (length_le_join first others)
      have houter : Text.join "." (first :: others) ≠ [] :=
        List.ne_nil_of_length_pos (by omega)
      have hparts : ¬ ((Text.join "." (first :: others)).isEmpty || segment.isEmpty) = true := by
        rw [Bool.or_eq_true, List.isEmpty_iff, List.isEmpty_iff, not_or]
        exact ⟨houter, h.filled segment hmem⟩
      rw [join_concat (List.cons_ne_nil first others), Draft.loopSource, Text.cutLast_append hdot]
      dsimp only
      rw [if_neg hparts, enclosing, if_pos rfl]

/-! ## Templates -/

/-- What a template shows: a letter, or a value. -/
inductive Cell where
  /-- A character that stands for itself. -/
  | letter (c : Char)
  /-- The value of a variable or a constant. -/
  | value (r : Reference)

namespace Cell

/-- How it is written. -/
def source : Cell → Text
  | letter c => [c]
  | value r => '\x7b' :: r.word ++ ['\x7d']

/-- The piece that it is written as. -/
def piece : Cell → Piece
  | letter c => .plain c
  | value r => .tag (.reference r) ('\x7b' :: r.word ++ ['\x7d'])

/-- A letter that starts no tag, or a value that a tag can show. -/
def Fits : Cell → Prop
  | letter c => c ≠ '\x7b'
  | value r => r.Printable ∧ r.word ≠ "IGNORE"

/-- A value fits if it is what a tag with its spelling shows. -/
theorem fits_value_iff (r : Reference) :
    (value r).Fits ↔ Reference.ofTag? r.word = some r ∧ r.word ≠ "IGNORE" := by
  rw [Reference.ofTag?_eq_some_iff, and_iff_left rfl]
  rfl

instance : DecidablePred Fits
  | letter c => inferInstanceAs (Decidable (c ≠ '\x7b'))
  | value r => decidable_of_iff' _ (fits_value_iff r)

/-- The instruction that it is read as. -/
def node : Cell → Node
  | letter c => .text [c]
  | value (.var v) => .print v
  | value (.constant name) => .constant name

/-- What it shows on a page. -/
def text (page : Page) : Cell → Text
  | letter c => [c]
  | value (.var v) => ((page.value? v).map Value.text).getD []
  | value (.constant name) => (Table.get? name page.constants).getD []

/-- What several of them show. -/
def texts (page : Page) (cells : List Cell) : Text := cells.flatMap (text page)

end Cell

/-- A loop of a template: the last part of its name, and what stands in it before and behind the
loop inside it. -/
structure Level where
  /-- The last part of the name. -/
  segment : Text
  /-- What stands before the inner loop. -/
  before : List Cell
  /-- What stands behind it. -/
  after : List Cell

namespace Level

/-- The name of a loop inside others. -/
def name (level : Level) (outer : List Text) : Text := Text.join "." (outer ++ [level.segment])

/-- The parts of the names of some loops. -/
def segments (levels : List Level) : List Text := levels.map segment

theorem segments_cons (level : Level) (deeper : List Level) :
    segments (level :: deeper) = level.segment :: segments deeper := rfl

/-- The parts of the names, the outermost loop counted to those around. -/
theorem append_segments_cons (outer : List Text) (level : Level) (deeper : List Level) :
    outer ++ segments (level :: deeper) = (outer ++ [level.segment]) ++ segments deeper := by
  rw [segments_cons, List.append_assoc, List.singleton_append]

/-- Loops that can be written: names of parts that are right, and cells that fit. -/
structure Fit (levels : List Level) : Prop where
  /-- The names are those of loops inside each other. -/
  chain : IsChain (segments levels)
  /-- What stands before an inner loop fits. -/
  before : ∀ level ∈ levels, ∀ cell ∈ level.before, cell.Fits
  /-- What stands behind it fits. -/
  after : ∀ level ∈ levels, ∀ cell ∈ level.after, cell.Fits

/-- The tag that starts a loop. -/
def startTag (name : Text) : Text := "\x7bLOOP: " ++ name ++ "\x7d"

/-- The tag that ends it. -/
def endTag (name : Text) : Text := "\x7b/LOOP: " ++ name ++ "\x7d"

/-- The template of some loops inside each other, the first one being inside the loops `outer`. -/
def source (outer : List Text) : List Level → Text
  | [] => []
  | level :: deeper =>
    startTag (level.name outer) ++
      (level.before.flatMap Cell.source ++
        (source (outer ++ [level.segment]) deeper ++
          (level.after.flatMap Cell.source ++
            endTag (level.name outer))))

end Level

/-! ## Pieces -/

namespace Piece

/-- Pieces one behind the other. -/
theorem Reads.append {t middle rest : Text} {first second : List Piece} (h : Reads t first middle)
    (hsecond : Reads middle second rest) : Reads t (first ++ second) rest := by
  induction h with
  | nil => exact hsecond
  | cons hpiece _ ih => exact .cons hpiece (ih hsecond)

/-- A cell is one piece. -/
theorem starts_cell {cell : Cell} (h : cell.Fits) (rest : Text) :
    Starts (cell.source ++ rest) cell.piece rest := by
  cases cell with
  | letter c => exact .plain (unmarked_of_ne h rest)
  | value r =>
      refine .tag (.braced (.reference h.1)) fun hmark => h.2 ?_
      have hinside : r.word ++ ['\x7d'] = "IGNORE".toList ++ ['\x7d'] := (List.cons.inj hmark).2
      exact List.append_cancel_right hinside

/-- Cells are as many pieces. -/
theorem reads_cells {cells : List Cell} (h : ∀ cell ∈ cells, cell.Fits) (rest : Text) :
    Reads (cells.flatMap Cell.source ++ rest) (cells.map Cell.piece) rest := by
  induction cells with
  | nil => exact .nil
  | cons cell cells ih =>
      obtain ⟨hcell, hcells⟩ := List.forall_mem_cons.mp h
      rw [List.flatMap_cons, List.append_assoc, List.map_cons]
      exact .cons (starts_cell hcell _) (ih hcells)

end Piece

namespace Level

open Piece (Reads Starts)

/-- The pieces of a template of loops. -/
def pieces (outer : List Text) : List Level → List Piece
  | [] => []
  | level :: deeper =>
    .tag (.loop (level.name outer))
        (startTag (level.name outer)) ::
      (level.before.map Cell.piece ++ (pieces (outer ++ [level.segment]) deeper ++
        (level.after.map Cell.piece ++
          [.tag (.endLoop (level.name outer))
            (endTag (level.name outer))])))

theorem starts_startTag {name : Text} (h : isLoopName name = true) (rest : Text) :
    Starts (startTag name ++ rest) (.tag (.loop name) (startTag name)) rest := by
  refine .tag (.braced (.loop h)) fun hmark => ?_
  have hletter : 'L' = 'I' := (List.cons.inj (List.cons.inj hmark).2).1
  exact absurd hletter (by decide)

theorem starts_endTag {name : Text} (h : isLoopName name = true) (rest : Text) :
    Starts (endTag name ++ rest) (.tag (.endLoop name) (endTag name)) rest := by
  refine .tag (.braced (.endLoop h)) fun hmark => ?_
  have hletter : '/' = 'I' := (List.cons.inj (List.cons.inj hmark).2).1
  exact absurd hletter (by decide)

/-- The template is cut into these pieces. -/
theorem reads_source {outer : List Text} {levels : List Level}
    (hchain : IsChain (outer ++ segments levels))
    (hbefore : ∀ level ∈ levels, ∀ cell ∈ level.before, cell.Fits)
    (hafter : ∀ level ∈ levels, ∀ cell ∈ level.after, cell.Fits) (rest : Text) :
    Reads (source outer levels ++ rest) (pieces outer levels) rest := by
  induction levels generalizing outer rest with
  | nil => exact .nil
  | cons level deeper ih =>
      obtain ⟨hfirst, hbefore⟩ := List.forall_mem_cons.mp hbefore
      obtain ⟨hlast, hafter⟩ := List.forall_mem_cons.mp hafter
      rw [append_segments_cons] at hchain
      have hname := hchain.isLoopName (by simp)
      simp only [source, pieces, List.append_assoc]
      refine .cons (starts_startTag hname _) ((Piece.reads_cells hfirst _).append ?_)
      refine (ih hchain hbefore hafter _).append ((Piece.reads_cells hlast _).append ?_)
      exact .cons (starts_endTag hname rest) .nil

end Level

/-! ## Texts that are joined -/

namespace Draft

/-- Two texts that are added are added as one. -/
theorem push_text_text (d : Draft) (first second : Text) :
    (d.push (.text first)).push (.text second) = d.push (.text (first ++ second)) := by
  obtain ⟨layers, nodes⟩ := d
  unfold push
  cases nodes with
  | nil => rfl
  | cons node nodes => cases node <;> simp

/-- Tokens whose texts are joined are read as those whose texts are not. -/
theorem exists_run_joined {kinds : List Token.Kind} {tokens : List Token}
    (hfilled : ∀ kind ∈ kinds, kind ≠ .text [])
    (h : tokens.map Token.kind = Token.Kind.joined kinds) :
    ∃ apart, apart.map Token.kind = kinds ∧ ∀ d : Draft, d.run tokens = d.run apart := by
  induction kinds generalizing tokens with
  | nil =>
      obtain rfl := List.map_eq_nil_iff.mp h
      exact ⟨[], rfl, fun _ => rfl⟩
  | cons kind kinds ih =>
      obtain ⟨hkind, hkinds⟩ := List.forall_mem_cons.mp hfilled
      rw [Token.Kind.joined_cons] at h
      -- a token that is joined with nothing is read as it is
      have halone : Token.Kind.before kind (Token.Kind.joined kinds) =
          kind :: Token.Kind.joined kinds →
            ∃ apart, apart.map Token.kind = kind :: kinds ∧
              ∀ d : Draft, d.run tokens = d.run apart := by
        intro hbefore
        rw [hbefore] at h
        obtain ⟨token, rest, rfl, rfl, hrest⟩ := List.map_eq_cons_iff.mp h
        obtain ⟨apart, hapart, hrun⟩ := ih hkinds hrest
        refine ⟨token :: apart, by rw [List.map_cons, hapart], fun d => ?_⟩
        rw [run, run]
        cases d.step token with
        | error fault => rfl
        | ok next => exact hrun next
      cases htext : kind.text? with
      | none => exact halone (Token.Kind.before_of_ne_text htext _)
      | some t =>
          obtain rfl := Token.Kind.eq_text_of_text? htext
          have ht : t ≠ [] := fun hempty => hkind (by rw [hempty])
          by_cases hhead : ∀ next ∈ (Token.Kind.joined kinds).head?, next.text? = none
          · exact halone (Token.Kind.before_text ht hhead)
          · push Not at hhead
            obtain ⟨next, hnext, hsome⟩ := hhead
            obtain ⟨u, hu⟩ := Option.ne_none_iff_exists'.mp hsome
            obtain rfl := Token.Kind.eq_text_of_text? hu
            obtain ⟨more, hmore⟩ := List.head?_eq_some_iff.mp hnext
            rw [hmore] at h
            obtain ⟨⟨_, span⟩, rest, rfl, rfl, hrest⟩ := List.map_eq_cons_iff.mp h
            have hbehind : (⟨.text u, span⟩ :: rest : List Token).map Token.kind =
                Token.Kind.joined kinds := by rw [List.map_cons, hrest, hmore]
            obtain ⟨apart, hapart, hrun⟩ := ih hkinds hbehind
            refine ⟨⟨.text t, span⟩ :: apart, by rw [List.map_cons, hapart], fun d => ?_⟩
            have hfirst : Steps d ⟨.text t, span⟩ (d.push (.text t)) := .text
            rw [run_cons_of_steps .text, ← push_text_text, run_cons_of_steps hfirst, ← hrun,
              run_cons_of_steps .text]

end Draft

/-! ## What is read -/

namespace Page

theorem followedBy_nil (first : Except Fault Text) : followedBy first (.ok []) = first := by
  cases first with
  | error fault => rfl
  | ok t => exact congrArg Except.ok (List.append_nil t)

theorem followedBy_assoc (first second third : Except Fault Text) :
    followedBy (followedBy first second) third = followedBy first (followedBy second third) := by
  cases first with
  | error fault => rfl
  | ok t =>
      cases second with
      | error fault => rfl
      | ok u =>
          cases third with
          | error fault => rfl
          | ok v => exact congrArg Except.ok (List.append_assoc t u v)

end Page

namespace Node

open Page (followedBy followedBy_nil followedBy_assoc)

theorem renderAll_append (page : Page) (first second : List Node) :
    renderAll page (first ++ second) =
      followedBy (renderAll page first) (renderAll page second) := by
  induction first with
  | nil =>
      rw [List.nil_append, renderAll]
      cases renderAll page second <;> rfl
  | cons node first ih =>
      rw [List.cons_append, renderAll_cons, ih, renderAll_cons, followedBy_assoc]

/-- An instruction that is added shows what it shows behind the others, also where it is a text
that joins the one before it. -/
theorem renderAll_push (page : Page) (d : Draft) (node : Node) :
    renderAll page (d.push node).nodes.reverse =
      followedBy (renderAll page d.nodes.reverse) (renderOne page node) := by
  have hlast : ∀ (nodes : List Node) (last : Node), renderAll page (last :: nodes).reverse =
      followedBy (renderAll page nodes.reverse) (renderOne page last) := by
    intro nodes last
    rw [List.reverse_cons, renderAll_append, renderAll_cons, renderAll, followedBy_nil]
  unfold Draft.push
  split
  · rename_i t before rest hnodes
    rw [hlast, hnodes, hlast, followedBy_assoc]
    rfl
  · exact hlast _ _

/-- A cell is read as an instruction that shows it. -/
theorem renderOne_cell (page : Page) (cell : Cell) :
    renderOne page cell.node = .ok (cell.text page) := by
  rcases cell with c | ⟨v | name⟩ <;> rfl

end Node

namespace Level

open Page (followedBy followedBy_nil followedBy_assoc)
open Node (renderAll renderAll_append renderAll_push renderOne_cell)

/-- Cells are read as instructions that show them. -/
theorem run_cells {cells : List Cell} {tokens : List Token}
    (h : tokens.map Token.kind = cells.map fun cell => cell.piece.kind) (d : Draft) :
    ∃ nodes, d.run tokens = .ok ⟨d.layers, nodes⟩ ∧
      ∀ page, renderAll page nodes.reverse =
        followedBy (renderAll page d.nodes.reverse) (.ok (Cell.texts page cells)) := by
  induction cells generalizing tokens d with
  | nil =>
      obtain rfl := List.map_eq_nil_iff.mp h
      exact ⟨d.nodes, rfl, fun page => (followedBy_nil _).symm⟩
  | cons cell cells ih =>
      obtain ⟨⟨kind, span⟩, rest, rfl, hkind, hrest⟩ := List.map_eq_cons_iff.mp h
      have hstep : Draft.Steps d ⟨kind, span⟩ (d.push cell.node) := by
        rcases cell with c | ⟨v | name⟩ <;> obtain rfl : kind = _ := hkind
        · exact .text
        · exact .print
        · exact .constant
      obtain ⟨nodes, hrun, hnodes⟩ := ih hrest (d.push cell.node)
      rw [Draft.push_layers] at hrun
      refine ⟨nodes, (Draft.run_cons_of_steps hstep rest).trans hrun, fun page => ?_⟩
      rw [hnodes, renderAll_push, renderOne_cell, followedBy_assoc]
      rfl

/-- The trees of a template of loops: one loop inside the other, with instructions around the inner
one that show the cells around it. -/
def Nested : List Text → List Level → List Node → Prop
  | _, [], nodes => nodes = []
  | outer, level :: deeper, nodes => ∃ body inner span,
    nodes = [.loop (level.name outer) (enclosing outer) level.segment body
      span] ∧
    Nested (outer ++ [level.segment]) deeper inner ∧
    ∀ page, renderAll page body =
      followedBy (.ok (Cell.texts page level.before))
        (followedBy (renderAll page inner) (.ok (Cell.texts page level.after)))

/-- What the pieces are in the tokens. -/
theorem kinds_pieces_cons (outer : List Text) (level : Level) (deeper : List Level) :
    (pieces outer (level :: deeper)).map Piece.kind =
      .loop (level.name outer) ::
        (level.before.map (fun cell => cell.piece.kind) ++
          ((pieces (outer ++ [level.segment]) deeper).map Piece.kind ++
            (level.after.map (fun cell => cell.piece.kind) ++
              [.endLoop (level.name outer)]))) := by
  simp only [pieces, List.map_cons, List.map_append, List.map_map]
  rfl

/-- The tokens of the template are read as such a tree. -/
theorem run_pieces {outer : List Text} {levels : List Level} {tokens : List Token}
    (hchain : IsChain (outer ++ segments levels))
    (h : tokens.map Token.kind = (pieces outer levels).map Piece.kind) {d : Draft}
    (hd : Draft.innermost d.layers = enclosing outer) :
    ∃ nodes, d.run tokens = .ok ⟨d.layers, nodes.reverse ++ d.nodes⟩ ∧
      Nested outer levels nodes := by
  induction levels generalizing outer tokens d with
  | nil =>
      obtain rfl := List.map_eq_nil_iff.mp h
      exact ⟨[], rfl, rfl⟩
  | cons level deeper ih =>
      -- the tokens of the tags, of the cells and of the inner loop
      rw [kinds_pieces_cons] at h
      obtain ⟨⟨_, opened⟩, _, rfl, rfl, hopened⟩ := List.map_eq_cons_iff.mp h
      obtain ⟨front, _, rfl, hfront, hinside⟩ := List.map_eq_append_iff.mp hopened
      obtain ⟨middle, _, rfl, hmiddle, hbehind⟩ := List.map_eq_append_iff.mp hinside
      obtain ⟨back, _, rfl, hback, hclosed⟩ := List.map_eq_append_iff.mp hbehind
      obtain ⟨⟨_, closed⟩, _, rfl, rfl, hend⟩ := List.map_eq_cons_iff.mp hclosed
      obtain rfl := List.map_eq_nil_iff.mp hend
      let tag : OpenTag := .loop (level.name outer) (enclosing outer)
        level.segment opened
      have hstart : Draft.Steps d ⟨.loop (level.name outer), opened⟩
          (d.enter tag) := by
        apply Draft.Steps.loop
        rw [Draft.innermostLoop_eq, hd]
        exact hchain.loopSource opened
      have hinnermost : Draft.innermost (d.enter tag).layers =
          enclosing (outer ++ [level.segment]) := (enclosing_concat outer level.segment).symm
      rw [append_segments_cons] at hchain
      obtain ⟨nodes, hnodes, hbefore⟩ := run_cells hfront (d.enter tag)
      obtain ⟨inner, hinner, hnested⟩ := ih hchain hmiddle (d := ⟨_, nodes⟩) hinnermost
      obtain ⟨nodes', hnodes', hafter⟩ := run_cells hback ⟨_, inner.reverse ++ nodes⟩
      refine ⟨[.loop _ _ _ nodes'.reverse opened], ?_, nodes'.reverse, inner, opened, rfl, hnested,
        fun page => ?_⟩
      · rw [Draft.run_cons_of_steps hstart, Draft.run_append hnodes, Draft.run_append hinner,
          Draft.run_append hnodes']
        exact Draft.run_cons_of_steps .endLoop []
      · rw [hafter, List.reverse_append, List.reverse_reverse, renderAll_append, hbefore,
          followedBy_assoc]
        rfl

/-- No piece of the template is an empty text or an include tag. -/
theorem of_mem_pieces {outer : List Text} {levels : List Level} :
    ∀ piece ∈ pieces outer levels,
      piece.kind ≠ .text [] ∧ ∀ name, piece.kind ≠ .inclusion name := by
  have hcells : ∀ cells : List Cell, ∀ piece ∈ cells.map Cell.piece,
      piece.kind ≠ .text [] ∧ ∀ name, piece.kind ≠ .inclusion name := by
    intro cells piece hpiece
    obtain ⟨cell, -, rfl⟩ := List.mem_map.mp hpiece
    rcases cell with c | ⟨v | name⟩ <;> simp [Cell.piece, Piece.kind]
  induction levels generalizing outer with
  | nil => simp [pieces]
  | cons level deeper ih =>
      rw [pieces, List.forall_mem_cons, List.forall_mem_append, List.forall_mem_append,
        List.forall_mem_append]
      exact ⟨by simp [Piece.kind], hcells _, ih, hcells _, by simp [Piece.kind]⟩

/-- **A template of loops is read as a tree of loops, each one directly inside the one before.** -/
theorem parse_source {σ : Type} (loader : Loader σ) {levels : List Level} (h : Fit levels)
    (file : Text) (state : σ) :
    ∃ tree, Action.run (Node.parse loader (source [] levels) file) state = (.ok tree, state) ∧
      Nested [] levels tree := by
  have hreads : Piece.Reads (source [] levels ++ []) (pieces [] levels) [] :=
    reads_source (show IsChain ([] ++ segments levels) from h.chain) h.before h.after []
  rw [List.append_nil] at hreads
  obtain ⟨tokens, hscan, hkinds⟩ := Token.kinds_of_reads hreads file
  have hplain : ∀ token ∈ tokens, ∀ name, token.kind ≠ .inclusion name := by
    intro token htoken name hname
    have hmem : token.kind ∈ Token.Kind.joined ((pieces [] levels).map Piece.kind) := by
      rw [← hkinds]
      exact List.mem_map_of_mem htoken
    rw [hname] at hmem
    obtain ⟨piece, hpiece, hkind⟩ := List.mem_map.mp (Token.Kind.mem_of_mem_joined hmem rfl)
    exact (of_mem_pieces piece hpiece).2 name hkind
  have hfilled : ∀ kind ∈ (pieces [] levels).map Piece.kind, kind ≠ .text [] := by
    rintro _ hmem
    obtain ⟨piece, hpiece, rfl⟩ := List.mem_map.mp hmem
    exact (of_mem_pieces piece hpiece).1
  obtain ⟨apart, hapart, hrun⟩ := Draft.exists_run_joined hfilled hkinds
  obtain ⟨nodes, hnodes, hnested⟩ :
      ∃ nodes, Draft.run {} apart = .ok ⟨[], nodes.reverse ++ []⟩ ∧ Nested [] levels nodes :=
    run_pieces (show IsChain ([] ++ segments levels) from h.chain) hapart rfl
  refine ⟨nodes, ?_, hnested⟩
  have htree : Node.ofTokens tokens = .ok nodes :=
    Node.ofTokens_eq_ok_iff.mpr ⟨_, (hrun {}).trans hnodes, by simp⟩
  rw [Node.run_parse hscan (Token.run_expand_of_forall hplain _ state), htree]

end Level

end PageServer
