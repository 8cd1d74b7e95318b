import Idax.Library.DotLexer

/-!
Labels of nodes that are tables in HTML: the tags and characters of such a label, and the cells of its
table with the port each of them is, and with the text that stands in it. A table is read piece by
piece, with how deep in the angle brackets of the label each piece begins and ends.
-/

namespace HtmlLabel

open DotLanguage (Text)

inductive Event where
  | open (tag : Text) (attrs : List (Text × Text))
  | close (tag : Text)
  | char (c : Char)
  deriving DecidableEq, Repr

inductive MarkupState where
  | text
  | entity (name : Text)
  | angle
  | closing (tag : Text)
  | opening (tag : Text)
  | attributes (tag : Text) (attrs : List (Text × Text))
  | key (tag : Text) (attrs : List (Text × Text)) (key : Text)
  | equals (tag : Text) (attrs : List (Text × Text)) (key : Text)
  | value (tag : Text) (attrs : List (Text × Text)) (key value : Text)
  | valueEntity (tag : Text) (attrs : List (Text × Text)) (key value name : Text)
  | afterValue (tag : Text) (attrs : List (Text × Text))
  deriving DecidableEq, Repr

def isNameChar (c : Char) : Bool :=
  c.isAlphanum || c = '-' || c = '_'

def entity? (name : Text) : Option Char :=
  if name = "lt".toList then
    some '<'
  else if name = "gt".toList then
    some '>'
  else if name = "amp".toList then
    some '&'
  else if name = "quot".toList then
    some '"'
  else if name = "apos".toList then
    some '\''
  else
    none

namespace MarkupState

def step : MarkupState → Char → Option (MarkupState × List Event)
  | .text, c =>
    if c = '<' then
      some (.angle, [])
    else if c = '&' then
      some (.entity [], [])
    else
      some (.text, [.char c])
  | .entity name, c =>
    if c = ';' then
      (entity? name).map fun c => (.text, [.char c])
    else if isNameChar c then
      some (.entity (name ++ [c]), [])
    else
      none
  | .angle, c =>
    if c = '/' then
      some (.closing [], [])
    else if c.isAlpha then
      some (.opening [c], [])
    else
      none
  | .closing tag, c =>
    if c = '>' then
      some (.text, [.close tag])
    else if isNameChar c then
      some (.closing (tag ++ [c]), [])
    else
      none
  | .opening tag, c =>
    if c = '>' then
      some (.text, [.open tag []])
    else if c.isWhitespace then
      some (.attributes tag [], [])
    else if isNameChar c then
      some (.opening (tag ++ [c]), [])
    else
      none
  | .attributes tag attrs, c =>
    if c = '>' then
      some (.text, [.open tag attrs])
    else if c.isWhitespace then
      some (.attributes tag attrs, [])
    else if c.isAlpha then
      some (.key tag attrs [c], [])
    else
      none
  | .key tag attrs name, c =>
    if c = '=' then
      some (.equals tag attrs name, [])
    else if isNameChar c then
      some (.key tag attrs (name ++ [c]), [])
    else
      none
  | .equals tag attrs name, c => if c = '"' then some (.value tag attrs name [], []) else none
  | .value tag attrs name content, c =>
    if c = '"' then
      some (.afterValue tag (attrs ++ [(name, content)]), [])
    else if c = '&' then
      some (.valueEntity tag attrs name content [], [])
    else if c = '<' then
      none
    else
      some (.value tag attrs name (content ++ [c]), [])
  | .valueEntity tag attrs name content reference, c =>
    if c = ';' then
      (entity? reference).map fun c => (.value tag attrs name (content ++ [c]), [])
    else if isNameChar c then
      some (.valueEntity tag attrs name content (reference ++ [c]), [])
    else
      none
  | .afterValue tag attrs, c =>
    if c = '>' then
      some (.text, [.open tag attrs])
    else if c.isWhitespace then
      some (.attributes tag attrs, [])
    else
      none

end MarkupState

structure Cell where
  port : Option Text := none
  text : Text
  deriving DecidableEq, Repr

inductive TableState where
  | outside
  | table
  | row
  | cell (port : Option Text) (text : Text) (tags : List Text)
  | done
  deriving DecidableEq, Repr

def isStyleTag (tag : Text) : Bool :=
  (["B", "I", "U", "O", "S", "SUB", "SUP", "FONT"].map String.toList).contains tag

def skipSpace (s : TableState) (c : Char) : Option (TableState × List Cell) :=
  if c.isWhitespace then some (s, []) else none

namespace TableState

def step : TableState → Event → Option (TableState × List Cell)
  | .outside, .open tag _ => if tag = "TABLE".toList then some (.table, []) else none
  | .outside, .char c => skipSpace .outside c
  | .table, .open tag _ => if tag = "TR".toList then some (.row, []) else none
  | .table, .close tag => if tag = "TABLE".toList then some (.done, []) else none
  | .table, .char c => skipSpace .table c
  | .row, .open tag attrs =>
    if tag = "TD".toList then some (.cell (attrs.lookup "PORT".toList) [] [], []) else none
  | .row, .close tag => if tag = "TR".toList then some (.table, []) else none
  | .row, .char c => skipSpace .row c
  | .cell port text tags, .open tag _ =>
    if isStyleTag tag then some (.cell port text (tag :: tags), []) else none
  | .cell port text [], .close tag =>
    if tag = "TD".toList then some (.row, [{ port, text }]) else none
  | .cell port text (current :: tags), .close tag =>
    if tag = current then some (.cell port text tags, []) else none
  | .cell port text tags, .char c => some (.cell port (text ++ [c]) tags, [])
  | .done, .char c => skipSpace .done c
  | _, _ => none

end TableState

def events (content : Text) : Option (List Event) :=
  match Transducer.run MarkupState.step .text content with
  | some (.text, out) => some out
  | _ => none

def cells (content : Text) : Option (List Cell) := do
  let tags ← events content
  match Transducer.run TableState.step .outside tags with
  | some (.done, out) => some out
  | _ => none

structure Position where
  depth : Nat
  markup : MarkupState
  table : TableState

variable {before middle after : Position} {text more : Text} {found others : List Cell}

def Piece (before : Position) (text : Text) (after : Position) (found : List Cell) : Prop :=
  DotLanguage.htmlDepth before.depth text = some after.depth
    ∧ ∃ tags, Transducer.run MarkupState.step before.markup text = some (after.markup, tags)
      ∧ Transducer.run TableState.step before.table tags = some (after.table, found)

theorem piece_nil (position : Position) : Piece position [] position [] :=
  ⟨rfl, [], rfl, rfl⟩

theorem Piece.append (h : Piece before text middle found) (h' : Piece middle more after others)
    : Piece before (text ++ more) after (found ++ others) := by
  rcases h with ⟨hdepth, tags, htags, hcells⟩
  rcases h' with ⟨hdepth', tags', htags', hcells'⟩
  refine ⟨?_, tags ++ tags', Transducer.run_append htags htags', Transducer.run_append hcells hcells'⟩
  rw [DotLanguage.htmlDepth_append hdepth]
  exact hdepth'

theorem piece_flatMap {γ : Type u} {pieces : List γ} {line : γ → Text} {outcome : γ → List Cell}
    (h : ∀ piece ∈ pieces, Piece before (line piece) before (outcome piece))
    : Piece before (pieces.flatMap line) before (pieces.flatMap outcome) := by
  induction pieces with
  | nil => exact piece_nil before
  | cons piece pieces ih =>
    rw [List.flatMap_cons, List.flatMap_cons]
    apply (h piece (.head _)).append
    apply ih fun other hother => h other (.tail _ hother)

def isPlain (c : Char) : Bool :=
  c ∉ ['<', '>', '&', '"']

theorem htmlDepth_plain (h : ∀ c ∈ text, isPlain c = true) (depth : Nat)
    : DotLanguage.htmlDepth depth text = some depth := by
  apply DotLanguage.htmlDepth_of_not_mem
  . intro hmem
    exact absurd (h _ hmem) (by decide)
  . intro hmem
    exact absurd (h _ hmem) (by decide)

theorem run_chars (port : Option Text) (content text : Text) (tags : List Text)
    : Transducer.run TableState.step (.cell port content tags) (text.map .char)
        = some (.cell port (content ++ text) tags, []) := by
  induction text generalizing content with
  | nil => simp
  | cons c text ih =>
    have hrest := ih (content ++ [c])
    rw [List.append_assoc] at hrest
    have hstep : TableState.step (.cell port content tags) (.char c)
        = some (.cell port (content ++ [c]) tags, []) := by
      simp [TableState.step]
    exact Transducer.run_cons hstep hrest

theorem piece_plain (h : ∀ c ∈ text, isPlain c = true) (depth : Nat) (port : Option Text)
    (content : Text) (tags : List Text)
    : Piece ⟨depth, .text, .cell port content tags⟩ text
        ⟨depth, .text, .cell port (content ++ text) tags⟩ [] := by
  refine ⟨htmlDepth_plain h depth, text.map .char, ?_, run_chars port content text tags⟩
  induction text with
  | nil => rfl
  | cons c text ih =>
    have hc := h c (.head _)
    simp only [isPlain, List.mem_cons, not_or, decide_eq_true_eq] at hc
    have hstep : MarkupState.step .text c = some (.text, [.char c]) := by
      simp [MarkupState.step, hc.left, hc.right.right.left]
    exact Transducer.run_cons hstep (ih fun d hd => h d (.tail _ hd))

theorem piece_value (h : ∀ c ∈ text, isPlain c = true) (depth : Nat) (tag : Text)
    (attrs : List (Text × Text)) (name content : Text) (t : TableState)
    : Piece ⟨depth, .value tag attrs name content, t⟩ text
        ⟨depth, .value tag attrs name (content ++ text), t⟩ [] := by
  refine ⟨htmlDepth_plain h depth, [], ?_, rfl⟩
  have hstep : ∀ c ∈ text, ∀ content, MarkupState.step (.value tag attrs name content) c
      = some (.value tag attrs name (content ++ [id c]), []) := by
    intro c hc content
    have hplain := h c hc
    simp only [isPlain, List.mem_cons, not_or, decide_eq_true_eq] at hplain
    simp [MarkupState.step, hplain.left, hplain.right.right]
  have hrun := Transducer.run_collect (MarkupState.value tag attrs name) id hstep content
  rw [List.map_id] at hrun
  exact hrun

theorem cells_of_piece (h : Piece ⟨0, .text, .outside⟩ text ⟨0, .text, .done⟩ found)
    : DotLanguage.htmlDepth 0 text = some 0 ∧ cells text = some found := by
  rcases h with ⟨hdepth, tags, htags, hcells⟩
  refine ⟨hdepth, ?_⟩
  dsimp only at htags hcells
  unfold cells events
  rw [htags]
  simp only [Option.bind_eq_bind, Option.bind_some]
  rw [hcells]

end HtmlLabel
