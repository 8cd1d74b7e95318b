import Idax.Types.GraphClosure
import Idax.Types.Lemmas.GraphTable

/-!
This module contains the question when the texts of a type graph denote the graph. Different names may
become the same node id, a name is not escaped in the label of a box, and an edge to a type that was
not walked to makes up a node for it.
-/

namespace Idax
namespace Types
namespace TypeGraphRenderer

open DotLanguage (Id Label LabelPart Arrow Denotes)

section Statement

variable (renderer : TypeGraphRenderer) (enumDetails? : String → Option (List Edm))

structure HeldGraph where
  nodes : List GraphNode
  nodup : (nodes.map (·.name)).Nodup
  rows : ∀ node ∈ nodes, ∀ edge ∈ node.edges, ∃ udt,
    renderer.til.udtDetails? (.named node.name) = some udt ∧ edge.fieldIndex < udt.members.length

def arrow (edge : DotEdge) : Arrow String where
  tail := edge.source
  port := (edge.port.map portId).toList
  head := edge.target

def boxText (name : String) : List Char :=
  name.toList ++ "\n[".toList ++ (renderer.kindOf (.named name)).toList ++ "]".toList

def boxLabel (name : String) : Label :=
  .parts ((renderer.boxText name).map LabelPart.char)

def heading (name : String) : List Char :=
  name.toList ++ "  ".toList ++ (renderer.tableKindOf (.named name)).toList

def cells? : Label → Option (List HtmlLabel.Cell)
  | .html content => HtmlLabel.cells content
  | .parts _ => none

def heading? (label : Label) : Option (List Char) := do
  let cells ← cells? label
  let cell ← cells.head?
  some cell.text

def StartsAtPorts (graph : DotLanguage.Graph) : Prop :=
  ∀ ends ∈ graph.arrows, ∃ node ∈ graph.nodes, node.id = ends.fst.id ∧ ∃ port cells,
    ends.fst.port = [.ofText port] ∧ cells? node.label = some cells
      ∧ (cells.filterMap (·.port)).count port = 1

def SimpleExact (nodes : List GraphNode) : Prop :=
  ∃ graph ident, DotLanguage.read (renderer.emitSimpleText nodes) = some graph
    ∧ Denotes (emitSimple nodes).nodes ((emitSimple nodes).edges.map arrow) id renderer.boxLabel
        graph ident

def TableExact (nodes : List GraphNode) : Prop :=
  ∃ graph ident, DotLanguage.read (renderer.emitTableText enumDetails? nodes) = some graph
    ∧ Denotes (emitTable nodes).nodes ((emitTable nodes).edges.map arrow) heading?
        (fun name => some (renderer.heading name)) graph ident
    ∧ StartsAtPorts graph

def DotExact (nodes : List GraphNode) : Prop :=
  renderer.SimpleExact nodes ∧ renderer.TableExact enumDetails? nodes

/--
No two names become the same node id, and each edge leads to a type that was walked to.
-/
structure KeptApart (nodes : List GraphNode) : Prop where
  distinct : ∀ a ∈ nodes, ∀ b ∈ nodes, sanitizeId a.name = sanitizeId b.name → a.name = b.name
  closed : ∀ node ∈ nodes, ∀ edge ∈ node.edges, ∃ target ∈ nodes, target.name = edge.targetName

def Unquoted (nodes : List GraphNode) : Prop :=
  ∀ node ∈ nodes, '"' ∉ node.name.toList ∧ '\\' ∉ node.name.toList

end Statement

section Reading

variable (renderer : TypeGraphRenderer) (enumDetails? : String → Option (List Edm))

def headerGraph (shape : String) : DotLanguage.Graph :=
  DotLanguage.Graph.ofStatements (headerStatements shape)

def drawing (dot : Dot) (attrs : String → DotLanguage.Attributes) : List DotLanguage.Statement :=
  DotLanguage.drawing dot.nodes (dot.edges.map arrow) nodeId attrs

theorem read_of_reads {shape : String} (hshape : shape = "box" ∨ shape = "plain") {body : List Char}
    {statements : List DotLanguage.Statement} (h : DotLanguage.Reads body statements)
    : DotLanguage.read (header shape ++ body ++ "\x7d\n".toList)
        = some (statements.foldl DotLanguage.Graph.apply (headerGraph shape)) := by
  have hall := DotLanguage.read_eq run_opening parse_openingTokens (by decide)
    ((reads_headerLines hshape).append h)
  rw [header_eq, List.append_assoc opening, hall, DotLanguage.Graph.ofStatements, List.foldl_append]
  rfl

theorem port_of_mem_emitSimple {nodes : List GraphNode} {edge : DotEdge}
    (h : edge ∈ (emitSimple nodes).edges) : edge.port = none := by
  simp only [emitSimple, List.mem_eraseDups, List.mem_flatMap, List.mem_map] at h
  rcases h with ⟨_, _, _, _, rfl⟩
  rfl

theorem drawing_emitSimple (nodes : List GraphNode) (attrs : String → DotLanguage.Attributes)
    : drawing (emitSimple nodes) attrs
        = nodes.map (fun node => DotLanguage.nodeStatement (nodeId node.name) (attrs node.name))
            ++ (emitSimple nodes).edges.map fun edge =>
              DotLanguage.edgeStatement { id := nodeId edge.source } { id := nodeId edge.target } := by
  simp only [drawing, DotLanguage.drawing, List.map_map]
  congr 1
  . simp only [emitSimple, List.map_map]
    rfl
  . apply List.map_congr_left
    intro edge hedge
    simp only [Function.comp, DotLanguage.Arrow.ends, arrow, port_of_mem_emitSimple hedge]
    rfl

theorem drawing_emitTable (nodes : List GraphNode) (attrs : String → DotLanguage.Attributes)
    : drawing (emitTable nodes) attrs
        = nodes.map (fun node => DotLanguage.nodeStatement (nodeId node.name) (attrs node.name))
            ++ nodes.flatMap fun node => node.edges.map fun edge =>
              DotLanguage.edgeStatement { id := nodeId node.name, port := [portId edge.fieldIndex] }
                { id := nodeId edge.targetName } := by
  simp only [drawing, DotLanguage.drawing, emitTable, List.map_map, List.map_flatMap]
  rfl

theorem read_emitSimpleText {nodes : List GraphNode} (h : ∀ node ∈ nodes, '"' ∉ node.name.toList)
    : DotLanguage.read (renderer.emitSimpleText nodes)
        = some ((drawing (emitSimple nodes) renderer.simpleAttributes).foldl DotLanguage.Graph.apply
            (headerGraph "box")) := by
  have hnodes := DotLanguage.reads_map fun node hnode => reads_simpleNode renderer (h node hnode)
  have hedges := DotLanguage.reads_map fun edge (_ : edge ∈ (emitSimple nodes).edges) =>
    reads_simpleEdge edge
  have hblank : DotLanguage.Reads "\n".toList [] :=
    ⟨[], by rfl, by rfl, by decide⟩
  have hall := read_of_reads (.inl rfl) ((hnodes.append hblank).append hedges)
  rw [drawing_emitSimple]
  rw [List.append_nil] at hall
  unfold emitSimpleText
  simp only [List.append_assoc] at hall ⊢
  exact hall

theorem read_emitTableText (nodes : List GraphNode)
    : DotLanguage.read (renderer.emitTableText enumDetails? nodes)
        = some ((drawing (emitTable nodes) (renderer.tableAttributes enumDetails?)).foldl
            DotLanguage.Graph.apply (headerGraph "plain")) := by
  have hnodes := DotLanguage.reads_map fun node (_ : node ∈ nodes) =>
    reads_tableNode renderer enumDetails? node
  have hedges := DotLanguage.reads_flatMap fun node (_ : node ∈ nodes) =>
    DotLanguage.reads_map fun edge (_ : edge ∈ node.edges) => reads_tableEdge node.name edge
  have hall := read_of_reads (.inr rfl) (hnodes.append hedges)
  rw [drawing_emitTable]
  unfold emitTableText
  simp only [List.append_assoc] at hall ⊢
  exact hall

end Reading

section Labels

variable (renderer : TypeGraphRenderer) (enumDetails? : String → Option (List Edm))

theorem labelOf_simpleAttributes (name : String) (defaults : DotLanguage.Attributes)
    : DotLanguage.labelOf (renderer.simpleAttributes name ++ defaults)
        = .parts
            ((DotLanguage.quotedChars (renderer.simpleLabel name)).map DotLanguage.QuotedChar.part) := by
  rfl

theorem labelOf_tableAttributes (name : String) (defaults : DotLanguage.Attributes)
    : DotLanguage.labelOf (renderer.tableAttributes enumDetails? name ++ defaults)
        = .html (renderer.tableContent enumDetails? name) := by
  rfl

theorem heading?_tableAttributes (name : String) (defaults : DotLanguage.Attributes)
    : heading? (DotLanguage.labelOf (renderer.tableAttributes enumDetails? name ++ defaults))
        = some (renderer.heading name) := by
  rw [labelOf_tableAttributes, heading?, cells?, (cells_tableContent renderer enumDetails? name).right]
  rfl

theorem label_eq_boxLabel {name : String} (h : '\\' ∉ name.toList) (defaults : DotLanguage.Attributes)
    : DotLanguage.labelOf (renderer.simpleAttributes name ++ defaults) = renderer.boxLabel name := by
  let kind := (renderer.kindOf (.named name)).toList
  have hrest : '\\' ∉ "[".toList ++ kind ++ "]".toList := by
    simp only [List.mem_append, not_or]
    exact ⟨⟨by decide, not_mem_kindOf renderer (by decide) (.named name)⟩, by decide⟩
  have hescape : DotLanguage.quotedChars ("\\n[".toList ++ (kind ++ "]".toList))
      = .escaped 'n' :: DotLanguage.quotedChars ("[".toList ++ kind ++ "]".toList) := by
    rfl
  have hlabel : renderer.simpleLabel name
      = name.toList ++ ("\\n[".toList ++ (kind ++ "]".toList)) := by
    unfold simpleLabel
    simp only [List.append_assoc]
    rfl
  have hbox : name.toList ++ "\n[".toList ++ kind ++ "]".toList
      = name.toList ++ '\n' :: ("[".toList ++ kind ++ "]".toList) := by
    simp only [List.append_assoc]
    rfl
  rw [labelOf_simpleAttributes, boxLabel, boxText, hlabel, DotLanguage.quotedChars_append h, hescape,
    DotLanguage.quotedChars_of_not_mem hrest, hbox]
  simp only [List.map_append, List.map_cons, List.map_map]
  rfl

end Labels

section Ends

variable {renderer : TypeGraphRenderer} {nodes : List GraphNode} {dot : Dot}

structure Joins (nodes : List GraphNode) (dot : Dot) : Prop where
  names : dot.nodes = nodes.map (·.name)
  edges : ∀ source target, (∃ edge ∈ dot.edges, edge.source = source ∧ edge.target = target)
    ↔ ∃ node ∈ nodes, node.name = source ∧ ∃ edge ∈ node.edges, edge.targetName = target

theorem joins_emitSimple (nodes : List GraphNode) : Joins nodes (emitSimple nodes) where
  names := rfl
  edges _ _ := mem_emitSimple_edges

theorem joins_emitTable (nodes : List GraphNode) : Joins nodes (emitTable nodes) where
  names := rfl
  edges _ _ := mem_emitTable_edges

theorem Joins.tails (h : Joins nodes dot) : ∀ edge ∈ dot.edges.map arrow, edge.tail ∈ dot.nodes := by
  intro edge hedge
  rw [List.mem_map] at hedge
  rcases hedge with ⟨drawn, hdrawn, heq⟩
  rcases (h.edges _ _).mp ⟨drawn, hdrawn, rfl, rfl⟩ with ⟨node, hnode, hname, _⟩
  rw [← heq, h.names]
  exact List.mem_map.mpr ⟨node, hnode, hname⟩

theorem Joins.heads_iff (h : Joins nodes dot)
    : (∀ edge ∈ dot.edges.map arrow, edge.head ∈ dot.nodes)
        ↔ ∀ node ∈ nodes, ∀ edge ∈ node.edges, ∃ target ∈ nodes, target.name = edge.targetName := by
  constructor
  . intro hheads node hnode edge hedge
    rcases (h.edges _ _).mpr ⟨node, hnode, rfl, edge, hedge, rfl⟩ with ⟨drawn, hdrawn, _, htarget⟩
    have hhead := hheads (arrow drawn) (List.mem_map.mpr ⟨drawn, hdrawn, rfl⟩)
    rw [h.names, List.mem_map] at hhead
    rcases hhead with ⟨target, hmem, hname⟩
    exact ⟨target, hmem, hname.trans htarget⟩
  . intro hclosed edge hedge
    rw [List.mem_map] at hedge
    rcases hedge with ⟨drawn, hdrawn, heq⟩
    rcases (h.edges _ _).mp ⟨drawn, hdrawn, rfl, rfl⟩ with ⟨node, hnode, _, field, hfield, htarget⟩
    rcases hclosed node hnode field hfield with ⟨target, hmem, hname⟩
    rw [← heq, h.names]
    exact List.mem_map.mpr ⟨target, hmem, hname.trans htarget⟩

theorem nodeId_injective {a b : String} (h : nodeId a = nodeId b) : sanitizeId a = sanitizeId b := by
  unfold nodeId Id.ofText at h
  injection h with h
  apply List.map_injective_iff.mpr _ h
  intro c d hcd
  injection hcd

theorem KeptApart.nodeId (h : KeptApart nodes) (hjoins : Joins nodes dot)
    : ∀ a ∈ dot.nodes, ∀ b ∈ dot.nodes, nodeId a = nodeId b → a = b := by
  intro a ha b hb heq
  rw [hjoins.names, List.mem_map] at ha hb
  rcases ha with ⟨first, hfirst, rfl⟩
  rcases hb with ⟨second, hsecond, rfl⟩
  exact h.distinct first hfirst second hsecond (nodeId_injective heq)

end Ends

section Drawn

theorem nodes_drawing {nodes : List GraphNode} {dot : Dot} (hjoins : Joins nodes dot)
    (hnodup : (nodes.map (·.name)).Nodup) (h : KeptApart nodes) (shape : String)
    (attrs : String → DotLanguage.Attributes)
    : ((drawing dot attrs).foldl DotLanguage.Graph.apply (headerGraph shape)).nodes
        = dot.nodes.map fun name =>
            { id := nodeId name, attrs := attrs name ++ (headerGraph shape).nodeDefaults } := by
  have hempty : (headerGraph shape).nodes = [] := by
    rfl
  have hencoded : (dot.nodes.map nodeId).Nodup := by
    rw [← hjoins.names] at hnodup
    apply hnodup.map_on
    intro a ha b hb
    apply h.nodeId hjoins a ha b hb
  exact DotLanguage.nodes_draw attrs hempty hencoded hjoins.tails (hjoins.heads_iff.mpr h.closed)

end Drawn

section Sufficient

variable {renderer : TypeGraphRenderer} {nodes : List GraphNode} {dot : Dot}

theorem denotes_of_keptApart {β : Type} {shape : String} {attrs : String → DotLanguage.Attributes}
    {view : Label → β} {shown : String → β} (hjoins : Joins nodes dot)
    (hnodup : (nodes.map (·.name)).Nodup) (h : KeptApart nodes)
    (hlabels : ∀ name ∈ dot.nodes,
      view (DotLanguage.labelOf (attrs name ++ (headerGraph shape).nodeDefaults)) = shown name)
    : Denotes dot.nodes (dot.edges.map arrow) view shown
        ((drawing dot attrs).foldl DotLanguage.Graph.apply (headerGraph shape)) nodeId := by
  rw [← hjoins.names] at hnodup
  exact DotLanguage.denotes_draw rfl rfl hnodup (h.nodeId hjoins) hjoins.tails
    (hjoins.heads_iff.mpr h.closed) hlabels

theorem simpleExact_of_keptApart (graph : renderer.HeldGraph) (h : KeptApart graph.nodes)
    (hunquoted : Unquoted graph.nodes) : renderer.SimpleExact graph.nodes := by
  refine ⟨_, nodeId, read_emitSimpleText renderer fun node hnode => (hunquoted node hnode).left, ?_⟩
  apply denotes_of_keptApart (joins_emitSimple graph.nodes) graph.nodup h
  intro name hname
  rw [(joins_emitSimple graph.nodes).names, List.mem_map] at hname
  rcases hname with ⟨node, hnode, heq⟩
  rw [← heq]
  apply label_eq_boxLabel renderer (hunquoted node hnode).right

theorem startsAtPorts_of_keptApart (enumDetails? : String → Option (List Edm))
    (graph : renderer.HeldGraph) (h : KeptApart graph.nodes)
    : StartsAtPorts ((drawing (emitTable graph.nodes) (renderer.tableAttributes enumDetails?)).foldl
        DotLanguage.Graph.apply (headerGraph "plain")) := by
  have hjoins := joins_emitTable graph.nodes
  have hnodes := nodes_drawing hjoins graph.nodup h "plain" (renderer.tableAttributes enumDetails?)
  intro ends hends
  rw [drawing, DotLanguage.arrows_draw, List.mem_append, List.mem_map] at hends
  rcases hends with hnone | ⟨edge, hedge, heq⟩
  . cases hnone
  rw [List.mem_map] at hedge
  rcases hedge with ⟨drawn, hdrawn, hedge⟩
  simp only [emitTable, List.mem_flatMap, List.mem_map] at hdrawn
  rcases hdrawn with ⟨node, hnode, field, hfield, hdrawn⟩
  rcases graph.rows node hnode field hfield with ⟨udt, hudt, hlt⟩
  rw [← heq, ← hedge, ← hdrawn]
  refine ⟨{ id := nodeId node.name
            attrs := renderer.tableAttributes enumDetails? node.name
              ++ (headerGraph "plain").nodeDefaults }, ?_, rfl, portName field.fieldIndex, _, rfl, ?_,
          count_port renderer enumDetails? hudt hlt⟩
  . rw [hnodes]
    exact List.mem_map.mpr ⟨node.name, List.mem_map.mpr ⟨node, hnode, rfl⟩, rfl⟩
  . rw [DotLanguage.Node.label, labelOf_tableAttributes]
    exact (cells_tableContent renderer enumDetails? node.name).right

theorem tableExact_of_keptApart (enumDetails? : String → Option (List Edm))
    (graph : renderer.HeldGraph) (h : KeptApart graph.nodes)
    : renderer.TableExact enumDetails? graph.nodes := by
  refine ⟨_, nodeId, read_emitTableText renderer enumDetails? graph.nodes, ?_,
    startsAtPorts_of_keptApart enumDetails? graph h⟩
  apply denotes_of_keptApart (joins_emitTable graph.nodes) graph.nodup h
  intro name _
  apply heading?_tableAttributes

end Sufficient

section Necessary

variable {renderer : TypeGraphRenderer} {nodes : List GraphNode} {dot : Dot} {β : Type}
  {shape : String} {attrs : String → DotLanguage.Attributes} {view : Label → β} {shown : String → β}
  {ident : String → Id}

theorem assembled_headerGraph (shape : String) (names : List Id)
    : DotLanguage.Assembled names (headerGraph shape).nodeDefaults (headerGraph shape) where
  nodeDefaults := rfl
  nodup := List.nodup_nil
  origin node hnode := by cases hnode
  heads ends hends := by cases hends

theorem keptApart_of_denotes (hjoins : Joins nodes dot)
    (hdefault : ∀ name, view (.parts [.name 'N']) ≠ shown name)
    (h : Denotes dot.nodes (dot.edges.map arrow) view shown
      ((drawing dot attrs).foldl DotLanguage.Graph.apply (headerGraph shape)) ident) : KeptApart nodes := by
  have hassembled := DotLanguage.assembled_draw (dot.edges.map arrow) attrs
    (assembled_headerGraph shape (dot.nodes.map nodeId))
  have hencoded := DotLanguage.nodup_of_denotes hassembled (fun name _ => hdefault name) h
  have hheads := DotLanguage.heads_of_denotes hassembled h
  constructor
  . intro a ha b hb heq
    have hinj := List.inj_on_of_nodup_map hencoded
    rw [hjoins.names] at hinj
    apply hinj (List.mem_map.mpr ⟨a, ha, rfl⟩) (List.mem_map.mpr ⟨b, hb, rfl⟩)
    unfold nodeId
    rw [heq]
  . exact hjoins.heads_iff.mp hheads

end Necessary

section Quotes

variable (renderer : TypeGraphRenderer)

theorem kindOf_eq_of_getLast? {ti other : Tinfo}
    (h : (renderer.kindOf ti).toList.getLast? = (renderer.kindOf other).toList.getLast?)
    : renderer.kindOf ti = renderer.kindOf other := by
  have hall : ∀ kind ∈ ["enum", "typedef", "udt", "type"], ∀ kind' ∈ ["enum", "typedef", "udt", "type"],
      kind.toList.getLast? = kind'.toList.getLast? → kind = kind' := by
    decide
  exact hall _ (kindOf_mem renderer ti) _ (kindOf_mem renderer other) h

theorem getLast?_dropLast_boxText (name : String)
    : (renderer.boxText name).dropLast.getLast? = (renderer.kindOf (.named name)).toList.getLast? := by
  have hall : ∀ kind ∈ ["enum", "typedef", "udt", "type"], kind.toList.getLast?.isSome = true := by
    decide
  have hsome := hall _ (kindOf_mem renderer (.named name))
  rw [boxText, show "]".toList = [']'] from rfl, List.dropLast_concat, List.getLast?_append]
  exact Option.or_of_isSome hsome

theorem boxText_injective {a b : String} (h : renderer.boxText a = renderer.boxText b) : a = b := by
  have hkind : renderer.kindOf (.named a) = renderer.kindOf (.named b) := by
    apply kindOf_eq_of_getLast?
    rw [← getLast?_dropLast_boxText, ← getLast?_dropLast_boxText, h]
  unfold boxText at h
  rw [hkind, List.append_cancel_right_eq, List.append_cancel_right_eq, List.append_cancel_right_eq] at h
  exact String.toList_injective h

theorem count_boxText {c : Char} (hc : c.isAlpha = false) (name : String)
    : (renderer.boxText name).count c = name.toList.count c + "\n[]".toList.count c := by
  have hkind := List.count_eq_zero.mpr (not_mem_kindOf renderer hc (.named name))
  have hadded : "\n[]".toList.count c = "\n[".toList.count c + "]".toList.count c := by
    have hsplit : "\n[]".toList = "\n[".toList ++ "]".toList := by decide
    rw [hsplit, List.count_append]
  rw [boxText, List.count_append, List.count_append, List.count_append, hkind, hadded]
  omega

theorem count_simpleLabel {c : Char} (hc : c.isAlpha = false) (name : String)
    : (renderer.simpleLabel name).count c = name.toList.count c + "\\n[]".toList.count c := by
  have hkind := List.count_eq_zero.mpr (not_mem_kindOf renderer hc (.named name))
  have hadded : "\\n[]".toList.count c = "\\n[".toList.count c + "]".toList.count c := by
    have hsplit : "\\n[]".toList = "\\n[".toList ++ "]".toList := by decide
    rw [hsplit, List.count_append]
  rw [simpleLabel, List.count_append, List.count_append, List.count_append, hkind, hadded]
  omega

end Quotes

section Unquoted

variable {renderer : TypeGraphRenderer}

theorem quote_not_mem_of_simpleExact (graph : renderer.HeldGraph) (h : renderer.SimpleExact graph.nodes)
    : ∀ node ∈ graph.nodes, '"' ∉ node.name.toList := by
  -- all the labels together have the quotes and backslashes of all the names, and the text has too few
  -- backslashes for that if there is a quote
  rcases h with ⟨drawn, ident, hread, hdenotes⟩
  have hnodup : (graph.nodes.map fun node => (renderer.boxText node.name).map LabelPart.char).Nodup := by
    have hinj : Function.Injective fun name => (renderer.boxText name).map LabelPart.char := by
      intro a b hab
      apply boxText_injective renderer
      apply List.map_injective_iff.mpr _ hab
      intro c d hcd
      injection hcd
    have hnames := graph.nodup.map hinj
    rw [List.map_map] at hnames
    exact hnames
  have hlabels : ∀ parts ∈ graph.nodes.map fun node => (renderer.boxText node.name).map LabelPart.char,
      ∃ node ∈ drawn.nodes, node.label = .parts parts := by
    intro parts hparts
    rw [List.mem_map] at hparts
    rcases hparts with ⟨node, hnode, rfl⟩
    have hname : node.name ∈ (emitSimple graph.nodes).nodes := List.mem_map.mpr ⟨node, hnode, rfl⟩
    have hid : ident node.name ∈ drawn.ids := by
      rw [hdenotes.ids.mem_iff]
      exact List.mem_map.mpr ⟨node.name, hname, rfl⟩
    rw [DotLanguage.Graph.ids, List.mem_map] at hid
    rcases hid with ⟨found, hfound, hsame⟩
    exact ⟨found, hfound, hdenotes.labels found hfound node.name hname hsame⟩
  have hsum := DotLanguage.sum_specials_le hread hnodup hlabels
  have hcharge := charge_emitSimpleText_le renderer graph.nodes
  have hspecials : (graph.nodes.map fun node =>
      (renderer.boxText node.name).map LabelPart.char).map DotLanguage.specials
        = graph.nodes.map fun node => node.name.toList.count '"' + node.name.toList.count '\\' := by
    rw [List.map_map]
    apply List.map_congr_left
    intro node _
    simp only [Function.comp, DotLanguage.specials_chars]
    rw [count_boxText renderer (by decide), count_boxText renderer (by decide)]
    rfl
  rw [hspecials, List.sum_map_add] at hsum
  have hzero : (graph.nodes.map fun node => node.name.toList.count '"').sum = 0 := by
    omega
  intro node hnode
  rw [List.sum_eq_zero_iff_forall_eq_nat] at hzero
  exact List.count_eq_zero.mp (hzero _ (List.mem_map.mpr ⟨node, hnode, rfl⟩))

theorem boxLabel_ne_default (name : String) : .parts [.name 'N'] ≠ renderer.boxLabel name := by
  intro h
  injection h with h
  have hmem : LabelPart.name 'N' ∈ (renderer.boxText name).map LabelPart.char := by
    rw [← h]
    exact List.mem_cons_self
  rw [List.mem_map] at hmem
  rcases hmem with ⟨c, _, hc⟩
  cases hc

def labelWeight : Label → Nat
  | .parts parts => DotLanguage.escapes parts
  | .html _ => 0

theorem labelWeight_boxLabel (name : String)
    : labelWeight (renderer.boxLabel name)
        = name.toList.count '\\' + (name.toList.count '\\' + name.toList.count '\n' + 1) := by
  simp only [boxLabel, labelWeight, DotLanguage.escapes_chars]
  rw [count_boxText renderer (by decide), count_boxText renderer (by decide)]
  have hbackslash : "\n[]".toList.count '\\' = 0 := by
    decide
  have hline : "\n[]".toList.count '\n' = 1 := by
    decide
  omega

theorem labelWeight_simpleAttributes_le (name : String) (defaults : DotLanguage.Attributes)
    : labelWeight (DotLanguage.labelOf (renderer.simpleAttributes name ++ defaults))
        ≤ name.toList.count '\\' + name.toList.count '\n' + 1 := by
  have hlast : (renderer.simpleLabel name).getLast? ≠ some '\\' := by
    rw [getLast?_simpleLabel]
    decide
  have hle := DotLanguage.escapes_quotedChars_le hlast
  rw [count_simpleLabel renderer (by decide), count_simpleLabel renderer (by decide)] at hle
  have hbackslash : "\\n[]".toList.count '\\' = 1 := by
    decide
  have hline : "\\n[]".toList.count '\n' = 0 := by
    decide
  rw [labelOf_simpleAttributes, labelWeight]
  omega

theorem backslash_not_mem_of_simpleExact (graph : renderer.HeldGraph)
    (h : renderer.SimpleExact graph.nodes) : ∀ node ∈ graph.nodes, '\\' ∉ node.name.toList := by
  -- a backslash of a name takes the character behind it along, so what is left of the names has too few
  have hquote := quote_not_mem_of_simpleExact graph h
  rcases h with ⟨drawn, ident, hread, hdenotes⟩
  rw [read_emitSimpleText renderer hquote] at hread
  cases hread
  have hjoins := joins_emitSimple graph.nodes
  have happart : KeptApart graph.nodes := by
    apply keptApart_of_denotes hjoins _ hdenotes
    intro name
    apply boxLabel_ne_default
  let label := fun name => DotLanguage.labelOf (renderer.simpleAttributes name
    ++ (headerGraph "box").nodeDefaults)
  have hnodes := nodes_drawing hjoins graph.nodup happart "box" renderer.simpleAttributes
  have hids : ∀ name ∈ (emitSimple graph.nodes).nodes, ∃ node ∈ ((drawing (emitSimple graph.nodes)
      renderer.simpleAttributes).foldl DotLanguage.Graph.apply (headerGraph "box")).nodes,
      node.id = nodeId name ∧ node.label = label name := by
    intro name hname
    rw [hnodes]
    exact ⟨_, List.mem_map.mpr ⟨name, hname, rfl⟩, rfl, rfl⟩
  have hencode : ((drawing (emitSimple graph.nodes) renderer.simpleAttributes).foldl DotLanguage.Graph.apply
      (headerGraph "box")).ids = (emitSimple graph.nodes).nodes.map nodeId := by
    rw [DotLanguage.Graph.ids, hnodes, List.map_map]
    rfl
  have hperm := DotLanguage.labels_perm_of_denotes hids hencode hdenotes
  rw [hjoins.names, List.map_map, List.map_map] at hperm
  have hsum := (hperm.map labelWeight).sum_eq
  rw [List.map_map, List.map_map] at hsum
  have hle : (graph.nodes.map fun node => labelWeight (label node.name)).sum
      ≤ (graph.nodes.map fun node =>
          node.name.toList.count '\\' + node.name.toList.count '\n' + 1).sum := by
    apply List.sum_le_sum
    intro node _
    apply labelWeight_simpleAttributes_le
  have hboxes : (graph.nodes.map fun node => labelWeight (renderer.boxLabel node.name)).sum
      = (graph.nodes.map fun node => node.name.toList.count '\\').sum
        + (graph.nodes.map fun node =>
            node.name.toList.count '\\' + node.name.toList.count '\n' + 1).sum := by
    rw [← List.sum_map_add]
    simp only [labelWeight_boxLabel]
  have hsame : (graph.nodes.map fun node => labelWeight (label node.name)).sum
      = (graph.nodes.map fun node => labelWeight (renderer.boxLabel node.name)).sum :=
    hsum
  have hzero : (graph.nodes.map fun node => node.name.toList.count '\\').sum = 0 := by
    omega
  intro node hnode
  rw [List.sum_eq_zero_iff_forall_eq_nat] at hzero
  exact List.count_eq_zero.mp (hzero _ (List.mem_map.mpr ⟨node, hnode, rfl⟩))

end Unquoted

section Walk

variable (renderer : TypeGraphRenderer)

theorem fieldIndex_lt {name : String} {edge : FieldEdge}
    (h : edge ∈ renderer.fieldEdges name (.named name))
    : ∃ udt, renderer.til.udtDetails? (.named name) = some udt ∧ edge.fieldIndex < udt.members.length := by
  unfold fieldEdges at h
  cases hudt : renderer.til.udtDetails? (.named name) with
  | none =>
    rw [hudt] at h
    cases h
  | some udt =>
    rw [hudt, List.mem_filterMap] at h
    rcases h with ⟨⟨member, i⟩, hmem, hedge⟩
    have hi : i < udt.members.length := by
      rcases List.getElem?_eq_some_iff.mp (List.mem_zipIdx_iff_getElem?.mp hmem) with ⟨hi, _⟩
      exact hi
    have hindex : edge.fieldIndex = i := by
      unfold fieldEdge at hedge
      dsimp only at hedge
      split at hedge
      . cases hedge
      . split at hedge
        . cases hedge
        . cases hedge
          rfl
    rw [hindex]
    exact ⟨udt, rfl, hi⟩

def held (root : String) : renderer.HeldGraph where
  nodes := renderer.walkedNodes root
  nodup := by
    rw [walkedNodes, List.map_reverse, List.nodup_reverse, List.map_map]
    apply LimitedSearch.nodup_entries
  rows := by
    intro node hnode edge hedge
    rw [walkedNodes, List.mem_reverse, List.mem_map] at hnode
    rcases hnode with ⟨entry, _, rfl⟩
    exact fieldIndex_lt renderer hedge

theorem exists_renderText (enumDetails? : String → Option (List Edm)) (root : String)
    : ∃ bound, ∀ fuel, bound ≤ fuel → renderer.renderText enumDetails? fuel root
        = some (if (renderer.held root).nodes.isEmpty then
            []
          else
            renderer.emitText enumDetails? (renderer.held root).nodes) := by
  rcases exists_walked renderer root with ⟨bound, hwalked⟩
  refine ⟨bound, ?_⟩
  intro fuel hfuel
  have hnodes := hwalked fuel hfuel
  have hheld : (renderer.held root).nodes = renderer.walkedNodes root := rfl
  rw [hheld]
  generalize renderer.walkedNodes root = nodes at hnodes
  cases hnodes with
  | undefined hnone =>
    unfold renderText
    rw [hnone]
    rfl
  | walked hti hwalk =>
    unfold renderText
    rw [hti]
    dsimp only
    rw [hwalk]
    rfl

end Walk

section Main

theorem simpleExact_iff {renderer : TypeGraphRenderer} (graph : renderer.HeldGraph)
    : renderer.SimpleExact graph.nodes ↔ KeptApart graph.nodes ∧ Unquoted graph.nodes := by
  constructor
  . intro h
    have hquote := quote_not_mem_of_simpleExact graph h
    have hbackslash := backslash_not_mem_of_simpleExact graph h
    refine ⟨?_, fun node hnode => ⟨hquote node hnode, hbackslash node hnode⟩⟩
    rcases h with ⟨drawn, ident, hread, hdenotes⟩
    rw [read_emitSimpleText renderer hquote] at hread
    cases hread
    exact keptApart_of_denotes (joins_emitSimple graph.nodes) boxLabel_ne_default hdenotes
  . intro ⟨hapart, hunquoted⟩
    exact simpleExact_of_keptApart graph hapart hunquoted

theorem tableExact_iff {renderer : TypeGraphRenderer} (enumDetails? : String → Option (List Edm))
    (graph : renderer.HeldGraph)
    : renderer.TableExact enumDetails? graph.nodes ↔ KeptApart graph.nodes := by
  constructor
  . intro ⟨drawn, ident, hread, hdenotes, _⟩
    rw [read_emitTableText] at hread
    cases hread
    apply keptApart_of_denotes (joins_emitTable graph.nodes) _ hdenotes
    intro name hnone
    cases hnone
  . apply tableExact_of_keptApart enumDetails? graph

/--
Both texts denote the graph exactly if no two names become the same node id, every edge leads to a
type that was walked to, and no name has a quote or a backslash in it. The last is no matter for tables.
-/
theorem dotExact_iff (renderer : TypeGraphRenderer) (enumDetails? : String → Option (List Edm))
    (graph : renderer.HeldGraph)
    : (renderer.DotExact enumDetails? graph.nodes ↔ KeptApart graph.nodes ∧ Unquoted graph.nodes)
        ∧ (renderer.TableExact enumDetails? graph.nodes ↔ KeptApart graph.nodes) := by
  refine ⟨?_, tableExact_iff enumDetails? graph⟩
  constructor
  . intro h
    exact (simpleExact_iff graph).mp h.left
  . intro h
    exact ⟨(simpleExact_iff graph).mpr h, (tableExact_iff enumDetails? graph).mpr h.left⟩

/--
`struct a::b { a__b x; }` and `struct a__b { }`.
-/
def colliding : TypeGraphRenderer :=
  { til :=
      { types :=
          [ ("a::b", .udt { members := [⟨"x", .named "a__b", 0, 32, false⟩], totalSize := 4 })
          , ("a__b", .udt { members := [], totalSize := 4 }) ]
        numbered := fun _ => none
        ordinalOf := fun _ => 0
        print := fun _ name => name }
    isTypedef := fun _ => false
    options := {} }

def collidingGraph : colliding.HeldGraph where
  nodes := [⟨"a::b", [⟨0, "a__b"⟩]⟩, ⟨"a__b", []⟩]
  nodup := by decide
  rows := by
    intro node hnode edge hedge
    simp only [List.mem_cons, List.not_mem_nil, or_false] at hnode
    rcases hnode with rfl | rfl
    . rw [List.mem_singleton] at hedge
      rw [hedge]
      exact ⟨_, rfl, by decide⟩
    . cases hedge

theorem not_dotExact_colliding
    : colliding.renderText (fun _ => none) 4 "a::b" = some (colliding.emitSimpleText collidingGraph.nodes)
        ∧ ¬colliding.SimpleExact collidingGraph.nodes
        ∧ ¬colliding.TableExact (fun _ => none) collidingGraph.nodes := by
  have happart : ¬KeptApart collidingGraph.nodes := by
    intro h
    have hsame : sanitizeId "a::b" = sanitizeId "a__b" := by
      decide
    have hname := h.distinct ⟨"a::b", [⟨0, "a__b"⟩]⟩ (.head _) ⟨"a__b", []⟩ (.tail _ (.head _)) hsame
    revert hname
    decide
  refine ⟨by rfl, ?_, ?_⟩
  . intro h
    exact happart ((simpleExact_iff collidingGraph).mp h).left
  . intro h
    exact happart ((tableExact_iff _ collidingGraph).mp h)

end Main

end TypeGraphRenderer
end Types
end Idax
