import Idax.Library.DotParser

/-!
Texts in the DOT language that are written statement by statement, and the graphs of statements about
one node or one edge each. The main results say what such a graph has to do with the names and arrows
it is written for, when the identifiers of different names may be the same.
-/

namespace DotLanguage

section Reading

variable {text more : Text} {statements others : List Statement} {c : Char}

def Reads (text : Text) (statements : List Statement) : Prop :=
  ∃ tokens, Transducer.run LexState.step .lineStart text = some (.lineStart, tokens)
    ∧ Transducer.run ParseState.step .statement tokens = some (.statement, statements)
    ∧ Token.symbol '+' ∉ tokens

theorem reads_nil : Reads [] [] :=
  ⟨[], rfl, rfl, by simp⟩

theorem Reads.append (h : Reads text statements) (h' : Reads more others)
    : Reads (text ++ more) (statements ++ others) := by
  rcases h with ⟨tokens, hlex, hparse, hplus⟩
  rcases h' with ⟨tokens', hlex', hparse', hplus'⟩
  refine ⟨tokens ++ tokens', Transducer.run_append hlex hlex',
    Transducer.run_append hparse hparse', ?_⟩
  rw [List.mem_append, not_or]
  exact ⟨hplus, hplus'⟩

theorem reads_flatMap {γ : Type u} {pieces : List γ} {line : γ → Text} {read : γ → List Statement}
    (h : ∀ piece ∈ pieces, Reads (line piece) (read piece))
    : Reads (pieces.flatMap line) (pieces.flatMap read) := by
  induction pieces with
  | nil => exact reads_nil
  | cons piece pieces ih =>
    rw [List.flatMap_cons, List.flatMap_cons]
    apply (h piece (.head _)).append
    apply ih fun other hother => h other (.tail _ hother)

theorem reads_map {γ : Type u} {pieces : List γ} {line : γ → Text} {statement : γ → Statement}
    (h : ∀ piece ∈ pieces, Reads (line piece) [statement piece])
    : Reads (pieces.flatMap line) (pieces.map statement) := by
  rw [List.map_eq_flatMap]
  exact reads_flatMap h

theorem read_eq {opening : Text} {tokens : List Token}
    (hlex : Transducer.run LexState.step .lineStart opening = some (.lineStart, tokens))
    (hparse : Transducer.run ParseState.step .opening tokens = some (.statement, []))
    (hplus : Token.symbol '+' ∉ tokens) (h : Reads text statements)
    : read (opening ++ text ++ "\x7d\n".toList) = some (Graph.ofStatements statements) := by
  rcases h with ⟨inner, hinner, hstatements, hplus'⟩
  have hend : Transducer.run LexState.step .lineStart "\x7d\n".toList
      = some (.lineStart, [.symbol '}']) := by
    rfl
  have hclose : Transducer.run ParseState.step .statement [.symbol '}'] = some (.finished, []) := by
    rfl
  have hall := Transducer.run_append (Transducer.run_append hlex hinner) hend
  have hparsed := Transducer.run_append (Transducer.run_append hparse hstatements) hclose
  have hnone : Token.symbol '+' ∉ tokens ++ inner ++ [.symbol '}'] := by
    simp [hplus, hplus']
  unfold read lex
  rw [hall]
  simp only [LexState.finish, Option.map_some, List.append_nil, Option.bind_eq_bind, Option.bind_some]
  rw [concatenated_of_not_mem hnone, parse, hparsed]
  simp

theorem run_name (hc : isNameStart c = true) (htext : ∀ d ∈ text, isNameChar d = true)
    : Transducer.run LexState.step .between (c :: text) = some (.word (c :: text), []) := by
  have hnewline : c ≠ '\n' := by
    rintro rfl
    revert hc
    decide
  have hspace : c.isWhitespace = false := by
    rw [Bool.eq_false_iff]
    intro hspace
    simp only [Char.isWhitespace, Bool.or_eq_true, decide_eq_true_eq] at hspace
    rcases hspace with ((rfl | rfl) | rfl) | rfl <;> (revert hc; decide)
  have hfirst : LexState.step .between c = some (.word [c], []) := by
    simp [LexState.step, LexState.start, hnewline, hspace, hc]
  exact Transducer.run_cons hfirst (run_word htext [c])

theorem id?_word {name : Text} (h : isKeyword name = false)
    : (Token.word name).id? = some (.ofText name) := by
  simp [Token.id?, h]

theorem kind?_word {name : Text} (h : isKeyword name = false) : kind? (.word name) = none := by
  have hkeyword : ∀ keyword ∈ keywords, name.map Char.toLower ≠ keyword := by
    intro keyword hmem heq
    rw [isKeyword, decide_eq_false_iff_not, heq] at h
    exact h hmem
  simp only [kind?]
  rw [if_neg (hkeyword _ (by decide)), if_neg (hkeyword _ (by decide)), if_neg (hkeyword _ (by decide))]

theorem step_statement_word {name : Text} (h : isKeyword name = false)
    : ParseState.step .statement (.word name) = some (.endpoint [] { id := .ofText name }, []) := by
  simp [ParseState.step, ParseState.start, kind?_word h, id?_word h]

end Reading

section Assembly

variable (graph : Graph) (id : Id) (attrs : Attributes) (tail head : NodeId)

def nodeStatement (id : Id) (attrs : Attributes) : Statement :=
  .attributes (.chain [{ id }]) attrs

def edgeStatement (tail head : NodeId) : Statement :=
  .attributes (.chain [tail, head]) []

def Graph.arrows : List (NodeId × NodeId) :=
  graph.edges.map fun edge => (edge.tail, edge.head)

@[simp]
theorem ids_mention : (graph.mention id).ids = Duplicates.pushUnlessMember graph.ids id := by
  unfold Graph.mention Duplicates.pushUnlessMember
  split <;> simp [Graph.ids]

@[simp]
theorem ids_setAttributes : (graph.setAttributes id attrs).ids = graph.ids := by
  simp only [Graph.ids, Graph.setAttributes, List.map_map]
  apply List.map_congr_left
  intro node _
  simp only [Function.comp]
  split <;> rfl

theorem ids_apply_node
    : (graph.apply (nodeStatement id attrs)).ids = Duplicates.pushUnlessMember graph.ids id := by
  simp [nodeStatement, Graph.apply]

theorem ids_apply_edge
    : (graph.apply (edgeStatement tail head)).ids
        = Duplicates.pushUnlessMember (Duplicates.pushUnlessMember graph.ids tail.id) head.id := by
  rw [← ids_mention, ← ids_mention]
  rfl

@[simp]
theorem edges_mention : (graph.mention id).edges = graph.edges := by
  unfold Graph.mention
  split <;> rfl

@[simp]
theorem nodeDefaults_mention : (graph.mention id).nodeDefaults = graph.nodeDefaults := by
  unfold Graph.mention
  split <;> rfl

@[simp]
theorem arrows_apply_node : (graph.apply (nodeStatement id attrs)).arrows = graph.arrows := by
  simp [nodeStatement, Graph.apply, Graph.arrows, Graph.setAttributes]

@[simp]
theorem arrows_apply_edge
    : (graph.apply (edgeStatement tail head)).arrows = graph.arrows ++ [(tail, head)] := by
  simp [edgeStatement, Graph.apply, Graph.arrows, Graph.connect]

@[simp]
theorem nodeDefaults_apply_node
    : (graph.apply (nodeStatement id attrs)).nodeDefaults = graph.nodeDefaults := by
  simp [nodeStatement, Graph.apply, Graph.setAttributes]

@[simp]
theorem nodeDefaults_apply_edge
    : (graph.apply (edgeStatement tail head)).nodeDefaults = graph.nodeDefaults := by
  simp [edgeStatement, Graph.apply, Graph.connect]

end Assembly

section Invariant

variable {graph : Graph} {names : List Id} {defaults attrs : Attributes} {id : Id}
  {tail head : NodeId}

structure Assembled (names : List Id) (defaults : Attributes) (graph : Graph) : Prop where
  nodeDefaults : graph.nodeDefaults = defaults
  nodup : graph.ids.Nodup
  origin : ∀ node ∈ graph.nodes, node.id ∈ names ∨ node.attrs = defaults
  heads : ∀ arrow ∈ graph.arrows, arrow.snd.id ∈ graph.ids

theorem mem_ids_mention {other : Id} : other ∈ (graph.mention id).ids ↔ other ∈ graph.ids ∨ other = id := by
  rw [ids_mention, Duplicates.mem_pushUnlessMember]

theorem Assembled.mention (h : Assembled names defaults graph) (id : Id)
    : Assembled names defaults (graph.mention id) where
  nodeDefaults := by
    rw [nodeDefaults_mention]
    exact h.nodeDefaults
  nodup := by
    rw [ids_mention]
    exact Duplicates.nodup_pushUnlessMember h.nodup
  origin node hnode := by
    unfold Graph.mention at hnode
    split at hnode
    . exact h.origin node hnode
    . rw [List.mem_append, List.mem_singleton] at hnode
      cases hnode with
      | inl hnode => exact h.origin node hnode
      | inr heq =>
        right
        rw [heq]
        exact h.nodeDefaults
  heads arrow harrow := by
    rw [Graph.arrows, edges_mention] at harrow
    rw [mem_ids_mention]
    exact .inl (h.heads arrow harrow)

theorem Assembled.node (h : Assembled names defaults graph) (hid : id ∈ names) (attrs : Attributes)
    : Assembled names defaults (graph.apply (nodeStatement id attrs)) where
  nodeDefaults := by
    rw [nodeDefaults_apply_node]
    exact h.nodeDefaults
  nodup := by
    rw [ids_apply_node]
    exact Duplicates.nodup_pushUnlessMember h.nodup
  origin node hnode := by
    simp only [nodeStatement, Graph.apply, Graph.setAttributes, List.mem_map] at hnode
    rcases hnode with ⟨old, hold, heq⟩
    split at heq
    . next hsame =>
      left
      rw [← heq, hsame]
      exact hid
    . rw [← heq]
      apply (h.mention id).origin old hold
  heads arrow harrow := by
    rw [arrows_apply_node] at harrow
    rw [ids_apply_node, Duplicates.mem_pushUnlessMember]
    exact .inl (h.heads arrow harrow)

theorem Assembled.edge (h : Assembled names defaults graph)
    : Assembled names defaults (graph.apply (edgeStatement tail head)) where
  nodeDefaults := by
    rw [nodeDefaults_apply_edge]
    exact h.nodeDefaults
  nodup := by
    rw [ids_apply_edge]
    exact Duplicates.nodup_pushUnlessMember (Duplicates.nodup_pushUnlessMember h.nodup)
  origin := ((h.mention tail.id).mention head.id).origin
  heads arrow harrow := by
    rw [ids_apply_edge, Duplicates.mem_pushUnlessMember, Duplicates.mem_pushUnlessMember]
    rw [arrows_apply_edge, List.mem_append, List.mem_singleton] at harrow
    cases harrow with
    | inl harrow => exact .inl (.inl (h.heads arrow harrow))
    | inr heq =>
      right
      rw [heq]

theorem nodes_apply_node (hid : id ∉ graph.ids)
    : (graph.apply (nodeStatement id attrs)).nodes
        = graph.nodes ++ [{ id, attrs := attrs ++ graph.nodeDefaults }] := by
  simp only [nodeStatement, Graph.apply, Graph.setAttributes, Graph.mention, if_neg hid, List.map_append,
    List.map_cons, List.map_nil, if_true]
  congr 1
  have hsame : graph.nodes.map (fun node =>
      if node.id = id then { node with attrs := attrs ++ node.attrs } else node)
        = graph.nodes.map fun node => node := by
    apply List.map_congr_left
    intro node hnode
    rw [if_neg]
    rintro rfl
    exact hid (List.mem_map.mpr ⟨node, hnode, rfl⟩)
  rw [hsame, List.map_id']

theorem nodes_apply_edge (htail : tail.id ∈ graph.ids) (hhead : head.id ∈ graph.ids)
    : (graph.apply (edgeStatement tail head)).nodes = graph.nodes := by
  have hmention : ((graph.mention tail.id).mention head.id) = graph := by
    rw [Graph.mention, Graph.mention, if_pos htail, if_pos hhead]
  have hnodes : (graph.apply (edgeStatement tail head)).nodes
      = ((graph.mention tail.id).mention head.id).nodes := by
    rfl
  rw [hnodes, hmention]

end Invariant

section Drawing

variable {ν : Type u} {β : Type v}

structure Arrow (ν : Type u) where
  tail : ν
  port : List Id := []
  head : ν

namespace Arrow

def ends (arrow : Arrow ν) (ident : ν → Id) : NodeId × NodeId :=
  ({ id := ident arrow.tail, port := arrow.port }, { id := ident arrow.head })

end Arrow

def Mentions (names : List ν) (arrows : List (Arrow ν)) (name : ν) : Prop :=
  name ∈ names ∨ ∃ arrow ∈ arrows, arrow.tail = name ∨ arrow.head = name

/--
Under some identifiers, different ones for different names, a graph has exactly one node for each name
and one edge for each arrow, and what its labels show of them is `shown`.
-/
structure Denotes (names : List ν) (arrows : List (Arrow ν)) (view : Label → β) (shown : ν → β)
    (graph : Graph) (ident : ν → Id) : Prop where
  distinct : ∀ a b, Mentions names arrows a → Mentions names arrows b → ident a = ident b → a = b
  ids : graph.ids.Perm (names.map ident)
  labels : ∀ node ∈ graph.nodes, ∀ name ∈ names, node.id = ident name → view node.label = shown name
  arrows : graph.arrows.Perm (arrows.map fun arrow => arrow.ends ident)

variable {names : List ν} {arrows : List (Arrow ν)} {encode : ν → Id} {attrs : ν → Attributes}
  {graph : Graph}

def drawing (names : List ν) (arrows : List (Arrow ν)) (encode : ν → Id) (attrs : ν → Attributes)
    : List Statement :=
  names.map (fun name => nodeStatement (encode name) (attrs name))
    ++ arrows.map fun arrow => edgeStatement (arrow.ends encode).fst (arrow.ends encode).snd

theorem nodes_draw_names (attrs : ν → Attributes) (h : (graph.ids ++ names.map encode).Nodup)
    : ((names.map fun name => nodeStatement (encode name) (attrs name)).foldl Graph.apply graph).nodes
        = graph.nodes ++ names.map fun name =>
            { id := encode name, attrs := attrs name ++ graph.nodeDefaults } := by
  induction names generalizing graph with
  | nil => simp
  | cons name names ih =>
    have hid : encode name ∉ graph.ids := by
      intro hmem
      rw [List.nodup_append] at h
      exact h.right.right _ hmem _ (by simp) rfl
    have hids : (graph.apply (nodeStatement (encode name) (attrs name))).ids
        = graph.ids ++ [encode name] := by
      rw [ids_apply_node, Duplicates.pushUnlessMember, if_neg hid]
    rw [List.map_cons, List.foldl_cons, ih, nodes_apply_node hid, nodeDefaults_apply_node]
    . simp
    . rw [hids]
      simpa using h

theorem nodes_draw_arrows
    (h : ∀ arrow ∈ arrows, encode arrow.tail ∈ graph.ids ∧ encode arrow.head ∈ graph.ids)
    : ((arrows.map fun arrow => edgeStatement (arrow.ends encode).fst (arrow.ends encode).snd).foldl
        Graph.apply graph).nodes = graph.nodes := by
  induction arrows generalizing graph with
  | nil => rfl
  | cons arrow arrows ih =>
    have hone := h arrow (.head _)
    have hnodes : (graph.apply (edgeStatement (arrow.ends encode).fst (arrow.ends encode).snd)).nodes
        = graph.nodes :=
      nodes_apply_edge hone.left hone.right
    rw [List.map_cons, List.foldl_cons, ih, hnodes]
    intro other hother
    rw [Graph.ids, hnodes]
    exact h other (.tail _ hother)

theorem arrows_draw
    : ((drawing names arrows encode attrs).foldl Graph.apply graph).arrows
        = graph.arrows ++ arrows.map fun arrow => arrow.ends encode := by
  have hnames : ∀ graph : Graph, ((names.map fun name =>
      nodeStatement (encode name) (attrs name)).foldl Graph.apply graph).arrows = graph.arrows := by
    induction names with
    | nil => simp
    | cons name names ih =>
      intro graph
      rw [List.map_cons, List.foldl_cons, ih, arrows_apply_node]
  have harrows : ∀ graph : Graph, ((arrows.map fun arrow =>
      edgeStatement (arrow.ends encode).fst (arrow.ends encode).snd).foldl Graph.apply graph).arrows
        = graph.arrows ++ arrows.map fun arrow => arrow.ends encode := by
    induction arrows with
    | nil => simp
    | cons arrow arrows ih =>
      intro graph
      rw [List.map_cons, List.foldl_cons, ih, arrows_apply_edge]
      simp
  rw [drawing, List.foldl_append, harrows, hnames]

theorem assembled_draw (arrows : List (Arrow ν)) (attrs : ν → Attributes) {defaults : Attributes}
    (h : Assembled (names.map encode) defaults graph)
    : Assembled (names.map encode) defaults
        ((drawing names arrows encode attrs).foldl Graph.apply graph) := by
  have hall : ∀ statements ⊆ drawing names arrows encode attrs, ∀ graph,
      Assembled (names.map encode) defaults graph
        → Assembled (names.map encode) defaults (statements.foldl Graph.apply graph) := by
    intro statements hsubset
    induction statements with
    | nil =>
      intro graph h
      exact h
    | cons complete statements ih =>
      intro graph h
      rw [List.cons_subset] at hsubset
      apply ih hsubset.right
      have hmem := hsubset.left
      rw [drawing, List.mem_append, List.mem_map, List.mem_map] at hmem
      cases hmem with
      | inl hmem =>
        rcases hmem with ⟨name, hname, heq⟩
        rw [← heq]
        apply h.node (List.mem_map.mpr ⟨name, hname, rfl⟩)
      | inr hmem =>
        rcases hmem with ⟨arrow, _, heq⟩
        rw [← heq]
        apply h.edge
  apply hall _ (List.Subset.refl _) _ h

theorem nodes_draw (attrs : ν → Attributes) (hnodes : graph.nodes = []) (hnodup : (names.map encode).Nodup)
    (htails : ∀ arrow ∈ arrows, arrow.tail ∈ names) (hheads : ∀ arrow ∈ arrows, arrow.head ∈ names)
    : ((drawing names arrows encode attrs).foldl Graph.apply graph).nodes
        = names.map fun name => { id := encode name, attrs := attrs name ++ graph.nodeDefaults } := by
  have hids : graph.ids = [] := by
    rw [Graph.ids, hnodes, List.map_nil]
  have hfresh : (graph.ids ++ names.map encode).Nodup := by
    rw [hids]
    exact hnodup
  have hnames := nodes_draw_names attrs hfresh
  rw [hnodes, List.nil_append] at hnames
  rw [drawing, List.foldl_append, nodes_draw_arrows, hnames]
  intro arrow harrow
  rw [Graph.ids, hnames, List.map_map]
  exact ⟨List.mem_map.mpr ⟨_, htails arrow harrow, rfl⟩, List.mem_map.mpr ⟨_, hheads arrow harrow, rfl⟩⟩

section Sufficient

variable {view : Label → β} {shown : ν → β}

theorem denotes_draw (hnodes : graph.nodes = []) (hedges : graph.edges = []) (hnodup : names.Nodup)
    (hinj : ∀ a ∈ names, ∀ b ∈ names, encode a = encode b → a = b)
    (htails : ∀ arrow ∈ arrows, arrow.tail ∈ names) (hheads : ∀ arrow ∈ arrows, arrow.head ∈ names)
    (hlabels : ∀ name ∈ names, view (labelOf (attrs name ++ graph.nodeDefaults)) = shown name)
    : Denotes names arrows view shown
        ((drawing names arrows encode attrs).foldl Graph.apply graph) encode := by
  have hencoded : (names.map encode).Nodup := by
    apply hnodup.map_on
    intro a ha b hb
    apply hinj a ha b hb
  have hdrawn := nodes_draw attrs hnodes hencoded htails hheads
  have hnamed : ∀ name, Mentions names arrows name → name ∈ names := by
    intro name hname
    cases hname with
    | inl hname => exact hname
    | inr hname =>
      rcases hname with ⟨arrow, harrow, heq | heq⟩
      . rw [← heq]
        apply htails arrow harrow
      . rw [← heq]
        apply hheads arrow harrow
  constructor
  . intro a b ha hb
    apply hinj a (hnamed a ha) b (hnamed b hb)
  . rw [Graph.ids, hdrawn, List.map_map]
    exact List.Perm.refl _
  . intro node hnode name hname hid
    rw [hdrawn, List.mem_map] at hnode
    rcases hnode with ⟨other, hother, heq⟩
    rw [← heq] at hid ⊢
    rw [hinj other hother name hname hid]
    apply hlabels name hname
  . rw [arrows_draw, Graph.arrows, hedges, List.map_nil, List.nil_append]

end Sufficient

section Necessary

variable {view : Label → β} {shown : ν → β} {ident : ν → Id}

theorem mem_names_of_denotes (h : Denotes names arrows view shown graph ident) {node : Node}
    (hnode : node ∈ graph.nodes) : ∃ name ∈ names, node.id = ident name := by
  have hid : node.id ∈ names.map ident := by
    rw [← h.ids.mem_iff]
    exact List.mem_map.mpr ⟨node, hnode, rfl⟩
  rw [List.mem_map] at hid
  rcases hid with ⟨name, hname, heq⟩
  exact ⟨name, hname, heq.symm⟩

theorem nodup_of_denotes {defaults : Attributes}
    (hassembled : Assembled (names.map encode) defaults graph)
    (hdefault : ∀ name ∈ names, view (labelOf defaults) ≠ shown name)
    (h : Denotes names arrows view shown graph ident) : (names.map encode).Nodup := by
  have hsubset : graph.ids ⊆ names.map encode := by
    intro id hid
    rw [Graph.ids, List.mem_map] at hid
    rcases hid with ⟨node, hnode, heq⟩
    rw [← heq]
    cases hassembled.origin node hnode with
    | inl hid => exact hid
    | inr hattrs =>
      rcases mem_names_of_denotes h hnode with ⟨name, hname, hid⟩
      have hlabel := h.labels node hnode name hname hid
      rw [Node.label, hattrs] at hlabel
      exact absurd hlabel (hdefault name hname)
  have hlength : (names.map encode).length ≤ graph.ids.length := by
    rw [h.ids.length_eq, List.length_map, List.length_map]
  have hperm := (List.subperm_of_subset hassembled.nodup hsubset).perm_of_length_le hlength
  rw [← hperm.nodup_iff]
  exact hassembled.nodup

theorem heads_of_denotes {defaults : Attributes}
    (hassembled : Assembled (names.map encode) defaults graph)
    (h : Denotes names arrows view shown graph ident) : ∀ arrow ∈ arrows, arrow.head ∈ names := by
  intro arrow harrow
  have hends : arrow.ends ident ∈ graph.arrows := by
    rw [h.arrows.mem_iff]
    exact List.mem_map.mpr ⟨arrow, harrow, rfl⟩
  have hid : ident arrow.head ∈ graph.ids := hassembled.heads _ hends
  rw [h.ids.mem_iff, List.mem_map] at hid
  rcases hid with ⟨name, hname, heq⟩
  rw [← h.distinct name arrow.head (.inl hname) (.inr ⟨arrow, harrow, .inr rfl⟩) heq]
  exact hname

theorem perm_map_of_perm_map {α : Type u} {α' : Type v} {γ : Type w} {δ : Type x} {f : α → γ}
    {g : α' → γ} {p : α → δ} {q : α' → δ} {l : List α} {l' : List α'}
    (h : (l.map f).Perm (l'.map g)) (hpq : ∀ a ∈ l, ∀ b ∈ l', f a = g b → p a = q b)
    : (l.map p).Perm (l'.map q) := by
  induction l generalizing l' with
  | nil =>
    rw [List.map_nil, List.nil_perm, List.map_eq_nil_iff] at h
    rw [h]
    exact List.Perm.refl _
  | cons a l ih =>
    have hmem : f a ∈ l'.map g := by
      rw [← h.mem_iff]
      exact List.mem_cons_self
    rw [List.mem_map] at hmem
    rcases hmem with ⟨b, hb, heq⟩
    rcases List.append_of_mem hb with ⟨before, after, hsplit⟩
    have hmiddle : l'.Perm (b :: (before ++ after)) := by
      rw [hsplit]
      exact List.perm_middle
    have hrest : (l.map f).Perm ((before ++ after).map g) := by
      have hall := h.trans (hmiddle.map g)
      rw [List.map_cons, List.map_cons, heq] at hall
      exact hall.cons_inv
    have hmore := ih hrest fun x hx y hy => hpq x (.tail _ hx) y (hmiddle.mem_iff.mpr (.tail _ hy))
    have hone := hpq a (.head _) b hb heq.symm
    apply List.Perm.trans _ (hmiddle.map q).symm
    rw [List.map_cons, List.map_cons, hone]
    apply hmore.cons

theorem labels_perm_of_denotes {label : ν → Label}
    (hids : ∀ name ∈ names, ∃ node ∈ graph.nodes, node.id = encode name ∧ node.label = label name)
    (hencode : graph.ids = names.map encode) (h : Denotes names arrows view shown graph ident)
    : (names.map fun name => view (label name)).Perm (names.map shown) := by
  have hperm := h.ids
  rw [hencode] at hperm
  apply perm_map_of_perm_map hperm
  intro name hname other hother heq
  rcases hids name hname with ⟨node, hnode, hid, hlabel⟩
  rw [← hlabel]
  apply h.labels node hnode other hother
  rw [hid, heq]

end Necessary

end Drawing

end DotLanguage
