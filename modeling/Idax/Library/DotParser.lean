import Mathlib.Algebra.Order.BigOperators.Group.List
import Mathlib.Algebra.Order.Group.Nat
import Idax.Library.DotLexer
import Idax.Library.Duplicates

/-!
Directed graphs in the DOT language: the statements of a text, and the graph they put together. A node
is there from its first mention on, and a later value of an attribute replaces an earlier one.
Subgraphs are left out.
-/

namespace DotLanguage

/--
A name, a numeral and a double-quoted string are the same identifier if they are the same text.
-/
inductive Id where
  | text (chars : List QuotedChar)
  | html (content : Text)
  deriving DecidableEq, Repr

namespace Id

def ofText (text : Text) : Id :=
  .text (text.map .plain)

end Id

structure NodeId where
  id : Id
  port : List Id := []
  deriving DecidableEq, Repr

/--
The latest value comes first.
-/
abbrev Attributes := List (Id × Id)

inductive Kind where
  | graph
  | node
  | edge
  deriving DecidableEq, Repr

inductive Subject where
  | chain (ends : List NodeId)
  | defaults (kind : Kind)
  deriving DecidableEq, Repr

inductive Statement where
  | attributes (subject : Subject) (attrs : Attributes)
  | assign (key value : Id)
  deriving DecidableEq, Repr

section Keywords

def keywords : List Text :=
  ["node", "edge", "graph", "digraph", "subgraph", "strict"].map String.toList

def isKeyword (name : Text) : Bool :=
  name.map Char.toLower ∈ keywords

def kind? : Token → Option Kind
  | .word name =>
    let name := name.map Char.toLower
    if name = "graph".toList then
      some .graph
    else if name = "node".toList then
      some .node
    else if name = "edge".toList then
      some .edge
    else
      none
  | _ => none

def compassPoints : List Id :=
  ["n", "ne", "e", "se", "s", "sw", "w", "nw", "c", "_"].map fun point => .ofText point.toList

end Keywords

namespace Token

def id? : Token → Option Id
  | .word name => if isKeyword name then none else some (.ofText name)
  | .numeral digits => some (.ofText digits)
  | .quoted value => some (.text value)
  | .html content => some (.html content)
  | _ => none

end Token

inductive ParseState where
  | opening
  | header
  | named
  | statement
  | ended
  | endpoint (before : List NodeId) (last : NodeId)
  | colon (before : List NodeId) (last : NodeId)
  | arrow (ends : List NodeId)
  | keyword (kind : Kind)
  | list (subject : Subject) (attrs : Attributes)
  | key (subject : Subject) (attrs : Attributes) (name : Id)
  | value (subject : Subject) (attrs : Attributes) (name : Id)
  | paired (subject : Subject) (attrs : Attributes)
  | bracketed (subject : Subject) (attrs : Attributes)
  | assign (name : Id)
  | finished
  deriving DecidableEq, Repr

namespace ParseState

def start (token : Token) : Option (ParseState × List Statement) :=
  if token = .symbol '}' then
    some (.finished, [])
  else
    match kind? token with
    | some kind => some (.keyword kind, [])
    | none => token.id?.map fun id => (.endpoint [] { id }, [])

/--
A statement is complete, and the token that shows it is a semicolon or the first one of the next.
-/
def startAfter (complete : Statement) (token : Token) : Option (ParseState × List Statement) :=
  if token = .symbol ';' then
    some (.statement, [complete])
  else
    (start token).map fun (s, out) => (s, complete :: out)

def addPort (before : List NodeId) (last : NodeId) (id : Id) : Option ParseState :=
  match last.port with
  | [] => some (.endpoint before { last with port := [id] })
  | [port] =>
    if id ∈ compassPoints then some (.endpoint before { last with port := [port, id] }) else none
  | _ => none

def startPair (subject : Subject) (attrs : Attributes) (token : Token)
    : Option (ParseState × List Statement) :=
  if token = .symbol ']' then
    some (.bracketed subject attrs, [])
  else
    token.id?.map fun id => (.key subject attrs id, [])

def step : ParseState → Token → Option (ParseState × List Statement)
  | .opening, token => if token = .word "digraph".toList then some (.header, []) else none
  | .header, token =>
    if token = .symbol '{' then some (.statement, []) else token.id?.map fun _ => (.named, [])
  | .named, token => if token = .symbol '{' then some (.statement, []) else none
  | .statement, token => start token
  | .ended, token => if token = .symbol ';' then some (.statement, []) else start token
  | .endpoint before last, token =>
    if token = .symbol ':' then
      some (.colon before last, [])
    else if token = .arrow then
      some (.arrow (before ++ [last]), [])
    else if token = .symbol '[' then
      some (.list (.chain (before ++ [last])) [], [])
    else if token = .symbol '=' then
      if before = [] ∧ last.port = [] then some (.assign last.id, []) else none
    else
      startAfter (.attributes (.chain (before ++ [last])) []) token
  | .colon before last, token => do
    let id ← token.id?
    let s ← addPort before last id
    some (s, [])
  | .arrow ends, token => token.id?.map fun id => (.endpoint ends { id }, [])
  | .keyword kind, token =>
    if token = .symbol '[' then some (.list (.defaults kind) [], []) else none
  | .list subject attrs, token => startPair subject attrs token
  | .key subject attrs name, token =>
    if token = .symbol '=' then some (.value subject attrs name, []) else none
  | .value subject attrs name, token =>
    token.id?.map fun id => (.paired subject ((name, id) :: attrs), [])
  | .paired subject attrs, token =>
    if token = .symbol ',' ∨ token = .symbol ';' then
      some (.list subject attrs, [])
    else
      startPair subject attrs token
  | .bracketed subject attrs, token =>
    if token = .symbol '[' then
      some (.list subject attrs, [])
    else
      startAfter (.attributes subject attrs) token
  | .assign name, token => token.id?.map fun id => (.ended, [.assign name id])
  | .finished, _ => none

end ParseState

def parse (tokens : List Token) : Option (List Statement) :=
  match Transducer.run ParseState.step .opening tokens with
  | some (.finished, out) => some out
  | _ => none

structure Node where
  id : Id
  attrs : Attributes
  deriving DecidableEq, Repr

structure Edge where
  tail : NodeId
  head : NodeId
  attrs : Attributes
  deriving DecidableEq, Repr

structure Graph where
  attrs : Attributes := []
  nodeDefaults : Attributes := []
  edgeDefaults : Attributes := []
  nodes : List Node := []
  edges : List Edge := []
  deriving DecidableEq, Repr

namespace Graph

def ids (graph : Graph) : List Id :=
  graph.nodes.map (·.id)

def mention (graph : Graph) (id : Id) : Graph :=
  if id ∈ graph.ids then
    graph
  else
    { graph with nodes := graph.nodes ++ [{ id, attrs := graph.nodeDefaults }] }

def setAttributes (graph : Graph) (id : Id) (attrs : Attributes) : Graph :=
  { graph with
    nodes := graph.nodes.map fun node =>
      if node.id = id then { node with attrs := attrs ++ node.attrs } else node }

def connect (graph : Graph) (ends : List NodeId) (attrs : Attributes) : Graph :=
  { graph with
    edges := graph.edges ++ (ends.zip ends.tail).map fun (tail, head) =>
      { tail, head, attrs := attrs ++ graph.edgeDefaults } }

def apply (graph : Graph) : Statement → Graph
  | .attributes (.chain [node]) attrs => (graph.mention node.id).setAttributes node.id attrs
  | .attributes (.chain ends) attrs =>
    (ends.foldl (fun graph node => graph.mention node.id) graph).connect ends attrs
  | .attributes (.defaults .graph) attrs => { graph with attrs := attrs ++ graph.attrs }
  | .attributes (.defaults .node) attrs => { graph with nodeDefaults := attrs ++ graph.nodeDefaults }
  | .attributes (.defaults .edge) attrs => { graph with edgeDefaults := attrs ++ graph.edgeDefaults }
  | .assign key value => { graph with attrs := (key, value) :: graph.attrs }

def ofStatements (statements : List Statement) : Graph :=
  statements.foldl apply {}

end Graph

def read (text : Text) : Option Graph := do
  let tokens ← lex text
  let statements ← parse (concatenated tokens)
  some (Graph.ofStatements statements)

inductive Label where
  | parts (parts : List LabelPart)
  | html (content : Text)
  deriving DecidableEq, Repr

def labelKey : Id :=
  .ofText "label".toList

/--
The label of a node with some attributes. Without one of its own, a node is labelled with its name.
-/
def labelOf (attrs : Attributes) : Label :=
  match attrs.lookup labelKey with
  | none => .parts [.name 'N']
  | some (.text chars) => .parts (chars.map QuotedChar.part)
  | some (.html content) => .html content

namespace Node

def label (node : Node) : Label :=
  labelOf node.attrs

end Node

section Values

/-!
The values of attributes are identifiers of the text, so the labels of nodes are, too.
-/

def Attributes.values (attrs : Attributes) : List Id :=
  attrs.map Prod.snd

def Statement.values : Statement → List Id
  | .attributes _ attrs => attrs.values
  | .assign _ value => [value]

def ParseState.values : ParseState → List Id
  | .list _ attrs | .key _ attrs _ | .value _ attrs _ | .paired _ attrs | .bracketed _ attrs =>
    attrs.values
  | _ => []

variable {token : Token} {tokens : List Token} {s s' : ParseState} {out : List Statement}

structure KeepsValues (s : ParseState) (token : Token) (s' : ParseState) (out : List Statement)
    : Prop where
  state : ∀ value ∈ s'.values, value ∈ s.values ∨ token.id? = some value
  out : ∀ complete ∈ out, ∀ value ∈ complete.values, value ∈ s.values ∨ token.id? = some value

theorem keepsValues_of_eq (attrs : Attributes) (hs : attrs.values = s.values)
    (hs' : s'.values = attrs.values) : KeepsValues s token s' [] where
  state value hvalue := by
    rw [hs', hs] at hvalue
    exact .inl hvalue
  out complete hcomplete := by cases hcomplete

theorem keepsValues_of_nil (hs' : s'.values = []) : KeepsValues s token s' [] where
  state value hvalue := by
    rw [hs'] at hvalue
    cases hvalue
  out complete hcomplete := by cases hcomplete

theorem start_keepsValues (h : ParseState.start token = some (s', out))
    : s'.values = [] ∧ out = [] := by
  unfold ParseState.start at h
  split at h
  . cases h
    exact ⟨rfl, rfl⟩
  . split at h
    . cases h
      exact ⟨rfl, rfl⟩
    . rw [Option.map_eq_some_iff] at h
      rcases h with ⟨id, _, heq⟩
      cases heq
      exact ⟨rfl, rfl⟩

theorem startAfter_keepsValues {complete : Statement}
    (h : ParseState.startAfter complete token = some (s', out)) (hs : complete.values = s.values)
    : KeepsValues s token s' out := by
  have hout : s'.values = [] ∧ out = [complete] := by
    unfold ParseState.startAfter at h
    split at h
    . cases h
      exact ⟨rfl, rfl⟩
    . rw [Option.map_eq_some_iff] at h
      rcases h with ⟨⟨t, rest⟩, hstart, heq⟩
      cases heq
      have hnone := start_keepsValues hstart
      exact ⟨hnone.left, by rw [hnone.right]⟩
  constructor
  . intro value hvalue
    rw [hout.left] at hvalue
    cases hvalue
  . intro other hother value hvalue
    rw [hout.right, List.mem_singleton] at hother
    rw [hother, hs] at hvalue
    exact .inl hvalue

theorem startPair_keepsValues {subject : Subject} {attrs : Attributes}
    (h : ParseState.startPair subject attrs token = some (s', out)) (hs : attrs.values = s.values)
    : KeepsValues s token s' out := by
  unfold ParseState.startPair at h
  split at h
  . cases h
    apply keepsValues_of_eq attrs hs rfl
  . rw [Option.map_eq_some_iff] at h
    rcases h with ⟨id, _, heq⟩
    cases heq
    apply keepsValues_of_eq attrs hs rfl

theorem step_keepsValues (h : s.step token = some (s', out)) : KeepsValues s token s' out := by
  have hstart : ∀ {s'}, ParseState.start token = some (s', out) → KeepsValues s token s' out := by
    intro s' hstart
    have hnone := start_keepsValues hstart
    rw [hnone.right]
    apply keepsValues_of_nil hnone.left
  cases s with
  | opening =>
    simp only [ParseState.step] at h
    split at h
    . cases h
      apply keepsValues_of_nil rfl
    . cases h
  | header =>
    simp only [ParseState.step] at h
    split at h
    . cases h
      apply keepsValues_of_nil rfl
    . rw [Option.map_eq_some_iff] at h
      rcases h with ⟨id, _, heq⟩
      cases heq
      apply keepsValues_of_nil rfl
  | named =>
    simp only [ParseState.step] at h
    split at h
    . cases h
      apply keepsValues_of_nil rfl
    . cases h
  | statement => apply hstart h
  | ended =>
    simp only [ParseState.step] at h
    split at h
    . cases h
      apply keepsValues_of_nil rfl
    . apply hstart h
  | endpoint before last =>
    simp only [ParseState.step] at h
    split at h
    . cases h
      apply keepsValues_of_nil rfl
    split at h
    . cases h
      apply keepsValues_of_nil rfl
    split at h
    . cases h
      apply keepsValues_of_nil rfl
    split at h
    . split at h
      . cases h
        apply keepsValues_of_nil rfl
      . cases h
    . apply startAfter_keepsValues h rfl
  | colon before last =>
    simp only [ParseState.step, Option.bind_eq_bind, Option.bind_eq_some_iff] at h
    rcases h with ⟨id, _, t, hport, heq⟩
    cases heq
    apply keepsValues_of_nil
    unfold ParseState.addPort at hport
    split at hport
    . cases hport
      rfl
    . split at hport
      . cases hport
        rfl
      . cases hport
    . cases hport
  | arrow ends =>
    simp only [ParseState.step, Option.map_eq_some_iff] at h
    rcases h with ⟨id, _, heq⟩
    cases heq
    apply keepsValues_of_nil rfl
  | keyword kind =>
    simp only [ParseState.step] at h
    split at h
    . cases h
      apply keepsValues_of_nil rfl
    . cases h
  | list subject attrs => apply startPair_keepsValues h rfl
  | key subject attrs name =>
    simp only [ParseState.step] at h
    split at h
    . cases h
      apply keepsValues_of_eq attrs rfl rfl
    . cases h
  | value subject attrs name =>
    simp only [ParseState.step, Option.map_eq_some_iff] at h
    rcases h with ⟨id, hid, heq⟩
    cases heq
    constructor
    . intro value hvalue
      cases hvalue with
      | head => exact .inr hid
      | tail _ hvalue => exact .inl hvalue
    . intro complete hcomplete
      cases hcomplete
  | paired subject attrs =>
    simp only [ParseState.step] at h
    split at h
    . cases h
      apply keepsValues_of_eq attrs rfl rfl
    . apply startPair_keepsValues h rfl
  | bracketed subject attrs =>
    simp only [ParseState.step] at h
    split at h
    . cases h
      apply keepsValues_of_eq attrs rfl rfl
    . apply startAfter_keepsValues h rfl
  | assign name =>
    simp only [ParseState.step, Option.map_eq_some_iff] at h
    rcases h with ⟨id, hid, heq⟩
    cases heq
    constructor
    . intro value hvalue
      cases hvalue
    . intro complete hcomplete value hvalue
      rw [List.mem_singleton] at hcomplete
      rw [hcomplete] at hvalue
      cases hvalue with
      | head => exact .inr hid
      | tail _ hvalue => cases hvalue
  | finished => cases h

theorem parse_values {statements : List Statement} (h : parse tokens = some statements)
    : ∀ complete ∈ statements, ∀ value ∈ complete.values, ∃ token ∈ tokens, token.id? = some value := by
  unfold parse at h
  split at h
  . next s out hrun =>
    cases h
    have hstep : ∀ s token s' out, (∀ value ∈ s.values, ∃ token ∈ tokens, token.id? = some value)
        → token ∈ tokens → ParseState.step s token = some (s', out)
        → (∀ value ∈ s'.values, ∃ token ∈ tokens, token.id? = some value)
          ∧ ∀ complete ∈ out, ∀ value ∈ complete.values, ∃ token ∈ tokens, token.id? = some value := by
      intro s token s' out hs htoken hstep
      have hkeeps := step_keepsValues hstep
      constructor
      . intro value hvalue
        cases hkeeps.state value hvalue with
        | inl hvalue => apply hs value hvalue
        | inr hid => exact ⟨token, htoken, hid⟩
      . intro complete hcomplete value hvalue
        cases hkeeps.out complete hcomplete value hvalue with
        | inl hvalue => apply hs value hvalue
        | inr hid => exact ⟨token, htoken, hid⟩
    exact (Transducer.run_invariant hstep (by simp [ParseState.values]) hrun).right
  . cases h

structure Graph.ValuesIn (graph : Graph) (S : Id → Prop) : Prop where
  defaults : ∀ value ∈ graph.nodeDefaults.values, S value
  nodes : ∀ node ∈ graph.nodes, ∀ value ∈ node.attrs.values, S value

variable {graph : Graph} {S : Id → Prop}

theorem Graph.ValuesIn.mention (h : graph.ValuesIn S) (id : Id) : (graph.mention id).ValuesIn S := by
  unfold Graph.mention
  split
  . exact h
  . refine ⟨h.defaults, ?_⟩
    intro node hnode
    rw [List.mem_append, List.mem_singleton] at hnode
    cases hnode with
    | inl hnode => exact h.nodes node hnode
    | inr heq =>
      rw [heq]
      exact h.defaults

theorem Graph.ValuesIn.mentionAll (h : graph.ValuesIn S) (ends : List NodeId)
    : (ends.foldl (fun graph node => graph.mention node.id) graph).ValuesIn S := by
  induction ends generalizing graph with
  | nil => exact h
  | cons node ends ih => apply ih (h.mention node.id)

theorem mem_values_append {attrs others : Attributes} {value : Id}
    : value ∈ Attributes.values (attrs ++ others) ↔ value ∈ attrs.values ∨ value ∈ others.values := by
  simp [Attributes.values]

theorem Graph.ValuesIn.setAttributes (h : graph.ValuesIn S) (id : Id) {attrs : Attributes}
    (hattrs : ∀ value ∈ attrs.values, S value) : (graph.setAttributes id attrs).ValuesIn S := by
  refine ⟨h.defaults, ?_⟩
  intro node hnode value hvalue
  simp only [Graph.setAttributes, List.mem_map] at hnode
  rcases hnode with ⟨old, hold, heq⟩
  split at heq
  . rw [← heq, mem_values_append] at hvalue
    cases hvalue with
    | inl hvalue => apply hattrs value hvalue
    | inr hvalue => apply h.nodes old hold value hvalue
  . rw [← heq] at hvalue
    apply h.nodes old hold value hvalue

theorem Graph.ValuesIn.apply (h : graph.ValuesIn S) {complete : Statement}
    (hvalues : ∀ value ∈ complete.values, S value) : (graph.apply complete).ValuesIn S := by
  unfold Graph.apply
  split
  . apply (h.mention _).setAttributes
    exact hvalues
  . next ends attrs _ =>
    have hends := h.mentionAll ends
    exact ⟨hends.defaults, hends.nodes⟩
  . exact ⟨h.defaults, h.nodes⟩
  . refine ⟨?_, h.nodes⟩
    intro value hvalue
    rw [mem_values_append] at hvalue
    cases hvalue with
    | inl hvalue => apply hvalues value hvalue
    | inr hvalue => apply h.defaults value hvalue
  . exact ⟨h.defaults, h.nodes⟩
  . exact ⟨h.defaults, h.nodes⟩

theorem Graph.valuesIn_ofStatements {statements : List Statement}
    (h : ∀ complete ∈ statements, ∀ value ∈ complete.values, S value)
    : (Graph.ofStatements statements).ValuesIn S := by
  have hfold : ∀ graph : Graph, graph.ValuesIn S → (statements.foldl Graph.apply graph).ValuesIn S := by
    induction statements with
    | nil =>
      intro graph hgraph
      exact hgraph
    | cons complete statements ih =>
      intro graph hgraph
      apply ih (fun other hother => h other (.tail _ hother))
      apply hgraph.apply (h complete (.head _))
  apply hfold
  exact ⟨by simp [Attributes.values], by simp⟩

theorem label_eq_or_mem {text : Text} (htokens : lex text = some tokens)
    (h : read text = some graph) {node : Node} (hnode : node ∈ graph.nodes)
    {parts : List LabelPart} (hparts : node.label = .parts parts)
    : parts = [.name 'N']
        ∨ parts ∈ (concatenated tokens).map fun token => token.chars.map QuotedChar.part := by
  unfold read at h
  rw [htokens, Option.bind_eq_bind, Option.bind_some, Option.bind_eq_bind, Option.bind_eq_some_iff] at h
  rcases h with ⟨statements, hstatements, heq⟩
  cases heq
  have hvalues := (Graph.valuesIn_ofStatements (parse_values hstatements)).nodes node hnode
  unfold Node.label labelOf at hparts
  split at hparts
  . next =>
    cases hparts
    exact .inl rfl
  . next chars hlookup =>
    cases hparts
    right
    rw [List.lookup_eq_some_iff] at hlookup
    rcases hlookup with ⟨before, after, hattrs, _⟩
    have hvalue : .text chars ∈ node.attrs.values := by
      simp [hattrs, Attributes.values]
    rcases hvalues (.text chars) hvalue with ⟨token, htoken, hid⟩
    rw [List.mem_map]
    refine ⟨token, htoken, ?_⟩
    unfold Token.id? at hid
    split at hid
    . split at hid <;> cases hid
      rfl
    . cases hid
      rfl
    . cases hid
      rfl
    . cases hid
    . cases hid
  . cases hparts

theorem sum_specials_le {text : Text} (h : read text = some graph) {labels : List (List LabelPart)}
    (hnodup : labels.Nodup)
    (hlabels : ∀ parts ∈ labels, ∃ node ∈ graph.nodes, node.label = .parts parts)
    : (labels.map specials).sum ≤ charge false text := by
  have hlex : ∃ tokens, lex text = some tokens := by
    unfold read at h
    rw [Option.bind_eq_bind, Option.bind_eq_some_iff] at h
    rcases h with ⟨tokens, htokens, _⟩
    exact ⟨tokens, htokens⟩
  rcases hlex with ⟨tokens, htokens⟩
  have hsubset : labels ⊆
      [.name 'N'] :: (concatenated tokens).map fun token => token.chars.map QuotedChar.part := by
    intro parts hparts
    rcases hlabels parts hparts with ⟨node, hnode, hlabel⟩
    rw [List.mem_cons]
    apply label_eq_or_mem htokens h hnode hlabel
  rcases List.subperm_of_subset hnodup hsubset with ⟨chosen, hperm, hsublist⟩
  have hsum : (labels.map specials).sum = (chosen.map specials).sum :=
    ((hperm.map specials).sum_eq).symm
  have hle := (hsublist.map specials).sum_le_sum (by simp)
  have hall : (([.name 'N'] :: (concatenated tokens).map fun token =>
      token.chars.map QuotedChar.part).map specials).sum = totalCost (concatenated tokens) := by
    simp only [List.map_cons, List.map_map, List.sum_cons]
    exact Nat.zero_add _
  rw [hall, totalCost_concatenated] at hle
  have hcost := totalCost_lex_le htokens
  omega

end Values

end DotLanguage
