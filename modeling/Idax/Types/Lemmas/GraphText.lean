import Idax.Library.DotDrawing
import Idax.Types.GraphText

/-!
This module contains how the texts of a type graph are read back, line by line, when no name has a
quote in it. A quote ends the label that it stands in.
-/

namespace Idax
namespace Types
namespace TypeGraphRenderer

open DotLanguage (Token LexState ParseState Statement Id QuotedChar Attributes Reads labelKey
  nodeStatement edgeStatement quotedChars)

section Names

theorem isNameChar_of_alphanumeric {c : Char}
    (h : '0' ≤ c ∧ c ≤ '9' ∨ 'A' ≤ c ∧ c ≤ 'Z' ∨ 'a' ≤ c ∧ c ≤ 'z') : DotLanguage.isNameChar c = true := by
  rw [DotLanguage.isNameChar, DotLanguage.isNameStart]
  rcases h with hdigit | hupper | hlower
  . have hc : c.isDigit = true := (Bool.and_eq_true _ _).mpr
      ⟨decide_eq_true hdigit.left, decide_eq_true hdigit.right⟩
    rw [hc, Bool.or_true]
  . have hc : c.isUpper = true := decide_eq_true hupper
    have halpha : c.isAlpha = true := (Bool.or_eq_true _ _).mpr (.inl hc)
    rw [halpha, Bool.true_or, Bool.true_or, Bool.true_or]
  . have hc : c.isLower = true := (Bool.and_eq_true _ _).mpr
      ⟨decide_eq_true hlower.left, decide_eq_true hlower.right⟩
    have halpha : c.isAlpha = true := (Bool.or_eq_true _ _).mpr (.inr hc)
    rw [halpha, Bool.true_or, Bool.true_or, Bool.true_or]

theorem isNameChar_sanitizeId {name : String} {c : Char} (hc : c ∈ sanitizeId name)
    : DotLanguage.isNameChar c = true := by
  simp only [sanitizeId, List.mem_append, List.mem_map] at hc
  rcases hc with hc | ⟨d, _, hd⟩
  . have hall : "n_".toList.all DotLanguage.isNameChar = true := by
      decide
    exact List.all_eq_true.mp hall c hc
  . split at hd
    . next h =>
      subst hd
      exact isNameChar_of_alphanumeric h
    . subst hd
      decide

theorem isNameChar_decimal {n : Nat} {c : Char} (hc : c ∈ decimal n)
    : DotLanguage.isNameChar c = true := by
  have hdigit : c.isDigit = true := Nat.isDigit_of_mem_toDigits (by decide) (by decide) hc
  simp [DotLanguage.isNameChar, hdigit]

theorem isKeyword_sanitizeId (name : String) : DotLanguage.isKeyword (sanitizeId name) = false := by
  simp [DotLanguage.isKeyword, DotLanguage.keywords, sanitizeId]

def portName (i : Nat) : List Char :=
  'f' :: decimal i

theorem isKeyword_portName (i : Nat) : DotLanguage.isKeyword (portName i) = false := by
  simp [DotLanguage.isKeyword, DotLanguage.keywords, portName]

def nodeId (name : String) : Id :=
  .ofText (sanitizeId name)

def portId (i : Nat) : Id :=
  .ofText (portName i)

theorem run_sanitizeId (name : String)
    : Transducer.run LexState.step .between (sanitizeId name) = some (.word (sanitizeId name), []) := by
  have hcons : sanitizeId name = 'n' :: (sanitizeId name).tail := rfl
  rw [hcons]
  apply DotLanguage.run_name (by decide)
  intro d hd
  apply isNameChar_sanitizeId (List.mem_of_mem_tail hd)

theorem run_indented (name : String)
    : Transducer.run LexState.step .lineStart ("    ".toList ++ sanitizeId name)
        = some (.word (sanitizeId name), []) := by
  have hindent : Transducer.run LexState.step .lineStart "    ".toList = some (.between, []) := by
    rfl
  exact Transducer.run_append hindent (run_sanitizeId name)

theorem run_edge {text name : List Char} {tokens : List Token}
    (h : Transducer.run LexState.step .lineStart text = some (.word name, tokens)) (target : String)
    : Transducer.run LexState.step .lineStart
          (text ++ " -> ".toList ++ sanitizeId target ++ ";\n".toList)
        = some (.lineStart,
            tokens ++ [.word name, .arrow] ++ [] ++ [.word (sanitizeId target), .symbol ';']) := by
  have harrow : Transducer.run LexState.step (.word name) " -> ".toList
      = some (.between, [.word name, .arrow]) := by
    rfl
  have hend : Transducer.run LexState.step (.word (sanitizeId target)) ";\n".toList
      = some (.lineStart, [.word (sanitizeId target), .symbol ';']) := by
    rfl
  have hname := Transducer.run_append (Transducer.run_append h harrow) (run_sanitizeId target)
  exact Transducer.run_append hname hend

theorem parse_edge (source : DotLanguage.NodeId) (target : String)
    : Transducer.run ParseState.step (.endpoint [] source)
          [.arrow, .word (sanitizeId target), .symbol ';']
        = some (.statement, [edgeStatement source { id := nodeId target }]) := by
  have harrow : ParseState.step (.endpoint [] source) .arrow = some (.arrow [source], []) := by
    rfl
  have htarget : ParseState.step (.arrow [source]) (.word (sanitizeId target))
      = some (.endpoint [source] { id := nodeId target }, []) := by
    simp only [ParseState.step, DotLanguage.id?_word (isKeyword_sanitizeId target)]
    rfl
  have hend : Transducer.run ParseState.step (.endpoint [source] { id := nodeId target })
      [.symbol ';'] = some (.statement, [edgeStatement source { id := nodeId target }]) := by
    rfl
  exact Transducer.run_cons harrow (Transducer.run_cons htarget hend)

end Names

section Header

def opening : List Char :=
  "digraph types \x7b\n".toList

def openingTokens : List Token :=
  [.word "digraph".toList, .word "types".toList, .symbol '{']

theorem run_opening
    : Transducer.run LexState.step .lineStart opening = some (.lineStart, openingTokens) := by
  rfl

theorem parse_openingTokens
    : Transducer.run ParseState.step .opening openingTokens = some (.statement, []) := by
  rfl

def font (size : String) : Attributes :=
  [ (.ofText "fontsize".toList, .ofText size.toList)
  , (.ofText "fontname".toList, .ofText "Courier".toList) ]

def headerStatements (shape : String) : List Statement :=
  [ .assign (.ofText "rankdir".toList) (.ofText "LR".toList)
  , .attributes (.defaults .node) (font "10" ++ [(.ofText "shape".toList, .ofText shape.toList)])
  , .attributes (.defaults .edge) (font "8") ]

def headerLines (shape : String) : List Char :=
  "    rankdir=LR;\n".toList
    ++ ("    node  [shape=".toList ++ shape.toList ++ ", fontname=\"Courier\", fontsize=10];\n".toList)
    ++ "    edge  [fontname=\"Courier\", fontsize=8];\n\n".toList

theorem header_eq (shape : String) : header shape = opening ++ headerLines shape := by
  unfold header opening headerLines
  simp only [List.append_assoc]

theorem reads_rankdir
    : Reads "    rankdir=LR;\n".toList [.assign (.ofText "rankdir".toList) (.ofText "LR".toList)] :=
  ⟨[.word "rankdir".toList, .symbol '=', .word "LR".toList, .symbol ';'], by rfl, by rfl, by decide⟩

theorem reads_edgeDefaults
    : Reads "    edge  [fontname=\"Courier\", fontsize=8];\n\n".toList
        [.attributes (.defaults .edge) (font "8")] :=
  ⟨[ .word "edge".toList, .symbol '[', .word "fontname".toList, .symbol '='
   , .quoted ("Courier".toList.map .plain), .symbol ',', .word "fontsize".toList, .symbol '='
   , .numeral "8".toList, .symbol ']', .symbol ';' ], by rfl, by rfl, by decide⟩

theorem reads_nodeDefaults {shape : String} (h : shape = "box" ∨ shape = "plain")
    : Reads ("    node  [shape=".toList ++ shape.toList
        ++ ", fontname=\"Courier\", fontsize=10];\n".toList)
        [.attributes (.defaults .node)
          (font "10" ++ [(.ofText "shape".toList, .ofText shape.toList)])] := by
  refine ⟨[ .word "node".toList, .symbol '[', .word "shape".toList, .symbol '='
    , .word shape.toList, .symbol ',', .word "fontname".toList, .symbol '='
    , .quoted ("Courier".toList.map .plain), .symbol ',', .word "fontsize".toList, .symbol '='
    , .numeral "10".toList, .symbol ']', .symbol ';' ], ?_, ?_, ?_⟩
  . have hshape : Transducer.run LexState.step .between shape.toList
        = some (.word shape.toList, []) := by
      rcases h with rfl | rfl <;> rfl
    have hfirst : Transducer.run LexState.step .lineStart "    node  [shape=".toList
        = some (.between, [.word "node".toList, .symbol '[', .word "shape".toList, .symbol '=']) := by
      rfl
    apply Transducer.run_append (Transducer.run_append hfirst hshape)
    rfl
  . rcases h with rfl | rfl <;> rfl
  . simp

theorem reads_headerLines {shape : String} (h : shape = "box" ∨ shape = "plain")
    : Reads (headerLines shape) (headerStatements shape) :=
  (reads_rankdir.append (reads_nodeDefaults h)).append reads_edgeDefaults

end Header

section Simple

variable (renderer : TypeGraphRenderer)

def simpleLabel (name : String) : List Char :=
  name.toList ++ "\\n[".toList ++ (renderer.kindOf (.named name)).toList ++ "]".toList

def simpleAttributes (name : String) : Attributes :=
  [ (.ofText "fillcolor".toList, .ofText (renderer.fillFor (.named name)).toList)
  , (.ofText "style".toList, .ofText "filled".toList)
  , (labelKey, .text (quotedChars (renderer.simpleLabel name))) ]

variable {name : String}

theorem kindOf_mem (ti : Tinfo) : renderer.kindOf ti ∈ ["enum", "typedef", "udt", "type"] := by
  unfold kindOf
  split
  . simp
  split
  . simp
  split <;> simp

theorem fillFor_mem (ti : Tinfo)
    : renderer.fillFor ti ∈ ["lightyellow", "lightgray", "mistyrose", "lightblue", "white"] := by
  unfold fillFor
  split
  . simp
  split
  . simp
  split
  . split <;> simp
  . simp

theorem not_mem_kindOf {c : Char} (hc : c.isAlpha = false) (ti : Tinfo)
    : c ∉ (renderer.kindOf ti).toList := by
  have hall : ∀ kind ∈ ["enum", "typedef", "udt", "type"], kind.toList.all Char.isAlpha = true := by
    decide
  intro hmem
  have halpha := List.all_eq_true.mp (hall _ (kindOf_mem renderer ti)) c hmem
  rw [hc] at halpha
  cases halpha

theorem isAlpha_fillFor {c : Char} {ti : Tinfo} (hc : c ∈ (renderer.fillFor ti).toList)
    : c.isAlpha = true := by
  have hall : ∀ fill ∈ ["lightyellow", "lightgray", "mistyrose", "lightblue", "white"],
      fill.toList.all Char.isAlpha = true := by
    decide
  exact List.all_eq_true.mp (hall _ (fillFor_mem renderer ti)) c hc

theorem run_fillFor (ti : Tinfo)
    : Transducer.run LexState.step .between (renderer.fillFor ti).toList
        = some (.word (renderer.fillFor ti).toList, []) := by
  have hmem := fillFor_mem renderer ti
  generalize renderer.fillFor ti = fill at hmem
  revert fill
  simp only [List.mem_cons, List.not_mem_nil, or_false]
  rintro _ (rfl | rfl | rfl | rfl | rfl) <;> rfl

theorem isKeyword_fillFor (ti : Tinfo)
    : DotLanguage.isKeyword (renderer.fillFor ti).toList = false := by
  have hmem := fillFor_mem renderer ti
  generalize renderer.fillFor ti = fill at hmem
  revert fill
  decide

theorem quote_not_mem_simpleLabel (h : '"' ∉ name.toList) : '"' ∉ renderer.simpleLabel name := by
  simp only [simpleLabel, List.mem_append, not_or]
  exact ⟨⟨⟨h, by decide⟩, not_mem_kindOf renderer (by decide) (.named name)⟩, by decide⟩

theorem getLast?_simpleLabel : (renderer.simpleLabel name).getLast? = some ']' := by
  rw [simpleLabel, List.getLast?_append]
  rfl

theorem simpleNode_eq (node : GraphNode)
    : renderer.simpleNode node
        = "    ".toList ++ sanitizeId node.name ++ " [label=\"".toList
            ++ renderer.simpleLabel node.name ++ "\"".toList
            ++ " style=filled fillcolor=".toList ++ (renderer.fillFor (.named node.name)).toList
            ++ "];\n".toList := by
  have hclose : "]\"".toList = "]".toList ++ "\"".toList := by
    decide
  unfold simpleNode simpleLabel
  rw [hclose]
  simp only [List.append_assoc]

theorem reads_simpleNode {node : GraphNode} (h : '"' ∉ node.name.toList)
    : Reads (renderer.simpleNode node)
        [nodeStatement (nodeId node.name) (renderer.simpleAttributes node.name)] := by
  let fill := (renderer.fillFor (.named node.name)).toList
  refine ⟨[ .word (sanitizeId node.name), .symbol '[', .word "label".toList, .symbol '='
    , .quoted (quotedChars (renderer.simpleLabel node.name)), .word "style".toList, .symbol '='
    , .word "filled".toList, .word "fillcolor".toList, .symbol '=', .word fill, .symbol ']'
    , .symbol ';' ], ?_, ?_, ?_⟩
  . have hopen : Transducer.run LexState.step (.word (sanitizeId node.name)) " [label=\"".toList
        = some (.quoted [], [ .word (sanitizeId node.name), .symbol '[', .word "label".toList
          , .symbol '=' ]) := by
      rfl
    have hlast : (renderer.simpleLabel node.name).getLast? ≠ some '\\' := by
      rw [getLast?_simpleLabel]
      decide
    have hlabel := DotLanguage.run_quoted (quote_not_mem_simpleLabel renderer h) hlast []
    have hclose : Transducer.run LexState.step
        (.quoted ([] ++ quotedChars (renderer.simpleLabel node.name))) "\"".toList
          = some (.between, [.quoted (quotedChars (renderer.simpleLabel node.name))]) := by
      rfl
    have hstyle : Transducer.run LexState.step .between " style=filled fillcolor=".toList
        = some (.between, [ .word "style".toList, .symbol '=', .word "filled".toList
          , .word "fillcolor".toList, .symbol '=' ]) := by
      rfl
    have hend : Transducer.run LexState.step (.word fill) "];\n".toList
        = some (.lineStart, [.word fill, .symbol ']', .symbol ';']) := by
      rfl
    have hopened := Transducer.run_append (run_indented node.name) hopen
    have hquoted := Transducer.run_append (Transducer.run_append hopened hlabel) hclose
    have hall := Transducer.run_append (Transducer.run_append (Transducer.run_append hquoted hstyle)
      (run_fillFor renderer (.named node.name))) hend
    rw [simpleNode_eq]
    exact hall
  . have hfirst := DotLanguage.step_statement_word (isKeyword_sanitizeId node.name)
    have hmiddle : Transducer.run ParseState.step (.endpoint [] { id := nodeId node.name })
        [ .symbol '[', .word "label".toList, .symbol '='
        , .quoted (quotedChars (renderer.simpleLabel node.name)), .word "style".toList, .symbol '='
        , .word "filled".toList, .word "fillcolor".toList, .symbol '=' ]
          = some (.value (.chain [{ id := nodeId node.name }])
              [ (.ofText "style".toList, .ofText "filled".toList)
              , (labelKey, .text (quotedChars (renderer.simpleLabel node.name))) ]
              (.ofText "fillcolor".toList), []) := by
      rfl
    have hfill : ParseState.step (.value (.chain [{ id := nodeId node.name }])
        [ (.ofText "style".toList, .ofText "filled".toList)
        , (labelKey, .text (quotedChars (renderer.simpleLabel node.name))) ]
        (.ofText "fillcolor".toList)) (.word fill)
          = some (.paired (.chain [{ id := nodeId node.name }])
              (renderer.simpleAttributes node.name), []) := by
      simp only [ParseState.step, DotLanguage.id?_word (isKeyword_fillFor renderer (.named node.name)),
        fill]
      rfl
    have hend : Transducer.run ParseState.step (.paired (.chain [{ id := nodeId node.name }])
        (renderer.simpleAttributes node.name)) [.symbol ']', .symbol ';']
          = some (.statement, [nodeStatement (nodeId node.name)
              (renderer.simpleAttributes node.name)]) := by
      rfl
    exact Transducer.run_cons hfirst (Transducer.run_append hmiddle (Transducer.run_cons hfill hend))
  . simp

theorem reads_simpleEdge (edge : DotEdge)
    : Reads (simpleEdge edge)
        [edgeStatement { id := nodeId edge.source } { id := nodeId edge.target }] := by
  refine ⟨[ .word (sanitizeId edge.source), .arrow, .word (sanitizeId edge.target), .symbol ';' ],
    ?_, ?_, ?_⟩
  . apply run_edge (run_indented edge.source)
  . have hsource := DotLanguage.step_statement_word (isKeyword_sanitizeId edge.source)
    exact Transducer.run_cons hsource (parse_edge { id := nodeId edge.source } edge.target)
  . simp

end Simple

section Charge

/-!
A text only pays for the backslashes of the names: the ones it adds stand before an `n`.
-/

variable (renderer : TypeGraphRenderer)

theorem backslash_not_mem_sanitizeId (name : String) : '\\' ∉ sanitizeId name := by
  intro hmem
  exact absurd (isNameChar_sanitizeId hmem) (by decide)

theorem charge_simpleNode_le (node : GraphNode) (more : List Char)
    : DotLanguage.charge false (renderer.simpleNode node ++ more)
        ≤ node.name.toList.count '\\' + DotLanguage.charge false more := by
  let before := "    ".toList ++ sanitizeId node.name ++ " [label=\"".toList
  let after := "[".toList ++ (renderer.kindOf (.named node.name)).toList ++ "]\"".toList
    ++ " style=filled fillcolor=".toList ++ (renderer.fillFor (.named node.name)).toList
    ++ "];\n".toList
  have hbefore : '\\' ∉ before := by
    simp only [before, List.mem_append, not_or]
    exact ⟨⟨by decide, backslash_not_mem_sanitizeId node.name⟩, by decide⟩
  have hafter : '\\' ∉ after := by
    simp only [after, List.mem_append, not_or]
    have hfill : '\\' ∉ (renderer.fillFor (.named node.name)).toList := by
      intro hmem
      exact absurd (isAlpha_fillFor renderer hmem) (by decide)
    exact ⟨⟨⟨⟨⟨by decide, not_mem_kindOf renderer (by decide) _⟩, by decide⟩, by decide⟩, hfill⟩,
      by decide⟩
  have hsplit : renderer.simpleNode node ++ more
      = before ++ (node.name.toList ++ ('\\' :: 'n' :: (after ++ more))) := by
    have hescape : "\\n[".toList = '\\' :: 'n' :: "[".toList := by
      decide
    unfold simpleNode
    rw [hescape]
    simp only [before, after, List.append_assoc, List.cons_append]
  have hname := DotLanguage.charge_append_le false node.name.toList ('\\' :: 'n' :: (after ++ more))
  have hescaped : DotLanguage.charge false ('\\' :: 'n' :: (after ++ more))
      = DotLanguage.charge false (after ++ more) := by
    simp [DotLanguage.charge, DotLanguage.isSpecial]
  rw [hescaped, DotLanguage.charge_of_not_mem hafter] at hname
  rw [hsplit, DotLanguage.charge_of_not_mem hbefore]
  simpa using hname

theorem charge_simpleNodes_le (nodes : List GraphNode) (more : List Char)
    : DotLanguage.charge false (nodes.flatMap renderer.simpleNode ++ more)
        ≤ (nodes.map fun node => node.name.toList.count '\\').sum + DotLanguage.charge false more := by
  induction nodes with
  | nil => simp
  | cons node nodes ih =>
    have hone := charge_simpleNode_le renderer node (nodes.flatMap renderer.simpleNode ++ more)
    rw [List.flatMap_cons, List.append_assoc, List.map_cons, List.sum_cons]
    omega

theorem backslash_not_mem_simpleEdge (edge : DotEdge) : '\\' ∉ simpleEdge edge := by
  unfold simpleEdge
  rw [List.mem_append, List.mem_append, List.mem_append, List.mem_append]
  rintro ((((hindent | hsource) | harrow) | htarget) | hend)
  . exact absurd hindent (by decide)
  . exact backslash_not_mem_sanitizeId _ hsource
  . exact absurd harrow (by decide)
  . exact backslash_not_mem_sanitizeId _ htarget
  . exact absurd hend (by decide)

theorem backslash_not_mem_header : '\\' ∉ header "box" := by
  decide

theorem charge_emitSimpleText_le (nodes : List GraphNode)
    : DotLanguage.charge false (renderer.emitSimpleText nodes)
        ≤ (nodes.map fun node => node.name.toList.count '\\').sum := by
  let tail := "\n".toList ++ (emitSimple nodes).edges.flatMap simpleEdge ++ "\x7d\n".toList
  have htail : '\\' ∉ tail := by
    intro hmem
    rw [List.mem_append, List.mem_append, List.mem_flatMap] at hmem
    rcases hmem with (hline | ⟨edge, _, hedge⟩) | hend
    . exact absurd hline (by decide)
    . exact backslash_not_mem_simpleEdge edge hedge
    . exact absurd hend (by decide)
  have hsplit : renderer.emitSimpleText nodes
      = header "box" ++ (nodes.flatMap renderer.simpleNode ++ tail) := by
    unfold emitSimpleText
    rw [← List.append_assoc, ← List.append_assoc, ← List.append_assoc]
  have hnodes := charge_simpleNodes_le renderer nodes tail
  have hnone := DotLanguage.charge_of_not_mem htail []
  rw [List.append_nil] at hnone
  rw [hsplit, DotLanguage.charge_of_not_mem backslash_not_mem_header]
  rw [hnone] at hnodes
  exact hnodes

end Charge

end TypeGraphRenderer
end Types
end Idax
