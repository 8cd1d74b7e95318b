import Idax.Types.Graph

/-!
This module contains the texts that the renderer of type graphs writes in the DOT language, with each
type as a box or as a table of its members. Every character of a name stands for one byte of it.
-/

namespace Idax
namespace Types

structure Edm where
  name : String
  value : Nat
  deriving DecidableEq, Repr

namespace TypeGraphRenderer

def sanitizeId (name : String) : List Char :=
  "n_".toList ++ name.toList.map fun c =>
    if '0' ≤ c ∧ c ≤ '9' ∨ 'A' ≤ c ∧ c ≤ 'Z' ∨ 'a' ≤ c ∧ c ≤ 'z' then c else '_'

def escapedChar : Char → List Char
  | '<' => "&lt;".toList
  | '>' => "&gt;".toList
  | '&' => "&amp;".toList
  | '"' => "&quot;".toList
  | c => [c]

def htmlEscape (text : String) : List Char :=
  text.toList.flatMap escapedChar

def decimal (n : Nat) : List Char :=
  Nat.toDigits 10 n

def hexadecimal (n : Nat) : List Char :=
  "0x".toList ++ (Nat.toDigits 16 n).map Char.toUpper

section Types

variable (renderer : TypeGraphRenderer)

def isUnion (ti : Tinfo) : Bool :=
  match renderer.til.udtDetails? ti with
  | some udt => udt.isUnion
  | none => false

def kindOf (ti : Tinfo) : String :=
  if renderer.til.isEnum ti then
    "enum"
  else if renderer.isTypedef ti.typeName then
    "typedef"
  else if renderer.til.isUdt ti then
    "udt"
  else
    "type"

def tableKindOf (ti : Tinfo) : String :=
  if renderer.til.isUdt ti && renderer.isUnion ti then
    "union"
  else if renderer.til.isEnum ti then
    "enum"
  else if renderer.isTypedef ti.typeName then
    "typedef"
  else if renderer.til.isUdt ti then
    "struct"
  else
    "type"

def fillFor (ti : Tinfo) : String :=
  if renderer.til.isEnum ti then
    "lightyellow"
  else if renderer.isTypedef ti.typeName then
    "lightgray"
  else if renderer.til.isUdt ti then
    if renderer.isUnion ti then "mistyrose" else "lightblue"
  else
    "white"

end Types

def header (shape : String) : List Char :=
  "digraph types \x7b\n".toList
    ++ "    rankdir=LR;\n".toList
    ++ "    node  [shape=".toList ++ shape.toList ++ ", fontname=\"Courier\", fontsize=10];\n".toList
    ++ "    edge  [fontname=\"Courier\", fontsize=8];\n\n".toList

section Simple

variable (renderer : TypeGraphRenderer)

def simpleNode (node : GraphNode) : List Char :=
  "    ".toList ++ sanitizeId node.name ++ " [label=\"".toList ++ node.name.toList
    ++ "\\n[".toList ++ (renderer.kindOf (.named node.name)).toList ++ "]\"".toList
    ++ " style=filled fillcolor=".toList ++ (renderer.fillFor (.named node.name)).toList
    ++ "];\n".toList

def simpleEdge (edge : DotEdge) : List Char :=
  "    ".toList ++ sanitizeId edge.source ++ " -> ".toList ++ sanitizeId edge.target ++ ";\n".toList

/--
The pairs of names that were seen before are left out, as they are in `emitSimple`.
-/
def emitSimpleText (nodes : List GraphNode) : List Char :=
  header "box"
    ++ nodes.flatMap renderer.simpleNode
    ++ "\n".toList
    ++ (emitSimple nodes).edges.flatMap simpleEdge
    ++ "\x7d\n".toList

end Simple

section Table

variable (renderer : TypeGraphRenderer) (enumDetails? : String → Option (List Edm))

def memberRow (i : Nat) (member : Udm) : List Char :=
  "        <TR>".toList
    ++ "<TD ALIGN=\"RIGHT\"><FONT POINT-SIZE=\"8\">".toList
    ++ hexadecimal (member.offset / 8) ++ "</FONT></TD>".toList
    ++ "<TD ALIGN=\"LEFT\" PORT=\"f".toList ++ decimal i ++ "\">".toList
    ++ htmlEscape (renderer.til.print member.type "") ++ " <B>".toList
    ++ htmlEscape (if member.name.isEmpty then "(anon)" else member.name)
    ++ "</B></TD>".toList
    ++ "</TR>\n".toList

def itemRow (item : Edm) : List Char :=
  "        <TR><TD ALIGN=\"RIGHT\"><FONT POINT-SIZE=\"8\">".toList
    ++ hexadecimal item.value ++ "</FONT></TD><TD ALIGN=\"LEFT\">".toList
    ++ htmlEscape item.name
    ++ "</TD></TR>\n".toList

def shownItems : Nat := 12

def moreRow (count : Nat) : List Char :=
  "        <TR><TD COLSPAN=\"2\" ALIGN=\"LEFT\">".toList
    ++ "<I>... ".toList ++ decimal (count - shownItems)
    ++ " more</I></TD></TR>\n".toList

def rows (name : String) : List Char :=
  match renderer.til.udtDetails? (.named name) with
  | some udt => udt.members.zipIdx.flatMap fun ⟨member, i⟩ => renderer.memberRow i member
  | none =>
    if renderer.til.isEnum (.named name) then
      match enumDetails? name with
      | some items =>
        (items.take shownItems).flatMap itemRow
          ++ if shownItems < items.length then moreRow items.length else []
      | none => []
    else
      []

def tableHead (name : String) : List Char :=
  "      <TABLE BORDER=\"0\" CELLBORDER=\"1\" CELLSPACING=\"0\">\n".toList
    ++ "        <TR><TD COLSPAN=\"2\" BGCOLOR=\"".toList
    ++ (renderer.fillFor (.named name)).toList ++ "\"><B>".toList ++ htmlEscape name
    ++ "</B>  <FONT POINT-SIZE=\"8\">".toList ++ (renderer.tableKindOf (.named name)).toList
    ++ "</FONT></TD></TR>\n".toList

def tableNode (node : GraphNode) : List Char :=
  "    ".toList ++ sanitizeId node.name ++ " [label=<\n".toList
    ++ renderer.tableHead node.name
    ++ renderer.rows enumDetails? node.name
    ++ "      </TABLE>\n    >];\n\n".toList

def tableEdge (source : String) (edge : FieldEdge) : List Char :=
  "    ".toList ++ sanitizeId source ++ ":f".toList ++ decimal edge.fieldIndex
    ++ " -> ".toList ++ sanitizeId edge.targetName ++ ";\n".toList

def emitTableText (nodes : List GraphNode) : List Char :=
  header "plain"
    ++ nodes.flatMap (renderer.tableNode enumDetails?)
    ++ nodes.flatMap (fun node => node.edges.flatMap (tableEdge node.name))
    ++ "\x7d\n".toList

end Table

section Render

variable (renderer : TypeGraphRenderer) (enumDetails? : String → Option (List Edm))

def emitText (nodes : List GraphNode) : List Char :=
  match renderer.options.mode with
  | .table => renderer.emitTableText enumDetails? nodes
  | .simple => renderer.emitSimpleText nodes

def renderText (fuel : Nat) (rootName : String) : Option (List Char) :=
  match renderer.til.tinfoFromName rootName with
  | none => some []
  | some root => do
    let s ← renderer.walk fuel root 0 {}
    some (if s.nodes.isEmpty then [] else renderer.emitText enumDetails? s.nodes)

end Render

end TypeGraphRenderer
end Types
end Idax
