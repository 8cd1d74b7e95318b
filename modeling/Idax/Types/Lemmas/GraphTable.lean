import Idax.Library.HtmlLabel
import Idax.Types.Lemmas.GraphText

/-!
This module contains how the tables of a type graph are read back: as the cells with the name of the
type, its members and the items of an enum. What a name is escaped to is always read back as the name.
-/

namespace Idax
namespace Types
namespace TypeGraphRenderer

open HtmlLabel (Cell Piece MarkupState TableState)
open DotLanguage (Token LexState ParseState Attributes Reads labelKey nodeStatement edgeStatement)

section Escaping

theorem piece_escapedChar (c : Char) (depth : Nat) (port : Option (List Char)) (content : List Char)
    (tags : List (List Char))
    : Piece ⟨depth, .text, .cell port content tags⟩ (escapedChar c)
        ⟨depth, .text, .cell port (content ++ [c]) tags⟩ [] := by
  unfold escapedChar
  split
  . exact ⟨rfl, [.char '<'], rfl, HtmlLabel.run_chars port content ['<'] tags⟩
  . exact ⟨rfl, [.char '>'], rfl, HtmlLabel.run_chars port content ['>'] tags⟩
  . exact ⟨rfl, [.char '&'], rfl, HtmlLabel.run_chars port content ['&'] tags⟩
  . exact ⟨rfl, [.char '"'], rfl, HtmlLabel.run_chars port content ['"'] tags⟩
  . next hopen hclose hand hquote =>
    apply HtmlLabel.piece_plain
    intro d hd
    rw [List.mem_singleton] at hd
    simp only [hd, HtmlLabel.isPlain, List.mem_cons, List.not_mem_nil, or_false, not_or, decide_eq_true_eq]
    exact ⟨hopen, hclose, hand, hquote⟩

theorem piece_htmlEscape (text : String) (depth : Nat) (port : Option (List Char))
    (content : List Char) (tags : List (List Char))
    : Piece ⟨depth, .text, .cell port content tags⟩ (htmlEscape text)
        ⟨depth, .text, .cell port (content ++ text.toList) tags⟩ [] := by
  unfold htmlEscape
  generalize text.toList = chars
  induction chars generalizing content with
  | nil =>
    rw [List.append_nil]
    apply HtmlLabel.piece_nil
  | cons c chars ih =>
    have hrest := ih (content ++ [c])
    rw [List.append_assoc] at hrest
    exact (piece_escapedChar c depth port content tags).append hrest

theorem isPlain_of_isAlphanum {c : Char} (h : c.isAlphanum = true) : HtmlLabel.isPlain c = true := by
  simp only [HtmlLabel.isPlain, decide_eq_true_eq, List.mem_cons, List.not_mem_nil, or_false]
  rintro (rfl | rfl | rfl | rfl) <;> (revert h; decide)

theorem isPlain_decimal {n : Nat} {c : Char} (hc : c ∈ decimal n) : HtmlLabel.isPlain c = true := by
  apply isPlain_of_isAlphanum
  have hdigit : c.isDigit = true := Nat.isDigit_of_mem_toDigits (by decide) (by decide) hc
  simp [Char.isAlphanum, hdigit]

theorem isAlphanum_digitChar {d : Nat} (h : d < 16) : (Nat.digitChar d).toUpper.isAlphanum = true := by
  revert d
  decide

theorem isAlphanum_hexDigits {n : Nat} {c : Char} (hc : c ∈ Nat.toDigits 16 n)
    : c.toUpper.isAlphanum = true := by
  induction n using Nat.strongRecOn with
  | ind n ih =>
    rcases Nat.lt_or_ge n 16 with hlt | hge
    . rw [Nat.toDigits_of_lt_base hlt, List.mem_singleton] at hc
      rw [hc]
      exact isAlphanum_digitChar hlt
    . rw [Nat.toDigits_of_base_le (by decide) hge, List.mem_append, List.mem_singleton] at hc
      cases hc with
      | inl hc => exact ih (n / 16) (by omega) hc
      | inr hc =>
        rw [hc]
        apply isAlphanum_digitChar (Nat.mod_lt n (by decide))

theorem isPlain_hexadecimal {n : Nat} {c : Char} (hc : c ∈ hexadecimal n)
    : HtmlLabel.isPlain c = true := by
  rw [hexadecimal, List.mem_append, List.mem_map] at hc
  rcases hc with hc | ⟨d, hd, heq⟩
  . have hall : "0x".toList.all HtmlLabel.isPlain = true := by
      decide
    exact List.all_eq_true.mp hall c hc
  . rw [← heq]
    exact isPlain_of_isAlphanum (isAlphanum_hexDigits hd)

end Escaping

section Cells

variable (renderer : TypeGraphRenderer) (enumDetails? : String → Option (List Edm))

def headingCell (name : String) : Cell :=
  { text := name.toList ++ "  ".toList ++ (renderer.tableKindOf (.named name)).toList }

def memberName (member : Udm) : String :=
  if member.name.isEmpty then "(anon)" else member.name

def memberCells (i : Nat) (member : Udm) : List Cell :=
  [ { text := hexadecimal (member.offset / 8) }
  , { port := some (portName i)
      text := (renderer.til.print member.type "").toList ++ " ".toList ++ (memberName member).toList } ]

def itemCells (item : Edm) : List Cell :=
  [{ text := hexadecimal item.value }, { text := item.name.toList }]

def moreCell (count : Nat) : Cell :=
  { text := "... ".toList ++ decimal (count - shownItems) ++ " more".toList }

def rowCells (name : String) : List Cell :=
  match renderer.til.udtDetails? (.named name) with
  | some udt => udt.members.zipIdx.flatMap fun ⟨member, i⟩ => renderer.memberCells i member
  | none =>
    if renderer.til.isEnum (.named name) then
      match enumDetails? name with
      | some items =>
        (items.take shownItems).flatMap itemCells
          ++ if shownItems < items.length then [moreCell items.length] else []
      | none => []
    else
      []

end Cells

section Rows

open HtmlLabel (Position)

def inTable : Position :=
  ⟨0, .text, .table⟩

def inRow : Position :=
  ⟨0, .text, .row⟩

theorem piece_memberRow (renderer : TypeGraphRenderer) (i : Nat) (member : Udm)
    : Piece inTable (renderer.memberRow i member) inTable (renderer.memberCells i member) := by
  let offset := hexadecimal (member.offset / 8)
  let type := (renderer.til.print member.type "").toList
  have hrow : Piece inTable "        <TR>".toList inRow [] :=
    ⟨by rfl, _, by rfl, by rfl⟩
  have hleft : Piece inRow "<TD ALIGN=\"RIGHT\"><FONT POINT-SIZE=\"8\">".toList
      ⟨0, .text, .cell none [] ["FONT".toList]⟩ [] :=
    ⟨by rfl, _, by rfl, by rfl⟩
  have hoffset : Piece ⟨0, .text, .cell none [] ["FONT".toList]⟩ offset
      ⟨0, .text, .cell none offset ["FONT".toList]⟩ [] :=
    HtmlLabel.piece_plain (fun c => isPlain_hexadecimal) 0 none [] ["FONT".toList]
  have hmiddle : Piece ⟨0, .text, .cell none offset ["FONT".toList]⟩ "</FONT></TD>".toList inRow
      [{ text := offset }] :=
    ⟨by rfl, _, by rfl, by rfl⟩
  have hport : Piece inRow "<TD ALIGN=\"LEFT\" PORT=\"f".toList
      ⟨1, .value "TD".toList [("ALIGN".toList, "LEFT".toList)] "PORT".toList ['f'], .row⟩ [] :=
    ⟨by rfl, _, by rfl, by rfl⟩
  have hdecimal : Piece
      ⟨1, .value "TD".toList [("ALIGN".toList, "LEFT".toList)] "PORT".toList ['f'], .row⟩ (decimal i)
      ⟨1, .value "TD".toList [("ALIGN".toList, "LEFT".toList)] "PORT".toList (portName i), .row⟩ [] :=
    HtmlLabel.piece_value (fun c => isPlain_decimal) 1 _ _ _ _ _
  have hopen : Piece
      ⟨1, .value "TD".toList [("ALIGN".toList, "LEFT".toList)] "PORT".toList (portName i), .row⟩
      "\">".toList ⟨0, .text, .cell (some (portName i)) [] []⟩ [] :=
    ⟨by rfl, _, by rfl, by rfl⟩
  have htype : Piece ⟨0, .text, .cell (some (portName i)) [] []⟩
      (htmlEscape (renderer.til.print member.type ""))
      ⟨0, .text, .cell (some (portName i)) type []⟩ [] :=
    piece_htmlEscape _ 0 _ [] []
  have hbold : Piece ⟨0, .text, .cell (some (portName i)) type []⟩ " <B>".toList
      ⟨0, .text, .cell (some (portName i)) (type ++ " ".toList) ["B".toList]⟩ [] :=
    ⟨by rfl, _, by rfl, by rfl⟩
  have hname := piece_htmlEscape (memberName member) 0 (some (portName i)) (type ++ " ".toList)
    ["B".toList]
  have hclose : Piece
      ⟨0, .text, .cell (some (portName i)) (type ++ " ".toList ++ (memberName member).toList)
        ["B".toList]⟩ "</B></TD>".toList inRow
      [{ port := some (portName i), text := type ++ " ".toList ++ (memberName member).toList }] :=
    ⟨by rfl, _, by rfl, by rfl⟩
  have hend : Piece inRow "</TR>\n".toList inTable [] :=
    ⟨by rfl, _, by rfl, by rfl⟩
  exact ((((((((((hrow.append hleft).append hoffset).append hmiddle).append hport).append
    hdecimal).append hopen).append htype).append hbold).append hname).append hclose).append hend

theorem piece_itemRow (item : Edm) : Piece inTable (itemRow item) inTable (itemCells item) := by
  let value := hexadecimal item.value
  have hleft : Piece inTable "        <TR><TD ALIGN=\"RIGHT\"><FONT POINT-SIZE=\"8\">".toList
      ⟨0, .text, .cell none [] ["FONT".toList]⟩ [] :=
    ⟨by rfl, _, by rfl, by rfl⟩
  have hvalue : Piece ⟨0, .text, .cell none [] ["FONT".toList]⟩ value
      ⟨0, .text, .cell none value ["FONT".toList]⟩ [] :=
    HtmlLabel.piece_plain (fun c => isPlain_hexadecimal) 0 none [] ["FONT".toList]
  have hmiddle : Piece ⟨0, .text, .cell none value ["FONT".toList]⟩
      "</FONT></TD><TD ALIGN=\"LEFT\">".toList ⟨0, .text, .cell none [] []⟩ [{ text := value }] :=
    ⟨by rfl, _, by rfl, by rfl⟩
  have hname : Piece ⟨0, .text, .cell none [] []⟩ (htmlEscape item.name)
      ⟨0, .text, .cell none item.name.toList []⟩ [] :=
    piece_htmlEscape item.name 0 none [] []
  have hend : Piece ⟨0, .text, .cell none item.name.toList []⟩ "</TD></TR>\n".toList inTable
      [{ text := item.name.toList }] :=
    ⟨by rfl, _, by rfl, by rfl⟩
  exact (((hleft.append hvalue).append hmiddle).append hname).append hend

theorem piece_moreRow (count : Nat) : Piece inTable (moreRow count) inTable [moreCell count] := by
  let more := decimal (count - shownItems)
  have hleft : Piece inTable "        <TR><TD COLSPAN=\"2\" ALIGN=\"LEFT\">".toList
      ⟨0, .text, .cell none [] []⟩ [] :=
    ⟨by rfl, _, by rfl, by rfl⟩
  have hitalic : Piece ⟨0, .text, .cell none [] []⟩ "<I>... ".toList
      ⟨0, .text, .cell none "... ".toList ["I".toList]⟩ [] :=
    ⟨by rfl, _, by rfl, by rfl⟩
  have hmore : Piece ⟨0, .text, .cell none "... ".toList ["I".toList]⟩ more
      ⟨0, .text, .cell none ("... ".toList ++ more) ["I".toList]⟩ [] :=
    HtmlLabel.piece_plain (fun c => isPlain_decimal) 0 none _ _
  have hword : Piece ⟨0, .text, .cell none ("... ".toList ++ more) ["I".toList]⟩ " more".toList
      ⟨0, .text, .cell none ("... ".toList ++ more ++ " more".toList) ["I".toList]⟩ [] :=
    HtmlLabel.piece_plain (List.all_eq_true.mp (by decide)) 0 none _ _
  have hclose : Piece ⟨0, .text, .cell none ("... ".toList ++ more ++ " more".toList) ["I".toList]⟩
      "</I></TD></TR>\n".toList inTable [moreCell count] :=
    ⟨by rfl, _, by rfl, by rfl⟩
  have hsplit : " more</I></TD></TR>\n".toList = " more".toList ++ "</I></TD></TR>\n".toList := by
    decide
  have hend : Piece ⟨0, .text, .cell none ("... ".toList ++ more) ["I".toList]⟩
      " more</I></TD></TR>\n".toList inTable [moreCell count] := by
    rw [hsplit]
    exact hword.append hclose
  exact ((hleft.append hitalic).append hmore).append hend

theorem piece_rows (renderer : TypeGraphRenderer) (enumDetails? : String → Option (List Edm))
    (name : String)
    : Piece inTable (renderer.rows enumDetails? name) inTable (renderer.rowCells enumDetails? name) := by
  unfold rows rowCells
  cases renderer.til.udtDetails? (.named name) with
  | some udt =>
    apply HtmlLabel.piece_flatMap
    intro entry _
    apply piece_memberRow
  | none =>
    dsimp only
    split
    . cases enumDetails? name with
      | some items =>
        have hitems : Piece inTable ((items.take shownItems).flatMap itemRow) inTable
            ((items.take shownItems).flatMap itemCells) :=
          HtmlLabel.piece_flatMap fun item _ => piece_itemRow item
        apply hitems.append
        split
        . apply piece_moreRow
        . apply HtmlLabel.piece_nil
      | none => apply HtmlLabel.piece_nil
    . apply HtmlLabel.piece_nil

theorem isPlain_of_isAlpha {c : Char} (h : c.isAlpha = true) : HtmlLabel.isPlain c = true := by
  apply isPlain_of_isAlphanum
  simp [Char.isAlphanum, h]

theorem isPlain_tableKindOf (renderer : TypeGraphRenderer) (ti : Tinfo)
    : (renderer.tableKindOf ti).toList.all HtmlLabel.isPlain = true := by
  unfold tableKindOf
  split
  . decide
  split
  . decide
  split
  . decide
  split <;> decide

theorem piece_tableHead (renderer : TypeGraphRenderer) (name : String)
    : Piece ⟨0, .text, .outside⟩ ("\n".toList ++ renderer.tableHead name) inTable
        [renderer.headingCell name] := by
  let fill := (renderer.fillFor (.named name)).toList
  let kind := (renderer.tableKindOf (.named name)).toList
  have hnewline : Piece ⟨0, .text, .outside⟩ "\n".toList ⟨0, .text, .outside⟩ [] :=
    ⟨by rfl, _, by rfl, by rfl⟩
  have htable : Piece ⟨0, .text, .outside⟩
      "      <TABLE BORDER=\"0\" CELLBORDER=\"1\" CELLSPACING=\"0\">\n".toList inTable [] :=
    ⟨by rfl, _, by rfl, by rfl⟩
  have hrow : Piece inTable "        <TR><TD COLSPAN=\"2\" BGCOLOR=\"".toList
      ⟨1, .value "TD".toList [("COLSPAN".toList, "2".toList)] "BGCOLOR".toList [], .row⟩ [] :=
    ⟨by rfl, _, by rfl, by rfl⟩
  have hfill : Piece
      ⟨1, .value "TD".toList [("COLSPAN".toList, "2".toList)] "BGCOLOR".toList [], .row⟩ fill
      ⟨1, .value "TD".toList [("COLSPAN".toList, "2".toList)] "BGCOLOR".toList fill, .row⟩ [] :=
    HtmlLabel.piece_value (fun c hc => isPlain_of_isAlpha (isAlpha_fillFor renderer hc)) 1 _ _ _ _ _
  have hbold : Piece
      ⟨1, .value "TD".toList [("COLSPAN".toList, "2".toList)] "BGCOLOR".toList fill, .row⟩
      "\"><B>".toList ⟨0, .text, .cell none [] ["B".toList]⟩ [] :=
    ⟨by rfl, _, by rfl, by rfl⟩
  have hname : Piece ⟨0, .text, .cell none [] ["B".toList]⟩ (htmlEscape name)
      ⟨0, .text, .cell none name.toList ["B".toList]⟩ [] :=
    piece_htmlEscape name 0 none [] _
  have hfont : Piece ⟨0, .text, .cell none name.toList ["B".toList]⟩
      "</B>  <FONT POINT-SIZE=\"8\">".toList
      ⟨0, .text, .cell none (name.toList ++ "  ".toList) ["FONT".toList]⟩ [] := by
    have hspaces : name.toList ++ "  ".toList = name.toList ++ " ".toList ++ " ".toList := by
      rw [List.append_assoc]
      rfl
    rw [hspaces]
    exact ⟨by rfl, _, by rfl, by rfl⟩
  have hkind : Piece ⟨0, .text, .cell none (name.toList ++ "  ".toList) ["FONT".toList]⟩ kind
      ⟨0, .text, .cell none (name.toList ++ "  ".toList ++ kind) ["FONT".toList]⟩ [] :=
    HtmlLabel.piece_plain (List.all_eq_true.mp (isPlain_tableKindOf renderer (.named name))) 0 none _ _
  have hend : Piece ⟨0, .text, .cell none (name.toList ++ "  ".toList ++ kind) ["FONT".toList]⟩
      "</FONT></TD></TR>\n".toList inTable [renderer.headingCell name] :=
    ⟨by rfl, _, by rfl, by rfl⟩
  have hhead := (((((((htable.append hrow).append hfill).append hbold).append hname).append
    hfont).append hkind).append hend)
  exact hnewline.append hhead

end Rows

section Ports

theorem portName_injective {i j : Nat} (h : portName i = portName j) : i = j := by
  have hdigits : decimal i = decimal j := List.tail_eq_of_cons_eq h
  unfold decimal at hdigits
  rw [← @Nat.ofDigitChars_ten_toDigits i, ← @Nat.ofDigitChars_ten_toDigits j, hdigits]

variable (renderer : TypeGraphRenderer) (enumDetails? : String → Option (List Edm))

theorem ports_rowCells {name : String} {udt : UdtTypeData}
    (h : renderer.til.udtDetails? (.named name) = some udt)
    : (renderer.rowCells enumDetails? name).filterMap (·.port)
        = (List.range udt.members.length).map portName := by
  have hindices : udt.members.zipIdx.map Prod.snd = List.range udt.members.length := by
    rw [List.zipIdx_map_snd, List.range_eq_range']
  unfold rowCells
  rw [h, ← hindices, List.map_map]
  dsimp only
  rw [List.filterMap_flatMap, List.map_eq_flatMap]
  congr 1

theorem count_port {name : String} {udt : UdtTypeData}
    (h : renderer.til.udtDetails? (.named name) = some udt) {i : Nat} (hi : i < udt.members.length)
    : ((renderer.headingCell name :: renderer.rowCells enumDetails? name).filterMap (·.port)).count
        (portName i) = 1 := by
  have hheading : (renderer.headingCell name).port = none := rfl
  rw [List.filterMap_cons_none hheading, ports_rowCells renderer enumDetails? h]
  apply List.count_eq_one_of_mem
  . apply List.nodup_range.map
    intro i j
    apply portName_injective
  . exact List.mem_map.mpr ⟨i, List.mem_range.mpr hi, rfl⟩

end Ports

section Statements

variable (renderer : TypeGraphRenderer) (enumDetails? : String → Option (List Edm))

def tableContent (name : String) : List Char :=
  "\n".toList ++ renderer.tableHead name ++ renderer.rows enumDetails? name
    ++ "      </TABLE>\n    ".toList

def tableAttributes (name : String) : Attributes :=
  [(labelKey, .html (renderer.tableContent enumDetails? name))]

theorem cells_tableContent (name : String)
    : DotLanguage.htmlDepth 0 (renderer.tableContent enumDetails? name) = some 0
        ∧ HtmlLabel.cells (renderer.tableContent enumDetails? name)
            = some (renderer.headingCell name :: renderer.rowCells enumDetails? name) := by
  have hend : Piece inTable "      </TABLE>\n    ".toList ⟨0, .text, .done⟩ [] :=
    ⟨by rfl, _, by rfl, by rfl⟩
  have hrows := piece_rows renderer enumDetails? name
  have hall := ((piece_tableHead renderer name).append hrows).append hend
  rw [List.append_nil] at hall
  exact HtmlLabel.cells_of_piece hall

theorem tableNode_eq (node : GraphNode)
    : renderer.tableNode enumDetails? node
        = "    ".toList ++ sanitizeId node.name ++ " [label=<".toList
            ++ renderer.tableContent enumDetails? node.name ++ ">".toList ++ "];\n\n".toList := by
  have hopen : " [label=<\n".toList = " [label=<".toList ++ "\n".toList := by
    decide
  have hclose : "      </TABLE>\n    >];\n\n".toList
      = "      </TABLE>\n    ".toList ++ ">".toList ++ "];\n\n".toList := by
    decide
  unfold tableNode tableContent
  rw [hopen, hclose]
  simp only [List.append_assoc]

theorem reads_tableNode (node : GraphNode)
    : Reads (renderer.tableNode enumDetails? node)
        [nodeStatement (nodeId node.name) (renderer.tableAttributes enumDetails? node.name)] := by
  let content := renderer.tableContent enumDetails? node.name
  refine ⟨[ .word (sanitizeId node.name), .symbol '[', .word "label".toList, .symbol '='
    , .html content, .symbol ']', .symbol ';' ], ?_, ?_, ?_⟩
  . have hopen : Transducer.run LexState.step (.word (sanitizeId node.name)) " [label=<".toList
        = some (.html 0 [], [ .word (sanitizeId node.name), .symbol '[', .word "label".toList
          , .symbol '=' ]) := by
      rfl
    have hcontent := DotLanguage.run_html (cells_tableContent renderer enumDetails? node.name).left []
    have hclose : Transducer.run LexState.step (.html 0 ([] ++ content)) ">".toList
        = some (.between, [.html content]) := by
      rfl
    have hend : Transducer.run LexState.step .between "];\n\n".toList
        = some (.lineStart, [.symbol ']', .symbol ';']) := by
      rfl
    have hopened := Transducer.run_append (run_indented node.name) hopen
    have hlabel := Transducer.run_append hopened hcontent
    rw [tableNode_eq]
    exact Transducer.run_append (Transducer.run_append hlabel hclose) hend
  . have hfirst := DotLanguage.step_statement_word (isKeyword_sanitizeId node.name)
    have hrest : Transducer.run ParseState.step (.endpoint [] { id := nodeId node.name })
        [ .symbol '[', .word "label".toList, .symbol '=', .html content, .symbol ']', .symbol ';' ]
          = some (.statement, [nodeStatement (nodeId node.name)
              (renderer.tableAttributes enumDetails? node.name)]) := by
      rfl
    exact Transducer.run_cons hfirst hrest
  . simp

theorem reads_tableEdge (source : String) (edge : FieldEdge)
    : Reads (tableEdge source edge)
        [edgeStatement { id := nodeId source, port := [portId edge.fieldIndex] }
          { id := nodeId edge.targetName }] := by
  let port := portName edge.fieldIndex
  refine ⟨[ .word (sanitizeId source), .symbol ':', .word port, .arrow
    , .word (sanitizeId edge.targetName), .symbol ';' ], ?_, ?_, ?_⟩
  . have hcolon : Transducer.run LexState.step (.word (sanitizeId source)) ":f".toList
        = some (.word ['f'], [.word (sanitizeId source), .symbol ':']) := by
      rfl
    have hport : Transducer.run LexState.step (.word ['f']) (decimal edge.fieldIndex)
        = some (.word port, []) :=
      DotLanguage.run_word (fun c => isNameChar_decimal) ['f']
    have hsource := Transducer.run_append (run_indented source) hcolon
    apply run_edge (Transducer.run_append hsource hport)
  . have hsource := DotLanguage.step_statement_word (isKeyword_sanitizeId source)
    have hcolon : ParseState.step (.endpoint [] { id := nodeId source }) (.symbol ':')
        = some (.colon [] { id := nodeId source }, []) := by
      rfl
    have hport : ParseState.step (.colon [] { id := nodeId source }) (.word port)
        = some (.endpoint [] { id := nodeId source, port := [portId edge.fieldIndex] }, []) := by
      simp only [ParseState.step, DotLanguage.id?_word (isKeyword_portName edge.fieldIndex), port]
      rfl
    exact Transducer.run_cons hsource (Transducer.run_cons hcolon (Transducer.run_cons hport
      (parse_edge _ edge.targetName)))
  . simp

end Statements

end TypeGraphRenderer
end Types
end Idax
