import MdxCheck.Markdown.Block
import MdxCheck.Markdown.Inline
import MdxCheck.Tree.Basic

/-!
The nodes of a run of prose, read as Markdown.

The indent that all lines of the run share is left out before they are read, and the columns of the
nodes are those of the lines as they stand in the document.
-/

namespace MdxCheck.Document

/-- The white space that all lines of a run with other characters start with, as its length. -/
def commonIndent (lines : List Text) : Nat :=
  (((lines.filter fun line => !Text.isBlankText line).map Text.indentWidth).min?).getD 0

/-- The lines of a run as Markdown: without their common indent, and blank ones empty. -/
def dedent (lines : List Text) : List Text :=
  let indent := commonIndent lines
  lines.map fun line => if Text.isBlankText line then [] else line.drop indent

/-- The kinds of nodes, by the types of their tokens. -/
def blockKinds : List (Text × Text) :=
  ([("heading", "heading"), ("bullet_list", "list"), ("ordered_list", "list"),
    ("list_item", "listItem"), ("blockquote", "blockquote"), ("table", "table"),
    ("thead", "tableHead"), ("tbody", "tableBody"), ("tr", "tableRow"), ("th", "tableCell"),
    ("td", "tableCell"), ("fence", "code"), ("code_block", "code"), ("hr", "thematicBreak"),
    ("html_block", "html")] : List (String × String)).map fun (type, kind) =>
      (type.toList, kind.toList)

def openMark : Text := "_open"

/-- A type without the mark of those that open. -/
def baseOf (type : Text) : Text :=
  if openMark.isSuffixOf type then type.take (type.length - openMark.length) else type

/-- The kind of the node for a token of a type; a type without a kind is one itself. -/
def kindOf (type : Text) : Text :=
  (blockKinds.lookup (baseOf type)).getD (baseOf type)

def containerNode (type : Text) (children : List Node) (position : Option Position) : Node :=
  if type = "paragraph_open".toList then .paragraph children position
  else .element (kindOf type) children none position

/-- The node of a token that stands by itself; `shown` gives the text of inline content. -/
def singleNode (shown : Text → Text) (type content : Text) (position : Option Position) : Node :=
  if type = "inline".toList then .text (shown content) position
  else .element (kindOf type) [] (some content) position

structure OpenContainer where
  type : Text
  line : Option Nat
  before : List Node

/-- The nodes that tokens stand for. `position` places a line; `nodes` are those of the innermost open
container so far. There is no result if a token closes more than is open. -/
def nodesFrom? (position : Nat → Position) (shown : Text → Text) :
    List OpenContainer → List Node → List Markdown.TypedToken → Option (List Node)
  | opened, nodes, [] => some ((opened.getLast?.map OpenContainer.before).getD nodes)
  | opened, nodes, .opening type line :: tokens =>
    nodesFrom? position shown (⟨type, line, nodes⟩ :: opened) [] tokens
  | [], _, .closing :: _ => none
  | container :: opened, nodes, .closing :: tokens =>
    let node := containerNode container.type nodes (container.line.map position)
    nodesFrom? position shown opened (container.before ++ [node]) tokens
  | opened, nodes, .single type content line :: tokens =>
    let node := singleNode shown type content (line.map position)
    nodesFrom? position shown opened (nodes ++ [node]) tokens

/-- Where a line of a run starts; the run begins with line `first` of the document. -/
def linePosition (first : Nat) (lines : List Text) (number : Nat) : Position :=
  ⟨first + number, Text.indentWidth ((lines[number]?).getD []) + 1⟩

/-- The Markdown that the lines of a run are read as. -/
def proseText (lines : List Text) : Text :=
  Text.unlines (dedent lines)

def proseNodes (first : Nat) (lines : List Text) : List Node :=
  if lines.all Text.isBlankText then []
  else
    let blocks := Markdown.Blocks.ofText (proseText lines)
    (nodesFrom? (linePosition first lines) (Markdown.Inline.shown blocks.labels) [] []
      (blocks.tokens.map Markdown.Token.typed)).getD []

def phraseText (source : Text) : Text :=
  Markdown.Inline.shown [] ((Text.trim source).map Markdown.Blocks.cleanChar)

end MdxCheck.Document
