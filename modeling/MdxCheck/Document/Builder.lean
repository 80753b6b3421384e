import MdxCheck.Document.Part
import MdxCheck.Document.Prose
import MdxCheck.Tag.Attributes

/-!
Putting the parts of a document together: tags open and close components, everything else goes into
the innermost open one.
-/

namespace MdxCheck.Document

/-- A component whose closing tag has not come yet: its tag, and the nodes inside so far. -/
structure OpenComponent where
  name : Text
  attributes : List Attribute
  position : Position
  children : List Node

/-- Why a document has no tree. A tag that does not fit the open component names that component
and its place. -/
inductive ParseError where
  | strayClosing (name : Text) (position : Position)
  | wrongClosing (name : Text) (position : Position) (opened : Text) (openedAt : Position)
  | unterminated (position : Position)
  | unclosed (opened : Text) (openedAt : Position) (position : Position)
deriving DecidableEq, Repr

namespace ParseError

def showPosition (position : Position) : Text :=
  "(" ++ Text.decimalInt position.line ++ ":" ++ Text.decimalInt position.column ++ ")"

def reason : ParseError → Text
  | strayClosing name _ =>
    "Unexpected closing tag `</" ++ name ++ ">`, expected an opening tag first"
  | wrongClosing name _ opened openedAt =>
    "Unexpected closing tag `</" ++ name ++ ">`, expected corresponding closing tag for `<" ++
      opened ++ ">` " ++ showPosition openedAt
  | unterminated _ => "Unexpected end of file in tag, expected a closing `>`"
  | unclosed opened openedAt _ =>
    "Expected a closing tag for `<" ++ opened ++ ">` " ++ showPosition openedAt ++
      " before the end of the document"

def position : ParseError → Position
  | strayClosing _ position => position
  | wrongClosing _ position _ _ => position
  | unterminated position => position
  | unclosed _ _ position => position

def message (error : ParseError) : Text :=
  error.reason ++ " " ++ showPosition error.position

end ParseError

/-- A tree that is being built: the nodes outside of open components, and these, the innermost
first. -/
structure Builder where
  nodes : List Node
  opened : List OpenComponent

namespace Builder

def empty : Builder := ⟨[], []⟩

/-- Adds nodes to the innermost open component, or to the document. -/
def add (builder : Builder) (nodes : List Node) : Builder :=
  match builder.opened with
  | [] => { builder with nodes := builder.nodes ++ nodes }
  | inner :: outer =>
    { builder with opened := { inner with children := inner.children ++ nodes } :: outer }

def handle (builder : Builder) (tag : Tag) (position : Position) : Except ParseError Builder :=
  if tag.closing then
    match builder.opened with
    | [] => .error (.strayClosing tag.name position)
    | inner :: outer =>
      if inner.name = tag.name then
        .ok (add { builder with opened := outer }
          [.component inner.name inner.attributes inner.children (some inner.position)])
      else .error (.wrongClosing tag.name position inner.name inner.position)
  else
    let attributes := Tag.parseAttributes tag.attributes
    if tag.selfClosing then
      .ok (builder.add [.component tag.name attributes [] (some position)])
    else
      .ok { builder with opened := ⟨tag.name, attributes, position, []⟩ :: builder.opened }

/-- Where a character of a piece of source stands in a document; the source starts with line
`first`. -/
def sourcePosition (first : Nat) (source : Text) (offset : Nat) : Position :=
  let before := source.take offset
  ⟨first + before.count '\n', (before.reverse.takeWhile (· ≠ '\n')).length + 1⟩

/-- The paragraph that the source between two tags is, unless it is blank. -/
def phrase (first : Nat) (source : Text) (start stop : Nat) : List Node :=
  let between := (source.take stop).drop start
  if Text.isBlankText between then []
  else
    let position := some (sourcePosition first source (start + Text.indentWidth between))
    [.paragraph [.text (phraseText between) position] position]

/-- Adds tags and the prose between them; `start` is where the tag before has ended. -/
def addTags (builder : Builder) (first : Nat) (source : Text) (start : Nat) :
    List Tag → Except ParseError Builder
  | [] => .ok (builder.add (phrase first source start source.length))
  | tag :: tags => do
    let builder ← (builder.add (phrase first source start tag.start)).handle tag
      (sourcePosition first source tag.start)
    builder.addTags first source tag.stop tags

def addPart (builder : Builder) : Part → Except ParseError Builder
  | .prose first lines => .ok (builder.add (proseNodes first lines))
  | .statement line source =>
    .ok (builder.add [.element "mdxjsEsm" [] (some source) (some ⟨line, 1⟩)])
  | .tagged first source tags => builder.addTags first source 0 tags
  | .unterminated first source offset =>
    .error (.unterminated (sourcePosition first source offset))

def addParts (builder : Builder) : List Part → Except ParseError Builder
  | [] => .ok builder
  | part :: parts => do
    let builder ← builder.addPart part
    builder.addParts parts

/-- The nodes of the document, once all components are closed; `position` is its end. -/
def finish (builder : Builder) (position : Position) : Except ParseError (List Node) :=
  match builder.opened with
  | [] => .ok builder.nodes
  | inner :: _ => .error (.unclosed inner.name inner.position position)

end Builder

end MdxCheck.Document
