import MdxCheck.Text.Basic

/-!
Document trees: components with their attributes, paragraphs, texts and all other constructs, each
with the place in the source where it starts.
-/

namespace MdxCheck

/-- A place in a source; lines and columns count from one. -/
structure Position where
  line : Int
  column : Int
deriving DecidableEq, Repr

/-- An attribute of a component; one that is written bare has no value. -/
structure Attribute where
  name : Text
  value : Option Text
deriving DecidableEq, Repr

/-- A node of a document. An element is any construct but the four others; its kind says which,
and a value makes it a leaf with literal content. -/
inductive Node where
  | root (children : List Node) (position : Option Position)
  | component (name : Text) (attributes : List Attribute) (children : List Node)
      (position : Option Position)
  | paragraph (children : List Node) (position : Option Position)
  | text (value : Text) (position : Option Position)
  | element (kind : Text) (children : List Node) (value : Option Text)
      (position : Option Position)
deriving Inhabited

namespace Node

/-- The children of a node; a text has none. -/
def children : Node → List Node
  | root children _ => children
  | component _ _ children _ => children
  | paragraph children _ => children
  | text _ _ => []
  | element _ children _ _ => children

def position : Node → Option Position
  | root _ position => position
  | component _ _ _ position => position
  | paragraph _ position => position
  | text _ position => position
  | element _ _ _ position => position

/-- The kind of a node: that of an element as it is, of any other node the name of its variant. -/
def kind : Node → Text
  | root _ _ => "root"
  | component _ _ _ _ => "component"
  | paragraph _ _ => "paragraph"
  | text _ _ => "text"
  | element kind _ _ _ => kind

def name? : Node → Option Text
  | component name _ _ _ => some name
  | _ => none

def isComponent (name : Text) (node : Node) : Bool :=
  node.name? == some name

/-- The values of all attributes of this name on a component, bare ones left out. -/
def attributeValues (name : Text) : Node → List Text
  | component _ attributes _ _ =>
    attributes.filterMap fun given => if given.name = name then given.value else none
  | _ => []

mutual

/-- The text below a node: its own literal content if it has one, else that of its children in
order. -/
def content : Node → Text
  | root children _ => contents children
  | component _ _ children _ => contents children
  | paragraph children _ => contents children
  | text value _ => value
  | element _ _ (some value) _ => value
  | element _ children none _ => contents children

def contents : List Node → Text
  | [] => []
  | node :: nodes => content node ++ contents nodes

end

def isEmptyParagraph : Node → Bool
  | node@(paragraph _ _) => Text.isBlankText node.content
  | _ => false

def describedLength : Nat := 30

/-- A few characters that tell a reader which node is meant: the tag of a component, the quoted
beginning of a paragraph without its line feeds, the kind of any other node. -/
def describe : Node → Text
  | component name _ _ _ => "<" ++ name ++ ">"
  | node@(paragraph _ _) =>
    let line := node.content.filter (· ≠ '\n')
    let shown := line.take describedLength
    "\"" ++ (if line.length ≤ describedLength then shown else shown ++ "...") ++ "\""
  | node => node.kind

end Node

structure MissingPosition where
  kind : Text
deriving DecidableEq, Repr

def MissingPosition.message (failure : MissingPosition) : Text :=
  failure.kind ++ " node has no source position; the document tree is malformed"

def Node.start (node : Node) : Except MissingPosition Position :=
  match node.position with
  | some position => .ok position
  | none => .error ⟨node.kind⟩

end MdxCheck
