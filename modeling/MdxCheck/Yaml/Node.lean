import MdxCheck.Yaml.Scan
import MdxCheck.Yaml.Tag

/-!
From the tokens of a YAML text to its one document, a tree of typed nodes.

The recursion follows the nesting of the document; a count that no text exhausts bounds it. An
alias stands for the node of its anchor, and inside of that node for the whole of it.
-/

namespace MdxCheck.Yaml

/-- A node: a scalar, a sequence, a mapping, or the collection that encloses it. -/
inductive Node where
  | scalar (tag : Tag) (value : Text) (start : Mark)
  | sequence (tag : Tag) (items : List Node) (start : Mark)
  | mapping (tag : Tag) (entries : List (Node × Node)) (start : Mark)
  | enclosing (isMap : Bool) (start : Mark)
deriving Inhabited

namespace Node

def start : Node → Mark
  | scalar _ _ start => start
  | sequence _ _ start => start
  | mapping _ _ start => start
  | enclosing _ start => start

def sort : Node → Text
  | scalar _ _ _ => "scalar"
  | sequence _ _ _ => "sequence"
  | mapping _ _ _ => "mapping"
  | enclosing isMap _ => if isMap then "mapping" else "sequence"

def absent (start : Mark) : Node :=
  scalar .null [] start

end Node

/-- The tokens that are left, why there are no more, the handles of tags and the anchors so far. -/
structure Composer where
  tokens : List Token
  failure : Option ScanFailure
  handles : List (Text × Text)
  anchors : List (Text × Node)

namespace Composer

def fail {α : Type} (error : Error) : Except ScanFailure α :=
  .error (.error error)

def peek (composer : Composer) : Except ScanFailure Token :=
  match composer.tokens, composer.failure with
  | token :: _, _ => .ok token
  | [], some failure => .error failure
  | [], none => .ok ⟨.streamEnd, default, default⟩

def next (composer : Composer) : Composer :=
  { composer with tokens := composer.tokens.drop 1 }

def defaultHandles : List (Text × Text) :=
  [(['!'], ['!']), (['!', '!'], Tag.schema)]

structure Properties where
  anchor : Option Text
  tag : Option TagSource
  start : Option Mark
  tagMark : Mark

def Properties.add? (properties : Properties) (token : Token) : Option Properties :=
  let start := properties.start.or (some token.start)
  match token.lexeme with
  | .anchor name =>
    if properties.anchor.isSome then none
    else some { properties with anchor := some name, start := start }
  | .tag source =>
    if properties.tag.isSome then none
    else some { properties with tag := some source, start := start, tagMark := token.start }
  | _ => none

/-- Reads the properties of a node, at most `count` of them. -/
def properties : Nat → Properties → Composer → Except ScanFailure (Properties × Composer)
  | 0, found, composer => .ok (found, composer)
  | count + 1, found, composer => do
    let token ← composer.peek
    match found.add? token with
    | some found => properties count found composer.next
    | none => return (found, composer)

/-- The name of the type that a tag stands for; there is none if the type is left open. -/
def tagName (composer : Composer) (found : Properties) : Except ScanFailure (Option Text) :=
  match found.tag with
  | none => .ok none
  | some source =>
    let named (name : Text) : Option Text := if name = ['!'] then none else some name
    match source.handle with
    | none => .ok (named source.suffix)
    | some handle =>
      match composer.handles.lookup handle with
      | some start => .ok (named (start ++ source.suffix))
      | none =>
        fail (.within .node (found.start.getD found.tagMark) (.unknownHandle handle) found.tagMark)

def checkAnchor (composer : Composer) (anchor : Option Text) (start : Mark) :
    Except ScanFailure Unit :=
  match anchor with
  | none => .ok ()
  | some name =>
    match composer.anchors.lookup name with
    | some first => fail (.within (.firstAnchor name) first.start .secondAnchor start)
    | none => .ok ()

def register (composer : Composer) (anchor : Option Text) (node : Node) : Composer :=
  match anchor with
  | none => composer
  | some name => { composer with anchors := (name, node) :: composer.anchors }

/-- Reads a node: in a block or in a flow collection, and perhaps a sequence without an indent of
its own. -/
abbrev ReadNode := Bool → Bool → Composer → Except ScanFailure (Node × Composer)

def nodeOr (read : ReadNode) (isBlock indentless : Bool) (stops : List Lexeme) (stop : Mark)
    (composer : Composer) : Except ScanFailure (Node × Composer) := do
  let token ← composer.peek
  if stops.contains token.lexeme then return (.absent stop, composer)
  else read isBlock indentless composer

def blockItems (read : ReadNode) (start : Mark) :
    Nat → Composer → Except ScanFailure (List Node × Composer)
  | 0, composer => .ok ([], composer)
  | fuel + 1, composer => do
    let token ← composer.peek
    match token.lexeme with
    | .blockEntry =>
      let (item, composer) ←
        nodeOr read true false [.blockEntry, .blockEnd] token.stop composer.next
      let (items, composer) ← blockItems read start fuel composer
      return (item :: items, composer)
    | .blockEnd => return ([], composer.next)
    | found => fail (.within .blockCollection start (.noBlockEnd found.name) token.start)

/-- The items of a sequence without an indent of its own. -/
def indentlessItems (read : ReadNode) : Nat → Composer → Except ScanFailure (List Node × Composer)
  | 0, composer => .ok ([], composer)
  | fuel + 1, composer => do
    let token ← composer.peek
    match token.lexeme with
    | .blockEntry =>
      let (item, composer) ←
        nodeOr read true false [.blockEntry, .key, .value, .blockEnd] token.stop composer.next
      let (items, composer) ← indentlessItems read fuel composer
      return (item :: items, composer)
    | _ => return ([], composer)

def valueOr (read : ReadNode) (isBlock : Bool) (stops : List Lexeme) (composer : Composer) :
    Except ScanFailure (Node × Composer) := do
  let token ← composer.peek
  match token.lexeme with
  | .value => nodeOr read isBlock isBlock stops token.stop composer.next
  | _ => return (.absent token.start, composer)

def blockEntries (read : ReadNode) (start : Mark) :
    Nat → Composer → Except ScanFailure (List (Node × Node) × Composer)
  | 0, composer => .ok ([], composer)
  | fuel + 1, composer => do
    let token ← composer.peek
    match token.lexeme with
    | .key =>
      let stops := [.key, .value, .blockEnd]
      let (key, composer) ← nodeOr read true true stops token.stop composer.next
      let (value, composer) ← valueOr read true stops composer
      let (entries, composer) ← blockEntries read start fuel composer
      return ((key, value) :: entries, composer)
    | .blockEnd => return ([], composer.next)
    | found => fail (.within .blockMapping start (.noBlockEnd found.name) token.start)

/-- Skips the comma before an entry of a flow collection that is not the first. -/
def separator (isFirst : Bool) (context : Context) (closing : Char) (start : Mark)
    (composer : Composer) : Except ScanFailure Composer := do
  if isFirst then return composer
  else
    let token ← composer.peek
    match token.lexeme with
    | .flowEntry => return composer.next
    | found => fail (.within context start (.noFlowEnd closing found.name) token.start)

/-- The items of a flow sequence; a key in it makes a mapping of one entry. -/
def flowItems (read : ReadNode) (start : Mark) :
    Nat → Bool → Composer → Except ScanFailure (List Node × Composer)
  | 0, _, composer => .ok ([], composer)
  | fuel + 1, isFirst, composer => do
    let token ← composer.peek
    if token.lexeme = .flowSequenceEnd then return ([], composer.next)
    else
      let composer ← separator isFirst .flowSequence ']' start composer
      let token ← composer.peek
      match token.lexeme with
      | .flowSequenceEnd => return ([], composer.next)
      | .key =>
        let (key, composer) ←
          nodeOr read false false [.value, .flowEntry, .flowSequenceEnd] token.stop composer.next
        let (value, composer) ← valueOr read false [.flowEntry, .flowSequenceEnd] composer
        let (items, composer) ← flowItems read start fuel false composer
        return (.mapping .mapping [(key, value)] token.start :: items, composer)
      | _ =>
        let (item, composer) ← read false false composer
        let (items, composer) ← flowItems read start fuel false composer
        return (item :: items, composer)

/-- The entries of a flow mapping; a node without a key mark has no value. -/
def flowEntries (read : ReadNode) (start : Mark) :
    Nat → Bool → Composer → Except ScanFailure (List (Node × Node) × Composer)
  | 0, _, composer => .ok ([], composer)
  | fuel + 1, isFirst, composer => do
    let token ← composer.peek
    if token.lexeme = .flowMappingEnd then return ([], composer.next)
    else
      let composer ← separator isFirst .flowMapping '\x7d' start composer
      let token ← composer.peek
      match token.lexeme with
      | .flowMappingEnd => return ([], composer.next)
      | .key =>
        let (key, composer) ←
          nodeOr read false false [.value, .flowEntry, .flowMappingEnd] token.stop composer.next
        let (value, composer) ← valueOr read false [.flowEntry, .flowMappingEnd] composer
        let (entries, composer) ← flowEntries read start fuel false composer
        return ((key, value) :: entries, composer)
      | _ =>
        let (key, composer) ← read false false composer
        let token ← composer.peek
        let (entries, composer) ← flowEntries read start fuel false composer
        return ((key, .absent token.start) :: entries, composer)

/-- The sequence whose items `read` reads. -/
def sequence (composer : Composer) (anchor name : Option Text) (start : Mark)
    (read : Composer → Except ScanFailure (List Node × Composer)) :
    Except ScanFailure (Node × Composer) := do
  let tag := (name.map Tag.ofName).getD .sequence
  let (items, composer) ← read (composer.register anchor (.enclosing false start))
  let node := .sequence tag items start
  return (node, composer.register anchor node)

/-- The mapping whose entries `read` reads. -/
def mapping (composer : Composer) (anchor name : Option Text) (start : Mark)
    (read : Composer → Except ScanFailure (List (Node × Node) × Composer)) :
    Except ScanFailure (Node × Composer) := do
  let tag := (name.map Tag.ofName).getD .mapping
  let (entries, composer) ← read (composer.register anchor (.enclosing true start))
  let node := .mapping tag entries start
  return (node, composer.register anchor node)

/-- The type of a scalar: the one that is written before it, or else the type of its form if it is
plain or its type is left open, and text otherwise. -/
def scalarTag (name : Option Text) (isOpen : Bool) (value : Text) (style : Style) : Tag :=
  match name with
  | some name => Tag.ofName name
  | none => if style = .plain ∨ isOpen then Tag.ofPlain value else .text

/-- Reads a node whose parts `read` reads. -/
def nodeWith (read : ReadNode) (fuel : Nat) (isBlock indentless : Bool) (composer : Composer) :
    Except ScanFailure (Node × Composer) := do
  let token ← composer.peek
  if let .aliasName name := token.lexeme then
    match composer.anchors.lookup name with
    | some node => return (node, composer.next)
    | none => fail (.bare (.unknownAlias name) token.start)
  else
    let (found, composer) ← properties 2 ⟨none, none, none, token.start⟩ composer
    let name ← composer.tagName found
    let token ← composer.peek
    let start := found.start.getD token.start
    let check := composer.checkAnchor found.anchor start
    match token.lexeme, isBlock with
    | .scalar value style, _ =>
      check
      let node := .scalar (scalarTag name found.tag.isSome value style) value start
      return (node, composer.next.register found.anchor node)
    | .flowSequenceStart, _ =>
      check
      composer.next.sequence found.anchor name start (flowItems read token.start fuel true)
    | .flowMappingStart, _ =>
      check
      composer.next.mapping found.anchor name start (flowEntries read token.start fuel true)
    | .blockSequenceStart, true =>
      check
      composer.next.sequence found.anchor name start (blockItems read token.start fuel)
    | .blockMappingStart, true =>
      check
      composer.next.mapping found.anchor name start (blockEntries read token.start fuel)
    | lexeme, _ =>
      if indentless ∧ lexeme = .blockEntry then
        check
        composer.sequence found.anchor name start (indentlessItems read fuel)
      else if found.anchor.isSome ∨ found.tag.isSome then
        check
        let tag := match name with
          | some name => Tag.ofName name
          | none => .null
        let node := .scalar tag [] start
        return (node, composer.register found.anchor node)
      else
        fail (.within (if isBlock then .blockNode else .flowNode) start (.noContent lexeme.name)
          token.start)

def node : Nat → ReadNode
  | 0 => fun _ _ composer => .ok (.absent default, composer)
  | fuel + 1 => fun isBlock indentless composer =>
    nodeWith (node fuel) (composer.tokens.length + 1) isBlock indentless composer

/-- Reads the directives before a document: whether a version was given, and the handles. -/
def directives : Nat → Bool → List (Text × Text) → Composer →
    Except ScanFailure (List (Text × Text) × Composer)
  | 0, _, handles, composer => .ok (handles, composer)
  | fuel + 1, hasVersion, handles, composer => do
    let token ← composer.peek
    match token.lexeme with
    | .directive (.version major _) =>
      if hasVersion then fail (.bare .twoVersions token.start)
      else if major ≠ 1 then fail (.bare .badVersion token.start)
      else directives fuel true handles composer.next
    | .directive (.tagHandle handle replacement) =>
      if (handles.lookup handle).isSome then fail (.bare (.twoHandles handle) token.start)
      else directives fuel hasVersion ((handle, replacement) :: handles) composer.next
    | .directive .other => directives fuel hasVersion handles composer.next
    | _ => return (handles, composer)

def documentStart (composer : Composer) : Except ScanFailure Composer := do
  let (handles, composer) ← directives (composer.tokens.length + 1) false [] composer
  let token ← composer.peek
  if token.lexeme = .documentStart then
    return { composer.next with handles := handles ++ defaultHandles }
  else fail (.bare (.noDocumentStart token.lexeme.name) token.start)

def documentEnds : Nat → Composer → Except ScanFailure Composer
  | 0, composer => .ok composer
  | fuel + 1, composer => do
    let token ← composer.peek
    if token.lexeme = .documentEnd then documentEnds fuel composer.next else return composer

def isExplicit : Lexeme → Bool
  | .directive _ => true
  | .documentStart => true
  | _ => false

/-- The content of a document after its mark; there may be none. -/
def documentContent (composer : Composer) : Except ScanFailure (Node × Composer) := do
  let token ← composer.peek
  if isExplicit token.lexeme ∨ token.lexeme = .documentEnd ∨ token.lexeme = .streamEnd then
    return (.absent token.start, composer)
  else node (composer.tokens.length + 1) true false composer

/-- The only document of a text; there is none in an empty text. -/
def document? (composer : Composer) : Except ScanFailure (Option Node) := do
  let token ← composer.peek
  if token.lexeme = .streamEnd then return none
  else
    let (root, composer) ←
      if isExplicit token.lexeme then do
        let composer ← composer.documentStart
        composer.documentContent
      else
        node (composer.tokens.length + 1) true false { composer with handles := defaultHandles }
    let composer ← documentEnds (composer.tokens.length + 1) composer
    let token ← composer.peek
    if token.lexeme = .streamEnd then return some root
    else
      let _ ← composer.documentStart
      fail (.within .singleDocument root.start .secondDocument token.start)

end Composer

/-- The only document of a text; there is none in an empty text. -/
def document? (text : Text) : Except ScanFailure (Option Node) :=
  let (tokens, failure) := tokens text
  Composer.document? ⟨tokens, failure, [], []⟩

end MdxCheck.Yaml
