import MdxCheck.Data.Value
import MdxCheck.Text.Base64
import MdxCheck.Yaml.Node

/-!
From a YAML text to the value of its document.

Of several faults in the values of a document the one nearest to the root is reported, and of those
at one depth the first. So the nodes are checked level by level before a value is made of them.
-/

namespace MdxCheck.Yaml

inductive ValueFault where
  | number (fault : Decimal.Fault)
  | calendar (fault : Calendar.Fault)
  | code
deriving DecidableEq, Repr

def ValueFault.message : ValueFault → Text
  | number fault => fault.message
  | calendar fault => fault.message
  | code => "chr() arg not in range(0x110000)"

inductive Misuse where
  | notTimestamp
  | timestampMapping
  | notBoolean (word : Text)
  | noCharacters
  | hugeWeight
  | hugeCode
  | endlessDefault
deriving DecidableEq, Repr

def Misuse.message : Misuse → Text
  | notTimestamp => "'NoneType' object has no attribute 'groupdict'"
  | timestampMapping => "expected string or bytes-like object, got 'list'"
  | notBoolean word => Text.quoted word
  | noCharacters => "string index out of range"
  | hugeWeight => "int too large to convert to float"
  | hugeCode => "Python int too large to convert to C int"
  | endlessDefault => "maximum recursion depth exceeded"

/-- Why a text has no value: a character that may not stand in it, an error at a place, a scalar
without a value, or one that misuses its type. -/
inductive Failure where
  | character (code position : Nat)
  | error (error : Error)
  | value (fault : ValueFault)
  | misuse (misuse : Misuse)
deriving DecidableEq, Repr

namespace Failure

def ofScan : ScanFailure → Failure
  | .error fault => .error fault
  | .badCode code => if code < 0x80000000 then .value .code else .misuse .hugeCode

end Failure

namespace Node

def tag : Node → Tag
  | scalar tag _ _ => tag
  | sequence tag _ _ => tag
  | mapping tag _ _ => tag
  | enclosing isMap _ => if isMap then .mapping else .sequence

def withTag (tag : Tag) : Node → Node
  | scalar _ value start => scalar tag value start
  | sequence _ items start => sequence tag items start
  | mapping _ entries start => mapping tag entries start
  | enclosing isMap start => enclosing isMap start

def isMapping : Node → Bool
  | mapping _ _ _ => true
  | _ => false

mutual

/-- The text of a node that is read as a scalar; a mapping may have one as its default value. The
mappings that it is the default value of start at `outer`; none of them has an end to its defaults if
the node stands for it. -/
def textWithin (outer : List Mark) : Node → Except Failure Text
  | scalar _ value _ => .ok value
  | sequence _ _ start => .error (.error (.bare (.noKind "scalar" "sequence") start))
  | mapping _ entries start => defaultText outer start entries
  | enclosing isMap start =>
    if isMap && outer.contains start then .error (.misuse .endlessDefault)
    else .error (.error (.bare (.noKind "scalar" (enclosing isMap start).sort) start))

def defaultText (outer : List Mark) (start : Mark) : List (Node × Node) → Except Failure Text
  | [] => .error (.error (.bare (.noKind "scalar" "mapping") start))
  | (key, value) :: entries =>
    if key.tag = .value then textWithin (start :: outer) value else defaultText outer start entries

end

def scalarText (node : Node) : Except Failure Text :=
  node.textWithin []

def numeric {α : Type} (make : α → Value) : Except NumberFault α → Except Failure Value
  | .error .noCharacters => .error (.misuse .noCharacters)
  | .error .hugeWeight => .error (.misuse .hugeWeight)
  | .error (.digits fault) => .error (.value (.number fault))
  | .ok value => .ok (make value)

def scalarValue (node : Node) : Except Failure Value := do
  let unknown : Except Failure Value :=
    .error (.error (.bare (.unknownTag node.tag.name) node.start))
  match node.tag with
  | .null =>
    let _ ← node.scalarText
    return .null
  | .boolean =>
    let word := (← node.scalarText).map Char.toLower
    match Tag.truthWords.lookup word with
    | some truth => return .boolean truth
    | none => .error (.misuse (.notBoolean word))
  | .integer => numeric .integer (integerValue (← node.scalarText))
  | .float => numeric .float (floatValue (← node.scalarText))
  | .binary =>
    match Text.decodeBase64 (← node.scalarText) with
    | .ok bytes => return .bytes bytes
    | .error (.notAscii first place count) =>
      let reason := (Text.Base64Fault.notAscii first place count).message
      .error (.error (.bare (.badAscii reason) node.start))
    | .error fault => .error (.error (.bare (.badBase64 fault.message) node.start))
  | .timestamp =>
    let text ← node.scalarText
    if node.isMapping then .error (.misuse .timestampMapping)
    let text := if text.getLast? = some '\n' then text.dropLast else text
    match Timestamp.ofText? text with
    | none => .error (.misuse .notTimestamp)
    | some timestamp =>
      match timestamp.resolve with
      | .ok (.inl date) => return .date date
      | .ok (.inr moment) => return .moment moment
      | .error fault => .error (.value (.calendar fault))
  | .text => return .text (← node.scalarText)
  | _ => unknown

def isCollection (node : Node) : Bool :=
  match node.tag with
  | .sequence | .mapping | .set | .orderedMap | .pairs => true
  | _ => false

def check (node : Node) : Except Failure Unit :=
  if node.isCollection then .ok () else node.scalarValue.map fun _ => ()

def checkEach : List Node → Except Failure Unit
  | [] => .ok ()
  | node :: nodes => do
    node.check
    checkEach nodes

/-- The entries of mappings, by the places where these start. They are what a mapping gives to one that
it encloses, if it is merged into it. -/
abbrev Known := List (Mark × Except Failure (List (Node × Node)))

def Known.entriesAt (known : Known) (start : Mark) : Except Failure (List (Node × Node)) :=
  (known.lookup start).getD (.ok [])

mutual

/-- The entries that a node gives to a mapping it is merged into; nothing if it is no mapping. -/
def mergedEntries? (known : Known) : Node → Except Failure (Option (List (Node × Node)))
  | mapping _ entries start => do
    let (merged, own) ← splitEntries known start [] entries
    return some (merged ++ own)
  | enclosing true start => (known.entriesAt start).map some
  | _ => .ok none

/-- The entries that some nodes give to a mapping, those of later nodes first. -/
def mergedItems (known : Known) (start : Mark) : List Node → Except Failure (List (Node × Node))
  | [] => .ok []
  | item :: items => do
    match ← mergedEntries? known item with
    | some entries => return (← mergedItems known start items) ++ entries
    | none => .error (.error (.within .mapping start (.badMergeItem item.sort) item.start))

def mergedValue (known : Known) (start : Mark) : Node → Except Failure (List (Node × Node))
  | sequence _ items _ => mergedItems known start items
  | mapping _ entries inner => do
    let (merged, own) ← splitEntries known inner [] entries
    return merged ++ own
  | enclosing true place => known.entriesAt place
  | enclosing false place =>
    .error (.error (.within .mapping start (.badMerge "sequence") place))
  | scalar _ _ place => .error (.error (.within .mapping start (.badMerge "scalar") place))

/-- The entries that are merged into a mapping, and its own, of which the first ones are known. A
mapping that is merged into itself gives what is left of it. -/
def splitEntries (known : Known) (start : Mark) (own : List (Node × Node)) :
    List (Node × Node) → Except Failure (List (Node × Node) × List (Node × Node))
  | [] => .ok ([], own)
  | (key, value) :: entries =>
    match key.tag with
    | .merge => do
      let others := splitEntries known start own entries
      let left := others.map fun (merged, own) => merged ++ own
      let merged ← mergedValue ((start, left) :: known) start value
      let (further, own) ← others
      return (merged ++ further, own)
    | .value => splitEntries known start (own ++ [(key.withTag .text, value)]) entries
    | _ => splitEntries known start (own ++ [(key, value)]) entries

end

/-- The entries of a node that is read as a mapping: those of merged mappings, then its own. -/
def entries (known : Known) (node : Node) : Except Failure (List (Node × Node)) :=
  match node with
  | mapping _ entries start => do
    let (merged, own) ← splitEntries known start [] entries
    return merged ++ own
  | node => .error (.error (.bare (.noKind "mapping" node.sort) node.start))

mutual

/-- The mappings within a node, each before those within it. -/
def mappings : Node → List Node
  | mapping tag entries start => mapping tag entries start :: mappingsOfEntries entries
  | sequence _ items _ => mappingsOfItems items
  | _ => []

def mappingsOfItems : List Node → List Node
  | [] => []
  | item :: items => mappings item ++ mappingsOfItems items

def mappingsOfEntries : List (Node × Node) → List Node
  | [] => []
  | (key, value) :: entries => mappings key ++ mappings value ++ mappingsOfEntries entries

end

/-- The entries of all mappings within a node. -/
def known (root : Node) : Known :=
  root.mappings.foldl (fun known node => (node.start, node.entries known) :: known) []

def items (node : Node) : Except Failure (List Node) :=
  match node with
  | sequence _ items _ => .ok items
  | node => .error (.error (.bare (.noKind "sequence" node.sort) node.start))

def singleEntry (context : Context) (start : Mark) : Node → Except Failure (Node × Node)
  | mapping _ [entry] _ => .ok entry
  | mapping _ entries place =>
    .error (.error (.within context start (.badPairCount entries.length) place))
  | node => .error (.error (.within context start (.noSinglePair node.sort) node.start))

def pairItems (context : Context) (node : Node) : Except Failure (List Node) :=
  match node with
  | sequence _ items _ => .ok items
  | node => .error (.error (.within context node.start (.noSequence node.sort) node.start))

/-- Checks a key and its value; no collection can be a key. -/
def checkEntry (start : Mark) (key value : Node) : Except Failure Unit := do
  key.check
  if key.isCollection then .error (.error (.within .mapping start .unhashableKey key.start))
  value.check

/-- Checks the parts of a collection one level deep; they are the result. What an enclosing mapping gives
is not among them, since it is checked with that mapping. -/
def parts (node : Node) : Except Failure (List Node) :=
  match node.tag with
  | .sequence => do
    let items ← node.items
    checkEach items
    return items
  | .mapping | .set => do
    let entries ← node.entries []
    entries.forM fun (key, value) => checkEntry node.start key value
    return entries.flatMap fun (key, value) => [key, value]
  | .orderedMap | .pairs => do
    let context := if node.tag = .pairs then .pairs else .orderedMap
    let items ← node.pairItems context
    let parts ← items.mapM fun item => do
      let (key, value) ← singleEntry context node.start item
      key.check
      value.check
      return [key, value]
    return parts.flatten
  | _ => .ok []

def hasParts : Node → Bool
  | enclosing _ _ => false
  | node => node.isCollection

/-- Checks the parts of some collections, and then the parts of these, for so many levels. -/
def checkLevels : Nat → List Node → Except Failure Unit
  | 0, _ => .ok ()
  | _, [] => .ok ()
  | fuel + 1, nodes => do
    let below ← nodes.mapM parts
    checkLevels fuel (below.flatten.filter hasParts)

/-- The value of a node. The collections that it is in start at `outer`; one of them is not read again
inside of itself. -/
def valueOf (known : Known) : Nat → List Mark → Node → Except Failure Value
  | 0, _, _ => .ok .null
  | _, _, enclosing isMap _ => .ok (.enclosing isMap)
  | fuel + 1, outer, node =>
    if node.isCollection && outer.contains node.start then .ok (.enclosing node.isMapping)
    else
      let part := valueOf known fuel (node.start :: outer)
      match node.tag with
      | .sequence => do return .list (← (← node.items).mapM part)
      | .mapping => do
        let entries ← (← node.entries known).mapM fun (key, value) => do
          return (← part key, ← part value)
        return .map (entries.foldl (fun map (key, value) => Value.insert key value map) [])
      | .set => do
        let keys ← (← node.entries known).mapM fun (key, _) => part key
        let map := keys.foldl (fun map key => Value.insert key .null map) []
        return .set (map.map Prod.fst)
      | .orderedMap | .pairs => do
        let context := if node.tag = .pairs then .pairs else .orderedMap
        let items ← (← node.pairItems context).mapM fun item => do
          let (key, value) ← singleEntry context node.start item
          return .pair (← part key) (← part value)
        return .list items
      | _ => node.scalarValue

end Node

def isAcceptable (c : Char) : Bool :=
  let n := c.toNat
  n == 9 || n == 10 || n == 13 || (0x20 ≤ n && n ≤ 0x7E) || n == 0x85 ||
    (0xA0 ≤ n && n ≤ 0xFFFD) || 0x10000 ≤ n

def badCharacter (code position : Nat) : Text :=
  "unacceptable character #x" ++ Text.padded 16 4 code ++
    ": special characters are not allowed\n  in \"<unicode string>\", position " ++
    Text.decimal position

def checkCharacters (text : Text) : Except Failure Unit :=
  match text.dropWhile isAcceptable with
  | [] => .ok ()
  | c :: rest => .error (.character c.toNat (text.length - rest.length - 1))

/-- The value of the document of a text; a text without a document has none. -/
def load (text : Text) : Except Failure Value := do
  checkCharacters text
  match ← (document? text).mapError Failure.ofScan with
  | none => return .null
  | some root =>
    root.check
    Node.checkLevels (text.length + 1) ([root].filter Node.hasParts)
    root.valueOf root.known (text.length + 1) []

end MdxCheck.Yaml
