import MdxCheck.Diagnostic
import MdxCheck.Rule.Identifiers
import MdxCheck.Tree.Walk

/-!
The rule of bars and pages: a wrapper component holds exactly one bar and one set of pages, whose
items pair up by identifier.
-/

namespace MdxCheck.Rule

structure BarPages where
  wrapper : Text
  bar : Text
  pages : Text
  barItem : Text
  pageItem : Text
deriving DecidableEq, Repr

namespace BarPages

def allows (rule : BarPages) (node : Node) : Bool :=
  node.isComponent rule.bar || node.isComponent rule.pages || node.isEmptyParagraph

def strayChildren (rule : BarPages) : List Node → Except MissingPosition (List Diagnostic)
  | [] => .ok []
  | node :: nodes =>
    if rule.allows node then rule.strayChildren nodes
    else do
      let position ← node.start
      let problems ← rule.strayChildren nodes
      return .atPosition position ("<" ++ rule.wrapper ++ "> component must only contain <" ++
        rule.bar ++ "> and <" ++ rule.pages ++ "> components as immediate children but found " ++
        node.describe) :: problems

def tooMany (rule : BarPages) (collection : Text) (found : List Node) : List Text :=
  if 1 < found.length then
    ["<" ++ rule.wrapper ++ "> can only have one <" ++ collection ++ "> child"]
  else []

def missing (rule : BarPages) (collection : Text) (found : List Node) : List Text :=
  if found.isEmpty then
    ["No <" ++ collection ++ "> found! <" ++ rule.wrapper ++ "> component must contain <" ++
      collection ++ "> as an immediate child"]
  else []

def itemIds (item : Text) (collection : Node) : List Text :=
  (collection.children.filter (Node.isComponent item)).flatMap (Node.attributeValues "id")

def unpaired (rule : BarPages) (item partner id : Text) : Text :=
  "Found a <" ++ item ++ "> with id \"" ++ id ++ "\" but no corresponding <" ++ partner ++
    ">. " ++ rule.wrapper ++ " components must come in pairs."

def repeated (item id : Text) : Text :=
  "Found a <" ++ item ++ "> with a duplicate id \"" ++ id ++ "\". <" ++ item ++
    ">s must have unique ids."

def itemProblems (rule : BarPages) (bar pages : Node) : List Text :=
  let barIds := itemIds rule.barItem bar
  let pageIds := itemIds rule.pageItem pages
  (missingIds barIds pageIds).map (rule.unpaired rule.barItem rule.pageItem) ++
    (missingIds pageIds barIds).map (rule.unpaired rule.pageItem rule.barItem) ++
    (duplicateIds barIds).map (repeated rule.barItem) ++
    (duplicateIds pageIds).map (repeated rule.pageItem)

/-- The problems of a wrapper that are reported at the wrapper itself. The items are compared only
where both collections are there, and then those of the first of each. -/
def wrapperProblems (rule : BarPages) (children : List Node) : List Text :=
  let bars := children.filter (Node.isComponent rule.bar)
  let pages := children.filter (Node.isComponent rule.pages)
  rule.tooMany rule.bar bars ++ rule.tooMany rule.pages pages ++
    rule.missing rule.bar bars ++ rule.missing rule.pages pages ++
    match bars, pages with
    | bar :: _, page :: _ => rule.itemProblems bar page
    | _, _ => []

/-- The problems anchored at a node, which needs a position only if there are any. -/
def anchored (node : Node) (reasons : List Text) : Except MissingPosition (List Diagnostic) :=
  match reasons with
  | [] => .ok []
  | reasons => node.start.map fun position => reasons.map fun reason => .atPosition position reason

def checkWrapper (rule : BarPages) (node : Node) : Except MissingPosition (List Diagnostic) := do
  let stray ← rule.strayChildren node.children
  let own ← anchored node (rule.wrapperProblems node.children)
  return stray ++ own

def checkWrappers (rule : BarPages) : List Node → Except MissingPosition (List Diagnostic)
  | [] => .ok []
  | node :: nodes => do
    let problems ← rule.checkWrapper node
    let further ← rule.checkWrappers nodes
    return problems ++ further

def check (rule : BarPages) (tree : Node) : Except MissingPosition (List Diagnostic) :=
  rule.checkWrappers (tree.visit (Node.isComponent rule.wrapper))

end BarPages

end MdxCheck.Rule
