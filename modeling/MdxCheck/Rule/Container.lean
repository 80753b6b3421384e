import MdxCheck.Diagnostic
import MdxCheck.Tree.Walk

/-!
The rule of paired containers: a container component holds components of one name only.
-/

namespace MdxCheck.Rule

structure PairedContainer where
  container : Text
  child : Text
deriving DecidableEq, Repr

namespace PairedContainer

def problem (rule : PairedContainer) (position : Position) (node : Node) : Diagnostic :=
  .atPosition position ("<" ++ rule.container ++ "> component must only contain <" ++ rule.child ++
    "> components as immediate children but found " ++ node.describe)

def checkChildren (rule : PairedContainer) :
    List Node → Except MissingPosition (List Diagnostic)
  | [] => .ok []
  | node :: nodes =>
    if node.isComponent rule.child then rule.checkChildren nodes
    else do
      let position ← node.start
      let problems ← rule.checkChildren nodes
      return rule.problem position node :: problems

def checkContainers (rule : PairedContainer) :
    List Node → Except MissingPosition (List Diagnostic)
  | [] => .ok []
  | node :: nodes => do
    let problems ← rule.checkChildren node.children
    let further ← rule.checkContainers nodes
    return problems ++ further

def check (rule : PairedContainer) (tree : Node) : Except MissingPosition (List Diagnostic) :=
  rule.checkContainers (tree.visit (Node.isComponent rule.container))

end PairedContainer

end MdxCheck.Rule
