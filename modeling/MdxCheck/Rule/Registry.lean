import MdxCheck.Rule.BarPages
import MdxCheck.Rule.Container

/-!
The rules for the structure of documents, and their registry.
-/

namespace MdxCheck.Rule

def steps : PairedContainer := ⟨"Steps", "Step"⟩

def tabs : BarPages := ⟨"Tabs", "TabsBar", "TabsPages", "TabsBarItem", "TabsPageItem"⟩

inductive Structural where
  | pairedContainer (rule : PairedContainer)
  | barPages (rule : BarPages)
deriving DecidableEq, Repr

def Structural.check : Structural → Node → Except MissingPosition (List Diagnostic)
  | pairedContainer rule, tree => rule.check tree
  | barPages rule, tree => rule.check tree

def registry : List Structural := [.pairedContainer steps, .barPages tabs]

def checkAll (tree : Node) : List Structural → Except MissingPosition (List Diagnostic)
  | [] => .ok []
  | rule :: rules => do
    let problems ← rule.check tree
    let further ← checkAll tree rules
    return problems ++ further

end MdxCheck.Rule
