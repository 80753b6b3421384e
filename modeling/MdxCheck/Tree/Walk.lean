import MdxCheck.Tree.Basic

/-!
Walking a tree: every node before its children, the children from left to right.

`Node.walk` takes the nodes from a stack, so no depth of nesting can exhaust it; `Node.preorder`
says the order by recursion on the tree.
-/

namespace MdxCheck.Node

mutual

def preorder : Node → List Node
  | root children position => root children position :: preorders children
  | component name attributes children position =>
    component name attributes children position :: preorders children
  | paragraph children position => paragraph children position :: preorders children
  | text value position => [text value position]
  | element kind children value position =>
    element kind children value position :: preorders children

def preorders : List Node → List Node
  | [] => []
  | node :: nodes => preorder node ++ preorders nodes

end

mutual

def size : Node → Nat
  | root children _ => sizes children + 1
  | component _ _ children _ => sizes children + 1
  | paragraph children _ => sizes children + 1
  | text _ _ => 1
  | element _ children _ _ => sizes children + 1

def sizes : List Node → Nat
  | [] => 0
  | node :: nodes => size node + sizes nodes

end

theorem size_eq (node : Node) : node.size = sizes node.children + 1 := by
  cases node <;> simp [size, children, sizes]

theorem sizes_append (front back : List Node) :
    sizes (front ++ back) = sizes front + sizes back := by
  induction front with
  | nil => simp [sizes]
  | cons node rest ih => simp [sizes, ih, Nat.add_assoc]

/-- Takes the nodes from a stack: the top node is next and gives way to its children. -/
def walkStack : List Node → List Node
  | [] => []
  | node :: stack => node :: walkStack (node.children ++ stack)
termination_by stack => sizes stack
decreasing_by
  simp only [sizes, sizes_append, size_eq node]
  omega

def walk (tree : Node) : List Node :=
  walkStack [tree]

def visit (tree : Node) (predicate : Node → Bool) : List Node :=
  tree.walk.filter predicate

mutual

def outline (depth : Nat) : Node → List (Nat × Node)
  | root children position => (depth, root children position) :: outlines (depth + 1) children
  | component name attributes children position =>
    (depth, component name attributes children position) :: outlines (depth + 1) children
  | paragraph children position =>
    (depth, paragraph children position) :: outlines (depth + 1) children
  | text value position => [(depth, text value position)]
  | element kind children value position =>
    (depth, element kind children value position) :: outlines (depth + 1) children

def outlines (depth : Nat) : List Node → List (Nat × Node)
  | [] => []
  | node :: nodes => outline depth node ++ outlines depth nodes

end

end MdxCheck.Node
