import Mathlib.Data.List.Lex
import MdxCheck.Tree.Walk

/-!
The order of a walk. The stack that a walk takes its nodes from holds the trees that it has still to
go through, so what it meets from there on is what recursion on these trees gives. Told by addresses,
which say the way from the root of a tree to a node, the order is the lexicographic one.
-/

namespace MdxCheck.Node

theorem preorder_eq (node : Node) : node.preorder = node :: preorders node.children := by
  cases node <;> simp [preorder, children, preorders]

theorem preorders_append (front back : List Node) :
    preorders (front ++ back) = preorders front ++ preorders back := by
  induction front with
  | nil => rfl
  | cons node rest ih => simp [preorders, ih]

theorem preorders_eq_flatMap (nodes : List Node) : preorders nodes = nodes.flatMap preorder := by
  induction nodes with
  | nil => rfl
  | cons node nodes ih => rw [preorders, ih, List.flatMap_cons]

theorem walkStack_eq_preorders (stack : List Node) : walkStack stack = preorders stack := by
  fun_induction walkStack stack with
  | case1 => rfl
  | case2 node stack ih =>
      rw [ih, preorders_append, preorders, preorder_eq]
      rfl

theorem walk_eq_preorder (tree : Node) : tree.walk = tree.preorder := by
  rw [walk, walkStack_eq_preorders, preorders, preorders, List.append_nil]

theorem mem_walkStack {stack : List Node} {node : Node} (member : node ∈ stack) :
    node ∈ walkStack stack := by
  rw [walkStack_eq_preorders]
  induction stack with
  | nil => simp at member
  | cons first rest ih =>
      rw [preorders, preorder_eq, List.mem_append, List.mem_cons]
      rcases List.mem_cons.mp member with same | later
      · exact Or.inl (Or.inl same)
      · exact Or.inr (ih later)

/-- The nodes that are met on the way through a tree are closed under taking children. -/
theorem mem_walkStack_of_parent {stack : List Node} {node child : Node}
    (met : node ∈ walkStack stack) (below : child ∈ node.children) : child ∈ walkStack stack := by
  fun_induction walkStack stack with
  | case1 => simp at met
  | case2 first stack ih =>
      rw [List.mem_cons] at met ⊢
      rcases met with rfl | later
      · exact Or.inr (mem_walkStack (List.mem_append_left _ below))
      · exact Or.inr (ih later)

theorem walk_eq (tree : Node) : tree.walk = tree :: tree.children.flatMap walk := by
  rw [walk_eq_preorder, preorder_eq, preorders_eq_flatMap, funext walk_eq_preorder]

theorem visit_eq (tree : Node) (predicate : Node → Bool) :
    tree.visit predicate = (if predicate tree then [tree] else []) ++
      tree.children.flatMap fun child => child.visit predicate := by
  rw [visit, walk_eq, List.filter_cons, List.filter_flatMap]
  split <;> rfl

/-! A visitor that does something with the nodes that it is run on. -/

section

variable {m : Type → Type} [Monad m] (predicate : Node → Bool) (visitor : Node → m Unit)

/-- Takes the nodes from a stack as a walk does, and runs the visitor on a node that has the property
before it goes on to what is below the node. -/
def visitStack : List Node → m Unit
  | [] => pure ()
  | node :: stack =>
    if predicate node then do
      visitor node
      visitStack (node.children ++ stack)
    else visitStack (node.children ++ stack)
termination_by stack => sizes stack
decreasing_by
  all_goals
    simp only [sizes, sizes_append, size_eq node]
    omega

theorem visitStack_eq (stack : List Node) :
    visitStack predicate visitor stack = forM ((walkStack stack).filter predicate) visitor := by
  fun_induction walkStack stack with
  | case1 => rw [visitStack, List.filter_nil, List.forM_nil]
  | case2 node stack ih =>
      rw [visitStack, List.filter_cons, ih]
      split
      · rw [List.forM_cons]
      · rfl

end

/-! The occurrences of nodes in a tree, told by their addresses. -/

/-- The node at an address, which says to which child to go, from the root on. -/
def at? : Node → List Nat → Option Node
  | node, [] => some node
  | node, index :: address => node.children[index]?.bind fun child => child.at? address

/-- The addresses that lead to a node of a tree, each once: from left to right, and none before the
address of a node above it. -/
structure Enumerates (tree : Node) (addresses : List (List Nat)) : Prop where
  complete : ∀ address, address ∈ addresses ↔ (tree.at? address).isSome
  once : addresses.Nodup
  leftToRight : addresses.Pairwise (· < ·)
  downward : addresses.Pairwise fun earlier later => ¬later <+: earlier

mutual

def addresses : Node → List (List Nat)
  | root children _ => [] :: addressesFrom 0 children
  | component _ _ children _ => [] :: addressesFrom 0 children
  | paragraph children _ => [] :: addressesFrom 0 children
  | text _ _ => [[]]
  | element _ children _ _ => [] :: addressesFrom 0 children

def addressesFrom (index : Nat) : List Node → List (List Nat)
  | [] => []
  | node :: nodes => node.addresses.map (index :: ·) ++ addressesFrom (index + 1) nodes

end

theorem addresses_eq (node : Node) : node.addresses = [] :: addressesFrom 0 node.children := by
  cases node <;> simp [addresses, children, addressesFrom]

theorem size_le_sizes {node : Node} {nodes : List Node} (member : node ∈ nodes) :
    node.size ≤ sizes nodes := by
  obtain ⟨front, back, rfl⟩ := List.append_of_mem member
  rw [sizes_append, sizes]
  omega

/-- What holds of a node if it holds of its children holds of every node. -/
theorem induction_of_children {motive : Node → Prop}
    (step : ∀ node, (∀ child ∈ node.children, motive child) → motive node) (tree : Node) :
    motive tree :=
  step tree fun child _ => induction_of_children step child
termination_by tree.size
decreasing_by
  rw [size_eq tree]
  exact Nat.lt_succ_of_le (size_le_sizes ‹_›)

theorem mem_addressesFrom {address : List Nat} {first : Nat} {nodes : List Node} :
    address ∈ addressesFrom first nodes ↔ ∃ index child below, nodes[index]? = some child ∧
      below ∈ child.addresses ∧ address = (first + index) :: below := by
  induction nodes generalizing first with
  | nil => simp [addressesFrom]
  | cons node nodes ih =>
      rw [addressesFrom, List.mem_append, List.mem_map, ih]
      constructor
      · rintro (⟨below, member, rfl⟩ | ⟨index, child, below, found, member, rfl⟩)
        · exact ⟨0, node, below, rfl, member, rfl⟩
        · exact ⟨index + 1, child, below, found, member, by rw [Nat.add_right_comm, Nat.add_assoc]⟩
      · rintro ⟨_ | index, child, below, found, member, rfl⟩
        · obtain rfl := Option.some.inj found
          exact .inl ⟨below, member, rfl⟩
        · exact .inr ⟨index, child, below, found, member, by rw [Nat.add_right_comm, Nat.add_assoc]⟩

theorem mem_addresses_iff {tree : Node} {address : List Nat} :
    address ∈ tree.addresses ↔ (tree.at? address).isSome := by
  -- along the address: each index of it leads from one tree to another
  induction address generalizing tree with
  | nil => simp [addresses_eq, at?]
  | cons index address ih =>
      rw [addresses_eq, List.mem_cons, mem_addressesFrom, at?]
      constructor
      · rintro (impossible | ⟨number, child, below, found, member, same⟩)
        · simp at impossible
        · obtain ⟨rfl, rfl⟩ := List.cons.inj same
          rw [Nat.zero_add, found]
          exact ih.mp member
      · intro leads
        cases found : tree.children[index]? with
        | none => simp [found] at leads
        | some child =>
            rw [found] at leads
            exact .inr ⟨index, child, address, found, ih.mpr leads, by rw [Nat.zero_add]⟩

/-- Nodes that stand side by side from an index on, looked up from outside by their indices. -/
theorem map_addressesFrom {lookup : List Nat → Option Node} {first : Nat} {nodes : List Node}
    (leads : ∀ index child, nodes[index]? = some child →
      ∀ below, lookup ((first + index) :: below) = child.at? below)
    (inOrder : ∀ node ∈ nodes, node.addresses.map node.at? = node.preorder.map some) :
    (addressesFrom first nodes).map lookup = (preorders nodes).map some := by
  induction nodes generalizing first with
  | nil => rfl
  | cons node nodes ih =>
      obtain ⟨here, behind⟩ := List.forall_mem_cons.mp inOrder
      have atNode : lookup ∘ (first :: ·) = node.at? := funext (leads 0 node rfl)
      have later : (addressesFrom (first + 1) nodes).map lookup = (preorders nodes).map some := by
        refine ih (fun index child found below => ?_) behind
        rw [Nat.add_right_comm, Nat.add_assoc]
        exact leads (index + 1) child found below
      rw [addressesFrom, List.map_append, List.map_map, atNode, here, later, preorders,
        List.map_append]

/-- The nodes at the addresses of a tree are those that a walk meets. -/
theorem map_addresses (tree : Node) : tree.addresses.map tree.at? = tree.preorder.map some := by
  induction tree using induction_of_children with
  | step node ih =>
      have leads : ∀ index child, node.children[index]? = some child →
          ∀ below, node.at? ((0 + index) :: below) = child.at? below := by
        intro index child found below
        rw [Nat.zero_add, at?, found, Option.bind_some]
      rw [addresses_eq, List.map_cons, map_addressesFrom leads ih, preorder_eq, List.map_cons, at?]

theorem addressesFrom_ordered {first : Nat} {nodes : List Node}
    (ordered : ∀ node ∈ nodes, node.addresses.Pairwise (· < ·)) :
    (addressesFrom first nodes).Pairwise (· < ·) := by
  induction nodes generalizing first with
  | nil => exact .nil
  | cons node nodes ih =>
      obtain ⟨here, behind⟩ := List.forall_mem_cons.mp ordered
      rw [addressesFrom, List.pairwise_append, List.pairwise_map]
      -- addresses below one node have its index in front, those below later nodes a greater one
      refine ⟨here.imp fun less => ?_, ih behind, ?_⟩
      · exact List.cons_lt_cons_iff.mpr (.inr ⟨rfl, less⟩)
      · intro earlier inNode later inNodes
        obtain ⟨below, -, rfl⟩ := List.mem_map.mp inNode
        obtain ⟨index, child, other, -, -, rfl⟩ := mem_addressesFrom.mp inNodes
        exact List.cons_lt_cons_iff.mpr (.inl (by omega))

theorem addresses_ordered (tree : Node) : tree.addresses.Pairwise (· < ·) := by
  induction tree using induction_of_children with
  | step node ih =>
      rw [addresses_eq]
      refine List.pairwise_cons.mpr ⟨fun address member => ?_, addressesFrom_ordered ih⟩
      obtain ⟨index, child, below, -, -, rfl⟩ := mem_addressesFrom.mp member
      exact List.nil_lt_cons _ _

theorem enumerates_addresses (tree : Node) : tree.Enumerates tree.addresses where
  complete _ := mem_addresses_iff
  once := (addresses_ordered tree).imp ne_of_lt
  leftToRight := addresses_ordered tree
  downward := (addresses_ordered tree).imp fun less above => above.le less

/-- A walk from a stack is recursion on the tree: it meets the root and then what the walks of the
children meet, from left to right, so each occurrence of a node once and none before a node above it.
A visit is of the nodes of the walk that have the property, in this order and also below such nodes,
and whatever a visitor does, a traversal runs it on these nodes one after the other. -/
theorem walk_visit_in_order (tree : Node) :
    tree.walk = tree.preorder ∧
    tree.walk = tree :: tree.children.flatMap walk ∧
    (tree.Enumerates tree.addresses ∧ tree.walk.map some = tree.addresses.map tree.at?) ∧
    ∀ predicate : Node → Bool,
      tree.visit predicate = tree.walk.filter predicate ∧
      tree.visit predicate = (if predicate tree then [tree] else []) ++
        tree.children.flatMap (fun child => child.visit predicate) ∧
      ∀ (m : Type → Type) [Monad m] (visitor : Node → m Unit),
        visitStack predicate visitor [tree] = forM (tree.visit predicate) visitor := by
  refine ⟨walk_eq_preorder tree, walk_eq tree, ⟨enumerates_addresses tree, ?_⟩, fun predicate =>
    ⟨rfl, visit_eq tree predicate, fun m _ visitor => visitStack_eq predicate visitor [tree]⟩⟩
  rw [walk_eq_preorder, map_addresses]

end MdxCheck.Node
