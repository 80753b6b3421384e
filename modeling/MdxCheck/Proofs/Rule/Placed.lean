import MdxCheck.Proofs.Data.Result
import MdxCheck.Proofs.Document.Places
import MdxCheck.Rule.Registry

/-!
Rules need a place for each node that they report. They give their problems for every tree whose
nodes all have one, and so for the tree of every document.
-/

namespace MdxCheck

namespace Node

def Placed (tree : Node) : Prop :=
  ∀ node ∈ tree.preorder, ∃ place, node.position = some place

theorem position_alone (node : Node) : node.alone.position = node.position := by
  cases node <;> rfl

theorem Placed.of_visit {tree : Node} (placed : tree.Placed) {predicate : Node → Bool}
    {node : Node} (met : node ∈ tree.visit predicate) :
    (∃ place, node.position = some place) ∧
      ∀ child ∈ node.children, ∃ place, child.position = some place := by
  have walked : node ∈ tree.walk := (List.mem_filter.mp met).1
  constructor
  · exact placed node (walk_eq_preorder tree ▸ walked)
  · intro child below
    exact placed child (walk_eq_preorder tree ▸ mem_walkStack_of_parent walked below)

end Node

namespace Document

theorem placed_of_parse {text : Text} {tree : Node} (parsed : parse text = .ok tree) :
    tree.Placed := by
  obtain ⟨number, before, body, nodes, others, start, rfl, run, trail⟩ := parse_trail parsed
  have inRun : ∀ node ∈ Node.run nodes, ∃ place, node.position = some place := by
    rw [run, List.forall_mem_append]
    constructor
    · cases start with
      | whole => simp [Node.run, Node.preorders]
      | afterData => simp [Node.run, Node.preorders, Node.preorder, dataNode, Node.alone,
          Node.position]
    · intro node member
      obtain ⟨place, stands, -⟩ := trail.stands node member
      exact ⟨place, stands.position⟩
  intro node member
  rw [Node.preorder, List.mem_cons] at member
  rcases member with rfl | below
  · exact ⟨⟨1, 1⟩, rfl⟩
  · obtain ⟨place, position⟩ := inRun node.alone (List.mem_map_of_mem below)
    exact ⟨place, by rw [← position, Node.position_alone]⟩

end Document

namespace Rule

section

variable {ε α β : Type}

/-- What is collected item by item is there if it is there for each item. -/
theorem collected_ok (check : α → Except ε (List β)) (collect : List α → Except ε (List β))
    (none : collect [] = .ok [])
    (next : ∀ item items, collect (item :: items) = do
      let found ← check item
      let further ← collect items
      return found ++ further)
    {items : List α} (each : ∀ item ∈ items, ∃ found, check item = .ok found) :
    ∃ found, collect items = .ok found := by
  induction items with
  | nil => exact ⟨[], none⟩
  | cons item items ih =>
      obtain ⟨found, first⟩ := each item (by simp)
      obtain ⟨further, rest⟩ := ih fun other member => each other (by simp [member])
      exact ⟨found ++ further, by rw [next, first, rest]; rfl⟩

/-- What is collected item by item comes from one of the items. -/
theorem mem_collected (check : α → Except ε (List β)) (collect : List α → Except ε (List β))
    (none : collect [] = .ok [])
    (next : ∀ item items, collect (item :: items) = do
      let found ← check item
      let further ← collect items
      return found ++ further)
    {items : List α} {found : List β} (collected : collect items = .ok found) {part : β}
    (member : part ∈ found) : ∃ item ∈ items, ∃ parts, check item = .ok parts ∧ part ∈ parts := by
  induction items generalizing found with
  | nil =>
      rw [none] at collected
      obtain rfl := Except.ok.inj collected
      simp at member
  | cons item items ih =>
      rw [next] at collected
      obtain ⟨parts, first, collected⟩ := exists_of_bind_ok collected
      obtain ⟨further, rest, collected⟩ := exists_of_bind_ok collected
      obtain rfl := Except.ok.inj collected
      rcases List.mem_append.mp member with here | later
      · exact ⟨item, by simp, parts, first, here⟩
      · obtain ⟨other, listed, found⟩ := ih rest later
        exact ⟨other, by simp [listed], found⟩

end

theorem start_of_position {node : Node} {place : Position} (position : node.position = some place) :
    node.start = .ok place := by
  rw [Node.start, position]

theorem PairedContainer.checkChildren_ok (rule : PairedContainer) {nodes : List Node}
    (placed : ∀ node ∈ nodes, ∃ place, node.position = some place) :
    ∃ problems, rule.checkChildren nodes = .ok problems := by
  induction nodes with
  | nil => exact ⟨[], rfl⟩
  | cons node nodes ih =>
      obtain ⟨problems, rest⟩ := ih fun other member => placed other (by simp [member])
      obtain ⟨place, position⟩ := placed node (by simp)
      simp only [checkChildren, rest, start_of_position position]
      split
      · exact ⟨problems, rfl⟩
      · exact ⟨_, rfl⟩

theorem PairedContainer.check_ok (rule : PairedContainer) {tree : Node} (placed : tree.Placed) :
    ∃ problems, rule.check tree = .ok problems := by
  refine collected_ok (fun node => rule.checkChildren node.children) rule.checkContainers rfl
    (fun _ _ => rfl) (fun node met => ?_)
  exact rule.checkChildren_ok (placed.of_visit met).2

namespace BarPages

theorem strayChildren_ok (rule : BarPages) {nodes : List Node}
    (placed : ∀ node ∈ nodes, ∃ place, node.position = some place) :
    ∃ problems, rule.strayChildren nodes = .ok problems := by
  induction nodes with
  | nil => exact ⟨[], rfl⟩
  | cons node nodes ih =>
      obtain ⟨problems, rest⟩ := ih fun other member => placed other (by simp [member])
      obtain ⟨place, position⟩ := placed node (by simp)
      simp only [strayChildren, rest, start_of_position position]
      split
      · exact ⟨problems, rfl⟩
      · exact ⟨_, rfl⟩

theorem checkWrapper_ok (rule : BarPages) {node : Node} {place : Position}
    (position : node.position = some place)
    (placed : ∀ child ∈ node.children, ∃ place, child.position = some place) :
    ∃ problems, rule.checkWrapper node = .ok problems := by
  obtain ⟨stray, first⟩ := rule.strayChildren_ok placed
  have own : ∃ problems, anchored node (rule.wrapperProblems node.children) = .ok problems := by
    simp only [anchored, start_of_position position]
    split
    · exact ⟨[], rfl⟩
    · exact ⟨_, rfl⟩
  obtain ⟨problems, second⟩ := own
  exact ⟨stray ++ problems, by rw [checkWrapper, first, second]; rfl⟩

theorem check_ok (rule : BarPages) {tree : Node} (placed : tree.Placed) :
    ∃ problems, rule.check tree = .ok problems := by
  refine collected_ok rule.checkWrapper rule.checkWrappers rfl (fun _ _ => rfl)
    (fun node met => ?_)
  obtain ⟨⟨place, position⟩, below⟩ := placed.of_visit met
  exact rule.checkWrapper_ok position below

end BarPages

theorem Structural.check_ok (rule : Structural) {tree : Node} (placed : tree.Placed) :
    ∃ problems, rule.check tree = .ok problems := by
  cases rule with
  | pairedContainer rule => exact rule.check_ok placed
  | barPages rule => exact rule.check_ok placed

theorem checkAll_ok {tree : Node} (placed : tree.Placed) (rules : List Structural) :
    ∃ problems, checkAll tree rules = .ok problems :=
  collected_ok (fun rule => Structural.check rule tree) (checkAll tree) rfl (fun _ _ => rfl)
    fun rule _ => rule.check_ok placed

/-- A problem that is about a place in a document. -/
def IsPlaced (problem : Diagnostic) : Prop :=
  ∃ position reason, problem = .atPosition position reason

theorem PairedContainer.checkChildren_placed (rule : PairedContainer) {nodes : List Node}
    {problems : List Diagnostic} (checked : rule.checkChildren nodes = .ok problems) :
    ∀ problem ∈ problems, IsPlaced problem := by
  induction nodes generalizing problems with
  | nil =>
      obtain rfl := Except.ok.inj checked
      simp
  | cons node nodes ih =>
      simp only [checkChildren] at checked
      split at checked
      · exact ih checked
      · obtain ⟨position, -, checked⟩ := exists_of_bind_ok checked
        obtain ⟨further, rest, checked⟩ := exists_of_bind_ok checked
        obtain rfl := Except.ok.inj checked
        exact List.forall_mem_cons.mpr ⟨⟨position, _, rfl⟩, ih rest⟩

namespace BarPages

theorem strayChildren_placed (rule : BarPages) {nodes : List Node} {problems : List Diagnostic}
    (checked : rule.strayChildren nodes = .ok problems) :
    ∀ problem ∈ problems, IsPlaced problem := by
  induction nodes generalizing problems with
  | nil =>
      obtain rfl := Except.ok.inj checked
      simp
  | cons node nodes ih =>
      simp only [strayChildren] at checked
      split at checked
      · exact ih checked
      · obtain ⟨position, -, checked⟩ := exists_of_bind_ok checked
        obtain ⟨further, rest, checked⟩ := exists_of_bind_ok checked
        obtain rfl := Except.ok.inj checked
        exact List.forall_mem_cons.mpr ⟨⟨position, _, rfl⟩, ih rest⟩

theorem anchored_placed {node : Node} {reasons : List Text} {problems : List Diagnostic}
    (made : anchored node reasons = .ok problems) : ∀ problem ∈ problems, IsPlaced problem := by
  unfold anchored at made
  split at made
  · obtain rfl := Except.ok.inj made
    simp
  · obtain ⟨position, -, rfl⟩ := exists_of_map_ok made
    intro problem member
    obtain ⟨reason, -, rfl⟩ := List.mem_map.mp member
    exact ⟨position, reason, rfl⟩

theorem checkWrapper_placed (rule : BarPages) {node : Node} {problems : List Diagnostic}
    (checked : rule.checkWrapper node = .ok problems) :
    ∀ problem ∈ problems, IsPlaced problem := by
  obtain ⟨strayProblems, stray, checked⟩ := exists_of_bind_ok checked
  obtain ⟨ownProblems, own, checked⟩ := exists_of_bind_ok checked
  obtain rfl := Except.ok.inj checked
  exact List.forall_mem_append.mpr ⟨rule.strayChildren_placed stray, anchored_placed own⟩

end BarPages

theorem Structural.check_placed (rule : Structural) {tree : Node} {problems : List Diagnostic}
    (checked : rule.check tree = .ok problems) : ∀ problem ∈ problems, IsPlaced problem := by
  intro problem member
  cases rule with
  | pairedContainer rule =>
      obtain ⟨node, -, parts, made, here⟩ := mem_collected
        (fun node => rule.checkChildren node.children) rule.checkContainers rfl (fun _ _ => rfl)
        checked member
      exact rule.checkChildren_placed made problem here
  | barPages rule =>
      obtain ⟨node, -, parts, made, here⟩ := mem_collected rule.checkWrapper rule.checkWrappers rfl
        (fun _ _ => rfl) checked member
      exact rule.checkWrapper_placed made problem here

/-- Whatever the rules report is about a place in the document. -/
theorem checkAll_placed {tree : Node} {rules : List Structural} {problems : List Diagnostic}
    (checked : checkAll tree rules = .ok problems) : ∀ problem ∈ problems, IsPlaced problem := by
  intro problem member
  obtain ⟨rule, -, parts, made, here⟩ := mem_collected (fun rule => Structural.check rule tree)
    (checkAll tree) rfl (fun _ _ => rfl) checked member
  exact rule.check_placed made problem here

/-- No rule misses a place in the tree of a document. -/
theorem checkAll_of_parse {text : Text} {tree : Node} (parsed : Document.parse text = .ok tree)
    (rules : List Structural) : ∃ problems, checkAll tree rules = .ok problems :=
  checkAll_ok (Document.placed_of_parse parsed) rules

theorem checkAll_of_parse_stray :
    ∃ tree, Document.parse "<Steps>\n<Tabs id=\"a\"/></Steps>\n" = .ok tree ∧
      (tree.visit (Node.isComponent "Tabs")).map Node.position = [some ⟨2, 1⟩] ∧
      ∀ rules, ∃ problems, checkAll tree rules = .ok problems := by
  have parsed : Document.parse "<Steps>\n<Tabs id=\"a\"/></Steps>\n" =
      .ok (.root [.component "Steps" [] [.component "Tabs" [⟨"id", some "a"⟩] [] (some ⟨2, 1⟩)]
        (some ⟨1, 1⟩)] (some ⟨1, 1⟩)) := by
    rfl
  refine ⟨_, parsed, ?_, checkAll_of_parse parsed⟩
  rw [Node.visit, Node.walk_eq_preorder]
  rfl

end Rule

end MdxCheck
