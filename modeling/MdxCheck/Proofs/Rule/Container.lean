import Mathlib.Data.List.Forall2
import MdxCheck.Proofs.Rule.Placed

/-!
The rule of paired containers: which children it reports, in which order and where, and which trees it
cannot report on.
-/

namespace MdxCheck.Rule.PairedContainer

variable (rule : PairedContainer)

/-- A node that a container may not have as a child. -/
def Stray (child : Node) : Prop :=
  child.name? ≠ some rule.child

instance : DecidablePred rule.Stray := fun _ =>
  inferInstanceAs (Decidable (_ ≠ _))

/-- The stray children of all containers of a tree, in the order in which the containers are met. -/
def strays (tree : Node) : List Node :=
  (tree.preorder.filter (Node.isComponent rule.container)).flatMap fun container =>
    container.children.filter rule.Stray

/-- A problem that is about a stray child, at its place. -/
def Reports (child : Node) (problem : Diagnostic) : Prop :=
  ∃ place, child.position = some place ∧
    problem = .atPosition place ("<" ++ rule.container ++ "> component must only contain <" ++
      rule.child ++ "> components as immediate children but found " ++ child.describe) .validation

/-- Of some nodes the first without a place is the one that a failure names. -/
def FirstUnplaced (nodes : List Node) (failure : MissingPosition) : Prop :=
  ∃ before child after, nodes = before ++ child :: after ∧ (∀ node ∈ before, node.position ≠ none) ∧
    child.position = none ∧ failure = ⟨child.kind⟩

variable {rule}

theorem isComponent_iff {child : Node} : child.isComponent rule.child = true ↔ ¬rule.Stray child := by
  simp [Stray, Node.isComponent]

theorem Reports.rightUnique : Relator.RightUnique rule.Reports := by
  rintro child first second ⟨place, position, rfl⟩ ⟨other, otherPosition, rfl⟩
  rw [Option.some.inj (position.symm.trans otherPosition)]

theorem checkChildren_append (front back : List Node) :
    rule.checkChildren (front ++ back) = do
      let problems ← rule.checkChildren front
      let further ← rule.checkChildren back
      return problems ++ further := by
  induction front with
  | nil =>
      rw [List.nil_append, checkChildren]
      cases rule.checkChildren back <;> rfl
  | cons node front ih =>
      rw [List.cons_append, checkChildren, checkChildren, ih]
      split
      next => rfl
      next =>
        cases node.start with
        | error failure => rfl
        | ok place =>
            cases rule.checkChildren front with
            | error failure => rfl
            | ok problems => cases rule.checkChildren back <;> rfl

/-- Checking containers one after the other is checking all their children one after the other. -/
theorem checkContainers_eq (containers : List Node) :
    rule.checkContainers containers = rule.checkChildren (containers.flatMap Node.children) := by
  induction containers with
  | nil => rfl
  | cons container containers ih =>
      rw [checkContainers, List.flatMap_cons, checkChildren_append, ih]

theorem strays_eq (tree : Node) :
    rule.strays tree =
      ((tree.preorder.filter (Node.isComponent rule.container)).flatMap Node.children).filter
        rule.Stray := by
  rw [strays, List.filter_flatMap]

theorem checkChildren_spec (nodes : List Node) :
    (∃ problems, rule.checkChildren nodes = .ok problems ∧
      List.Forall₂ rule.Reports (nodes.filter rule.Stray) problems) ∨
    ∃ failure, rule.checkChildren nodes = .error failure ∧
      FirstUnplaced (nodes.filter rule.Stray) failure := by
  induction nodes with
  | nil => exact .inl ⟨[], rfl, .nil⟩
  | cons node nodes ih =>
      by_cases stray : rule.Stray node
      · have refused : ¬node.isComponent rule.child = true := fun same => isComponent_iff.mp same stray
        rw [List.filter_cons_of_pos (by simpa using stray), checkChildren, if_neg refused]
        cases position : node.position with
        | none =>
            refine .inr ⟨⟨node.kind⟩, ?_, [], node, _, rfl, by simp, position, rfl⟩
            rw [Node.start, position]
            rfl
        | some place =>
            rw [start_of_position position]
            rcases ih with ⟨problems, checked, reports⟩ | ⟨failure, failed, first⟩
            · refine .inl ⟨rule.problem place node :: problems, ?_, ?_⟩
              · rw [checked]
                rfl
              · exact .cons ⟨place, position, rfl⟩ reports
            · obtain ⟨before, child, after, split, placed, unplaced, rfl⟩ := first
              refine .inr ⟨_, ?_, node :: before, child, after, ?_, ?_, unplaced, rfl⟩
              · rw [failed]
                rfl
              · rw [split, List.cons_append]
              · exact List.forall_mem_cons.mpr ⟨by simp [position], placed⟩
      · have taken : node.isComponent rule.child = true := isComponent_iff.mpr stray
        rw [List.filter_cons_of_neg (by simpa using stray), checkChildren, if_pos taken]
        exact ih

theorem check_spec (tree : Node) :
    (∃ problems, rule.check tree = .ok problems ∧
      List.Forall₂ rule.Reports (rule.strays tree) problems) ∨
    ∃ failure, rule.check tree = .error failure ∧ FirstUnplaced (rule.strays tree) failure := by
  rw [check, Node.visit, Node.walk_eq_preorder, checkContainers_eq, strays_eq]
  exact checkChildren_spec _

theorem FirstUnplaced.exists_unplaced {nodes : List Node} {failure : MissingPosition}
    (first : FirstUnplaced nodes failure) : ∃ node ∈ nodes, node.position = none := by
  obtain ⟨before, child, after, rfl, -, unplaced, -⟩ := first
  exact ⟨child, by simp, unplaced⟩

theorem placed_of_reports {nodes : List Node} {problems : List Diagnostic}
    (reports : List.Forall₂ rule.Reports nodes problems) : ∀ node ∈ nodes, node.position ≠ none := by
  induction reports with
  | nil => simp
  | cons report _ ih =>
      obtain ⟨place, position, -⟩ := report
      exact List.forall_mem_cons.mpr ⟨by simp [position], ih⟩

theorem mem_strays_iff {tree child : Node} :
    child ∈ rule.strays tree ↔ ∃ container ∈ tree.preorder,
      container.name? = some rule.container ∧ child ∈ container.children ∧ rule.Stray child := by
  simp only [strays, List.mem_flatMap, List.mem_filter, Node.isComponent, beq_iff_eq,
    decide_eq_true_eq, and_assoc]

theorem exists_unplaced_iff {tree : Node} :
    (∃ child ∈ rule.strays tree, child.position = none) ↔
      ∃ container ∈ tree.preorder, container.name? = some rule.container ∧
        ∃ child ∈ container.children, child.name? ≠ some rule.child ∧ child.position = none := by
  simp only [mem_strays_iff, Stray]
  constructor
  · rintro ⟨child, ⟨container, met, name, below, stray⟩, position⟩
    exact ⟨container, met, name, child, below, stray, position⟩
  · rintro ⟨container, met, name, child, below, stray, position⟩
    exact ⟨child, ⟨container, met, name, below, stray⟩, position⟩

theorem strays_eq_nil_iff {tree : Node} :
    rule.strays tree = [] ↔
      ∀ container ∈ tree.preorder, container.name? = some rule.container →
        ∀ child ∈ container.children, child.name? = some rule.child := by
  rw [List.eq_nil_iff_forall_not_mem]
  simp only [mem_strays_iff, Stray]
  constructor
  · intro none container met name child below
    by_contra stray
    exact none child ⟨container, met, name, below, stray⟩
  · rintro all child ⟨container, met, name, below, stray⟩
    exact stray (all container met name child below)

theorem firstUnplaced_of_check {tree : Node} {failure : MissingPosition}
    (failed : rule.check tree = .error failure) : FirstUnplaced (rule.strays tree) failure := by
  rcases @check_spec rule tree with ⟨problems, checked, -⟩ | ⟨other, same, first⟩
  · simp [checked] at failed
  · obtain rfl := Except.error.inj (failed.symm.trans same)
    exact first

theorem check_eq_ok_iff {tree : Node} {problems : List Diagnostic} :
    rule.check tree = .ok problems ↔ List.Forall₂ rule.Reports (rule.strays tree) problems := by
  rcases @check_spec rule tree with ⟨others, checked, reports⟩ | ⟨failure, failed, first⟩
  · constructor
    · intro same
      obtain rfl := Except.ok.inj (checked.symm.trans same)
      exact reports
    · intro same
      rw [checked, Relator.RightUnique.forall₂ Reports.rightUnique reports same]
  · constructor
    · intro checked
      simp [failed] at checked
    · intro reports
      obtain ⟨child, member, unplaced⟩ := first.exists_unplaced
      exact absurd unplaced (placed_of_reports reports child member)

theorem exists_check_eq_error_iff {tree : Node} :
    (∃ failure, rule.check tree = .error failure) ↔
      ∃ child ∈ rule.strays tree, child.position = none := by
  constructor
  · rintro ⟨failure, failed⟩
    exact (firstUnplaced_of_check failed).exists_unplaced
  · rintro ⟨child, member, unplaced⟩
    cases result : rule.check tree with
    | error failure => exact ⟨failure, rfl⟩
    | ok problems =>
        exact absurd unplaced (placed_of_reports (check_eq_ok_iff.mp result) child member)

/-- The rule fails exactly if a stray child of some container, nested ones included, has no place, and
it names the first such child. Otherwise it reports each stray child once, at its place and in order,
and nothing else; so it reports nothing exactly if no container has a stray child. -/
theorem check_exact (rule : PairedContainer) (tree : Node) :
    ((∃ failure, rule.check tree = .error failure) ↔
      ∃ container ∈ tree.preorder, container.name? = some rule.container ∧
        ∃ child ∈ container.children, child.name? ≠ some rule.child ∧ child.position = none) ∧
    (∀ failure, rule.check tree = .error failure → FirstUnplaced (rule.strays tree) failure) ∧
    (∀ problems, rule.check tree = .ok problems ↔
      List.Forall₂ rule.Reports (rule.strays tree) problems) ∧
    (rule.check tree = .ok [] ↔
      ∀ container ∈ tree.preorder, container.name? = some rule.container →
        ∀ child ∈ container.children, child.name? = some rule.child) := by
  refine ⟨exists_check_eq_error_iff.trans exists_unplaced_iff, fun _ => firstUnplaced_of_check,
    fun _ => check_eq_ok_iff, ?_⟩
  rw [check_eq_ok_iff, List.forall₂_nil_right_iff, strays_eq_nil_iff]

end MdxCheck.Rule.PairedContainer
