import MdxCheck.Proofs.Document.Builder
import MdxCheck.Proofs.Text.Lines
import MdxCheck.Proofs.Tree.Walk

/-!
Nodes in the order of their places, between two bounds. Such runs of nodes may be put together, and
an unfinished tree is one long run whatever is still open.
-/

namespace MdxCheck

namespace Position

def Before (first second : Position) : Prop :=
  first.line < second.line ∨ first.line = second.line ∧ first.column < second.column

def UpTo (first second : Position) : Prop :=
  first.line < second.line ∨ first.line = second.line ∧ first.column ≤ second.column

theorem UpTo.refl (place : Position) : place.UpTo place := by
  simp [UpTo]

theorem Before.upTo {first second : Position} (before : first.Before second) :
    first.UpTo second := by
  simp only [Before, UpTo] at *
  omega

theorem UpTo.trans {first second third : Position} (left : first.UpTo second)
    (right : second.UpTo third) : first.UpTo third := by
  simp only [UpTo] at *
  omega

theorem Before.trans_upTo {first second third : Position} (left : first.Before second)
    (right : second.UpTo third) : first.Before third := by
  simp only [Before, UpTo] at *
  omega

/-- The bound before everything on a line. -/
def lineStart (number : Nat) : Position :=
  ⟨number, 0⟩

theorem lineStart_upTo {first second : Nat} (before : first ≤ second) :
    (lineStart first).UpTo (lineStart second) := by
  simp only [UpTo, lineStart]
  omega

end Position

open Position (lineStart)

def sourceAt (lines : List Text) (place : Position) : Text :=
  ((lines[(place.line - 1).toNat]?).getD []).drop (place.column - 1).toNat

namespace Node

/-- What source a node starts with: a component with its own opening tag, a block of data with
anything, and any other node with a character that is no white space. -/
def StartsWith (source : Text) : Node → Prop
  | component name _ _ _ => ∃ rest, source = '<' :: (name ++ rest)
  | node => node.kind = "yaml".toList ∨ ∃ c rest, source = c :: rest ∧ Text.isBlank c = false

structure StandsAt (lines : List Text) (node : Node) (place : Position) : Prop where
  position : node.position = some place
  line : 1 ≤ place.line ∧ place.line ≤ lines.length
  column : 1 ≤ place.column
  source : node.StartsWith (sourceAt lines place)

/-- The place of one node does not come after that of the other, and comes before it if both are
components. -/
def Follows (first second : Node) : Prop :=
  ∃ here there, first.position = some here ∧ second.position = some there ∧ here.UpTo there ∧
    (first.name?.isSome = true → second.name?.isSome = true → here.Before there)

def alone : Node → Node
  | root _ position => root [] position
  | component name attributes _ position => component name attributes [] position
  | paragraph _ position => paragraph [] position
  | text value position => text value position
  | element kind _ value position => element kind [] value position

theorem name?_alone (node : Node) : node.alone.name? = node.name? := by
  cases node <;> rfl

theorem StandsAt.of_alone {lines : List Text} {node : Node} {place : Position}
    (stands : node.alone.StandsAt lines place) : node.StandsAt lines place := by
  cases node <;> exact ⟨stands.position, stands.line, stands.column, stands.source⟩

theorem Follows.of_alone {first second : Node} (follows : first.alone.Follows second.alone) :
    first.Follows second := by
  cases first <;> cases second <;> exact follows

def run (nodes : List Node) : List Node :=
  (preorders nodes).map alone

theorem run_append (front back : List Node) : run (front ++ back) = run front ++ run back := by
  simp [run, preorders_append]

end Node

/-- Nodes in the order of their places, which lie between two bounds. None of them is the block of
data of a document. -/
structure Trail (lines : List Text) (low high : Position) (nodes : List Node) : Prop where
  advances : low.UpTo high
  stands : ∀ node ∈ nodes, ∃ place, node.StandsAt lines place ∧ low.UpTo place ∧
    place.Before high
  ordered : nodes.Pairwise Node.Follows
  noData : ∀ node ∈ nodes, node.kind ≠ "yaml".toList

namespace Trail

variable {lines : List Text} {low middle high : Position}

theorem nil (advances : low.UpTo high) : Trail lines low high [] where
  advances := advances
  stands := by simp
  ordered := .nil
  noData := by simp

theorem single {node : Node} {place : Position} (stands : node.StandsAt lines place)
    (lower : low.UpTo place) (upper : place.Before high) (noData : node.kind ≠ "yaml".toList) :
    Trail lines low high [node] where
  advances := lower.trans upper.upTo
  stands other member := by
    obtain rfl := List.mem_singleton.mp member
    exact ⟨place, stands, lower, upper⟩
  ordered := List.pairwise_singleton _ _
  noData other member := by
    obtain rfl := List.mem_singleton.mp member
    exact noData

theorem pair {first second : Node} {place : Position} (stands : first.StandsAt lines place)
    (standsToo : second.StandsAt lines place) (lower : low.UpTo place)
    (upper : place.Before high) (noData : first.kind ≠ "yaml".toList)
    (noDataToo : second.kind ≠ "yaml".toList) (noComponent : second.name? = none) :
    Trail lines low high [first, second] where
  advances := lower.trans upper.upTo
  stands other member := by
    rcases List.mem_cons.mp member with rfl | last
    · exact ⟨place, stands, lower, upper⟩
    · obtain rfl := List.mem_singleton.mp last
      exact ⟨place, standsToo, lower, upper⟩
  ordered := by
    refine List.pairwise_pair.mpr ⟨place, place, stands.position, standsToo.position, .refl _, ?_⟩
    simp [noComponent]
  noData other member := by
    rcases List.mem_cons.mp member with rfl | last
    · exact noData
    · obtain rfl := List.mem_singleton.mp last
      exact noDataToo

theorem append {first second : List Node} (left : Trail lines low middle first)
    (right : Trail lines middle high second) : Trail lines low high (first ++ second) where
  advances := left.advances.trans right.advances
  stands node member := by
    rcases List.mem_append.mp member with before | after
    · obtain ⟨place, stands, lower, upper⟩ := left.stands node before
      exact ⟨place, stands, lower, upper.trans_upTo right.advances⟩
    · obtain ⟨place, stands, lower, upper⟩ := right.stands node after
      exact ⟨place, stands, left.advances.trans lower, upper⟩
  ordered := by
    apply List.pairwise_append.mpr
    refine ⟨left.ordered, right.ordered, ?_⟩
    intro node before other after
    obtain ⟨here, stands, -, upper⟩ := left.stands node before
    obtain ⟨there, standsToo, lower, -⟩ := right.stands other after
    have earlier := upper.trans_upTo lower
    exact ⟨here, there, stands.position, standsToo.position, earlier.upTo, fun _ _ => earlier⟩
  noData node member := by
    rcases List.mem_append.mp member with before | after
    · exact left.noData node before
    · exact right.noData node after

theorem sublist {first second : List Node} (trail : Trail lines low high second)
    (part : first.Sublist second) : Trail lines low high first where
  advances := trail.advances
  stands node member := trail.stands node (part.subset member)
  ordered := trail.ordered.sublist part
  noData node member := trail.noData node (part.subset member)

theorem widen {first second : Position} {nodes : List Node} (trail : Trail lines low high nodes)
    (lower : first.UpTo low) (upper : high.UpTo second) : Trail lines first second nodes := by
  have whole := (nil lower).append (trail.append (nil upper))
  simpa using whole

end Trail

namespace Document.Builder

def run (builder : Builder) : List Node :=
  Node.run builder.nodes ++ builder.opened.reverse.flatMap fun inner =>
    .component inner.name inner.attributes [] (some inner.position) :: Node.run inner.children

theorem run_add (builder : Builder) (nodes : List Node) :
    (builder.add nodes).run = builder.run ++ Node.run nodes := by
  cases builder with
  | mk before opened => cases opened <;> simp [add, run, Node.run_append]

theorem run_push (nodes : List Node) (inner : OpenComponent) (outer : List OpenComponent) :
    run ⟨nodes, inner :: outer⟩ = run ⟨nodes, outer⟩ ++
      .component inner.name inner.attributes [] (some inner.position) ::
        Node.run inner.children := by
  simp [run]

/-- A tag adds its component where it opens it; to close one changes nothing. -/
theorem run_takes {builder next : Builder} {tag : Tag} {place : Position}
    (takes : Takes tag place builder next) :
    next.run = builder.run ++
      if tag.closing then []
      else [.component tag.name (Tag.parseAttributes tag.attributes) [] (some place)] := by
  cases takes with
  | closing closing same =>
      rw [run_add, run_push, if_pos closing, List.append_nil]
      simp [Node.run, Node.preorders, Node.preorder, Node.alone]
  | selfClosing notClosing self =>
      rw [run_add, notClosing]
      simp [Node.run, Node.preorders, Node.preorder, Node.alone]
  | opening notClosing notSelf =>
      rw [run_push, notClosing]
      simp [Node.run, Node.preorders]

end Document.Builder

end MdxCheck
