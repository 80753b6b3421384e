import MdxCheck.Proofs.Document.Nesting

/-!
What the parts of a document leave in its tree. Read from left to right, with its components as
they open and close, the tree is what the parts hold, one part after the other: nothing is lost,
comes twice or moves into another component.
-/

namespace MdxCheck

/-- What is met on the way through the components of a tree: one of them opens or closes, or the
innermost open one has another node, as a whole. -/
inductive Passage where
  | event (event : TagEvent)
  | node (node : Node)

namespace Node

mutual

def passages : Node → List Passage
  | component name attributes children position =>
    .event (.opens name attributes position) :: (passagesOf children ++ [.event (.closes name)])
  | node => [.node node]

def passagesOf : List Node → List Passage
  | [] => []
  | node :: nodes => passages node ++ passagesOf nodes

end

theorem passagesOf_append (front back : List Node) :
    passagesOf (front ++ back) = passagesOf front ++ passagesOf back := by
  induction front with
  | nil => rfl
  | cons node rest ih => simp [passagesOf, ih]

theorem passages_of_noName {node : Node} (noName : node.name? = none) :
    node.passages = [.node node] := by
  cases node with
  | component => simp [name?] at noName
  | _ => rfl

theorem passagesOf_of_noName {nodes : List Node}
    (noName : ∀ node ∈ preorders nodes, node.name? = none) :
    passagesOf nodes = nodes.map .node := by
  induction nodes with
  | nil => rfl
  | cons node nodes ih =>
      rw [preorders, List.forall_mem_append] at noName
      have first : node.name? = none := noName.1 node (by cases node <;> simp [preorder])
      rw [passagesOf, passages_of_noName first, ih noName.2]
      rfl

end Node

namespace Document

def PlacedTag.passages (placed : PlacedTag) : List Passage :=
  placed.events.map .event

/-- The tags of a piece of source and the prose between them; `start` is where the tag before has
ended. -/
def taggedPassages (first : Nat) (source : Text) (start : Nat) : List Tag → List Passage
  | [] => (Builder.phrase first source start source.length).map .node
  | tag :: tags =>
    (Builder.phrase first source start tag.start).map .node ++
      PlacedTag.passages ⟨tag, Builder.sourcePosition first source tag.start⟩ ++
        taggedPassages first source tag.stop tags

/-- What a part leaves in a tree; a tag that does not end leaves nothing. -/
def Part.passages : Part → List Passage
  | .prose first lines => (proseNodes first lines).map .node
  | .statement line source => [.node (.element "mdxjsEsm" [] (some source) (some ⟨line, 1⟩))]
  | .tagged first source tags => taggedPassages first source 0 tags
  | .unterminated _ _ _ => []

theorem passagesOf_phrase (first : Nat) (source : Text) (start stop : Nat) :
    Node.passagesOf (Builder.phrase first source start stop) =
      (Builder.phrase first source start stop).map .node := by
  simp only [Builder.phrase]
  split <;> rfl

namespace Builder

def passages (builder : Builder) : List Passage :=
  Node.passagesOf builder.nodes ++ builder.opened.reverse.flatMap fun inner =>
    .event (.opens inner.name inner.attributes (some inner.position)) ::
      Node.passagesOf inner.children

theorem passages_add (builder : Builder) (nodes : List Node) :
    (builder.add nodes).passages = builder.passages ++ Node.passagesOf nodes := by
  cases builder with
  | mk before opened =>
      cases opened with
      | nil => simp [add, passages, Node.passagesOf_append]
      | cons inner outer => simp [add, passages, Node.passagesOf_append]

theorem passages_push (nodes : List Node) (inner : OpenComponent) (outer : List OpenComponent) :
    passages ⟨nodes, inner :: outer⟩ = passages ⟨nodes, outer⟩ ++
      .event (.opens inner.name inner.attributes (some inner.position)) ::
        Node.passagesOf inner.children := by
  simp [passages]

variable {builder next : Builder}

theorem passages_handle {tag : Tag} {place : Position}
    (handled : builder.handle tag place = .ok next) :
    next.passages = builder.passages ++ PlacedTag.passages ⟨tag, place⟩ := by
  cases takes_of_handle handled with
  | @closing nodes inner outer closing same =>
      -- the nodes inside stay where they are; only the end of the component is new
      rw [passages_add, passages_push]
      simp [PlacedTag.passages, PlacedTag.events, closing, Node.passagesOf, Node.passages, same]
  | selfClosing notClosing self =>
      rw [passages_add]
      simp [PlacedTag.passages, PlacedTag.events, PlacedTag.attributes, notClosing, self,
        Node.passagesOf, Node.passages]
  | opening notClosing notSelf =>
      rw [passages_push]
      simp [PlacedTag.passages, PlacedTag.events, PlacedTag.attributes, notClosing, notSelf,
        Node.passagesOf]

theorem passages_addTags {first : Nat} {source : Text} {tags : List Tag} :
    ∀ {start : Nat} {builder : Builder}, builder.addTags first source start tags = .ok next →
      next.passages = builder.passages ++ taggedPassages first source start tags := by
  induction tags with
  | nil =>
      intro start builder added
      obtain rfl := Except.ok.inj added
      rw [passages_add, passagesOf_phrase, taggedPassages]
  | cons tag tags ih =>
      intro start builder added
      obtain ⟨after, handled, others⟩ := exists_of_bind_ok added
      rw [ih others, passages_handle handled, passages_add, passagesOf_phrase, taggedPassages]
      simp only [List.append_assoc]

theorem passages_addPart {part : Part} (added : builder.addPart part = .ok next) :
    next.passages = builder.passages ++ part.passages := by
  cases part with
  | prose first lines =>
      obtain rfl := Except.ok.inj added
      rw [passages_add, Node.passagesOf_of_noName (noName_proseNodes first lines), Part.passages]
  | statement line source =>
      obtain rfl := Except.ok.inj added
      rw [passages_add]
      rfl
  | tagged first source tags => exact passages_addTags added
  | unterminated first source offset => simp [addPart] at added

theorem passages_addParts {parts : List Part} :
    ∀ {builder : Builder}, builder.addParts parts = .ok next →
      next.passages = builder.passages ++ parts.flatMap Part.passages := by
  induction parts with
  | nil =>
      intro builder added
      obtain rfl := Except.ok.inj added
      simp
  | cons part parts ih =>
      intro builder added
      obtain ⟨after, first, others⟩ := addParts_cons_ok added
      rw [ih others, passages_addPart first, List.flatMap_cons, List.append_assoc]

end Builder

end Document

end MdxCheck
