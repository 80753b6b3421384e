import MdxCheck.Proofs.Document.Builder
import MdxCheck.Proofs.Markdown.TokenLines
import MdxCheck.Proofs.Tag.Spaced
import Mathlib.Data.List.Forall2

/-!
Trees with their places moved. A tree is built from the places of its parts without looking at
them, so every step of building commutes with moving places, and so does the whole.
-/

namespace MdxCheck

namespace Node

mutual

def relocate (move : Position → Position) : Node → Node
  | root children position => root (relocateAll move children) (position.map move)
  | component name attributes children position =>
    component name attributes (relocateAll move children) (position.map move)
  | paragraph children position => paragraph (relocateAll move children) (position.map move)
  | text value position => text value (position.map move)
  | element kind children value position =>
    element kind (relocateAll move children) value (position.map move)

def relocateAll (move : Position → Position) : List Node → List Node
  | [] => []
  | node :: nodes => relocate move node :: relocateAll move nodes

end

theorem relocateAll_append (move : Position → Position) (front back : List Node) :
    relocateAll move (front ++ back) = relocateAll move front ++ relocateAll move back := by
  induction front with
  | nil => rfl
  | cons node rest ih => simp [relocateAll, ih]

end Node

namespace Document

open Markdown (Token tokenLines)

/-- The error with each place in it moved, those that its reason quotes among them. -/
def ParseError.relocate (move : Position → Position) : ParseError → ParseError
  | strayClosing name position => strayClosing name (move position)
  | wrongClosing name position opened openedAt =>
    wrongClosing name (move position) opened (move openedAt)
  | unterminated position => unterminated (move position)
  | unclosed opened openedAt position => unclosed opened (move openedAt) (move position)

/-- An outcome with each place in it moved. -/
def relocated {α β : Type} (move : Position → Position) (moveResult : α → β) :
    Except ParseError α → Except ParseError β
  | .ok result => .ok (moveResult result)
  | .error error => .error (error.relocate move)

def OpenComponent.relocate (move : Position → Position) (inner : OpenComponent) : OpenComponent :=
  { inner with
    position := move inner.position
    children := Node.relocateAll move inner.children }

def OpenContainer.relocate (move : Position → Position) (container : OpenContainer) :
    OpenContainer :=
  { container with before := Node.relocateAll move container.before }

theorem relocate_containerNode (move : Position → Position) (type : Text) (nodes : List Node)
    (position : Option Position) :
    Node.relocate move (containerNode type nodes position) =
      containerNode type (Node.relocateAll move nodes) (position.map move) := by
  unfold containerNode
  split <;> rfl

theorem relocate_singleNode (move : Position → Position) (shown : Text → Text) (type content : Text)
    (position : Option Position) :
    Node.relocate move (singleNode shown type content position) =
      singleNode shown type content (position.map move) := by
  unfold singleNode
  split <;> rfl

/-- The first line of a token that has lines and does not close. -/
def typedLine? : Markdown.TypedToken → Option Nat
  | .opening _ line => line
  | .closing => none
  | .single _ _ line => line

theorem map_place {move : Position → Position} {place moved : Nat → Position} {line : Option Nat}
    (same : ∀ number ∈ line, moved number = move (place number)) :
    line.map moved = (line.map place).map move := by
  cases line with
  | none => rfl
  | some number => exact congrArg some (same number rfl)

/-- Moved places of the lines of tokens give moved nodes. -/
theorem nodesFrom?_relocate (move : Position → Position) {place moved : Nat → Position}
    (shown : Text → Text) (tokens : List Markdown.TypedToken) :
    ∀ opened nodes,
      (∀ token ∈ tokens, ∀ number ∈ typedLine? token, moved number = move (place number)) →
      (∀ container ∈ opened, ∀ number ∈ container.line, moved number = move (place number)) →
      nodesFrom? moved shown (opened.map (OpenContainer.relocate move))
          (Node.relocateAll move nodes) tokens =
        (nodesFrom? place shown opened nodes tokens).map (Node.relocateAll move) := by
  -- a container is placed when it closes, so the places of the open ones are kept along
  induction tokens with
  | nil =>
      intro opened nodes _ _
      simp only [nodesFrom?, List.getLast?_map, Option.map_map, Option.map_some]
      cases opened.getLast? <;> rfl
  | cons token tokens ih =>
      intro opened nodes lines containers
      obtain ⟨here, others⟩ := List.forall_mem_cons.mp lines
      cases token with
      | opening type line =>
          exact ih (⟨type, line, nodes⟩ :: opened) [] others
            (List.forall_mem_cons.mpr ⟨here, containers⟩)
      | closing =>
          cases opened with
          | nil => rfl
          | cons container opened =>
              obtain ⟨inside, around⟩ := List.forall_mem_cons.mp containers
              have later := ih opened (container.before ++
                [containerNode container.type nodes (container.line.map place)]) others around
              rw [Node.relocateAll_append, Node.relocateAll, relocate_containerNode, ← map_place inside]
                at later
              exact later
      | single type content line =>
          have later := ih opened
            (nodes ++ [singleNode shown type content (line.map place)]) others containers
          rw [Node.relocateAll_append, Node.relocateAll, relocate_singleNode,
            ← map_place (show ∀ number ∈ line, _ from here)] at later
          exact later

theorem typedLine?_typed (token : Markdown.Token) : typedLine? token.typed = token.line? := by
  cases token <;> rfl

/-- Prose that is the same to Markdown, with the lines of its tokens moved. -/
theorem proseNodes_relocate (move : Position → Position) {first other : Nat}
    {lines moved : List Text} (same : dedent moved = dedent lines)
    (blank : moved.all Text.isBlankText = lines.all Text.isBlankText)
    (places : ∀ number ∈ tokenLines (Markdown.Blocks.ofText (proseText lines)).tokens,
      linePosition other moved number = move (linePosition first lines number)) :
    proseNodes other moved = Node.relocateAll move (proseNodes first lines) := by
  have text : proseText moved = proseText lines := by rw [proseText, proseText, same]
  simp only [proseNodes, text, blank]
  split
  next => rfl
  next =>
    have moves : ∀ token ∈ (Markdown.Blocks.ofText (proseText lines)).tokens.map
        Markdown.Token.typed, ∀ number ∈ typedLine? token,
        linePosition other moved number = move (linePosition first lines number) := by
      intro token member number onLine
      obtain ⟨own, inTokens, rfl⟩ := List.mem_map.mp member
      rw [typedLine?_typed] at onLine
      exact places number (List.mem_filterMap.mpr ⟨own, inTokens, onLine⟩)
    have nodes := nodesFrom?_relocate move
      (Markdown.Inline.shown (Markdown.Blocks.ofText (proseText lines)).labels)
      _ [] [] moves (by simp)
    rw [List.map_nil, Node.relocateAll] at nodes
    rw [nodes]
    cases nodesFrom? (linePosition first lines) _ [] [] _ <;> rfl

namespace Builder

variable (move : Position → Position) (before : List Node)

/-- The builder with all its places moved, and some nodes in front. -/
def relocate (builder : Builder) : Builder :=
  ⟨before ++ Node.relocateAll move builder.nodes,
    builder.opened.map (OpenComponent.relocate move)⟩

theorem add_relocate (builder : Builder) (nodes : List Node) :
    (builder.relocate move before).add (Node.relocateAll move nodes) =
      (builder.add nodes).relocate move before := by
  cases builder with
  | mk built opened =>
      cases opened <;>
        simp [add, relocate, OpenComponent.relocate, Node.relocateAll_append]

theorem handle_relocate (builder : Builder) {tag other : Tag} (same : other.bare = tag.bare)
    (place : Position) :
    (builder.relocate move before).handle other (move place) =
      relocated move (relocate move before) (builder.handle tag place) := by
  simp only [Tag.bare, Tag.mk.injEq] at same
  obtain ⟨name, closing, self, attributes, -⟩ := same
  simp only [handle, closing, self, name, attributes]
  cases tag.closing with
  | true =>
      cases builder with
      | mk built opened =>
          cases opened with
          | nil => rfl
          | cons inner outer =>
              have added := add_relocate move before ⟨built, outer⟩
                [.component inner.name inner.attributes inner.children (some inner.position)]
              by_cases same : inner.name = tag.name
              · simp only [relocate, List.map_cons, OpenComponent.relocate, same, ↓reduceIte,
                  relocated, Except.ok.injEq]
                rw [same] at added
                exact added
              · simp only [relocate, List.map_cons, OpenComponent.relocate, same, ↓reduceIte,
                  relocated, ParseError.relocate]
  | false =>
      cases tag.selfClosing with
      | true =>
          exact congrArg Except.ok (add_relocate move before builder
            [.component tag.name (Tag.parseAttributes tag.attributes) [] (some place)])
      | false => rfl

end Builder

/-- Two pieces of source with the same tags and the same prose between them, each place of the
second one moved; the tags before have ended at `start` and at `begin`. -/
inductive SameTags (move : Position → Position) (first : Nat) (source : Text) (other : Nat)
    (moved : Text) : Nat → Nat → List Tag → List Tag → Prop
  | done {start begin} :
      Builder.phrase other moved begin moved.length =
        Node.relocateAll move (Builder.phrase first source start source.length) →
      SameTags move first source other moved start begin [] []
  | tag {start begin tag next tags others} : next.bare = tag.bare →
      Builder.phrase other moved begin next.start =
        Node.relocateAll move (Builder.phrase first source start tag.start) →
      Builder.sourcePosition other moved next.start =
        move (Builder.sourcePosition first source tag.start) →
      SameTags move first source other moved tag.stop next.stop tags others →
      SameTags move first source other moved start begin (tag :: tags) (next :: others)

/-- A part that adds the moved nodes of another one, whatever is built already. -/
def Part.Moves (move : Position → Position) (before : List Node) (part moved : Part) : Prop :=
  ∀ builder : Builder, (builder.relocate move before).addPart moved =
    relocated move (Builder.relocate move before) (builder.addPart part)

namespace Builder

variable {move : Position → Position} {before : List Node}

theorem addTags_relocate {first other start begin : Nat} {source moved : Text}
    {tags others : List Tag}
    (same : SameTags move first source other moved start begin tags others) :
    ∀ builder : Builder, (builder.relocate move before).addTags other moved begin others =
      relocated move (relocate move before) (builder.addTags first source start tags) := by
  induction same with
  | done phrase =>
      intro builder
      rw [addTags, addTags, phrase, add_relocate]
      rfl
  | @tag start begin tag next tags others same phrase place _ ih =>
      intro builder
      rw [addTags, addTags, phrase, add_relocate, place, handle_relocate move before _ same]
      cases (builder.add (Builder.phrase first source start tag.start)).handle tag
          (sourcePosition first source tag.start) with
      | error error => rfl
      | ok after => exact ih after

theorem addParts_relocate {parts moved : List Part}
    (same : List.Forall₂ (Part.Moves move before) parts moved) :
    ∀ builder : Builder, (builder.relocate move before).addParts moved =
      relocated move (relocate move before) (builder.addParts parts) := by
  induction same with
  | nil => intro builder; rfl
  | @cons part other parts others moves _ ih =>
      intro builder
      rw [addParts, addParts, moves builder]
      cases builder.addPart part with
      | error error => rfl
      | ok after => exact ih after

theorem finish_relocate (builder : Builder) {place moved : Position}
    (stop : builder.opened ≠ [] → moved = move place) :
    (builder.relocate move before).finish moved =
      relocated move (before ++ Node.relocateAll move ·) (builder.finish place) := by
  cases builder with
  | mk built opened =>
      cases opened with
      | nil => rfl
      | cons inner outer => simp [finish, relocate, relocated, ParseError.relocate,
          OpenComponent.relocate, stop (by simp)]

end Builder

end Document

end MdxCheck
