import MdxCheck.Proofs.Document.Trail
import MdxCheck.Proofs.Markdown.TokenLines

/-!
The nodes of prose in the order of the tokens that they stand for.
-/

namespace MdxCheck.Document

open Markdown (Token TypedToken)

def tokenNode? (place : Nat → Position) (shown : Text → Text) : TypedToken → Option Node
  | .opening type line => some (containerNode type [] (line.map place))
  | .closing => none
  | .single type content line => some (singleNode shown type content (line.map place))

/-- The nodes of an unfinished run of tokens, the open containers among them. -/
def openRun (place : Nat → Position) (opened : List OpenContainer) (nodes : List Node) :
    List Node :=
  (opened.reverse.flatMap fun container =>
    Node.run container.before ++ [containerNode container.type [] (container.line.map place)]) ++
      Node.run nodes

section

variable (type : Text) (nodes : List Node) (position : Option Position)

theorem run_containerNode : Node.run [containerNode type nodes position] =
    containerNode type [] position :: Node.run nodes := by
  unfold containerNode
  split <;> simp [Node.run, Node.preorders, Node.preorder, Node.alone]

theorem run_singleNode (shown : Text → Text) (content : Text) :
    Node.run [singleNode shown type content position] = [singleNode shown type content position] := by
  unfold singleNode
  split <;> simp [Node.run, Node.preorders, Node.preorder, Node.alone]

end

/-- The nodes that tokens stand for come in the order of the tokens; where containers stay open,
only the nodes before them are left. -/
theorem run_nodesFrom (place : Nat → Position) (shown : Text → Text) (tokens : List TypedToken) :
    ∀ opened nodes result, nodesFrom? place shown opened nodes tokens = some result →
      Node.run result <+: openRun place opened nodes ++
        tokens.filterMap (tokenNode? place shown) := by
  -- closing a container moves its nodes into one, which leaves the run as it is
  induction tokens with
  | nil =>
      intro opened nodes result found
      simp only [nodesFrom?, Option.some.injEq] at found
      subst found
      rw [List.filterMap_nil, List.append_nil]
      rcases List.eq_nil_or_concat opened with rfl | ⟨inner, outermost, rfl⟩
      · exact List.prefix_rfl
      · simp only [List.concat_eq_append, List.getLast?_append, List.getLast?_singleton,
          Option.some_or, Option.map_some, Option.getD_some, openRun, List.reverse_append,
          List.reverse_singleton, List.singleton_append, List.flatMap_cons, List.append_assoc]
        exact List.prefix_append _ _
  | cons token tokens ih =>
      intro opened nodes result found
      cases token with
      | opening type line =>
          simp only [nodesFrom?] at found
          have later := ih _ _ _ found
          simpa [openRun, tokenNode?, Node.run, Node.preorders] using later
      | closing =>
          cases opened with
          | nil => simp [nodesFrom?] at found
          | cons container opened =>
              simp only [nodesFrom?] at found
              have later := ih _ _ _ found
              simpa [openRun, tokenNode?, Node.run_append, run_containerNode, List.filterMap_cons]
                using later
      | single type content line =>
          simp only [nodesFrom?] at found
          have later := ih _ _ _ found
          rw [openRun, Node.run_append, run_singleNode] at later
          simpa [openRun, tokenNode?] using later

theorem kindOf_ne_data_of_container (kind : Markdown.ContainerKind) :
    kindOf kind.type ≠ "yaml".toList := by
  cases kind <;> decide

theorem kindOf_ne_data_of_leaf (kind : Markdown.LeafKind) : kindOf kind.type ≠ "yaml".toList := by
  cases kind <;> decide

theorem type_ne_paragraph {kind : Markdown.ContainerKind} (other : kind ≠ .paragraph) :
    kind.type ≠ "paragraph_open".toList := by
  cases kind with
  | paragraph => exact absurd rfl other
  | _ => decide

theorem type_ne_inline (kind : Markdown.LeafKind) : kind.type ≠ "inline".toList := by
  cases kind <;> decide

theorem singleNode_leaf (shown : Text → Text) (kind : Markdown.LeafKind) (content : Text)
    (position : Option Position) : singleNode shown kind.type content position =
      .element (kindOf kind.type) [] (some content) position :=
  if_neg (type_ne_inline kind)

theorem singleNode_inline (shown : Text → Text) (source : Text) (position : Option Position) :
    singleNode shown "inline" source position = .text (shown source) position :=
  if_pos rfl

/-- A container is a paragraph or an element without content of its own. -/
theorem containerNode_cases (type : Text) (nodes : List Node) (position : Option Position) :
    containerNode type nodes position = .paragraph nodes position ∨
      containerNode type nodes position = .element (kindOf type) nodes none position := by
  unfold containerNode
  split
  · exact .inl rfl
  · exact .inr rfl

theorem tokenNode?_spec {place : Nat → Position} {shown : Text → Text} {token : Token}
    {node : Node} (found : tokenNode? place shown token.typed = some node) :
    ∃ number, token.line? = some number ∧ node.position = some (place number) ∧
      node.name? = none ∧ node.kind ≠ "yaml".toList ∧
      ∀ c rest, Text.isBlank c = false → node.StartsWith (c :: rest) := by
  cases token with
  | opening kind line =>
      obtain rfl := Option.some.inj found
      refine ⟨line, rfl, ?_⟩
      rcases containerNode_cases kind.type [] (some (place line)) with same | same
      · rw [Option.map_some, same]
        exact ⟨rfl, rfl, (by decide : "paragraph".toList ≠ "yaml".toList),
          fun c rest solid => Or.inr ⟨c, rest, rfl, solid⟩⟩
      · rw [Option.map_some, same]
        exact ⟨rfl, rfl, kindOf_ne_data_of_container kind,
          fun c rest solid => Or.inr ⟨c, rest, rfl, solid⟩⟩
  | closing => simp [Token.typed, tokenNode?] at found
  | inline source line =>
      obtain rfl := Option.some.inj found
      rw [singleNode_inline]
      exact ⟨line, rfl, rfl, rfl, (by decide : "text".toList ≠ "yaml".toList),
        fun c rest solid => Or.inr ⟨c, rest, rfl, solid⟩⟩
  | leaf kind content line past =>
      obtain rfl := Option.some.inj found
      rw [singleNode_leaf]
      exact ⟨line, rfl, rfl, rfl, kindOf_ne_data_of_leaf kind,
        fun c rest solid => Or.inr ⟨c, rest, rfl, solid⟩⟩

end MdxCheck.Document
