import MdxCheck.Proofs.Document.TopNodes
import Mathlib.Data.List.Forall2

/-!
Tokens and the nodes that they stand for, written out alike: what opens, what stands by itself, and
what closes. Tokens that close all that they open become one forest, and nothing of them is lost.
-/

namespace MdxCheck

/-- What is met on the way through a forest from left to right: a node opens around others and is
shown without them, a node stands by itself, or the innermost open one closes. -/
inductive NodeEvent where
  | opens (node : Node)
  | stands (node : Node)
  | closes

namespace Node

mutual

/-- A node with content of its own stands by itself, any other one is open around its children. -/
def events : Node → List NodeEvent
  | root children position => .opens (root [] position) :: (eventsOf children ++ [.closes])
  | component name attributes children position =>
    .opens (component name attributes [] position) :: (eventsOf children ++ [.closes])
  | paragraph children position =>
    .opens (paragraph [] position) :: (eventsOf children ++ [.closes])
  | text value position => [.stands (text value position)]
  | element kind children (some value) position =>
    [.stands (element kind children (some value) position)]
  | element kind children none position =>
    .opens (element kind [] none position) :: (eventsOf children ++ [.closes])

def eventsOf : List Node → List NodeEvent
  | [] => []
  | node :: nodes => events node ++ eventsOf nodes

end

theorem eventsOf_append (front back : List Node) :
    eventsOf (front ++ back) = eventsOf front ++ eventsOf back := by
  induction front with
  | nil => rfl
  | cons node rest ih => simp [eventsOf, ih]

/-- Whether a node stands by itself, having content of its own. -/
def standsAlone : Node → Bool
  | text _ _ => true
  | element _ _ value _ => value.isSome
  | _ => false

theorem events_eq (node : Node) :
    events node = if node.standsAlone then [.stands node]
      else .opens node.alone :: (eventsOf node.children ++ [.closes]) := by
  cases node with
  | element kind children value position => cases value <;> rfl
  | _ => rfl

theorem eq_of_alone {node other : Node} (same : node.alone = other.alone)
    (inside : node.children = other.children) : node = other := by
  cases node <;> cases other <;> simp_all [alone, children]

/-- The events of nodes tell where they end, and which nodes they are. -/
theorem eventsOf_cancel (nodes others : List Node) (rest more : List NodeEvent)
    (same : eventsOf nodes ++ .closes :: rest = eventsOf others ++ .closes :: more) :
    nodes = others ∧ rest = more := by
  match nodes, others with
  | [], [] => exact ⟨rfl, (List.cons.inj same).2⟩
  | [], other :: others =>
      simp only [eventsOf, events_eq] at same
      split at same <;> simp at same
  | node :: nodes, [] =>
      simp only [eventsOf, events_eq] at same
      split at same <;> simp at same
  | node :: nodes, other :: others =>
      rw [eventsOf, eventsOf, events_eq node, events_eq other] at same
      split at same <;> split at same
      · -- both stand by themselves
        simp only [List.cons_append, List.nil_append, List.cons.injEq,
          NodeEvent.stands.injEq] at same
        obtain ⟨rfl, tails⟩ := same
        obtain ⟨rfl, ends⟩ := eventsOf_cancel nodes others rest more tails
        exact ⟨rfl, ends⟩
      · simp at same
      · simp at same
      · -- both are open around others: first these are read, then what comes after them
        simp only [List.cons_append, List.append_assoc, List.nil_append, List.cons.injEq,
          NodeEvent.opens.injEq] at same
        obtain ⟨shape, tails⟩ := same
        obtain ⟨inside, behind⟩ := eventsOf_cancel node.children other.children _ _ tails
        obtain ⟨rfl, ends⟩ := eventsOf_cancel nodes others rest more behind
        exact ⟨by rw [eq_of_alone shape inside], ends⟩
termination_by sizes nodes
decreasing_by
  all_goals simp only [sizes, size_eq node]; omega

theorem eventsOf_injective {nodes others : List Node} (same : eventsOf nodes = eventsOf others) :
    nodes = others :=
  (eventsOf_cancel nodes others [] [] (by rw [same])).1

end Node

namespace Document

open Markdown (Token TypedToken Blocks)

/-- What is left of a type without the mark of those that open. -/
inductive HasBase : Text → Text → Prop
  | opening {base : Text} : HasBase (base ++ openMark) base
  | plain {type : Text} : ¬openMark <:+ type → HasBase type type

/-- The kind for a type: the one that is listed for it, or else what is left of the type. -/
inductive HasKind (type : Text) : Text → Prop
  | listed {base kind : Text} : HasBase type base → (base, kind) ∈ blockKinds → HasKind type kind
  | unlisted {base : Text} : HasBase type base → (∀ kind, (base, kind) ∉ blockKinds) →
      HasKind type base

/-- What a token becomes: a paragraph or an element without content of its own opens, the text that
inline content shows or an element with the content of the token stands by itself, each at the place
of the token if it has one. -/
inductive Becomes (place : Nat → Position) (shown : Text → Text) : TypedToken → NodeEvent → Prop
  | paragraph {line} : Becomes place shown (.opening "paragraph_open" line)
      (.opens (.paragraph [] (line.map place)))
  | container {type kind line} : type ≠ "paragraph_open".toList → HasKind type kind →
      Becomes place shown (.opening type line) (.opens (.element kind [] none (line.map place)))
  | closes : Becomes place shown .closing .closes
  | text {source line} : Becomes place shown (.single "inline" source line)
      (.stands (.text (shown source) (line.map place)))
  | leaf {type kind content line} : type ≠ "inline".toList → HasKind type kind →
      Becomes place shown (.single type content line)
        (.stands (.element kind [] (some content) (line.map place)))

theorem hasBase_iff {type base : Text} : HasBase type base ↔ baseOf type = base := by
  constructor
  · intro has
    cases has with
    | opening => simp [baseOf, List.isSuffixOf_iff_suffix]
    | plain other => rw [baseOf, if_neg (by simpa [List.isSuffixOf_iff_suffix] using other)]
  · rintro rfl
    by_cases marked : openMark <:+ type
    · obtain ⟨base, rfl⟩ := marked
      have same : baseOf (base ++ openMark) = base := by simp [baseOf, List.isSuffixOf_iff_suffix]
      rw [same]
      exact .opening
    · have same : baseOf type = type := by
        rw [baseOf, if_neg (by simpa [List.isSuffixOf_iff_suffix] using marked)]
      rw [same]
      exact .plain marked

theorem mem_blockKinds_iff {base kind : Text} :
    (base, kind) ∈ blockKinds ↔ blockKinds.lookup base = some kind := by
  have each : ∀ entry ∈ blockKinds, blockKinds.lookup entry.1 = some entry.2 := by decide
  refine ⟨each (base, kind), fun found => ?_⟩
  obtain ⟨front, back, split, -⟩ := List.lookup_eq_some_iff.mp found
  rw [split]
  simp

theorem hasKind_iff {type kind : Text} : HasKind type kind ↔ kindOf type = kind := by
  constructor
  · intro has
    cases has with
    | listed base member =>
        rw [kindOf, hasBase_iff.mp base, mem_blockKinds_iff.mp member]
        rfl
    | unlisted base noEntry =>
        have missing : blockKinds.lookup kind = none :=
          Option.eq_none_iff_forall_ne_some.mpr fun other found =>
            noEntry other (mem_blockKinds_iff.mpr found)
        rw [kindOf, hasBase_iff.mp base, missing]
        rfl
  · rintro rfl
    have base := hasBase_iff.mpr (Eq.refl (baseOf type))
    cases found : blockKinds.lookup (baseOf type) with
    | some kind =>
        rw [kindOf, found]
        exact .listed base (mem_blockKinds_iff.mpr found)
    | none =>
        rw [kindOf, found]
        refine .unlisted base fun kind member => ?_
        exact absurd (found.symm.trans (mem_blockKinds_iff.mp member)) (by simp)

/-- The one event that a token becomes. -/
def eventOf (place : Nat → Position) (shown : Text → Text) : TypedToken → NodeEvent
  | .opening type line => .opens (containerNode type [] (line.map place))
  | .closing => .closes
  | .single type content line => .stands (singleNode shown type content (line.map place))

theorem becomes_iff {place : Nat → Position} {shown : Text → Text} {token : TypedToken}
    {event : NodeEvent} : Becomes place shown token event ↔ eventOf place shown token = event := by
  constructor
  · intro becomes
    cases becomes with
    | paragraph => exact congrArg NodeEvent.opens (if_pos rfl)
    | container other kind =>
        obtain rfl := hasKind_iff.mp kind
        exact congrArg NodeEvent.opens (if_neg other)
    | closes => rfl
    | text => exact congrArg NodeEvent.stands (if_pos rfl)
    | leaf other kind =>
        obtain rfl := hasKind_iff.mp kind
        exact congrArg NodeEvent.stands (if_neg other)
  · rintro rfl
    cases token with
    | opening type line =>
        rw [eventOf, containerNode]
        split
        · next same =>
            rw [same]
            exact .paragraph
        · next other => exact .container other (hasKind_iff.mpr rfl)
    | closing => exact .closes
    | single type content line =>
        rw [eventOf, singleNode]
        split
        · next same =>
            rw [same]
            exact .text
        · next other => exact .leaf other (hasKind_iff.mpr rfl)

theorem forall₂_becomes_iff {place : Nat → Position} {shown : Text → Text}
    {tokens : List TypedToken} {events : List NodeEvent} :
    List.Forall₂ (Becomes place shown) tokens events ↔
      events = tokens.map (eventOf place shown) := by
  have step : Becomes place shown = fun token event => eventOf place shown token = event :=
    funext fun _ => funext fun _ => propext becomes_iff
  rw [step, ← List.forall₂_map_left_iff (R := Eq), List.forall₂_eq_eq_eq]
  exact eq_comm

/-- How many containers are open behind some tokens if so many are before them, unless one of the
tokens closes what is not open. -/
def openBehind? : Nat → List TypedToken → Option Nat
  | depth, [] => some depth
  | depth, .opening _ _ :: tokens => openBehind? (depth + 1) tokens
  | 0, .closing :: _ => none
  | depth + 1, .closing :: tokens => openBehind? depth tokens
  | depth, .single _ _ _ :: tokens => openBehind? depth tokens

/-- Each closing token closes the container that has been opened last, and none is left open. -/
def Balanced (tokens : List TypedToken) : Prop :=
  openBehind? 0 tokens = some 0

theorem openBehind?_append (front back : List TypedToken) (depth : Nat) :
    openBehind? depth (front ++ back) =
      (openBehind? depth front).bind fun depth => openBehind? depth back := by
  fun_induction openBehind? depth front with
  | case1 => rfl
  | case3 => rfl
  | _ => simp_all [openBehind?]

section

variable (place : Nat → Position) (shown : Text → Text)

/-- What has been read of the tokens when these containers are open and these are the nodes in the
innermost one. -/
def written : List OpenContainer → List Node → List NodeEvent
  | [], nodes => Node.eventsOf nodes
  | container :: opened, nodes =>
    written opened container.before ++
      eventOf place shown (.opening container.type container.line) :: Node.eventsOf nodes

theorem written_append (opened : List OpenContainer) (nodes : List Node) (node : Node) :
    written place shown opened (nodes ++ [node]) =
      written place shown opened nodes ++ Node.events node := by
  cases opened <;> simp [written, Node.eventsOf_append, Node.eventsOf]

theorem events_containerNode (type : Text) (nodes : List Node) (line : Option Nat) :
    Node.events (containerNode type nodes (line.map place)) =
      eventOf place shown (.opening type line) :: (Node.eventsOf nodes ++ [.closes]) := by
  simp only [eventOf, containerNode]
  split <;> rfl

theorem events_singleNode (type content : Text) (line : Option Nat) :
    Node.events (singleNode shown type content (line.map place)) =
      [eventOf place shown (.single type content line)] := by
  simp only [eventOf, singleNode]
  split <;> rfl

/-- One token is read: the state that it leads to has it written behind all that was before. -/
theorem written_step (token : TypedToken) {opened : List OpenContainer} (nodes : List Node)
    {depth : Nat} (reads : openBehind? opened.length [token] = some depth) :
    ∃ next inside, next.length = depth ∧
      written place shown next inside = written place shown opened nodes ++
        [eventOf place shown token] ∧
      ∀ tokens, nodesFrom? place shown opened nodes (token :: tokens) =
        nodesFrom? place shown next inside tokens := by
  cases token with
  | opening type line =>
      obtain rfl := Option.some.inj reads
      exact ⟨⟨type, line, nodes⟩ :: opened, [], rfl, by simp [written, Node.eventsOf],
        fun tokens => by rw [nodesFrom?]⟩
  | closing =>
      cases opened with
      | nil => simp [openBehind?] at reads
      | cons container opened =>
          -- the open container becomes a node, which is written as it was when it was open
          obtain rfl := Option.some.inj reads
          refine ⟨opened, container.before ++
            [containerNode container.type nodes (container.line.map place)], rfl, ?_,
            fun tokens => by rw [nodesFrom?]⟩
          rw [written_append, events_containerNode place shown, written, List.append_assoc,
            List.cons_append]
          rfl
  | single type content line =>
      obtain rfl := Option.some.inj reads
      refine ⟨opened, nodes ++ [singleNode shown type content (line.map place)], rfl, ?_,
        fun tokens => by rw [nodesFrom?]⟩
      rw [written_append, events_singleNode]

/-- All tokens are read, and written in their order. -/
theorem written_run (tokens : List TypedToken) : ∀ (opened : List OpenContainer) (nodes : List Node)
    (depth : Nat), openBehind? opened.length tokens = some depth →
      ∃ left inside, left.length = depth ∧
        written place shown left inside = written place shown opened nodes ++
          tokens.map (eventOf place shown) ∧
        nodesFrom? place shown opened nodes tokens = nodesFrom? place shown left inside [] := by
  induction tokens with
  | nil =>
      intro opened nodes depth reads
      obtain rfl := Option.some.inj reads
      exact ⟨opened, nodes, rfl, by simp, rfl⟩
  | cons token tokens ih =>
      intro opened nodes depth reads
      rw [← List.singleton_append, openBehind?_append, Option.bind_eq_some_iff] at reads
      obtain ⟨between, first, later⟩ := reads
      obtain ⟨next, inside, rfl, here, reading⟩ := written_step place shown token nodes first
      obtain ⟨left, nodes', long, rest, result⟩ := ih next inside depth later
      exact ⟨left, nodes', long, by simp [rest, here], by rw [reading, result]⟩

end

/-- What closes more than is open has no forest. -/
theorem nodesFrom?_eq_none (place : Nat → Position) (shown : Text → Text)
    {tokens : List TypedToken} :
    ∀ (opened : List OpenContainer) (nodes : List Node), openBehind? opened.length tokens = none →
      nodesFrom? place shown opened nodes tokens = none := by
  induction tokens with
  | nil => simp [openBehind?]
  | cons token tokens ih =>
      intro opened nodes fails
      rw [← List.singleton_append, openBehind?_append] at fails
      cases reads : openBehind? opened.length [token] with
      | some between =>
          obtain ⟨next, inside, rfl, -, reading⟩ := written_step place shown token nodes reads
          rw [reads, Option.bind_some] at fails
          rw [reading, ih next inside fails]
      | none =>
          cases token with
          | closing =>
              cases opened with
              | nil => rw [nodesFrom?]
              | cons container opened => simp [openBehind?] at reads
          | _ => simp [openBehind?] at reads

/-- Balanced tokens are read to their end, where no container is left open. -/
theorem exists_forest {tokens : List TypedToken} (balanced : Balanced tokens)
    (place : Nat → Position) (shown : Text → Text) :
    ∃ forest, nodesFrom? place shown [] [] tokens = some forest ∧
      Node.eventsOf forest = tokens.map (eventOf place shown) := by
  obtain ⟨left, forest, long, same, result⟩ := written_run place shown tokens [] [] 0 balanced
  obtain rfl := List.length_eq_zero_iff.mp long
  exact ⟨forest, result, by simpa [written, Node.eventsOf] using same⟩

/-- Balanced tokens become a forest that is written out as they are, and no other forest is: each
token has its turn, as what it stands for and at its place. -/
theorem forest_of_balanced {tokens : List TypedToken} (balanced : Balanced tokens)
    (place : Nat → Position) (shown : Text → Text) :
    ∃ forest, nodesFrom? place shown [] [] tokens = some forest ∧
      List.Forall₂ (Becomes place shown) tokens (Node.eventsOf forest) ∧
      ∀ other, List.Forall₂ (Becomes place shown) tokens (Node.eventsOf other) →
        other = forest := by
  obtain ⟨forest, made, whole⟩ := exists_forest balanced place shown
  refine ⟨forest, made, forall₂_becomes_iff.mpr whole, ?_⟩
  intro other same
  exact Node.eventsOf_injective ((forall₂_becomes_iff.mp same).trans whole.symm)

/-- An item of a list, then a cell of a table, and a token of a type that nothing is known of. -/
def crossedTokens : List TypedToken :=
  [.opening "bullet_list_open" (some 0), .opening "list_item_open" (some 0),
    .opening "paragraph_open" (some 0), .single "inline" "a" (some 0), .closing, .closing, .closing,
    .opening "th_open" none, .single "inline" "b" none, .closing, .single "math_block" "x" (some 1)]

theorem forest_of_balanced_crossed :
    Balanced crossedTokens ∧
      nodesFrom? (linePosition 1 [['-', ' ', 'a'], ['$', 'x', '$']]) id [] [] crossedTokens =
        some [.element "list" [.element "listItem" [.paragraph [.text ['a'] (some ⟨1, 1⟩)]
            (some ⟨1, 1⟩)] none (some ⟨1, 1⟩)] none (some ⟨1, 1⟩),
          .element "tableCell" [.text ['b'] none] none none,
          .element "math_block" [] (some ['x']) (some ⟨2, 1⟩)] := by
  have balanced : Balanced crossedTokens := by rfl
  obtain ⟨forest, made, -, only⟩ :=
    forest_of_balanced balanced (linePosition 1 [['-', ' ', 'a'], ['$', 'x', '$']]) id
  have same := only [.element "list" [.element "listItem" [.paragraph [.text ['a'] (some ⟨1, 1⟩)]
      (some ⟨1, 1⟩)] none (some ⟨1, 1⟩)] none (some ⟨1, 1⟩),
    .element "tableCell" [.text ['b'] none] none none,
    .element "math_block" [] (some ['x']) (some ⟨2, 1⟩)] (forall₂_becomes_iff.mpr rfl)
  exact ⟨balanced, by rw [made, same]⟩

theorem Makes.balanced {place : Nat → Position} {shown : Text → Text} {tokens : List Token}
    {made : List Node} (makes : Makes place shown tokens made) :
    Balanced (tokens.map Token.typed) := by
  cases reads : openBehind? 0 (tokens.map Token.typed) with
  | none =>
      have none := nodesFrom?_eq_none place shown [] [] reads
      simp [makes.nodesFrom?_eq] at none
  | some depth =>
      cases depth with
      | zero => exact reads
      | succ depth =>
          -- one more closing token would have something to close, but the tokens leave nothing open
          have further : openBehind? 0 (tokens.map Token.typed ++ [.closing]) = some depth := by
            rw [openBehind?_append, reads]
            rfl
          obtain ⟨left, inside, -, -, result⟩ :=
            written_run place shown (tokens.map Token.typed ++ [.closing]) [] [] depth further
          rw [makes, nodesFrom?, nodesFrom?] at result
          simp at result

/-- The tokens of a Markdown text are balanced. -/
theorem balanced_ofText (text : Text) : Balanced ((Blocks.ofText text).tokens.map Token.typed) := by
  obtain ⟨made, makes⟩ := @read_givesNodes (fun _ => ⟨0, 0⟩) id _ _ _ _
  exact makes.balanced

/-- Each token of a run of prose is found in its nodes, and nothing else. -/
theorem becomes_proseNodes (first : Nat) {lines : List Text}
    (shows : lines.all Text.isBlankText = false) :
    List.Forall₂ (Becomes (linePosition first lines) (Markdown.Inline.shown (runLabels lines)))
      ((Blocks.ofText (proseText lines)).tokens.map Token.typed)
      (Node.eventsOf (proseNodes first lines)) := by
  obtain ⟨forest, made, whole⟩ := exists_forest (balanced_ofText (proseText lines))
    (linePosition first lines) (Markdown.Inline.shown (runLabels lines))
  rw [forall₂_becomes_iff, proseNodes, shows, ← whole]
  exact congrArg (fun found => Node.eventsOf (found.getD [])) made

end Document

end MdxCheck
