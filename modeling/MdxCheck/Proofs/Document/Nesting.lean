import MdxCheck.Proofs.Document.Prose
import MdxCheck.Proofs.Document.Segment
import MdxCheck.Tree.Walk
import Mathlib.Data.List.Forall2

/-!
Which documents have a tree. The tags of a document are read from the left over a stack of open
ones; a document has a tree exactly when this reading goes through and leaves nothing open, and
then the components of the tree are the tags.
-/

namespace MdxCheck

/-- What is met on the way through a tree from left to right: a component opens, or it closes. -/
inductive TagEvent where
  | opens (name : Text) (attributes : List Attribute) (position : Option Position)
  | closes (name : Text)

namespace Node

mutual

def tagEvents : Node → List TagEvent
  | root children _ => tagEventsOf children
  | component name attributes children position =>
    .opens name attributes position :: (tagEventsOf children ++ [.closes name])
  | paragraph children _ => tagEventsOf children
  | text _ _ => []
  | element _ children _ _ => tagEventsOf children

def tagEventsOf : List Node → List TagEvent
  | [] => []
  | node :: nodes => tagEvents node ++ tagEventsOf nodes

end

theorem tagEventsOf_append (front back : List Node) :
    tagEventsOf (front ++ back) = tagEventsOf front ++ tagEventsOf back := by
  induction front with
  | nil => rfl
  | cons node rest ih => simp [tagEventsOf, ih]

mutual

theorem tagEvents_of_noName :
    ∀ node : Node, (∀ other ∈ node.preorder, other.name? = none) → node.tagEvents = []
  | root children _, noName => by
      rw [tagEvents]
      apply tagEventsOf_of_noName
      intro other member
      exact noName other (List.mem_cons_of_mem _ member)
  | component _ _ _ _, noName => by
      have named := noName _ (List.mem_cons_self ..)
      simp [name?] at named
  | paragraph children _, noName => by
      rw [tagEvents]
      apply tagEventsOf_of_noName
      intro other member
      exact noName other (List.mem_cons_of_mem _ member)
  | text _ _, _ => rfl
  | element _ children _ _, noName => by
      rw [tagEvents]
      apply tagEventsOf_of_noName
      intro other member
      exact noName other (List.mem_cons_of_mem _ member)

theorem tagEventsOf_of_noName :
    ∀ nodes : List Node, (∀ other ∈ preorders nodes, other.name? = none) → tagEventsOf nodes = []
  | [], _ => rfl
  | node :: nodes, noName => by
      rw [preorders, List.forall_mem_append] at noName
      rw [tagEventsOf, tagEvents_of_noName node noName.1, tagEventsOf_of_noName nodes noName.2]
      rfl

end

mutual

/-- Each component of a tree is met on the way through it. -/
theorem opens_of_mem_preorder {name : Text} {attributes : List Attribute} {children : List Node}
    {position : Option Position} :
    ∀ tree : Node, .component name attributes children position ∈ tree.preorder →
      .opens name attributes position ∈ tree.tagEvents
  | root nodes _, member => by
      rw [preorder, List.mem_cons] at member
      rw [tagEvents]
      exact opens_of_mem_preorders nodes (member.resolve_left (by simp))
  | component _ _ nodes _, member => by
      rw [preorder, List.mem_cons] at member
      rw [tagEvents, List.mem_cons]
      rcases member with same | inside
      · obtain ⟨rfl, rfl, rfl, rfl⟩ := component.inj same
        exact .inl rfl
      · exact .inr (List.mem_append_left _ (opens_of_mem_preorders nodes inside))
  | paragraph nodes _, member => by
      rw [preorder, List.mem_cons] at member
      rw [tagEvents]
      exact opens_of_mem_preorders nodes (member.resolve_left (by simp))
  | text _ _, member => by
      simp [preorder] at member
  | element _ nodes _ _, member => by
      rw [preorder, List.mem_cons] at member
      rw [tagEvents]
      exact opens_of_mem_preorders nodes (member.resolve_left (by simp))

theorem opens_of_mem_preorders {name : Text} {attributes : List Attribute} {children : List Node}
    {position : Option Position} :
    ∀ nodes : List Node, .component name attributes children position ∈ preorders nodes →
      .opens name attributes position ∈ tagEventsOf nodes
  | [], member => by
      simp [preorders] at member
  | node :: nodes, member => by
      rw [preorders, List.mem_append] at member
      rw [tagEventsOf, List.mem_append]
      rcases member with inside | later
      · exact .inl (opens_of_mem_preorder node inside)
      · exact .inr (opens_of_mem_preorders nodes later)

end

end Node

namespace Document

namespace PlacedTag

def attributes (placed : PlacedTag) : List Attribute :=
  Tag.parseAttributes placed.tag.attributes

def leaf (placed : PlacedTag) : Node :=
  .component placed.tag.name placed.attributes [] (some placed.position)

def events (placed : PlacedTag) : List TagEvent :=
  if placed.tag.closing then [.closes placed.tag.name]
  else
    .opens placed.tag.name placed.attributes (some placed.position) ::
      if placed.tag.selfClosing then [.closes placed.tag.name] else []

end PlacedTag

/-- Reading tags from the left while some are open, the innermost first: a tag that closes itself
changes nothing, a closing tag carries the name of the innermost open one. -/
inductive Nests : List PlacedTag → List PlacedTag → List PlacedTag → Prop
  | done (opened) : Nests opened [] opened
  | opening {opened placed tags final} : placed.tag.closing = false →
      placed.tag.selfClosing = false → Nests (placed :: opened) tags final →
      Nests opened (placed :: tags) final
  | selfClosing {opened placed tags final} : placed.tag.closing = false →
      placed.tag.selfClosing = true → Nests opened tags final →
      Nests opened (placed :: tags) final
  | closing {inner outer placed tags final} : placed.tag.closing = true →
      inner.tag.name = placed.tag.name → Nests outer tags final →
      Nests (inner :: outer) (placed :: tags) final

def WellNested (tags : List PlacedTag) : Prop :=
  Nests [] tags []

inductive Misplaced : List PlacedTag → PlacedTag → ParseError → Prop
  | stray {placed} : placed.tag.closing = true →
      Misplaced [] placed (.strayClosing placed.tag.name placed.position)
  | wrong {inner outer placed} : placed.tag.closing = true → inner.tag.name ≠ placed.tag.name →
      Misplaced (inner :: outer) placed
        (.wrongClosing placed.tag.name placed.position inner.tag.name inner.position)

/-- The first fault of a document with these tags: a closing tag that does not fit after tags that
do, else the tag without end, else the innermost component that is open at the place `stop`. -/
inductive FirstFault (tags : List PlacedTag) (openTag : Option Position) (stop : Position) :
    ParseError → Prop
  | misplaced {before placed after opened error} :
      tags = before ++ placed :: after → Nests [] before opened →
      Misplaced opened placed error → FirstFault tags openTag stop error
  | unterminated {opened position} : Nests [] tags opened → openTag = some position →
      FirstFault tags openTag stop (.unterminated position)
  | unclosed {inner outer} : Nests [] tags (inner :: outer) → openTag = none →
      FirstFault tags openTag stop (.unclosed inner.tag.name inner.position stop)

theorem Nests.append {opened middle final first second : List PlacedTag}
    (left : Nests opened first middle) (right : Nests middle second final) :
    Nests opened (first ++ second) final := by
  induction left with
  | done => exact right
  | opening notClosing notSelf _ ih => exact .opening notClosing notSelf (ih right)
  | selfClosing notClosing self _ ih => exact .selfClosing notClosing self (ih right)
  | closing closing same _ ih => exact .closing closing same (ih right)

/-- What tags leave open is determined by them. -/
theorem Nests.rest {opened middle final first second : List PlacedTag}
    (left : Nests opened first middle) (whole : Nests opened (first ++ second) final) :
    Nests middle second final := by
  induction left with
  | done => exact whole
  | opening notClosing notSelf _ ih =>
      cases whole with
      | opening _ _ rest => exact ih rest
      | selfClosing _ self _ => simp [notSelf] at self
      | closing closing _ _ => simp [notClosing] at closing
  | selfClosing notClosing self _ ih =>
      cases whole with
      | opening _ notSelf _ => simp [self] at notSelf
      | selfClosing _ _ rest => exact ih rest
      | closing closing _ _ => simp [notClosing] at closing
  | closing closing _ _ ih =>
      cases whole with
      | opening notClosing _ _ => simp [closing] at notClosing
      | selfClosing notClosing _ _ => simp [closing] at notClosing
      | closing _ _ rest => exact ih rest

theorem Nests.final_eq {opened final other tags : List PlacedTag}
    (left : Nests opened tags final) (right : Nests opened tags other) : final = other := by
  have whole : Nests opened (tags ++ []) other := by simpa using right
  cases left.rest whole with
  | done => rfl

theorem Misplaced.not_nests {opened final tags : List PlacedTag} {placed : PlacedTag}
    {error : ParseError} (misplaced : Misplaced opened placed error) :
    ¬Nests opened (placed :: tags) final := by
  intro nests
  cases misplaced with
  | stray closing => cases nests <;> simp_all
  | wrong closing different => cases nests <;> simp_all

namespace Builder

def tagEvents (builder : Builder) : List TagEvent :=
  Node.tagEventsOf builder.nodes ++ builder.opened.reverse.flatMap fun inner =>
    .opens inner.name inner.attributes (some inner.position) :: Node.tagEventsOf inner.children

/-- The nodes of an unfinished tree, open components apart. -/
def placedNodes (builder : Builder) : List Node :=
  Node.preorders builder.nodes ++ builder.opened.reverse.flatMap fun inner =>
    Node.preorders inner.children

theorem tagEvents_add (builder : Builder) (nodes : List Node) :
    (builder.add nodes).tagEvents = builder.tagEvents ++ Node.tagEventsOf nodes := by
  cases builder with
  | mk before opened =>
      cases opened with
      | nil => simp [add, tagEvents, Node.tagEventsOf_append]
      | cons inner outer => simp [add, tagEvents, Node.tagEventsOf_append]

theorem placedNodes_add (builder : Builder) (nodes : List Node) :
    (builder.add nodes).placedNodes = builder.placedNodes ++ Node.preorders nodes := by
  cases builder with
  | mk before opened =>
      cases opened with
      | nil => simp [add, placedNodes, Node.preorders_append]
      | cons inner outer => simp [add, placedNodes, Node.preorders_append]

theorem tagEvents_push (nodes : List Node) (inner : OpenComponent) (outer : List OpenComponent) :
    tagEvents ⟨nodes, inner :: outer⟩ = tagEvents ⟨nodes, outer⟩ ++
      .opens inner.name inner.attributes (some inner.position) ::
        Node.tagEventsOf inner.children := by
  simp [tagEvents]

theorem placedNodes_push (nodes : List Node) (inner : OpenComponent)
    (outer : List OpenComponent) :
    placedNodes ⟨nodes, inner :: outer⟩ =
      placedNodes ⟨nodes, outer⟩ ++ Node.preorders inner.children := by
  simp [placedNodes]

end Builder

structure OpenComponent.IsOf (inner : OpenComponent) (placed : PlacedTag) : Prop where
  name : inner.name = placed.tag.name
  attributes : inner.attributes = placed.attributes
  position : inner.position = placed.position

/-- What a builder holds after some tags, of which the tags of `opened` are still open. -/
structure Builder.Holds (builder : Builder) (tags opened : List PlacedTag) : Prop where
  nests : Nests [] tags opened
  frames : List.Forall₂ OpenComponent.IsOf builder.opened opened
  events : builder.tagEvents = tags.flatMap PlacedTag.events
  leaves : ∀ placed ∈ tags, placed.tag.closing = false → placed.tag.selfClosing = true →
    placed.leaf ∈ builder.placedNodes

namespace Builder

theorem holds_empty : Builder.empty.Holds [] [] where
  nests := .done []
  frames := .nil
  events := rfl
  leaves := by simp

theorem opened_add (builder : Builder) (nodes : List Node) {opened : List PlacedTag}
    (frames : List.Forall₂ OpenComponent.IsOf builder.opened opened) :
    List.Forall₂ OpenComponent.IsOf (builder.add nodes).opened opened := by
  cases builder with
  | mk before stack =>
      cases frames with
      | nil => exact .nil
      | cons first rest => exact .cons ⟨first.name, first.attributes, first.position⟩ rest

theorem Holds.add {builder : Builder} {tags opened : List PlacedTag}
    (holds : builder.Holds tags opened) {nodes : List Node}
    (plain : Node.tagEventsOf nodes = []) : (builder.add nodes).Holds tags opened where
  nests := holds.nests
  frames := opened_add builder nodes holds.frames
  events := by rw [tagEvents_add, plain, List.append_nil, holds.events]
  leaves placed member notClosing self := by
    rw [placedNodes_add]
    exact List.mem_append_left _ (holds.leaves placed member notClosing self)

theorem Holds.closing {nodes : List Node} {inner : OpenComponent} {outer : List OpenComponent}
    {tags opened : List PlacedTag} {placed : PlacedTag}
    (holds : Holds ⟨nodes, inner :: outer⟩ tags opened) (closing : placed.tag.closing = true)
    (same : inner.name = placed.tag.name) :
    ∃ final, (Builder.add ⟨nodes, outer⟩ [.component inner.name inner.attributes inner.children
      (some inner.position)]).Holds (tags ++ [placed]) final := by
  obtain ⟨nests, frames, events, leaves⟩ := holds
  cases frames with
  | @cons _ openTag _ opened isOf frames =>
      have closes : Nests (openTag :: opened) [placed] opened :=
        .closing closing (isOf.name ▸ same) (.done opened)
      refine ⟨opened, nests.append closes, opened_add _ _ frames, ?_, ?_⟩
      · rw [tagEvents_push] at events
        rw [tagEvents_add, List.flatMap_append, ← events]
        simp [PlacedTag.events, closing, Node.tagEventsOf, Node.tagEvents, same]
      · rw [List.forall_mem_append]
        constructor
        · intro other member notClosing self
          have held := leaves other member notClosing self
          rw [placedNodes_push, List.mem_append] at held
          rw [placedNodes_add, List.mem_append]
          rcases held with outside | inside
          · exact Or.inl outside
          · exact Or.inr (by simp [Node.preorders, Node.preorder, inside])
        · simp [closing]

theorem Holds.selfClosing {builder : Builder} {tags opened : List PlacedTag} {placed : PlacedTag}
    (holds : builder.Holds tags opened) (notClosing : placed.tag.closing = false)
    (self : placed.tag.selfClosing = true) :
    (builder.add [placed.leaf]).Holds (tags ++ [placed]) opened := by
  obtain ⟨nests, frames, events, leaves⟩ := holds
  refine ⟨nests.append (.selfClosing notClosing self (.done opened)), opened_add _ _ frames,
    ?_, ?_⟩
  · rw [tagEvents_add, List.flatMap_append, events]
    simp [PlacedTag.events, PlacedTag.leaf, notClosing, self, Node.tagEventsOf, Node.tagEvents]
  · rw [List.forall_mem_append, placedNodes_add]
    constructor
    · intro other member otherNotClosing otherSelf
      exact List.mem_append_left _ (leaves other member otherNotClosing otherSelf)
    · simp [PlacedTag.leaf, Node.preorders, Node.preorder]

theorem Holds.opening {nodes : List Node} {stack : List OpenComponent}
    {tags opened : List PlacedTag} {placed : PlacedTag} (holds : Holds ⟨nodes, stack⟩ tags opened)
    (notClosing : placed.tag.closing = false) (notSelf : placed.tag.selfClosing = false) :
    Holds ⟨nodes, ⟨placed.tag.name, placed.attributes, placed.position, []⟩ :: stack⟩
      (tags ++ [placed]) (placed :: opened) := by
  obtain ⟨nests, frames, events, leaves⟩ := holds
  refine ⟨nests.append (.opening notClosing notSelf (.done _)), .cons ⟨rfl, rfl, rfl⟩ frames,
    ?_, ?_⟩
  · rw [tagEvents_push, List.flatMap_append, events]
    simp [PlacedTag.events, notClosing, notSelf, Node.tagEventsOf]
  · rw [List.forall_mem_append, placedNodes_push]
    constructor
    · intro other member otherNotClosing otherSelf
      exact List.mem_append_left _ (leaves other member otherNotClosing otherSelf)
    · simp [notSelf]

theorem Holds.takes {builder next : Builder} {tags opened : List PlacedTag}
    (holds : builder.Holds tags opened) (placed : PlacedTag)
    (takes : Takes placed.tag placed.position builder next) :
    ∃ final, next.Holds (tags ++ [placed]) final := by
  cases takes with
  | closing closing same => exact holds.closing closing same
  | selfClosing notClosing self => exact ⟨opened, holds.selfClosing notClosing self⟩
  | opening notClosing notSelf => exact ⟨placed :: opened, holds.opening notClosing notSelf⟩

theorem Holds.refuses {builder : Builder} {tags opened : List PlacedTag}
    (holds : builder.Holds tags opened) (placed : PlacedTag) {error : ParseError}
    (refuses : Refuses placed.tag placed.position builder error) :
    Misplaced opened placed error := by
  have frames := holds.frames
  cases refuses with
  | stray closing =>
      cases frames with
      | nil => exact .stray closing
  | wrong closing different =>
      cases frames with
      | cons isOf _ =>
          rw [isOf.name] at different ⊢
          rw [isOf.position]
          exact .wrong closing different

/-- What reading `tags` after those of `done` comes to: a builder that holds them all, or the error
of the first of them that is misplaced. -/
def Reads (done tags : List PlacedTag) : Except ParseError Builder → Prop
  | .ok next => ∃ final, next.Holds (done ++ tags) final
  | .error error => ∃ before placed after opened, tags = before ++ placed :: after ∧
      Nests [] (done ++ before) opened ∧ Misplaced opened placed error

theorem Holds.handle {builder : Builder} {done opened : List PlacedTag}
    (holds : builder.Holds done opened) (placed : PlacedTag) :
    Reads done [placed] (builder.handle placed.tag placed.position) := by
  cases handled : builder.handle placed.tag placed.position with
  | ok next => exact holds.takes placed (takes_of_handle handled)
  | error error =>
      exact ⟨[], placed, [], opened, rfl, by simpa using holds.nests,
        holds.refuses placed (refuses_of_handle handled)⟩

theorem Reads.bind {done first second : List PlacedTag} {result : Except ParseError Builder}
    {next : Builder → Except ParseError Builder} (reads : Reads done first result)
    (goesOn : ∀ builder opened, builder.Holds (done ++ first) opened →
      Reads (done ++ first) second (next builder)) :
    Reads done (first ++ second) (result >>= next) := by
  cases result with
  | error error =>
      obtain ⟨before, placed, after, opened, rfl, nests, misplaced⟩ := reads
      exact ⟨before, placed, after ++ second, opened, by simp, nests, misplaced⟩
  | ok builder =>
      obtain ⟨opened, holds⟩ := reads
      have rest := goesOn builder opened holds
      change Reads done (first ++ second) (next builder)
      cases outcome : next builder with
      | ok final =>
          rw [outcome] at rest
          simpa [Reads] using rest
      | error error =>
          rw [outcome] at rest
          obtain ⟨before, placed, after, opened, rfl, nests, misplaced⟩ := rest
          exact ⟨first ++ before, placed, after, opened, by simp, by simpa using nests, misplaced⟩

theorem tagEvents_phrase (first : Nat) (source : Text) (start stop : Nat) :
    Node.tagEventsOf (phrase first source start stop) = [] := by
  simp only [phrase]
  split <;> simp [Node.tagEventsOf, Node.tagEvents]

end Builder

def placeTags (first : Nat) (source : Text) (tags : List Tag) : List PlacedTag :=
  tags.map fun tag => ⟨tag, Builder.sourcePosition first source tag.start⟩

theorem noName_proseNodes (first : Nat) (lines : List Text) :
    ∀ node ∈ Node.preorders (proseNodes first lines), node.name? = none := by
  simp only [proseNodes]
  split
  · simp [Node.preorders]
  · cases found : nodesFrom? (linePosition first lines) _ [] [] _ with
    | none => simp [Node.preorders]
    | some nodes =>
        intro node member
        have part := run_nodesFrom _ _ _ _ _ _ found
        have inRun := part.subset (List.mem_map_of_mem member)
        simp only [openRun, List.reverse_nil, List.flatMap_nil, List.nil_append, Node.run,
          Node.preorders, List.map_nil, List.filterMap_map, List.mem_filterMap] at inRun
        obtain ⟨token, -, shown⟩ := inRun
        obtain ⟨-, -, -, noName, -⟩ := tokenNode?_spec shown
        rwa [Node.name?_alone] at noName

theorem tagEvents_proseNodes (first : Nat) (lines : List Text) :
    Node.tagEventsOf (proseNodes first lines) = [] :=
  Node.tagEventsOf_of_noName _ (noName_proseNodes first lines)

def Part.tags : Part → List PlacedTag
  | .tagged first source tags => placeTags first source tags
  | _ => []

namespace Builder

theorem Holds.addTags {builder : Builder} {done opened : List PlacedTag}
    (holds : builder.Holds done opened) (first : Nat) (source : Text) (start : Nat)
    (tags : List Tag) :
    Reads done (placeTags first source tags) (builder.addTags first source start tags) := by
  induction tags generalizing builder done opened start with
  | nil =>
      refine ⟨opened, ?_⟩
      simpa [placeTags] using holds.add (tagEvents_phrase first source start source.length)
  | cons tag tags ih =>
      have phrased := holds.add (tagEvents_phrase first source start tag.start)
      have handled := phrased.handle ⟨tag, sourcePosition first source tag.start⟩
      exact handled.bind fun next opened holds => ih holds tag.stop

theorem Holds.addPart {builder : Builder} {done opened : List PlacedTag}
    (holds : builder.Holds done opened) (part : Part) (complete : part.Complete) :
    Reads done part.tags (builder.addPart part) := by
  cases part with
  | prose first lines =>
      refine ⟨opened, ?_⟩
      simpa [Part.tags] using holds.add (tagEvents_proseNodes first lines)
  | statement line source =>
      refine ⟨opened, ?_⟩
      simpa [Part.tags] using holds.add (by simp [Node.tagEventsOf, Node.tagEvents])
  | tagged first source tags => exact holds.addTags first source 0 tags
  | unterminated first source offset => exact complete.elim

theorem Holds.addParts {builder : Builder} {done opened : List PlacedTag}
    (holds : builder.Holds done opened) (parts : List Part)
    (complete : ∀ part ∈ parts, part.Complete) :
    Reads done (parts.flatMap Part.tags) (builder.addParts parts) := by
  induction parts generalizing builder done opened with
  | nil => exact ⟨opened, by simpa using holds⟩
  | cons part parts ih =>
      have first := holds.addPart part (complete part (by simp))
      simp only [Builder.addParts, List.flatMap_cons]
      exact first.bind fun next opened holds =>
        ih holds fun other member => complete other (by simp [member])

end Builder

theorem closedTags_append (front back : List Segment) :
    closedTags (front ++ back) = closedTags front ++ closedTags back := by
  simp [closedTags]

theorem segments_of_complete (parts : List Part) (complete : ∀ part ∈ parts, part.Complete) :
    closedTags (parts.filterMap Part.segment?) = parts.flatMap Part.tags ∧
      (parts.filterMap Part.segment?).findSome? Segment.openTag? = none := by
  induction parts with
  | nil => exact ⟨rfl, rfl⟩
  | cons part parts ih =>
      obtain ⟨tags, open?⟩ := ih fun other member => complete other (by simp [member])
      have ends := complete part (by simp)
      cases part with
      | prose first lines =>
          rw [List.filterMap_cons_none rfl]
          exact ⟨tags, open?⟩
      | statement line source =>
          rw [List.filterMap_cons_none rfl]
          exact ⟨tags, open?⟩
      | unterminated first source offset => exact ends.elim
      | tagged first source found =>
          simp only [Part.Complete] at ends
          have closed : (Segment.mk first source).openTag? = none := by
            simp [Segment.openTag?, ends]
          constructor
          · rw [List.flatMap_cons, ← tags]
            simp [closedTags, Part.segment?, Part.tags, closed, Segment.tags,
              ends, placeTags]
          · simp [Part.segment?, closed, open?]

theorem Builder.Holds.finish {builder : Builder} {tags opened : List PlacedTag}
    (holds : builder.Holds tags opened) (stop : Position) :
    match builder.finish stop with
    | .ok result =>
      WellNested tags ∧ Node.tagEventsOf result = tags.flatMap PlacedTag.events ∧
        ∀ placed ∈ tags, placed.tag.closing = false → placed.tag.selfClosing = true →
          placed.leaf ∈ Node.preorders result
    | .error error => FirstFault tags none stop error := by
  obtain ⟨nests, frames, events, leaves⟩ := holds
  cases builder with
  | mk nodes stack =>
      cases frames with
      | nil =>
          refine ⟨nests, ?_, ?_⟩
          · simpa [Builder.tagEvents] using events
          · simpa [Builder.placedNodes] using leaves
      | @cons inner openTag stack opened isOf frames =>
          simp only [Builder.finish]
          rw [isOf.name, isOf.position]
          exact .unclosed nests rfl

theorem parseBody_reads (number : Nat) (nodes : List Node) (body lines : List Text)
    (plain : Node.tagEventsOf nodes = []) :
    match parseBody number nodes body lines with
    | .ok result =>
      (segmentsFrom number body).findSome? Segment.openTag? = none ∧
        WellNested (closedTags (segmentsFrom number body)) ∧
        Node.tagEventsOf result =
          (closedTags (segmentsFrom number body)).flatMap PlacedTag.events ∧
        ∀ placed ∈ closedTags (segmentsFrom number body), placed.tag.closing = false →
          placed.tag.selfClosing = true → placed.leaf ∈ Node.preorders result
    | .error error =>
      FirstFault (closedTags (segmentsFrom number body))
        ((segmentsFrom number body).findSome? Segment.openTag?) (endPosition lines) error := by
  -- the parts with complete tags come first, and then at most one segment that does not end
  have cut := partsFrom_cut 0 number [] body
  have same := segments_of_cut cut
  obtain ⟨complete, last, parts, ends, openEnd⟩ := cut.complete_append
  obtain ⟨tags, closed⟩ := segments_of_complete complete ends
  have reads := (Builder.holds_empty.add plain).addParts complete ends
  rw [parts, List.filterMap_append] at same
  simp only [parseBody, parts, Builder.addParts_append, bind_assoc]
  rw [← same, closedTags_append, List.findSome?_append, tags, closed]
  cases result : (Builder.empty.add nodes).addParts complete with
  | error error =>
      rw [result] at reads
      obtain ⟨before, placed, after, opened, split, nests, misplaced⟩ := reads
      have whole : complete.flatMap Part.tags ++ closedTags (last.filterMap Part.segment?) =
          ([] ++ before) ++ placed :: (after ++ closedTags (last.filterMap Part.segment?)) := by
        simp [split]
      exact FirstFault.misplaced whole nests misplaced
  | ok builder =>
      rw [result] at reads
      obtain ⟨opened, holds⟩ := reads
      rw [List.nil_append] at holds
      cases openEnd with
      | unterminated scanned =>
          have nests := holds.nests
          refine FirstFault.unterminated (?_ : Nests [] _ opened) ?_
          · simpa [Part.segment?, closedTags, Segment.openTag?, scanned] using nests
          · simp [Part.segment?, Segment.openTag?, scanned]
      | none =>
          have finished := holds.finish (endPosition lines)
          simp only [bind, Except.bind, Builder.addParts, List.filterMap_nil, closedTags,
            List.filter_nil, List.flatMap_nil, List.append_nil, List.findSome?_nil, Option.or_none]
          cases outcome : builder.finish (endPosition lines) with
          | error error =>
              rw [outcome] at finished
              exact finished
          | ok result =>
              rw [outcome] at finished
              exact ⟨trivial, finished⟩

theorem FirstFault.not_wellNested {tags : List PlacedTag} {openTag : Option Position}
    {stop : Position} {error : ParseError} (fault : FirstFault tags openTag stop error) :
    ¬(openTag = none ∧ WellNested tags) := by
  rintro ⟨noOpenTag, wellNested⟩
  cases fault with
  | misplaced split nests misplaced =>
      rw [split] at wellNested
      exact misplaced.not_nests (nests.rest wellNested)
  | unterminated nests found => simp [noOpenTag] at found
  | unclosed nests _ => simpa using nests.final_eq wellNested

theorem Misplaced.unique {opened : List PlacedTag} {placed : PlacedTag} {first second : ParseError}
    (left : Misplaced opened placed first) (right : Misplaced opened placed second) :
    first = second := by
  cases left <;> cases right <;> rfl

theorem Misplaced.not_before {before after final opened : List PlacedTag} {placed : PlacedTag}
    {error : ParseError} (misplaced : Misplaced opened placed error)
    (nests : Nests [] before opened) : ¬Nests [] (before ++ placed :: after) final := by
  intro whole
  exact misplaced.not_nests (nests.rest whole)

theorem Misplaced.unique_of_later {before between after after' opened opened' : List PlacedTag}
    {placed placed' : PlacedTag} {error error' : ParseError}
    (left : Misplaced opened placed error) (leftNests : Nests [] before opened)
    (right : Misplaced opened' placed' error') (rightNests : Nests [] (before ++ between) opened')
    (same : placed :: after = between ++ placed' :: after') : error = error' := by
  cases between with
  | nil =>
      rw [List.append_nil] at rightNests
      obtain ⟨rfl, -⟩ := List.cons.inj same
      obtain rfl := leftNests.final_eq rightNests
      exact left.unique right
  | cons first between =>
      obtain ⟨rfl, -⟩ := List.cons.inj same
      exact absurd rightNests (left.not_before leftNests)

theorem Misplaced.same_place {before after before' after' opened opened' : List PlacedTag}
    {placed placed' : PlacedTag} {error error' : ParseError}
    (left : Misplaced opened placed error) (leftNests : Nests [] before opened)
    (right : Misplaced opened' placed' error') (rightNests : Nests [] before' opened')
    (same : before ++ placed :: after = before' ++ placed' :: after') : error = error' := by
  rcases List.append_eq_append_iff.mp same with ⟨between, later, rest⟩ | ⟨between, later, rest⟩
  · rw [later] at rightNests
    exact left.unique_of_later leftNests right rightNests rest
  · rw [later] at leftNests
    exact (right.unique_of_later rightNests left leftNests rest).symm

theorem FirstFault.unique {tags : List PlacedTag} {openTag : Option Position} {stop : Position}
    {first second : ParseError} (left : FirstFault tags openTag stop first)
    (right : FirstFault tags openTag stop second) : first = second := by
  cases left with
  | misplaced split nests misplaced =>
      cases right with
      | misplaced split' nests' misplaced' =>
          exact misplaced.same_place nests misplaced' nests' (split ▸ split')
      | unterminated nests' _ => exact absurd (split ▸ nests') (misplaced.not_before nests)
      | unclosed nests' _ => exact absurd (split ▸ nests') (misplaced.not_before nests)
  | unterminated nests found =>
      cases right with
      | misplaced split' nests' misplaced' =>
          exact absurd (split' ▸ nests) (misplaced'.not_before nests')
      | unterminated _ found' => simpa [found] using found'
      | unclosed _ noOpenTag => simp [found] at noOpenTag
  | unclosed nests noOpenTag =>
      cases right with
      | misplaced split' nests' misplaced' =>
          exact absurd (split' ▸ nests) (misplaced'.not_before nests')
      | unterminated _ found' => simp [noOpenTag] at found'
      | unclosed nests' _ =>
          have same := nests.final_eq nests'
          simp only [List.cons.injEq] at same
          rw [same.1]

theorem parse_reads (text : Text) :
    match parse text with
    | .ok tree =>
      documentOpenTag? text = none ∧ WellNested (documentTags text) ∧
        tree.tagEvents = (documentTags text).flatMap PlacedTag.events ∧
        ∀ placed ∈ documentTags text, placed.tag.closing = false →
          placed.tag.selfClosing = true → placed.leaf ∈ tree.preorder
    | .error error =>
      FirstFault (documentTags text) (documentOpenTag? text) (endPosition (Text.lines text))
        error := by
  obtain ⟨number, nodes, body, start, same, parsed⟩ := parse_eq_parseBody text
  have plain : Node.tagEventsOf nodes = [] := by
    cases start with
    | whole => rfl
    | afterData => simp [dataNode, Node.tagEventsOf, Node.tagEvents]
  have reads := parseBody_reads number nodes body (Text.lines text) plain
  rw [parsed, documentTags, documentOpenTag?, same]
  cases result : parseBody number nodes body (Text.lines text) with
  | error error =>
      rw [result] at reads
      exact reads
  | ok nodes =>
      rw [result] at reads
      obtain ⟨closed, nested, events, leaves⟩ := reads
      exact ⟨closed, nested, events, fun placed member notClosing self =>
        List.mem_cons_of_mem _ (leaves placed member notClosing self)⟩

/-- A document has a tree exactly when every tag ends and the tags nest. The tree then holds the
tags as its components, in order and with their attributes and places, and any other document has
the error of its first fault. -/
theorem parse_ok_iff_wellNested (text : Text) :
    ((∃ tree, parse text = .ok tree) ↔
      documentOpenTag? text = none ∧ WellNested (documentTags text)) ∧
    (∀ tree, parse text = .ok tree →
      tree.tagEvents = (documentTags text).flatMap PlacedTag.events ∧
      ∀ placed ∈ documentTags text, placed.tag.closing = false → placed.tag.selfClosing = true →
        placed.leaf ∈ tree.preorder) ∧
    ∀ error, parse text = .error error ↔
      FirstFault (documentTags text) (documentOpenTag? text) (endPosition (Text.lines text))
        error := by
  have reads := parse_reads text
  cases result : parse text with
  | ok tree =>
      rw [result] at reads
      obtain ⟨closed, nested, events, leaves⟩ := reads
      refine ⟨⟨fun _ => ⟨closed, nested⟩, fun _ => ⟨tree, rfl⟩⟩, ?_, ?_⟩
      · intro other same
        obtain rfl := Except.ok.inj same
        exact ⟨events, leaves⟩
      · intro error
        constructor
        · intro same
          simp at same
        · intro fault
          exact absurd ⟨closed, nested⟩ fault.not_wellNested
  | error error =>
      rw [result] at reads
      refine ⟨⟨by simp, fun fine => absurd fine reads.not_wellNested⟩, by simp, ?_⟩
      intro other
      constructor
      · intro same
        obtain rfl := Except.error.inj same
        exact reads
      · intro fault
        rw [reads.unique fault]

end Document

end MdxCheck
