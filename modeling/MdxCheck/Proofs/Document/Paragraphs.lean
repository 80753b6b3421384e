import Mathlib.Data.List.Perm.Subperm
import MdxCheck.Proofs.Document.PassagePlaces

/-!
The nodes that stand right in a component or in the document: no two of them at one place, and each
paragraph among them shows some source that is not blank.
-/

namespace MdxCheck

theorem Node.mem_preorders {nodes : List Node} {node other : Node} (inside : node ∈ nodes)
    (within : other ∈ node.preorder) : other ∈ preorders nodes := by
  induction nodes with
  | nil => simp at inside
  | cons first nodes ih =>
      rw [preorders, List.mem_append]
      rcases List.mem_cons.mp inside with rfl | later
      · exact .inl within
      · exact .inr (ih later)

theorem Tag.Chain.start_ge {source : Text} {cursor : Nat} {tags : List Tag}
    (chain : Chain source cursor tags) : ∀ tag ∈ tags, cursor ≤ tag.start := by
  induction chain with
  | nil => simp
  | cons before inside _ _ _ ih =>
      refine List.forall_mem_cons.mpr ⟨before, fun later listed => ?_⟩
      have further := ih later listed
      omega

namespace Document

open Builder (sourcePosition phrase)

/-- The text between two offsets of a piece of source, without white space at its ends. -/
def betweenSource (source : Text) (start stop : Nat) : Text :=
  (Text.trim ((source.take stop).drop start)).map Markdown.Blocks.cleanChar

/-- What a paragraph right in a component or in the document comes from: where it starts, the labels
that links in it may refer to, and its source. This is some lines of a run of prose, or what stands
between two tags. -/
inductive ParagraphSource (text : Text) : Position → List Text → Text → Prop
  | lines {first number past : Nat} {lines : List Text} :
      .prose first lines ∈ documentParts text → number < past → past ≤ lines.length →
      ParagraphSource text (linePosition first lines number) (runLabels lines)
        (runSource lines number past)
  | between {first start stop : Nat} {source : Text} {tags : List Tag} :
      .tagged first source tags ∈ documentParts text → start ≤ stop → stop ≤ source.length →
      (∀ tag ∈ tags, tag.stop ≤ start ∨ stop ≤ tag.start) →
      ParagraphSource text
        (sourcePosition first source (start + Text.indentWidth ((source.take stop).drop start))) []
        (betweenSource source start stop)

/-- A node as it stands right in a component or in the document: no component is in it, and a
paragraph shows a source that is not blank. -/
structure StandsAlone (text : Text) (node : Node) : Prop where
  noName : ∀ other ∈ node.preorder, other.name? = none
  paragraph : ∀ children position, node = .paragraph children position →
    ∃ place labels source, ParagraphSource text place labels source ∧
      Text.isBlankText source = false ∧ node = shownParagraph place labels source

section Sources

variable {text : Text}

theorem isBlank_cleanChar (c : Char) :
    Text.isBlank (Markdown.Blocks.cleanChar c) = Text.isBlank c := by
  rw [Markdown.Blocks.cleanChar]
  split
  · next same =>
      rw [same]
      decide
  · rfl

theorem isBlankText_clean (source : Text) :
    Text.isBlankText (source.map Markdown.Blocks.cleanChar) = Text.isBlankText source := by
  rw [Text.isBlankText, List.all_map, Text.isBlankText]
  exact congrArg source.all (funext isBlank_cleanChar)

theorem isBlankText_dedent {lines : List Text} {number : Nat} {line : Text}
    (here : lines[number]? = some line) (solid : Text.isBlankText line = false) :
    ∃ text, (dedent lines)[number]? = some text ∧ Text.isBlankText text = false := by
  rw [dedent, List.getElem?_map, here, Option.map_some, if_neg (by simp [solid])]
  refine ⟨_, rfl, ?_⟩
  have below := (isCommonIndent_commonIndent lines).below line (List.mem_of_getElem? here) solid
  have outdents := outdents_drop solid below
  generalize line.drop (commonIndent lines) = rest at outdents ⊢
  cases outdents with
  | blank blank =>
      rw [blank] at solid
      contradiction
  | solid _ _ notBlank => exact notBlank

theorem isBlankText_runSource {lines : List Text} {number past : Nat} {line : Text}
    (here : lines[number]? = some line) (solid : Text.isBlankText line = false)
    (less : number < past) : Text.isBlankText (runSource lines number past) = false := by
  obtain ⟨text, found, notBlank⟩ := isBlankText_dedent here solid
  have item : (((dedent lines).take past).drop number)[0]? = some text := by
    rw [List.getElem?_drop, Nat.add_zero, List.getElem?_take_of_lt less, found]
  rw [runSource, Text.isBlankText_trim, isBlankText_clean, Text.isBlankText_unlines,
    List.all_eq_false]
  exact ⟨text, List.mem_of_getElem? item, by simp [notBlank]⟩

theorem standsAlone_element (kind : Text) (value : Option Text) (position : Option Position) :
    StandsAlone text (.element kind [] value position) where
  noName := by simp [Node.preorder, Node.preorders, Node.name?]
  paragraph := by simp

theorem standsAlone_proseNodes {first : Nat} {lines : List Text}
    (member : .prose first lines ∈ documentParts text) (noFeed : ∀ line ∈ lines, '\n' ∉ line) :
    ∀ node ∈ proseNodes first lines, StandsAlone text node := by
  intro node inside
  refine ⟨fun other within => noName_proseNodes first lines other
    (Node.mem_preorders inside within), fun children position same => ?_⟩
  obtain ⟨tops, nodes, -, each⟩ := proseNodes_tops first noFeed
  rw [nodes] at inside
  obtain ⟨top, listed, rfl⟩ := List.mem_map.mp inside
  obtain ⟨⟨line, here, solid⟩, isTop⟩ := each top listed
  generalize top.1 = number, top.2 = node at *
  cases isTop with
  | paragraph less bound =>
      exact ⟨_, _, _, .lines member less bound, isBlankText_runSource here solid less, rfl⟩
  | element => simp at same

theorem exists_between {source : Text} {first cursor : Nat} {tags : List Tag}
    (chain : Tag.Chain source cursor tags) {node : Node}
    (member : .node node ∈ taggedPassages first source cursor tags) :
    ∃ start stop, cursor ≤ start ∧ start ≤ stop ∧ stop ≤ source.length ∧
      (∀ tag ∈ tags, tag.stop ≤ start ∨ stop ≤ tag.start) ∧
      node ∈ phrase first source start stop := by
  induction chain with
  | @nil cursor bound =>
      obtain ⟨other, inside, same⟩ := List.mem_map.mp member
      obtain rfl := Passage.node.inj same
      exact ⟨cursor, source.length, Nat.le_refl _, bound, Nat.le_refl _, by simp, inside⟩
  | @cons cursor tag tags others before less _ _ chain ih =>
      have bound := chain.length
      simp only [taggedPassages, List.mem_append] at member
      obtain (here | tagged) | later := member
      · obtain ⟨other, inside, same⟩ := List.mem_map.mp here
        obtain rfl := Passage.node.inj same
        refine ⟨cursor, tag.start, Nat.le_refl _, before, by omega, ?_, inside⟩
        refine List.forall_mem_cons.mpr ⟨.inr (Nat.le_refl _), fun later listed => .inr ?_⟩
        exact Nat.le_trans (Nat.le_of_lt less) (chain.start_ge later listed)
      · simp [PlacedTag.passages] at tagged
      · obtain ⟨start, stop, low, ordered, high, outside, inside⟩ := ih later
        refine ⟨start, stop, by omega, ordered, high, ?_, inside⟩
        exact List.forall_mem_cons.mpr ⟨.inl low, outside⟩

theorem standsAlone_phrase {first start stop : Nat} {source : Text} {tags : List Tag}
    (member : .tagged first source tags ∈ documentParts text) (ordered : start ≤ stop)
    (bound : stop ≤ source.length)
    (outside : ∀ tag ∈ tags, tag.stop ≤ start ∨ stop ≤ tag.start) :
    ∀ node ∈ phrase first source start stop, StandsAlone text node := by
  intro node inside
  rw [phrase] at inside
  split at inside
  · simp at inside
  · next notBlank =>
      obtain rfl := List.mem_singleton.mp inside
      refine ⟨by simp [Node.preorder, Node.preorders, Node.name?], fun _ _ _ => ?_⟩
      refine ⟨_, _, _, .between member ordered bound outside, ?_, rfl⟩
      rw [betweenSource, isBlankText_clean, Text.isBlankText_trim]
      simpa using notBlank

theorem standsAlone_of_part {part : Part} (member : part ∈ documentParts text)
    (noFeed : ∀ line ∈ part.lines, '\n' ∉ line) (complete : part.Complete) {node : Node}
    (met : .node node ∈ part.passages) : StandsAlone text node := by
  cases part with
  | prose first lines =>
      obtain ⟨other, inside, same⟩ := List.mem_map.mp met
      obtain rfl := Passage.node.inj same
      exact standsAlone_proseNodes member noFeed other inside
  | statement line source =>
      obtain rfl := Passage.node.inj (List.mem_singleton.mp met)
      exact standsAlone_element _ _ _
  | tagged first source tags =>
      have scanned : (Tag.scan source).tags = tags := by rw [complete]
      obtain ⟨start, stop, -, ordered, bound, outside, inside⟩ :=
        exists_between (scanned ▸ Tag.chain_scan source) met
      exact standsAlone_phrase member ordered bound outside node inside
  | unterminated => exact complete.elim

end Sources

/-- From left to right, the components of a tree open and the nodes right in them start at places
of their own, and each of these nodes stands alone. -/
theorem passages_of_parse {text : Text} {tree : Node} (parsed : parse text = .ok tree) :
    ∃ nodes, tree = .root nodes (some ⟨1, 1⟩) ∧ (placesOf (Node.passagesOf nodes)).Nodup ∧
      ∀ node, .node node ∈ Node.passagesOf nodes → StandsAlone text node := by
  obtain ⟨number, before, body, nodes, start, rfl, added⟩ := addParts_of_parse parsed
  have cut := partsFrom_cut 0 number [] body
  have passages := Builder.passages_addParts added
  rw [← start.documentParts] at cut added passages
  rw [Builder.passages_add, start.passagesOf] at passages
  have whole : Node.passagesOf nodes =
      before.map .node ++ (documentParts text).flatMap Part.passages := by
    simpa [Builder.passages, Builder.empty, Node.passagesOf] using passages
  have complete := complete_of_addParts cut added
  have fits := fits_of_cut cut start.noFeed
  have all : (documentParts text).flatMap Part.numbered = body.zipIdx number :=
    numbered_of_cut cut rfl start.noFeed
  obtain ⟨front, progress⟩ := start.progress
  refine ⟨nodes, rfl, ?_, fun node met => ?_⟩
  · rw [← progress.start] at all
    have track := track_parts fits complete front body start.noFeed all
    rw [progress.start] at track
    rw [whole, placesOf_append]
    exact (start.track.append track).nodup
  · rw [whole] at met
    rcases List.mem_append.mp met with data | inPart
    · cases start with
      | whole => simp at data
      | afterData =>
          obtain rfl := Passage.node.inj (List.mem_singleton.mp data)
          exact standsAlone_element _ _ _
    · obtain ⟨part, member, here⟩ := List.mem_flatMap.mp inPart
      refine standsAlone_of_part member (fun line inside => ?_) (complete part member) here
      have listed : line ∈ body := by
        have texts := congrArg (List.map Prod.fst) all
        rw [List.zipIdx_map_fst, List.map_flatMap] at texts
        rw [← texts]
        refine List.mem_flatMap.mpr ⟨part, member, ?_⟩
        rwa [Part.numbered, List.zipIdx_map_fst]
      exact start.noFeed line listed

end Document

namespace Node

/-- The nodes right in a component; any other node has none. -/
def inside : Node → List Node
  | component _ _ children _ => children
  | _ => []

/-- How a node is met on the way through the components of a tree. -/
def met : Node → Passage
  | component name attributes _ position => .event (.opens name attributes position)
  | node => .node node

theorem position?_met (node : Node) : node.met.position? = node.position := by
  cases node <;> rfl

theorem met_of_noName {node : Node} (noName : node.name? = none) : node.met = .node node := by
  cases node with
  | component => simp [name?] at noName
  | _ => rfl

theorem inside_of_noName {node : Node} (noName : node.name? = none) : node.inside = [] := by
  cases node with
  | component => simp [name?] at noName
  | _ => rfl

variable {nodes : List Node}

theorem insides_of_noName (noName : ∀ node ∈ nodes, node.name? = none) :
    nodes.flatMap inside = [] :=
  List.flatMap_eq_nil_iff.mpr fun node member => inside_of_noName (noName node member)

mutual

/-- A node and all nodes right in the components below it are met, each as often as it is there. -/
theorem met_subperm (node : Node)
    (plain : ∀ other, .node other ∈ node.passages → ∀ below ∈ other.preorder, below.name? = none) :
    ((node :: node.preorder.flatMap inside).map met).Subperm node.passages := by
  by_cases noName : node.name? = none
  · have passages := passages_of_noName noName
    rw [insides_of_noName (plain node (by simp [passages])), passages, List.map_cons,
      met_of_noName noName]
    exact List.Subperm.refl _
  · cases node with
    | component name attributes children position =>
        have inner := mets_subperm children fun other member =>
          plain other (by simp [passages, member])
        have whole := inner.trans (List.sublist_append_left _ [.event (.closes name)]).subperm
        simp only [passages, preorder, List.flatMap_cons, inside, List.map_cons, met]
        exact (List.subperm_cons _).mpr whole
    | _ => exact absurd rfl noName

theorem mets_subperm (nodes : List Node)
    (plain : ∀ other, .node other ∈ passagesOf nodes → ∀ below ∈ other.preorder,
      below.name? = none) :
    ((nodes ++ (preorders nodes).flatMap inside).map met).Subperm (passagesOf nodes) := by
  cases nodes with
  | nil => exact List.Subperm.refl _
  | cons node nodes =>
      have first := met_subperm node fun other member =>
        plain other (List.mem_append_left _ member)
      have later := mets_subperm nodes fun other member =>
        plain other (List.mem_append_right _ member)
      -- the nodes below the first one move in front of those that follow it
      have order : ((node :: nodes) ++ (preorders (node :: nodes)).flatMap inside).Perm
          ((node :: node.preorder.flatMap inside) ++
            (nodes ++ (preorders nodes).flatMap inside)) := by
        rw [preorders, List.flatMap_append, List.cons_append, List.cons_append]
        exact (List.perm_append_comm_assoc _ _ _).cons node
      have both := first.append later
      rw [← List.map_append] at both
      exact (order.map met).subperm.trans both

end

end Node

/-- The nodes right in the components of a document stand at places of their own, and those that are
no components stand alone. -/
theorem Document.insides_of_parse {text : Text} {tree : Node} (parsed : parse text = .ok tree) :
    ((tree.preorder.flatMap Node.inside).filterMap Node.position).Nodup ∧
      ∀ child ∈ tree.preorder.flatMap Node.inside, child.name? = none → StandsAlone text child := by
  obtain ⟨nodes, rfl, nodup, alone⟩ := passages_of_parse parsed
  have met := Node.mets_subperm nodes fun node member => (alone node member).noName
  have below : (Node.root nodes (some ⟨1, 1⟩)).preorder.flatMap Node.inside =
      (Node.preorders nodes).flatMap Node.inside := by
    rw [Node.preorder, List.flatMap_cons, Node.inside_of_noName rfl, List.nil_append]
  rw [below]
  refine ⟨?_, fun child member noName => alone child ?_⟩
  · obtain ⟨others, perm, part⟩ := met
    have places := ((perm.filterMap Passage.position?).nodup_iff).mp
      (nodup.sublist (part.filterMap Passage.position?))
    rw [List.filterMap_map, List.filterMap_append, List.nodup_append] at places
    have same : Passage.position? ∘ Node.met = Node.position := funext Node.position?_met
    exact same ▸ places.2.1
  · rw [← Node.met_of_noName noName]
    exact met.subset (List.mem_map_of_mem (List.mem_append_right _ member))

end MdxCheck
