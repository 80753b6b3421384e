import MdxCheck.Proofs.Document.ProsePlaces
import MdxCheck.Proofs.Document.Segment
import MdxCheck.Proofs.Tag.Scan

/-!
The places of all nodes of a document: each node stands where it starts, and no node comes before
one that is met earlier on the way through the tree.
-/

namespace MdxCheck.Document

open Position (lineStart)

namespace Builder

theorem sourcePosition_before (first : Nat) {source : Text} {here there : Nat}
    (less : here < there) (bound : there ≤ source.length) :
    (sourcePosition first source here).Before (sourcePosition first source there) := by
  obtain ⟨count, rfl⟩ : ∃ count, there = here + (count + 1) := ⟨there - here - 1, by omega⟩
  have split : source.take (here + (count + 1)) =
      source.take here ++ (source.drop here).take (count + 1) := List.take_add
  have between : ((source.drop here).take (count + 1)).length = count + 1 := by
    rw [List.length_take, List.length_drop]
    omega
  simp only [Position.Before, sourcePosition, split, List.count_append, List.reverse_append]
  by_cases feed : '\n' ∈ (source.drop here).take (count + 1)
  · have more := List.count_pos_iff.mpr feed
    omega
  · have sameLine := List.count_eq_zero.mpr feed
    have further : ∀ c ∈ ((source.drop here).take (count + 1)).reverse,
        decide (c ≠ '\n') = true := by
      intro c member
      rw [decide_eq_true_eq]
      rintro rfl
      exact feed (List.mem_reverse.mp member)
    refine Or.inr ⟨by omega, ?_⟩
    rw [List.takeWhile_append_of_pos further, List.length_append, List.length_reverse, between]
    omega

theorem sourcePosition_upTo (first : Nat) {source : Text} {here there : Nat}
    (ordered : here ≤ there) (bound : there ≤ source.length) :
    (sourcePosition first source here).UpTo (sourcePosition first source there) := by
  rcases Nat.lt_or_eq_of_le ordered with less | rfl
  · exact (sourcePosition_before first less bound).upTo
  · exact .refl _

/-- One unfinished tree goes on from another with nodes between two bounds. -/
def Grows (document : List Text) (low high : Position) (builder next : Builder) : Prop :=
  ∃ nodes, next.run = builder.run ++ nodes ∧ Trail document low high nodes

theorem Grows.trans {document : List Text} {low middle high : Position}
    {first second third : Builder} (left : Grows document low middle first second)
    (right : Grows document middle high second third) : Grows document low high first third := by
  obtain ⟨before, firstRun, firstTrail⟩ := left
  obtain ⟨after, secondRun, secondTrail⟩ := right
  exact ⟨before ++ after, by rw [secondRun, firstRun, List.append_assoc],
    firstTrail.append secondTrail⟩

theorem Grows.add {document : List Text} {low high : Position} (builder : Builder)
    {nodes : List Node} (trail : Trail document low high (Node.run nodes)) :
    Grows document low high builder (builder.add nodes) :=
  ⟨Node.run nodes, run_add builder nodes, trail⟩

theorem Grows.widen {document : List Text} {low high lower upper : Position}
    {builder next : Builder} (grows : Grows document low high builder next)
    (below : lower.UpTo low) (above : high.UpTo upper) :
    Grows document lower upper builder next := by
  obtain ⟨nodes, run, trail⟩ := grows
  exact ⟨nodes, run, trail.widen below above⟩

theorem drop_indent_between {source : Text} {start stop : Nat}
    (notBlank : Text.isBlankText ((source.take stop).drop start) = false) :
    ∃ c more,
      source.drop (start + Text.indentWidth ((source.take stop).drop start)) = c :: more ∧
      Text.isBlank c = false ∧
      start + Text.indentWidth ((source.take stop).drop start) < stop := by
  obtain ⟨c, others, first, solid⟩ := drop_indentWidth notBlank
  generalize Text.indentWidth ((source.take stop).drop start) = width at first ⊢
  rw [List.drop_drop, List.drop_take] at first
  obtain ⟨count, room⟩ : ∃ count, stop - (start + width) = count + 1 := by
    apply Nat.exists_eq_succ_of_ne_zero
    intro none
    simp [none] at first
  cases after : source.drop (start + width) with
  | nil => simp [after] at first
  | cons d more =>
      rw [after, room, List.take_succ_cons] at first
      exact ⟨d, more, rfl, (List.cons.inj first).1 ▸ solid, by omega⟩

section

variable (front rest : List Text) {lines : List Text} (nonempty : lines ≠ [])
  (noFeed : ∀ line ∈ lines, '\n' ∉ line)

include nonempty noFeed

/-- An offset of some joined lines of a document is the place of the same characters there. -/
theorem stands_sourcePosition {node : Node} {offset : Nat}
    (bound : offset ≤ (Text.unlines lines).length)
    (position : node.position =
      some (sourcePosition (front.length + 1) (Text.unlines lines) offset))
    (starts : node.StartsWith (((Text.unlines lines).drop offset).takeWhile (· ≠ '\n'))) :
    node.StandsAt (front ++ (lines ++ rest))
      (sourcePosition (front.length + 1) (Text.unlines lines) offset) := by
  obtain ⟨line, found, same⟩ := Text.drop_unlines nonempty noFeed offset bound
  have inside := (List.getElem?_eq_some_iff.mp found).1
  refine ⟨position, ?_, ?_, ?_⟩
  · simp only [sourcePosition, List.length_append]
    omega
  · simp only [sourcePosition]
    omega
  · have here := sourceAt_line front rest found
      (((Text.unlines lines).take offset).reverse.takeWhile (· ≠ '\n')).length
    rw [same] at here
    exact here ▸ starts

theorem sourcePosition_within {offset : Nat} (bound : offset ≤ (Text.unlines lines).length) :
    (lineStart (front.length + 1)).UpTo
        (sourcePosition (front.length + 1) (Text.unlines lines) offset) ∧
      (sourcePosition (front.length + 1) (Text.unlines lines) offset).Before
        (lineStart (front.length + 1 + lines.length)) := by
  obtain ⟨line, found, -⟩ := Text.drop_unlines nonempty noFeed offset bound
  have inside := (List.getElem?_eq_some_iff.mp found).1
  simp only [Position.UpTo, Position.Before, lineStart, sourcePosition]
  omega

theorem trail_phrase {start stop : Nat} (ordered : start ≤ stop)
    (bound : stop ≤ (Text.unlines lines).length) :
    Trail (front ++ (lines ++ rest))
      (sourcePosition (front.length + 1) (Text.unlines lines) start)
      (sourcePosition (front.length + 1) (Text.unlines lines) stop)
      (Node.run (phrase (front.length + 1) (Text.unlines lines) start stop)) := by
  simp only [phrase]
  split
  next => exact .nil (sourcePosition_upTo (front.length + 1) ordered bound)
  next notBlank =>
    obtain ⟨c, more, shown, solid, inside⟩ := drop_indent_between (by simpa using notBlank)
    generalize Text.indentWidth (((Text.unlines lines).take stop).drop start) = width
      at shown inside ⊢
    have notFeed : c ≠ '\n' := by
      rintro rfl
      exact absurd solid (by decide)
    have starts : ∃ d tail, ((Text.unlines lines).drop (start + width)).takeWhile (· ≠ '\n') =
        d :: tail ∧ Text.isBlank d = false :=
      ⟨c, more.takeWhile (· ≠ '\n'), by simp [shown, notFeed], solid⟩
    have short : start + width ≤ (Text.unlines lines).length := by omega
    have lower := sourcePosition_upTo (front.length + 1) (Nat.le_add_right start width) short
    have upper := sourcePosition_before (front.length + 1) inside bound
    refine .pair (stands_sourcePosition front rest nonempty noFeed short rfl (Or.inr starts))
      (stands_sourcePosition front rest nonempty noFeed short rfl (Or.inr starts)) lower upper
      (by decide : "paragraph".toList ≠ "yaml".toList) (by decide : "text".toList ≠ "yaml".toList)
      rfl

theorem grows_handle {builder next : Builder} {tag : Tag} {others : Text}
    (inside : tag.start < tag.stop) (bound : tag.stop ≤ (Text.unlines lines).length)
    (isName : Tag.IsName tag.name)
    (opens : (Text.unlines lines).drop tag.start =
      Tag.openingSource tag.closing tag.name ++ others)
    (handled : builder.handle tag
      (sourcePosition (front.length + 1) (Text.unlines lines) tag.start) = .ok next) :
    Grows (front ++ (lines ++ rest))
      (sourcePosition (front.length + 1) (Text.unlines lines) tag.start)
      (sourcePosition (front.length + 1) (Text.unlines lines) tag.stop) builder next := by
  have upper := sourcePosition_before (front.length + 1) inside bound
  refine ⟨_, run_takes (takes_of_handle handled), ?_⟩
  cases closing : tag.closing with
  | true => exact .nil upper.upTo
  | false =>
      refine .single (stands_sourcePosition front rest nonempty noFeed (by omega) rfl ?_) (.refl _)
        upper (by decide : "component".toList ≠ "yaml".toList)
      have noFeedInside : ∀ c ∈ Tag.openingSource false tag.name, decide (c ≠ '\n') = true := by
        intro c member
        rw [decide_eq_true_eq]
        rintro rfl
        exact Tag.openingSource_no_line isName member
      rw [opens, closing, List.takeWhile_append_of_pos noFeedInside]
      exact ⟨others.takeWhile (· ≠ '\n'), by simp [Tag.openingSource]⟩

theorem grows_addTags {tags : List Tag} {start : Nat}
    (chain : Tag.Chain (Text.unlines lines) start tags) :
    ∀ {builder next : Builder},
      builder.addTags (front.length + 1) (Text.unlines lines) start tags = .ok next →
      Grows (front ++ (lines ++ rest))
        (sourcePosition (front.length + 1) (Text.unlines lines) start)
        (sourcePosition (front.length + 1) (Text.unlines lines) (Text.unlines lines).length)
        builder next := by
  induction chain with
  | nil bound =>
      intro builder next added
      obtain rfl := Except.ok.inj added
      exact .add builder (trail_phrase front rest nonempty noFeed bound (Nat.le_refl _))
  | @cons cursor tag tags others before inside isName opens chain ih =>
      intro builder next added
      have bound := chain.length
      simp only [addTags] at added
      cases handled : (builder.add (phrase (front.length + 1) (Text.unlines lines) cursor
          tag.start)).handle tag
            (sourcePosition (front.length + 1) (Text.unlines lines) tag.start) with
      | error error => simp [handled, bind, Except.bind] at added
      | ok after =>
          rw [handled] at added
          have phrased := Grows.add builder
            (trail_phrase front rest nonempty noFeed before (by omega))
          have tagged := grows_handle front rest nonempty noFeed inside bound isName opens handled
          exact (phrased.trans tagged).trans (ih added)

theorem grows_scanned {builder next : Builder}
    (added : builder.addTags (front.length + 1) (Text.unlines lines) 0
      (Tag.scan (Text.unlines lines)).tags = .ok next) :
    Grows (front ++ (lines ++ rest)) (lineStart (front.length + 1))
      (lineStart (front.length + 1 + lines.length)) builder next := by
  have within := grows_addTags front rest nonempty noFeed
    (Tag.chain_scan (Text.unlines lines)) added
  have lower := (sourcePosition_within front nonempty noFeed (Nat.zero_le _)).1
  have upper := (sourcePosition_within front nonempty noFeed (Nat.le_refl _)).2
  exact within.widen lower upper.upTo

end

end Builder

/-- How far a document is cut: the lines of `front` are in parts, those of `prose` wait, the last of
them first, and the first of `lines` is line `number`. -/
structure Progress (document front prose lines : List Text) (number : Nat) : Prop where
  split : document = front ++ (prose.reverse ++ lines)
  count : number = front.length + prose.length + 1

namespace Progress

variable {document front prose rest : List Text} {number : Nat}

theorem wait (more : List Text) (progress : Progress document front prose (more ++ rest) number) :
    Progress document front (more.reverse ++ prose) rest (number + more.length) := by
  obtain ⟨split, count⟩ := progress
  constructor
  · rw [split, List.reverse_append, List.reverse_reverse, List.append_assoc]
  · rw [List.length_append, List.length_reverse]
    omega

theorem flush (progress : Progress document front prose rest number) :
    Progress document (front ++ prose.reverse) [] rest number := by
  obtain ⟨split, count⟩ := progress
  constructor
  · rw [split, List.append_assoc]
    rfl
  · rw [List.length_append, List.length_reverse]
    exact count

theorem take (taken : List Text) (progress : Progress document front [] (taken ++ rest) number)
    {next : Nat} (past : next = number + taken.length) :
    Progress document (front ++ taken) [] rest next := by
  obtain ⟨split, count⟩ := progress
  constructor
  · rw [split, List.append_assoc]
    rfl
  · rw [past, count, List.length_append]
    simp only [List.length_nil]
    omega

theorem start (progress : Progress document front [] rest number) : front.length + 1 = number := by
  have count := progress.count
  rw [List.length_nil] at count
  omega

theorem last (progress : Progress document front prose [] number) :
    number = document.length + 1 := by
  rw [progress.split, List.append_nil, List.length_append, List.length_reverse]
  exact progress.count

end Progress

namespace Builder

section

variable {document front prose rest : List Text} {number : Nat}
  (noFeed : ∀ line ∈ document, '\n' ∉ line) (builder : Builder)

include noFeed in
theorem grows_prose (progress : Progress document front prose rest number) :
    Grows document (lineStart (front.length + 1)) (lineStart number) builder
      (builder.add (proseNodes (number - prose.length) prose.reverse)) := by
  obtain ⟨split, count⟩ := progress
  have first : number - prose.length = front.length + 1 := by omega
  have last : number = front.length + 1 + prose.reverse.length := by
    rw [List.length_reverse]
    omega
  have noFeedInside : ∀ line ∈ prose.reverse, '\n' ∉ line := by
    intro line member
    apply noFeed line
    rw [split]
    exact List.mem_append_right _ (List.mem_append_left _ member)
  have trail := @trail_prose front rest prose.reverse noFeedInside
  rw [← split, ← last] at trail
  rw [first]
  exact .add builder trail

theorem grows_statement {line : Text} (progress : Progress document front [] (line :: rest) number)
    (statement : isStatement line = true) :
    Grows document (lineStart number) (lineStart (number + 1)) builder
      (builder.add [.element "mdxjsEsm" [] (some line) (some ⟨number, 1⟩)]) := by
  have split : document = front ++ line :: rest := progress.split
  have start := progress.start
  subst start
  have here := @sourceAt_line front rest [line] 0 line rfl 0
  obtain ⟨c, others, rfl, first⟩ := isStatement_head statement
  have solid : Text.isBlank c = false := by
    rcases first with rfl | rfl
    · decide
    · decide
  have stands : Node.StandsAt document
      (.element "mdxjsEsm" [] (some (c :: others)) (some ⟨(front.length + 1 : Nat), 1⟩))
      ⟨(front.length + 1 : Nat), 1⟩ := by
    refine ⟨rfl, ?_, Int.le_refl 1, Or.inr ⟨c, others, ?_, solid⟩⟩
    · simp only [split, List.length_append, List.length_cons]
      omega
    · simpa [split] using here
  apply Grows.add
  apply Trail.single stands
  · exact Or.inr ⟨rfl, (by decide : (0 : Int) ≤ 1)⟩
  · have less : ((front.length + 1 : Nat) : Int) < (front.length + 1 + 1 : Nat) := by omega
    exact Or.inl less
  · exact (by decide : "mdxjsEsm".toList ≠ "yaml".toList)

include noFeed in
theorem grows_tagged {line : Text} {more : List Text} {tags : List Tag} {next : Builder}
    (progress : Progress document front [] (line :: more ++ rest) number)
    (scanned : Tag.scan (Text.unlines (line :: more)) = ⟨tags, none⟩)
    (added : builder.addPart (.tagged number (Text.unlines (line :: more)) tags) = .ok next) :
    Grows document (lineStart number) (lineStart (number + 1 + more.length)) builder next := by
  have split : document = front ++ (line :: more ++ rest) := progress.split
  have start := progress.start
  subst start
  have same : tags = (Tag.scan (Text.unlines (line :: more))).tags := by rw [scanned]
  rw [addPart, same] at added
  have noFeedInside : ∀ other ∈ line :: more, '\n' ∉ other := by
    intro other member
    apply noFeed other
    rw [split]
    exact List.mem_append_right _ (List.mem_append_left _ member)
  have grows := grows_scanned front rest (by simp) noFeedInside added
  have past : front.length + 1 + (line :: more).length = front.length + 1 + 1 + more.length := by
    rw [List.length_cons]
    omega
  rwa [← split, past] at grows

end

theorem grows_addParts {document : List Text} (noFeed : ∀ line ∈ document, '\n' ∉ line)
    {depth number : Nat} {prose lines : List Text} {parts : List Part}
    (cut : Cut depth number prose lines parts) :
    ∀ front, Progress document front prose lines number →
      ∀ {builder next : Builder}, builder.addParts parts = .ok next →
        Grows document (lineStart (front.length + 1)) (lineStart (document.length + 1)) builder
          next := by
  -- the lines that wait become nodes before those of the next part, so places go on
  induction cut with
  | done depth number prose =>
      intro front progress builder next added
      rw [← List.append_nil (proseBefore number prose), addParts_prose] at added
      obtain rfl := Except.ok.inj added
      rw [← progress.last]
      exact grows_prose noFeed builder progress
  | @prose depth number prose line lines parts _ _ _ ih =>
      intro front progress builder next added
      exact ih front (progress.wait [line]) added
  | @fenced depth number prose line run code stop rest parts _ _ _ _ ih =>
      intro front progress builder next added
      have closed : Progress document front ([line].reverse ++ prose) (code ++ ([stop] ++ rest)) _ :=
        progress.wait [line]
      exact ih front ((closed.wait code).wait [stop]) added
  | @openFence depth number prose line run code _ _ =>
      intro front progress builder next added
      have waiting : Progress document front ([line].reverse ++ prose) (code ++ [])
          (number + 1) := by
        rw [List.append_nil]
        exact progress.wait [line]
      have all := waiting.wait code
      rw [← List.append_nil (proseBefore _ _), addParts_prose] at added
      obtain rfl := Except.ok.inj added
      rw [← all.last]
      exact grows_prose noFeed builder all
  | @statement depth number prose line lines parts _ _ statement _ ih =>
      intro front progress builder next added
      rw [addParts_prose] at added
      have prosed := grows_prose noFeed builder progress
      have stated := grows_statement (builder.add (proseNodes (number - prose.length)
        prose.reverse)) progress.flush statement
      have ahead : Progress document _ [] lines (number + 1) := progress.flush.take [line] rfl
      have later := ih _ ahead added
      rw [ahead.start] at later
      exact (prosed.trans stated).trans later
  | @tagged depth number prose line more rest tags parts _ _ _ scanned _ ih =>
      intro front progress builder next added
      rw [addParts_prose] at added
      obtain ⟨after, taken, others⟩ := addParts_cons_ok added
      have prosed := grows_prose noFeed builder progress
      have tagged := grows_tagged noFeed _ progress.flush scanned taken
      have past : number + 1 + more.length = number + (line :: more).length := by
        rw [List.length_cons]
        omega
      have ahead : Progress document _ [] rest (number + 1 + more.length) :=
        progress.flush.take (line :: more) past
      have later := ih _ ahead others
      rw [ahead.start] at later
      exact (prosed.trans tagged).trans later
  | unterminated _ _ _ _ =>
      intro front progress builder next added
      rw [addParts_prose] at added
      obtain ⟨after, refused, -⟩ := addParts_cons_ok added
      simp [addPart] at refused

end Builder

theorem stands_dataNode (inside rest : List Text) (first : Text) :
    (dataNode inside).StandsAt (first :: rest) ⟨1, 1⟩ where
  position := rfl
  line := ⟨Int.le_refl 1, by simp only [List.length_cons]; omega⟩
  column := Int.le_refl 1
  source := Or.inl rfl

theorem BodyOf.progress {document body : List Text} {number : Nat} {nodes : List Node}
    (start : BodyOf document number nodes body) :
    ∃ front, Progress document front [] body number := by
  cases start with
  | whole => exact ⟨[], rfl, rfl⟩
  | @afterData inside body split =>
      obtain ⟨first, stop, rfl, -, -, -⟩ := splitData?_eq_some split
      exact ⟨first :: (inside ++ [stop]), by simp, by simp⟩

theorem BodyOf.noFeed {text : Text} {number : Nat} {nodes : List Node} {body : List Text}
    (start : BodyOf (Text.lines text) number nodes body) : ∀ line ∈ body, '\n' ∉ line := by
  intro line member
  obtain ⟨front, progress⟩ := start.progress
  refine @Text.noFeed_lines text line ?_
  rw [progress.split]
  simp [member]

/-- A tree is the nodes before the body of its document and a trail of nodes on the lines of the
body. -/
theorem parse_trail {text : Text} {tree : Node} (parsed : parse text = .ok tree) :
    ∃ number before body nodes others, BodyOf (Text.lines text) number before body ∧
      tree = .root nodes (some ⟨1, 1⟩) ∧ Node.run nodes = Node.run before ++ others ∧
      Trail (Text.lines text) (lineStart number) (lineStart ((Text.lines text).length + 1))
        others := by
  obtain ⟨number, before, body, nodes, start, rfl, added⟩ := addParts_of_parse parsed
  obtain ⟨front, progress⟩ := start.progress
  obtain ⟨others, run, trail⟩ := Builder.grows_addParts (fun line => Text.noFeed_lines)
    (partsFrom_cut 0 number [] body) front progress added
  refine ⟨number, before, body, nodes, others, start, rfl, ?_, progress.start ▸ trail⟩
  simpa [Builder.run, Builder.add, Builder.empty] using run

theorem follows_start {lines : List Text} {first second : Node} {place : Position}
    (position : first.position = some ⟨1, 1⟩) (noComponent : first.name? = none)
    (stands : second.StandsAt lines place) : first.Follows second := by
  have line := stands.line.1
  have column := stands.column
  refine ⟨⟨1, 1⟩, place, position, stands.position, ?_, by simp [noComponent]⟩
  simp only [Position.UpTo]
  omega

/-- Every node of a tree but its root stands on a line of the document: a component where its
opening tag is, any other node but the block of data at a character that is no white space. On the
way through the tree places do not go back, and each component has a later place than the component
before it. -/
theorem parse_places {text : Text} {tree : Node} (parsed : parse text = .ok tree) :
    (∀ node ∈ tree.preorder.tail, ∃ place, node.StandsAt (Text.lines text) place) ∧
      tree.preorder.Pairwise Node.Follows := by
  obtain ⟨number, before, body, nodes, others, start, rfl, run, trail⟩ := parse_trail parsed
  have stands : ∀ node ∈ Node.run nodes, ∃ place, node.StandsAt (Text.lines text) place := by
    intro node member
    rw [run] at member
    rcases List.mem_append.mp member with first | later
    · cases start with
      | whole => simp [Node.run, Node.preorders] at first
      | @afterData inside body split =>
          obtain ⟨opening, stop, lines, -, -, -⟩ := splitData?_eq_some split
          obtain rfl : node = dataNode inside := by
            simpa [Node.run, Node.preorders, Node.preorder, dataNode, Node.alone] using first
          exact ⟨⟨1, 1⟩, lines ▸ stands_dataNode inside _ opening⟩
    · obtain ⟨place, here, -⟩ := trail.stands node later
      exact ⟨place, here⟩
  have ordered : (Node.run nodes).Pairwise Node.Follows := by
    rw [run]
    cases start with
    | whole => exact trail.ordered
    | afterData =>
        apply List.pairwise_cons.mpr
        refine ⟨?_, trail.ordered⟩
        intro node member
        obtain ⟨place, here, -⟩ := trail.stands node member
        exact follows_start rfl rfl here
  have below : ∀ node ∈ Node.preorders nodes, ∃ place, node.StandsAt (Text.lines text) place := by
    intro node member
    obtain ⟨place, here⟩ := stands node.alone (List.mem_map_of_mem member)
    exact ⟨place, here.of_alone⟩
  refine ⟨below, List.pairwise_cons.mpr ⟨?_, ?_⟩⟩
  · intro node member
    obtain ⟨place, here⟩ := below node member
    exact follows_start rfl rfl here
  · exact (List.pairwise_map.mp ordered).imp Node.Follows.of_alone

theorem parse_places_nested :
    ∃ tree, parse "---\na: b\n---\n<A>\n <B/></A>\n" = .ok tree ∧
      tree.preorder.tail.map Node.position = [some ⟨1, 1⟩, some ⟨4, 1⟩, some ⟨5, 2⟩] ∧
      (∀ node ∈ tree.preorder.tail, ∃ place,
        node.StandsAt (Text.lines "---\na: b\n---\n<A>\n <B/></A>\n") place) ∧
      tree.preorder.Pairwise Node.Follows := by
  have parsed : parse "---\na: b\n---\n<A>\n <B/></A>\n" =
      .ok (.root [dataNode ["a: b"], .component "A" [] [.component "B" [] [] (some ⟨5, 2⟩)]
        (some ⟨4, 1⟩)] (some ⟨1, 1⟩)) := by
    rfl
  exact ⟨_, parsed, rfl, parse_places parsed⟩

end MdxCheck.Document
