import MdxCheck.Proofs.Document.ProsePlaces
import MdxCheck.Proofs.Markdown.Advance
import MdxCheck.Proofs.Text.Blank

/-!
The nodes at the top of a run of prose: one for each block, on a line of its own. A paragraph among
them has one text, which shows the lines of its block.
-/

namespace MdxCheck.Document

open Markdown (Token View Blocks Line linesOf)

/-- Tokens that close what they open add these nodes to the innermost open container. -/
def Makes (place : Nat → Position) (shown : Text → Text) (tokens : List Token)
    (made : List Node) : Prop :=
  ∀ opened nodes rest, nodesFrom? place shown opened nodes (tokens.map Token.typed ++ rest) =
    nodesFrom? place shown opened (nodes ++ made) rest

namespace Makes

variable {place : Nat → Position} {shown : Text → Text} {tokens : List Token} {made : List Node}

theorem nil : Makes place shown [] [] := by
  intro opened nodes rest
  rw [List.map_nil, List.nil_append, List.append_nil]

theorem append {further : List Token} {others : List Node} (left : Makes place shown tokens made)
    (right : Makes place shown further others) :
    Makes place shown (tokens ++ further) (made ++ others) := by
  intro opened nodes rest
  rw [List.map_append, List.append_assoc, left, right, List.append_assoc]

theorem inline (source : Text) (line : Nat) :
    Makes place shown [.inline source line] [.text (shown source) (some (place line))] := by
  intro opened nodes rest
  rw [List.map_singleton, List.singleton_append, Token.typed, nodesFrom?, singleNode_inline,
    Option.map_some]

theorem leaf (kind : Markdown.LeafKind) (content : Text) (line past : Nat) :
    Makes place shown [.leaf kind content line past]
      [.element (kindOf kind.type) [] (some content) (some (place line))] := by
  intro opened nodes rest
  rw [List.map_singleton, List.singleton_append, Token.typed, nodesFrom?, singleNode_leaf,
    Option.map_some]

theorem wrap (makes : Makes place shown tokens made) (kind : Markdown.ContainerKind)
    (line : Nat) :
    Makes place shown (Token.wrap kind line tokens)
      [containerNode kind.type made (some (place line))] := by
  intro opened nodes rest
  rw [Token.wrap, List.map_cons, List.map_append, List.cons_append, List.append_assoc, Token.typed,
    nodesFrom?, makes, List.map_singleton, List.singleton_append, Token.typed, nodesFrom?,
    List.nil_append, Option.map_some]

theorem nodesFrom?_eq (makes : Makes place shown tokens made) :
    nodesFrom? place shown [] [] (tokens.map Token.typed) = some made := by
  have whole := makes [] [] []
  rw [List.append_nil, List.nil_append, nodesFrom?] at whole
  exact whole

end Makes

/-- A node at the top that the block on line `start` of a view gives. -/
inductive IsTop (place : Nat → Position) (shown : Text → Text) (view : View) (start : Nat) :
    Node → Prop
  | paragraph {past : Nat} : start < past → past ≤ max view.limit (start + 1) →
      IsTop place shown view start (.paragraph
        [.text (shown (Blocks.textOf view start past)) (some (place start))] (some (place start)))
  | element {kind : Text} {children : List Node} {value : Option Text} :
      IsTop place shown view start (.element kind children value (some (place start)))

theorem isTop_containerNode {place : Nat → Position} {shown : Text → Text} {view : View}
    {start : Nat} {kind : Markdown.ContainerKind} (other : kind ≠ .paragraph)
    (nodes : List Node) :
    IsTop place shown view start (containerNode kind.type nodes (some (place start))) := by
  rw [containerNode, if_neg (type_ne_paragraph other)]
  exact .element

section Readers

variable {place : Nat → Position} {shown : Text → Text}

variable (place shown) in
/-- The tokens that a reader gives close what they open. -/
def GivesNodes (reader : Blocks.Reader) : Prop :=
  ∀ view start stop, ∃ made, Makes place shown (reader view start stop).tokens made

variable (place shown) in
/-- The tokens of a block give a node at the top or none. -/
def GivesTop (view : View) (start : Nat) (tokens : List Token) : Prop :=
  ∃ node? : Option Node, Makes place shown tokens node?.toList ∧
    ∀ node ∈ node?, IsTop place shown view start node

theorem GivesTop.wrap {view : View} {start : Nat} {tokens : List Token} {made : List Node}
    (makes : Makes place shown tokens made) {kind : Markdown.ContainerKind}
    (other : kind ≠ .paragraph) :
    GivesTop place shown view start (Token.wrap kind start tokens) := by
  refine ⟨some _, makes.wrap kind start, fun node same => ?_⟩
  obtain rfl := Option.some.inj same
  exact isTop_containerNode other made

theorem GivesTop.leaf {view : View} {start : Nat} (kind : Markdown.LeafKind) (content : Text)
    (past : Nat) : GivesTop place shown view start [.leaf kind content start past] := by
  refine ⟨some _, .leaf kind content start past, fun node same => ?_⟩
  obtain rfl := Option.some.inj same
  exact .element

theorem items_givesNodes {inside : Blocks.Reader} (nests : GivesNodes place shown inside)
    (view : View) (stop fuel : Nat) : ∀ marker start, ∃ made,
      Makes place shown (Blocks.items inside view stop fuel marker start).tokens made := by
  have one (marker : Markdown.ListMarker) (start : Nat) : ∃ made,
      Makes place shown (Blocks.item inside view marker start stop).tokens made := by
    simp only [Blocks.item]
    split
    · exact ⟨_, Makes.nil.wrap .listItem start⟩
    · obtain ⟨made, makes⟩ := nests _ start stop
      exact ⟨_, makes.wrap .listItem start⟩
  induction fuel with
  | zero => exact fun marker start => ⟨[], .nil⟩
  | succ fuel ih =>
      intro marker start
      obtain ⟨made, makes⟩ := one marker start
      simp only [Blocks.items]
      split
      · exact ⟨made, makes⟩
      split
      · obtain ⟨others, further⟩ := ih _ _
        exact ⟨made ++ others, makes.append further⟩
      · exact ⟨made, makes⟩

theorem paragraphPast_le (view : View) (fuel : Nat) :
    ∀ number, Blocks.paragraphPast view fuel number ≤ max view.limit number := by
  induction fuel with
  | zero => exact fun number => Nat.le_max_right _ _
  | succ fuel ih =>
      intro number
      have later := ih (number + 1)
      rw [Blocks.paragraphPast]
      split
      · exact Nat.le_max_right _ _
      · next inside =>
          simp only [Bool.or_eq_true, decide_eq_true_eq, not_or, Nat.not_le] at inside
          split <;> omega

theorem text_givesTop (view : View) (start stop : Nat) :
    GivesTop place shown view start (Blocks.text view start stop).tokens := by
  simp only [Blocks.text]
  split
  · exact .wrap (.inline _ _) (by decide)
  · refine ⟨some _, (Makes.inline _ start).wrap .paragraph start, fun node same => ?_⟩
    obtain rfl := Option.some.inj same
    exact .paragraph (Blocks.paragraphPast_ge view _ _) (paragraphPast_le view _ _)

theorem block_givesTop {inQuote inItem : Blocks.Reader} (quotes : GivesNodes place shown inQuote)
    (lists : GivesNodes place shown inItem) (view : View) (start stop : Nat) :
    GivesTop place shown view start (Blocks.block inQuote inItem view start stop).tokens := by
  simp only [Blocks.block]
  split
  · exact .leaf .indentedCode _ _
  split
  · exact .leaf .fencedCode _ _
  split
  · obtain ⟨made, makes⟩ := quotes _ _ _
    exact .wrap makes (by decide)
  split
  · exact .leaf .thematicBreak _ _
  split
  · next marker _ =>
      obtain ⟨made, makes⟩ := items_givesNodes lists view stop (stop - start + 1) marker start
      refine .wrap makes ?_
      split <;> decide
  split
  · exact ⟨none, .nil, by simp⟩
  split
  · exact .leaf .html _ _
  split
  · exact .wrap (.inline _ _) (by decide)
  · exact text_givesTop view start stop

theorem readWith_givesNodes {next : Blocks.Reader} (nests : GivesNodes place shown next)
    (view : View) (stop fuel : Nat) : ∀ number, ∃ made,
      Makes place shown (Blocks.readWith next view stop fuel number).tokens made := by
  induction fuel with
  | zero => exact fun number => ⟨[], .nil⟩
  | succ fuel ih =>
      intro number
      simp only [Blocks.readWith]
      split
      · exact ⟨[], .nil⟩
      split
      · exact ⟨[], .nil⟩
      · obtain ⟨made, makes⟩ := nests view _ stop
        obtain ⟨others, further⟩ := ih _
        exact ⟨made ++ others, makes.append further⟩

theorem block_givesNodes {inQuote inItem : Blocks.Reader} (quotes : GivesNodes place shown inQuote)
    (lists : GivesNodes place shown inItem) :
    GivesNodes place shown (Blocks.block inQuote inItem) := by
  intro view start stop
  obtain ⟨node?, makes, -⟩ := block_givesTop quotes lists view start stop
  exact ⟨_, makes⟩

theorem read_givesNodes (room : Nat) : GivesNodes place shown (Blocks.read room) := by
  have none : GivesNodes place shown Blocks.readNone := fun view start stop =>
    readWith_givesNodes (fun _ _ _ => ⟨[], .nil⟩) view stop _ start
  induction room using MdxCheck.Markdown.Blocks.read.induct with
  | case1 => exact none
  | case2 =>
      intro view start stop
      exact readWith_givesNodes (block_givesNodes none none) view stop _ start
  | case3 room quotes lists =>
      intro view start stop
      exact readWith_givesNodes (block_givesNodes quotes lists) view stop _ start

/-- Nodes at the top with the lines of their blocks, which go on from line `first`. -/
structure AreTops (place : Nat → Position) (shown : Text → Text) (view : View) (first stop : Nat)
    (tops : List (Nat × Node)) : Prop where
  ordered : (tops.map Prod.fst).Pairwise (· < ·)
  each : ∀ top ∈ tops, first ≤ top.1 ∧ top.1 < stop ∧ (view.line top.1).isEmpty = false ∧
    IsTop place shown view top.1 top.2

theorem AreTops.append {view : View} {first stop start past : Nat} {node? : Option Node}
    {tops : List (Nat × Node)} (here : ∀ node ∈ node?, IsTop place shown view start node)
    (below : first ≤ start) (before : start < stop) (shows : (view.line start).isEmpty = false)
    (less : start < past) (tail : AreTops place shown view past stop tops) :
    AreTops place shown view first stop (node?.toList.map (start, ·) ++ tops) where
  ordered := by
    rw [List.map_append, List.pairwise_append]
    refine ⟨by cases node? <;> simp, tail.ordered, fun number inHead later inTail => ?_⟩
    obtain rfl : number = start := by cases node? <;> simp_all
    obtain ⟨top, member, rfl⟩ := List.mem_map.mp inTail
    exact Nat.lt_of_lt_of_le less (tail.each top member).1
  each top member := by
    rcases List.mem_append.mp member with inHead | inTail
    · obtain ⟨node, given, rfl⟩ := List.mem_map.mp inHead
      exact ⟨below, before, shows, here node (Option.mem_toList.mp given)⟩
    · obtain ⟨low, rest⟩ := tail.each top inTail
      exact ⟨by omega, rest⟩

theorem readWith_tops {next : Blocks.Reader} {view : View} {stop : Nat} (bound : stop ≤ view.limit)
    (tops : ∀ start, GivesTop place shown view start (next view start stop).tokens)
    (forward : ∀ start, start < stop → start < (next view start stop).line) (fuel : Nat) :
    ∀ number, ∃ found, AreTops place shown view number stop found ∧
      Makes place shown (Blocks.readWith next view stop fuel number).tokens
        (found.map Prod.snd) := by
  have none (number : Nat) : AreTops place shown view number stop [] := ⟨.nil, by simp⟩
  induction fuel with
  | zero => exact fun number => ⟨[], none number, .nil⟩
  | succ fuel ih =>
      intro number
      obtain ⟨skipped, shows⟩ := Blocks.skipEmpty_spec view (view.limit - number) number
      simp only [Blocks.readWith]
      split
      · exact ⟨[], none number, .nil⟩
      split
      · exact ⟨[], none number, .nil⟩
      next going =>
      simp only [Bool.or_eq_true, decide_eq_true_eq, not_or, Nat.not_le] at going
      have solid := shows (by omega) (by omega)
      generalize view.skipEmpty (view.limit - number) number = start at *
      obtain ⟨node?, makes, isTop⟩ := tops start
      -- the next block is read further down, so its line comes after that of this one
      have later (past : Nat) (less : start < past) : ∃ found,
          AreTops place shown view number stop found ∧
            Makes place shown ((next view start stop).append
              (Blocks.readWith next view stop fuel past)).tokens (found.map Prod.snd) := by
        obtain ⟨found, areTops, further⟩ := ih past
        refine ⟨_, areTops.append isTop skipped going.1 solid less, ?_⟩
        have same : node?.toList.map (Prod.snd ∘ (start, ·)) = node?.toList := List.map_id _
        rw [List.map_append, List.map_map, same]
        exact makes.append further
      have less := forward start going.1
      split
      · exact later _ (by omega)
      · exact later _ less

theorem read_tops (room : Nat) (view : View) {stop : Nat} (bound : stop ≤ view.limit) :
    ∃ found, AreTops place shown view 0 stop found ∧
      Makes place shown (Blocks.read (room + 2) view 0 stop).tokens (found.map Prod.snd) := by
  apply readWith_tops bound
  · intro start
    exact block_givesTop (read_givesNodes (room + 1)) (read_givesNodes room) view start stop
  · exact fun start before => Blocks.block_advances before bound (Blocks.read_advances (room + 1))
      (Blocks.read_advances room) (Blocks.read_fits room)

end Readers

section Lines

theorem getElem?_linesOf (texts : List Text) : ∀ (number : Nat) (line : Line),
    (linesOf texts)[number]? = some line → ∃ text, texts[number]? = some text ∧
      line = .ofText text (decide (number + 1 < texts.length)) := by
  fun_induction linesOf texts with
  | case1 => simp
  | case2 => simp
  | case3 text notEmpty =>
      intro number line found
      cases number with
      | zero => exact ⟨text, rfl, (Option.some.inj found).symm⟩
      | succ number => simp at found
  | case4 text texts more ih =>
      have nonempty : texts ≠ [] := fun none => more none
      intro number line found
      cases number with
      | zero =>
          refine ⟨text, rfl, ?_⟩
          have further : 0 + 1 < (text :: texts).length := by
            simpa using List.length_pos_iff.mpr nonempty
          rw [decide_eq_true further]
          exact (Option.some.inj found).symm
      | succ number =>
          obtain ⟨other, here, same⟩ := ih number line (by simpa using found)
          exact ⟨other, here, by simpa using same⟩

theorem cut_zero (text : Text) (ended : Bool) : (Line.ofText text ended).cut 0 = text := by
  cases text <;> simp [Line.ofText, Line.cut, Line.cutFrom]

/-- The lines of a whole text from one to another, as the top of the text sees them. -/
theorem cutLines_ofLines (texts : List Text) {past : Nat} (inside : past ≤ (linesOf texts).length)
    (count : Nat) : ∀ first, first + count = past →
      ((List.range' first count).flatMap fun number =>
        ((View.ofLines (linesOf texts)).line number).cut 0 ++
          if ((View.ofLines (linesOf texts)).line number).ended && (number + 1 < past || false)
            then ['\n'] else []) = Text.unlines ((texts.take past).drop first) := by
  induction count with
  | zero =>
      intro first same
      have none : (texts.take past).drop first = [] :=
        List.drop_eq_nil_of_le (by rw [List.length_take]; omega)
      rw [none]
      rfl
  | succ count ih =>
      intro first same
      have here := List.getElem?_eq_getElem (l := linesOf texts) (i := first) (by omega)
      obtain ⟨text, found, isLine⟩ := getElem?_linesOf texts first _ here
      have line : (View.ofLines (linesOf texts)).line first =
          .ofText text (decide (first + 1 < texts.length)) := by
        simp [View.line, View.ofLines, here, isLine]
      have shorter : past ≤ texts.length := by
        have last := List.getElem?_eq_getElem (l := linesOf texts) (i := past - 1) (by omega)
        obtain ⟨other, isThere, -⟩ := getElem?_linesOf texts (past - 1) _ last
        have bound := (List.getElem?_eq_some_iff.mp isThere).1
        omega
      have item : (texts.take past)[first]? = some text := by
        rw [List.getElem?_take_of_lt (by omega), found]
      obtain ⟨long, isText⟩ := List.getElem?_eq_some_iff.mp item
      rw [List.range'_succ, List.flatMap_cons, ih (first + 1) (by omega), line, cut_zero,
        List.drop_eq_getElem_cons long, isText]
      cases count with
      | zero =>
          have none : (texts.take past).drop (first + 1) = [] :=
            List.drop_eq_nil_of_le (by rw [List.length_take]; omega)
          have last : ¬first + 1 < past := by omega
          simp [none, last]
      | succ count =>
          have further : first + 1 < past := by omega
          have ended : first + 1 < texts.length := by omega
          have more : (texts.take past).drop (first + 1) ≠ [] := by
            rw [ne_eq, List.drop_eq_nil_iff, List.length_take]
            omega
          obtain ⟨next, others, rest⟩ := List.exists_cons_of_ne_nil more
          simp [rest, further, Line.ofText, ended]

theorem textOf_ofLines (texts : List Text) {first past : Nat} (less : first < past)
    (inside : past ≤ (linesOf texts).length) :
    Blocks.textOf (.ofLines (linesOf texts)) first past =
      Text.trim (Text.unlines ((texts.take past).drop first)) := by
  rw [Blocks.textOf, View.cutLines]
  exact congrArg Text.trim (cutLines_ofLines texts inside (past - first) first (by omega))

end Lines

section Runs

/-- A paragraph with one text, which shows a source. -/
def shownParagraph (place : Position) (labels : List Text) (source : Text) : Node :=
  .paragraph [.text (Markdown.Inline.shown labels source) (some place)] (some place)

/-- The labels that links in a run of prose may refer to. -/
def runLabels (lines : List Text) : List Text :=
  (Blocks.ofText (proseText lines)).labels

/-- Some lines of a run of prose as Markdown, without white space at their ends. -/
def runSource (lines : List Text) (number past : Nat) : Text :=
  Text.trim ((Text.unlines (((dedent lines).take past).drop number)).map Blocks.cleanChar)

/-- A node at the top of a run of prose, on line `number` of the run. -/
inductive IsRunTop (first : Nat) (lines : List Text) (number : Nat) : Node → Prop
  | paragraph {past : Nat} : number < past → past ≤ lines.length →
      IsRunTop first lines number (shownParagraph (linePosition first lines number)
        (runLabels lines) (runSource lines number past))
  | element {kind : Text} {children : List Node} {value : Option Text} :
      IsRunTop first lines number
        (.element kind children value (some (linePosition first lines number)))

theorem IsRunTop.position {first : Nat} {lines : List Text} {number : Nat} {node : Node}
    (top : IsRunTop first lines number node) :
    node.position = some (linePosition first lines number) := by
  cases top <;> rfl

variable {first : Nat} {lines : List Text}

theorem length_linesOf_le (texts : List Text) : (linesOf texts).length ≤ texts.length := by
  fun_induction linesOf texts with
  | case1 => exact Nat.le_refl _
  | case2 => exact Nat.zero_le _
  | case3 => exact Nat.le_refl _
  | case4 text texts _ ih => exact Nat.succ_le_succ ih

theorem runSource_eq (number past : Nat) : runSource lines number past = Text.trim (Text.unlines
    ((((dedent lines).map (List.map Blocks.cleanChar)).take past).drop number)) := by
  rw [runSource, Text.map_unlines (by decide), List.map_drop, List.map_take]

theorem isRunTop_of_isTop {number : Nat} {node : Node}
    (before : number < (linesOf ((dedent lines).map (List.map Blocks.cleanChar))).length)
    (top : IsTop (linePosition first lines) (Markdown.Inline.shown (runLabels lines))
      (.ofLines (linesOf ((dedent lines).map (List.map Blocks.cleanChar)))) number node) :
    IsRunTop first lines number node := by
  have short := length_linesOf_le ((dedent lines).map (List.map Blocks.cleanChar))
  have same : ((dedent lines).map (List.map Blocks.cleanChar)).length = lines.length := by
    simp [dedent]
  cases top with
  | @paragraph past less bound =>
      have within : past ≤ (linesOf ((dedent lines).map (List.map Blocks.cleanChar))).length := by
        simp only [View.ofLines] at bound
        omega
      rw [textOf_ofLines _ less within, ← runSource_eq]
      exact .paragraph less (by omega)
  | element => exact .element

theorem solid_of_shows {number : Nat} (noFeed : ∀ line ∈ lines, '\n' ∉ line)
    (nonempty : lines ≠ [])
    (shows : ((View.ofLines (linesOf ((dedent lines).map (List.map Blocks.cleanChar)))).line
      number).isEmpty = false) :
    ∃ line, lines[number]? = some line ∧ Text.isBlankText line = false := by
  apply solid_of_dedent noFeed nonempty
  rw [splitOn_proseText noFeed nonempty]
  generalize (dedent lines).map (List.map Blocks.cleanChar) = texts at *
  have body := Markdown.View.body_ne_nil_of_not_isEmpty shows
  cases found : (linesOf texts)[number]? with
  | none => simp [View.line, View.ofLines, found] at body
  | some line =>
      refine ⟨line.body, Blocks.body_of_linesOf texts number line found, ?_⟩
      simpa [View.line, View.ofLines, found] using body

/-- The nodes of a run of prose are those at its top, in the order of their lines. None of these
lines is blank. -/
theorem proseNodes_tops (first : Nat) (noFeed : ∀ line ∈ lines, '\n' ∉ line) :
    ∃ tops : List (Nat × Node), proseNodes first lines = tops.map Prod.snd ∧
      (tops.map Prod.fst).Pairwise (· < ·) ∧
      ∀ top ∈ tops, (∃ line, lines[top.1]? = some line ∧ Text.isBlankText line = false) ∧
        IsRunTop first lines top.1 top.2 := by
  rw [proseNodes]
  split
  · exact ⟨[], rfl, .nil, by simp⟩
  next notBlank =>
  have nonempty : lines ≠ [] := by
    rintro rfl
    simp at notBlank
  have clean := splitOn_proseText noFeed nonempty
  obtain ⟨tops, areTops, makes⟩ := @read_tops (linePosition first lines)
    (Markdown.Inline.shown (runLabels lines)) 18
    (.ofLines (linesOf ((dedent lines).map (List.map Blocks.cleanChar)))) _ (Nat.le_refl _)
  refine ⟨tops, ?_, areTops.ordered, fun top member => ?_⟩
  · have tokens := makes.nodesFrom?_eq
    rw [← clean] at tokens
    exact congrArg (Option.getD · []) tokens
  · obtain ⟨-, before, shows, top⟩ := areTops.each top member
    exact ⟨solid_of_shows noFeed nonempty shows, isRunTop_of_isTop before top⟩

end Runs

end MdxCheck.Document
