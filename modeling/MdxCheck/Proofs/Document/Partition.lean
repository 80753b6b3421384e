import MdxCheck.Proofs.Document.Forest
import MdxCheck.Proofs.Document.Passages
import MdxCheck.Proofs.Document.Places

/-!
A document is cut without loss. Its block of data and its parts take its lines one after the other,
each line once, and the Markdown that a run of prose is read as has a line for each line of the run.
-/

namespace MdxCheck.Document

namespace Part

def first : Part → Nat
  | prose first _ => first
  | statement line _ => line
  | tagged first _ _ => first
  | unterminated first _ _ => first

/-- The lines of a part as they stand in the document. -/
def lines : Part → List Text
  | prose _ lines => lines
  | statement _ source => [source]
  | tagged _ source _ => Text.splitOn (· == '\n') source
  | unterminated _ source _ => Text.splitOn (· == '\n') source

def numbered (part : Part) : List (Text × Nat) :=
  part.lines.zipIdx part.first

/-- The first of some lines starts with a tag, and the others are as many as its tags need. -/
def AreTagged : List Text → Prop
  | [] => False
  | line :: more => startsWithTag line = true ∧ extension line more = more

/-- What the lines of a part are: a run of prose, a statement, or lines that start with a tag. -/
def Fits (part : Part) : Prop :=
  match part with
  | prose _ lines => lines ≠ []
  | statement _ source => isStatement source = true
  | tagged _ _ _ => AreTagged part.lines
  | unterminated _ _ _ => AreTagged part.lines

theorem Fits.lines_ne_nil {part : Part} (fits : part.Fits) : part.lines ≠ [] := by
  cases part with
  | prose => exact fits
  | statement => simp [lines]
  | tagged => exact Text.splitOn_ne_nil _ _
  | unterminated => exact Text.splitOn_ne_nil _ _

end Part

theorem numbered_proseBefore {start number : Nat} {prose : List Text}
    (count : number = start + prose.length) :
    (proseBefore number prose).flatMap Part.numbered = prose.reverse.zipIdx start := by
  subst count
  cases prose <;> simp [proseBefore, Part.numbered, Part.lines, Part.first]

theorem fits_proseBefore {number : Nat} {prose : List Text} :
    ∀ part ∈ proseBefore number prose, part.Fits := by
  cases prose <;> simp [proseBefore, Part.Fits]

theorem numbered_flush (part : Part) {start : Nat} {prose taken rest : List Text} {parts : List Part}
    (count : part.first = start + prose.length) (lines : part.lines = taken)
    (later : parts.flatMap Part.numbered = rest.zipIdx (part.first + taken.length)) :
    (proseBefore part.first prose ++ part :: parts).flatMap Part.numbered =
      (prose.reverse ++ (taken ++ rest)).zipIdx start := by
  rw [List.flatMap_append, List.flatMap_cons, numbered_proseBefore count, later, List.zipIdx_append,
    List.zipIdx_append, Part.numbered, lines, List.length_reverse, count]

theorem splitOn_source {line : Text} {more : List Text}
    (noFeed : ∀ other ∈ line :: more, '\n' ∉ other) :
    Text.splitOn (· == '\n') (Text.unlines (line :: more)) = line :: more :=
  Text.splitOn_unlines (List.cons_ne_nil line more) noFeed

/-- The parts from line `number` on hold the lines that wait and then those from line `number` on,
each of them once and under its number. -/
theorem numbered_of_cut {depth number : Nat} {prose lines : List Text} {parts : List Part}
    (cut : Cut depth number prose lines parts) :
    ∀ {start}, number = start + prose.length → (∀ line ∈ lines, '\n' ∉ line) →
      parts.flatMap Part.numbered = (prose.reverse ++ lines).zipIdx start := by
  induction cut with
  | done depth number prose =>
      intro start count noFeed
      rw [numbered_proseBefore count, List.append_nil]
  | @prose depth number prose line lines parts _ _ _ ih =>
      intro start count noFeed
      have waiting : number + 1 = start + (line :: prose).length := by
        rw [count, List.length_cons, Nat.add_assoc]
      simpa using ih waiting (List.forall_mem_cons.mp noFeed).2
  | @fenced depth number prose line run code stop rest parts _ _ _ _ ih =>
      intro start count noFeed
      have waiting : number + 1 + code.length + 1 =
          start + (stop :: (code.reverse ++ line :: prose)).length := by
        simp only [List.length_cons, List.length_append, List.length_reverse]
        omega
      rw [ih waiting fun other member => noFeed other (by simp [member])]
      simp
  | @openFence depth number prose line run code _ _ =>
      intro start count noFeed
      have waiting : number + 1 + code.length = start + (code.reverse ++ line :: prose).length := by
        simp only [List.length_cons, List.length_append, List.length_reverse]
        omega
      rw [numbered_proseBefore waiting]
      simp
  | @statement depth number prose line lines parts _ _ _ _ ih =>
      intro start count noFeed
      have later := ih (Nat.add_zero _).symm (List.forall_mem_cons.mp noFeed).2
      exact numbered_flush (.statement number line) count rfl later
  | @tagged depth number prose line more rest tags parts _ _ _ _ _ ih =>
      intro start count noFeed
      rw [← List.cons_append, List.forall_mem_append] at noFeed
      have past : number + 1 + more.length = number + (line :: more).length := by
        rw [List.length_cons]
        omega
      have later := ih past noFeed.2
      exact numbered_flush (.tagged number _ tags) count (splitOn_source noFeed.1) later
  | @unterminated depth number prose line more tags offset _ _ _ _ =>
      intro start count noFeed
      have none : ([] : List Part).flatMap Part.numbered =
          ([] : List Text).zipIdx (number + (line :: more).length) := rfl
      have last := numbered_flush (.unterminated number _ offset) count (splitOn_source noFeed) none
      rwa [List.append_nil] at last

theorem extension_of_append {more rest : List Text} :
    ∀ {source}, extension source (more ++ rest) = more → extension source more = more := by
  induction more with
  | nil =>
      intro source _
      rfl
  | cons line more ih =>
      intro source taken
      simp only [List.cons_append, extension] at taken ⊢
      split at taken
      next => simp at taken
      next pending =>
        rw [if_neg pending, ih (List.cons.inj taken).2]

theorem fits_of_cut {depth number : Nat} {prose lines : List Text} {parts : List Part}
    (cut : Cut depth number prose lines parts) :
    (∀ line ∈ lines, '\n' ∉ line) → ∀ part ∈ parts, part.Fits := by
  induction cut with
  | done => exact fun _ => fits_proseBefore
  | prose _ _ _ ih => exact fun noFeed => ih (List.forall_mem_cons.mp noFeed).2
  | fenced _ _ _ _ ih =>
      intro noFeed
      exact ih fun line member => noFeed line (by simp [member])
  | openFence => exact fun _ => fits_proseBefore
  | statement _ _ statement _ ih =>
      intro noFeed
      exact forall_flush fits_proseBefore statement (ih (List.forall_mem_cons.mp noFeed).2)
  | tagged _ tag taken _ _ ih =>
      intro noFeed
      rw [← List.cons_append, List.forall_mem_append] at noFeed
      refine forall_flush fits_proseBefore ?_ (ih noFeed.2)
      simp only [Part.Fits, Part.lines, splitOn_source noFeed.1]
      exact ⟨tag, extension_of_append taken⟩
  | unterminated _ tag taken _ =>
      intro noFeed
      refine forall_flush fits_proseBefore ?_ (by simp)
      simp only [Part.Fits, Part.lines, splitOn_source noFeed]
      exact ⟨tag, taken⟩

/-! The Markdown of a run of prose. -/

/-- A line as it stands in Markdown, without so many characters of white space in front; a blank
one is empty there. -/
inductive Outdents (indent : Nat) : Text → Text → Prop
  | blank {line} : Text.isBlankText line = true → Outdents indent line []
  | solid {gap rest} : gap.length = indent → Text.isBlankText gap = true →
      Text.isBlankText rest = false → Outdents indent (gap ++ rest) rest

/-- The widest indent that all lines which are not blank have. -/
structure IsCommonIndent (lines : List Text) (indent : Nat) : Prop where
  below : ∀ line ∈ lines, Text.isBlankText line = false → indent ≤ Text.indentWidth line
  reached : (∃ line ∈ lines, Text.isBlankText line = false) →
    ∃ line ∈ lines, Text.isBlankText line = false ∧ Text.indentWidth line = indent

/-- The lines of a run from line `first` on follow one another in the document, and `source` has a
line for each of them, which is that line without their common indent. -/
structure IsChunk (document : List Text) (first : Nat) (lines : List Text) (source : Text) :
    Prop where
  run : ∃ front rest, document = front ++ (lines ++ rest) ∧ first = front.length + 1
  markdown : ∃ indent, IsCommonIndent lines indent ∧
    List.Forall₂ (Outdents indent) lines (Text.splitOn (· == '\n') source)

/-- The nodes for a run from line `first` on are what Markdown finds in `source`, token by token, each on
the line of the run that its token is on. -/
def AreReadFrom (source : Text) (first : Nat) (lines : List Text) (nodes : List Node) : Prop :=
  let blocks := Markdown.Blocks.ofText source
  List.Forall₂ (Becomes (linePosition first lines) (Markdown.Inline.shown blocks.labels))
    (blocks.tokens.map Markdown.Token.typed) (Node.eventsOf nodes)

theorem isCommonIndent_commonIndent (lines : List Text) :
    IsCommonIndent lines (commonIndent lines) := by
  cases found : ((lines.filter fun line => !Text.isBlankText line).map Text.indentWidth).min? with
  | none =>
      have noSolid : ∀ line ∈ lines, Text.isBlankText line = true := by
        simpa using List.min?_eq_none_iff.mp found
      constructor
      · intro line member solid
        simp [noSolid line member] at solid
      · rintro ⟨line, member, solid⟩
        simp [noSolid line member] at solid
  | some least =>
      obtain ⟨among, below⟩ := List.min?_eq_some_iff.mp found
      have same : commonIndent lines = least := by
        rw [commonIndent, found]
        rfl
      rw [same]
      constructor
      · intro line member solid
        exact below _ (List.mem_map_of_mem (List.mem_filter.mpr ⟨member, by simp [solid]⟩))
      · intro _
        obtain ⟨line, kept, width⟩ := List.mem_map.mp among
        obtain ⟨member, solid⟩ := List.mem_filter.mp kept
        exact ⟨line, member, by simpa using solid, width⟩

theorem outdents_drop {line : Text} {indent : Nat} (solid : Text.isBlankText line = false)
    (below : indent ≤ Text.indentWidth line) : Outdents indent line (line.drop indent) := by
  have width : (line.take indent).length = indent := by
    have within := (List.takeWhile_prefix Text.isBlank (l := line)).length_le
    rw [Text.indentWidth] at below
    rw [List.length_take]
    omega
  have inIndent : line.take indent <+: line.takeWhile Text.isBlank :=
    List.prefix_of_prefix_length_le (List.take_prefix indent line) (List.takeWhile_prefix _)
      (width.trans_le below)
  have gap : Text.isBlankText (line.take indent) = true := by
    apply List.all_eq_true.mpr
    intro c member
    exact List.mem_takeWhile_imp (inIndent.subset member)
  have whole : (Text.isBlankText (line.take indent) && Text.isBlankText (line.drop indent)) =
      Text.isBlankText line := by
    simp only [Text.isBlankText, ← List.all_append, List.take_append_drop]
  have rest : Text.isBlankText (line.drop indent) = false := by
    simpa [gap, solid] using whole
  have outdents := Outdents.solid width gap rest
  rwa [List.take_append_drop] at outdents

theorem forall₂_outdents_dedent (lines : List Text) :
    List.Forall₂ (Outdents (commonIndent lines)) lines (dedent lines) := by
  rw [dedent, List.forall₂_map_right_iff, List.forall₂_same]
  intro line member
  split
  next blank => exact .blank blank
  next notBlank =>
    have solid : Text.isBlankText line = false := by simpa using notBlank
    exact outdents_drop solid ((isCommonIndent_commonIndent lines).below line member solid)

/-! The whole document. -/

/-- The lines of the block of data that a document begins with, and the node that they become.
There are none if no such block comes first. -/
inductive Block (lines : List Text) : List Text → List Node → Prop
  | none : (∀ first inside stop body, ¬DataLines lines first inside stop body) → Block lines [] []
  | data {first inside stop body} : DataLines lines first inside stop body →
      Block lines (first :: (inside ++ [stop])) [dataNode inside]

def documentParts (text : Text) : List Part :=
  match splitData? (Text.lines text) with
  | some (inside, body) => partsFrom .plain 0 (inside.length + 3) [] body
  | none => partsFrom .plain 0 1 [] (Text.lines text)

theorem BodyOf.documentParts {text : Text} {number : Nat} {before : List Node} {body : List Text}
    (start : BodyOf (Text.lines text) number before body) :
    documentParts text = partsFrom .plain 0 number [] body := by
  cases start with
  | whole split => simp [Document.documentParts, split]
  | afterData split => simp [Document.documentParts, split]

theorem BodyOf.before_eq {lines body other : List Text} {number place : Nat}
    {before around : List Node} (left : BodyOf lines number before body)
    (right : BodyOf lines place around other) : around = before := by
  cases left <;> cases right <;> simp_all

theorem BodyOf.passagesOf {lines body : List Text} {number : Nat} {before : List Node}
    (start : BodyOf lines number before body) :
    Node.passagesOf before = before.map .node := by
  cases start <;> rfl

theorem BodyOf.exists_block {lines body : List Text} {number : Nat} {before : List Node}
    (start : BodyOf lines number before body) :
    ∃ block, Block lines block before ∧ lines = block ++ body ∧ number = 1 + block.length := by
  cases start with
  | whole split =>
      refine ⟨[], .none ?_, rfl, rfl⟩
      intro first inside stop body data
      simp [splitData?_of_dataLines data] at split
  | @afterData inside _ split =>
      obtain ⟨first, stop, data⟩ := splitData?_eq_some split
      refine ⟨_, .data data, by simp [data.split], ?_⟩
      simp only [List.length_cons, List.length_append, List.length_nil]
      omega

theorem exists_run_of_numbered {document : List Text} {front rest : List (Text × Nat)} {part : Part}
    (fits : part.Fits) (all : front ++ (part.numbered ++ rest) = document.zipIdx 1) :
    ∃ before after, document = before ++ (part.lines ++ after) ∧ part.first = before.length + 1 := by
  obtain ⟨before, others, rfl, -, later⟩ := List.zipIdx_eq_append_iff.mp all.symm
  obtain ⟨here, after, rfl, numbered, -⟩ := List.zipIdx_eq_append_iff.mp later.symm
  have same : part.lines = here := by
    have texts := congrArg (List.map Prod.fst) numbered
    rwa [Part.numbered, List.zipIdx_map_fst, List.zipIdx_map_fst] at texts
  refine ⟨before, after, by rw [same], ?_⟩
  obtain ⟨line, more, cons⟩ := List.exists_cons_of_ne_nil fits.lines_ne_nil
  rw [Part.numbered, ← same, cons, List.zipIdx_cons, List.zipIdx_cons] at numbered
  simp only [List.cons.injEq, Prod.mk.injEq, true_and] at numbered
  omega

theorem isChunk_of_mem {text : Text} {front : List (Text × Nat)}
    (fits : ∀ part ∈ documentParts text, part.Fits)
    (all : front ++ (documentParts text).flatMap Part.numbered = (Text.lines text).zipIdx 1)
    {first : Nat} {lines : List Text} (member : .prose first lines ∈ documentParts text) :
    IsChunk (Text.lines text) first lines (proseText lines) := by
  obtain ⟨before, after, parts⟩ := List.append_of_mem member
  rw [parts, List.flatMap_append, List.flatMap_cons, ← List.append_assoc] at all
  obtain ⟨start, rest, split, number⟩ := exists_run_of_numbered (fits _ member) all
  have noFeed : ∀ line ∈ lines, '\n' ∉ line := by
    intro line inside
    have inText : line ∈ Text.lines text := by
      rw [split]
      exact List.mem_append_right _ (List.mem_append_left _ inside)
    exact Text.noFeed_lines inText
  have nonempty : dedent lines ≠ [] := by
    simpa [dedent, Part.lines] using (fits _ member).lines_ne_nil
  refine ⟨⟨start, rest, split, number⟩, commonIndent lines, isCommonIndent_commonIndent lines, ?_⟩
  rw [proseText, Text.splitOn_unlines nonempty (noFeed_dedent noFeed)]
  exact forall₂_outdents_dedent lines

/-- Once the parts make a tree, no tag among them lacks its end. -/
theorem complete_of_addParts {depth number : Nat} {prose lines : List Text} {parts : List Part}
    (cut : Cut depth number prose lines parts) {builder next : Builder}
    (added : builder.addParts parts = .ok next) : ∀ part ∈ parts, part.Complete := by
  obtain ⟨complete, last, rfl, ends, openEnd⟩ := cut.complete_append
  rw [Builder.addParts_append] at added
  obtain ⟨after, -, others⟩ := exists_of_bind_ok added
  cases openEnd with
  | none => rwa [List.append_nil]
  | unterminated => simp [Builder.addParts, Builder.addPart, bind, Except.bind] at others

/-- The block of data and the parts of a document take its lines one after the other, each line
once. The Markdown of a run of prose has its lines without their common indent, and its nodes are read
from that. If the document has a tree, all tags in the parts have their ends, and the tree is, from left
to right, the block and what the parts leave. -/
theorem parse_partition (text : Text) :
    ∃ block before, Block (Text.lines text) block before ∧
      block.zipIdx 1 ++ (documentParts text).flatMap Part.numbered = (Text.lines text).zipIdx 1 ∧
      (∀ part ∈ documentParts text, part.Fits) ∧
      (∀ first lines, .prose first lines ∈ documentParts text →
        IsChunk (Text.lines text) first lines (proseText lines) ∧
          (lines.all Text.isBlankText = false →
            AreReadFrom (proseText lines) first lines (proseNodes first lines))) ∧
      ∀ tree, parse text = .ok tree →
        (∀ part ∈ documentParts text, part.Complete) ∧
        ∃ nodes, tree = .root nodes (some ⟨1, 1⟩) ∧
          Node.passagesOf nodes =
            before.map .node ++ (documentParts text).flatMap Part.passages := by
  obtain ⟨number, before, body, start, -, -⟩ := parse_eq_parseBody text
  obtain ⟨block, isBlock, split, count⟩ := start.exists_block
  have cut := partsFrom_cut 0 number [] body
  have noFeed := start.noFeed
  rw [← start.documentParts] at cut
  have fits := fits_of_cut cut noFeed
  have all : block.zipIdx 1 ++ (documentParts text).flatMap Part.numbered =
      (Text.lines text).zipIdx 1 := by
    have waiting : number = 1 + block.length + ([] : List Text).length := count
    rw [numbered_of_cut cut waiting noFeed, List.reverse_nil, List.nil_append, split,
      List.zipIdx_append]
  refine ⟨block, before, isBlock, all, fits, fun first lines member => ?_, ?_⟩
  · exact ⟨isChunk_of_mem fits all member, becomes_proseNodes first⟩
  intro tree parsed
  obtain ⟨place, around, others, nodes, begins, rfl, added⟩ := addParts_of_parse parsed
  obtain rfl := begins.before_eq start
  rw [← begins.documentParts] at added
  refine ⟨complete_of_addParts cut added, nodes, rfl, ?_⟩
  have passages := Builder.passages_addParts added
  rw [Builder.passages_add, begins.passagesOf] at passages
  simpa [Builder.passages, Builder.empty, Node.passagesOf] using passages

theorem parse_partition_indented :
    ∃ (text : Text) (block : List Text) (before nodes : List Node),
      text = "---\na: b\n---\nimport x\n<A\n b>\n  c\n\n   d\n</A>\n".toList ∧
      parse text = .ok (.root nodes (some ⟨1, 1⟩)) ∧ Block (Text.lines text) block before ∧
      (documentParts text).map Part.lines =
        ([["import x"], ["<A", " b>"], ["  c", "", "   d"], ["</A>"]] : List (List Text)) ∧
      block.zipIdx 1 ++ (documentParts text).flatMap Part.numbered = (Text.lines text).zipIdx 1 ∧
      IsChunk (Text.lines text) 7 ["  c", "", "   d"] "c\n\n d" ∧
      Node.passagesOf nodes =
        before.map .node ++ (documentParts text).flatMap Part.passages := by
  let text : Text := "---\na: b\n---\nimport x\n<A\n b>\n  c\n\n   d\n</A>\n"
  obtain ⟨block, before, isBlock, all, -, chunks, made⟩ := parse_partition text
  have ok : (parse text).toOption.isSome = true := by decide +kernel
  cases parsed : parse text with
  | error error => simp [parsed, Except.toOption] at ok
  | ok tree =>
      obtain ⟨-, nodes, rfl, passages⟩ := made tree parsed
      refine ⟨text, block, before, nodes, rfl, parsed, isBlock, by decide +kernel, all, ?_, passages⟩
      exact (chunks 7 ["  c", "", "   d"] (by decide +kernel)).1

end MdxCheck.Document
