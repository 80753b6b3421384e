import MdxCheck.Proofs.Document.ProsePlaces
import MdxCheck.Proofs.Document.Relocate
import MdxCheck.Proofs.Document.Segment
import MdxCheck.Proofs.Text.Indent

/-!
An indented document. White space at the start of a line has no meaning of its own, so the
document is read as before, with its columns moved, as long as each statement starts its line and
each tag ends in the line that it starts in.
-/

namespace MdxCheck

open Text (indentLine indented)

namespace Position

def right (count : Nat) (place : Position) : Position :=
  { place with column := place.column + count }

end Position

/-! The tags of a source after some spaces. -/

namespace Tag

def moveBy (count : Nat) (tag : Tag) : Tag :=
  { tag with start := tag.start + count, stop := tag.stop + count }

def Found.moveBy (count : Nat) (found : Found) : Found :=
  ⟨found.tags.map (Tag.moveBy count), found.unterminated.map (· + count)⟩

theorem ofOpening_add (count offset : Nat) (opening : Opening) (length : Nat) :
    ofOpening (offset + count) opening length = (ofOpening offset opening length).moveBy count := by
  simp only [ofOpening, moveBy, Tag.mk.injEq, true_and]
  omega

theorem scanFrom_add (count : Nat) (text : Text) :
    ∀ skipped offset, scanFrom skipped (offset + count) text =
      (scanFrom skipped offset text).moveBy count := by
  induction text with
  | nil => intro skipped offset; rfl
  | cons c rest ih =>
      intro skipped offset
      have next : offset + count + 1 = offset + 1 + count := by omega
      cases skipped with
      | succ skipped => rw [scanFrom, scanFrom, next, ih]
      | zero =>
          simp only [scanFrom, next, ih]
          cases opening? (c :: rest) with
          | none => rfl
          | some opening =>
              cases tail : tail? 0 none opening.rest with
              | none => simp [tail, Found.moveBy]
              | some length => simp [tail, ofOpening_add, Found.moveBy]

theorem scanFrom_spaces_append (count : Nat) (text : Text) :
    ∀ offset, scanFrom 0 offset (List.replicate count ' ' ++ text) =
      scanFrom 0 (offset + count) text := by
  induction count with
  | zero => intro offset; rfl
  | succ count ih =>
      intro offset
      rw [List.replicate_succ, List.cons_append,
        scanFrom_of_not_opening (opening?_of_isBlank (by decide) _), ih]
      congr 1
      omega

theorem scan_spaces_append (count : Nat) (text : Text) :
    scan (List.replicate count ' ' ++ text) = (scan text).moveBy count := by
  rw [scan, scanFrom_spaces_append, scanFrom_add, scan]

end Tag

namespace Document

/-! What an indent does not change about a line. -/

@[simp] theorem fenceRun?_indentLine (count : Nat) (line : Text) :
    fenceRun? (indentLine count line) = fenceRun? line := by
  simp [fenceRun?]

@[simp] theorem closesFence_indentLine (count : Nat) (run line : Text) :
    closesFence run (indentLine count line) = closesFence run line := by
  simp [closesFence]

@[simp] theorem startsWithTag_indentLine (count : Nat) (line : Text) :
    startsWithTag (indentLine count line) = startsWithTag line := by
  simp [startsWithTag]

@[simp] theorem isBoundary_indentLine (count : Nat) (line : Text) :
    isBoundary (indentLine count line) = isBoundary line := by
  simp [isBoundary]

theorem isStatement_of_indentLine {count : Nat} {line : Text}
    (statement : isStatement (indentLine count line) = true) : isStatement line = true := by
  by_cases blank : Text.isBlankText line = true
  · rwa [indentLine, if_pos blank] at statement
  · rw [Text.indentLine_of_solid count (by simpa using blank)] at statement
    cases count with
    | zero => exact statement
    | succ count =>
        obtain ⟨c, rest, same, letter⟩ := isStatement_head statement
        rw [List.replicate_succ, List.cons_append, List.cons.injEq] at same
        rw [← same.1] at letter
        exact absurd letter (by decide)

theorem noStatement_indentLine {depth count : Nat} {line : Text}
    (noStatement : ¬(depth = 0 ∧ isStatement line = true)) :
    ¬(depth = 0 ∧ isStatement (indentLine count line) = true) := by
  rintro ⟨outside, statement⟩
  exact noStatement ⟨outside, isStatement_of_indentLine statement⟩

theorem isBlankText_of_startsWithTag {line : Text} (starts : startsWithTag line = true) :
    Text.isBlankText line = false := by
  by_contra blank
  have none : line.dropWhile Text.isBlank = [] :=
    List.dropWhile_eq_nil_iff.mpr (by simpa [Text.isBlankText] using blank)
  simp [startsWithTag, none, Tag.opening?] at starts

theorem splitData?_indented (count : Nat) {lines : List Text} (noData : splitData? lines = none) :
    splitData? (lines.map (indentLine count)) = none := by
  cases lines with
  | nil => rfl
  | cons line lines =>
      have same : ((fun line => !isBoundary line) ∘ indentLine count) =
          fun line => !isBoundary line := by
        funext line
        simp
      simp only [splitData?, List.map_cons, isBoundary_indentLine, List.takeWhile_map, same,
        List.length_map, ← List.map_drop] at noData ⊢
      split
      next opens =>
        rw [if_pos opens] at noData
        cases after : lines.drop (lines.takeWhile fun line => !isBoundary line).length with
        | nil => rfl
        | cons stop rest => simp [after] at noData
      next => rfl

/-! The indent of prose goes before it is read. -/

theorem commonIndent_indented (count : Nat) {lines : List Text} {line : Text}
    (member : line ∈ lines) (solid : Text.isBlankText line = false) :
    commonIndent (lines.map (indentLine count)) = commonIndent lines + count := by
  have inside : Text.indentWidth line ∈ (lines.filter fun line => !Text.isBlankText line).map
      Text.indentWidth := List.mem_map_of_mem (List.mem_filter.mpr ⟨member, by simp [solid]⟩)
  have moved : ((lines.map (indentLine count)).filter fun line => !Text.isBlankText line).map
      Text.indentWidth = ((lines.filter fun line => !Text.isBlankText line).map
        Text.indentWidth).map (· + count) := by
    rw [List.filter_map, List.map_map, List.map_map]
    have same : ((fun line => !Text.isBlankText line) ∘ indentLine count) =
        fun line => !Text.isBlankText line := by
      funext line
      simp
    rw [same]
    apply List.map_congr_left
    intro other kept
    have otherSolid : Text.isBlankText other = false := by
      simpa using (List.mem_filter.mp kept).2
    simp [Text.indentLine_of_solid count otherSolid, Text.indentWidth_spaces_append]
  obtain ⟨least, found⟩ : ∃ least, ((lines.filter fun line => !Text.isBlankText line).map
      Text.indentWidth).min? = some least :=
    Option.isSome_iff_exists.mp (List.isSome_min?_of_mem inside)
  obtain ⟨among, below⟩ := List.min?_eq_some_iff.mp found
  have foundToo : (((lines.filter fun line => !Text.isBlankText line).map
      Text.indentWidth).map (· + count)).min? = some (least + count) := by
    refine List.min?_eq_some_iff.mpr ⟨List.mem_map_of_mem among, ?_⟩
    intro width other
    obtain ⟨before, here, rfl⟩ := List.mem_map.mp other
    exact Nat.add_le_add_right (below before here) count
  rw [commonIndent, moved, foundToo, commonIndent, found]
  rfl

theorem dedent_indented (count : Nat) (lines : List Text) :
    dedent (lines.map (indentLine count)) = dedent lines := by
  simp only [dedent, List.map_map]
  apply List.map_congr_left
  intro line member
  simp only [Function.comp_apply, Text.isBlankText_indentLine]
  split
  next => rfl
  next notBlank =>
    have solid : Text.isBlankText line = false := by simpa using notBlank
    have count_le : (List.replicate count ' ').length = count := List.length_replicate
    rw [commonIndent_indented count member solid, Text.indentLine_of_solid count solid,
      Nat.add_comm, ← List.drop_drop, List.drop_left' count_le]

theorem linePosition_indented (count first : Nat) {lines : List Text} {number : Nat} {line : Text}
    (found : lines[number]? = some line) (solid : Text.isBlankText line = false) :
    linePosition first (lines.map (indentLine count)) number =
      (linePosition first lines number).right count := by
  simp only [linePosition, List.getElem?_map, found, Option.map_some, Option.getD_some,
    Text.indentLine_of_solid count solid, Text.indentWidth_spaces_append, Position.right,
    Position.mk.injEq, true_and]
  omega

theorem proseNodes_indented (count first : Nat) {lines : List Text}
    (noFeed : ∀ line ∈ lines, '\n' ∉ line) :
    proseNodes first (lines.map (indentLine count)) =
      Node.relocateAll (Position.right count) (proseNodes first lines) := by
  by_cases nonempty : lines = []
  · rw [nonempty]
    rfl
  · refine proseNodes_relocate _ (dedent_indented count lines) (by simp [Function.comp_def]) ?_
    intro number member
    have fits := Markdown.Blocks.ofText_fits (proseText lines)
    obtain ⟨line, found, solid⟩ :=
      solid_of_dedent noFeed nonempty (fits.within number member).2.2
    exact linePosition_indented count first found solid

theorem take_spaces_append (count stop : Nat) (source : Text) :
    (List.replicate count ' ' ++ source).take (stop + count) =
      List.replicate count ' ' ++ source.take stop := by
  have taken := @List.take_length_add_append _ (List.replicate count ' ') source stop
  rwa [List.length_replicate, Nat.add_comm] at taken

theorem noFeed_spaces_append (count : Nat) {source : Text} (noFeed : '\n' ∉ source) :
    '\n' ∉ List.replicate count ' ' ++ source := by
  intro member
  rcases List.mem_append.mp member with space | inside
  · exact absurd (List.eq_of_mem_replicate space) (by decide)
  · exact noFeed inside

namespace Builder

theorem sourcePosition_of_noFeed (first : Nat) {source : Text} (noFeed : '\n' ∉ source)
    (offset : Nat) :
    sourcePosition first source offset = ⟨first, (source.take offset).length + 1⟩ := by
  have free : '\n' ∉ (source.take offset).reverse := fun member =>
    noFeed (List.mem_of_mem_take (List.mem_reverse.mp member))
  simp only [sourcePosition, Text.count_take_line noFeed, Text.takeWhile_noFeed free,
    List.length_reverse]
  rfl

section

variable (count first : Nat) {source : Text} (noFeed : '\n' ∉ source)

include noFeed

theorem sourcePosition_spaces_append (offset : Nat) :
    sourcePosition first (List.replicate count ' ' ++ source) (offset + count) =
      (sourcePosition first source offset).right count := by
  rw [sourcePosition_of_noFeed first (noFeed_spaces_append count noFeed),
    sourcePosition_of_noFeed first noFeed, take_spaces_append, List.length_append,
    List.length_replicate]
  simp only [Position.right, Position.mk.injEq, true_and]
  omega

theorem phrase_spaces_append_of_add (start stop : Nat) :
    phrase first (List.replicate count ' ' ++ source) (start + count) (stop + count) =
      Node.relocateAll (Position.right count) (phrase first source start stop) := by
  have between : ((List.replicate count ' ' ++ source).take (stop + count)).drop (start + count) =
      (source.take stop).drop start := by
    have dropped := @List.drop_length_add_append _ (List.replicate count ' ') (source.take stop)
      start
    rwa [List.length_replicate, Nat.add_comm, ← take_spaces_append] at dropped
  have place := sourcePosition_spaces_append count first noFeed
    (start + Text.indentWidth ((source.take stop).drop start))
  rw [Nat.add_right_comm] at place
  simp only [phrase, between, place]
  split <;> rfl

theorem phrase_spaces_append_of_zero (stop : Nat) :
    phrase first (List.replicate count ' ' ++ source) 0 (stop + count) =
      Node.relocateAll (Position.right count) (phrase first source 0 stop) := by
  have place := sourcePosition_spaces_append count first noFeed
    (Text.indentWidth (source.take stop))
  simp only [phrase, List.drop_zero, Nat.zero_add, take_spaces_append,
    Text.isBlankText_spaces_append, Text.indentWidth_spaces_append, phraseText,
    Text.trim_spaces_append, place]
  split <;> rfl

/-- The spaces in front of a source belong to the prose before its first tag, if any. -/
theorem phrase_spaces_append {start begin : Nat}
    (starts : begin = start + count ∨ begin = 0 ∧ start = 0) (stop : Nat) :
    phrase first (List.replicate count ' ' ++ source) begin (stop + count) =
      Node.relocateAll (Position.right count) (phrase first source start stop) := by
  rcases starts with rfl | ⟨rfl, rfl⟩
  · exact phrase_spaces_append_of_add count first noFeed start stop
  · exact phrase_spaces_append_of_zero count first noFeed stop

end

end Builder

/-! The parts of an indented document. -/

def Part.indented (count : Nat) : Part → Part
  | .prose first lines => .prose first (lines.map (indentLine count))
  | .statement line source => .statement line source
  | .tagged first source tags =>
    .tagged first (List.replicate count ' ' ++ source) (tags.map (Tag.moveBy count))
  | .unterminated first source offset =>
    .unterminated first (List.replicate count ' ' ++ source) (offset + count)

/-- Part of a document that an indent does not change: it is no statement, and takes one line if it
starts with a tag. -/
def Part.IsFlat : Part → Prop
  | .prose _ _ => True
  | .statement _ _ => False
  | .tagged _ source _ => '\n' ∉ source
  | .unterminated _ source _ => '\n' ∉ source

instance : DecidablePred Part.IsFlat
  | .prose _ _ => inferInstanceAs (Decidable True)
  | .statement _ _ => inferInstanceAs (Decidable False)
  | .tagged _ source _ => inferInstanceAs (Decidable ('\n' ∉ source))
  | .unterminated _ source _ => inferInstanceAs (Decidable ('\n' ∉ source))

theorem sameTags_spaces_append (count first : Nat) {source : Text} (noFeed : '\n' ∉ source)
    (tags : List Tag) :
    ∀ {start begin}, begin = start + count ∨ begin = 0 ∧ start = 0 →
      SameTags (Position.right count) first source first (List.replicate count ' ' ++ source)
        start begin tags (tags.map (Tag.moveBy count)) := by
  induction tags with
  | nil =>
      intro start begin starts
      have whole : (List.replicate count ' ' ++ source).length = source.length + count := by
        simp [Nat.add_comm]
      exact .done (by rw [whole, Builder.phrase_spaces_append count first noFeed starts])
  | cons tag tags ih =>
      intro start begin starts
      exact .tag rfl (Builder.phrase_spaces_append count first noFeed starts tag.start)
        (Builder.sourcePosition_spaces_append count first noFeed tag.start) (ih (Or.inl rfl))

theorem Part.IsFlat.moves {part : Part} (flat : part.IsFlat) (count : Nat)
    (noFeed : ∀ first lines, part = .prose first lines → ∀ line ∈ lines, '\n' ∉ line) :
    part.Moves (Position.right count) [] (part.indented count) := by
  intro builder
  cases part with
  | prose first lines =>
      simp only [Part.indented, Builder.addPart,
        proseNodes_indented count first (noFeed first lines rfl), Builder.add_relocate]
      rfl
  | statement line source => exact absurd flat id
  | tagged first source tags =>
      have same := sameTags_spaces_append count first flat tags (Or.inr ⟨rfl, rfl⟩)
      exact Builder.addTags_relocate same builder
  | unterminated first source offset =>
      simp only [Part.indented, Builder.addPart,
        Builder.sourcePosition_spaces_append count first flat]
      rfl

/-- The parts of a document and those of the indented document, up to the first part that is not
flat and the prose before it. -/
inductive Indents (count : Nat) : List Part → List Part → Prop
  -- an indented statement is prose, and belongs to the prose before it
  | nil : Indents count [] []
  | cons {part parts others} : part.Moves (Position.right count) [] (part.indented count) →
      Indents count parts others → Indents count (part :: parts) (part.indented count :: others)
  | stop {number prose part parts others} : ¬part.IsFlat →
      Indents count (proseBefore number prose ++ part :: parts) others

theorem Indents.flush {count : Nat} {parts others : List Part} (same : Indents count parts others)
    (number : Nat) {prose : List Text} (noFeed : ∀ line ∈ prose, '\n' ∉ line) :
    Indents count (proseBefore number prose ++ parts)
      (proseBefore number (prose.map (indentLine count)) ++ others) := by
  simp only [proseBefore, List.isEmpty_map, List.length_map, ← List.map_reverse]
  split
  next => exact same
  next =>
    have moves := @Part.IsFlat.moves (.prose (number - prose.length) prose.reverse) trivial count
      fun first lines here => by
        obtain ⟨-, rfl⟩ := Part.prose.inj here
        simpa using noFeed
    exact .cons moves same

theorem partsFrom_tagged_cons {source : Text} (pending : (Tag.scan source).unterminated ≠ none)
    (first depth number : Nat) (line : Text) (lines : List Text) :
    ∃ part parts, partsFrom (.tagged first source) depth number [] (line :: lines) = part :: parts ∧
      ¬part.IsFlat := by
  have unfinished : (Tag.scan source).unterminated.isNone = false :=
    Option.isNone_eq_false_iff.mpr (Option.isSome_iff_ne_none.mpr pending)
  have feed : '\n' ∈ Text.unlines (source :: extension source (line :: lines)) := by
    simp [extension, unfinished]
  rw [partsFrom_tagged first depth (line :: lines) number source pending]
  simp only
  split
  next => exact ⟨_, _, rfl, fun flat => flat feed⟩
  next => exact ⟨_, _, rfl, fun flat => flat feed⟩

theorem depthAfter_moveBy (count depth : Nat) (tags : List Tag) :
    depthAfter depth (tags.map (Tag.moveBy count)) = depthAfter depth tags := by
  simp only [depthAfter, List.foldl_map]
  rfl

/-- The lines are cut in the same way with an indent, whatever prose waits before them. -/
def IndentsFrom (count : Nat) (mode : Mode) (lines : List Text) : Prop :=
  ∀ depth number prose, (∀ line ∈ prose, '\n' ∉ line) →
    Indents count (partsFrom mode depth number prose lines)
      (partsFrom mode depth number (prose.map (indentLine count)) (lines.map (indentLine count)))

section

variable {count : Nat} {line : Text} {lines : List Text} (noFeed : '\n' ∉ line)
  (later : IndentsFrom count .plain lines)

include noFeed later

theorem indents_tagged {depth number : Nat} {prose : List Text}
    (free : ∀ other ∈ prose, '\n' ∉ other) (noFence : fenceRun? line = none)
    (noStatement : ¬(depth = 0 ∧ isStatement line = true)) (tag : startsWithTag line = true) :
    Indents count (partsFrom .plain depth number prose (line :: lines))
      (partsFrom .plain depth number (prose.map (indentLine count))
        ((line :: lines).map (indentLine count))) := by
  have noStatementToo := @noStatement_indentLine depth count line noStatement
  have solid := Text.indentLine_of_solid count (isBlankText_of_startsWithTag tag)
  have scanned : Tag.scan (indentLine count line) = (Tag.scan line).moveBy count := by
    rw [solid, Tag.scan_spaces_append]
  simp only [partsFrom, List.map_cons, fenceRun?_indentLine, noFence, noStatement, noStatementToo,
    ↓reduceIte, startsWithTag_indentLine, tag, scanned]
  cases found : Tag.scan line with
  | mk tags unterminated =>
      cases unterminated with
      | none =>
          simp only [Tag.Found.moveBy, Option.map_none, depthAfter_moveBy]
          refine Indents.flush ?_ number free
          have moves := @Part.IsFlat.moves (.tagged number line tags) noFeed count (by simp)
          rw [solid]
          exact .cons moves (later _ _ [] (by simp))
      | some offset =>
          simp only [Tag.Found.moveBy, Option.map_some]
          cases lines with
          | nil =>
              refine Indents.flush ?_ number free
              have moves :=
                @Part.IsFlat.moves (.unterminated number line offset) noFeed count (by simp)
              simp only [List.map_nil, partsFrom, found, scanned, Tag.Found.moveBy]
              rw [solid]
              exact .cons moves .nil
          | cons next lines =>
              have pending : (Tag.scan line).unterminated ≠ none := by simp [found]
              obtain ⟨part, parts, same, notFlat⟩ :=
                partsFrom_tagged_cons pending number depth (number + 1) next lines
              rw [same]
              exact .stop notFlat

end

theorem partsFrom_indented (count : Nat) (lines : List Text)
    (noFeed : ∀ line ∈ lines, '\n' ∉ line) :
    IndentsFrom count .plain lines ∧ ∀ run, IndentsFrom count (.fenced run) lines := by
  induction lines with
  | nil =>
      constructor
      · intro depth number prose free
        exact Indents.nil.flush number free
      · intro run depth number prose free
        exact Indents.nil.flush number free
  | cons line lines ih =>
      obtain ⟨here, later⟩ := List.forall_mem_cons.mp noFeed
      obtain ⟨plain, fenced⟩ := ih later
      constructor
      · intro depth number prose free
        have wait : ∀ other ∈ line :: prose, '\n' ∉ other :=
          List.forall_mem_cons.mpr ⟨here, free⟩
        cases fence : fenceRun? line with
        | some run =>
            simp only [partsFrom, List.map_cons, fenceRun?_indentLine, fence]
            exact fenced run depth (number + 1) (line :: prose) wait
        | none =>
            by_cases statement : depth = 0 ∧ isStatement line = true
            · simp only [partsFrom, fence, statement, and_self, ↓reduceIte]
              exact .stop id
            · cases tag : startsWithTag line with
              | true => exact indents_tagged here plain free fence statement tag
              | false =>
                  have statementToo := @noStatement_indentLine depth count line statement
                  simp only [partsFrom, List.map_cons, fenceRun?_indentLine, fence, statement,
                    statementToo, startsWithTag_indentLine, tag, ↓reduceIte, Bool.false_eq_true]
                  exact plain depth (number + 1) (line :: prose) wait
      · intro run depth number prose free
        have wait : ∀ other ∈ line :: prose, '\n' ∉ other :=
          List.forall_mem_cons.mpr ⟨here, free⟩
        simp only [partsFrom, List.map_cons, closesFence_indentLine]
        split
        next => exact plain depth (number + 1) (line :: prose) wait
        next => exact fenced run depth (number + 1) (line :: prose) wait

namespace Builder

/-- The parts that are read: all of them, or those up to the first that cannot be added. -/
def reads (builder : Builder) : List Part → List Part
  | [] => []
  | part :: parts =>
    part :: match builder.addPart part with
      | .ok next => next.reads parts
      | .error _ => []

theorem mem_reads_proseBefore (builder : Builder) (number : Nat) (prose : List Text) (part : Part)
    (parts : List Part) : part ∈ builder.reads (proseBefore number prose ++ part :: parts) := by
  simp only [proseBefore]
  split <;> simp [reads, addPart]

theorem addParts_indents {count : Nat} {parts others : List Part}
    (same : Indents count parts others) :
    ∀ builder : Builder, (∀ part ∈ builder.reads parts, part.IsFlat) →
      (builder.relocate (Position.right count) []).addParts others =
        relocated (Position.right count) (relocate (Position.right count) [])
          (builder.addParts parts) := by
  induction same with
  | nil => intro builder _; rfl
  | @cons part parts others moves _ ih =>
      intro builder flat
      rw [reads] at flat
      obtain ⟨-, later⟩ := List.forall_mem_cons.mp flat
      rw [addParts, addParts, moves builder]
      cases added : builder.addPart part with
      | error error => rfl
      | ok next => exact ih next (by simpa [added] using later)
  | @stop number prose part parts others notFlat =>
      intro builder flat
      exact absurd (flat part (mem_reads_proseBefore builder number prose part parts)) notFlat

/-! Only the end of a document finds a component unclosed. -/

variable {builder : Builder} {error : ParseError}

theorem ne_unclosed_of_handle {tag : Tag} {place : Position}
    (refused : builder.handle tag place = .error error) (name : Text) (openedAt stop : Position) :
    error ≠ .unclosed name openedAt stop := by
  cases refuses_of_handle refused <;> simp

theorem ne_unclosed_of_addTags {first : Nat} {source : Text} {tags : List Tag} :
    ∀ {start : Nat} {builder : Builder}, builder.addTags first source start tags = .error error →
      ∀ name openedAt stop, error ≠ .unclosed name openedAt stop := by
  induction tags with
  | nil => intro start builder failed; simp [addTags] at failed
  | cons tag tags ih =>
      intro start builder failed
      rw [addTags] at failed
      cases handled : (builder.add (phrase first source start tag.start)).handle tag
          (sourcePosition first source tag.start) with
      | error other =>
          rw [handled] at failed
          obtain rfl := Except.error.inj failed
          exact ne_unclosed_of_handle handled
      | ok next =>
          rw [handled] at failed
          exact ih failed

theorem ne_unclosed_of_addPart {part : Part} (failed : builder.addPart part = .error error) :
    ∀ name openedAt stop, error ≠ .unclosed name openedAt stop := by
  cases part with
  | prose first lines => simp [addPart] at failed
  | statement line source => simp [addPart] at failed
  | tagged first source tags => exact ne_unclosed_of_addTags failed
  | unterminated first source offset =>
      obtain rfl := Except.error.inj failed
      simp

theorem ne_unclosed_of_addParts {parts : List Part} :
    ∀ {builder : Builder}, builder.addParts parts = .error error →
      ∀ name openedAt stop, error ≠ .unclosed name openedAt stop := by
  induction parts with
  | nil => intro builder failed; simp [addParts] at failed
  | cons part parts ih =>
      intro builder failed
      rw [addParts] at failed
      cases added : builder.addPart part with
      | error other =>
          rw [added] at failed
          obtain rfl := Except.error.inj failed
          exact ne_unclosed_of_addPart added
      | ok next =>
          rw [added] at failed
          exact ih failed

end Builder

/-- The parts of a document without data that are read before it ends or an error stops the
reading. -/
def partsRead (text : Text) : List Part :=
  Builder.empty.reads (partsFrom .plain 0 1 [] (Text.lines text))

/-- An indent of a document moves its columns, those of an error and of the place that the error
quotes among them, and changes nothing else. Only the error for a component that is not closed
stands where the document ends. -/
theorem parse_indented {text : Text} (noData : splitData? (Text.lines text) = none)
    (flat : ∀ part ∈ partsRead text, part.IsFlat) (count : Nat) :
    parse (indented count text) =
      match parse text with
      | .ok tree =>
        .ok (.root (Node.relocateAll (Position.right count) tree.children) (some ⟨1, 1⟩))
      | .error (.unclosed name openedAt _) =>
        .error (.unclosed name (openedAt.right count)
          (endPosition ((Text.lines text).map (indentLine count))))
      | .error error => .error (error.relocate (Position.right count)) := by
  have noFeed : ∀ line ∈ Text.lines text, '\n' ∉ line := fun line member =>
    Text.noFeed_lines member
  have same := (partsFrom_indented count (Text.lines text) noFeed).1 0 1 [] (by simp)
  have added := Builder.addParts_indents same Builder.empty flat
  have start : Builder.empty.relocate (Position.right count) [] = Builder.empty := by rfl
  rw [start] at added
  simp only [parse, Text.lines_indented, splitData?_indented count noData, noData, parseBody,
    Builder.add_nil]
  simp only [List.map_nil] at added
  rw [added]
  cases read : Builder.empty.addParts (partsFrom .plain 0 1 [] (Text.lines text)) with
  | error error =>
      have atTag := Builder.ne_unclosed_of_addParts read
      cases error with
      | unclosed name openedAt stop => exact absurd rfl (atTag name openedAt stop)
      | strayClosing name place => rfl
      | wrongClosing name place opened openedAt => rfl
      | unterminated place => rfl
  | ok builder =>
      cases builder with
      | mk nodes opened =>
          cases opened with
          | nil => rfl
          | cons inner outer => rfl

theorem parse_indented_two :
    parse (indented 2 "<A>\n x\n\n</A>") =
        .ok (.root [.component "A" [] (Node.relocateAll (Position.right 2)
          (proseNodes 2 [" x", ""])) (some ⟨1, 3⟩)] (some ⟨1, 1⟩)) ∧
      parse (indented 2 "<A>\n x\n\n</B>") = .error (.wrongClosing "B" ⟨4, 3⟩ "A" ⟨1, 3⟩) := by
  have closed : parse "<A>\n x\n\n</A>" =
      .ok (.root [.component "A" [] (proseNodes 2 [" x", ""]) (some ⟨1, 1⟩)] (some ⟨1, 1⟩)) := by
    rfl
  have misplaced : parse "<A>\n x\n\n</B>" = .error (.wrongClosing "B" ⟨4, 1⟩ "A" ⟨1, 1⟩) := by
    rfl
  have first := @parse_indented "<A>\n x\n\n</A>" rfl (by decide) 2
  have second := @parse_indented "<A>\n x\n\n</B>" rfl (by decide) 2
  rw [closed] at first
  rw [misplaced] at second
  exact ⟨first, second⟩

end Document

end MdxCheck
