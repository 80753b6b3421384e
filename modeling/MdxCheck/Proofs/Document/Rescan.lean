import MdxCheck.Proofs.Document.Nesting
import MdxCheck.Proofs.Tag.Rescan

/-!
Reading source whose last tag runs over several lines. The source is scanned again with each line
that it takes; the tags found before stay, the first line that ends the last tag is the last line
taken, and a tag that the whole rest of the document leaves open is reported where it starts.
-/

namespace MdxCheck.Document

/-- The source of a segment with so many of the lines after its first one. -/
def sourceWith (line : Text) (lines : List Text) (count : Nat) : Text :=
  Text.unlines (line :: lines.take count)

@[simp] theorem sourceWith_zero (line : Text) (lines : List Text) :
    sourceWith line lines 0 = line := by
  simp [sourceWith]

@[simp] theorem sourceWith_succ (line next : Text) (lines : List Text) (count : Nat) :
    sourceWith line (next :: lines) (count + 1) =
      sourceWith (line ++ '\n' :: next) lines count := by
  simp only [sourceWith, List.take_succ_cons, Text.unlines_joined]

theorem sourceWith_of_le (line : Text) {lines : List Text} {count : Nat}
    (all : lines.length ≤ count) : sourceWith line lines count = Text.unlines (line :: lines) := by
  rw [sourceWith, List.take_of_length_le all]

theorem sourceWith_grows (line : Text) (lines : List Text) {first second : Nat}
    (ordered : first ≤ second) :
    sourceWith line lines second = sourceWith line lines first ∨
      ∃ more, sourceWith line lines second = sourceWith line lines first ++ '\n' :: more := by
  obtain ⟨count, rfl⟩ := Nat.exists_eq_add_of_le ordered
  simp only [sourceWith, List.take_add]
  cases added : (lines.drop first).take count with
  | nil => exact .inl (by rw [List.append_nil])
  | cons next rest =>
      refine .inr ⟨Text.unlines (next :: rest), ?_⟩
      exact Text.unlines_append (line :: lines.take first) _ (by simp) (by simp)

/-- Each scan of a segment that grows finds what the scans before it have found. -/
theorem extends_sourceWith (line : Text) (lines : List Text) {first second : Nat}
    (ordered : first ≤ second) :
    (Tag.scan (sourceWith line lines first)).Extends (sourceWith line lines first)
      (Tag.scan (sourceWith line lines second)) := by
  rcases sourceWith_grows line lines ordered with same | ⟨more, longer⟩
  · rw [same]
    exact Tag.extends_scan _
  · rw [longer]
    exact Tag.extends_scan_append _ more

/-! The lines that a segment takes. -/

theorem unlines_extension (source : Text) (lines : List Text) :
    Text.unlines (source :: extension source lines) =
      sourceWith source lines (extension source lines).length := by
  have taken := congrArg (List.take (extension source lines).length)
    (extension_append_drop lines source)
  rw [List.take_left] at taken
  rw [sourceWith, ← taken]

theorem pending_before_extension (lines : List Text) :
    ∀ source count, count < (extension source lines).length →
      (Tag.scan (sourceWith source lines count)).unterminated ≠ none := by
  induction lines with
  | nil => intro source count fewer; simp [extension] at fewer
  | cons line lines ih =>
      intro source count fewer
      simp only [extension] at fewer
      split at fewer
      next => simp at fewer
      next unfinished =>
        cases count with
        | zero => simpa using unfinished
        | succ count =>
            rw [sourceWith_succ]
            exact ih _ count (by simpa using fewer)

/-- How a segment and what follows is cut: the segment takes lines up to the first with which all
its tags end, or the whole rest of the document leaves its last tag open. -/
inductive Taken (depth number : Nat) (line : Text) (lines : List Text) : List Part → Prop
  | complete {count tags} : count ≤ lines.length →
      Tag.scan (sourceWith line lines count) = ⟨tags, none⟩ →
      (∀ fewer < count, (Tag.scan (sourceWith line lines fewer)).unterminated ≠ none) →
      Taken depth number line lines (.tagged number (sourceWith line lines count) tags ::
        partsFrom .plain (depthAfter depth tags) (number + 1 + count) [] (lines.drop count))
  | never {offset} : (Tag.scan (Text.unlines (line :: lines))).unterminated = some offset →
      (∀ count, (Tag.scan (sourceWith line lines count)).unterminated ≠ none) →
      Taken depth number line lines [.unterminated number (Text.unlines (line :: lines)) offset]

theorem exists_taken (depth number : Nat) (prose : List Text) (line : Text) (lines : List Text)
    (noFence : fenceRun? line = none) (noStatement : ¬(depth = 0 ∧ isStatement line = true))
    (tag : startsWithTag line = true) :
    ∃ parts, partsFrom .plain depth number prose (line :: lines) =
      proseBefore number prose ++ parts ∧ Taken depth number line lines parts := by
  rw [partsFrom_startsWithTag depth number prose line lines noFence noStatement tag]
  refine ⟨_, rfl, ?_⟩
  have before := pending_before_extension lines line
  cases scanned : Tag.scan (Text.unlines (line :: extension line lines)) with
  | mk tags unterminated =>
      cases unterminated with
      | none =>
          have bound := congrArg List.length (extension_append_drop lines line)
          rw [List.length_append] at bound
          simp only
          rw [unlines_extension] at scanned ⊢
          exact .complete (by omega) scanned fun fewer less => before fewer less
      | some offset =>
          have all := extension_of_open lines line (by rw [scanned]; simp)
          rw [all] at scanned before
          simp only [all]
          refine .never (by rw [scanned]) fun count => ?_
          rcases Nat.lt_or_ge count lines.length with fewer | enough
          · exact before count fewer
          · rw [sourceWith_of_le line enough, scanned]
            simp

/-! The place of a tag that nothing ends. -/

/-- A segment that ends with an open tag takes all lines of the document from its first on. -/
theorem exists_of_open_segment {number : Nat} {lines : List Text} {segment : Segment}
    (member : segment ∈ segmentsFrom number lines) (pending : segment.openTag? ≠ none) :
    ∃ front rest, lines = front ++ rest ∧ rest ≠ [] ∧
      segment = ⟨number + front.length, Text.unlines rest⟩ := by
  fun_induction segmentsFrom number lines with
  | case1 => simp at member
  | case2 number line lines run opens code ih =>
      obtain ⟨front, rest, split, nonempty, rfl⟩ := ih member
      have parts := List.take_append_drop (code.length + 1) lines
      -- lines are left behind the code, so there is one that closes it
      have taken : (lines.take (code.length + 1)).length = code.length + 1 := by
        have later := congrArg List.length split
        have positive := List.length_pos_iff.mpr nonempty
        rw [List.length_drop, List.length_append] at later
        rw [List.length_take]
        omega
      refine ⟨line :: lines.take (code.length + 1) ++ front, rest, ?_, nonempty, ?_⟩
      · rw [List.append_assoc, ← split, List.cons_append, parts]
      · rw [List.length_append, List.length_cons, taken]
        congr 1
        omega
  | case3 number line lines noFence tag more ih =>
      have split : more ++ lines.drop more.length = lines := extension_append_drop lines line
      rcases List.mem_cons.mp member with rfl | later
      · have all : more = lines := by
          apply extension_of_open lines line
          intro complete
          exact pending (by simp [Segment.openTag?, more, complete])
        exact ⟨[], line :: lines, rfl, by simp, by rw [all]; rfl⟩
      · obtain ⟨front, rest, behind, nonempty, rfl⟩ := ih later
        refine ⟨line :: more ++ front, rest, ?_, nonempty, ?_⟩
        · rw [List.append_assoc, ← behind, List.cons_append, split]
        · rw [List.length_append, List.length_cons]
          congr 1
          omega
  | case4 number line lines noFence noTag ih =>
      obtain ⟨front, rest, rfl, nonempty, rfl⟩ := ih member
      refine ⟨line :: front, rest, rfl, nonempty, ?_⟩
      rw [List.length_cons]
      congr 1
      omega

theorem exists_of_open_document {text : Text} {segment : Segment}
    (member : segment ∈ segments text) (pending : segment.openTag? ≠ none) :
    ∃ front rest, Text.lines text = front ++ rest ∧ rest ≠ [] ∧
      segment = ⟨front.length + 1, Text.unlines rest⟩ := by
  cases split : splitData? (Text.lines text) with
  | none =>
      rw [segments, split] at member
      obtain ⟨front, rest, same, nonempty, rfl⟩ := exists_of_open_segment member pending
      exact ⟨front, rest, same, nonempty, by rw [Nat.add_comm]⟩
  | some parts =>
      obtain ⟨inside, body⟩ := parts
      obtain ⟨first, stop, data⟩ := splitData?_eq_some split
      rw [segments, split] at member
      obtain ⟨front, rest, rfl, nonempty, rfl⟩ := exists_of_open_segment member pending
      refine ⟨first :: (inside ++ stop :: front), rest, by rw [data.split]; simp, nonempty, ?_⟩
      simp only [List.length_cons, List.length_append]
      congr 1
      omega

/-- The place of a tag that has no end, however many of the lines after its first are read. -/
def NeverEnds (lines : List Text) (place : Position) : Prop :=
  ∃ before gap source after, lines = before ++ (gap ++ '<' :: source) :: after ∧
    place = ⟨before.length + 1, gap.length + 1⟩ ∧
    ∀ count, Tag.scan (sourceWith ('<' :: source) after count) = ⟨[], some 0⟩

theorem sourcePosition_of_take {source gap : Text} {before : List Text} {offset : Nat}
    (taken : source.take offset = Text.unlines (before ++ [gap]))
    (noFeed : ∀ line ∈ before, '\n' ∉ line) (gapFeed : '\n' ∉ gap) (first : Nat) :
    Builder.sourcePosition first source offset = ⟨first + before.length, gap.length + 1⟩ := by
  simp only [Builder.sourcePosition, taken, Text.count_unlines noFeed gapFeed,
    Text.takeWhile_reverse_unlines before gapFeed, List.length_reverse]

/-- What all lines together leave open is open with any number of them. -/
theorem exists_openAt_sourceWith {line : Text} {lines : List Text} {opening : Tag.Opening}
    (isOpen : Tag.OpenAt (Text.unlines (line :: lines)) 0 opening) (count : Nat) :
    ∃ shorter, Tag.OpenAt (sourceWith line lines count) 0 shorter := by
  have all := sourceWith_of_le line (Nat.le_max_right count lines.length)
  rcases sourceWith_grows line lines (Nat.le_max_left count lines.length) with same | longer
  · exact ⟨opening, by rwa [← same, all]⟩
  · obtain ⟨more, longer⟩ := longer
    rw [← all, longer] at isOpen
    exact isOpen.of_append_line

theorem neverEnds_of_openAt (front : List Text) {lines : List Text} (nonempty : lines ≠ [])
    (noFeed : ∀ line ∈ lines, '\n' ∉ line) {offset : Nat} {opening : Tag.Opening}
    (isOpen : Tag.OpenAt (Text.unlines lines) offset opening) :
    NeverEnds (front ++ lines)
      (Builder.sourcePosition (front.length + 1) (Text.unlines lines) offset) := by
  obtain ⟨before, gap, rest, after, rfl, taken, dropped⟩ :=
    Text.split_unlines nonempty offset isOpen.offset_le
  rw [List.forall_mem_append, List.forall_mem_cons] at noFeed
  obtain ⟨beforeFeed, lineFeed, -⟩ := noFeed
  rw [List.mem_append, not_or] at lineFeed
  have whole : Tag.OpenAt (Text.unlines (rest :: after)) 0 opening :=
    ⟨by rw [← dropped]; exact isOpen.opens, isOpen.noEnd⟩
  obtain ⟨shorter, first⟩ := exists_openAt_sourceWith whole 0
  rw [sourceWith_zero] at first
  obtain ⟨source, rfl⟩ := first.exists_bracket
  refine ⟨front ++ before, gap, source, after, by simp, ?_, fun count => ?_⟩
  · rw [sourcePosition_of_take taken beforeFeed lineFeed.1, List.length_append]
    congr 1
    omega
  · obtain ⟨shorter, stillOpen⟩ := exists_openAt_sourceWith whole count
    exact stillOpen.scan_eq

theorem neverEnds_of_parse {text : Text} {place : Position}
    (failed : parse text = .error (.unterminated place)) :
    documentOpenTag? text = some place ∧ NeverEnds (Text.lines text) place := by
  have reads := parse_reads text
  rw [failed] at reads
  cases reads with
  | misplaced _ _ misplaced => cases misplaced
  | unterminated _ found =>
      refine ⟨found, ?_⟩
      obtain ⟨segment, member, openTag⟩ := List.exists_of_findSome?_eq_some found
      obtain ⟨front, rest, split, nonempty, rfl⟩ :=
        exists_of_open_document member (by simp [openTag])
      obtain ⟨offset, pending, rfl⟩ := Option.map_eq_some_iff.mp openTag
      obtain ⟨opening, isOpen, -⟩ := Tag.scan_append_of_open pending
      rw [split]
      refine neverEnds_of_openAt front nonempty (fun line inside => ?_) isOpen
      apply Text.noFeed_lines
      rw [split]
      exact List.mem_append_right _ inside

/-- Scans are stable when lines are added, and so are the scans of a segment that grows: none
changes a tag of the scans before, the segment ends with the first line that ends its last tag, and
an error in a tag without end names the bracket of a tag that no number of further lines ends. -/
theorem rescans_stable :
    (∀ source line, (Tag.scan source).Extends source (Tag.scan (source ++ '\n' :: line))) ∧
    (∀ line lines first second, first ≤ second →
      (Tag.scan (sourceWith line lines first)).Extends (sourceWith line lines first)
        (Tag.scan (sourceWith line lines second))) ∧
    (∀ depth number prose line lines, fenceRun? line = none →
      ¬(depth = 0 ∧ isStatement line = true) → startsWithTag line = true →
      ∃ parts, partsFrom .plain depth number prose (line :: lines) =
        proseBefore number prose ++ parts ∧ Taken depth number line lines parts) ∧
    ∀ text place, parse text = .error (.unterminated place) →
      documentOpenTag? text = some place ∧ NeverEnds (Text.lines text) place :=
  ⟨Tag.extends_scan_append, fun line lines _ _ => extends_sourceWith line lines, exists_taken,
    fun _ _ => neverEnds_of_parse⟩

/-- The second tag of a document lacks the quote at the end of a value; the line after it is part of
the value. -/
theorem rescans_stable_openQuote :
    let line : Text := "  <B c='"
    let lines : List Text := ["d>"]
    ((Tag.scan (sourceWith line lines 0)).Extends (sourceWith line lines 0)
      (Tag.scan (sourceWith line lines 1))) ∧
    (fenceRun? line = none ∧ startsWithTag line = true ∧
      ∃ parts, partsFrom .plain 1 2 [] (line :: lines) = parts ∧ Taken 1 2 line lines parts) ∧
    parse "<A>\n  <B c='\nd>" = .error (.unterminated ⟨2, 3⟩) ∧
    NeverEnds ["<A>", line, "d>"] ⟨2, 3⟩ := by
  have failed : parse "<A>\n  <B c='\nd>" = .error (.unterminated ⟨2, 3⟩) := by rfl
  obtain ⟨-, grows, cuts, places⟩ := rescans_stable
  refine ⟨grows _ _ 0 1 (by decide), ⟨by decide, by decide, ?_⟩, failed, (places _ _ failed).2⟩
  exact cuts 1 2 [] _ _ (by decide) (by decide) (by decide)

end MdxCheck.Document
