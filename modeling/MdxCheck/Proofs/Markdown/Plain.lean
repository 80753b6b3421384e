import MdxCheck.Proofs.Markdown.Fences

/-!
Plain lines: wherever the content of a block may start in them, behind the markers of quotes and items,
they open neither fenced code nor a block of HTML that goes on behind an empty line.
-/

namespace MdxCheck.Markdown

/-- The places of a line where the content of a block may start, each as what stands before it and
the content: only markers and blanks stand before it. -/
def startsFrom (front : Text) : Text → List (Text × Text)
  | [] => [(front, [])]
  | c :: rest =>
    (front, c :: rest) :: if isMarkerChar c then startsFrom (front ++ [c]) rest else []

theorem mem_startsFrom (line : Text) :
    ∀ before front rest, line = front ++ rest → front.all isMarkerChar = true →
      (before ++ front, rest) ∈ startsFrom before line := by
  induction line with
  | nil =>
      intro before front rest split _
      obtain ⟨rfl, rfl⟩ := List.append_eq_nil_iff.mp split.symm
      simp [startsFrom]
  | cons c line ih =>
      intro before front rest split markers
      cases front with
      | nil =>
          obtain rfl : c :: line = rest := split
          simp [startsFrom]
      | cons d front =>
          obtain ⟨rfl, tails⟩ := List.cons.inj split
          rw [List.all_cons, Bool.and_eq_true] at markers
          have later := ih (before ++ [c]) front rest tails markers.2
          rw [List.append_assoc, List.singleton_append] at later
          simp [startsFrom, markers.1, later]

theorem split_of_mem_startsFrom (line : Text) :
    ∀ before start, start ∈ startsFrom before line → ∃ front, line = front ++ start.2 := by
  induction line with
  | nil =>
      intro before start member
      obtain rfl : start = (before, []) := by simpa [startsFrom] using member
      exact ⟨[], rfl⟩
  | cons c line ih =>
      intro before start member
      rcases List.mem_cons.mp member with rfl | later
      · exact ⟨[], rfl⟩
      · split at later
        · obtain ⟨front, split⟩ := ih _ _ later
          exact ⟨c :: front, by rw [split, List.cons_append]⟩
        · simp at later

/-- Whether a line can neither open fenced code nor a block of HTML that goes on behind an empty line,
wherever its content starts, and list items open in its first columns only: further to the right they
may be nested too deep to be read. -/
def isPlain (line : Text) : Bool :=
  (startsFrom [] line).all fun (front, content) =>
    (fence? content).isNone &&
      (match Html.blockEnd? content with
        | some (ending, _) => ending == .emptyLine || ending.holdsOn content
        | none => true) &&
      ((listMarker? content).isNone || columns front + 2 < Blocks.depth)

/-- Whether a line may open a block of HTML that goes on up to an empty line. -/
def opensHtml (line : Text) : Bool :=
  (startsFrom [] line).any fun (_, content) =>
    match Html.blockEnd? content with
    | some (ending, _) => ending == .emptyLine
    | none => false

section

variable {line front content : Text} (split : line = front ++ content)
  (markers : front.all isMarkerChar = true)

include split markers

theorem noFence_of_isPlain (plain : isPlain line = true) : fence? content = none := by
  have fits := List.all_eq_true.mp plain _ (mem_startsFrom line [] front content split markers)
  simp only [Bool.and_eq_true, Option.isNone_iff_eq_none] at fits
  exact fits.1.1

theorem html_of_isPlain (plain : isPlain line = true) {ending : Html.BlockEnd} {interrupts : Bool}
    (opens : Html.blockEnd? content = some (ending, interrupts)) :
    ending.holdsOn content = true ∨ ending = .emptyLine ∧ opensHtml line = true := by
  have place := mem_startsFrom line [] front content split markers
  have fits := List.all_eq_true.mp plain _ place
  simp only [opens, Bool.and_eq_true, Bool.or_eq_true] at fits
  rcases fits.1.2 with empty | holds
  · refine .inr ⟨eq_of_beq empty, List.any_eq_true.mpr ⟨_, place, ?_⟩⟩
    simpa only [opens] using empty
  · exact .inl holds

theorem columns_of_isPlain (plain : isPlain line = true)
    (marked : (listMarker? content).isSome = true) : columns front + 2 < Blocks.depth := by
  have fits := List.all_eq_true.mp plain _ (mem_startsFrom line [] front content split markers)
  have some : (listMarker? content).isNone = false := by
    rw [Option.isNone_eq_false_iff]
    exact marked
  simp only [some, Bool.and_eq_true, Bool.false_or, decide_eq_true_eq] at fits
  exact fits.2

end

/-- A line of blanks opens no block. -/
theorem opens_nothing {text : Text} (blank : text.all isSpace = true) :
    fence? text = none ∧ Html.blockEnd? text = none ∧ listMarker? text = none := by
  cases text with
  | nil => exact ⟨rfl, rfl, rfl⟩
  | cons c rest =>
      have space : isSpace c = true := by
        rw [List.all_cons, Bool.and_eq_true] at blank
        exact blank.1
      rcases Bool.or_eq_true_iff.mp space with isBlank | isTab
      · obtain rfl := eq_of_beq isBlank
        exact ⟨by simp [fence?], rfl, by simp [listMarker?, orderedMarker?, bulletMarker?]⟩
      · obtain rfl := eq_of_beq isTab
        exact ⟨by simp [fence?], rfl, by simp [listMarker?, orderedMarker?, bulletMarker?]⟩

section

variable {line : Text} (blank : line.all isSpace = true)

include blank

theorem opens_nothing_of_start {start : Text × Text} (member : start ∈ startsFrom [] line) :
    fence? start.2 = none ∧ Html.blockEnd? start.2 = none ∧ listMarker? start.2 = none := by
  obtain ⟨front, split⟩ := split_of_mem_startsFrom line [] start member
  rw [split, List.all_append, Bool.and_eq_true] at blank
  exact opens_nothing blank.2

theorem isPlain_of_blank : isPlain line = true := by
  refine List.all_eq_true.mpr fun start member => ?_
  obtain ⟨noFence, noHtml, noMarker⟩ := opens_nothing_of_start blank member
  simp [noFence, noHtml, noMarker]

theorem opensHtml_of_blank : opensHtml line = false := by
  refine List.any_eq_false.mpr fun start member => ?_
  simp [(opens_nothing_of_start blank member).2.1]

end

/-- A line as a block sees it: behind markers, the content is that of the text. -/
structure Line.Stands (line : Line) (text : Text) : Prop where
  content : ∃ front, text = front ++ line.content ∧ front.all isMarkerChar = true ∧
    line.indent ≤ columns front
  left : 0 ≤ line.indent

theorem Line.content_ofText (text : Text) (ended : Bool) :
    (Line.ofText text ended).content = text.dropWhile isSpace := by
  simp only [Line.ofText, Line.content, spacesFrom_fst, Text.drop_length_takeWhile]

theorem Line.stands_ofText (text : Text) (ended : Bool) : (Line.ofText text ended).Stands text := by
  have reached := (spacesFrom_snd 0 text 0).2
  refine ⟨⟨text.takeWhile isSpace, ?_, all_takeWhile_isSpace text, ?_⟩, ?_⟩
  · rw [Line.content_ofText, List.takeWhile_append_dropWhile]
  · simp only [Line.ofText]
    omega
  · exact Int.natCast_nonneg _

theorem length_le_columns (text : Text) : text.length ≤ columns text := by
  induction text with
  | nil => exact Nat.le_refl 0
  | cons c rest ih =>
      simp only [columns, List.map_cons, List.sum_cons, List.length_cons] at ih ⊢
      split <;> omega

namespace Line.Stands

variable {line : Line} {text : Text} (stands : line.Stands text)

include stands

theorem opened {marker : ListMarker} (opens : marker.Opens line.content) :
    (Blocks.opened line marker).Stands text := by
  obtain ⟨⟨front, split, markers, right⟩, left⟩ := stands
  let column := line.indent.toNat + marker.length
  let behind := line.content.drop marker.length
  have parts := Blocks.content_opened line marker
  have reached := (spacesFrom_snd line.base behind column).2
  have taken : (line.content.take marker.length).length = marker.length :=
    List.length_take_of_le opens.within
  have wide := length_le_columns (line.content.take marker.length)
  refine ⟨⟨front ++ (line.content.take marker.length ++ behind.takeWhile isSpace), ?_, ?_, ?_⟩, ?_⟩
  · rw [List.append_assoc, ← parts, split]
  · rw [List.all_append, List.all_append, markers, opens.chars, all_takeWhile_isSpace]
    rfl
  · change ((spacesFrom line.base column behind).2 : Int) ≤ _
    rw [columns_append, columns_append]
    omega
  · exact Int.natCast_nonneg _

variable (plain : isPlain text = true)

include plain

theorem bare : line.Bare := by
  obtain ⟨front, split, markers, -⟩ := stands.content
  intro further rest content only
  have longer : text = (front ++ further) ++ rest := by rw [split, content, List.append_assoc]
  have marked : (front ++ further).all isMarkerChar = true := by
    rw [List.all_append, markers, only]
    rfl
  exact noFence_of_isPlain longer marked plain

theorem html {ending : Html.BlockEnd} {interrupts : Bool}
    (opens : Html.blockEnd? line.content = some (ending, interrupts)) :
    ending.holdsOn line.content = true ∨ ending = .emptyLine ∧ opensHtml text = true := by
  obtain ⟨front, split, markers, -⟩ := stands.content
  exact html_of_isPlain split markers plain opens

theorem indent_lt (marked : (listMarker? line.content).isSome = true) :
    line.indent + 2 < Blocks.depth := by
  obtain ⟨front, split, markers, right⟩ := stands.content
  have narrow := columns_of_isPlain split markers plain marked
  omega

end Line.Stands

end MdxCheck.Markdown
