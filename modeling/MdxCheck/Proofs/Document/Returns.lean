import MdxCheck.Proofs.Frontmatter.Block

/-!
A carriage return before each line feed changes nothing: the lines are the same, so is the tree, and
frontmatter is found in the same place.
-/

namespace MdxCheck

namespace Text

/-- The text with a carriage return before each line feed. -/
def withReturns (text : Text) : Text :=
  text.flatMap fun c => if c = '\n' then ['\r', '\n'] else [c]

@[simp] theorem withReturns_nil : withReturns [] = [] := by
  rfl

@[simp] theorem withReturns_feed (rest : Text) :
    withReturns ('\n' :: rest) = '\r' :: '\n' :: withReturns rest := by
  rfl

theorem withReturns_cons {c : Char} (noFeed : c ≠ '\n') (rest : Text) :
    withReturns (c :: rest) = c :: withReturns rest := by
  simp [withReturns, noFeed]

@[simp] theorem isEmpty_withReturns (text : Text) : (withReturns text).isEmpty = text.isEmpty := by
  cases text with
  | nil => rfl
  | cons c rest => by_cases feed : c = '\n' <;> simp [withReturns, feed]

theorem lines_cons {c : Char} (noReturn : c ≠ '\r') (rest : Text) :
    lines (c :: rest) = if isLineEnd c then [] :: lines rest else consFirst c (lines rest) := by
  cases rest with
  | nil => rfl
  | cons d rest => simp [lines, noReturn]

theorem lines_withReturns {text : Text} (noReturn : '\r' ∉ text) :
    lines (withReturns text) = lines text := by
  induction text with
  | nil => rfl
  | cons c rest ih =>
      rw [List.mem_cons, not_or] at noReturn
      have later := ih noReturn.2
      rw [lines_cons (Ne.symm noReturn.1)]
      by_cases feed : c = '\n'
      · subst feed
        rw [withReturns_feed, lines, if_pos (by decide), if_pos ⟨rfl, rfl⟩, if_pos (by decide),
          later]
      · rw [withReturns_cons feed, lines_cons (Ne.symm noReturn.1), later]

/-- No carriage return stands alone. -/
theorem head_of_withReturns_split {text front back : Text} (noReturn : '\r' ∉ text)
    (split : withReturns text = front ++ '\r' :: back) : back.head? = some '\n' := by
  induction text generalizing front with
  | nil => simp at split
  | cons c rest ih =>
      rw [List.mem_cons, not_or] at noReturn
      by_cases feed : c = '\n'
      · subst feed
        rw [withReturns_feed] at split
        match front with
        | [] =>
            obtain rfl := (List.cons.inj split).2
            rfl
        | [d] => simp at split
        | d :: e :: front => exact ih noReturn.2 (List.cons.inj (List.cons.inj split).2).2
      · rw [withReturns_cons feed] at split
        cases front with
        | nil => exact absurd (List.cons.inj split).1.symm noReturn.1
        | cons d front => exact ih noReturn.2 (List.cons.inj split).2

theorem dropStart?_withReturns (start : Text) (noFeed : '\n' ∉ start) (noReturn : '\r' ∉ start)
    (text : Text) :
    dropStart? start (withReturns text) = (dropStart? start text).map withReturns := by
  induction start generalizing text with
  | nil => rfl
  | cons s start ih =>
      rw [List.mem_cons, not_or] at noFeed noReturn
      cases text with
      | nil => rfl
      | cons c rest =>
          by_cases feed : c = '\n'
          · subst feed
            simp [dropStart?, Ne.symm noFeed.1, Ne.symm noReturn.1]
          · rw [withReturns_cons feed, dropStart?, dropStart?]
            split
            · exact ih noFeed.2 noReturn.2 rest
            · rfl

end Text

namespace Frontmatter

open Text (withReturns withReturns_cons)

theorem afterSpaces_withReturns (text : Text) :
    afterSpaces (withReturns text) = withReturns (afterSpaces text) := by
  induction text with
  | nil => rfl
  | cons c rest ih =>
      by_cases feed : c = '\n'
      · subst feed
        rfl
      · simp only [afterSpaces] at ih ⊢
        rw [withReturns_cons feed, List.dropWhile_cons, List.dropWhile_cons]
        split
        · exact ih
        · rw [withReturns_cons feed]

theorem afterBreak?_withReturns {text : Text} (noReturn : '\r' ∉ text) :
    afterBreak? (withReturns text) = (afterBreak? text).map withReturns := by
  cases text with
  | nil => rfl
  | cons c rest =>
      by_cases feed : c = '\n'
      · subst feed
        rfl
      · have solid : c ≠ '\r' := fun same => noReturn (by simp [same])
        rw [withReturns_cons feed, afterBreak?_of_noBreak feed solid,
          afterBreak?_of_noBreak feed solid]
        rfl

/-- A line break before the closing line counts the same with and without its carriage return. -/
theorem isClosed_return (rest : Text) :
    isClosed ('\r' :: '\n' :: rest) = isClosed ('\n' :: rest) := by
  rfl

theorem mem_of_mem_afterSpaces {text : Text} {c : Char} (member : c ∈ afterSpaces text) :
    c ∈ text :=
  (List.dropWhile_suffix _).subset member

theorem mem_of_mem_afterBreak? {text rest : Text} (broken : afterBreak? text = some rest) {c : Char}
    (member : c ∈ rest) : c ∈ text := by
  unfold afterBreak? at broken
  split at broken
  · obtain rfl := Option.some.inj broken
    simp [member]
  · obtain rfl := Option.some.inj broken
    simp [member]
  · simp at broken

theorem isClosed_withReturns {text : Text} (noReturn : '\r' ∉ text) :
    isClosed (withReturns text) = isClosed text := by
  simp only [isClosed, afterBreak?_withReturns noReturn]
  cases broken : afterBreak? text with
  | none => rfl
  | some rest =>
      simp only [Option.map_some, Option.bind_some,
        Text.dropStart?_withReturns ['-', '-', '-'] (by decide) (by decide)]
      cases dropped : Text.dropStart? ['-', '-', '-'] rest with
      | none => rfl
      | some others =>
          have bare : '\r' ∉ afterSpaces others := fun member => noReturn
            (mem_of_mem_afterBreak? broken
              (mem_of_mem_dropStart? dropped (mem_of_mem_afterSpaces member)))
          simp [afterSpaces_withReturns, afterBreak?_withReturns bare]

/-- The shortest content ends at the same line break: it is tried from its carriage return on. -/
theorem content?_withReturns {text : Text} (noReturn : '\r' ∉ text) :
    content? (withReturns text) = (content? text).map withReturns := by
  induction text with
  | nil => rfl
  | cons c rest ih =>
      have closed := isClosed_withReturns noReturn
      have later := ih fun member => noReturn (List.mem_cons_of_mem c member)
      by_cases feed : c = '\n'
      · subst feed
        rw [Text.withReturns_feed] at closed ⊢
        have atFeed := (isClosed_return (withReturns rest)).symm.trans closed
        simp only [content?, closed, atFeed, later]
        split
        · rfl
        · simp [Function.comp_def]
      · rw [withReturns_cons feed] at closed ⊢
        simp only [content?, closed, later]
        split
        · rfl
        · simp [withReturns_cons feed, Function.comp_def]

theorem mem_of_mem_content? {text source : Text} (found : content? text = some source) {c : Char}
    (member : c ∈ source) : c ∈ text := by
  induction text generalizing source with
  | nil => simp [content?] at found
  | cons d rest ih =>
      rw [content?] at found
      split at found
      · obtain rfl := Option.some.inj found
        simp at member
      · obtain ⟨others, inside, rfl⟩ := Option.map_eq_some_iff.mp found
        rcases List.mem_cons.mp member with rfl | member
        · exact List.mem_cons_self
        · exact List.mem_cons_of_mem _ (ih inside member)

/-- What is read from a document is read from the text behind its first line. -/
theorem source?_eq_some {document source : Text} (found : source? document = some source) :
    ∃ rest, (∀ c ∈ rest, c ∈ document) ∧ content? rest = some source := by
  simp only [source?, Option.bind_eq_bind, Option.bind_eq_some_iff] at found
  obtain ⟨hyphens, dropped, rest, broken, found⟩ := found
  refine ⟨rest, fun c member => ?_, found⟩
  exact mem_of_mem_dropStart? dropped
    (mem_of_mem_afterSpaces (mem_of_mem_afterBreak? broken member))

theorem source?_withReturns {document : Text} (noReturn : '\r' ∉ document) :
    source? (withReturns document) = (source? document).map withReturns := by
  simp only [source?, Option.bind_eq_bind,
    Text.dropStart?_withReturns ['-', '-', '-'] (by decide) (by decide)]
  cases dropped : Text.dropStart? ['-', '-', '-'] document with
  | none => rfl
  | some hyphens =>
      have bare : '\r' ∉ afterSpaces hyphens := fun member =>
        noReturn (mem_of_mem_dropStart? dropped (mem_of_mem_afterSpaces member))
      simp only [Option.map_some, Option.bind_some, afterSpaces_withReturns,
        afterBreak?_withReturns bare]
      cases broken : afterBreak? (afterSpaces hyphens) with
      | none => rfl
      | some rest =>
          exact content?_withReturns fun member => bare (mem_of_mem_afterBreak? broken member)

end Frontmatter

namespace Document

open Text (withReturns)

/-- A document is parsed by its lines alone. -/
theorem parse_eq_of_lines {text other : Text} (same : Text.lines text = Text.lines other) :
    parse text = parse other := by
  rw [parse, same, parse]

/-- Ends of lines do not matter: with a carriage return before each line feed a document has the same
tree or the same error, and the same frontmatter, likewise with the carriage returns. None of them
stands at an end of the frontmatter without its line feed. -/
theorem returns_unread {text : Text} (noReturn : '\r' ∉ text) :
    parse (withReturns text) = parse text ∧
      Frontmatter.source? (withReturns text) = (Frontmatter.source? text).map withReturns ∧
      ∀ source, Frontmatter.source? (withReturns text) = some source →
        source.getLast? ≠ some '\r' ∧
          ∀ front back, source = front ++ '\r' :: back → back.head? = some '\n' := by
  have same := Frontmatter.source?_withReturns noReturn
  refine ⟨parse_eq_of_lines (Text.lines_withReturns noReturn), same, ?_⟩
  intro source found
  obtain ⟨plain, read, rfl⟩ := Option.map_eq_some_iff.mp (same ▸ found)
  obtain ⟨rest, within, inside⟩ := Frontmatter.source?_eq_some read
  have bare : '\r' ∉ plain := fun member =>
    noReturn (within _ (Frontmatter.mem_of_mem_content? inside member))
  have paired : ∀ front back, withReturns plain = front ++ '\r' :: back →
      back.head? = some '\n' := fun _ _ split => Text.head_of_withReturns_split bare split
  refine ⟨fun last => ?_, paired⟩
  obtain ⟨front, split⟩ := List.getLast?_eq_some_iff.mp last
  simpa using paired front [] split

theorem returns_unread_empty :
    ('\r' ∉ "---\n\n---".toList) ∧
      Frontmatter.source? (withReturns "---\n\n---".toList) =
        (Frontmatter.source? "---\n\n---".toList).map withReturns ∧
      Frontmatter.source? "---\n\n---".toList = some [] :=
  ⟨by decide, (returns_unread (by decide)).2.1, by decide⟩

end Document

end MdxCheck
