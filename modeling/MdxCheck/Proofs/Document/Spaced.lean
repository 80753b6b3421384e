import MdxCheck.Proofs.Document.Segment
import MdxCheck.Proofs.Tag.Spaced

/-!
Documents of tags and white space only: however the lines fall between and within the tags, the
document is built from its tags alone.
-/

namespace MdxCheck.Document

namespace Builder

def handleAll (builder : Builder) : List PlacedTag → Except ParseError Builder
  | [] => .ok builder
  | placed :: tags => do
    let builder ← builder.handle placed.tag placed.position
    builder.handleAll tags

theorem handleAll_append (builder : Builder) (front back : List PlacedTag) :
    builder.handleAll (front ++ back) =
      (builder.handleAll front >>= fun next => next.handleAll back) := by
  induction front generalizing builder with
  | nil => rfl
  | cons placed front ih =>
      simp only [List.cons_append, handleAll, bind_assoc]
      cases builder.handle placed.tag placed.position with
      | error error => rfl
      | ok next => exact ih next

theorem phrase_of_blank {first : Nat} {source : Text} {start stop : Nat}
    (blank : ∀ c ∈ (source.take stop).drop start, Text.isBlank c = true) :
    phrase first source start stop = [] := by
  have isBlank : Text.isBlankText ((source.take stop).drop start) = true :=
    List.all_eq_true.mpr blank
  simp [phrase, isBlank]

theorem drop_succ_of_drop_cons {source rest : Text} {c : Char} {offset : Nat}
    (same : source.drop offset = c :: rest) :
    offset < source.length ∧ source.drop (offset + 1) = rest ∧
      source.take (offset + 1) = source.take offset ++ [c] := by
  have inside : offset < source.length := by
    have lengths := congrArg List.length same
    simp only [List.length_drop, List.length_cons] at lengths
    omega
  rw [List.drop_eq_getElem_cons inside] at same
  obtain ⟨here, later⟩ := List.cons.inj same
  refine ⟨inside, later, ?_⟩
  rw [List.take_succ_eq_append_getElem inside, here]

/-- Between the tags of spaced source there is no prose; `start` is where the tag before has
ended. -/
theorem addTags_of_spaced {text : Text} {tags : List Tag} (spaced : Tag.Spaced text tags) :
    ∀ (builder : Builder) (first : Nat) (source : Text) (start offset : Nat),
      source.drop offset = text → start ≤ offset → offset ≤ source.length →
      (∀ c ∈ (source.take offset).drop start, Text.isBlank c = true) →
      builder.addTags first source start (Tag.scanFrom 0 offset text).tags =
        builder.handleAll ((Tag.scanFrom 0 offset text).tags.map fun tag =>
          ⟨tag, sourcePosition first source tag.start⟩) := by
  -- what lies between `start` and `offset` is blank all along the scan
  induction spaced with
  | done =>
      intro builder first source start offset rest below bound blank
      have all : source.take source.length = source.take offset := by
        have reached : source.length ≤ offset := by simpa using rest
        rw [List.take_length, List.take_of_length_le reached]
      have noPhrase : phrase first source start source.length = [] := by
        apply phrase_of_blank
        rw [all]
        exact blank
      simp [Tag.scanFrom, addTags, handleAll, noPhrase]
  | @blank c rest tags isBlank spaced ih =>
      intro builder first source start offset same below bound blank
      obtain ⟨inside, later, taken⟩ := drop_succ_of_drop_cons same
      have stillBlank : ∀ d ∈ (source.take (offset + 1)).drop start, Text.isBlank d = true := by
        have reached : start ≤ (source.take offset).length := by
          rw [List.length_take]
          omega
        rw [taken, List.drop_append_of_le_length reached, List.forall_mem_append]
        exact ⟨blank, by simpa using isBlank⟩
      rw [Tag.scanFrom_of_not_opening (Tag.opening?_of_isBlank isBlank _)]
      exact ih builder first source start (offset + 1) later (by omega) inside stillBlank
  | @tag text opening length tags found ends spaced ih =>
      intro builder first source start offset same below bound blank
      have tagBound : opening.length + length ≤ text.length := by
        have endBound := (Tag.tail?_append ends []).2.2
        have split := (Tag.opening?_eq_some found).1
        rw [split, List.length_append, Tag.openingSource_length]
        omega
      have lengths := congrArg List.length same
      rw [List.length_drop] at lengths
      have noPhrase : phrase first source start offset = [] := phrase_of_blank blank
      have behind : source.drop (offset + opening.length + length) =
          text.drop (opening.length + length) := by
        rw [← same, List.drop_drop, Nat.add_assoc]
      rw [Tag.scanFrom_of_tag found ends]
      simp only [addTags, List.map_cons, handleAll]
      rw [show (Tag.ofOpening offset opening length).start = offset from rfl, noPhrase, add_nil]
      cases builder.handle (Tag.ofOpening offset opening length)
          (sourcePosition first source offset) with
      | error error => rfl
      | ok next =>
          apply ih next first source _ _ behind (Nat.le_refl _)
          · omega
          · simp

theorem addPart_of_spaced {source : Text} {tags found : List Tag}
    (spaced : Tag.Spaced source tags) (scanned : Tag.scan source = ⟨found, none⟩) (first : Nat) :
    ∃ placed : List PlacedTag, placed.map (fun given => given.tag.bare) = tags ∧
      ∀ builder : Builder,
        builder.addPart (.tagged first source found) = builder.handleAll placed := by
  have same : (Tag.scanFrom 0 0 source).tags = found := congrArg Tag.Found.tags scanned
  have bareTags := (spaced.scan 0).2
  rw [same] at bareTags
  refine ⟨found.map fun tag => ⟨tag, sourcePosition first source tag.start⟩, ?_, ?_⟩
  · rw [← bareTags, List.map_map]
    rfl
  · intro builder
    have added := addTags_of_spaced spaced builder first source 0 0 rfl (Nat.le_refl _)
      (Nat.zero_le _) (by simp)
    rw [same] at added
    exact added

end Builder

theorem proseNodes_of_blank {first : Nat} {lines : List Text}
    (blank : ∀ line ∈ lines, Text.isBlankText line = true) : proseNodes first lines = [] := by
  have all : lines.all Text.isBlankText = true := List.all_eq_true.mpr blank
  simp [proseNodes, all]

theorem addParts_proseBefore {prose : List Text}
    (blank : ∀ line ∈ prose, Text.isBlankText line = true) (builder : Builder) (number : Nat)
    (parts : List Part) :
    builder.addParts (proseBefore number prose ++ parts) = builder.addParts parts := by
  have noNodes : proseNodes (number - prose.length) prose.reverse = [] :=
    proseNodes_of_blank (by simpa using blank)
  rw [Builder.addParts_prose, noNodes, Builder.add_nil]

theorem startsWithTag_of_spaced {text : Text} {tags : List Tag} (spaced : Tag.Spaced text tags) :
    ∀ line more, (text = line ∨ text = line ++ '\n' :: more) →
      Text.isBlankText line = true ∨ startsWithTag line = true := by
  induction spaced with
  | done =>
      intro line more same
      have empty : line = [] := by
        rcases same with same | same
        · exact same.symm
        · simp at same
      exact Or.inl (by simp [empty, Text.isBlankText])
  | @blank c rest tags isBlank spaced ih =>
      intro line more same
      cases line with
      | nil => exact Or.inl rfl
      | cons d line =>
          have parts : c = d ∧ (rest = line ∨ rest = line ++ '\n' :: more) := by
            rcases same with same | same
            · obtain ⟨first, later⟩ := List.cons.inj same
              exact ⟨first, Or.inl later⟩
            · obtain ⟨first, later⟩ := List.cons.inj same
              exact ⟨first, Or.inr later⟩
          obtain ⟨rfl, later⟩ := parts
          rcases ih line more later with blank | starts
          · exact Or.inl (by simpa [Text.isBlankText, isBlank] using blank)
          · exact Or.inr (by simpa [startsWithTag, isBlank] using starts)
  | @tag text opening length tags found ends spaced ih =>
      intro line more same
      have opens : ∃ inner, Tag.opening? line = some inner := by
        rcases same with rfl | rfl
        · exact ⟨opening, found⟩
        · rw [Tag.opening?_append_line] at found
          obtain ⟨inner, opens, -⟩ := Option.map_eq_some_iff.mp found
          exact ⟨inner, opens⟩
      obtain ⟨inner, opens⟩ := opens
      refine Or.inr ?_
      cases line with
      | nil => simp [Tag.opening?] at opens
      | cons c line =>
          cases isBlank : Text.isBlank c with
          | true => simp [Tag.opening?_of_isBlank isBlank] at opens
          | false => simp [startsWithTag, isBlank, opens]

theorem trim_of_blank {line : Text} (blank : Text.isBlankText line = true) :
    Text.trim line = [] := by
  have empty : Text.trimStart line = [] :=
    List.dropWhile_eq_nil_iff.mpr (by simpa [Text.isBlankText] using blank)
  simp [Text.trim, empty, Text.trimEnd]

theorem trim_of_startsWithTag {line : Text} (starts : startsWithTag line = true) :
    ∃ others, Text.trim line = '<' :: others := by
  obtain ⟨opening, opens⟩ := Option.isSome_iff_exists.mp starts
  obtain ⟨split, -, -⟩ := Tag.opening?_eq_some opens
  obtain ⟨rest, head⟩ : ∃ rest, Text.trimStart line = '<' :: rest := by
    simp only [Text.trimStart]
    rw [split]
    cases opening.closing <;> simp [Tag.openingSource]
  obtain ⟨others, trimmed⟩ := Text.trimEnd_cons (by decide : Text.isBlank '<' = false) rest
  exact ⟨others, by rw [Text.trim, head, trimmed]⟩

theorem fenceRun?_of_blank {line : Text} (blank : Text.isBlankText line = true) :
    fenceRun? line = none := by
  simp [fenceRun?, trim_of_blank blank]

theorem fenceRun?_of_startsWithTag {line : Text} (starts : startsWithTag line = true) :
    fenceRun? line = none := by
  obtain ⟨others, trimmed⟩ := trim_of_startsWithTag starts
  simp [fenceRun?, trimmed]

theorem isBlankText_of_isStatement {line : Text} (statement : isStatement line = true) :
    Text.isBlankText line = false := by
  obtain ⟨c, rest, rfl, rfl | rfl⟩ := isStatement_head statement
  · simp [Text.isBlankText, Text.isBlank]
  · simp [Text.isBlankText, Text.isBlank]

/-- Spaced source is cut after any lines whose tags all end. -/
theorem split_spaced (front : List Text) {back : List Text} {tags : List Tag}
    (nonempty : front ≠ [])
    (spaced : Tag.Spaced (Text.unlines (front ++ back)) tags)
    (complete : (Tag.scan (Text.unlines front)).unterminated = none) :
    ∃ before after, tags = before ++ after ∧ Tag.Spaced (Text.unlines front) before ∧
      Tag.Spaced (Text.unlines back) after := by
  cases back with
  | nil => exact ⟨tags, [], by simp, by simpa using spaced, .done⟩
  | cons line back =>
      rw [Text.unlines_append front _ nonempty (by simp)] at spaced
      exact spaced.split_line _ _ 0 rfl complete

theorem spaced_of_blank {line : Text} {lines : List Text} {tags : List Tag}
    (blank : Text.isBlankText line = true)
    (spaced : Tag.Spaced (Text.unlines (line :: lines)) tags) :
    Tag.Spaced (Text.unlines lines) tags := by
  have gap : Tag.Spaced (Text.unlines [line]) [] := by
    rw [Text.unlines_singleton]
    exact .of_blank (List.all_eq_true.mp blank)
  obtain ⟨before, after, rfl, left, right⟩ :=
    split_spaced [line] (by simp) spaced (gap.scan 0).1
  have none : before = [] := by
    rw [← (left.scan 0).2, (gap.scan 0).2]
  simpa [none] using right

theorem firstLine_of_spaced {line : Text} {lines : List Text} {tags : List Tag}
    (spaced : Tag.Spaced (Text.unlines (line :: lines)) tags) :
    Text.isBlankText line = true ∨ startsWithTag line = true := by
  refine startsWithTag_of_spaced spaced line (Text.unlines lines) ?_
  cases lines with
  | nil => exact Or.inl (Text.unlines_singleton line)
  | cons next lines => exact Or.inr (Text.unlines_cons_cons line next lines)

theorem splitData?_of_spaced {lines : List Text} {tags : List Tag}
    (spaced : Tag.Spaced (Text.unlines lines) tags) : splitData? lines = none := by
  cases lines with
  | nil => rfl
  | cons line lines =>
      have noBoundary : isBoundary line = false := by
        rcases firstLine_of_spaced spaced with blank | starts
        · simp [isBoundary, trim_of_blank blank]
        · obtain ⟨others, trimmed⟩ := trim_of_startsWithTag starts
          simp [isBoundary, trimmed]
      simp [splitData?, noBoundary]

theorem fenceRun?_of_spaced {line : Text} {lines : List Text} {tags : List Tag}
    (spaced : Tag.Spaced (Text.unlines (line :: lines)) tags) : fenceRun? line = none := by
  rcases firstLine_of_spaced spaced with blank | starts
  · exact fenceRun?_of_blank blank
  · exact fenceRun?_of_startsWithTag starts

theorem isStatement_of_spaced {line : Text} {lines : List Text} {tags : List Tag}
    (spaced : Tag.Spaced (Text.unlines (line :: lines)) tags) : isStatement line = false := by
  by_contra statement
  rw [Bool.not_eq_false] at statement
  rcases firstLine_of_spaced spaced with blank | starts
  · simp [isBlankText_of_isStatement statement] at blank
  · simp [startsWithTag_of_isStatement statement] at starts

/-- The parts of spaced source amount to its tags. -/
theorem addParts_of_spaced {depth number : Nat} {prose lines : List Text} {parts : List Part}
    (cut : Cut depth number prose lines parts) :
    ∀ tags, Tag.Spaced (Text.unlines lines) tags →
      (∀ line ∈ prose, Text.isBlankText line = true) →
      ∃ placed : List PlacedTag, placed.map (fun given => given.tag.bare) = tags ∧
        ∀ builder : Builder, builder.addParts parts = builder.handleAll placed := by
  -- the lines that wait are blank, so they add nothing when the next tag comes
  induction cut with
  | done depth number prose =>
      intro tags spaced blank
      have none : tags = [] := by
        cases spaced with
        | done => rfl
        | tag found => simp [Tag.opening?] at found
      refine ⟨[], by simp [none], ?_⟩
      intro builder
      have added := addParts_proseBefore blank builder number []
      rwa [List.append_nil] at added
  | prose noFence noTag _ ih =>
      intro tags spaced blank
      rcases firstLine_of_spaced spaced with isBlank | starts
      · apply ih tags (spaced_of_blank isBlank spaced)
        rw [List.forall_mem_cons]
        exact ⟨isBlank, blank⟩
      · simp [noTag] at starts
  | fenced fence _ _ _ _ =>
      intro tags spaced blank
      simp [fenceRun?_of_spaced spaced] at fence
  | openFence fence _ =>
      intro tags spaced blank
      simp [fenceRun?_of_spaced spaced] at fence
  | statement _ _ statement _ _ =>
      intro tags spaced blank
      simp [isStatement_of_spaced spaced] at statement
  | @tagged depth number prose line more rest found parts _ _ _ scanned _ ih =>
      intro tags spaced blank
      have complete : (Tag.scan (Text.unlines (line :: more))).unterminated = none := by
        rw [scanned]
      obtain ⟨before, after, rfl, left, right⟩ :=
        split_spaced (line :: more) (by simp) spaced complete
      obtain ⟨first, firstBare, added⟩ := Builder.addPart_of_spaced left scanned number
      obtain ⟨later, laterBare, built⟩ := ih after right (by simp)
      refine ⟨first ++ later, by simp [firstBare, laterBare], ?_⟩
      intro builder
      rw [addParts_proseBefore blank, Builder.handleAll_append, Builder.addParts, added]
      cases builder.handleAll first with
      | error error => rfl
      | ok next => exact built next
  | unterminated _ _ _ scanned =>
      intro tags spaced blank
      have complete := (spaced.scan 0).1
      rw [show Tag.scanFrom 0 0 _ = Tag.scan _ from rfl, scanned] at complete
      simp at complete

end MdxCheck.Document
