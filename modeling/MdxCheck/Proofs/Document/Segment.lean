import MdxCheck.Document.Parse
import MdxCheck.Proofs.Document.Builder
import MdxCheck.Proofs.Text.Lines
import Mathlib.Data.List.TakeWhile

/-!
The pieces of source that are read for tags, told from the lines alone, and how the parts of a
document relate to them: cutting keeps track of open components and of prose, yet its pieces of
source with tags are the same.
-/

namespace MdxCheck.Document

/-- A piece of source that starts with a tag; `first` is the number of its first line. -/
structure Segment where
  first : Nat
  source : Text

structure PlacedTag where
  tag : Tag
  position : Position

namespace Segment

def tags (segment : Segment) : List PlacedTag :=
  (Tag.scan segment.source).tags.map fun tag =>
    ⟨tag, Builder.sourcePosition segment.first segment.source tag.start⟩

def openTag? (segment : Segment) : Option Position :=
  (Tag.scan segment.source).unterminated.map
    (Builder.sourcePosition segment.first segment.source)

end Segment

/-- The lines that a segment takes after its first `source`: as many as its last tag needs. -/
def extension (source : Text) : List Text → List Text
  | [] => []
  | line :: lines =>
    if (Tag.scan source).unterminated.isNone then []
    else line :: extension (source ++ '\n' :: line) lines

/-- The segments of the lines from line `number` on. A run of fenced code hides its lines up to the
one that closes it, and a segment begins at every other line that starts with a tag. -/
def segmentsFrom (number : Nat) : List Text → List Segment
  | [] => []
  | line :: lines =>
    match fenceRun? line with
    | some run =>
      let code := lines.takeWhile fun line => !closesFence run line
      segmentsFrom (number + 1 + code.length + 1) (lines.drop (code.length + 1))
    | none =>
      if startsWithTag line then
        let more := extension line lines
        ⟨number, Text.unlines (line :: more)⟩ ::
          segmentsFrom (number + 1 + more.length) (lines.drop more.length)
      else segmentsFrom (number + 1) lines
termination_by lines => lines.length

def segments (text : Text) : List Segment :=
  match splitData? (Text.lines text) with
  | some (inside, body) => segmentsFrom (inside.length + 3) body
  | none => segmentsFrom 1 (Text.lines text)

/-- The complete tags of some segments; a segment that does not end counts for none. -/
def closedTags (segments : List Segment) : List PlacedTag :=
  (segments.filter fun segment => segment.openTag?.isNone).flatMap Segment.tags

def documentTags (text : Text) : List PlacedTag :=
  closedTags (segments text)

def documentOpenTag? (text : Text) : Option Position :=
  (segments text).findSome? Segment.openTag?

/-- A block of data at the start of some lines: it stands between the first line and the next one
that bounds it. -/
structure DataLines (lines : List Text) (first : Text) (inside : List Text) (stop : Text)
    (body : List Text) : Prop where
  split : lines = first :: (inside ++ stop :: body)
  opens : isBoundary first = true
  closes : isBoundary stop = true
  between : ∀ line ∈ inside, isBoundary line = false

theorem splitData?_eq_some {lines inside body : List Text}
    (split : splitData? lines = some (inside, body)) :
    ∃ first stop, DataLines lines first inside stop body := by
  cases lines with
  | nil => simp [splitData?] at split
  | cons first lines =>
      simp only [splitData?, Text.drop_length_takeWhile] at split
      split at split
      next opens =>
        have parts := List.takeWhile_append_dropWhile (p := fun line => !isBoundary line)
          (l := lines)
        have closing := List.head?_dropWhile_not (fun line => !isBoundary line) lines
        cases after : lines.dropWhile fun line => !isBoundary line with
        | nil => simp [after] at split
        | cons stop rest =>
            simp only [after, Option.some.injEq, Prod.mk.injEq] at split
            obtain ⟨rfl, rfl⟩ := split
            rw [after] at parts closing
            refine ⟨first, stop, by rw [parts], opens, by simpa using closing, ?_⟩
            intro line member
            simpa using List.mem_takeWhile_imp member
      next => simp at split

theorem splitData?_of_dataLines {lines inside body : List Text} {first stop : Text}
    (data : DataLines lines first inside stop body) : splitData? lines = some (inside, body) := by
  obtain ⟨rfl, opens, closes, between⟩ := data
  have before : ∀ line ∈ inside, (!isBoundary line) = true := by simpa using between
  have taken : (inside ++ stop :: body).takeWhile (fun line => !isBoundary line) = inside := by
    rw [List.takeWhile_append_of_pos before]
    simp [closes]
  simp [splitData?, opens, taken]

/-- The body of a document of these lines: the number of its first line, the nodes before it and
its lines. -/
inductive BodyOf (lines : List Text) : Nat → List Node → List Text → Prop
  | whole : splitData? lines = none → BodyOf lines 1 [] lines
  | afterData {inside body} : splitData? lines = some (inside, body) →
      BodyOf lines (inside.length + 3) [dataNode inside] body

theorem parse_eq_parseBody (text : Text) :
    ∃ number nodes body, BodyOf (Text.lines text) number nodes body ∧
      segments text = segmentsFrom number body ∧
      parse text = (parseBody number nodes body (Text.lines text)).map fun nodes =>
        .root nodes (some ⟨1, 1⟩) := by
  cases split : splitData? (Text.lines text) with
  | none =>
      refine ⟨1, [], Text.lines text, .whole split, by simp [segments, split], ?_⟩
      simp only [parse, split]
      cases parseBody 1 [] (Text.lines text) (Text.lines text) <;> rfl
  | some parts =>
      obtain ⟨inside, body⟩ := parts
      refine ⟨inside.length + 3, [dataNode inside], body, .afterData split,
        by simp [segments, split], ?_⟩
      simp only [parse, split]
      cases parseBody (inside.length + 3) [dataNode inside] body (Text.lines text) <;> rfl

/-- The nodes of a tree are what the parts of the body leave, with no component open. -/
theorem addParts_of_parse {text : Text} {tree : Node} (parsed : parse text = .ok tree) :
    ∃ number before body nodes, BodyOf (Text.lines text) number before body ∧
      tree = .root nodes (some ⟨1, 1⟩) ∧
      (Builder.empty.add before).addParts (partsFrom .plain 0 number [] body) =
        .ok ⟨nodes, []⟩ := by
  obtain ⟨number, before, body, start, -, same⟩ := parse_eq_parseBody text
  rw [same] at parsed
  obtain ⟨nodes, result, rfl⟩ := exists_of_map_ok parsed
  obtain ⟨builder, added, finished⟩ := exists_of_bind_ok result
  cases builder with
  | mk built opened =>
      cases opened with
      | cons inner outer => simp [Builder.finish] at finished
      | nil =>
          obtain rfl : built = nodes := Except.ok.inj finished
          exact ⟨number, before, body, built, start, rfl, added⟩

/-! Cutting a document into parts, one mode at a time. -/

theorem partsFrom_fenced (run : Text) (depth : Nat) (lines : List Text) :
    ∀ number prose,
      partsFrom (.fenced run) depth number prose lines =
        let code := lines.takeWhile fun line => !closesFence run line
        match lines.drop code.length with
        | [] => proseBefore (number + code.length) (code.reverse ++ prose)
        | stop :: rest =>
          partsFrom .plain depth (number + code.length + 1) (stop :: (code.reverse ++ prose))
            rest := by
  induction lines with
  | nil =>
      intro number prose
      simp [partsFrom]
  | cons line lines ih =>
      intro number prose
      by_cases closes : closesFence run line = true
      · simp [partsFrom, closes]
      · simp only [partsFrom, closes, List.takeWhile_cons]
        simp only [Bool.false_eq_true, ↓reduceIte, Bool.not_false, List.length_cons,
          List.drop_succ_cons, List.reverse_cons, List.append_assoc, List.singleton_append]
        rw [ih]
        simp only [Nat.add_assoc, Nat.add_comm 1]

theorem extension_of_complete (source : Text) (lines : List Text)
    (complete : (Tag.scan source).unterminated = none) : extension source lines = [] := by
  cases lines with
  | nil => rfl
  | cons line lines => simp [extension, complete]

theorem partsFrom_tagged (first depth : Nat) (lines : List Text) :
    ∀ number source, (Tag.scan source).unterminated ≠ none →
      partsFrom (.tagged first source) depth number [] lines =
        let more := extension source lines
        let whole := Text.unlines (source :: more)
        match (Tag.scan whole).unterminated with
        | none =>
          .tagged first whole (Tag.scan whole).tags ::
            partsFrom .plain (depthAfter depth (Tag.scan whole).tags) (number + more.length) []
              (lines.drop more.length)
        | some offset => [.unterminated first whole offset] := by
  induction lines with
  | nil =>
      intro number source pending
      obtain ⟨offset, found⟩ := Option.ne_none_iff_exists'.mp pending
      simp [partsFrom, proseBefore, extension, found]
  | cons line lines ih =>
      intro number source pending
      have unfinished : (Tag.scan source).unterminated.isNone = false :=
        Option.isNone_eq_false_iff.mpr (Option.isSome_iff_ne_none.mpr pending)
      simp only [partsFrom, extension, unfinished, Bool.false_eq_true, ↓reduceIte,
        ← Text.unlines_joined, List.length_cons, List.drop_succ_cons]
      cases scanned : Tag.scan (source ++ '\n' :: line) with
      | mk tags unterminated =>
          cases unterminated with
          | none =>
              rw [extension_of_complete _ _ (by rw [scanned])]
              simp [scanned]
          | some offset =>
              simp only
              rw [ih _ _ (by rw [scanned]; simp)]
              simp only [Nat.add_assoc, Nat.add_comm 1]

theorem partsFrom_startsWithTag (depth number : Nat) (prose : List Text) (line : Text)
    (lines : List Text) (noFence : fenceRun? line = none)
    (noStatement : ¬(depth = 0 ∧ isStatement line = true)) (tag : startsWithTag line = true) :
    partsFrom .plain depth number prose (line :: lines) =
      let more := extension line lines
      let whole := Text.unlines (line :: more)
      proseBefore number prose ++
        match (Tag.scan whole).unterminated with
        | none =>
          .tagged number whole (Tag.scan whole).tags ::
            partsFrom .plain (depthAfter depth (Tag.scan whole).tags) (number + 1 + more.length) []
              (lines.drop more.length)
        | some offset => [.unterminated number whole offset] := by
  simp only [partsFrom, noFence, noStatement, ↓reduceIte, tag]
  cases scanned : Tag.scan line with
  | mk tags unterminated =>
      cases unterminated with
      | none =>
          rw [extension_of_complete _ _ (by rw [scanned])]
          simp [scanned]
      | some offset =>
          simp only
          rw [partsFrom_tagged _ _ _ _ _ (by rw [scanned]; simp)]

theorem extension_append_drop (lines : List Text) :
    ∀ source, extension source lines ++ lines.drop (extension source lines).length = lines := by
  induction lines with
  | nil => intro source; rfl
  | cons line lines ih =>
      intro source
      simp only [extension]
      split
      · simp
      · simp [ih]

theorem extension_of_open (lines : List Text) :
    ∀ source, (Tag.scan (Text.unlines (source :: extension source lines))).unterminated ≠ none →
      extension source lines = lines := by
  induction lines with
  | nil => intro source _; rfl
  | cons line lines ih =>
      intro source pending
      simp only [extension] at pending ⊢
      split at pending
      next complete =>
        exact absurd (by simpa using complete) pending
      next unfinished =>
        rw [← Text.unlines_joined] at pending
        simp [unfinished, ih _ pending]

/-- A statement opens with a letter, so it neither opens fenced code nor starts with a tag. -/
theorem isStatement_head {line : Text} (statement : isStatement line = true) :
    ∃ c rest, line = c :: rest ∧ (c = 'i' ∨ c = 'e') := by
  cases line with
  | nil => simp [isStatement, Text.dropStart?] at statement
  | cons c rest =>
      refine ⟨c, rest, rfl, ?_⟩
      by_cases first : c = 'i'
      · exact Or.inl first
      · by_cases second : c = 'e'
        · exact Or.inr second
        · simp [isStatement, Text.dropStart?, Ne.symm first, Ne.symm second] at statement

theorem startsWithTag_of_isStatement {line : Text} (statement : isStatement line = true) :
    startsWithTag line = false := by
  obtain ⟨c, rest, rfl, rfl | rfl⟩ := isStatement_head statement
  · simp [startsWithTag, Text.isBlank, Tag.opening?]
  · simp [startsWithTag, Text.isBlank, Tag.opening?]

/-- How the lines from line `number` on are cut while `depth` components are open and the lines of
`prose`, the last of them first, are not yet part of any part. -/
inductive Cut : Nat → Nat → List Text → List Text → List Part → Prop
  | done (depth number : Nat) (prose : List Text) :
      Cut depth number prose [] (proseBefore number prose)
  | prose {depth number prose line lines parts} :
      fenceRun? line = none → startsWithTag line = false →
      Cut depth (number + 1) (line :: prose) lines parts →
      Cut depth number prose (line :: lines) parts
  | fenced {depth number prose line run code stop rest parts} :
      fenceRun? line = some run → (∀ inside ∈ code, closesFence run inside = false) →
      closesFence run stop = true →
      Cut depth (number + 1 + code.length + 1) (stop :: (code.reverse ++ line :: prose)) rest parts →
      Cut depth number prose (line :: (code ++ stop :: rest)) parts
  | openFence {depth number prose line run code} :
      fenceRun? line = some run → (∀ inside ∈ code, closesFence run inside = false) →
      Cut depth number prose (line :: code)
        (proseBefore (number + 1 + code.length) (code.reverse ++ line :: prose))
  | statement {depth number prose line lines parts} :
      fenceRun? line = none → depth = 0 → isStatement line = true →
      Cut depth (number + 1) [] lines parts →
      Cut depth number prose (line :: lines)
        (proseBefore number prose ++ .statement number line :: parts)
  | tagged {depth number prose line more rest tags parts} :
      fenceRun? line = none → startsWithTag line = true → extension line (more ++ rest) = more →
      Tag.scan (Text.unlines (line :: more)) = ⟨tags, none⟩ →
      Cut (depthAfter depth tags) (number + 1 + more.length) [] rest parts →
      Cut depth number prose (line :: (more ++ rest))
        (proseBefore number prose ++ .tagged number (Text.unlines (line :: more)) tags :: parts)
  | unterminated {depth number prose line more tags offset} :
      fenceRun? line = none → startsWithTag line = true → extension line more = more →
      Tag.scan (Text.unlines (line :: more)) = ⟨tags, some offset⟩ →
      Cut depth number prose (line :: more)
        (proseBefore number prose ++ [.unterminated number (Text.unlines (line :: more)) offset])

section

variable {line : Text} {lines : List Text}
  (shorter : ∀ rest : List Text, rest.length ≤ lines.length → ∀ depth number prose,
    Cut depth number prose rest (partsFrom .plain depth number prose rest))
  (depth number : Nat) (prose : List Text) (fence : fenceRun? line = none)

include shorter

theorem cut_fenced {run : Text} (opens : fenceRun? line = some run) :
    Cut depth number prose (line :: lines)
      (partsFrom .plain depth number prose (line :: lines)) := by
  have skipped : ∀ inside ∈ lines.takeWhile fun line => !closesFence run line,
      closesFence run inside = false := by
    intro inside member
    simpa using List.mem_takeWhile_imp member
  have split := List.takeWhile_append_dropWhile (p := fun line => !closesFence run line) (l := lines)
  have closing := List.head?_dropWhile_not (fun line => !closesFence run line) lines
  simp only [partsFrom, opens, partsFrom_fenced, Text.drop_length_takeWhile]
  cases after : lines.dropWhile fun line => !closesFence run line with
  | nil =>
      rw [after, List.append_nil] at split
      have cut := @Cut.openFence depth number prose _ _ _ opens skipped
      rw [split] at cut
      simpa [split] using cut
  | cons stop others =>
      rw [after] at split closing
      have less : others.length ≤ lines.length := by
        have lengths := congrArg List.length split
        simp only [List.length_append, List.length_cons] at lengths
        omega
      have cut := @Cut.fenced depth number prose _ _ _ _ _ _ opens skipped (by simpa using closing)
        (shorter others less depth _ _)
      rwa [split] at cut

include fence

theorem cut_tagged (noStatement : ¬(depth = 0 ∧ isStatement line = true))
    (tag : startsWithTag line = true) :
    Cut depth number prose (line :: lines)
      (partsFrom .plain depth number prose (line :: lines)) := by
  rw [partsFrom_startsWithTag _ _ _ _ _ fence noStatement tag]
  have split := extension_append_drop lines line
  have less : (lines.drop (extension line lines).length).length ≤ lines.length := by
    simp only [List.length_drop]
    omega
  cases scanned : Tag.scan (Text.unlines (line :: extension line lines)) with
  | mk tags unterminated =>
      cases unterminated with
      | none =>
          have cut := @Cut.tagged depth number prose _ _ _ _ _ fence tag
            (congrArg (extension line) split) scanned (shorter _ less _ _ [])
          rw [split] at cut
          simpa [scanned] using cut
      | some offset =>
          have all := extension_of_open lines line (by rw [scanned]; simp)
          rw [all] at scanned
          have cut := @Cut.unterminated depth number prose _ _ _ _ fence tag all scanned
          simpa [all, scanned] using cut

theorem cut_unfenced :
    Cut depth number prose (line :: lines)
      (partsFrom .plain depth number prose (line :: lines)) := by
  by_cases statement : depth = 0 ∧ isStatement line = true
  · simp only [partsFrom, fence, statement, and_self, ↓reduceIte]
    exact .statement fence rfl statement.2 (shorter lines (Nat.le_refl _) 0 _ _)
  · cases tag : startsWithTag line with
    | true => exact cut_tagged shorter depth number prose fence statement tag
    | false =>
        simp only [partsFrom, fence, statement, tag, ↓reduceIte, Bool.false_eq_true]
        exact .prose fence tag (shorter lines (Nat.le_refl _) depth _ _)

end

theorem partsFrom_cut_within (count : Nat) :
    ∀ lines, lines.length ≤ count → ∀ depth number prose,
      Cut depth number prose lines (partsFrom .plain depth number prose lines) := by
  -- one part may take many lines, so the induction is on a bound of their number
  induction count with
  | zero =>
      intro lines bound depth number prose
      obtain rfl : lines = [] := List.eq_nil_of_length_eq_zero (by omega)
      simpa [partsFrom] using Cut.done depth number prose
  | succ count ih =>
      intro lines bound depth number prose
      cases lines with
      | nil => simpa [partsFrom] using Cut.done depth number prose
      | cons line lines =>
          rw [List.length_cons, Nat.add_le_add_iff_right] at bound
          have shorter : ∀ rest : List Text, rest.length ≤ lines.length → ∀ depth number prose,
              Cut depth number prose rest (partsFrom .plain depth number prose rest) := by
            intro rest less
            exact ih rest (Nat.le_trans less bound)
          cases fence : fenceRun? line with
          | some run => exact cut_fenced shorter depth number prose fence
          | none => exact cut_unfenced shorter depth number prose fence

theorem partsFrom_cut (depth number : Nat) (prose lines : List Text) :
    Cut depth number prose lines (partsFrom .plain depth number prose lines) :=
  partsFrom_cut_within lines.length lines (Nat.le_refl _) depth number prose

def Part.segment? : Part → Option Segment
  | .tagged first source _ => some ⟨first, source⟩
  | .unterminated first source _ => some ⟨first, source⟩
  | _ => none

theorem segment_of_proseBefore (number : Nat) (prose : List Text) :
    (proseBefore number prose).filterMap Part.segment? = [] := by
  simp only [proseBefore]
  split <;> simp [Part.segment?]

theorem takeWhile_code {run : Text} {code : List Text}
    (inside : ∀ line ∈ code, closesFence run line = false) {stop : Text}
    (closes : closesFence run stop = true) (rest : List Text) :
    (code ++ stop :: rest).takeWhile (fun line => !closesFence run line) = code := by
  rw [List.takeWhile_append_of_pos (by simpa using inside)]
  simp [closes]

/-- The segments of a document are those that its lines have in themselves: neither the depth nor
the prose plays a part. -/
theorem segments_of_cut {depth number : Nat} {prose lines : List Text} {parts : List Part}
    (cut : Cut depth number prose lines parts) :
    parts.filterMap Part.segment? = segmentsFrom number lines := by
  induction cut with
  | done depth number prose => simp [segment_of_proseBefore, segmentsFrom]
  | prose noFence noTag _ ih =>
      rw [segmentsFrom, noFence]
      simpa [noTag] using ih
  | fenced fence inside closes _ ih =>
      rw [segmentsFrom, fence]
      simpa [takeWhile_code inside closes] using ih
  | @openFence _ number prose line run code fence inside =>
      have all : code.takeWhile (fun line => !closesFence run line) = code :=
        List.takeWhile_eq_self_iff.mpr (by simpa using inside)
      rw [segmentsFrom, fence]
      simp [all, segment_of_proseBefore, segmentsFrom, List.drop_eq_nil_of_le]
  | statement noFence _ statement _ ih =>
      rw [segmentsFrom, noFence]
      simpa [startsWithTag_of_isStatement statement, segment_of_proseBefore, List.filterMap_cons,
        Part.segment?] using ih
  | tagged noFence tag taken _ _ ih =>
      rw [segmentsFrom, noFence]
      simpa [tag, taken, segment_of_proseBefore, List.filterMap_cons, Part.segment?] using ih
  | unterminated noFence tag taken _ =>
      rw [segmentsFrom, noFence]
      simp [tag, taken, segment_of_proseBefore, Part.segment?, segmentsFrom]

def Part.Complete : Part → Prop
  | .tagged _ source tags => Tag.scan source = ⟨tags, none⟩
  | .unterminated _ _ _ => False
  | _ => True

theorem complete_of_proseBefore {number : Nat} {prose : List Text} :
    ∀ part ∈ proseBefore number prose, part.Complete := by
  intro part member
  simp only [proseBefore] at member
  split at member
  · simp at member
  · simp only [List.mem_singleton] at member
    subst member
    trivial

theorem forall_flush {property : Part → Prop} {number : Nat} {prose : List Text} {part : Part}
    {parts : List Part} (waiting : ∀ other ∈ proseBefore number prose, property other)
    (first : property part) (later : ∀ other ∈ parts, property other) :
    ∀ other ∈ proseBefore number prose ++ part :: parts, property other := by
  rw [List.forall_mem_append, List.forall_mem_cons]
  exact ⟨waiting, first, later⟩

inductive OpenEnd : List Part → Prop
  | none : OpenEnd []
  | unterminated {first source tags offset} : Tag.scan source = ⟨tags, some offset⟩ →
      OpenEnd [.unterminated first source offset]

/-- Only the last part of a document may lack the end of its tag. -/
theorem Cut.complete_append {depth number : Nat} {prose lines : List Text} {parts : List Part}
    (cut : Cut depth number prose lines parts) :
    ∃ complete last, parts = complete ++ last ∧ (∀ part ∈ complete, part.Complete) ∧
      OpenEnd last := by
  induction cut with
  | done => exact ⟨_, [], (List.append_nil _).symm, complete_of_proseBefore, .none⟩
  | prose _ _ _ ih => exact ih
  | fenced _ _ _ _ ih => exact ih
  | openFence => exact ⟨_, [], (List.append_nil _).symm, complete_of_proseBefore, .none⟩
  | @statement _ number prose line _ _ _ _ _ _ ih =>
      obtain ⟨complete, last, rfl, later, ends⟩ := ih
      have whole : Part.Complete (.statement number line) := trivial
      have all := forall_flush (@complete_of_proseBefore number prose) whole later
      exact ⟨_, last, by simp, all, ends⟩
  | @tagged _ number prose line more _ tags _ _ _ _ scanned _ ih =>
      obtain ⟨complete, last, rfl, later, ends⟩ := ih
      have whole : Part.Complete (.tagged number _ tags) := scanned
      have all := forall_flush (@complete_of_proseBefore number prose) whole later
      exact ⟨_, last, by simp, all, ends⟩
  | unterminated _ _ _ scanned =>
      exact ⟨_, _, rfl, complete_of_proseBefore, .unterminated scanned⟩

end MdxCheck.Document
