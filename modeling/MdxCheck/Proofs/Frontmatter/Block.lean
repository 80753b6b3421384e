import MdxCheck.Frontmatter.Basic
import MdxCheck.Proofs.Document.Places
import MdxCheck.Proofs.Text.Cut

/-!
The two readings of the lines before the body of a document: the block of data that its tree starts
with, and the frontmatter whose fields are checked.
-/

namespace MdxCheck

def Node.data? : Node → Option Text
  | .root (.element kind _ value _ :: _) _ => if kind = "yaml".toList then value else none
  | _ => none

namespace Frontmatter

/-- A line that bounds frontmatter: three hyphens, then spaces and tabs only. -/
def isFence (line : Text) : Bool :=
  match Text.dropStart? ['-', '-', '-'] line with
  | some rest => (afterSpaces rest).isEmpty
  | none => false

def opensEmpty : List Text → Bool
  | first :: second :: _ => isFence first && isFence second
  | _ => false

/-- The frontmatter of a text, where the empty block counts as empty frontmatter even if no source
is read from it. -/
def block? (text : Text) : Option Text :=
  (source? text).or (if opensEmpty (Text.lines text) then some [] else none)

/-! Reading frontmatter line by line. -/

theorem dropStart?_append {start line : Text} (noFeed : '\n' ∉ start) {rest : Text}
    (ends : rest = [] ∨ ∃ more, rest = '\n' :: more) :
    Text.dropStart? start (line ++ rest) = (Text.dropStart? start line).map (· ++ rest) := by
  induction start generalizing line with
  | nil => simp [Text.dropStart?]
  | cons c start ih =>
      simp only [List.mem_cons, not_or] at noFeed
      cases line with
      | nil =>
          rcases ends with rfl | ⟨more, rfl⟩
          · simp [Text.dropStart?]
          · simp [Text.dropStart?, Ne.symm noFeed.1]
      | cons d line =>
          by_cases same : c = d
          · simp [Text.dropStart?, same, ih noFeed.2]
          · simp [Text.dropStart?, same]

theorem afterSpaces_append {text rest : Text} (ends : rest = [] ∨ ∃ more, rest = '\n' :: more) :
    afterSpaces (text ++ rest) =
      if afterSpaces text = [] then rest else afterSpaces text ++ rest := by
  by_cases empty : afterSpaces text = []
  · have kept : afterSpaces rest = rest := by
      rcases ends with rfl | ⟨more, rfl⟩ <;> simp [afterSpaces]
    rw [if_pos empty, afterSpaces,
      List.dropWhile_append_of_pos (List.dropWhile_eq_nil_iff.mp empty)]
    exact kept
  · rw [if_neg empty, afterSpaces, List.dropWhile_append, if_neg]
    · rfl
    · intro isEmpty
      exact empty (List.isEmpty_iff.mp isEmpty)

theorem mem_of_mem_dropStart? {start text rest : Text}
    (dropped : Text.dropStart? start text = some rest) {c : Char} (member : c ∈ rest) :
    c ∈ text := by
  induction start generalizing text with
  | nil =>
      obtain rfl : text = rest := by simpa [Text.dropStart?] using dropped
      exact member
  | cons d start ih =>
      cases text with
      | nil => simp [Text.dropStart?] at dropped
      | cons e text =>
          simp only [Text.dropStart?] at dropped
          split at dropped
          next => exact List.mem_cons_of_mem _ (ih dropped)
          next => simp at dropped

def NoBreak (line : Text) : Prop :=
  '\n' ∉ line ∧ '\r' ∉ line

theorem afterBreak?_of_noBreak {c : Char} {rest : Text} (noFeed : c ≠ '\n') (noReturn : c ≠ '\r') :
    afterBreak? (c :: rest) = none := by
  unfold afterBreak?
  split <;> simp_all

theorem isClosed_cons {c : Char} {rest : Text} (noFeed : c ≠ '\n') (noReturn : c ≠ '\r') :
    isClosed (c :: rest) = false := by
  simp [isClosed, afterBreak?_of_noBreak noFeed noReturn]

theorem head_afterSpaces {line others more : Text} {c : Char} (noBreak : NoBreak line)
    (dropped : Text.dropStart? ['-', '-', '-'] line = some others)
    (after : afterSpaces others = c :: more) : c ≠ '\n' ∧ c ≠ '\r' := by
  have part : afterSpaces others <:+ others := List.dropWhile_suffix _
  have inside : c ∈ line := mem_of_mem_dropStart? dropped (part.subset (by simp [after]))
  constructor
  · rintro rfl
    exact noBreak.1 inside
  · rintro rfl
    exact noBreak.2 inside

theorem isClosed_line {line rest : Text} (noBreak : NoBreak line)
    (ends : rest = [] ∨ ∃ more, rest = '\n' :: more) :
    isClosed ('\n' :: (line ++ rest)) = isFence line := by
  have opens : afterBreak? ('\n' :: (line ++ rest)) = some (line ++ rest) := rfl
  simp only [isClosed, opens, Option.bind_some, isFence,
    dropStart?_append (by decide : '\n' ∉ ['-', '-', '-']) ends]
  cases dropped : Text.dropStart? ['-', '-', '-'] line with
  | none => rfl
  | some tail =>
      simp only [Option.map_some, afterSpaces_append ends]
      cases after : afterSpaces tail with
      | nil =>
          rcases ends with rfl | ⟨more, rfl⟩
          · rfl
          · rfl
      | cons c others =>
          obtain ⟨noFeed, noReturn⟩ := head_afterSpaces noBreak dropped after
          simp [afterBreak?_of_noBreak noFeed noReturn]

theorem content?_of_noBreak {line : Text} (noBreak : NoBreak line) (rest : Text) :
    content? (line ++ rest) = (content? rest).map (line ++ ·) := by
  induction line with
  | nil => simp
  | cons c line ih =>
      have inside : NoBreak line :=
        ⟨fun feed => noBreak.1 (by simp [feed]), fun feed => noBreak.2 (by simp [feed])⟩
      have noFeed : c ≠ '\n' := by
        rintro rfl
        exact noBreak.1 (by simp)
      have noReturn : c ≠ '\r' := by
        rintro rfl
        exact noBreak.2 (by simp)
      rw [List.cons_append, content?, isClosed_cons noFeed noReturn, ih inside]
      simp [Function.comp_def]

theorem unlines_cons (first : Text) (rest : List Text) :
    ∃ tail, Text.unlines (first :: rest) = first ++ tail ∧
      (tail = [] ∨ ∃ more, tail = '\n' :: more) := by
  cases rest with
  | nil => exact ⟨[], by simp, Or.inl rfl⟩
  | cons second rest =>
      exact ⟨_, Text.unlines_cons_cons first second rest, Or.inr ⟨_, rfl⟩⟩

/-- Frontmatter takes its first line whatever it is, and further lines up to one that bounds it. -/
theorem content?_unlines_cons {first second : Text} {rest : List Text} (noBreak : NoBreak first)
    (noBreakNext : NoBreak second) :
    content? (Text.unlines (first :: second :: rest)) =
      if isFence second then some first
      else (content? (Text.unlines (second :: rest))).map fun source => first ++ '\n' :: source := by
  obtain ⟨tail, joined, ends⟩ := unlines_cons second rest
  have closed := isClosed_line noBreakNext ends
  rw [Text.unlines_cons_cons, content?_of_noBreak noBreak, content?, joined, closed]
  split
  next => simp
  next => simp [Function.comp_def]

theorem content?_unlines {first : Text} {rest : List Text}
    (noBreak : ∀ line ∈ first :: rest, NoBreak line) :
    content? (Text.unlines (first :: rest)) =
      if rest.any isFence then
        some (Text.unlines (first :: rest.takeWhile fun line => !isFence line))
      else none := by
  induction rest generalizing first with
  | nil =>
      rw [Text.unlines_singleton, ← List.append_nil first, content?_of_noBreak (noBreak first (by simp))]
      rfl
  | cons second rest ih =>
      have later := @ih second fun line member => noBreak line (List.mem_cons_of_mem _ member)
      rw [content?_unlines_cons (noBreak first (by simp)) (noBreak second (by simp)), later]
      cases fence : isFence second with
      | true => simp [fence]
      | false =>
          cases others : rest.any isFence with
          | true => simp [fence, others]
          | false => simp [fence, others]

theorem afterBreak?_afterSpaces {line others : Text} (noBreak : NoBreak line)
    (dropped : Text.dropStart? ['-', '-', '-'] line = some others) {rest : Text}
    (ends : rest = [] ∨ ∃ more, rest = '\n' :: more) :
    afterBreak? (afterSpaces (others ++ rest)) =
      if isFence line then afterBreak? rest else none := by
  simp only [afterSpaces_append ends, isFence, dropped]
  cases after : afterSpaces others with
  | nil => simp
  | cons c more =>
      obtain ⟨noFeed, noReturn⟩ := head_afterSpaces noBreak dropped after
      exact afterBreak?_of_noBreak noFeed noReturn

theorem source?_unlines_cons {first : Text} {rest : List Text} (noBreak : NoBreak first) :
    source? (Text.unlines (first :: rest)) =
      if isFence first ∧ rest ≠ [] then content? (Text.unlines rest) else none := by
  obtain ⟨tail, joined, ends⟩ := unlines_cons first rest
  have dropped := @dropStart?_append ['-', '-', '-'] first (by decide) _ ends
  rw [source?, joined, dropped]
  cases hyphens : Text.dropStart? ['-', '-', '-'] first with
  | none => simp [isFence, hyphens]
  | some others =>
      simp only [Option.map_some, Option.bind_eq_bind, Option.bind_some,
        afterBreak?_afterSpaces noBreak hyphens ends]
      cases fence : isFence first with
      | false => simp
      | true =>
          cases rest with
          | nil =>
              have nothing : tail = [] := by simpa using joined
              simp [nothing, afterBreak?]
          | cons second rest =>
              rw [Text.unlines_cons_cons, List.append_cancel_left_eq] at joined
              simp [← joined, afterBreak?]

theorem isBoundary_of_isFence {line : Text} (fence : isFence line = true) :
    Document.isBoundary line = true := by
  simp only [isFence] at fence
  cases dropped : Text.dropStart? ['-', '-', '-'] line with
  | none => simp [dropped] at fence
  | some rest =>
      have blank : ∀ c ∈ rest, Text.isBlank c = true := by
        intro c member
        simp only [dropped, List.isEmpty_iff] at fence
        have space := List.dropWhile_eq_nil_iff.mp fence c member
        simp only [Bool.or_eq_true, beq_iff_eq] at space
        rcases space with rfl | rfl <;> decide
      have trimmed := @Text.trimEnd_append_blank ['-', '-', '-'] rest (by simp [Text.isBlank]) blank
      have start : Text.trimStart (['-', '-', '-'] ++ rest) = ['-', '-', '-'] ++ rest := by
        simp [Text.trimStart, Text.isBlank]
      rw [Document.isBoundary, Text.trim, Text.dropStart?_eq_some_iff.mp dropped, start, trimmed]
      rfl

theorem isFence_of_not_isBoundary {line : Text} (inside : Document.isBoundary line = false) :
    isFence line = false := by
  by_contra fence
  rw [isBoundary_of_isFence (by simpa using fence)] at inside
  simp at inside

theorem noBreak_lines {text line : Text} (member : line ∈ Text.lines text) : NoBreak line := by
  have solid := Text.not_isLineEnd_of_mem_lines text line member
  exact ⟨fun feed => absurd (solid _ feed) (by decide), fun feed => absurd (solid _ feed) (by decide)⟩

theorem noBreak_lines_append {text : Text} {last : List Text} (ends : last = [] ∨ last = [[]]) :
    ∀ line ∈ Text.lines text ++ last, NoBreak line := by
  rw [List.forall_mem_append]
  constructor
  · intro line member
    exact noBreak_lines member
  · intro line member
    rcases ends with rfl | rfl
    · simp at member
    · obtain rfl := List.mem_singleton.mp member
      exact ⟨by simp, by simp⟩

theorem takeWhile_append_of_fence {lines : List Text} (closes : lines.any isFence = true)
    (last : List Text) :
    (lines ++ last).takeWhile (fun line => !isFence line) =
      lines.takeWhile fun line => !isFence line := by
  obtain ⟨line, member, fence⟩ := List.any_eq_true.mp closes
  rw [List.takeWhile_append, if_neg]
  intro whole
  have all := List.takeWhile_eq_self_iff.mp ((List.takeWhile_prefix _).eq_of_length whole)
  have inside := all line member
  simp [fence] at inside

section

variable {text : Text}

/-- The source of frontmatter told from the lines of the text: it takes the second line whatever it
is, and further lines up to one that bounds frontmatter. -/
theorem source?_of_lines (feeds : Text.FeedsOnly text) :
    source? text =
      match Text.lines text with
      | first :: second :: others =>
        if isFence first && others.any isFence then
          some (Text.unlines (second :: others.takeWhile fun line => !isFence line))
        else none
      | _ => none := by
  -- the text may end with a line feed, which makes one more line here, and no line bounds it
  obtain ⟨last, ends, joined⟩ := Text.exists_eq_unlines feeds
  have noBreak := @noBreak_lines_append text last ends
  have noFence : last.any isFence = false := by
    rcases ends with rfl | rfl <;> rfl
  cases lines : Text.lines text with
  | nil =>
      rw [joined, lines]
      rcases ends with rfl | rfl <;> rfl
  | cons first rest =>
      rw [lines] at joined noBreak
      rw [joined, List.cons_append, source?_unlines_cons (noBreak first (by simp))]
      cases rest with
      | nil => rcases ends with rfl | rfl <;> simp [content?]
      | cons second others =>
          have inside : ∀ line ∈ second :: (others ++ last), NoBreak line := by
            intro line member
            exact noBreak line (List.mem_cons_of_mem _ member)
          rw [List.cons_append, content?_unlines inside, List.any_append, noFence, Bool.or_false]
          dsimp only
          cases fence : isFence first with
          | false => simp
          | true =>
              cases closes : others.any isFence with
              | false => simp
              | true => simp [takeWhile_append_of_fence closes]

theorem block?_of_no_data (feeds : Text.FeedsOnly text)
    (noData : Document.splitData? (Text.lines text) = none) : block? text = none := by
  have noPair : ∀ first rest, Text.lines text = first :: rest → isFence first = true →
      ∀ line ∈ rest, isFence line = false := by
    intro first rest lines fence line member
    by_contra fenced
    simp only [Bool.not_eq_false] at fenced
    simp only [lines, Document.splitData?, isBoundary_of_isFence fence, ↓reduceIte,
      Text.drop_length_takeWhile] at noData
    cases after : rest.dropWhile fun line => !Document.isBoundary line with
    | cons stop body => simp [after] at noData
    | nil =>
        have none := List.dropWhile_eq_nil_iff.mp after line member
        simp [isBoundary_of_isFence fenced] at none
  rw [block?, source?_of_lines feeds]
  cases lines : Text.lines text with
  | nil => rfl
  | cons first rest =>
      cases rest with
      | nil => rfl
      | cons second others =>
          cases fence : isFence first with
          | false => simp [opensEmpty, fence]
          | true =>
              have inside := noPair first _ lines fence
              have noFence : others.any isFence = false :=
                List.any_eq_false.mpr fun line member => by
                  simp [inside line (List.mem_cons_of_mem _ member)]
              simp [opensEmpty, fence, noFence, inside second (by simp)]

theorem opensEmpty_cons_cons (first second : Text) (rest : List Text) :
    opensEmpty (first :: second :: rest) = (isFence first && isFence second) := by
  rfl

theorem block?_eq_empty_iff (feeds : Text.FeedsOnly text)
    {first stop : Text} {body : List Text} (lines : Text.lines text = first :: stop :: body)
    (notEmpty : stop ≠ []) :
    block? text = some [] ↔
      isFence first = true ∧ isFence stop = true ∧ ∀ line ∈ body, isFence line = false := by
  have differs : Text.unlines (stop :: body.takeWhile fun line => !isFence line) ≠ [] := by
    obtain ⟨tail, joined, -⟩ := unlines_cons stop (body.takeWhile fun line => !isFence line)
    simp [joined, notEmpty]
  simp only [block?, source?_of_lines feeds, lines, opensEmpty_cons_cons]
  cases isFence first with
  | false => simp
  | true =>
      cases later : body.any isFence with
      | true =>
          obtain ⟨line, member, fenced⟩ := List.any_eq_true.mp later
          constructor
          · intro same
            exact absurd (Option.some.inj same) differs
          · rintro ⟨-, -, none⟩
            simp [none line member] at fenced
      | false =>
          have noFence : ∀ line ∈ body, isFence line = false := by simpa using later
          cases isFence stop with
          | false => simp
          | true => simpa using noFence

theorem block?_eq_inside_iff (feeds : Text.FeedsOnly text)
    {first second stop : Text} {inside body : List Text}
    (lines : Text.lines text = first :: second :: (inside ++ stop :: body))
    (noFence : ∀ line ∈ second :: inside, isFence line = false) :
    block? text = some (Text.unlines (second :: inside)) ↔
      isFence first = true ∧ isFence stop = true := by
  have before : ∀ line ∈ inside, (!isFence line) = true := by
    intro line member
    simp [noFence line (List.mem_cons_of_mem _ member)]
  simp only [block?, source?_of_lines feeds, lines, opensEmpty_cons_cons,
    noFence second (by simp), List.takeWhile_append_of_pos before]
  cases isFence first with
  | false => simp
  | true =>
      cases closes : isFence stop with
      | true => simp [closes]
      | false =>
          have longer : Text.unlines (second :: (inside ++ (stop :: body).takeWhile
              fun line => !isFence line)) ≠ Text.unlines (second :: inside) := by
            rw [← List.cons_append, Text.unlines_append _ _ (by simp) (by simp [closes])]
            simp
          constructor
          · intro same
            cases later : (inside ++ stop :: body).any isFence with
            | true => exact absurd (by simpa [later] using same) longer
            | false => simp [later] at same
          · rintro ⟨-, never⟩
            simp at never

/-- Frontmatter is the block of data of the tree exactly if its two lines bound frontmatter and, in
the empty block, no later line does. -/
theorem block?_eq_data_iff (feeds : Text.FeedsOnly text)
    {first stop : Text} {inside body : List Text}
    (data : Document.DataLines (Text.lines text) first inside stop body) :
    block? text = some (Text.unlines inside) ↔
      isFence first = true ∧ isFence stop = true ∧
        (inside = [] → ∀ line ∈ body, isFence line = false) := by
  obtain ⟨split, opens, closes, between⟩ := data
  cases inside with
  | nil =>
      have notEmpty : stop ≠ [] := by
        rintro rfl
        exact absurd closes (by decide)
      simpa using block?_eq_empty_iff feeds split notEmpty
  | cons second inside =>
      have noFence : ∀ line ∈ second :: inside, isFence line = false := by
        intro line member
        exact isFence_of_not_isBoundary (between line member)
      simpa using block?_eq_inside_iff feeds split noFence

end

theorem data?_of_run {nodes others : List Node} {first : Node} {position : Option Position}
    (run : Node.run nodes = first :: others) :
    (Node.root nodes position).data? = (Node.root [first] position).data? := by
  cases nodes with
  | nil => simp [Node.run, Node.preorders] at run
  | cons node nodes =>
      cases node <;>
        simp only [Node.run, Node.preorders, Node.preorder, List.cons_append, List.map_cons,
          List.cons.injEq] at run <;>
        obtain ⟨rfl, -⟩ := run <;> rfl

theorem data?_of_noData {nodes : List Node} {position : Option Position}
    (noData : ∀ node ∈ Node.run nodes, node.kind ≠ "yaml".toList) :
    (Node.root nodes position).data? = none := by
  cases run : Node.run nodes with
  | nil =>
      cases nodes with
      | nil => rfl
      | cons node nodes =>
          cases node <;> simp [Node.run, Node.preorders, Node.preorder] at run
  | cons first others =>
      have notData := noData first (by simp [run])
      rw [data?_of_run run]
      cases first with
      | element kind children value place => exact if_neg notData
      | _ => rfl

theorem data?_of_parse {text : Text} {tree : Node} (parsed : Document.parse text = .ok tree) :
    tree.data? =
      (Document.splitData? (Text.lines text)).map fun parts => Text.unlines parts.1 := by
  obtain ⟨number, before, body, nodes, others, start, rfl, run, trail⟩ :=
    Document.parse_trail parsed
  cases start with
  | whole noData =>
      rw [noData]
      have all : Node.run nodes = others := run
      exact data?_of_noData fun node member => trail.noData node (all ▸ member)
  | afterData split =>
      rw [split]
      exact data?_of_run run

/-- In a document with line feeds as its only ends of lines, the block that the tree starts with is
the frontmatter exactly if the two lines around the block are three hyphens and blanks each, and no
line after an empty block is such a line. -/
theorem data_eq_block_iff {text : Text} {tree : Node}
    (feeds : Text.FeedsOnly text)
    (parsed : Document.parse text = .ok tree) :
    tree.data? = block? text ↔
      ∀ first inside stop body, Document.DataLines (Text.lines text) first inside stop body →
        isFence first = true ∧ isFence stop = true ∧
          (inside = [] → ∀ line ∈ body, isFence line = false) := by
  rw [data?_of_parse parsed]
  cases split : Document.splitData? (Text.lines text) with
  | none =>
      rw [block?_of_no_data feeds split]
      refine ⟨fun _ first inside stop body data => ?_, fun _ => rfl⟩
      rw [Document.splitData?_of_dataLines data] at split
      simp at split
  | some parts =>
      obtain ⟨inside, body⟩ := parts
      obtain ⟨first, stop, data⟩ := Document.splitData?_eq_some split
      constructor
      · intro same otherFirst otherInside otherStop otherBody other
        have found := Document.splitData?_of_dataLines other
        rw [split, Option.some.injEq, Prod.mk.injEq] at found
        obtain ⟨rfl, rfl⟩ := found
        exact (block?_eq_data_iff feeds other).mp same.symm
      · intro bounds
        exact ((block?_eq_data_iff feeds data).mpr (bounds first inside stop body data)).symm

theorem data_eq_block_iff_mapping :
    ∃ tree, Document.parse "---\na: b\n---\n<A/>\n" = .ok tree ∧
      (tree.data? = block? "---\na: b\n---\n<A/>\n" ↔
        ∀ first inside stop body,
          Document.DataLines (Text.lines "---\na: b\n---\n<A/>\n") first inside stop body →
          isFence first = true ∧ isFence stop = true ∧
            (inside = [] → ∀ line ∈ body, isFence line = false)) := by
  have parsed : Document.parse "---\na: b\n---\n<A/>\n" =
      .ok (.root [Document.dataNode ["a: b"], .component "A" [] [] (some ⟨4, 1⟩)]
        (some ⟨1, 1⟩)) := by
    rfl
  exact ⟨_, parsed, data_eq_block_iff (.of_all rfl) parsed⟩

/-- After an empty block frontmatter goes on up to a later line of hyphens, which belongs to the
body of the document. -/
theorem data_ne_block_of_empty :
    ∃ tree, Document.parse "---\n---\ntitle\n---\n" = .ok tree ∧ tree.data? = some [] ∧
      block? "---\n---\ntitle\n---\n" = some "---\ntitle".toList := by
  have parsed : Document.parse "---\n---\ntitle\n---\n" =
      .ok (.root (Document.dataNode [] :: Document.proseNodes 3 ["title", "---"])
        (some ⟨1, 1⟩)) := by
    have split : Document.splitData? (Text.lines "---\n---\ntitle\n---\n") =
        some ([], ["title".toList, "---".toList]) := by
      rfl
    have parts : Document.partsFrom .plain 0 3 [] ["title".toList, "---".toList] =
        [.prose 3 ["title".toList, "---".toList]] := by
      rfl
    simp only [Document.parse, split, Document.parseBody, List.length_nil, Nat.zero_add, parts,
      Document.Builder.addParts, Document.Builder.addPart]
    generalize Document.proseNodes 3 ["title".toList, "---".toList] = nodes
    rfl
  exact ⟨_, parsed, rfl, rfl⟩

end Frontmatter

end MdxCheck
