import MdxCheck.Proofs.Document.Nesting
import MdxCheck.Proofs.Document.Places
import MdxCheck.Proofs.Markdown.Tidy

/-!
The lines of a document that are passed over as fenced code, compared with the fenced code that
Markdown finds in the runs of prose and in the document as a whole.
-/

namespace MdxCheck.Document

open Markdown (LineMark InCode Tidy Covers OpensAt)

/-- What is open after a line. Where an open tag has started plays no part here: its line is left at zero. -/
def Mode.next (line : Text) : Mode → Mode
  | .plain =>
    match fenceRun? line with
    | some run => .fenced run
    | none =>
      if startsWithTag line && (Tag.scan line).unterminated.isSome then .tagged 0 line else .plain
  | .fenced run => if closesFence run line then .plain else .fenced run
  | .tagged first source =>
    let source := source ++ '\n' :: line
    if (Tag.scan source).unterminated.isSome then .tagged first source else .plain

def Mode.unplaced : Mode → Mode
  | .tagged _ source => .tagged 0 source
  | mode => mode

/-- Cutting a document into parts goes on from one line to the next in these modes. -/
theorem partsFrom_next (mode : Mode) (depth number : Nat) (prose : List Text) (line : Text)
    (lines : List Text) :
    ∃ parts after later others, after.unplaced = mode.unplaced.next line ∧
      partsFrom mode depth number prose (line :: lines) =
        parts ++ partsFrom after later (number + 1) others lines := by
  cases mode with
  | plain =>
      cases fence : fenceRun? line with
      | some run =>
          refine ⟨[], .fenced run, depth, line :: prose, ?_, ?_⟩
          · simp [Mode.unplaced, Mode.next, fence]
          · simp [partsFrom, fence]
      | none =>
          by_cases statement : depth = 0 ∧ isStatement line = true
          · have noTag := startsWithTag_of_isStatement statement.2
            refine ⟨proseBefore number prose ++ [.statement number line], .plain, depth, [], ?_, ?_⟩
            · simp [Mode.unplaced, Mode.next, fence, noTag]
            · simp [partsFrom, fence, statement]
          · by_cases tag : startsWithTag line = true
            · rcases scanned : Tag.scan line with ⟨tags, _ | offset⟩
              · refine ⟨proseBefore number prose ++ [.tagged number line tags], .plain,
                  depthAfter depth tags, [], ?_, ?_⟩
                · simp [Mode.unplaced, Mode.next, fence, scanned]
                · simp [partsFrom, fence, statement, tag, scanned]
              · refine ⟨proseBefore number prose, .tagged number line, depth, [], ?_, ?_⟩
                · simp [Mode.unplaced, Mode.next, fence, tag, scanned]
                · simp [partsFrom, fence, statement, tag, scanned]
            · refine ⟨[], .plain, depth, line :: prose, ?_, ?_⟩
              · simp [Mode.unplaced, Mode.next, fence, tag]
              · simp [partsFrom, fence, statement, tag]
  | fenced run =>
      refine ⟨[], Mode.next line (.fenced run), depth, line :: prose, ?_, rfl⟩
      cases closes : closesFence run line with
      | true => simp [Mode.next, Mode.unplaced, closes]
      | false => simp [Mode.next, Mode.unplaced, closes]
  | tagged first source =>
      rcases scanned : Tag.scan (source ++ '\n' :: line) with ⟨tags, _ | offset⟩
      · refine ⟨[.tagged first (source ++ '\n' :: line) tags], .plain, depthAfter depth tags, [],
          ?_, ?_⟩
        · simp [Mode.unplaced, Mode.next, scanned]
        · simp [partsFrom, scanned]
      · refine ⟨[], .tagged first (source ++ '\n' :: line), depth, [], ?_, ?_⟩
        · simp [Mode.unplaced, Mode.next, scanned]
        · simp [partsFrom, scanned]

/-- What a line is, given what is open before and after it. -/
def Mode.mark : Mode → Mode → LineMark
  | .fenced _, _ => .code
  | _, .fenced _ => .opening
  | _, _ => .text

/-- What each line is while a document is cut into parts: the line that opens a run of fenced code, a later
line of such a run up to the one that closes it, or any other line. -/
def marksFrom (mode : Mode) : List Text → List LineMark
  | [] => []
  | line :: lines => mode.mark (mode.next line) :: marksFrom (mode.next line) lines

def codeMarks (lines : List Text) : List LineMark :=
  marksFrom .plain lines

theorem length_marksFrom (lines : List Text) :
    ∀ mode, (marksFrom mode lines).length = lines.length := by
  induction lines with
  | nil => intro mode; rfl
  | cons line lines ih =>
      intro mode
      rw [marksFrom, List.length_cons, List.length_cons, ih]

theorem codeMarks_nil : codeMarks [] = [] := rfl

theorem length_codeMarks (lines : List Text) : (codeMarks lines).length = lines.length :=
  length_marksFrom lines .plain

section

variable {line : Text} {run : Text}

theorem marksFrom_fenced {code : List Text} (inside : ∀ line ∈ code, closesFence run line = false)
    (rest : List Text) :
    marksFrom (.fenced run) (code ++ rest) =
      List.replicate code.length .code ++ marksFrom (.fenced run) rest := by
  induction code with
  | nil => rfl
  | cons line code ih =>
      rw [List.forall_mem_cons] at inside
      have stays : Mode.next line (.fenced run) = .fenced run := by simp [Mode.next, inside.1]
      rw [List.cons_append, marksFrom, stays, ih inside.2]
      rfl

theorem marksFrom_tagged (first : Nat) (lines : List Text) :
    ∀ source, (Tag.scan source).unterminated.isSome = true →
      marksFrom (.tagged first source) lines =
        List.replicate (extension source lines).length .text ++
          codeMarks (lines.drop (extension source lines).length) := by
  induction lines with
  | nil => intro source _; rfl
  | cons line lines ih =>
      intro source pending
      have taken : extension source (line :: lines) =
          line :: extension (source ++ '\n' :: line) lines := by
        simp [extension, Option.isNone_eq_false_iff.mpr pending]
      rw [taken, List.length_cons, List.replicate_succ, List.drop_succ_cons, marksFrom]
      cases more : (Tag.scan (source ++ '\n' :: line)).unterminated with
      | some offset =>
          have stays : Mode.next line (.tagged first source) =
              .tagged first (source ++ '\n' :: line) := by
            simp [Mode.next, more]
          rw [stays, ih _ (by rw [more]; rfl)]
          rfl
      | none =>
          have ends : Mode.next line (.tagged first source) = .plain := by simp [Mode.next, more]
          rw [ends, extension_of_complete _ _ more]
          rfl

theorem codeMarks_prose (lines : List Text) (noFence : fenceRun? line = none)
    (noTag : startsWithTag line = false) : codeMarks (line :: lines) = .text :: codeMarks lines := by
  have stays : Mode.next line .plain = .plain := by simp [Mode.next, noFence, noTag]
  rw [codeMarks, marksFrom, stays]
  rfl

theorem codeMarks_tagged {more rest : List Text} (noFence : fenceRun? line = none)
    (tag : startsWithTag line = true) (taken : extension line (more ++ rest) = more) :
    codeMarks (line :: (more ++ rest)) =
      .text :: (List.replicate more.length .text ++ codeMarks rest) := by
  rw [codeMarks, marksFrom]
  cases pending : (Tag.scan line).unterminated with
  | some offset =>
      have opens : Mode.next line .plain = .tagged 0 line := by
        simp [Mode.next, noFence, tag, pending]
      rw [opens, marksFrom_tagged 0 _ line (by rw [pending]; rfl), taken, List.drop_left' rfl]
      rfl
  | none =>
      have ends : Mode.next line .plain = .plain := by simp [Mode.next, noFence, pending]
      rw [extension_of_complete _ _ pending] at taken
      obtain rfl := taken
      rw [ends]
      rfl

theorem codeMarks_fenced (lines : List Text) (opens : fenceRun? line = some run) :
    codeMarks (line :: lines) = .opening :: marksFrom (.fenced run) lines := by
  have next : Mode.next line .plain = .fenced run := by simp [Mode.next, opens]
  rw [codeMarks, marksFrom, next]
  rfl

theorem codeMarks_closed {code : List Text} {stop : Text} (rest : List Text)
    (opens : fenceRun? line = some run) (inside : ∀ line ∈ code, closesFence run line = false)
    (closes : closesFence run stop = true) :
    codeMarks (line :: (code ++ stop :: rest)) =
      .opening :: (List.replicate code.length .code ++ .code :: codeMarks rest) := by
  have ends : Mode.next stop (.fenced run) = .plain := by simp [Mode.next, closes]
  rw [codeMarks_fenced _ opens, marksFrom_fenced inside, marksFrom, ends]
  rfl

end

/-- After these lines nothing is open that later lines go on with. -/
def Settled (lines : List Text) : Prop :=
  ∀ rest, codeMarks (lines ++ rest) = codeMarks lines ++ codeMarks rest

namespace Settled

theorem nil : Settled [] := by
  intro rest
  rfl

theorem append {lines more : List Text} (settled : Settled lines) (later : Settled more) :
    Settled (lines ++ more) := by
  intro rest
  rw [List.append_assoc, settled, settled, later, List.append_assoc]

theorem prose {line : Text} (noFence : fenceRun? line = none) (noTag : startsWithTag line = false) :
    Settled [line] := by
  intro rest
  rw [codeMarks_prose [] noFence noTag, codeMarks_nil]
  exact codeMarks_prose rest noFence noTag

theorem closed {line run stop : Text} {code : List Text} (opens : fenceRun? line = some run)
    (inside : ∀ line ∈ code, closesFence run line = false) (closes : closesFence run stop = true) :
    Settled (line :: (code ++ [stop])) := by
  intro rest
  rw [codeMarks_closed [] opens inside closes, codeMarks_nil]
  simpa using codeMarks_closed rest opens inside closes

end Settled

/-- Some lines from line `first` on, out of the lines from line `number` on, that have the same marks by
themselves. -/
structure ChunkOf (number : Nat) (lines : List Text) (first : Nat) (chunk : List Text) : Prop where
  parts : ∃ front back before behind, lines = front ++ (chunk ++ back) ∧
    codeMarks lines = before ++ (codeMarks chunk ++ behind) ∧ before.length = front.length ∧
    first = number + front.length

namespace ChunkOf

theorem whole (number : Nat) (chunk : List Text) : ChunkOf number chunk number chunk :=
  ⟨[], [], [], [], by simp, by simp, rfl, rfl⟩

theorem of_settled {number : Nat} {chunk : List Text} (settled : Settled chunk) (rest : List Text) :
    ChunkOf number (chunk ++ rest) number chunk :=
  ⟨[], rest, [], codeMarks rest, rfl, settled rest, rfl, rfl⟩

theorem prepend {number first : Nat} {lines chunk : List Text} (isChunk : ChunkOf number lines first chunk)
    {front : List Text} {marks : List LineMark} (length : marks.length = front.length)
    (same : codeMarks (front ++ lines) = marks ++ codeMarks lines) {start : Nat}
    (placed : number = start + front.length) : ChunkOf start (front ++ lines) first chunk := by
  obtain ⟨earlier, back, before, behind, split, parts, lengths, isFirst⟩ := isChunk
  refine ⟨front ++ earlier, back, marks ++ before, behind, ?_, ?_, ?_, ?_⟩
  · rw [split, List.append_assoc]
  · rw [same, parts, List.append_assoc]
  · rw [List.length_append, List.length_append, length, lengths]
  · rw [List.length_append]
    omega

theorem mark_eq {number first n : Nat} {lines chunk : List Text}
    (isChunk : ChunkOf number lines first chunk) (inside : n < chunk.length) :
    (codeMarks lines)[first - number + n]? = (codeMarks chunk)[n]? := by
  obtain ⟨front, back, before, behind, -, parts, lengths, isFirst⟩ := isChunk
  have place : first - number + n = before.length + n := by omega
  rw [parts, place, List.getElem?_append_right (by omega), Nat.add_sub_cancel_left,
    List.getElem?_append_left (by rw [length_codeMarks]; exact inside)]

theorem mem_of_mem {number first : Nat} {lines chunk : List Text}
    (isChunk : ChunkOf number lines first chunk) {line : Text} (member : line ∈ chunk) :
    line ∈ lines := by
  obtain ⟨front, back, _, _, split, -⟩ := isChunk
  rw [split]
  exact List.mem_append_right _ (List.mem_append_left _ member)

end ChunkOf

theorem mem_proseBefore {number first : Nat} {prose chunk : List Text}
    (member : .prose first chunk ∈ proseBefore number prose) :
    first = number - prose.length ∧ chunk = prose.reverse := by
  simp only [proseBefore] at member
  split at member
  · simp at member
  · simpa using member

section

variable {number first : Nat} {prose chunk : List Text} (settled : Settled prose.reverse)

include settled

/-- Lines that are cut off before `rest` hold the run of prose before them, and no other. -/
theorem chunk_of_flush {taken rest : List Text} {part : Part} {parts : List Part}
    (bound : prose.length ≤ number) (marks : codeMarks (taken ++ rest) =
      List.replicate taken.length .text ++ codeMarks rest)
    (noProse : ∀ first chunk, part ≠ .prose first chunk)
    (later : ∀ first chunk, .prose first chunk ∈ parts →
      ChunkOf (number + taken.length) rest first chunk)
    (member : .prose first chunk ∈ proseBefore number prose ++ part :: parts) :
    ChunkOf (number - prose.length) (prose.reverse ++ (taken ++ rest)) first chunk := by
  rcases List.mem_append.mp member with here | member
  · obtain ⟨rfl, rfl⟩ := mem_proseBefore here
    exact .of_settled settled _
  · rcases List.mem_cons.mp member with same | member
    · exact absurd same.symm (noProse first chunk)
    · have whole : codeMarks ((prose.reverse ++ taken) ++ rest) =
          (codeMarks prose.reverse ++ List.replicate taken.length .text) ++ codeMarks rest := by
        rw [List.append_assoc, settled, marks, List.append_assoc]
      rw [← List.append_assoc]
      refine (later first chunk member).prepend ?_ whole ?_
      · simp [length_codeMarks]
      · simp only [List.length_append, List.length_reverse]
        omega

end

/-- Each run of prose has the marks by itself that its lines have in the document. -/
theorem chunks_of_cut {depth number : Nat} {prose lines : List Text} {parts : List Part}
    (cut : Cut depth number prose lines parts) :
    Settled prose.reverse → prose.length ≤ number →
      ∀ first chunk, .prose first chunk ∈ parts →
        ChunkOf (number - prose.length) (prose.reverse ++ lines) first chunk := by
  -- plain lines and closed runs of code go on with the prose, all other lines end it
  induction cut with
  | done depth number prose =>
      intro _ _ first chunk member
      obtain ⟨rfl, rfl⟩ := mem_proseBefore member
      rw [List.append_nil]
      exact .whole _ _
  | @prose _ number prose line lines parts noFence noTag _ ih =>
      intro settled bound first chunk member
      have longer : Settled (line :: prose).reverse := by
        rw [List.reverse_cons]
        exact settled.append (.prose noFence noTag)
      have later := ih longer (Nat.succ_le_succ bound) first chunk member
      have start : number + 1 - (line :: prose).length = number - prose.length := by
        simp only [List.length_cons]
        omega
      rw [start] at later
      simpa using later
  | @fenced _ number prose line run code stop rest parts fence inside closes _ ih =>
      intro settled bound first chunk member
      have split : (stop :: (code.reverse ++ line :: prose)).reverse =
          prose.reverse ++ line :: (code ++ [stop]) := by
        simp
      have start : number + 1 + code.length + 1 - (stop :: (code.reverse ++ line :: prose)).length =
          number - prose.length := by
        simp only [List.length_cons, List.length_append, List.length_reverse]
        omega
      have longer : Settled (stop :: (code.reverse ++ line :: prose)).reverse := by
        rw [split]
        exact settled.append (.closed fence inside closes)
      have later := ih longer (by simp; omega) first chunk member
      rw [start, split] at later
      simpa using later
  | @openFence _ number prose line run code fence inside =>
      intro _ _ first chunk member
      obtain ⟨rfl, rfl⟩ := mem_proseBefore member
      have start : number + 1 + code.length - (code.reverse ++ line :: prose).length =
          number - prose.length := by
        simp only [List.length_cons, List.length_append, List.length_reverse]
        omega
      rw [start]
      simpa using ChunkOf.whole (number - prose.length) (prose.reverse ++ line :: code)
  | @statement _ number prose line lines parts noFence _ statement _ ih =>
      intro settled bound first chunk member
      have marks : codeMarks ([line] ++ lines) =
          List.replicate [line].length .text ++ codeMarks lines :=
        codeMarks_prose lines noFence (startsWithTag_of_isStatement statement)
      exact chunk_of_flush settled bound marks (by simp) (ih .nil (Nat.zero_le _)) member
  | @tagged _ number prose line more rest tags parts noFence tag taken _ _ ih =>
      intro settled bound first chunk member
      have marks : codeMarks (line :: more ++ rest) =
          List.replicate (line :: more).length .text ++ codeMarks rest :=
        codeMarks_tagged noFence tag taken
      have later := ih .nil (Nat.zero_le _)
      have start : number + 1 + more.length = number + (line :: more).length := by
        simp only [List.length_cons]
        omega
      rw [start] at later
      exact chunk_of_flush settled bound marks (by simp) later member
  | @unterminated _ number prose line more tags offset noFence tag taken _ =>
      intro settled bound first chunk member
      have marks : codeMarks (line :: more ++ []) =
          List.replicate (line :: more).length .text ++ codeMarks [] :=
        codeMarks_tagged noFence tag (by rwa [List.append_nil])
      have flushed := chunk_of_flush settled bound marks (by simp) (by simp) member
      rwa [List.append_nil] at flushed

/-- In each run of prose of a document whose fenced code is plain to see, the lines that are passed over
as code are the lines of the fenced code that Markdown finds there, and where a run of code opens, fenced
code does. -/
theorem code_of_chunk {text : Text} {number : Nat} {nodes : List Node} {body : List Text}
    (start : BodyOf (Text.lines text) number nodes body) {first : Nat} {chunk : List Text}
    (part : .prose first chunk ∈ partsFrom .plain 0 number [] body)
    (tidy : Tidy false ((dedent chunk).map (List.map Markdown.Blocks.cleanChar)) (codeMarks chunk))
    {n : Nat} (inside : n < chunk.length) :
    (InCode (codeMarks body) (first - number + n) ↔
      Covers (Markdown.Blocks.ofText (proseText chunk)).tokens n) ∧
    ((codeMarks body)[first - number + n]? = some .opening →
      OpensAt (Markdown.Blocks.ofText (proseText chunk)).tokens n) := by
  have isChunk : ChunkOf number body first chunk :=
    chunks_of_cut (partsFrom_cut 0 number [] body) .nil (Nat.zero_le _) first chunk part
  have noFeed : ∀ line ∈ chunk, '\n' ∉ line :=
    fun line member => start.noFeed line (isChunk.mem_of_mem member)
  have pieces := splitOn_proseText noFeed (List.ne_nil_of_length_pos (Nat.zero_lt_of_lt inside))
  have code := Markdown.code_ofText (.inl pieces) tidy n
  rw [InCode, isChunk.mark_eq inside]
  exact ⟨code.1.symm, code.2⟩

theorem tidy_item {lines : List Text} {marks : List LineMark} (later : Tidy false lines marks) :
    Tidy false
      ("- a".toList :: [] :: "  ```js".toList :: "  <Foo />".toList :: "  ```".toList :: lines)
      (.text :: .text :: .opening :: .code :: .code :: marks) := by
  have opens : Markdown.OpensCode ⟨'`', 3⟩ "  ```js".toList := ⟨by decide +kernel, by decide +kernel⟩
  have stays : Markdown.StaysCode ⟨'`', 3⟩ "  ```js".toList "  <Foo />".toList :=
    ⟨by decide +kernel, by decide +kernel⟩
  have closes : Markdown.ClosesCode ⟨'`', 3⟩ "  ```js".toList "  ```".toList :=
    ⟨by decide +kernel, by decide +kernel, by decide +kernel, by decide +kernel⟩
  have code := @Tidy.code _ _ ["  <Foo />".toList] _ lines marks opens (by simpa using stays) closes
    later
  exact .text (by decide +kernel) (by decide +kernel) (.blank rfl code)

theorem code_of_chunk_item :
    ∃ body chunk : List Text, .prose 1 chunk ∈ partsFrom .plain 0 1 [] body ∧
      InCode (codeMarks body) 3 ∧
      Covers (Markdown.Blocks.ofText (proseText chunk)).tokens 3 ∧
      OpensAt (Markdown.Blocks.ofText (proseText chunk)).tokens 2 := by
  let text : Text := "- a\n\n  ```js\n  <Foo />\n  ```\n<Tab />\n"
  let chunk : List Text := ["- a", "", "  ```js", "  <Foo />", "  ```"]
  have start : BodyOf (Text.lines text) 1 [] (Text.lines text) := .whole (by decide +kernel)
  have part : .prose 1 chunk ∈ partsFrom .plain 0 1 [] (Text.lines text) := by decide +kernel
  have lines : (dedent chunk).map (List.map Markdown.Blocks.cleanChar) = chunk := by decide +kernel
  have marks : codeMarks chunk = [.text, .text, .opening, .code, .code] := by decide +kernel
  have tidy : Tidy false ((dedent chunk).map (List.map Markdown.Blocks.cleanChar))
      (codeMarks chunk) := by
    rw [lines, marks]
    exact tidy_item .done
  have inCode : InCode (codeMarks (Text.lines text)) 3 := by decide +kernel
  have opening : (codeMarks (Text.lines text))[2]? = some .opening := by decide +kernel
  exact ⟨_, chunk, part, inCode, (code_of_chunk start part tidy (by decide)).1.mp inCode,
    (code_of_chunk start part tidy (by decide)).2 opening⟩

/-- Backticks around a word open a run of code, but no fenced code: the lines behind are passed over and
are no code. -/
theorem code_of_chunk_inline :
    ∃ body chunk : List Text, BodyOf (Text.lines "```x```\n<Foo />\n") 1 [] body ∧
      .prose 1 chunk ∈ partsFrom .plain 0 1 [] body ∧ 1 < chunk.length ∧
      ∀ n < 2, InCode (codeMarks body) n ∧
        ¬Covers (Markdown.Blocks.ofText (proseText chunk)).tokens n := by
  let chunk : List Text := ["```x```", "<Foo />"]
  refine ⟨_, chunk, .whole ?_, ?_, ?_, ?_⟩
  · decide +kernel
  · decide +kernel
  · decide
  · decide +kernel

/-- The source of a segment stands on lines that are no fenced code. -/
theorem text_of_segment {number : Nat} {lines : List Text} (noFeed : ∀ line ∈ lines, '\n' ∉ line)
    {segment : Segment} (member : segment ∈ segmentsFrom number lines) (offset : Nat) :
    ∃ n : Nat, (Builder.sourcePosition segment.first segment.source offset).line = number + n ∧
      (codeMarks lines)[n]? = some .text := by
  fun_induction segmentsFrom number lines with
  | case1 => simp at member
  | case2 number line lines run opens code ih =>
      rw [List.forall_mem_cons] at noFeed
      have split : code ++ lines.dropWhile (fun line => !closesFence run line) = lines :=
        List.takeWhile_append_dropWhile
      have closing := List.head?_dropWhile_not (fun line => !closesFence run line) lines
      have inside : ∀ line ∈ code, closesFence run line = false := by
        intro line member
        simpa using List.mem_takeWhile_imp member
      -- a run that nothing closes leaves no line for a segment
      cases after : lines.dropWhile fun line => !closesFence run line with
      | nil =>
          rw [after, List.append_nil] at split
          rw [← split, List.drop_eq_nil_of_le (Nat.le_succ _), segmentsFrom] at member
          simp at member
      | cons stop rest =>
          rw [after] at split closing
          have behind : lines.drop (code.length + 1) = rest := by
            rw [← split, ← List.drop_drop, List.drop_left' rfl]
            rfl
          rw [behind] at ih member
          have restFeed : ∀ line ∈ rest, '\n' ∉ line := by
            intro line inRest
            refine noFeed.2 line ?_
            rw [← split]
            simp [inRest]
          obtain ⟨n, place, mark⟩ := ih restFeed member
          refine ⟨1 + code.length + 1 + n, by omega, ?_⟩
          have marks := codeMarks_closed rest opens inside (by simpa using closing)
          rw [split] at marks
          have index : 1 + code.length + 1 + n = (code.length + (n + 1)) + 1 := by omega
          rw [marks, index, List.getElem?_cons_succ, List.getElem?_append_right (by simp)]
          simpa using mark
  | case3 number line lines noFence tag more ih =>
      have split : more ++ lines.drop more.length = lines := extension_append_drop lines line
      have marks := @codeMarks_tagged line more (lines.drop more.length) noFence tag (by rw [split])
      rw [split, ← List.cons_append] at marks
      have feeds : ∀ other ∈ line :: more, '\n' ∉ other := by
        intro other inside
        refine noFeed other ?_
        rw [← split, ← List.cons_append]
        exact List.mem_append_left _ inside
      rcases List.mem_cons.mp member with rfl | later
      · have less := Text.count_take_unlines_lt (by simp) feeds offset
        refine ⟨((Text.unlines (line :: more)).take offset).count '\n', ?_, ?_⟩
        · simp [Builder.sourcePosition]
        · rw [marks, ← List.replicate_succ, List.getElem?_append_left (by simpa using less)]
          exact List.getElem?_replicate_of_lt (by simpa using less)
      · have restFeed : ∀ other ∈ lines.drop more.length, '\n' ∉ other :=
          fun other inside => noFeed other (List.mem_cons_of_mem _ (List.mem_of_mem_drop inside))
        obtain ⟨n, place, mark⟩ := ih restFeed later
        refine ⟨1 + more.length + n, by omega, ?_⟩
        have index : 1 + more.length + n = (more.length + 1) + n := by omega
        rw [marks, index, List.getElem?_append_right (by simp)]
        simpa using mark
  | case4 number line lines noFence noTag ih =>
      rw [List.forall_mem_cons] at noFeed
      obtain ⟨n, place, mark⟩ := ih noFeed.2 member
      refine ⟨n + 1, by omega, ?_⟩
      rw [codeMarks_prose lines noFence (by simpa using noTag)]
      exact mark

theorem text_of_documentTag {text : Text} (noData : splitData? (Text.lines text) = none)
    {placed : PlacedTag} (member : placed ∈ documentTags text) :
    ∃ n : Nat, placed.position.line = n + 1 ∧
      (codeMarks (Text.lines text))[n]? = some .text := by
  obtain ⟨segment, kept, tagged⟩ := List.mem_flatMap.mp member
  obtain ⟨tag, -, rfl⟩ := List.mem_map.mp tagged
  have inside : segment ∈ segmentsFrom 1 (Text.lines text) := by
    have whole := (List.mem_filter.mp kept).1
    rwa [segments, noData] at whole
  obtain ⟨n, place, mark⟩ := text_of_segment (fun line => Text.noFeed_lines) inside tag.start
  exact ⟨n, by rw [place]; omega, mark⟩

/-- In a document whose fenced code is plain to see, no component starts on a line of the fenced code
that Markdown finds in the document as a whole. -/
theorem component_not_in_code {text : Text} (feeds : Text.FeedsOnly text)
    (noData : splitData? (Text.lines text) = none)
    (tidy : Tidy false ((Text.lines text).map (List.map Markdown.Blocks.cleanChar))
      (codeMarks (Text.lines text)))
    {tree : Node} (parsed : parse text = .ok tree) {name : Text} {attributes : List Attribute}
    {children : List Node} {place : Position}
    (member : .component name attributes children (some place) ∈ tree.preorder) :
    ∃ n : Nat, place.line = n + 1 ∧ ¬Covers (Markdown.Blocks.ofText text).tokens n := by
  have reads := parse_reads text
  rw [parsed] at reads
  have event := Node.opens_of_mem_preorder tree member
  rw [reads.2.2.1] at event
  obtain ⟨placed, inTags, isEvent⟩ := List.mem_flatMap.mp event
  obtain rfl : place = placed.position := by
    simp only [PlacedTag.events] at isEvent
    split at isEvent
    · simp at isEvent
    · split at isEvent <;> simp at isEvent <;> exact isEvent.2.2
  obtain ⟨n, line, mark⟩ := text_of_documentTag noData inTags
  obtain ⟨last, ends, whole⟩ := Text.exists_eq_unlines feeds
  have nonempty : Text.lines text ++ last ≠ [] := by
    intro none
    simp [(List.append_eq_nil_iff.mp none).1, codeMarks_nil] at mark
  have noFeed : ∀ piece ∈ Text.lines text ++ last, '\n' ∉ piece := by
    intro piece inside
    rcases List.mem_append.mp inside with isLine | isLast
    · exact Text.noFeed_lines isLine
    · rcases ends with rfl | rfl
      · simp at isLast
      · simp [List.mem_singleton.mp isLast]
  have pieces := splitOn_clean nonempty noFeed
  rw [← whole] at pieces
  have either : Text.splitOn (· == '\n') (text.map Markdown.Blocks.cleanChar) =
        (Text.lines text).map (List.map Markdown.Blocks.cleanChar) ∨
      Text.splitOn (· == '\n') (text.map Markdown.Blocks.cleanChar) =
        (Text.lines text).map (List.map Markdown.Blocks.cleanChar) ++ [[]] := by
    rcases ends with rfl | rfl
    · exact .inl (by rw [pieces, List.append_nil])
    · exact .inr (by rw [pieces, List.map_append]; rfl)
  refine ⟨n, line, fun covered => ?_⟩
  have inCode := (Markdown.code_ofText either tidy n).1.mp covered
  simp [InCode, mark] at inCode

/-- The name and the place of a bare component behind the first node of a document. -/
def secondComponent? : Except ParseError Node → Option (Text × Position)
  | .ok (.root (_ :: .component name [] [] (some place) :: _) _) => some (name, place)
  | _ => none

theorem exists_of_secondComponent? {result : Except ParseError Node} {name : Text}
    {place : Position} (found : secondComponent? result = some (name, place)) :
    ∃ tree, result = .ok tree ∧ .component name [] [] (some place) ∈ tree.preorder := by
  unfold secondComponent? at found
  split at found
  next first other there rest around =>
    simp only [Option.some.injEq, Prod.mk.injEq] at found
    obtain ⟨rfl, rfl⟩ := found
    exact ⟨_, rfl, by simp [Node.preorder, Node.preorders]⟩
  next => simp at found

theorem component_not_in_code_item :
    ∃ (text : Text) (tree : Node) (place : Position), parse text = .ok tree ∧
      .component "Foo" [] [] (some place) ∈ tree.preorder ∧
      Covers (Markdown.Blocks.ofText text).tokens 2 ∧
      ∃ n : Nat, place.line = n + 1 ∧ ¬Covers (Markdown.Blocks.ofText text).tokens n := by
  let text : Text := "- a\n\n  ```js\n  <Foo />\n  ```\n\n<Foo />\n"
  have lines : (Text.lines text).map (List.map Markdown.Blocks.cleanChar) =
      ["- a", "", "  ```js", "  <Foo />", "  ```", "", "<Foo />"] := by
    decide +kernel
  have marks : codeMarks (Text.lines text) =
      [.text, .text, .opening, .code, .code, .text, .text] := by
    decide +kernel
  have tidy : Tidy false ((Text.lines text).map (List.map Markdown.Blocks.cleanChar))
      (codeMarks (Text.lines text)) := by
    rw [lines, marks]
    exact tidy_item (.blank rfl (.html (by decide +kernel) .done))
  have second : secondComponent? (parse text) = some ("Foo".toList, ⟨7, 1⟩) := by
    decide +kernel
  obtain ⟨tree, parsed, member⟩ := exists_of_secondComponent? second
  exact ⟨text, tree, _, parsed, member, by decide +kernel,
    component_not_in_code (.of_all (by decide +kernel)) (by decide +kernel) tidy parsed member⟩

/-- Fenced code that opens behind the marker of an item is read for tags. -/
theorem component_in_code_of_item :
    ∃ (text : Text) (tree : Node) (place : Position), splitData? (Text.lines text) = none ∧
      parse text = .ok tree ∧ .component "Foo" [] [] (some place) ∈ tree.preorder ∧
      place.line = 2 ∧ Covers (Markdown.Blocks.ofText text).tokens 1 := by
  let text : Text := "- ```\n  <Foo />\n  ```\n"
  have second : secondComponent? (parse text) = some ("Foo".toList, ⟨2, 3⟩) := by
    decide +kernel
  obtain ⟨tree, parsed, member⟩ := exists_of_secondComponent? second
  exact ⟨text, tree, _, by decide +kernel, parsed, member, rfl, by decide +kernel⟩

end MdxCheck.Document
