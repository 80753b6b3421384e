import MdxCheck.Proofs.Markdown.Plan

/-!
Texts whose fenced code is plain to see: it opens and closes in the first columns, no fence hides behind
the markers of quotes and items, and no block of HTML runs into it.
-/

namespace MdxCheck.Markdown

/-- What a line is to fenced code: no part of it, the line that opens it, or a later line of it. -/
inductive LineMark where
  | text
  | opening
  | code
deriving DecidableEq, Repr

/-- Line `n` is part of fenced code. -/
def InCode (marks : List LineMark) (n : Nat) : Prop :=
  marks[n]? = some .opening ∨ marks[n]? = some .code

instance (marks : List LineMark) (n : Nat) : Decidable (InCode marks n) :=
  inferInstanceAs (Decidable (_ ∨ _))

theorem InCode.inside {marks : List LineMark} {n : Nat} (inCode : InCode marks n) :
    n < marks.length := by
  rcases inCode with opening | code
  · exact (List.getElem?_eq_some_iff.mp opening).1
  · exact (List.getElem?_eq_some_iff.mp code).1

/-- The lines of fenced code after its first one do not open it. -/
theorem inCode_of_run {marks more : List LineMark} {n count : Nat}
    (run : marks.drop n = .opening :: (List.replicate count .code ++ more)) {m : Nat} (lower : n ≤ m)
    (upper : m < n + (count + 1)) : InCode marks m ∧ (marks[m]? = some .opening → m = n) := by
  obtain ⟨i, rfl⟩ : ∃ i, m = n + i := ⟨m - n, by omega⟩
  have mark : marks[n + i]? = (.opening :: (List.replicate count .code ++ more) : List LineMark)[i]? := by
    rw [← run, List.getElem?_drop]
  cases i with
  | zero => exact ⟨.inl mark, fun _ => rfl⟩
  | succ i =>
      have later : marks[n + (i + 1)]? = some .code := by
        rw [mark, List.getElem?_cons_succ, List.getElem?_append_left (by simp; omega)]
        exact List.getElem?_replicate_of_lt (by omega)
      exact ⟨.inr later, fun opening => by simp [later] at opening⟩

def isBlankLine (line : Text) : Bool :=
  line.all isSpace

/-- The column of the first character of a line that is no blank. -/
def indentOf (line : Text) : Nat :=
  (spacesFrom 0 0 line).2

def contentOf (line : Text) : Text :=
  line.dropWhile isSpace

structure OpensCode (fence : Fence) (line : Text) : Prop where
  fence : fence? (contentOf line) = some fence
  left : indentOf line < 4

/-- A line of fenced code: if it is not empty, it is not to the left of the line that has opened the
code, and does not close it. -/
structure StaysCode (fence : Fence) (opener line : Text) : Prop where
  left : isBlankLine line = false → indentOf opener ≤ indentOf line
  fence : isBlankLine line = false → fence.closedBy (contentOf line) = false

structure ClosesCode (fence : Fence) (opener line : Text) : Prop where
  shown : isBlankLine line = false
  left : indentOf opener ≤ indentOf line
  right : indentOf line < 4
  fence : fence.closedBy (contentOf line) = true

/-- Lines whose fenced code is plain to see, and what each is to it; `html` says that a block of HTML
may be open before them. -/
inductive Tidy : Bool → List Text → List LineMark → Prop
  | done {html} : Tidy html [] []
  | blank {html line lines marks} : isBlankLine line = true → Tidy false lines marks →
      Tidy html (line :: lines) (.text :: marks)
  | text {html line lines marks} : isPlain line = true → opensHtml line = false →
      Tidy html lines marks → Tidy html (line :: lines) (.text :: marks)
  | html {html line lines marks} : isPlain line = true → Tidy true lines marks →
      Tidy html (line :: lines) (.text :: marks)
  | code {fence line code stop lines marks} : OpensCode fence line →
      (∀ inside ∈ code, StaysCode fence line inside) → ClosesCode fence line stop →
      Tidy false lines marks →
      Tidy false (line :: (code ++ stop :: lines))
        (.opening :: (List.replicate code.length .code ++ .code :: marks))
  | unclosed {fence line code} : OpensCode fence line →
      (∀ inside ∈ code, StaysCode fence line inside) →
      (∀ last, code.getLast? = some last → isBlankLine last = false) →
      Tidy false (line :: code) (.opening :: List.replicate code.length .code)

theorem isEmpty_ofText (text : Text) (ended : Bool) :
    (Line.ofText text ended).isEmpty = isBlankLine text := by
  have parts := congrArg List.length (List.takeWhile_append_dropWhile (p := isSpace) (l := text))
  rw [List.length_append] at parts
  simp only [Line.isEmpty, Line.ofText, spacesFrom_fst, isBlankLine]
  cases blank : text.all isSpace with
  | true =>
      have same : text.takeWhile isSpace = text :=
        List.takeWhile_eq_self_iff.mpr (List.all_eq_true.mp blank)
      simp [same]
  | false =>
      have some : text.dropWhile isSpace ≠ [] := by
        intro none
        rw [List.dropWhile_eq_nil_iff] at none
        rw [List.all_eq_true.mpr none] at blank
        contradiction
      have more := List.length_pos_iff.mpr some
      simp only [decide_eq_false_iff_not]
      omega

theorem indent_ofText (text : Text) (ended : Bool) :
    (Line.ofText text ended).indent = (indentOf text : Int) := rfl

namespace Tidy

variable {html : Bool} {line : Text} {lines : List Text} {marks : List LineMark}

theorem length_eq (tidy : Tidy html lines marks) : marks.length = lines.length := by
  induction tidy with
  | done => rfl
  | blank _ _ ih => simp [ih]
  | text _ _ _ ih => simp [ih]
  | html _ _ ih => simp [ih]
  | code _ _ _ _ ih => simp [ih]
  | unclosed _ _ _ => simp

/-- A line that is no fenced code is plain, and the lines after it are tidy again. -/
theorem plain (tidy : Tidy html (line :: lines) (.text :: marks)) :
    isPlain line = true ∧ (∃ further, Tidy further lines marks) ∧
      (opensHtml line = true → Tidy true lines marks) ∧
      (html = true → isBlankLine line = false → Tidy true lines marks) := by
  cases tidy with
  | blank blank rest =>
      refine ⟨isPlain_of_blank blank, ⟨_, rest⟩, fun opens => ?_, fun _ shown => ?_⟩
      · rw [opensHtml_of_blank blank] at opens
        contradiction
      · rw [blank] at shown
        contradiction
  | text plain noHtml rest =>
      refine ⟨plain, ⟨_, rest⟩, fun opens => ?_, fun isHtml _ => isHtml ▸ rest⟩
      rw [noHtml] at opens
      contradiction
  | html plain rest => exact ⟨plain, ⟨_, rest⟩, fun _ => rest, fun _ _ => rest⟩

theorem no_code_in_html (tidy : Tidy true lines marks) : ¬InCode marks 0 := by
  cases tidy <;> simp [InCode]

end Tidy

/-- At or behind each line of fenced code there is a line that is not blank. -/
def EndsShown (lines : List Text) (marks : List LineMark) : Prop :=
  ∀ n : Nat, InCode marks n →
    ∃ (m : Nat) (text : Text), n ≤ m ∧ lines[m]? = some text ∧ isBlankLine text = false

namespace EndsShown

variable {lines : List Text} {marks : List LineMark}

theorem of_last {last : Text} (shown : isBlankLine last = false)
    (within : marks.length ≤ lines.length + 1) : EndsShown (lines ++ [last]) marks := by
  intro n inCode
  have inside := inCode.inside
  exact ⟨lines.length, last, by omega, by simp, shown⟩

theorem append {front : List Text} {frontMarks : List LineMark} (same : frontMarks.length = front.length)
    (left : EndsShown front frontMarks) (right : EndsShown lines marks) :
    EndsShown (front ++ lines) (frontMarks ++ marks) := by
  intro n inCode
  unfold InCode at inCode
  by_cases before : n < front.length
  · rw [List.getElem?_append_left (same ▸ before)] at inCode
    obtain ⟨m, text, reached, found, shown⟩ := left n inCode
    have inside := (List.getElem?_eq_some_iff.mp found).1
    exact ⟨m, text, reached, by rw [List.getElem?_append_left inside, found], shown⟩
  · rw [List.getElem?_append_right (by omega), same] at inCode
    obtain ⟨m, text, reached, found, shown⟩ := right (n - front.length) inCode
    refine ⟨front.length + m, text, by omega, ?_, shown⟩
    rw [List.getElem?_append_right (by omega), Nat.add_sub_cancel_left, found]

theorem cons (line : Text) (later : EndsShown lines marks) :
    EndsShown (line :: lines) (.text :: marks) := by
  have here : EndsShown [line] [.text] := by
    intro n inCode
    cases n <;> simp [InCode] at inCode
  exact here.append rfl later

end EndsShown

theorem OpensCode.shown {fence : Fence} {line : Text} (opens : OpensCode fence line) :
    isBlankLine line = false := by
  cases blank : isBlankLine line with
  | false => rfl
  | true =>
      have none : contentOf line = [] :=
        List.dropWhile_eq_nil_iff.mpr (List.all_eq_true.mp blank)
      have found := opens.fence
      simp [none, fence?] at found

theorem Tidy.endsShown {html : Bool} {lines : List Text} {marks : List LineMark}
    (tidy : Tidy html lines marks) : EndsShown lines marks := by
  induction tidy with
  | done => simp [EndsShown, InCode]
  | blank _ _ ih => exact ih.cons _
  | text _ _ _ ih => exact ih.cons _
  | html _ _ ih => exact ih.cons _
  | @code fence line code stop lines marks _ _ closes _ ih =>
      have run : EndsShown (line :: code ++ [stop])
          (.opening :: List.replicate code.length .code ++ [.code]) :=
        .of_last closes.shown (by simp)
      have whole := run.append (by simp) ih
      simpa using whole
  | @unclosed fence line code opens _ ends =>
      rcases List.eq_nil_or_concat code with rfl | ⟨front, last, rfl⟩
      · exact @EndsShown.of_last [] _ line opens.shown (by simp)
      · have shown := ends last (by simp)
        have run : EndsShown (line :: front ++ [last])
            (.opening :: List.replicate (front.concat last).length .code) :=
          .of_last shown (by simp)
        simpa using run

/-- The lines of a text with these pieces; an empty piece at the end may be no line. -/
structure Lined (texts : List Text) (lines : List Line) : Prop where
  length : lines.length ≤ texts.length
  line : ∀ n text, texts[n]? = some text → n < lines.length →
    ∃ ended, lines[n]? = some (.ofText text ended) ∧ (n + 1 < lines.length → ended = true)
  rest : ∀ n text, texts[n]? = some text → lines.length ≤ n → text = []

namespace Lined

theorem cons {texts : List Text} {lines : List Line} (lined : Lined texts lines) (text : Text) :
    Lined (text :: texts) (.ofText text true :: lines) where
  length := Nat.succ_le_succ lined.length
  line n other found inside := by
    cases n with
    | zero =>
        obtain rfl : text = other := by simpa using found
        exact ⟨true, rfl, fun _ => rfl⟩
    | succ n =>
        obtain ⟨ended, same, last⟩ := lined.line n other found (Nat.lt_of_succ_lt_succ inside)
        exact ⟨ended, same, fun more => last (Nat.lt_of_succ_lt_succ more)⟩
  rest n other found outside := by
    cases n with
    | zero => simp at outside
    | succ n => exact lined.rest n other found (Nat.le_of_succ_le_succ outside)

theorem of_linesOf (texts : List Text) : Lined texts (linesOf texts) := by
  fun_induction linesOf texts with
  | case1 => exact ⟨Nat.le_refl 0, by simp, by simp⟩
  | case2 text empty =>
      refine ⟨Nat.zero_le _, fun n _ _ inside => by simp at inside, fun n other found _ => ?_⟩
      have inside := (List.getElem?_eq_some_iff.mp found).1
      obtain rfl : n = 0 := by simpa using inside
      obtain rfl : text = other := by simpa using found
      exact List.isEmpty_iff.mp empty
  | case3 text shown =>
      refine ⟨Nat.le_refl 1, fun n other found inside => ?_, fun n other found outside => ?_⟩
      · obtain rfl : n = 0 := by simpa using inside
        obtain rfl : text = other := by simpa using found
        exact ⟨false, rfl, fun more => by simp at more⟩
      · have inside := (List.getElem?_eq_some_iff.mp found).1
        simp only [List.length_singleton] at inside outside
        omega
  | case4 text texts _ ih => exact ih.cons text

theorem of_linesOf_feed (texts : List Text) : Lined texts (linesOf (texts ++ [[]])) := by
  induction texts with
  | nil => exact ⟨Nat.le_refl 0, by simp, by simp⟩
  | cons text texts ih =>
      have same : linesOf (text :: texts ++ [[]]) = .ofText text true :: linesOf (texts ++ [[]]) := by
        cases texts <;> rfl
      rw [same]
      exact ih.cons text

variable {texts : List Text} {lines : List Line} (lined : Lined texts lines)

include lined

theorem inside_of_shown {n : Nat} {text : Text} (found : texts[n]? = some text)
    (shown : isBlankLine text = false) : n < lines.length := by
  by_contra outside
  rw [lined.rest n text found (by omega)] at shown
  contradiction

theorem view_line {n : Nat} {text : Text} (found : texts[n]? = some text) (inside : n < lines.length) :
    ∃ ended, (View.ofLines lines).line n = .ofText text ended ∧
      (n + 1 < lines.length → ended = true) := by
  obtain ⟨ended, same, last⟩ := lined.line n text found inside
  exact ⟨ended, by simp [View.line, View.ofLines, same], last⟩

theorem stands (n : Nat) : ((View.ofLines lines).line n).Stands ((texts[n]?).getD []) := by
  by_cases inside : n < lines.length
  · have found := List.getElem?_eq_getElem (Nat.lt_of_lt_of_le inside lined.length)
    obtain ⟨ended, same, -⟩ := lined.view_line found inside
    rw [same, found]
    exact Line.stands_ofText _ ended
  · have empty : (texts[n]?).getD [] = [] := by
      cases found : texts[n]? with
      | none => rfl
      | some text => exact lined.rest n text found (by omega)
    have beyond : (View.ofLines lines).line n = ⟨[], 0, 0, 0, false⟩ := by
      simp [View.line, View.ofLines, List.getElem?_eq_none (Nat.le_of_not_lt inside)]
    rw [empty, beyond]
    exact Line.stands_ofText [] false

theorem opensFence {n : Nat} {fence : Fence} {text : Text} (found : texts[n]? = some text)
    (opens : OpensCode fence text) :
    ∃ ended, (View.ofLines lines).line n = .ofText text ended ∧
      (Line.ofText text ended).OpensFence ∧
      fence? (Line.ofText text ended).content = some fence := by
  obtain ⟨ended, same, -⟩ := lined.view_line found (lined.inside_of_shown found opens.shown)
  have isFence : fence? (Line.ofText text ended).content = some fence := by
    rw [Line.content_ofText]
    exact opens.fence
  have right := opens.left
  refine ⟨ended, same, ⟨?_, ?_, ?_, ?_⟩, isFence⟩
  · rw [isEmpty_ofText, opens.shown]
  · rw [indent_ofText]
    omega
  · rw [indent_ofText]
    omega
  · rw [isFence]
    rfl

theorem staysIn {n : Nat} {fence : Fence} {opener text : Text} {openerEnded : Bool}
    (found : texts[n]? = some text) (inside : n < lines.length)
    (stays : StaysCode fence opener text)
    (more : isBlankLine text = true → n + 1 < lines.length) :
    ((View.ofLines lines).line n).StaysIn fence (.ofText opener openerEnded) := by
  obtain ⟨ended, same, last⟩ := lined.view_line found inside
  rw [same]
  refine ⟨fun empty => last (more ?_), fun shown => ?_, fun shown => ?_⟩
  · rwa [isEmpty_ofText] at empty
  · rw [isEmpty_ofText] at shown
    have left := stays.left shown
    rw [indent_ofText, indent_ofText]
    omega
  · rw [isEmpty_ofText] at shown
    rw [Line.content_ofText]
    exact stays.fence shown

theorem closes {n : Nat} {fence : Fence} {opener text : Text} {openerEnded : Bool}
    (found : texts[n]? = some text) (closes : ClosesCode fence opener text) :
    ((View.ofLines lines).line n).Closes fence (.ofText opener openerEnded) := by
  obtain ⟨ended, same, -⟩ := lined.view_line found (lined.inside_of_shown found closes.shown)
  have left := closes.left
  have right := closes.right
  rw [same]
  refine ⟨?_, ?_, ?_, ?_⟩
  · rw [isEmpty_ofText, closes.shown]
  · rw [indent_ofText, indent_ofText]
    omega
  · rw [indent_ofText]
    omega
  · rw [Line.content_ofText]
    exact closes.fence

theorem tidy_at {marks : List LineMark} {html : Bool} {n : Nat}
    (tidy : Tidy html (texts.drop n) (marks.drop n)) (inside : n < lines.length)
    (clear : ¬InCode marks n) :
    Tidy html ((texts[n]?).getD [] :: texts.drop (n + 1)) (.text :: marks.drop (n + 1)) := by
  have within : n < texts.length := Nat.lt_of_lt_of_le inside lined.length
  have same := tidy.length_eq
  simp only [List.length_drop] at same
  have also : n < marks.length := by omega
  have mark : marks[n] = .text := by
    simp only [InCode, List.getElem?_eq_getElem also, Option.some.injEq, not_or] at clear
    cases found : marks[n] with
    | text => rfl
    | opening => exact absurd found clear.1
    | code => exact absurd found clear.2
  rw [List.drop_eq_getElem_cons within, List.drop_eq_getElem_cons also, mark] at tidy
  rwa [List.getElem?_eq_getElem within, Option.getD_some]

/-- Fenced code up to the line that closes it, found at its place in the text. -/
theorem codeRun_closed {n : Nat} {fence : Fence} {line stop : Text} {code tail : List Text}
    (rest : texts.drop n = line :: (code ++ stop :: tail)) (opens : OpensCode fence line)
    (stays : ∀ inside ∈ code, StaysCode fence line inside) (closes : ClosesCode fence line stop) :
    CodeRun (View.ofLines lines).line lines.length n fence (n + (code.length + 1)) true := by
  have text (i : Nat) : texts[n + i]? = (line :: (code ++ stop :: tail))[i]? := by
    rw [← rest, List.getElem?_drop]
  have opener : texts[n]? = some line := text 0
  obtain ⟨ended, isOpener, isFence, found⟩ := lined.opensFence opener opens
  have stopText : texts[n + (code.length + 1)]? = some stop := by rw [text]; simp
  have stopInside := lined.inside_of_shown stopText closes.shown
  refine ⟨?_, ?_, by omega, by omega, ?_, stopInside, ?_⟩
  · exact isOpener ▸ isFence
  · exact isOpener ▸ found
  · intro m lower upper
    obtain ⟨i, rfl⟩ : ∃ i, m = n + (i + 1) := ⟨m - n - 1, by omega⟩
    have within : i < code.length := by omega
    have inCode : texts[n + (i + 1)]? = some code[i] := by
      rw [text, List.getElem?_cons_succ, List.getElem?_append_left within,
        List.getElem?_eq_getElem within]
    rw [isOpener]
    exact lined.staysIn inCode (by omega) (stays _ (List.getElem_mem within)) fun _ => by omega
  · exact isOpener ▸ lined.closes stopText closes

/-- Fenced code that goes on to the end of the text. -/
theorem codeRun_unclosed {n : Nat} {fence : Fence} {line : Text} {code : List Text}
    (rest : texts.drop n = line :: code) (opens : OpensCode fence line)
    (stays : ∀ inside ∈ code, StaysCode fence line inside)
    (ends : ∀ last, code.getLast? = some last → isBlankLine last = false) :
    CodeRun (View.ofLines lines).line lines.length n fence (n + (code.length + 1)) false := by
  have text (i : Nat) : texts[n + i]? = (line :: code)[i]? := by rw [← rest, List.getElem?_drop]
  have opener : texts[n]? = some line := text 0
  obtain ⟨ended, isOpener, isFence, found⟩ := lined.opensFence opener opens
  have lastShown : ∃ last, texts[n + code.length]? = some last ∧ isBlankLine last = false := by
    rw [text]
    rcases List.eq_nil_or_concat code with rfl | ⟨front, last, rfl⟩
    · exact ⟨line, rfl, opens.shown⟩
    · exact ⟨last, by simp, ends last (by simp)⟩
  obtain ⟨last, lastText, shown⟩ := lastShown
  have length : lines.length = n + (code.length + 1) := by
    have whole := congrArg List.length rest
    simp only [List.length_drop, List.length_cons] at whole
    have inside := lined.inside_of_shown lastText shown
    have within := lined.length
    omega
  refine ⟨?_, ?_, by omega, by omega, ?_, length.symm⟩
  · exact isOpener ▸ isFence
  · exact isOpener ▸ found
  · intro m lower upper
    obtain ⟨i, rfl⟩ : ∃ i, m = n + (i + 1) := ⟨m - n - 1, by omega⟩
    have within : i < code.length := by omega
    have inCode : texts[n + (i + 1)]? = some code[i] := by
      rw [text, List.getElem?_cons_succ, List.getElem?_eq_getElem within]
    rw [isOpener]
    -- the last line is not blank, so a line feed follows each blank one
    refine lined.staysIn inCode (by omega) (stays _ (List.getElem_mem within)) fun blank => ?_
    by_contra final
    have same : code.length = i + 1 := by omega
    rw [same, inCode] at lastText
    obtain rfl := Option.some.inj lastText
    rw [blank] at shown
    contradiction

theorem codeRun {marks : List LineMark} {html : Bool} {n : Nat}
    (tidy : Tidy html (texts.drop n) (marks.drop n)) (inCode : InCode marks n) :
    ∃ fence last closed, CodeRun (View.ofLines lines).line lines.length n fence last closed ∧
      (∃ further, Tidy further (texts.drop (if closed then last + 1 else last))
        (marks.drop (if closed then last + 1 else last))) ∧
      ∀ m, n ≤ m → m < (if closed then last + 1 else last) →
        InCode marks m ∧ (marks[m]? = some .opening → m = n) := by
  have first : InCode (marks.drop n) 0 := by simpa [InCode] using inCode
  -- the rest of the lines is known by its form, and its parts are found at their numbers again
  generalize textsAre : texts.drop n = rest at tidy
  generalize marksAre : marks.drop n = restMarks at tidy first
  have textsFrom (i : Nat) : texts.drop (n + i) = rest.drop i := by rw [← textsAre, List.drop_drop]
  have marksFrom (i : Nat) : marks.drop (n + i) = restMarks.drop i := by
    rw [← marksAre, List.drop_drop]
  cases tidy with
  | done => simp [InCode] at first
  | blank => simp [InCode] at first
  | text => simp [InCode] at first
  | html => simp [InCode] at first
  | @code fence line code stop tail tailMarks opens stays closes later =>
      refine ⟨fence, _, true, lined.codeRun_closed textsAre opens stays closes, ⟨false, ?_⟩,
        fun m lower upper => ?_⟩
      · change Tidy false (texts.drop (n + (code.length + 2))) (marks.drop (n + (code.length + 2)))
        have behind : (List.replicate code.length LineMark.code ++ .code :: tailMarks).drop (code.length + 1) =
            tailMarks := by
          rw [← List.drop_drop, List.drop_left' (by simp)]
          rfl
        rw [textsFrom, marksFrom, List.drop_succ_cons, List.drop_succ_cons, behind]
        simpa using later
      · have run : marks.drop n = .opening :: (List.replicate (code.length + 1) .code ++ tailMarks) := by
          rw [marksAre, List.replicate_succ', List.append_assoc]
          rfl
        exact inCode_of_run run lower upper
  | @unclosed fence line code opens stays ends =>
      refine ⟨fence, _, false, lined.codeRun_unclosed textsAre opens stays ends, ⟨false, ?_⟩,
        fun m lower upper => ?_⟩
      · change Tidy false (texts.drop (n + (code.length + 1))) (marks.drop (n + (code.length + 1)))
        rw [textsFrom, marksFrom]
        simpa using Tidy.done
      · have run : marks.drop n = .opening :: (List.replicate code.length .code ++ []) := by
          rw [marksAre, List.append_nil]
        exact inCode_of_run run lower upper

def plan {marks : List LineMark} {html : Bool} (tidy : Tidy html texts marks) : Plan where
  limit := lines.length
  line := (View.ofLines lines).line
  text n := (texts[n]?).getD []
  flagged n := InCode marks n
  opening n := marks[n]? = some .opening
  safe n := ∃ further, Tidy further (texts.drop n) (marks.drop n)
  html n := Tidy true (texts.drop n) (marks.drop n)
  stands := lined.stands
  inside n inCode := by
    obtain ⟨m, text, reached, found, shown⟩ := tidy.endsShown n inCode
    exact Nat.lt_of_le_of_lt reached (lined.inside_of_shown found shown)
  flagged_of_opening _ opening := .inl opening
  plain n safe inside clear := by
    obtain ⟨further, rest⟩ := safe
    obtain ⟨plain, next, -⟩ := (lined.tidy_at rest inside clear).plain
    exact ⟨plain, next⟩
  opensHtml n safe inside clear opens := by
    obtain ⟨further, rest⟩ := safe
    exact (lined.tidy_at rest inside clear).plain.2.2.1 opens
  goesOn n html inside shown := by
    have clear : ¬InCode marks n := by simpa [InCode] using html.no_code_in_html
    have within := Nat.lt_of_lt_of_le inside lined.length
    obtain ⟨ended, same, -⟩ := lined.view_line (List.getElem?_eq_getElem within) inside
    refine (lined.tidy_at html inside clear).plain.2.2.2 rfl ?_
    rw [same, isEmpty_ofText] at shown
    rwa [List.getElem?_eq_getElem within, Option.getD_some]
  safe_of_html n html := ⟨⟨true, html⟩, by simpa [InCode] using html.no_code_in_html⟩
  code n safe inCode := by
    obtain ⟨further, rest⟩ := safe
    exact lined.codeRun rest inCode

end Lined

/-- In a text of tidy lines, with or without an end of line at its end, the fenced code is the code that
is plain to see. -/
theorem code_ofText {text : Text} {texts : List Text} {marks : List LineMark} {html : Bool}
    (pieces : Text.splitOn (· == '\n') (text.map Blocks.cleanChar) = texts ∨
      Text.splitOn (· == '\n') (text.map Blocks.cleanChar) = texts ++ [[]])
    (tidy : Tidy html texts marks) (n : Nat) :
    (Covers (Blocks.ofText text).tokens n ↔ InCode marks n) ∧
      (marks[n]? = some .opening → OpensAt (Blocks.ofText text).tokens n) := by
  have lined : Lined texts (linesOf (Text.splitOn (· == '\n') (text.map Blocks.cleanChar))) := by
    rcases pieces with same | fed
    · exact same ▸ Lined.of_linesOf _
    · exact fed ▸ Lined.of_linesOf_feed texts
  exact Blocks.code_of_plan (lined.plan tidy) rfl (fun _ => rfl) ⟨html, tidy⟩ n

end MdxCheck.Markdown
