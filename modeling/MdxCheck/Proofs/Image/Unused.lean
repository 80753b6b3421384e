import MdxCheck.Image.Check
import MdxCheck.Proofs.Image.Name
import MdxCheck.Proofs.Image.Statements
import Mathlib.Data.List.Nodup

/-!
Which imports of images are reported as unused: those whose name stands nowhere in the text without the
statement, if the lines before the statement are counted alike and it has the name on its first line
only.
-/

namespace MdxCheck.Image

open Text

/-- What may stand between the closing quote of a statement and the end of its line. -/
def IsEnding (ending : Text) : Prop :=
  ∃ semicolon blanks, ending = semicolon ++ blanks ∧ (semicolon = [] ∨ semicolon = [';']) ∧
    ∀ c ∈ blanks, c = ' ' ∨ c = '\t'

/-- Whether a text is cut in three so that the middle part is the statement of an import, from the start
of a line to the end of one. -/
structure Import.StatedAt (image : Import) (text before span after : Text) : Prop where
  whole : text = before ++ (span ++ after)
  spelled : ∃ ending, Opens span image.name image.source ending ∧ IsEnding ending
  start : before = [] ∨ before.getLast? = some '\n'
  stop : after = [] ∨ after.head? = some '\n'
  line : image.line = before.count '\n' + 1

theorem exists_ending {rest : Text} (ends : endsStatement rest = true) :
    ∃ ending after, rest = ending ++ after ∧ IsEnding ending ∧ endsStatement ending = true ∧
      (after = [] ∨ after.head? = some '\n') := by
  let isSpace (c : Char) : Bool := c == ' ' || c == '\t'
  obtain ⟨semicolon, split, isSemicolon⟩ : ∃ semicolon, rest = semicolon ++ trailing rest ∧
      (semicolon = [] ∨ semicolon = [';']) := by
    unfold trailing
    split
    · next head =>
        obtain ⟨tail, rfl⟩ := List.head?_eq_some_iff.mp head
        exact ⟨[';'], rfl, .inr rfl⟩
    · exact ⟨[], rfl, .inl rfl⟩
  have spaces : ∀ c ∈ (trailing rest).takeWhile isSpace, c = ' ' ∨ c = '\t' := by
    intro c member
    simpa [isSpace] using List.mem_takeWhile_imp member
  refine ⟨semicolon ++ (trailing rest).takeWhile isSpace, (trailing rest).dropWhile isSpace, ?_,
    ⟨semicolon, _, rfl, isSemicolon, spaces⟩, ?_, ?_⟩
  · rw [List.append_assoc, List.takeWhile_append_dropWhile]
    exact split
  · have same : trailing (semicolon ++ (trailing rest).takeWhile isSpace) =
        (trailing rest).takeWhile isSpace := by
      rcases isSemicolon with rfl | rfl
      · unfold trailing
        rw [if_neg]
        · rfl
        · intro head
          have member := List.mem_of_head? head
          have other := spaces ';' member
          simp at other
      · rfl
    have none : ((trailing rest).takeWhile isSpace).dropWhile isSpace = [] :=
      List.dropWhile_eq_nil_iff.mpr fun c member => List.mem_takeWhile_imp member
    rw [endsStatement_iff, same]
    intro c found
    have found : (((trailing rest).takeWhile isSpace).dropWhile isSpace).head? = some c := found
    rw [none] at found
    contradiction
  · rw [endsStatement_iff] at ends
    cases after : (trailing rest).dropWhile isSpace with
    | nil => exact .inl rfl
    | cons c tail =>
        obtain rfl := ends c (by simpa [isSpace] using congrArg List.head? after)
        exact .inr rfl

theorem Opens.isName {text name source rest : Text} (opens : Opens text name source rest) :
    IsName name := by
  obtain ⟨-, -, isName, -⟩ := opens
  exact isName

theorem Opens.exists_span {text name source rest : Text} (opens : Opens text name source rest) :
    ∃ span after, text = span ++ after ∧ (∃ ending, Opens span name source ending ∧ IsEnding ending) ∧
      (after = [] ∨ after.head? = some '\n') := by
  obtain ⟨spellsImport, gap, isName, gapAfter, spellsFrom, gapBefore, stops, plain, isImage, ends⟩ := opens
  obtain ⟨ending, after, rfl, isEnding, ends, stop⟩ := exists_ending ends
  refine ⟨_, after, ?_, ⟨ending, .intro spellsImport gap isName gapAfter spellsFrom gapBefore stops plain
    isImage ends, isEnding⟩, stop⟩
  simp

theorem exists_statedAt_from (text : Text) :
    ∀ before isStart skipped, (isStart = true → before = [] ∨ before.getLast? = some '\n') →
      ∀ image ∈ importsFrom (before.count '\n' + 1) isStart skipped text,
        ∃ front span after, image.StatedAt (before ++ text) front span after := by
  induction text with
  | nil =>
      intro before isStart skipped _ image member
      simp [importsFrom] at member
  | cons c text ih =>
      intro before isStart skipped start
      have next : (if c = '\n' then before.count '\n' + 1 + 1 else before.count '\n' + 1) =
          (before ++ [c]).count '\n' + 1 := by
        by_cases feed : c = '\n' <;> simp [feed]
      have whole : before ++ c :: text = (before ++ [c]) ++ text := by simp
      have starts : (c == '\n') = true → before ++ [c] = [] ∨ (before ++ [c]).getLast? = some '\n' := by
        intro feed
        exact .inr (by simpa using feed)
      intro image member
      cases skipped with
      | succ skipped =>
          rw [importsFrom, next] at member
          rw [whole]
          exact ih _ _ _ starts image member
      | zero =>
          simp only [importsFrom] at member
          rw [next] at member
          split at member
          · next name source rest found =>
              rcases List.mem_cons.mp member with rfl | later
              · split at found
                · next isStart =>
                    obtain ⟨span, after, split, spelled, stop⟩ := (opens_of_statement? found).exists_span
                    exact ⟨before, span, after, by rw [split], spelled, start isStart, stop, rfl⟩
                · contradiction
              · rw [whole]
                exact ih _ false _ (by simp) image later
          · rw [whole]
            exact ih _ _ _ starts image member

/-- Each import that is found is a statement somewhere in the text. -/
theorem exists_statedAt {text : Text} {image : Import} (member : image ∈ imports text) :
    ∃ before span after, image.StatedAt text before span after :=
  exists_statedAt_from text [] true 0 (fun _ => .inl rfl) image member

/-- The lines of a text after its first, with what ends the first. -/
def laterLines (text : Text) : Text :=
  text.dropWhile fun c => !isLineEnd c

theorem isUsedIn_iff {document : Text} {image : Import} (isName : IsName image.name) :
    image.isUsedIn document = true ↔
      ∃ index line, (lines document)[index]? = some line ∧ index + 1 ≠ image.line ∧
        Occurs image.name line := by
  rw [Import.isUsedIn, hasName_iff_occurs isName.nonempty, occurs_unlines isName]
  simp only [List.mem_map, List.mem_filter, Prod.exists, List.mem_zipIdx_iff_getElem?,
    decide_eq_true_eq]
  constructor
  · rintro ⟨_, ⟨line, index, ⟨found, other⟩, rfl⟩, occurs⟩
    exact ⟨index, line, found, other, occurs⟩
  · rintro ⟨index, line, found, other, occurs⟩
    exact ⟨line, ⟨line, index, ⟨found, other⟩, rfl⟩, occurs⟩

/-- A name stands on a line of a text after the first just if it stands behind the first line. -/
theorem exists_lines_of_nonempty {name text : Text} (isName : IsName name) (nonempty : text ≠ []) :
    ∃ line others, lines text = line :: others ∧
      ((∃ other ∈ others, Occurs name other) ↔ Occurs name (laterLines text)) := by
  obtain ⟨line, stop, rest, rfl, solid, stops, nonempty⟩ := exists_line text nonempty
  refine ⟨line, lines rest, lines_append solid stops nonempty, ?_⟩
  have later : laterLines (line ++ (stop ++ rest)) = stop ++ rest := by
    rw [laterLines, List.dropWhile_append_of_pos (by simpa using solid)]
    cases stop with
    | nil => simp [stops.rest_eq_nil rfl]
    | cons c stop => simp [stops.isLineEnd c (by simp)]
  have blank (c : Char) (member : c ∈ stop) := isBlank_of_isLineEnd (stops.isLineEnd c member)
  have behind := @occurs_append_blank name isName [] stop rest blank stops.rest_eq_nil
  rw [List.nil_append] at behind
  rw [later, behind, ← occurs_iff_mem_lines isName]
  simp [not_occurs_nil isName]

theorem exists_occurs_other_iff {name line : Text} {front back : List Text} :
    (∃ index other, (front ++ line :: back)[index]? = some other ∧ index + 1 ≠ front.length + 1 ∧
      Occurs name other) ↔
      (∃ other ∈ front, Occurs name other) ∨ ∃ other ∈ back, Occurs name other := by
  constructor
  · rintro ⟨index, other, found, different, occurs⟩
    rcases Nat.lt_or_ge index front.length with within | beyond
    · rw [List.getElem?_append_left within] at found
      exact .inl ⟨other, List.mem_of_getElem? found, occurs⟩
    · rw [List.getElem?_append_right beyond] at found
      obtain ⟨count, same⟩ : ∃ count, index - front.length = count + 1 :=
        ⟨index - front.length - 1, by omega⟩
      rw [same, List.getElem?_cons_succ] at found
      exact .inr ⟨other, List.mem_of_getElem? found, occurs⟩
  · rintro (⟨other, member, occurs⟩ | ⟨other, member, occurs⟩)
    · obtain ⟨index, within, rfl⟩ := List.mem_iff_getElem.mp member
      exact ⟨index, _, by simp [List.getElem?_append_left within], by omega, occurs⟩
    · obtain ⟨index, found⟩ := List.mem_iff_getElem?.mp member
      refine ⟨front.length + (index + 1), other, ?_, by omega, occurs⟩
      rw [List.getElem?_append_right (by omega), Nat.add_sub_cancel_left, List.getElem?_cons_succ]
      exact found

namespace Import.StatedAt

variable {image : Import} {text before span after : Text} (stated : image.StatedAt text before span after)

include stated

theorem isName : IsName image.name := by
  obtain ⟨ending, opens, -⟩ := stated.spelled
  exact opens.isName

theorem nonempty : span ≠ [] := by
  obtain ⟨ending, opens, -⟩ := stated.spelled
  obtain ⟨c, more, split, -⟩ := opens.head
  simp [split]

theorem opensApart : OpensApart after := by
  refine opensApart_of_blank fun c found => ?_
  rcases stated.stop with rfl | feed
  · simp at found
  · obtain rfl := Option.some.inj (feed.symm.trans found)
    decide

theorem laterLines_append : laterLines (span ++ after) = laterLines span ++ after := by
  have stays : laterLines after = after := by
    rcases stated.stop with rfl | feed
    · rfl
    · obtain ⟨rest, rfl⟩ := List.head?_eq_some_iff.mp feed
      rfl
  unfold laterLines at stays ⊢
  rw [List.dropWhile_append, stays]
  split
  · next none => rw [List.isEmpty_iff.mp none, List.nil_append]
  · rfl

/-- The name of an import stands on other lines than that of the statement just if it stands outside of
the statement or behind its first line. -/
theorem isUsedIn_iff (counted : (lines before).length = before.count '\n') :
    image.isUsedIn text = true ↔
      Occurs image.name (before ++ after) ∨ Occurs image.name (laterLines span) := by
  have isName := stated.isName
  have split : lines text = lines before ++ lines (span ++ after) := by
    rw [stated.whole]
    rcases stated.start with rfl | feed
    · rfl
    · exact lines_append_of_feed feed _
  obtain ⟨line, others, first, behind⟩ := exists_lines_of_nonempty isName
    (List.append_ne_nil_of_left_ne_nil stated.nonempty after)
  rw [Image.isUsedIn_iff isName, split, first, stated.line, ← counted, exists_occurs_other_iff,
    ← occurs_iff_mem_lines isName, behind, stated.laterLines_append,
    occurs_append isName (.inr stated.opensApart), occurs_append isName (.inr stated.opensApart)]
  tauto

end Import.StatedAt

/-- No two imports of a text start on one line. -/
theorem eq_of_line_eq {text : Text} {image other : Import} (member : image ∈ imports text)
    (otherMember : other ∈ imports text) (same : image.line = other.line) : image = other := by
  have distinct : ((imports text).map Import.line).Nodup :=
    List.pairwise_map.mpr ((importsFrom_increasing text 1 true 0).2.imp Nat.ne_of_lt)
  exact List.inj_on_of_nodup_map distinct member otherMember same

/-- What is reported of an import that is not used. -/
def Import.unused (path : Path) (image : Import) : Diagnostic :=
  image.problem path ("Image `" ++ image.name ++ "` is imported but never used")

theorem line_of_problem {path : Path} {image other : Import} {reason otherReason : Text}
    (same : image.problem path reason = other.problem path otherReason) :
    image.line = other.line ∧ reason = otherReason := by
  have line := congrArg Diagnostic.line same
  simp only [Import.problem, Diagnostic.withFile, Diagnostic.atPosition, Option.some.injEq,
    Int.ofNat_inj] at line
  exact ⟨line, congrArg Diagnostic.reason same⟩

section

variable {files : Files} {path : Path} {text : Text} {image : Import}

theorem check_eq : image.check files path text =
    (if image.exists files path then [] else
      [image.problem path ("Image `" ++ image.name ++ "` imports `" ++ image.source ++
        "`, which does not exist")]) ++
      if image.isUsedIn text then [] else [image.unused path] := by
  have joined (rest : Text) : "Image `" ++ image.name ++ "` " ++ rest =
      "Image `" ++ image.name ++ (("` " : Text) ++ rest) := by simp
  simp only [Import.check, Import.unused, joined]
  rfl

theorem line_of_mem_check {diagnostic : Diagnostic} (member : diagnostic ∈ image.check files path text) :
    ∃ reason, diagnostic = image.problem path reason := by
  rw [check_eq, List.mem_append] at member
  rcases member with missing | unused
  · split at missing
    · simp at missing
    · exact ⟨_, List.mem_singleton.mp missing⟩
  · split at unused
    · simp at unused
    · exact ⟨_, List.mem_singleton.mp unused⟩

theorem unused_mem_check_iff :
    image.unused path ∈ image.check files path text ↔ ¬image.isUsedIn text = true := by
  rw [check_eq, List.mem_append]
  constructor
  · rintro (missing | unused)
    · split at missing
      · simp at missing
      · obtain ⟨-, reason⟩ := line_of_problem (List.mem_singleton.mp missing)
        simp at reason
    · split at unused
      · simp at unused
      · assumption
  · intro unused
    rw [if_neg unused]
    exact .inr (List.mem_singleton.mpr rfl)

theorem unused_mem_flatMap_iff (member : image ∈ imports text) :
    image.unused path ∈ (imports text).flatMap (·.check files path text) ↔
      ¬image.isUsedIn text = true := by
  rw [← @unused_mem_check_iff files, List.mem_flatMap]
  constructor
  · rintro ⟨other, otherMember, reported⟩
    obtain ⟨reason, same⟩ := line_of_mem_check reported
    rwa [← eq_of_line_eq member otherMember (line_of_problem same).1] at reported
  · exact fun reported => ⟨image, member, reported⟩

end

theorem check_of_readText {files : Files} {path : Path} {text : Text}
    (read : files.readText path = .ok text) (plain : ∀ image ∈ imports text, '\x00' ∉ image.source) :
    check files path = .ok ((imports text).flatMap (·.check files path text)) := by
  have none : (imports text).find? (fun image => image.source.any (· == '\x00')) = none := by
    simpa using plain
  simp only [check, read, bind, Except.bind, none]
  rfl

theorem checkAll_of_check {files : Files} {paths : List Path} {Good : Path → List Diagnostic → Prop}
    (each : ∀ path ∈ paths, ∃ report, check files path = .ok report ∧ Good path report) :
    ∃ reports, checkAll files paths = .ok reports.flatten ∧ List.Forall₂ Good paths reports := by
  suffices all : ∃ reports, paths.mapM (check files) = .ok reports ∧
      List.Forall₂ Good paths reports by
    obtain ⟨reports, made, good⟩ := all
    exact ⟨reports, by rw [checkAll, made]; rfl, good⟩
  induction paths with
  | nil => exact ⟨[], rfl, .nil⟩
  | cons path paths ih =>
      obtain ⟨⟨report, made, good⟩, others⟩ := List.forall_mem_cons.mp each
      obtain ⟨reports, madeAll, goodAll⟩ := ih others
      exact ⟨report :: reports, by rw [List.mapM_cons, made, madeAll]; rfl, .cons good goodAll⟩

/-- Whether a report of the imports of a text says that an import is not used just if its name stands
nowhere in the text without the statement, or behind the first line of it. The lines before the statement
have to end with line feeds. -/
def ReportsUnused (path : Path) (text : Text) (report : List Diagnostic) : Prop :=
  ∀ image ∈ imports text, (∃ before span after, image.StatedAt text before span after) ∧
    ∀ before span after, image.StatedAt text before span after →
      (lines before).length = before.count '\n' →
      (image.unused path ∈ report ↔
        ¬Occurs image.name (before ++ after) ∧ ¬Occurs image.name (laterLines span)) ∧
      ((∀ c ∈ span, isLineEnd c = false) →
        (image.unused path ∈ report ↔ ¬Occurs image.name (before ++ after)))

/-- The check of images reports an import as unused just if its name stands nowhere else, if the lines
before the statement end with line feeds and the statement is on one line. -/
theorem reports_unused {files : Files} {paths : List Path}
    (documents : ∀ path ∈ paths, ∃ text, files.readText path = .ok text ∧
      ∀ image ∈ imports text, '\x00' ∉ image.source) :
    ∃ reports, checkAll files paths = .ok reports.flatten ∧
      List.Forall₂ (fun path report => ∃ text, files.readText path = .ok text ∧
        ReportsUnused path text report) paths reports := by
  apply checkAll_of_check
  intro path member
  obtain ⟨text, read, plain⟩ := documents path member
  refine ⟨_, check_of_readText read plain, text, read, fun image found => ?_⟩
  refine ⟨exists_statedAt found, fun before span after stated counted => ?_⟩
  rw [unused_mem_flatMap_iff found, stated.isUsedIn_iff counted, not_or]
  refine ⟨Iff.rfl, fun oneLine => ?_⟩
  have noLater : laterLines span = [] :=
    List.dropWhile_eq_nil_iff.mpr fun c member => by simp [oneLine c member]
  simp [noLater, not_occurs_nil stated.isName]

theorem statedAt_of_statement? {image : Import} {text before span after ending : Text}
    (whole : text = before ++ (span ++ after))
    (spelled : statement? span = some (image.name, image.source, ending)) (isEnding : IsEnding ending)
    (start : before = [] ∨ before.getLast? = some '\n') (stop : after = [] ∨ after.head? = some '\n')
    (line : image.line = before.count '\n' + 1) : image.StatedAt text before span after :=
  ⟨whole, ⟨ending, opens_of_statement? spelled, isEnding⟩, start, stop, line⟩

/-- Of two imports the first, which stands on two lines, is not used. -/
theorem reports_unused_twoLines :
    ∃ files path reports, files.readText path =
        .ok "import a\nfrom './x.png';\nimport b from './y.png'\n<A b={b} />\n".toList ∧
      checkAll files [path] = .ok reports ∧ Import.unused path ⟨"a", "./x.png", 1⟩ ∈ reports ∧
      Import.unused path ⟨"b", "./y.png", 3⟩ ∉ reports := by
  let text : Text := "import a\nfrom './x.png';\nimport b from './y.png'\n<A b={b} />\n"
  let path : Path := .ofText "p.mdx"
  let files := Files.empty.write path (encodeUtf8 text)
  have read : files.readText path = .ok text := by decide +kernel
  have found : imports text = [⟨"a", "./x.png", 1⟩, ⟨"b", "./y.png", 3⟩] := by decide +kernel
  have first : Import.StatedAt ⟨"a", "./x.png", 1⟩ text [] "import a\nfrom './x.png';"
      "\nimport b from './y.png'\n<A b={b} />\n" :=
    @statedAt_of_statement? _ _ _ _ _ [';'] (by decide) (by decide +kernel)
      ⟨[';'], [], rfl, .inr rfl, by simp⟩ (.inl rfl) (.inr (by decide)) (by decide)
  have second : Import.StatedAt ⟨"b", "./y.png", 3⟩ text "import a\nfrom './x.png';\n"
      "import b from './y.png'" "\n<A b={b} />\n" :=
    @statedAt_of_statement? _ _ _ _ _ [] (by decide) (by decide +kernel)
      ⟨[], [], rfl, .inl rfl, by simp⟩ (.inr (by decide)) (.inr (by decide)) (by decide)
  obtain ⟨reports, checked, good⟩ := @reports_unused files [path] <| by
    refine List.forall_mem_singleton.mpr ⟨text, read, ?_⟩
    rw [found]
    decide
  cases good with
  | @cons _ report _ _ only rest =>
  cases rest
  obtain ⟨other, again, reportsUnused⟩ := only
  rw [← Except.ok.inj (read.symm.trans again)] at reportsUnused
  have oneLine : ∀ c ∈ ("import b from './y.png'" : Text), isLineEnd c = false := by
    have none : (List.all ("import b from './y.png'" : Text) fun c => !isLineEnd c) = true := by decide
    intro c member
    simpa using List.all_eq_true.mp none c member
  have unused := ((reportsUnused _ (by simp [found])).2 _ _ _ first rfl).1
  have used := ((reportsUnused _ (by simp [found])).2 _ _ _ second (by decide)).2 oneLine
  rw [← hasName_iff_occurs (by decide), ← hasName_iff_occurs (by decide)] at unused
  rw [← hasName_iff_occurs (by decide)] at used
  refine ⟨files, path, report, read, ?_, unused.mpr (by decide +kernel), ?_⟩
  · rw [checked]
    simp
  · rw [used]
    decide +kernel

/-- A form feed before the statement: the import is taken for a use of itself. -/
theorem used_by_itself :
    ∃ files path text before after, ∃ image ∈ imports text, files.readText path = .ok text ∧
      image.StatedAt text before "import shot from './shot.png'" after ∧
      before = "a\x0cb\n".toList ∧ after = ['\n'] ∧
      checkAll files [path] = .ok [] ∧ ¬Occurs image.name (before ++ after) := by
  let before : Text := "a\x0cb\n"
  let span : Text := "import shot from './shot.png'"
  let text : Text := before ++ (span ++ ['\n'])
  let path : Path := .ofText "p.mdx"
  let files := (Files.empty.write (.ofText "shot.png") []).write path (encodeUtf8 text)
  have stated : Import.StatedAt ⟨"shot", "./shot.png", 2⟩ text before span ['\n'] :=
    @statedAt_of_statement? _ _ _ _ _ [] rfl (by decide +kernel) ⟨[], [], rfl, .inl rfl, by simp⟩
      (.inr (by decide)) (.inr rfl) (by decide)
  refine ⟨files, path, text, before, ['\n'], ⟨"shot", "./shot.png", 2⟩, by decide +kernel,
    by decide +kernel, stated, rfl, rfl, by decide +kernel, ?_⟩
  rw [← hasName_iff_occurs (by decide)]
  decide +kernel

end MdxCheck.Image
