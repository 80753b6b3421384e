import MdxCheck.Proofs.Document.Statements
import MdxCheck.Proofs.Image.Import
import Mathlib.Data.List.Basic
import Mathlib.Data.List.Perm.Subperm

/-!
The imports of images that are found in the text of a document, and those among the module statements
of its tree.
-/

namespace MdxCheck.Image

open Text

/-- The import of an image that line `number` is, if it is one. -/
def importOn? (line : Text) (number : Nat) : Option Import :=
  (statement? line).map fun (name, source, _) => ⟨name, source, number⟩

theorem importOn?_eq_some_iff {line : Text} {number : Nat} {image : Import} :
    importOn? line number = some image ↔
      image.line = number ∧ ∃ rest, statement? line = some (image.name, image.source, rest) := by
  constructor
  · intro found
    obtain ⟨⟨name, source, rest⟩, stated, rfl⟩ := Option.map_eq_some_iff.mp found
    exact ⟨rfl, rest, stated⟩
  · rintro ⟨rfl, rest, stated⟩
    rw [importOn?, stated]
    rfl

/-- The imports on single lines of a text, the first of which is line `number`; `isStart` tells whether
a line starts here. -/
def lineImportsFrom (number : Nat) (isStart : Bool) : Text → List Import
  | [] => []
  | c :: text =>
    (if isStart then (importOn? (firstLine (c :: text)) number).toList else []) ++
      lineImportsFrom (if c = '\n' then number + 1 else number) (c == '\n') text

theorem statement?_of_firstLine {text name source rest : Text}
    (found : statement? (firstLine text) = some (name, source, rest)) :
    ∃ after, statement? text = some (name, source, after) := by
  have split := List.takeWhile_append_dropWhile (p := (· ≠ '\n')) (l := text)
  have noFeed : '\n' ∉ firstLine text := by
    intro feed
    simpa using List.mem_takeWhile_imp feed
  have stops := List.head?_dropWhile_not (· ≠ '\n') text
  cases after : text.dropWhile (· ≠ '\n') with
  | nil =>
      rw [after, List.append_nil] at split
      rw [firstLine, split] at found
      exact ⟨rest, found⟩
  | cons c more =>
      rw [after] at split stops
      obtain rfl : c = '\n' := by simpa using stops
      rw [← split]
      exact ⟨_, statement?_of_opens ((opens_of_statement? found).append_feed noFeed more)⟩

theorem importOn?_firstLine {text name source rest : Text} {number : Nat} {image : Import}
    (found : statement? text = some (name, source, rest))
    (onLine : importOn? (firstLine text) number = some image) : image = ⟨name, source, number⟩ := by
  obtain ⟨line, rest, stated⟩ := importOn?_eq_some_iff.mp onLine
  obtain ⟨after, again⟩ := statement?_of_firstLine stated
  rw [found] at again
  cases image
  cases again
  cases line
  rfl

/-- None of the lines that start within the next characters has a statement. -/
def Clear (count : Nat) (text : Text) : Prop :=
  ∀ front back, text = front ++ '\n' :: back → front.length < count →
    statement? (firstLine back) = none

theorem Clear.tail {count : Nat} {c : Char} {text : Text} (clear : Clear (count + 1) (c :: text)) :
    Clear count text := by
  intro front back split within
  refine clear (c :: front) back (by rw [split]; rfl) ?_
  rw [List.length_cons]
  omega

theorem clear_of_statement? {c : Char} {text name source rest : Text}
    (found : statement? (c :: text) = some (name, source, rest)) :
    Clear (text.length - rest.length) text := by
  intro front back split within
  have whole : c :: text = (c :: front) ++ '\n' :: back := by rw [split]; rfl
  refine (opens_of_statement? found).noStatement_within whole ?_
  simp only [List.length_cons]
  omega

theorem not_feed_of_statement? {c : Char} {text name source rest : Text}
    (found : statement? (c :: text) = some (name, source, rest)) : c ≠ '\n' := by
  rintro rfl
  obtain ⟨c, more, split, first⟩ := (opens_of_statement? found).head
  obtain rfl := (List.cons.inj split).1
  exact absurd first (by decide)

/-- The imports on single lines are all found, whatever statements on several lines are found between
them. -/
theorem lineImportsFrom_sublist (text : Text) :
    ∀ number isStart skipped, Clear skipped text →
      (isStart = true → 0 < skipped → statement? (firstLine text) = none) →
      (lineImportsFrom number isStart text).Sublist (importsFrom number isStart skipped text) := by
  -- while a statement is skipped, no line with a statement may start
  induction text with
  | nil =>
      intro number isStart skipped _ _
      exact .refl _
  | cons c text ih =>
      intro number isStart skipped clear start
      cases skipped with
      | succ skipped =>
          have none : (if isStart then (importOn? (firstLine (c :: text)) number).toList else []) =
              [] := by
            split
            · next isStart => rw [importOn?, start isStart (Nat.succ_pos _)]; rfl
            · rfl
          rw [lineImportsFrom, none, List.nil_append]
          refine ih _ _ skipped clear.tail fun feed _ => ?_
          obtain rfl : c = '\n' := by simpa using feed
          exact clear [] text rfl (Nat.succ_pos _)
      | zero =>
          have noneSkipped (text : Text) : Clear 0 text := fun _ _ _ within => absurd within (by simp)
          simp only [lineImportsFrom, importsFrom]
          cases isStart with
          | false => exact ih _ _ 0 (noneSkipped text) (by simp)
          | true =>
              simp only [↓reduceIte]
              cases found : statement? (c :: text) with
              | none =>
                  have none : importOn? (firstLine (c :: text)) number = none := by
                    by_contra some
                    obtain ⟨image, onLine⟩ := Option.ne_none_iff_exists'.mp some
                    obtain ⟨-, rest, stated⟩ := importOn?_eq_some_iff.mp onLine
                    obtain ⟨after, again⟩ := statement?_of_firstLine stated
                    rw [found] at again
                    simp at again
                  rw [none]
                  exact ih _ _ 0 (noneSkipped text) (by simp)
              | some parts =>
                  obtain ⟨name, source, rest⟩ := parts
                  have later := ih (if c = '\n' then number + 1 else number) (c == '\n') _
                    (clear_of_statement? found) (by simp [not_feed_of_statement? found])
                  have same : (c == '\n') = false := by simp [not_feed_of_statement? found]
                  rw [same] at later ⊢
                  cases onLine : importOn? (firstLine (c :: text)) number with
                  | none => exact later.cons _
                  | some image =>
                      rw [importOn?_firstLine found onLine]
                      exact later.cons_cons _

/-- The line of the first import that may be found. -/
def firstBound (number : Nat) (isStart : Bool) (skipped : Nat) : Nat :=
  if isStart = true ∧ skipped = 0 then number else number + 1

theorem firstBound_next (c : Char) (number skipped : Nat) :
    number + 1 ≤ firstBound (if c = '\n' then number + 1 else number) (c == '\n') skipped := by
  by_cases feed : c = '\n'
  · simp only [firstBound, feed, ↓reduceIte]
    split <;> omega
  · simp [firstBound, feed]

theorem importsFrom_increasing (text : Text) :
    ∀ number isStart skipped,
      (∀ image ∈ importsFrom number isStart skipped text,
        firstBound number isStart skipped ≤ image.line) ∧
      (importsFrom number isStart skipped text).Pairwise (·.line < ·.line) := by
  induction text with
  | nil =>
      intro number isStart skipped
      exact ⟨by simp [importsFrom], .nil⟩
  | cons c text ih =>
      intro number isStart skipped
      have upper : firstBound number isStart skipped ≤ number + 1 := by
        unfold firstBound
        split <;> omega
      cases skipped with
      | succ skipped =>
          obtain ⟨bound, increasing⟩ := ih (if c = '\n' then number + 1 else number) (c == '\n') skipped
          refine ⟨fun image member => ?_, increasing⟩
          exact (upper.trans (firstBound_next c number skipped)).trans (bound image member)
      | zero =>
          simp only [importsFrom]
          split
          · next name source rest found =>
              obtain ⟨bound, increasing⟩ :=
                ih (if c = '\n' then number + 1 else number) false (text.length - rest.length)
              have past : ∀ image ∈ importsFrom (if c = '\n' then number + 1 else number) false
                  (text.length - rest.length) text, number < image.line := by
                intro image member
                have less := bound image member
                simp only [firstBound, Bool.false_eq_true, false_and, ↓reduceIte] at less
                split at less
                · omega
                · omega
              have isStart : isStart = true := by
                by_contra no
                simp [no] at found
              refine ⟨fun image member => ?_, List.pairwise_cons.mpr ⟨past, increasing⟩⟩
              rw [firstBound, if_pos ⟨isStart, rfl⟩]
              rcases List.mem_cons.mp member with rfl | later
              · exact Nat.le_refl _
              · exact Nat.le_of_lt (past image later)
          · next none =>
              obtain ⟨bound, increasing⟩ := ih (if c = '\n' then number + 1 else number) (c == '\n') 0
              refine ⟨fun image member => ?_, increasing⟩
              exact (upper.trans (firstBound_next c number 0)).trans (bound image member)

theorem lineImportsFrom_feed {line : Text} (noFeed : '\n' ∉ line) (rest : Text) :
    ∀ number isStart, lineImportsFrom number isStart (line ++ '\n' :: rest) =
      (if isStart then (importOn? line number).toList else []) ++
        lineImportsFrom (number + 1) true rest := by
  induction line with
  | nil =>
      intro number isStart
      simp [lineImportsFrom, firstLine]
  | cons c line ih =>
      intro number isStart
      have whole := takeWhile_feed noFeed rest
      rw [List.mem_cons, not_or] at noFeed
      rw [List.cons_append] at whole ⊢
      simp only [lineImportsFrom, firstLine, whole, ih noFeed.2]
      simp [Ne.symm noFeed.1]

theorem lineImportsFrom_of_noFeed {line : Text} (noFeed : '\n' ∉ line) :
    ∀ number isStart, lineImportsFrom number isStart line =
      if isStart then (importOn? line number).toList else [] := by
  induction line with
  | nil =>
      intro number isStart
      cases isStart <;> rfl
  | cons c line ih =>
      intro number isStart
      have whole := takeWhile_noFeed noFeed
      rw [List.mem_cons, not_or] at noFeed
      simp only [lineImportsFrom, firstLine, whole, ih noFeed.2]
      simp [Ne.symm noFeed.1]

theorem lineImportsFrom_unlines {lines : List Text} (noFeed : ∀ line ∈ lines, '\n' ∉ line) :
    ∀ number, lineImportsFrom number true (unlines lines) =
      (lines.zipIdx number).filterMap fun (line, number) => importOn? line number := by
  induction lines with
  | nil =>
      intro number
      rfl
  | cons line lines ih =>
      intro number
      obtain ⟨first, others⟩ := List.forall_mem_cons.mp noFeed
      cases lines with
      | nil =>
          rw [unlines_singleton, lineImportsFrom_of_noFeed first]
          cases found : importOn? line number <;> simp [found]
      | cons next lines =>
          rw [unlines_cons_cons, lineImportsFrom_feed first, ih others, List.zipIdx_cons]
          cases found : importOn? line number <;> simp [found]

/-- Of the imports on the lines of a text none is missed. -/
theorem lineImports_sublist {text : Text} (feeds : FeedsOnly text) :
    (((lines text).zipIdx 1).filterMap fun (line, number) => importOn? line number).Sublist
      (imports text) := by
  obtain ⟨last, lastLines, whole⟩ := exists_eq_unlines feeds
  have noFeed : ∀ line ∈ lines text ++ last, '\n' ∉ line := by
    rw [List.forall_mem_append]
    refine ⟨fun line => noFeed_lines, ?_⟩
    rcases lastLines with rfl | rfl <;> simp
  have found := lineImportsFrom_sublist text 1 true 0 (fun _ _ _ within => absurd within (by simp))
    (by simp)
  rw [whole, lineImportsFrom_unlines noFeed, ← whole, List.zipIdx_append, List.filterMap_append]
    at found
  exact (List.sublist_append_left _ _).trans found

/-- The name, the source and the line of an import. -/
def Import.placed (image : Import) : Text × Text × Int :=
  (image.name, image.source, image.line)

/-- The imports of images among the module statements of a tree. -/
def importsIn (tree : Node) : List (Text × Text × Int) :=
  tree.statements.filterMap fun (line, number) =>
    (statement? line).map fun (name, source, _) => (name, source, number)

theorem importsIn_of_parse {text : Text} {tree : Node} (parsed : Document.parse text = .ok tree) :
    importsIn tree = ((Document.statementLines text).filterMap fun (line, number) =>
      importOn? line number).map Import.placed := by
  rw [importsIn, Document.statements_parse parsed, List.filterMap_map, List.map_filterMap]
  congr 1
  funext ⟨line, number⟩
  simp only [Function.comp, importOn?, Option.map_map]
  rfl

/-- An import is a module statement of a document, on a line of its own. -/
def Import.IsStatementOf (image : Import) (text : Text) : Prop :=
  ∃ line rest, (line, image.line) ∈ Document.statementLines text ∧
    statement? line = some (image.name, image.source, rest)

theorem Import.placed_injective : Function.Injective Import.placed := by
  rintro ⟨name, source, line⟩ ⟨otherName, otherSource, otherLine⟩ same
  simp only [placed, Prod.mk.injEq, Int.ofNat_inj] at same
  obtain ⟨rfl, rfl, rfl⟩ := same
  rfl

/-- The imports that are found in the text of a document are those among the module statements of its tree
and maybe others. There are no others if and only if each import that is found is a module statement. -/
theorem imports_eq_importsIn_iff {text : Text} {tree : Node} (feeds : FeedsOnly text)
    (parsed : Document.parse text = .ok tree) :
    (importsIn tree).Sublist ((imports text).map Import.placed) ∧
      ((imports text).map Import.placed = importsIn tree ↔
        ∀ image ∈ imports text, image.IsStatementOf text) := by
  rw [importsIn_of_parse parsed]
  have part := ((Document.statementLines_sublist text).filterMap fun (line, number) =>
    importOn? line number).trans (lineImports_sublist feeds)
  refine ⟨part.map _, ?_⟩
  have injective := List.map_injective_iff.mpr Import.placed_injective
  rw [injective.eq_iff]
  have listed (image : Import) : image ∈ ((Document.statementLines text).filterMap fun (line, number) =>
      importOn? line number) ↔ image.IsStatementOf text := by
    rw [List.mem_filterMap]
    constructor
    · rintro ⟨⟨line, number⟩, member, found⟩
      obtain ⟨rfl, rest, stated⟩ := importOn?_eq_some_iff.mp found
      exact ⟨line, rest, member, stated⟩
    · rintro ⟨line, rest, member, stated⟩
      exact ⟨(line, image.line), member, importOn?_eq_some_iff.mpr ⟨rfl, rest, stated⟩⟩
  constructor
  · intro same image member
    rw [same] at member
    exact (listed image).mp member
  · intro all
    have distinct : (imports text).Nodup :=
      (importsFrom_increasing text 1 true 0).2.imp fun {first second} less same => by
        rw [same] at less
        exact Nat.lt_irrefl _ less
    have subset : imports text ⊆ (Document.statementLines text).filterMap fun (line, number) =>
        importOn? line number :=
      fun image member => (listed image).mpr (all image member)
    exact (part.eq_of_length_le (List.subperm_of_subset distinct subset).length_le).symm

theorem imports_eq_importsIn_iff_single :
    ∃ text tree, Document.parse text = .ok tree ∧ FeedsOnly text ∧
      imports text = [⟨"a", "./a.png", 1⟩] ∧ (imports text).map Import.placed = importsIn tree := by
  let line : Text := "import a from './a.png'"
  let text : Text := line ++ "\n<A b={a} />\n"
  have isTree : ((Document.parse text).map fun _ => true).toOption = some true := by decide +kernel
  have found : imports text = [⟨"a", "./a.png", 1⟩] := by decide +kernel
  have feeds : FeedsOnly text := .of_all (by decide)
  have listed : (line, 1) ∈ Document.statementLines text := by
    have noData : Document.splitData? (lines text) = none := by decide
    have noFence : Document.fenceRun? line = none := by decide
    rw [Document.statementLines, noData, show lines text = [line, "<A b={a} />"] by decide]
    simp only [Document.statementsFrom, noFence]
    rw [if_neg (by decide)]
    exact List.mem_append_left _ (by decide)
  have all : ∀ image ∈ imports text, image.IsStatementOf text := by
    rw [found]
    exact List.forall_mem_singleton.mpr ⟨line, [], listed, by decide⟩
  obtain ⟨tree, parsed, -⟩ := exists_of_toOption_map isTree
  exact ⟨text, tree, parsed, feeds, found, (imports_eq_importsIn_iff feeds parsed).2.mpr all⟩

/-- An import in fenced code is found, but is no statement of the document. -/
theorem imports_ne_importsIn_of_code :
    ∃ tree, Document.parse "```js\nimport x from './x.png'\n```\n" = .ok tree ∧
      (imports "```js\nimport x from './x.png'\n```\n").map Import.placed ≠ importsIn tree := by
  let text : Text := "```js\nimport x from './x.png'\n```\n"
  have noStatement : ((Document.parse text).map fun tree =>
      (tree.preorder.filterMap Node.statement?).isEmpty).toOption = some true := by
    decide +kernel
  have found : (imports text).length = 1 := by decide +kernel
  obtain ⟨tree, parsed, noStatement⟩ := exists_of_toOption_map noStatement
  refine ⟨tree, parsed, fun same => ?_⟩
  have none : tree.statements = [] := by
    rw [Node.statements, Node.walk_eq_preorder]
    exact List.isEmpty_iff.mp noStatement
  have lengths := congrArg List.length same
  rw [List.length_map, found, importsIn, none] at lengths
  simp at lengths

end MdxCheck.Image
