import MdxCheck.Proofs.Document.Prose
import MdxCheck.Proofs.Document.Segment
import MdxCheck.Proofs.Rule.Placed

/-!
The module statements of a document, told from its lines alone. Its tree has them as leaves of their
own, in the order of the lines, whatever the components between them.
-/

namespace MdxCheck

namespace Node

/-- The source and the line of a module statement, if a node is one. -/
def statement? : Node → Option (Text × Int)
  | element kind _ (some source) (some position) =>
    if kind = "mdxjsEsm" then some (source, position.line) else none
  | _ => none

theorem statement?_alone (node : Node) : node.alone.statement? = node.statement? := by
  match node with
  | root _ _ | component _ _ _ _ | paragraph _ _ | text _ _ => rfl
  | element _ _ none _ | element _ _ (some _) none | element _ _ (some _) (some _) => rfl

/-- The module statements of a tree, in the order in which the tree is walked. -/
def statements (tree : Node) : List (Text × Int) :=
  tree.walk.filterMap statement?

theorem statements_root (nodes : List Node) (position : Option Position) :
    (root nodes position).statements = (run nodes).filterMap statement? := by
  rw [statements, walk_eq_preorder, run, List.filterMap_map]
  rw [show statement? ∘ alone = statement? from funext statement?_alone]
  rfl

end Node

namespace Document

/-- The module statements of some lines, the first of which is line `number`, inside of so many open
components. Fenced code hides its lines, and tags take as many as they need. -/
def statementsFrom (depth number : Nat) : List Text → List (Text × Nat)
  | [] => []
  | line :: lines =>
    match fenceRun? line with
    | some run =>
      let code := lines.takeWhile fun line => !closesFence run line
      statementsFrom depth (number + 1 + code.length + 1) (lines.drop (code.length + 1))
    | none =>
      if startsWithTag line then
        let more := extension line lines
        let tags := (Tag.scan (Text.unlines (line :: more))).tags
        statementsFrom (depthAfter depth tags) (number + 1 + more.length) (lines.drop more.length)
      else
        (if depth = 0 ∧ isStatement line then [(line, number)] else []) ++
          statementsFrom depth (number + 1) lines
termination_by lines => lines.length

/-- The lines of a document, with their numbers, that are module statements: those that open with
`import` or `export` and are not in its data, in fenced code, in a tag or inside of a component. -/
def statementLines (text : Text) : List (Text × Nat) :=
  match splitData? (Text.lines text) with
  | some (inside, body) => statementsFrom 0 (inside.length + 3) body
  | none => statementsFrom 0 1 (Text.lines text)

theorem zipIdx_drop_sublist (lines : List Text) (count number : Nat) :
    ((lines.drop count).zipIdx (number + count)).Sublist (lines.zipIdx number) := by
  induction count generalizing lines number with
  | zero => exact .refl _
  | succ count ih =>
      cases lines with
      | nil => exact .refl _
      | cons line lines =>
          have later := ih lines (number + 1)
          rw [Nat.add_assoc, Nat.add_comm 1] at later
          exact later.cons _

theorem statementsFrom_sublist (depth number : Nat) (lines : List Text) :
    (statementsFrom depth number lines).Sublist (lines.zipIdx number) := by
  fun_induction statementsFrom depth number lines with
  | case1 => exact .refl _
  | case2 depth number line lines run fence code ih =>
      exact (ih.trans (zipIdx_drop_sublist lines (code.length + 1) (number + 1))).cons _
  | case3 depth number line lines fence tag more tags ih =>
      exact (ih.trans (zipIdx_drop_sublist lines more.length (number + 1))).cons _
  | case4 depth number line lines fence noTag ih =>
      rw [List.zipIdx_cons]
      split
      · exact ih.cons_cons _
      · exact ih.cons _

theorem statementLines_sublist (text : Text) :
    (statementLines text).Sublist ((Text.lines text).zipIdx 1) := by
  unfold statementLines
  split
  · next inside body split =>
      obtain ⟨first, stop, whole, -⟩ := splitData?_eq_some split
      have later := zipIdx_drop_sublist (Text.lines text) (inside.length + 2) 1
      rw [show (Text.lines text).drop (inside.length + 2) = body by rw [whole]; simp,
        Nat.add_comm] at later
      exact (statementsFrom_sublist 0 _ body).trans later
  · exact statementsFrom_sublist 0 1 _

def Part.statement? : Part → Option (Text × Nat)
  | .statement line source => some (source, line)
  | _ => none

theorem statement_of_proseBefore (number : Nat) (prose : List Text) :
    (proseBefore number prose).filterMap Part.statement? = [] := by
  simp only [proseBefore]
  split <;> simp [Part.statement?]

/-- The statements among the parts of a document are those that its lines have in themselves. -/
theorem statements_partsFrom (depth number : Nat) (lines : List Text) :
    ∀ prose, (partsFrom .plain depth number prose lines).filterMap Part.statement? =
      statementsFrom depth number lines := by
  fun_induction statementsFrom depth number lines with
  | case1 depth number =>
      intro prose
      simp [partsFrom, statement_of_proseBefore]
  | case2 depth number line lines run fence code ih =>
      intro prose
      simp only [partsFrom, fence, partsFrom_fenced]
      change (match lines.drop code.length with
        | [] => proseBefore (number + 1 + code.length) (code.reverse ++ line :: prose)
        | stop :: rest => partsFrom .plain depth (number + 1 + code.length + 1)
            (stop :: (code.reverse ++ line :: prose)) rest).filterMap Part.statement? = _
      rw [← List.drop_drop] at ih ⊢
      cases after : lines.drop code.length with
      | nil => simp [statement_of_proseBefore, statementsFrom]
      | cons stop rest =>
          rw [after] at ih
          exact ih _
  | case3 depth number line lines fence tag more tags ih =>
      intro prose
      have noStatement : ¬(depth = 0 ∧ isStatement line = true) := by
        rintro ⟨-, statement⟩
        simp [startsWithTag_of_isStatement statement] at tag
      rw [partsFrom_startsWithTag _ _ _ _ _ fence noStatement tag]
      simp only [List.filterMap_append, statement_of_proseBefore, List.nil_append]
      split
      · exact ih []
      · next offset found =>
          -- a tag without an end takes all lines that are left
          have all := extension_of_open lines line (by rw [found]; simp)
          simp [more, all, Part.statement?, statementsFrom]
  | case4 depth number line lines fence noTag ih =>
      intro prose
      by_cases statement : depth = 0 ∧ isStatement line = true
      · simp only [partsFrom, fence, statement, and_self, ↓reduceIte, List.filterMap_append,
          statement_of_proseBefore, List.filterMap_cons, Part.statement?, List.nil_append,
          List.singleton_append]
        rw [← statement.1, ih]
      · simp [partsFrom, fence, statement, noTag, ih]

theorem noStatement_of_token {place : Nat → Position} {shown : Text → Text} {token : Markdown.Token}
    {node : Node} (found : tokenNode? place shown token.typed = some node) :
    node.statement? = none := by
  cases token with
  | opening kind line =>
      obtain rfl := Option.some.inj found
      rcases containerNode_cases kind.type [] (some (place line)) with same | same
      · rw [Option.map_some, same]
        rfl
      · rw [Option.map_some, same]
        rfl
  | closing => simp [Markdown.Token.typed, tokenNode?] at found
  | inline source line =>
      obtain rfl := Option.some.inj found
      rw [singleNode_inline]
      rfl
  | leaf kind content line past =>
      obtain rfl := Option.some.inj found
      have other : kindOf kind.type ≠ "mdxjsEsm".toList := by cases kind <;> decide
      rw [singleNode_leaf]
      exact if_neg other

theorem statements_proseNodes (first : Nat) (lines : List Text) :
    (Node.run (proseNodes first lines)).filterMap Node.statement? = [] := by
  unfold proseNodes
  split
  · rfl
  · simp only
    cases made : nodesFrom? _ _ [] [] _ with
    | none => rfl
    | some nodes =>
        have part := run_nodesFrom _ _ _ _ _ _ made
        apply List.filterMap_eq_nil_iff.mpr
        intro node member
        have token := part.subset member
        simp only [openRun, Node.run, Node.preorders, List.reverse_nil, List.flatMap_nil,
          List.map_nil, List.nil_append] at token
        obtain ⟨token, -, found⟩ := List.mem_filterMap.mp (List.filterMap_map ▸ token)
        exact noStatement_of_token found

theorem statements_phrase (first : Nat) (source : Text) (start stop : Nat) :
    (Node.run (Builder.phrase first source start stop)).filterMap Node.statement? = [] := by
  unfold Builder.phrase
  simp only
  split <;> rfl

namespace Builder

def statements (builder : Builder) : List (Text × Int) :=
  builder.run.filterMap Node.statement?

theorem statements_add (builder : Builder) (nodes : List Node) :
    (builder.add nodes).statements =
      builder.statements ++ (Node.run nodes).filterMap Node.statement? := by
  rw [statements, run_add, List.filterMap_append]
  rfl

theorem statements_takes {builder next : Builder} {tag : Tag} {place : Position}
    (takes : Takes tag place builder next) : next.statements = builder.statements := by
  rw [statements, run_takes takes, List.filterMap_append]
  split
  · exact List.append_nil _
  · exact List.append_nil _

theorem statements_addTags (first : Nat) (source : Text) (tags : List Tag) :
    ∀ (builder : Builder) (start : Nat) (next : Builder),
      builder.addTags first source start tags = .ok next → next.statements = builder.statements := by
  induction tags with
  | nil =>
      intro builder start next added
      obtain rfl := Except.ok.inj added
      rw [statements_add, statements_phrase, List.append_nil]
  | cons tag tags ih =>
      intro builder start next added
      obtain ⟨after, handled, added⟩ := exists_of_bind_ok added
      rw [ih after tag.stop next added, statements_takes (takes_of_handle handled),
        statements_add, statements_phrase, List.append_nil]

theorem statements_addPart {builder next : Builder} {part : Part}
    (added : builder.addPart part = .ok next) :
    next.statements =
      builder.statements ++ part.statement?.toList.map fun (source, line) => (source, (line : Int)) := by
  cases part with
  | prose first lines =>
      obtain rfl := Except.ok.inj added
      rw [statements_add, statements_proseNodes]
      rfl
  | statement line source =>
      obtain rfl := Except.ok.inj added
      rw [statements_add]
      rfl
  | tagged first source tags =>
      rw [statements_addTags first source tags builder 0 next added]
      simp [Part.statement?]
  | unterminated first source offset => simp [addPart] at added

theorem statements_addParts (parts : List Part) :
    ∀ builder next : Builder, builder.addParts parts = .ok next →
      next.statements = builder.statements ++
        (parts.filterMap Part.statement?).map fun (source, line) => (source, (line : Int)) := by
  induction parts with
  | nil =>
      intro builder next added
      obtain rfl := Except.ok.inj added
      simp
  | cons part parts ih =>
      intro builder next added
      obtain ⟨after, first, others⟩ := addParts_cons_ok added
      rw [ih after next others, statements_addPart first]
      cases found : part.statement? <;> simp [found]

end Builder

/-- The module statements of a tree are those of the lines of its document. -/
theorem statements_parse {text : Text} {tree : Node} (parsed : parse text = .ok tree) :
    tree.statements = (statementLines text).map fun (source, line) => (source, (line : Int)) := by
  obtain ⟨number, before, body, nodes, start, rfl, added⟩ := addParts_of_parse parsed
  have built := Builder.statements_addParts _ _ _ added
  rw [statements_partsFrom] at built
  have none : (Builder.empty.add before).statements = [] := by
    cases start <;> rfl
  have same : statementLines text = statementsFrom 0 number body := by
    cases start with
    | whole split => rw [statementLines, split]
    | afterData split => rw [statementLines, split]
  rw [none, List.nil_append, ← same] at built
  rw [Node.statements_root, ← built]
  simp [Builder.statements, Builder.run]

end Document

end MdxCheck
