import MdxCheck.Proofs.Document.Paragraphs
import MdxCheck.Proofs.Markdown.Exposed
import MdxCheck.Proofs.Rule.BarPages

/-!
Prose right in a wrapper of bars and pages: one problem at its place for each paragraph, unless the
paragraph shows nothing but white space.
-/

namespace MdxCheck.Rule.BarPages

variable (rule : BarPages)

/-- What the reason for a stray child begins with. -/
def strayStart : Text :=
  "<" ++ rule.wrapper ++ "> component must only contain <" ++ rule.bar ++ "> and <" ++
    rule.pages ++ "> components as immediate children but found "

/-- A problem says that a child at this place is of no use to its wrapper. -/
def IsStrayAt (place : Position) (problem : Diagnostic) : Prop :=
  rule.strayStart <+: problem.reason ∧ problem.line = some place.line ∧
    problem.column = some place.column

instance (place : Position) : DecidablePred (rule.IsStrayAt place) := fun _ =>
  inferInstanceAs (Decidable (_ ∧ _))

variable {rule}

theorem isStrayAt_stray {place other : Position} {child : Node} :
    rule.IsStrayAt place (.atPosition other (rule.stray child)) ↔ other = place := by
  constructor
  · rintro ⟨-, line, column⟩
    cases place with
    | mk => cases other with
      | mk => exact congrArg₂ Position.mk (Option.some.inj line) (Option.some.inj column)
  · rintro rfl
    exact ⟨List.prefix_append _ _, rfl, rfl⟩

/-- No reason that stands at a wrapper begins as that for a stray child does. -/
theorem not_strayStart_of_own {wrapper : Node} {reasons : List Text}
    (own : rule.OwnReasons wrapper reasons) : ∀ reason ∈ reasons, ¬rule.strayStart <+: reason := by
  have surplus (name : Text) : ¬rule.strayStart <+: rule.surplus name := by
    rintro ⟨rest, same⟩
    simp only [strayStart, BarPages.surplus, List.append_assoc, List.append_cancel_left_eq] at same
    have fourth : some 'o' = some 'a' := congrArg (fun text : Text => text[3]?) same
    exact absurd fourth (by decide)
  have first {reason : Text} (other : reason.head? ≠ some '<') : ¬rule.strayStart <+: reason := by
    rintro ⟨rest, rfl⟩
    exact other rfl
  have absence (name : Text) : ¬rule.strayStart <+: rule.absence name := by
    have start : (rule.absence name).head? = some 'N' := rfl
    exact first (by rw [start]; decide)
  have unpaired (item partner id : Text) : ¬rule.strayStart <+: rule.unpaired item partner id := by
    have start : (rule.unpaired item partner id).head? = some 'F' := rfl
    exact first (by rw [start]; decide)
  have repeated (item id : Text) : ¬rule.strayStart <+: BarPages.repeated item id := by
    have start : (BarPages.repeated item id).head? = some 'F' := rfl
    exact first (by rw [start]; decide)
  have counts : ∀ reason ∈ rule.countReasons wrapper, ¬rule.strayStart <+: reason := by
    intro reason member
    rcases List.mem_append.mp member with many | none
    · obtain ⟨name, -, rfl⟩ := List.mem_map.mp many
      exact surplus name
    · obtain ⟨name, -, rfl⟩ := List.mem_map.mp none
      exact absence name
  cases own with
  | lacking => exact counts
  | compared =>
      simp only [List.forall_mem_append, List.forall_mem_map]
      exact ⟨counts, ⟨⟨fun id _ => unpaired _ _ id, fun id _ => unpaired _ _ id⟩,
        fun id _ => repeated _ id⟩, fun id _ => repeated _ id⟩

/-- The children at a place that are of no use to the wrapper. -/
theorem filter_strays {place : Position} {children : List Node} {strays : List Diagnostic}
    (each : List.Forall₂ rule.StrayProblem children strays) :
    strays.filter (rule.IsStrayAt place) =
      (children.filter fun child => child.position = some place).map
        fun child => .atPosition place (rule.stray child) := by
  induction each with
  | nil => rfl
  | cons problem _ ih =>
      obtain ⟨other, position, rfl⟩ := problem
      by_cases same : other = place
      · subst same
        rw [List.filter_cons_of_pos (by simp [isStrayAt_stray]),
          List.filter_cons_of_pos (by simp [position]), ih, List.map_cons]
      · rw [List.filter_cons_of_neg (by simp [isStrayAt_stray, same]),
          List.filter_cons_of_neg (by simp [position, same]), ih]

theorem Reports.filter_stray {wrapper : Node} {report : List Diagnostic}
    (reports : rule.Reports wrapper report) (place : Position) :
    report.filter (rule.IsStrayAt place) =
      ((wrapper.children.filter fun child => child.position = some place).filter
        fun child => ¬rule.Allowed child).map fun child => .atPosition place (rule.stray child) := by
  obtain ⟨strays, -, own⟩ := reports
  have none (anchor : Position) (reasons : List Text) (own : rule.OwnReasons wrapper reasons) :
      (reasons.map fun reason => Diagnostic.atPosition anchor reason).filter
        (rule.IsStrayAt place) = [] := by
    refine List.filter_eq_nil_iff.mpr fun problem member => ?_
    obtain ⟨reason, listed, rfl⟩ := List.mem_map.mp member
    intro stray
    exact not_strayStart_of_own own reason listed (of_decide_eq_true stray).1
  rw [List.filter_append, none _ _ own, List.append_nil, filter_strays strays, List.filter_comm]

/-- What the problems of some wrappers say of the stray children at a place. -/
theorem filter_flatten_reports {wrappers : List Node} {reports : List (List Diagnostic)}
    (each : List.Forall₂ rule.Reports wrappers reports) (place : Position) :
    reports.flatten.filter (rule.IsStrayAt place) =
      (((wrappers.flatMap Node.children).filter fun child => child.position = some place).filter
        fun child => ¬rule.Allowed child).map fun child => .atPosition place (rule.stray child) := by
  induction each with
  | nil => rfl
  | cons report _ ih =>
      rw [List.flatten_cons, List.filter_append, report.filter_stray, ih, List.flatMap_cons,
        List.filter_append, List.filter_append, List.map_append]

/-- Of nodes at places of their own one stands at a place. -/
theorem filter_position {nodes : List Node} {child : Node} {place : Position}
    (nodup : (nodes.filterMap Node.position).Nodup) (member : child ∈ nodes)
    (position : child.position = some place) :
    (nodes.filter fun node => node.position = some place) = [child] := by
  induction nodes with
  | nil => simp at member
  | cons node nodes ih =>
      rcases List.mem_cons.mp member with rfl | later
      · rw [List.filterMap_cons_some position, List.nodup_cons] at nodup
        rw [List.filter_cons_of_pos (by simp [position])]
        refine congrArg (child :: ·) (List.filter_eq_nil_iff.mpr fun other listed => ?_)
        intro same
        exact nodup.1 (List.mem_filterMap.mpr ⟨other, listed, of_decide_eq_true same⟩)
      · have elsewhere : node.position ≠ some place := by
          intro same
          rw [List.filterMap_cons_some same, List.nodup_cons] at nodup
          exact nodup.1 (List.mem_filterMap.mpr ⟨child, later, position⟩)
        rw [List.filter_cons_of_neg (by simp [elsewhere])]
        refine ih (nodup.sublist ?_) later
        exact (List.sublist_cons_self node nodes).filterMap Node.position

theorem children_sublist (name : Text) (nodes : List Node) :
    ((nodes.filter fun node => node.name? = some name).flatMap Node.children).Sublist
      (nodes.flatMap Node.inside) := by
  induction nodes with
  | nil => exact List.Sublist.refl _
  | cons node nodes ih =>
      rw [List.flatMap_cons]
      by_cases named : node.name? = some name
      · rw [List.filter_cons_of_pos (by simpa using named), List.flatMap_cons]
        have same : node.children = node.inside := by
          cases node with
          | component => rfl
          | _ => simp [Node.name?] at named
        rw [same]
        exact (List.append_sublist_append_left _).mpr ih
      · rw [List.filter_cons_of_neg (by simpa using named)]
        exact ih.trans (List.sublist_append_right _ _)

theorem isEmptyParagraph_shown (place : Position) (labels : List Text) (source : Text) :
    (Document.shownParagraph place labels source).isEmptyParagraph =
      Text.isBlankText (Markdown.Inline.shown labels source) := by
  simp [Document.shownParagraph, Node.isEmptyParagraph, Node.content, Node.contents]

/-- Each paragraph right in tabs shows a source of the document that is not blank. There is one
problem of a stray child at its place, unless the source shows nothing but white space; a source with
an exposed character shows more. -/
theorem check_prose {text : Text} {tree : Node} (parsed : Document.parse text = .ok tree) :
    ∃ problems, tabs.check tree = .ok problems ∧
      ∀ wrapper ∈ tree.preorder, wrapper.name? = some "Tabs".toList →
        ∀ children position, .paragraph children position ∈ wrapper.children →
          ∃ place labels source, Document.ParagraphSource text place labels source ∧
            Text.isBlankText source = false ∧
            Node.paragraph children position = Document.shownParagraph place labels source ∧
            problems.filter (tabs.IsStrayAt place) =
              (if Text.isBlankText (Markdown.Inline.shown labels source) then []
                else [.atPosition place
                  (tabs.stray (Document.shownParagraph place labels source))]) ∧
            (Markdown.HasExposed source →
              Text.isBlankText (Markdown.Inline.shown labels source) = false) := by
  obtain ⟨nodup, alone⟩ := Document.insides_of_parse parsed
  obtain ⟨reports, checked, each⟩ := @check_reports tabs _ (Document.placed_of_parse parsed)
  refine ⟨_, checked, fun wrapper met name children position child => ?_⟩
  have listed : .paragraph children position ∈ (tabs.wrappers tree).flatMap Node.children :=
    List.mem_flatMap.mpr ⟨wrapper, List.mem_filter.mpr ⟨met, decide_eq_true name⟩, child⟩
  have part : ((tabs.wrappers tree).flatMap Node.children).Sublist _ :=
    children_sublist tabs.wrapper tree.preorder
  obtain ⟨place, labels, source, comes, solid, same⟩ :=
    (alone _ (part.subset listed) rfl).paragraph children position rfl
  refine ⟨place, labels, source, comes, solid, same, ?_, Markdown.shown_not_blank labels⟩
  rw [same] at listed
  rw [filter_flatten_reports each,
    filter_position (nodup.sublist (part.filterMap Node.position)) listed rfl]
  have allowed : tabs.Allowed (Document.shownParagraph place labels source) ↔
      Text.isBlankText (Markdown.Inline.shown labels source) = true := by
    rw [← isEmptyParagraph_shown place]
    simp [Allowed, isBlankParagraph_iff, Document.shownParagraph, Node.name?]
  split
  · next blank => rw [List.filter_cons_of_neg (by simpa using allowed.mpr blank)]; rfl
  · next shows => rw [List.filter_cons_of_pos (by simpa using mt allowed.mp shows)]; rfl

theorem check_prose_letter :
    ∃ tree, Document.parse "<Tabs>\nA\n</Tabs>\n" = .ok tree ∧
      (tree.preorder.flatMap Node.inside).map Node.describe = ["\"A\"".toList] ∧
      ∃ problems, tabs.check tree = .ok problems ∧
        ∀ wrapper ∈ tree.preorder, wrapper.name? = some "Tabs".toList →
          ∀ children position, .paragraph children position ∈ wrapper.children →
            ∃ place labels source,
              Document.ParagraphSource "<Tabs>\nA\n</Tabs>\n" place labels source ∧
              Text.isBlankText source = false ∧
              Node.paragraph children position = Document.shownParagraph place labels source ∧
              problems.filter (tabs.IsStrayAt place) =
                (if Text.isBlankText (Markdown.Inline.shown labels source) then []
                  else [.atPosition place
                    (tabs.stray (Document.shownParagraph place labels source))]) ∧
              (Markdown.HasExposed source →
                Text.isBlankText (Markdown.Inline.shown labels source) = false) := by
  have described : (Document.parse "<Tabs>\nA\n</Tabs>\n").toOption.map (fun tree =>
      (tree.preorder.flatMap Node.inside).map Node.describe) = some ["\"A\"".toList] := by
    decide +kernel
  obtain ⟨tree, parsed, describes⟩ := Option.map_eq_some_iff.mp described
  have parsed := eq_ok_of_toOption parsed
  exact ⟨tree, parsed, describes, check_prose parsed⟩

/-- The source of a paragraph holds a character reference, which shows white space only. There is no
problem at its place. -/
theorem reference_unreported :
    ∃ tree problems, Document.parse "<Tabs>\n&#160;\n</Tabs>\n" = .ok tree ∧
      tabs.check tree = .ok problems ∧
      ∃ wrapper ∈ tree.preorder, wrapper.name? = some "Tabs".toList ∧
        ∃ children, .paragraph children (some ⟨2, 1⟩) ∈ wrapper.children ∧
          problems.filter (tabs.IsStrayAt ⟨2, 1⟩) = [] := by
  have found : ((Document.parse "<Tabs>\n&#160;\n</Tabs>\n").toOption.bind fun tree =>
      (tabs.checkWrappers (tree.preorder.filter (Node.isComponent "Tabs"))).toOption.bind
        fun problems =>
          (tree.preorder.find? (Node.isComponent "Tabs")).bind fun wrapper =>
            wrapper.children.head?.map fun child =>
              (child.isEmptyParagraph, child.position, problems.filter (tabs.IsStrayAt ⟨2, 1⟩))) =
      some (true, some ⟨2, 1⟩, []) := by
    decide +kernel
  simp only [Option.bind_eq_some_iff, Option.map_eq_some_iff, Prod.mk.injEq] at found
  obtain ⟨tree, parsed, problems, checked, wrapper, isWrapper, child, first, empty, position, none⟩ :=
    found
  obtain ⟨children, place, rfl, -⟩ := isBlankParagraph_iff.mpr empty
  obtain rfl : place = some ⟨2, 1⟩ := position
  refine ⟨tree, problems, eq_ok_of_toOption parsed, ?_, wrapper,
    List.mem_of_find?_eq_some isWrapper, ?_, children, List.mem_of_head? first, none⟩
  · rw [check, Node.visit, Node.walk_eq_preorder]
    exact eq_ok_of_toOption checked
  · simpa [Node.isComponent] using List.find?_some isWrapper

end MdxCheck.Rule.BarPages
