import MdxCheck.Proofs.Rule.Identifiers
import MdxCheck.Proofs.Rule.Placed

/-!
The rule of bars and pages: which wrappers it has nothing to say about, and what it says about the
others, in which order and where.
-/

namespace MdxCheck.Rule

namespace BarPages

variable (rule : BarPages)

/-- A paragraph with nothing but white space below it. -/
def IsBlankParagraph (node : Node) : Prop :=
  ∃ children place, node = .paragraph children place ∧
    ∀ c ∈ Node.contents children, Text.isBlank c = true

theorem isBlankParagraph_iff {node : Node} :
    IsBlankParagraph node ↔ node.isEmptyParagraph = true := by
  constructor
  · rintro ⟨children, place, rfl, blank⟩
    exact List.all_eq_true.mpr blank
  · intro empty
    cases node with
    | paragraph children place => exact ⟨children, place, rfl, List.all_eq_true.mp empty⟩
    | _ => simp [Node.isEmptyParagraph] at empty

instance : DecidablePred IsBlankParagraph := fun _ =>
  decidable_of_iff _ isBlankParagraph_iff.symm

/-- A node that a wrapper may have as a child. -/
def Allowed (child : Node) : Prop :=
  child.name? = some rule.bar ∨ child.name? = some rule.pages ∨ IsBlankParagraph child

instance : DecidablePred rule.Allowed := fun _ =>
  inferInstanceAs (Decidable (_ ∨ _ ∨ _))

/-- The children of a wrapper with this name. -/
def collections (name : Text) (wrapper : Node) : List Node :=
  wrapper.children.filter fun child => child.name? = some name

/-- The identifiers that attributes give: the values of those called `id` that have one, in order. -/
inductive GivesIds : List Attribute → List Text → Prop
  | nil : GivesIds [] []
  | value {id attributes ids} : GivesIds attributes ids →
      GivesIds (⟨"id", some id⟩ :: attributes) (id :: ids)
  | bare {attributes ids} : GivesIds attributes ids → GivesIds (⟨"id", none⟩ :: attributes) ids
  | other {name value attributes ids} : name ≠ "id".toList → GivesIds attributes ids →
      GivesIds (⟨name, value⟩ :: attributes) ids

/-- The identifiers of the items among some nodes, item after item; what is below a node does not
count. -/
inductive HoldsIds (item : Text) : List Node → List Text → Prop
  | nil : HoldsIds item [] []
  | item {attributes own children place nodes ids} : GivesIds attributes own →
      HoldsIds item nodes ids →
      HoldsIds item (.component item attributes children place :: nodes) (own ++ ids)
  | other {node nodes ids} : node.name? ≠ some item → HoldsIds item nodes ids →
      HoldsIds item (node :: nodes) ids

/-- A wrapper as it should be. -/
structure Fits (wrapper : Node) : Prop where
  children : ∀ child ∈ wrapper.children, rule.Allowed child
  paired : ∃ bar pages barIds pageIds, collections rule.bar wrapper = [bar] ∧
    collections rule.pages wrapper = [pages] ∧
    HoldsIds rule.barItem bar.children barIds ∧ HoldsIds rule.pageItem pages.children pageIds ∧
    barIds.Nodup ∧ pageIds.Nodup ∧ barIds.Perm pageIds

def stray (child : Node) : Text :=
  "<" ++ rule.wrapper ++ "> component must only contain <" ++ rule.bar ++ "> and <" ++
    rule.pages ++ "> components as immediate children but found " ++ child.describe

def surplus (collection : Text) : Text :=
  "<" ++ rule.wrapper ++ "> can only have one <" ++ collection ++ "> child"

def absence (collection : Text) : Text :=
  "No <" ++ collection ++ "> found! <" ++ rule.wrapper ++ "> component must contain <" ++
    collection ++ "> as an immediate child"

def unmatched (item partner id : Text) : Text :=
  "Found a <" ++ item ++ "> with id \"" ++ id ++ "\" but no corresponding <" ++ partner ++
    ">. " ++ rule.wrapper ++ " components must come in pairs."

def doubled (item id : Text) : Text :=
  "Found a <" ++ item ++ "> with a duplicate id \"" ++ id ++ "\". <" ++ item ++
    ">s must have unique ids."

/-- The reasons for a wrapper that come from how many bars and sets of pages it has. -/
def countReasons (wrapper : Node) : List Text :=
  (([rule.bar, rule.pages].filter fun name => 1 < (collections name wrapper).length).map
      rule.surplus) ++
    ([rule.bar, rule.pages].filter fun name => (collections name wrapper).isEmpty).map rule.absence

/-- The reasons that stand at the wrapper itself. Identifiers are compared only where both
collections are there, and then those of the first of each. -/
inductive OwnReasons (wrapper : Node) : List Text → Prop
  | lacking : collections rule.bar wrapper = [] ∨ collections rule.pages wrapper = [] →
      OwnReasons wrapper (rule.countReasons wrapper)
  | compared {bar bars page pages barIds pageIds barOnly pageOnly barTwice pageTwice} :
      collections rule.bar wrapper = bar :: bars →
      collections rule.pages wrapper = page :: pages →
      HoldsIds rule.barItem bar.children barIds → HoldsIds rule.pageItem page.children pageIds →
      ListsIds barOnly (fun id => id ∈ barIds ∧ id ∉ pageIds) →
      ListsIds pageOnly (fun id => id ∈ pageIds ∧ id ∉ barIds) →
      ListsIds barTwice (fun id => 2 ≤ barIds.count id) →
      ListsIds pageTwice (fun id => 2 ≤ pageIds.count id) →
      OwnReasons wrapper (rule.countReasons wrapper ++
        (barOnly.map (rule.unmatched rule.barItem rule.pageItem) ++
          pageOnly.map (rule.unmatched rule.pageItem rule.barItem) ++
          barTwice.map (doubled rule.barItem) ++ pageTwice.map (doubled rule.pageItem)))

/-- A problem of a wrapper whose child is of no use to it. -/
def StrayProblem (child : Node) (problem : Diagnostic) : Prop :=
  ∃ place, child.position = some place ∧ problem = .atPosition place (rule.stray child)

/-- The problems of one wrapper: each stray child at its own place, and then the reasons that stand
at the wrapper. -/
inductive Reports (wrapper : Node) : List Diagnostic → Prop
  | intro {strays place reasons} :
      List.Forall₂ rule.StrayProblem
        (wrapper.children.filter fun child => ¬rule.Allowed child) strays →
      wrapper.position = some place → rule.OwnReasons wrapper reasons →
      Reports wrapper (strays ++ reasons.map fun reason => .atPosition place reason)

/-- The wrappers in a tree, in the order in which they are met. -/
def wrappers (tree : Node) : List Node :=
  tree.preorder.filter fun node => node.name? = some rule.wrapper

variable {rule}

theorem allows_iff {child : Node} : rule.allows child = true ↔ rule.Allowed child := by
  simp [allows, Allowed, isBlankParagraph_iff, Node.isComponent, or_assoc]

theorem filter_isComponent (name : Text) (nodes : List Node) :
    nodes.filter (Node.isComponent name) = nodes.filter fun node => node.name? = some name :=
  List.filter_congr fun node _ => by
    rw [Node.isComponent, Bool.eq_iff_iff, beq_iff_eq, decide_eq_true_eq]

theorem givesIds_iff {attributes : List Attribute} {ids : List Text} :
    GivesIds attributes ids ↔
      ids = attributes.filterMap fun given =>
        if given.name = "id".toList then given.value else none := by
  constructor
  · intro gives
    induction gives with
    | nil => rfl
    | value _ ih => simp [ih]
    | bare _ ih => simp [ih]
    | other different _ ih =>
        rw [List.filterMap_cons, if_neg different]
        exact ih
  · rintro rfl
    induction attributes with
    | nil => exact .nil
    | cons given attributes ih =>
        obtain ⟨name, value⟩ := given
        by_cases same : name = "id".toList
        · subst same
          cases value with
          | none => simpa using GivesIds.bare ih
          | some id => simpa using GivesIds.value ih
        · rw [List.filterMap_cons, if_neg same]
          exact .other same ih

theorem holdsIds_iff {item : Text} {collection : Node} {ids : List Text} :
    HoldsIds item collection.children ids ↔ ids = itemIds item collection := by
  rw [itemIds]
  generalize collection.children = nodes
  constructor
  · intro holds
    induction holds with
    | nil => rfl
    | item gives _ ih =>
        rw [List.filter_cons_of_pos (by simp [Node.isComponent, Node.name?]), List.flatMap_cons, ← ih,
          givesIds_iff.mp gives]
        rfl
    | other different _ ih =>
        rw [List.filter_cons_of_neg (by simpa [Node.isComponent] using different), ih]
  · rintro rfl
    induction nodes with
    | nil => exact .nil
    | cons node nodes ih =>
        by_cases same : node.isComponent item = true
        · cases node with
          | component name attributes children place =>
              obtain rfl : name = item := by simpa [Node.isComponent, Node.name?] using same
              rw [List.filter_cons_of_pos same, List.flatMap_cons]
              exact .item (givesIds_iff.mpr rfl) ih
          | _ => simp [Node.isComponent, Node.name?] at same
        · rw [List.filter_cons_of_neg same]
          exact .other (by simpa [Node.isComponent] using same) ih

theorem OwnReasons.unique {wrapper : Node} {first second : List Text}
    (left : rule.OwnReasons wrapper first) (right : rule.OwnReasons wrapper second) :
    first = second := by
  cases left with
  | lacking none =>
      cases right with
      | lacking => rfl
      | compared bars pages => simp [bars, pages] at none
  | compared bars pages barIds pageIds barOnly pageOnly barTwice pageTwice =>
      cases right with
      | lacking none => simp [bars, pages] at none
      | compared bars' pages' barIds' pageIds' barOnly' pageOnly' barTwice' pageTwice' =>
          obtain ⟨rfl, -⟩ := List.cons.inj (bars.symm.trans bars')
          obtain ⟨rfl, -⟩ := List.cons.inj (pages.symm.trans pages')
          obtain rfl := (holdsIds_iff.mp barIds).trans (holdsIds_iff.mp barIds').symm
          obtain rfl := (holdsIds_iff.mp pageIds).trans (holdsIds_iff.mp pageIds').symm
          rw [barOnly.unique barOnly', pageOnly.unique pageOnly', barTwice.unique barTwice',
            pageTwice.unique pageTwice']

theorem StrayProblem.rightUnique : Relator.RightUnique rule.StrayProblem := by
  rintro child first second ⟨place, position, rfl⟩ ⟨other, position', rfl⟩
  rw [Option.some.inj (position.symm.trans position')]

theorem Reports.rightUnique : Relator.RightUnique rule.Reports := by
  intro wrapper first second left right
  obtain ⟨strays, position, own⟩ := left
  obtain ⟨strays', position', own'⟩ := right
  have sameStrays := Relator.RightUnique.forall₂ StrayProblem.rightUnique strays strays'
  rw [sameStrays, own.unique own', Option.some.inj (position.symm.trans position')]

theorem strayChildren_reports {nodes : List Node}
    (placed : ∀ node ∈ nodes, ∃ place, node.position = some place) :
    ∃ strays, rule.strayChildren nodes = .ok strays ∧
      List.Forall₂ rule.StrayProblem (nodes.filter fun child => ¬rule.Allowed child) strays := by
  induction nodes with
  | nil => exact ⟨[], rfl, .nil⟩
  | cons node nodes ih =>
      obtain ⟨strays, rest, reports⟩ := ih fun other member => placed other (by simp [member])
      by_cases allowed : rule.Allowed node
      · refine ⟨strays, ?_, by simpa [allowed] using reports⟩
        rw [strayChildren, if_pos (allows_iff.mpr allowed), rest]
      · obtain ⟨place, position⟩ := placed node (by simp)
        refine ⟨.atPosition place (rule.stray node) :: strays, ?_, ?_⟩
        · rw [strayChildren, if_neg (mt allows_iff.mp allowed), rest, start_of_position position]
          rfl
        · rw [List.filter_cons_of_pos (by simpa using allowed)]
          exact .cons ⟨place, position, rfl⟩ reports

theorem countReasons_eq (wrapper : Node) :
    rule.countReasons wrapper =
      rule.tooMany rule.bar (collections rule.bar wrapper) ++
        rule.tooMany rule.pages (collections rule.pages wrapper) ++
        rule.missing rule.bar (collections rule.bar wrapper) ++
        rule.missing rule.pages (collections rule.pages wrapper) := by
  have split (keeps : Text → Bool) : [rule.bar, rule.pages].filter keeps =
      [rule.bar].filter keeps ++ [rule.pages].filter keeps :=
    List.filter_append [rule.bar] [rule.pages]
  have many (name : Text) : ([name].filter fun name =>
      1 < (collections name wrapper).length).map rule.surplus =
        rule.tooMany name (collections name wrapper) := by
    rw [tooMany]
    split
    next more =>
      rw [List.filter_cons_of_pos (by simpa using more)]
      rfl
    next few =>
      rw [List.filter_cons_of_neg (by simpa using few)]
      rfl
  have none (name : Text) : ([name].filter fun name =>
      (collections name wrapper).isEmpty).map rule.absence =
        rule.missing name (collections name wrapper) := by
    rw [missing]
    split
    next empty =>
      rw [List.filter_cons_of_pos (by simpa using empty)]
      rfl
    next some =>
      rw [List.filter_cons_of_neg (by simpa using some)]
      rfl
  rw [countReasons, split, split, List.map_append, List.map_append, many, many, none, none,
    ← List.append_assoc]

theorem wrapperProblems_eq (wrapper : Node) :
    rule.wrapperProblems wrapper.children = rule.countReasons wrapper ++
      match collections rule.bar wrapper, collections rule.pages wrapper with
      | bar :: _, page :: _ => rule.itemProblems bar page
      | _, _ => [] := by
  have found (name : Text) : wrapper.children.filter (Node.isComponent name) =
      collections name wrapper := filter_isComponent name wrapper.children
  rw [countReasons_eq, ← found, ← found]
  rfl

theorem ownReasons_wrapperProblems (wrapper : Node) :
    rule.OwnReasons wrapper (rule.wrapperProblems wrapper.children) := by
  rw [wrapperProblems_eq]
  split
  next bar bars page pages foundBars foundPages =>
    exact .compared foundBars foundPages (holdsIds_iff.mpr rfl) (holdsIds_iff.mpr rfl)
      (listsIds_missingIds _ _) (listsIds_missingIds _ _) (listsIds_duplicateIds _)
      (listsIds_duplicateIds _)
  next incomplete =>
    rw [List.append_nil]
    apply OwnReasons.lacking
    cases bars : collections rule.bar wrapper with
    | nil => exact .inl rfl
    | cons bar rest =>
        refine .inr (List.eq_nil_iff_forall_not_mem.mpr fun page member => ?_)
        obtain ⟨first, pages, found⟩ := List.exists_cons_of_ne_nil (List.ne_nil_of_mem member)
        exact incomplete _ _ _ _ bars found

theorem anchored_ok {node : Node} {place : Position} (position : node.position = some place)
    (reasons : List Text) :
    anchored node reasons = .ok (reasons.map fun reason => .atPosition place reason) := by
  cases reasons with
  | nil => rfl
  | cons reason reasons => simp [anchored, start_of_position position, Except.map]

theorem checkWrapper_reports {wrapper : Node} {place : Position}
    (position : wrapper.position = some place)
    (placed : ∀ child ∈ wrapper.children, ∃ place, child.position = some place) :
    ∃ problems, rule.checkWrapper wrapper = .ok problems ∧ rule.Reports wrapper problems := by
  obtain ⟨strays, first, reports⟩ := @strayChildren_reports rule _ placed
  refine ⟨_, ?_, .intro reports position (ownReasons_wrapperProblems wrapper)⟩
  rw [checkWrapper, first, anchored_ok position]
  rfl

theorem checkWrappers_reports {wrappers : List Node}
    (each : ∀ wrapper ∈ wrappers,
      ∃ problems, rule.checkWrapper wrapper = .ok problems ∧ rule.Reports wrapper problems) :
    ∃ reports, rule.checkWrappers wrappers = .ok reports.flatten ∧
      List.Forall₂ rule.Reports wrappers reports := by
  induction wrappers with
  | nil => exact ⟨[], rfl, .nil⟩
  | cons wrapper wrappers ih =>
      obtain ⟨problems, first, report⟩ := each wrapper (by simp)
      obtain ⟨reports, rest, later⟩ := ih fun other member => each other (by simp [member])
      refine ⟨problems :: reports, ?_, .cons report later⟩
      rw [checkWrappers, first, rest]
      rfl

theorem countReasons_eq_nil_iff {wrapper : Node} :
    rule.countReasons wrapper = [] ↔
      (∃ bar, collections rule.bar wrapper = [bar]) ∧
        ∃ pages, collections rule.pages wrapper = [pages] := by
  simp only [← List.length_eq_one_iff, countReasons, List.append_eq_nil_iff, List.map_eq_nil_iff,
    List.filter_eq_nil_iff, List.forall_mem_cons, List.isEmpty_iff_length_eq_zero,
    decide_eq_true_eq]
  simp only [List.not_mem_nil, false_imp_iff, implies_true, and_true]
  omega

theorem itemProblems_eq_nil_iff {bar pages : Node} :
    rule.itemProblems bar pages = [] ↔
      (itemIds rule.barItem bar).Nodup ∧ (itemIds rule.pageItem pages).Nodup ∧
        (itemIds rule.barItem bar).Perm (itemIds rule.pageItem pages) := by
  simp only [itemProblems, List.append_eq_nil_iff, List.map_eq_nil_iff, missingIds_eq_nil_iff,
    duplicateIds_eq_nil_iff]
  constructor
  · rintro ⟨⟨⟨fewerBars, fewerPages⟩, bars⟩, onlyOnce⟩
    exact ⟨bars, onlyOnce, (List.perm_ext_iff_of_nodup bars onlyOnce).mpr fun id =>
      ⟨fewerBars id, fewerPages id⟩⟩
  · rintro ⟨bars, onlyOnce, perm⟩
    exact ⟨⟨⟨fun id => perm.mem_iff.mp, fun id => perm.mem_iff.mpr⟩, bars⟩, onlyOnce⟩

theorem wrapperProblems_eq_nil_iff {wrapper : Node} :
    rule.wrapperProblems wrapper.children = [] ↔ ∃ bar pages,
      collections rule.bar wrapper = [bar] ∧ collections rule.pages wrapper = [pages] ∧
        rule.itemProblems bar pages = [] := by
  rw [wrapperProblems_eq, List.append_eq_nil_iff, countReasons_eq_nil_iff]
  constructor
  · rintro ⟨⟨⟨bar, bars⟩, pages, page⟩, items⟩
    exact ⟨bar, pages, bars, page, by simpa [bars, page] using items⟩
  · rintro ⟨bar, pages, bars, page, items⟩
    exact ⟨⟨⟨bar, bars⟩, pages, page⟩, by simpa [bars, page] using items⟩

theorem fits_iff {wrapper : Node} :
    rule.Fits wrapper ↔ (∀ child ∈ wrapper.children, rule.Allowed child) ∧
      rule.wrapperProblems wrapper.children = [] := by
  rw [wrapperProblems_eq_nil_iff]
  simp only [itemProblems_eq_nil_iff]
  constructor
  · rintro ⟨children, bar, pages, _, _, bars, page, barIds, pageIds, paired⟩
    obtain rfl := holdsIds_iff.mp barIds
    obtain rfl := holdsIds_iff.mp pageIds
    exact ⟨children, bar, pages, bars, page, paired⟩
  · rintro ⟨children, bar, pages, bars, page, paired⟩
    exact ⟨children, bar, pages, _, _, bars, page, holdsIds_iff.mpr rfl, holdsIds_iff.mpr rfl, paired⟩

instance (wrapper : Node) : Decidable (rule.Fits wrapper) :=
  decidable_of_iff _ fits_iff.symm

/-- There is nothing to report of a wrapper exactly if it is as it should be. -/
theorem Reports.eq_nil_iff {wrapper : Node} {problems : List Diagnostic}
    (report : rule.Reports wrapper problems) : problems = [] ↔ rule.Fits wrapper := by
  obtain ⟨strays, -, own⟩ := report
  obtain rfl := own.unique (ownReasons_wrapperProblems wrapper)
  have none : ∀ {children : List Node} {problems : List Diagnostic},
      List.Forall₂ rule.StrayProblem children problems → (problems = [] ↔ children = []) := by
    intro children problems strays
    rw [← List.length_eq_zero_iff, ← List.length_eq_zero_iff, strays.length_eq]
  rw [fits_iff, List.append_eq_nil_iff, List.map_eq_nil_iff, none strays, List.filter_eq_nil_iff]
  simp

theorem flatten_reports_eq_nil_iff {wrappers : List Node} {reports : List (List Diagnostic)}
    (each : List.Forall₂ rule.Reports wrappers reports) :
    reports.flatten = [] ↔ ∀ wrapper ∈ wrappers, rule.Fits wrapper := by
  induction each with
  | nil => simp
  | cons report _ ih => simp [report.eq_nil_iff, ih]

theorem check_reports {tree : Node} (placed : tree.Placed) :
    ∃ reports, rule.check tree = .ok reports.flatten ∧
      List.Forall₂ rule.Reports (rule.wrappers tree) reports := by
  have met : tree.visit (Node.isComponent rule.wrapper) = rule.wrappers tree := by
    rw [wrappers, ← filter_isComponent, ← Node.walk_eq_preorder]
    rfl
  rw [check, met]
  apply checkWrappers_reports
  intro wrapper member
  rw [← met] at member
  obtain ⟨⟨place, position⟩, below⟩ := placed.of_visit member
  exact checkWrapper_reports position below

/-- The rule passes a tree exactly if all wrappers in it, nested ones too, have only bars, sets of
pages and empty paragraphs as children, one bar and one set of pages, and the same identifiers in
both, each once. For any tree it gives the problems of the wrappers in the order in which they are
met, and these are determined. -/
theorem check_sound_complete (rule : BarPages) {tree : Node} (placed : tree.Placed) :
    (rule.check tree = .ok [] ↔
      ∀ wrapper ∈ tree.preorder, wrapper.name? = some rule.wrapper → rule.Fits wrapper) ∧
    ∃ reports, rule.check tree = .ok reports.flatten ∧
      List.Forall₂ rule.Reports (rule.wrappers tree) reports ∧
      ∀ others, List.Forall₂ rule.Reports (rule.wrappers tree) others → others = reports := by
  obtain ⟨reports, checked, each⟩ := @check_reports rule _ placed
  refine ⟨?_, reports, checked, each, fun others same =>
    Relator.RightUnique.forall₂ Reports.rightUnique same each⟩
  rw [checked, Except.ok.injEq, flatten_reports_eq_nil_iff each]
  simp [wrappers]

def itemOf (name : Text) (ids : List (Option Text)) (children : List Node) : Node :=
  .component name (⟨"title", some "a"⟩ :: ids.map fun id => ⟨"id", id⟩) children (some ⟨9, 1⟩)

/-- Pages without a bar. -/
def barless : Node :=
  .component "Tabs" [] [.component "TabsPages" [] [] (some ⟨6, 1⟩)] (some ⟨5, 1⟩)

/-- An item with two identifiers, of which one is empty, two items that share one, and an item further
down. -/
def crossedBar : Node :=
  .component "TabsBar" []
    [itemOf "TabsBarItem" [some "b"] [], itemOf "TabsBarItem" [some "a", none, some ""] [],
      itemOf "Note" [some "x"] [itemOf "TabsBarItem" [some "y"] []],
      itemOf "TabsBarItem" [some "a"] []] (some ⟨3, 1⟩)

def crossedPages : Node :=
  .component "TabsPages" []
    [itemOf "TabsPageItem" [some "c"] [barless], itemOf "TabsPageItem" [some "b"] []] (some ⟨2, 1⟩)

def crossed : Node :=
  .component "Tabs" []
    [crossedBar, .paragraph [.text " " (some ⟨4, 1⟩)] (some ⟨4, 1⟩), crossedPages] (some ⟨1, 1⟩)

theorem check_sound_complete_crossed :
    (Node.root [crossed] (some ⟨1, 1⟩)).Placed ∧
      tabs.check (.root [crossed] (some ⟨1, 1⟩)) =
      .ok [.atPosition ⟨1, 1⟩ (tabs.unmatched "TabsBarItem" "TabsPageItem" ""),
        .atPosition ⟨1, 1⟩ (tabs.unmatched "TabsBarItem" "TabsPageItem" "a"),
        .atPosition ⟨1, 1⟩ (tabs.unmatched "TabsPageItem" "TabsBarItem" "c"),
        .atPosition ⟨1, 1⟩ (doubled "TabsBarItem" "a"),
        .atPosition ⟨5, 1⟩ (tabs.absence "TabsBar")] := by
  have placed : (Node.root [crossed] (some ⟨1, 1⟩)).Placed := by
    simp [Node.Placed, crossed, crossedBar, crossedPages, barless, itemOf, Node.preorder,
      Node.preorders, Node.position]
  have met : tabs.wrappers (.root [crossed] (some ⟨1, 1⟩)) = [crossed, barless] := by
    rfl
  have barIds : HoldsIds tabs.barItem crossedBar.children ["b", "a", "", "a"] :=
    .item (.other (by decide) (.value .nil)) <|
      .item (.other (by decide) (.value (.bare (.value .nil)))) <|
        .other (by decide) <| .item (.other (by decide) (.value .nil)) .nil
  have pageIds : HoldsIds tabs.pageItem crossedPages.children ["c", "b"] :=
    .item (.other (by decide) (.value .nil)) <| .item (.other (by decide) (.value .nil)) .nil
  have outer : tabs.OwnReasons crossed _ :=
    .compared rfl rfl barIds pageIds (listsIds_missingIds _ _) (listsIds_missingIds _ _)
      (listsIds_duplicateIds _) (listsIds_duplicateIds _)
  have outerReports : tabs.Reports crossed _ := .intro .nil rfl outer
  have innerReports : tabs.Reports barless _ := .intro .nil rfl (.lacking (.inl rfl))
  have reported := List.Forall₂.cons outerReports (.cons innerReports .nil)
  rw [← met] at reported
  obtain ⟨-, reports, checked, -, determined⟩ := check_sound_complete tabs placed
  refine ⟨placed, ?_⟩
  rw [checked, ← determined _ reported]
  rfl

end BarPages

end MdxCheck.Rule
