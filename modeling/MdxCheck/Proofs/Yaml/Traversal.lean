import MdxCheck.Yaml.Load

/-!
How the reading of a YAML text fails: with an error at a place, or as the reading of one of its scalars
does. So what can be said of the scalars of a text can be said of the text.
-/

namespace MdxCheck.Yaml

/-- A result that has a property if it is a value, and an allowed failure if it is none. -/
def Yields {α : Type} (allowed : Failure → Prop) (P : α → Prop) : Except Failure α → Prop
  | .ok value => P value
  | .error failure => allowed failure

namespace Yields

variable {α β : Type} {allowed : Failure → Prop} {P : α → Prop} {Q : β → Prop}

theorem bind {result : Except Failure α} {next : α → Except Failure β}
    (yields : Yields allowed P result) (step : ∀ value, P value → Yields allowed Q (next value)) :
    Yields allowed Q (result >>= next) := by
  cases result with
  | ok value => exact step value yields
  | error failure => exact yields

theorem map {result : Except Failure α} {f : α → β} (yields : Yields allowed P result)
    (step : ∀ value, P value → Q (f value)) : Yields allowed Q (result.map f) := by
  cases result with
  | ok value => exact step value yields
  | error failure => exact yields

theorem mapM {f : α → Except Failure β} {items : List α}
    (each : ∀ item ∈ items, Yields allowed Q (f item)) :
    Yields allowed (fun values => ∀ value ∈ values, Q value) (items.mapM f) := by
  induction items with
  | nil => simp [Yields, pure, Except.pure]
  | cons item items ih =>
      rw [List.mapM_cons]
      refine (each item (by simp)).bind fun value fits => ?_
      refine (ih fun other member => each other (by simp [member])).bind fun values others => ?_
      intro other member
      rcases List.mem_cons.mp member with rfl | member
      · exact fits
      · exact others other member

theorem forM {f : α → Except Failure PUnit} {items : List α}
    (each : ∀ item ∈ items, Yields allowed (fun _ => True) (f item)) :
    Yields allowed (fun _ => True) (items.forM f) := by
  induction items with
  | nil => trivial
  | cons item items ih =>
      change Yields _ _ (f item >>= fun _ => items.forM f)
      exact (each item (by simp)).bind fun _ _ =>
        ih fun other member => each other (by simp [member])

end Yields

namespace Node

/-- A node is within another if it is that node, or within an item, a key or a value of it. -/
inductive Within (node : Node) : Node → Prop
  | self : Within node node
  | item {tag : Tag} {items : List Node} {start : Mark} {item : Node} :
      item ∈ items → Within node item → Within node (.sequence tag items start)
  | key {tag : Tag} {entries : List (Node × Node)} {start : Mark} {entry : Node × Node} :
      entry ∈ entries → Within node entry.1 → Within node (.mapping tag entries start)
  | value {tag : Tag} {entries : List (Node × Node)} {start : Mark} {entry : Node × Node} :
      entry ∈ entries → Within node entry.2 → Within node (.mapping tag entries start)

def Throughout (Good : Node → Prop) (root : Node) : Prop :=
  ∀ node, Within node root → Good node

variable {Good : Node → Prop} {allowed : Failure → Prop}

namespace Throughout

theorem here {node : Node} (throughout : Throughout Good node) : Good node :=
  throughout node .self

theorem of_scalar {tag : Tag} {text : Text} {start : Mark} (good : Good (scalar tag text start)) :
    Throughout Good (scalar tag text start) := by
  intro node within
  cases within
  exact good

theorem of_mapping {tag : Tag} {entries : List (Node × Node)} {start : Mark}
    (good : Good (mapping tag entries start))
    (each : ∀ entry ∈ entries, Throughout Good entry.1 ∧ Throughout Good entry.2) :
    Throughout Good (mapping tag entries start) := by
  intro node within
  cases within with
  | self => exact good
  | key member within => exact (each _ member).1 node within
  | value member within => exact (each _ member).2 node within

theorem item {tag : Tag} {items : List Node} {start : Mark}
    (throughout : Throughout Good (sequence tag items start)) :
    ∀ item ∈ items, Throughout Good item :=
  fun _ member node within => throughout node (.item member within)

theorem entry {tag : Tag} {entries : List (Node × Node)} {start : Mark}
    (throughout : Throughout Good (mapping tag entries start)) :
    ∀ entry ∈ entries, Throughout Good entry.1 ∧ Throughout Good entry.2 :=
  fun _ member => ⟨fun node within => throughout node (.key member within),
    fun node within => throughout node (.value member within)⟩

theorem withText {node : Node} (throughout : Throughout Good node)
    (retagged : Good (node.withTag .text)) : Throughout Good (node.withTag .text) := by
  intro inner within
  cases node with
  | enclosing isMap start => exact throughout inner within
  | scalar tag text start =>
      cases within
      exact retagged
  | sequence tag items start =>
      cases within with
      | self => exact retagged
      | item member within => exact throughout inner (.item member within)
  | mapping tag entries start =>
      cases within with
      | self => exact retagged
      | key member within => exact throughout inner (.key member within)
      | value member within => exact throughout inner (.value member within)

end Throughout

/-- Both nodes of an entry are good, and so are all nodes within them. -/
def GoodEntry (Good : Node → Prop) (entry : Node × Node) : Prop :=
  Throughout Good entry.1 ∧ Throughout Good entry.2

theorem GoodEntry.parts {entry : Node × Node} (good : GoodEntry Good entry) :
    ∀ part ∈ [entry.1, entry.2], Throughout Good part := by
  intro part member
  simp only [List.mem_cons, List.not_mem_nil, or_false] at member
  rcases member with rfl | rfl
  · exact good.1
  · exact good.2

mutual

theorem failure_of_textWithin (outer : List Mark) (node : Node) {failure : Failure}
    (failed : node.textWithin outer = .error failure) :
    (∃ fault, failure = .error fault) ∨ failure = .misuse .endlessDefault := by
  cases node with
  | scalar tag text start => simp [textWithin] at failed
  | sequence tag items start => exact .inl ⟨_, (Except.error.inj failed).symm⟩
  | mapping tag entries start =>
      rw [textWithin] at failed
      exact failure_of_defaultText outer start entries failed
  | enclosing isMap start =>
      rw [textWithin] at failed
      split at failed
      · exact .inr (Except.error.inj failed).symm
      · exact .inl ⟨_, (Except.error.inj failed).symm⟩

theorem failure_of_defaultText (outer : List Mark) (start : Mark) (entries : List (Node × Node))
    {failure : Failure} (failed : defaultText outer start entries = .error failure) :
    (∃ fault, failure = .error fault) ∨ failure = .misuse .endlessDefault := by
  cases entries with
  | nil => exact .inl ⟨_, (Except.error.inj failed).symm⟩
  | cons entry entries =>
      obtain ⟨key, value⟩ := entry
      rw [defaultText] at failed
      split at failed
      · exact failure_of_textWithin (start :: outer) value failed
      · exact failure_of_defaultText outer start entries failed

end

end Node

/-- Whether a text has a value of a type, or is refused in an allowed way. -/
def Tag.Reads (allowed : Failure → Prop) (text : Text) : Tag → Prop
  | .boolean => ∃ truth, Tag.truthWords.lookup (text.map Char.toLower) = some truth
  | .integer => Yields allowed (fun _ => True) (Node.numeric .integer (integerValue text))
  | .float => Yields allowed (fun _ => True) (Node.numeric .float (floatValue text))
  | .timestamp =>
    ∃ timestamp,
      Timestamp.ofText? (if text.getLast? = some '\n' then text.dropLast else text) =
        some timestamp ∧
      ∀ fault, timestamp.resolve = .error fault → allowed (.value (.calendar fault))
  | _ => True

namespace Node

variable {Good : Node → Prop} {allowed : Failure → Prop}

theorem yields_scalarValue {node : Node} (error : ∀ fault, allowed (.error fault))
    (ends : node.scalarText ≠ .error (.misuse .endlessDefault))
    (reads : ∀ text, node.scalarText = .ok text → node.tag.Reads allowed text)
    (noTimestamp : ∀ text, node.scalarText = .ok text → node.isMapping = true →
      node.tag ≠ .timestamp) :
    Yields allowed (fun _ => True) node.scalarValue := by
  have text : Yields allowed (fun text => node.scalarText = .ok text) node.scalarText := by
    cases result : node.scalarText with
    | ok text => rfl
    | error failure =>
        rcases failure_of_textWithin [] node result with ⟨fault, rfl⟩ | rfl
        · exact error fault
        · exact absurd result ends
  unfold scalarValue
  cases type : node.tag with
  | null => exact text.bind fun _ _ => trivial
  | text => exact text.bind fun _ _ => trivial
  | boolean =>
      refine text.bind fun text read => ?_
      obtain ⟨truth, known⟩ : Tag.boolean.Reads allowed text := type ▸ reads text read
      simp only [known]
      trivial
  | integer =>
      refine text.bind fun text read => ?_
      have form : Tag.integer.Reads allowed text := type ▸ reads text read
      exact form
  | float =>
      refine text.bind fun text read => ?_
      have form : Tag.float.Reads allowed text := type ▸ reads text read
      exact form
  | binary =>
      refine text.bind fun text read => ?_
      split
      · trivial
      · exact error _
      · exact error _
  | timestamp =>
      refine text.bind fun text read => ?_
      obtain ⟨timestamp, known, resolves⟩ : Tag.timestamp.Reads allowed text :=
        type ▸ reads text read
      have noMapping : ¬ node.isMapping = true := fun isMapping =>
        noTimestamp text read isMapping type
      simp only [noMapping, known]
      cases resolved : timestamp.resolve with
      | ok day => cases day <;> trivial
      | error fault => exact resolves fault resolved
  | _ => exact error _

/-- Good nodes settle how a reading fails: errors at a place apart, as the scalars among them do, and
these fail in an allowed way. -/
structure Settles (Good : Node → Prop) (allowed : Failure → Prop) : Prop where
  error : ∀ fault, allowed (.error fault)
  retagged : ∀ {node : Node}, Good node → Good (node.withTag .text)
  scalarValue : ∀ {node : Node}, Good node → Yields allowed (fun _ => True) node.scalarValue

section

variable (settles : Settles Good allowed)

include settles

theorem yields_check {node : Node} (good : Good node) :
    Yields allowed (fun _ => True) node.check := by
  unfold check
  by_cases collection : node.isCollection = true
  · rw [if_pos collection]
    trivial
  · rw [if_neg collection]
    exact (settles.scalarValue good).map fun _ _ => trivial

theorem yields_checkEach {nodes : List Node} (good : ∀ node ∈ nodes, Throughout Good node) :
    Yields allowed (fun _ => True) (checkEach nodes) := by
  induction nodes with
  | nil => trivial
  | cons node nodes ih =>
      exact (yields_check settles (good node (by simp)).here).bind fun _ _ =>
        ih fun other member => good other (by simp [member])

end

/-- All entries that are known are good, or refused in an allowed way. -/
def GoodKnown (Good : Node → Prop) (allowed : Failure → Prop) (known : Known) : Prop :=
  ∀ place ∈ known, Yields allowed (fun entries => ∀ entry ∈ entries, GoodEntry Good entry) place.2

namespace GoodKnown

theorem nil : GoodKnown Good allowed [] := by
  simp [GoodKnown]

theorem cons {known : Known} {start : Mark} {entries : Except Failure (List (Node × Node))}
    (good : GoodKnown Good allowed known)
    (yields : Yields allowed (fun entries => ∀ entry ∈ entries, GoodEntry Good entry) entries) :
    GoodKnown Good allowed ((start, entries) :: known) := by
  intro place member
  rcases List.mem_cons.mp member with rfl | member
  · exact yields
  · exact good place member

theorem entriesAt {known : Known} (good : GoodKnown Good allowed known) (start : Mark) :
    Yields allowed (fun entries => ∀ entry ∈ entries, GoodEntry Good entry)
      (known.entriesAt start) := by
  unfold Known.entriesAt
  cases found : known.lookup start with
  | none => simp [Yields]
  | some entries =>
      obtain ⟨front, back, rfl, -⟩ := List.lookup_eq_some_iff.mp found
      exact good (start, entries) (by simp)

end GoodKnown

mutual

theorem yields_mergedEntries (settles : Settles Good allowed) {known : Known}
    (goodKnown : GoodKnown Good allowed known) (node : Node) (good : Throughout Good node) :
    Yields allowed
      (fun merged? => ∀ merged, merged? = some merged → ∀ entry ∈ merged, GoodEntry Good entry)
      (node.mergedEntries? known) := by
  cases node with
  | mapping tag entries start =>
      rw [mergedEntries?]
      refine (yields_splitEntries settles goodKnown start [] entries (by simp) good.entry).bind
        fun split both => ?_
      rintro merged ⟨⟩ entry member
      exact both entry member
  | enclosing isMap start =>
      cases isMap
      · simp [mergedEntries?, Yields]
      · rw [mergedEntries?]
        refine (goodKnown.entriesAt start).map fun entries each => ?_
        rintro merged ⟨⟩
        exact each
  | scalar tag text start => simp [mergedEntries?, Yields]
  | sequence tag items start => simp [mergedEntries?, Yields]

theorem yields_mergedItems (settles : Settles Good allowed) {known : Known}
    (goodKnown : GoodKnown Good allowed known) (start : Mark) (items : List Node)
    (good : ∀ item ∈ items, Throughout Good item) :
    Yields allowed (fun merged => ∀ entry ∈ merged, GoodEntry Good entry)
      (mergedItems known start items) := by
  cases items with
  | nil => simp [mergedItems, Yields]
  | cons item items =>
      rw [mergedItems]
      refine (yields_mergedEntries settles goodKnown item (good item (by simp))).bind
        fun merged? first => ?_
      cases merged? with
      | none => exact settles.error _
      | some merged =>
          refine (yields_mergedItems settles goodKnown start items fun other member =>
            good other (by simp [member])).bind fun others rest => ?_
          intro entry member
          rcases List.mem_append.mp member with member | member
          · exact rest entry member
          · exact first merged rfl entry member

theorem yields_mergedValue (settles : Settles Good allowed) {known : Known}
    (goodKnown : GoodKnown Good allowed known) (start : Mark) (node : Node)
    (good : Throughout Good node) :
    Yields allowed (fun merged => ∀ entry ∈ merged, GoodEntry Good entry)
      (mergedValue known start node) := by
  cases node with
  | sequence tag items place =>
      rw [mergedValue]
      exact yields_mergedItems settles goodKnown start items good.item
  | mapping tag entries inner =>
      rw [mergedValue]
      exact (yields_splitEntries settles goodKnown inner [] entries (by simp) good.entry).bind
        fun split both => both
  | enclosing isMap place =>
      cases isMap
      · exact settles.error _
      · rw [mergedValue]
        exact goodKnown.entriesAt place
  | scalar tag text place => exact settles.error _

theorem yields_splitEntries (settles : Settles Good allowed) {known : Known}
    (goodKnown : GoodKnown Good allowed known) (start : Mark) (own entries : List (Node × Node))
    (goodOwn : ∀ entry ∈ own, GoodEntry Good entry)
    (good : ∀ entry ∈ entries, GoodEntry Good entry) :
    Yields allowed (fun split => ∀ entry ∈ split.1 ++ split.2, GoodEntry Good entry)
      (splitEntries known start own entries) := by
  cases entries with
  | nil => simpa [splitEntries, Yields] using goodOwn
  | cons entry entries =>
      obtain ⟨key, value⟩ := entry
      have first : GoodEntry Good (key, value) := good _ (by simp)
      have further : ∀ entry ∈ entries, GoodEntry Good entry :=
        fun other member => good other (by simp [member])
      have kept (key' : Node) (good' : Throughout Good key') :
          ∀ entry ∈ own ++ [(key', value)], GoodEntry Good entry := by
        intro entry member
        rcases List.mem_append.mp member with member | member
        · exact goodOwn entry member
        · obtain rfl := List.mem_singleton.mp member
          exact ⟨good', first.2⟩
      rw [splitEntries]
      split
      · have rest := yields_splitEntries settles goodKnown start own entries goodOwn further
        have left : Yields allowed (fun entries => ∀ entry ∈ entries, GoodEntry Good entry)
            ((splitEntries known start own entries).map fun (merged, own) => merged ++ own) :=
          rest.map fun _ both => both
        refine (yields_mergedValue settles (goodKnown.cons left) start value first.2).bind
          fun merged given => ?_
        refine rest.bind fun split both => ?_
        intro entry member
        rw [List.append_assoc] at member
        rcases List.mem_append.mp member with member | member
        · exact given entry member
        · exact both entry member
      · have textual := first.1.withText (settles.retagged first.1.here)
        exact yields_splitEntries settles goodKnown start _ entries (kept _ textual) further
      · exact yields_splitEntries settles goodKnown start _ entries (kept key first.1) further

end

mutual

theorem within_of_mem_mappings (node : Node) {inner : Node} (member : inner ∈ node.mappings) :
    Within inner node := by
  cases node with
  | mapping tag entries start =>
      rw [mappings] at member
      rcases List.mem_cons.mp member with rfl | member
      · exact .self
      · obtain ⟨entry, listed, within | within⟩ := within_of_mem_mappingsOfEntries entries member
        · exact .key listed within
        · exact .value listed within
  | sequence tag items start =>
      rw [mappings] at member
      obtain ⟨item, listed, within⟩ := within_of_mem_mappingsOfItems items member
      exact .item listed within
  | scalar tag text start => simp [mappings] at member
  | enclosing isMap start => simp [mappings] at member

theorem within_of_mem_mappingsOfItems (items : List Node) {inner : Node}
    (member : inner ∈ mappingsOfItems items) : ∃ item ∈ items, Within inner item := by
  cases items with
  | nil => simp [mappingsOfItems] at member
  | cons item items =>
      rw [mappingsOfItems] at member
      rcases List.mem_append.mp member with member | member
      · exact ⟨item, by simp, within_of_mem_mappings item member⟩
      · obtain ⟨other, listed, within⟩ := within_of_mem_mappingsOfItems items member
        exact ⟨other, by simp [listed], within⟩

theorem within_of_mem_mappingsOfEntries (entries : List (Node × Node)) {inner : Node}
    (member : inner ∈ mappingsOfEntries entries) :
    ∃ entry ∈ entries, Within inner entry.1 ∨ Within inner entry.2 := by
  cases entries with
  | nil => simp [mappingsOfEntries] at member
  | cons entry entries =>
      obtain ⟨key, value⟩ := entry
      rw [mappingsOfEntries] at member
      rcases List.mem_append.mp member with member | member
      · refine ⟨(key, value), by simp, ?_⟩
        rcases List.mem_append.mp member with member | member
        · exact .inl (within_of_mem_mappings key member)
        · exact .inr (within_of_mem_mappings value member)
      · obtain ⟨other, listed, within⟩ := within_of_mem_mappingsOfEntries entries member
        exact ⟨other, by simp [listed], within⟩

end

theorem Within.trans {inner middle outer : Node} (first : Within inner middle)
    (second : Within middle outer) : Within inner outer := by
  induction second with
  | self => exact first
  | item member _ ih => exact .item member ih
  | key member _ ih => exact .key member ih
  | value member _ ih => exact .value member ih

section

variable (settles : Settles Good allowed)

include settles

theorem yields_entries {known : Known} (goodKnown : GoodKnown Good allowed known) {node : Node}
    (good : Throughout Good node) :
    Yields allowed (fun entries => ∀ entry ∈ entries, GoodEntry Good entry) (node.entries known) := by
  cases node with
  | mapping tag entries start =>
      exact (yields_splitEntries settles goodKnown start [] entries (by simp) good.entry).bind
        fun split both => both
  | _ => exact settles.error _

theorem goodKnown_known {root : Node} (good : Throughout Good root) :
    GoodKnown Good allowed root.known := by
  have each : ∀ node ∈ root.mappings, Throughout Good node := fun node member inner within =>
    good inner (within.trans (within_of_mem_mappings root member))
  suffices growing : ∀ (nodes : List Node) (known : Known), (∀ node ∈ nodes, Throughout Good node) →
      GoodKnown Good allowed known → GoodKnown Good allowed
        (nodes.foldl (fun known node => (node.start, node.entries known) :: known) known) from
    growing _ [] each .nil
  intro nodes
  induction nodes with
  | nil => exact fun _ _ goodKnown => goodKnown
  | cons node nodes ih =>
      intro known each goodKnown
      refine ih _ (fun other member => each other (by simp [member])) (goodKnown.cons ?_)
      exact yields_entries settles goodKnown (each node (by simp))

theorem yields_items {node : Node} (good : Throughout Good node) :
    Yields allowed (fun items => ∀ item ∈ items, Throughout Good item) node.items := by
  cases node with
  | sequence tag items start => exact good.item
  | _ => exact settles.error _

theorem yields_pairItems (context : Context) {node : Node} (good : Throughout Good node) :
    Yields allowed (fun items => ∀ item ∈ items, Throughout Good item) (node.pairItems context) := by
  cases node with
  | sequence tag items start => exact good.item
  | _ => exact settles.error _

theorem yields_singleEntry (context : Context) (start : Mark) {node : Node}
    (good : Throughout Good node) :
    Yields allowed (GoodEntry Good) (singleEntry context start node) := by
  unfold singleEntry
  split
  · exact good.entry _ (by simp)
  · exact settles.error _
  · exact settles.error _

theorem yields_checkEntry (start : Mark) {entry : Node × Node} (good : GoodEntry Good entry) :
    Yields allowed (fun _ => True) (checkEntry start entry.1 entry.2) := by
  refine (yields_check settles good.1.here).bind fun _ _ => ?_
  by_cases collection : entry.1.isCollection = true
  · rw [if_pos collection]
    exact settles.error _
  · rw [if_neg collection]
    exact yields_check settles good.2.here

theorem yields_parts {node : Node} (good : Throughout Good node) :
    Yields allowed (fun parts => ∀ part ∈ parts, Throughout Good part) node.parts := by
  unfold parts
  cases node.tag with
  | sequence =>
      refine (yields_items settles good).bind fun items each => ?_
      exact (yields_checkEach settles each).bind fun _ _ => each
  | mapping | set =>
      refine (yields_entries settles .nil good).bind fun entries each => ?_
      refine Yields.bind
        (.forM fun entry member => yields_checkEntry settles node.start (each entry member))
        fun _ _ => ?_
      intro part member
      obtain ⟨entry, met, member⟩ := List.mem_flatMap.mp member
      exact (each entry met).parts part member
  | orderedMap | pairs =>
      refine (yields_pairItems settles _ good).bind fun items each => ?_
      refine (Yields.mapM fun item member => ?_).bind
        fun (parts : List (List Node)) (all : ∀ own ∈ parts, ∀ part ∈ own, Throughout Good part) => ?_
      · refine (yields_singleEntry settles _ node.start (each item member)).bind fun entry both => ?_
        refine (yields_check settles both.1.here).bind fun _ _ =>
          (yields_check settles both.2.here).bind fun _ _ => ?_
        exact both.parts
      · intro part member
        obtain ⟨own, met, member⟩ := List.mem_flatten.mp member
        exact all own met part member
  | _ => simp [Yields]

theorem yields_checkLevels (fuel : Nat) {nodes : List Node}
    (good : ∀ node ∈ nodes, Throughout Good node) :
    Yields allowed (fun _ => True) (checkLevels fuel nodes) := by
  induction fuel generalizing nodes with
  | zero => trivial
  | succ fuel ih =>
      cases nodes with
      | nil => trivial
      | cons node nodes =>
          rw [checkLevels]
          · refine (Yields.mapM fun node member => yields_parts settles (good node member)).bind
              fun below each => ih fun part member => ?_
            obtain ⟨own, met, member⟩ := List.mem_flatten.mp (List.mem_filter.mp member).1
            exact each own met part member
          · simp

theorem yields_valueOf {known : Known} (goodKnown : GoodKnown Good allowed known) (fuel : Nat)
    (outer : List Mark) {node : Node} (good : Throughout Good node) :
    Yields allowed (fun _ => True) (node.valueOf known fuel outer) := by
  induction fuel generalizing outer node with
  | zero => simp [valueOf, Yields]
  | succ fuel ih =>
      by_cases encloses : ∃ isMap start, node = enclosing isMap start
      · obtain ⟨isMap, start, rfl⟩ := encloses
        trivial
      rw [valueOf.eq_3 known outer node fuel fun isMap start same => encloses ⟨isMap, start, same⟩]
      split
      · trivial
      have part {inner : Node} (good : Throughout Good inner) := ih (node.start :: outer) good
      cases node.tag with
      | sequence =>
          refine (yields_items settles good).bind fun items each => ?_
          exact (Yields.mapM fun item member => part (each item member)).bind fun _ _ => trivial
      | mapping =>
          refine (yields_entries settles goodKnown good).bind fun entries each => ?_
          refine (Yields.mapM (Q := fun _ => True) fun entry member => ?_).bind fun _ _ => trivial
          exact (part (each entry member).1).bind fun _ _ =>
            (part (each entry member).2).bind fun _ _ => trivial
      | set =>
          refine (yields_entries settles goodKnown good).bind fun entries each => ?_
          exact (Yields.mapM fun entry member => part (each entry member).1).bind fun _ _ => trivial
      | orderedMap | pairs =>
          refine (yields_pairItems settles _ good).bind fun items each => ?_
          refine (Yields.mapM (Q := fun _ => True) fun item member => ?_).bind fun _ _ => trivial
          refine (yields_singleEntry settles _ node.start (each item member)).bind
            fun entry both => ?_
          exact (part both.1).bind fun _ _ => (part both.2).bind fun _ _ => trivial
      | _ => exact settles.scalarValue good.here

end

end Node

theorem yields_checkCharacters {allowed : Failure → Prop}
    (character : ∀ code position, allowed (.character code position)) (source : Text) :
    Yields allowed (fun _ => True) (checkCharacters source) := by
  unfold checkCharacters
  split
  · trivial
  · exact character _ _

/-- The reading of a text fails in an allowed way only, if its characters and codes do and its nodes
settle the rest. -/
theorem yields_load {allowed : Failure → Prop} {Good : Node → Prop} {source : Text}
    (settles : Node.Settles Good allowed)
    (character : ∀ code position, allowed (.character code position))
    (codes : ∀ code, document? source = .error (.badCode code) →
      allowed (Failure.ofScan (.badCode code)))
    (nodes : ∀ root, document? source = .ok (some root) → Node.Throughout Good root) :
    Yields allowed (fun _ => True) (load source) := by
  refine (yields_checkCharacters character source).bind fun _ _ => ?_
  cases read : document? source with
  | error failure =>
      cases failure with
      | error fault => exact settles.error fault
      | badCode code => exact codes code read
  | ok root? =>
      cases root? with
      | none => trivial
      | some root =>
          have good := nodes root read
          refine (Node.yields_check settles good.here).bind fun _ _ => ?_
          refine Yields.bind (Node.yields_checkLevels settles _ fun node member => ?_)
            fun _ _ => Node.yields_valueOf settles (Node.goodKnown_known settles good) _ _ good
          obtain rfl := List.mem_singleton.mp (List.mem_filter.mp member).1
          exact good

/-- The type and the text of the scalar that is the only field of a document. -/
def soleField? : Except ScanFailure (Option Node) → Option (Tag × Text)
  | .ok (some (.mapping .mapping [(.scalar .text _ _, .scalar tag value _)] _)) => some (tag, value)
  | _ => none

theorem exists_of_soleField? {read : Except ScanFailure (Option Node)} {tag : Tag} {value : Text}
    (found : soleField? read = some (tag, value)) :
    ∃ root, read = .ok (some root) ∧ ∃ name nameStart start mark,
      root = .mapping .mapping [(.scalar .text name nameStart, .scalar tag value start)] mark := by
  unfold soleField? at found
  split at found
  next =>
    obtain ⟨rfl, rfl⟩ := Prod.mk.inj (Option.some.inj found)
    exact ⟨_, rfl, _, _, _, _, rfl⟩
  next => simp at found

end MdxCheck.Yaml
