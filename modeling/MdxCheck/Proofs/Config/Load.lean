import MdxCheck.Config.Load
import MdxCheck.Proofs.Data.Result
import MdxCheck.Proofs.Yaml.Traversal

/-!
Which files are read as a configuration or refused as none, so that no failure of their reading is left
over.
-/

namespace MdxCheck

namespace Yaml

def Failure.HasPlace : Failure → Prop
  | .character _ _ => True
  | .error _ => True
  | _ => False

def Tag.Spells (text : Text) : Tag → Prop
  | .boolean => ∃ truth, Tag.truthWords.lookup (text.map Char.toLower) = some truth
  | .integer => ∃ value, integerValue text = .ok value
  | .float => ∃ value, floatValue text = .ok value
  | .timestamp =>
    ∃ timestamp,
      Timestamp.ofText? (if text.getLast? = some '\n' then text.dropLast else text) =
        some timestamp ∧
      ∃ day, timestamp.resolve = .ok day
  | _ => True

namespace Node

/-- Whether a node, read as a scalar, spells a value of its type. No default value of a mapping is read
as a timestamp, and no collection is one that encloses the node. -/
structure Valued (node : Node) : Prop where
  form : ∀ text, node.scalarText = .ok text → node.tag.Spells text
  noTimestamp : ∀ text, node.scalarText = .ok text → node.isMapping = true → node.tag ≠ .timestamp
  apart : ∀ isMap start, node ≠ .enclosing isMap start

theorem Valued.of_scalar {tag : Tag} {text : Text} {start : Mark} (spells : tag.Spells text) :
    (scalar tag text start).Valued where
  form := by
    intro read same
    obtain rfl : text = read := by simpa [scalarText, textWithin] using same
    exact spells
  noTimestamp := by simp [isMapping]
  apart := by simp

theorem Valued.withText {node : Node} (valued : node.Valued) : (node.withTag .text).Valued := by
  cases node with
  | scalar tag text start => exact .of_scalar trivial
  | sequence tag items start => exact ⟨fun _ _ => trivial, by simp [withTag, isMapping], by simp [withTag]⟩
  | mapping tag entries start =>
      exact ⟨fun _ _ => trivial, by simp [withTag, Node.tag], by simp [withTag]⟩
  | enclosing isMap start => exact valued

theorem Throughout.self {Good : Node → Prop} {root : Node} (throughout : Throughout Good root) :
    Throughout (Throughout Good) root :=
  fun _ within _ deeper => throughout _ (deeper.trans within)

mutual

theorem textWithin_ends (outer : List Mark) (node : Node) (valued : Throughout Valued node) :
    node.textWithin outer ≠ .error (.misuse .endlessDefault) := by
  cases node with
  | scalar tag text start => simp [textWithin]
  | sequence tag items start => simp [textWithin]
  | mapping tag entries start =>
      rw [textWithin]
      exact defaultText_ends outer start entries valued.entry
  | enclosing isMap start => exact absurd rfl (valued.here.apart isMap start)

theorem defaultText_ends (outer : List Mark) (start : Mark) (entries : List (Node × Node))
    (valued : ∀ entry ∈ entries, GoodEntry Valued entry) :
    defaultText outer start entries ≠ .error (.misuse .endlessDefault) := by
  cases entries with
  | nil => simp [defaultText]
  | cons entry entries =>
      obtain ⟨key, value⟩ := entry
      rw [defaultText]
      split
      · exact textWithin_ends (start :: outer) value (valued (key, value) (by simp)).2
      · exact defaultText_ends outer start entries fun other member => valued other (by simp [member])

end

theorem valued_settles : Settles (Throughout Valued) Failure.HasPlace where
  error _ := trivial
  retagged valued := valued.withText valued.here.withText
  scalarValue {node} valued := by
    have here := valued.here
    refine yields_scalarValue (fun _ => trivial) (textWithin_ends [] node valued)
      (fun text read => ?_) here.noTimestamp
    have spells := here.form text read
    cases type : node.tag with
    | boolean =>
        have spells : Tag.boolean.Spells text := type ▸ spells
        exact spells
    | integer =>
        obtain ⟨value, known⟩ : Tag.integer.Spells text := type ▸ spells
        rw [Tag.Reads, known]
        trivial
    | float =>
        obtain ⟨value, known⟩ : Tag.float.Spells text := type ▸ spells
        rw [Tag.Reads, known]
        trivial
    | timestamp =>
        obtain ⟨timestamp, known, day, resolved⟩ : Tag.timestamp.Spells text := type ▸ spells
        refine ⟨timestamp, known, fun fault failed => ?_⟩
        rw [resolved] at failed
        contradiction
    | _ => trivial

end Node

end Yaml

namespace Value

theorem isWritable_of_mem {items : List Value} (writable : areWritable items = true) {item : Value}
    (member : item ∈ items) : item.isWritable = true := by
  induction items with
  | nil => simp at member
  | cons first rest ih =>
      simp only [areWritable, Bool.and_eq_true] at writable
      rcases List.mem_cons.mp member with rfl | later
      · exact writable.1
      · exact ih writable.2 later

theorem isWritable_of_mem_entries {entries : List (Value × Value)}
    (writable : areEntriesWritable entries = true) {entry : Value × Value}
    (member : entry ∈ entries) : entry.1.isWritable = true ∧ entry.2.isWritable = true := by
  induction entries with
  | nil => simp at member
  | cons first rest ih =>
      simp only [areEntriesWritable, Bool.and_eq_true] at writable
      rcases List.mem_cons.mp member with rfl | later
      · exact writable.1
      · exact ih writable.2 later

theorem isWritable_of_lookup {entries : List (Value × Value)}
    (writable : areEntriesWritable entries = true) {name : Text} {value : Value}
    (found : lookup name entries = some value) : value.isWritable = true := by
  obtain ⟨entry, first, rfl⟩ := Option.map_eq_some_iff.mp found
  exact (isWritable_of_mem_entries writable (List.mem_of_find?_eq_some first)).2

end Value

namespace Config

theorem Requirement.check_writable {value : Value} (writable : value.isWritable = true)
    {requirement : Requirement} {violation : Violation}
    (violated : requirement.check value = some violation) : violation.isWritable = true := by
  cases requirement with
  | constant expected =>
      simp only [check] at violated
      split at violated
      · simp at violated
      · obtain rfl := Option.some.inj violated
        rfl
  | kind allowed =>
      simp only [check] at violated
      split at violated
      · simp at violated
      · obtain rfl := Option.some.inj violated
        exact writable
  | least bound =>
      simp only [check] at violated
      split at violated
      · obtain rfl := Option.some.inj violated
        exact writable
      · simp at violated
  | someText =>
      simp only [check] at violated
      split at violated
      · obtain rfl := Option.some.inj violated
        exact writable
      · simp at violated
  | someItems =>
      simp only [check] at violated
      split at violated
      · obtain rfl := Option.some.inj violated
        exact writable
      · simp at violated
  | form source pattern =>
      simp only [check] at violated
      split at violated
      · split at violated
        · simp at violated
        · obtain rfl := Option.some.inj violated
          exact writable
      · simp at violated
  | distinctItems =>
      simp only [check] at violated
      split at violated
      · split at violated
        · simp at violated
        · obtain rfl := Option.some.inj violated
          exact writable
      · simp at violated

theorem violations_writable {value : Value} (writable : value.isWritable = true)
    (way : List Text) (requirements : List Requirement) :
    ∀ problem ∈ violations way value requirements, problem.violation.isWritable = true := by
  intro problem member
  obtain ⟨requirement, -, made⟩ := List.mem_filterMap.mp member
  obtain ⟨violation, violated, rfl⟩ := Option.map_eq_some_iff.mp made
  exact requirement.check_writable writable violated

theorem Field.check_writable (field : Field) {value : Value} (writable : value.isWritable = true) :
    ∀ problem ∈ field.check value, problem.violation.isWritable = true := by
  intro problem member
  rcases List.mem_append.mp member with own | ofItem
  · exact violations_writable writable _ _ problem own
  · split at ofItem
    · next items =>
        obtain ⟨⟨item, index⟩, listed, found⟩ := List.mem_flatMap.mp ofItem
        have member := List.fst_mem_of_mem_zipIdx listed
        exact violations_writable (Value.isWritable_of_mem writable member) _ _ problem found
    · simp at ofItem

theorem Schema.unknownKeys_writable (schema : Schema) {entries : List (Value × Value)}
    (writable : Value.areEntriesWritable entries = true) :
    ∀ key ∈ schema.unknownKeys entries, key.isWritable = true := by
  intro key member
  have listed := (List.mem_filter.mp (List.mem_mergeSort.mp member)).1
  obtain ⟨entry, inside, rfl⟩ := List.mem_map.mp listed
  exact (Value.isWritable_of_mem_entries writable inside).1

/-- What is wrong with a value can be said if the value can be written out. -/
theorem Schema.check_writable (schema : Schema) {value : Value}
    (writable : value.isWritable = true) :
    ∀ problem ∈ schema.check value, problem.violation.isWritable = true := by
  intro problem member
  unfold Schema.check at member
  split at member
  case h_2 =>
    obtain rfl := List.mem_singleton.mp member
    exact writable
  case h_1 entries =>
    rcases List.mem_append.mp (List.mem_mergeSort.mp member) with atRoot | inside
    · obtain ⟨violation, found, rfl⟩ := List.mem_map.mp atRoot
      rcases List.mem_append.mp found with missing | unknown
      · obtain ⟨name, -, rfl⟩ := List.mem_map.mp missing
        rfl
      · split at unknown
        · simp at unknown
        · obtain rfl := List.mem_singleton.mp unknown
          exact List.all_eq_true.mpr (schema.unknownKeys_writable writable)
    · obtain ⟨field, -, found⟩ := List.mem_flatMap.mp inside
      split at found
      · next value known =>
          exact field.check_writable (Value.isWritable_of_lookup writable known) problem found
      · simp at found

theorem Schema.check_ne_nil {schema : Schema} {entries : List (Value × Value)} {field : Field}
    {value : Value} (listed : field ∈ schema.fields)
    (known : Value.lookup field.name entries = some value) (faulty : field.check value ≠ []) :
    schema.check (.map entries) ≠ [] := by
  obtain ⟨problem, found⟩ := List.exists_mem_of_ne_nil _ faulty
  apply List.ne_nil_of_mem (a := problem)
  refine List.mem_mergeSort.mpr (List.mem_append_right _ (List.mem_flatMap.mpr ⟨field, listed, ?_⟩))
  rw [known]
  exact found

theorem check_of_ofMapping {entries : List (Value × Value)} {naming : Pattern.Naming} {config : Config}
    (made : ofMapping entries naming = .ok config) : schema.check (.map entries) = [] := by
  cases problems : schema.check (.map entries) with
  | nil => rfl
  | cons problem others =>
      have made : ofValue (.map entries) naming = .ok config := ok_of_mapError made
      simp only [ofValue, problems] at made
      split at made
      · contradiction
      · contradiction

/-- Whether a text spells a pattern or has a fault as one. All others have a count of repetitions that is
too high or has too many digits, or flags that are opposed. -/
def IsJudged (source : Text) (naming : Pattern.Naming) : Prop :=
  ∀ failure, Pattern.ofText source naming = .error failure → failure.isFault = true

/-- A text whose reading as a configuration fails only as is foreseen: each escape for a character is one,
each scalar spells a value of its type, the numbers can be written out, and the text for the pattern of
releases spells one or has a fault. -/
structure Foreseen (source : Text) (naming : Pattern.Naming) : Prop where
  codes : ∀ code, Yaml.document? source ≠ .error (.badCode code)
  values : ∀ root, Yaml.document? source = .ok (some root) →
    Yaml.Node.Throughout Yaml.Node.Valued root
  digits : ∀ value, Yaml.load source = .ok value → value.isWritable = true
  judged : ∀ entries pattern, Yaml.load source = .ok (.map entries) →
    Value.lookup "release_date_pattern" entries = some (.text pattern) → IsJudged pattern naming

theorem Foreseen.load {source : Text} {naming : Pattern.Naming} (foreseen : Foreseen source naming) :
    Yaml.Yields Yaml.Failure.HasPlace (fun _ => True) (Yaml.load source) :=
  Yaml.yields_load Yaml.Node.valued_settles (fun _ _ => trivial)
    (fun code read => absurd read (foreseen.codes code))
    fun root read => (foreseen.values root read).self

/-- A file of one setting, which is no pattern, is foreseen if its value is spelled as its type asks. -/
theorem Foreseen.of_soleField {source : Text} {tag : Yaml.Tag} {text : Text} {naming : Pattern.Naming}
    (form : Yaml.soleField? (Yaml.document? source) = some (tag, text)) (spells : tag.Spells text)
    (digits : ∀ value, Yaml.load source = .ok value → value.isWritable = true)
    (noPattern : ∀ entries, Yaml.load source = .ok (.map entries) →
      Value.lookup "release_date_pattern" entries = none) : Foreseen source naming := by
  obtain ⟨root, read, name, nameStart, start, mark, rfl⟩ := Yaml.exists_of_soleField? form
  refine ⟨fun code failed => ?_, fun other again => ?_, digits, fun entries pattern loaded found => ?_⟩
  · rw [read] at failed
    contradiction
  · rw [read] at again
    obtain rfl := Option.some.inj (Except.ok.inj again)
    refine .of_mapping ⟨fun _ _ => trivial, by simp [Yaml.Node.tag], by simp⟩ fun entry member => ?_
    obtain rfl := List.mem_singleton.mp member
    exact ⟨.of_scalar (.of_scalar trivial), .of_scalar (.of_scalar spells)⟩
  · rw [noPattern entries loaded] at found
    contradiction

/-- Whether the reading of a file has a value or a fault to tell. -/
def Settled {α : Type} (result : Except LoadFailure α) : Prop :=
  (∃ value, result = .ok value) ∨ ∃ fault, result = .error (.fault fault)

theorem Settled.bind {α β : Type} {result : Except LoadFailure α} {next : α → Except LoadFailure β}
    (settled : Settled result) (step : ∀ value, result = .ok value → Settled (next value)) :
    Settled (result >>= next) := by
  rcases settled with ⟨value, made⟩ | ⟨fault, failed⟩
  · rw [made]
    exact step value made
  · exact .inr ⟨fault, by rw [failed]; rfl⟩

theorem release_settled {entries : List (Value × Value)} {naming : Pattern.Naming}
    (judged : ∀ pattern, Value.lookup "release_date_pattern" entries = some (.text pattern) →
      IsJudged pattern naming) :
    (∃ selector?, release? entries naming = .ok selector?) ∨
      ∃ fault, release? entries naming = .error (.fault fault) := by
  unfold release?
  split
  · next source found =>
      split
      · exact .inl ⟨_, rfl⟩
      · exact .inr ⟨_, rfl⟩
      · next failure notFault failed =>
          cases failure with
          | fault fault position => exact absurd rfl (notFault fault position)
          | _ => exact absurd (judged source found _ failed) (by simp [Pattern.Failure.isFault])
  · exact .inl ⟨_, rfl⟩

theorem ofMapping_settled {entries : List (Value × Value)} {naming : Pattern.Naming}
    (digits : (Value.map entries).isWritable = true)
    (judged : ∀ pattern, Value.lookup "release_date_pattern" entries = some (.text pattern) →
      IsJudged pattern naming) : Settled (ofMapping entries naming) := by
  have shown := schema.check_writable digits
  unfold ofMapping ofValue
  cases problems : schema.check (.map entries) with
  | nil =>
      rcases release_settled judged with ⟨selector?, made⟩ | ⟨fault, failed⟩
      · exact .inl ⟨ofEntries entries selector?, by simp only [made]; rfl⟩
      · exact .inr ⟨.invalid fault, by simp only [failed]; rfl⟩
  | cons problem others =>
      rw [problems] at shown
      refine .inr ⟨.invalid (.problems (problem :: others)), ?_⟩
      simp only [List.all_eq_true.mpr shown, if_true]
      rfl

section

variable {files : Files} {path : Path} {naming : Pattern.Naming}

theorem mappingIn_of_read {bytes : List Nat} {source : Text} (read : files.read path = .ok bytes)
    (decoded : Text.decodeUtf8 bytes = .ok source) :
    mappingIn files path =
      match Yaml.load (Files.plainBreaks source) with
      | .ok (.map entries) => .ok entries
      | .ok _ => .error (.fault (.notMapping path))
      | .error failure => .error (ofYamlFailure path (Files.plainBreaks source) failure) := by
  simp only [mappingIn, read, decoded, mapError_ok, bind, Except.bind]
  cases Yaml.load (Files.plainBreaks source) with
  | error failure => rfl
  | ok value => cases value <;> rfl

variable (foreseen : ∀ bytes, files.read path = .ok bytes →
  ∃ source, Text.decodeUtf8 bytes = .ok source ∧ Foreseen (Files.plainBreaks source) naming)

include foreseen

theorem mappingIn_settled : Settled (mappingIn files path) := by
  cases read : files.read path with
  | error error => exact .inr ⟨.notFound path, by rw [mappingIn, read]⟩
  | ok bytes =>
      obtain ⟨source, decoded, foreseen⟩ := foreseen bytes read
      have yields := foreseen.load
      rw [mappingIn_of_read read decoded]
      split
      · exact .inl ⟨_, rfl⟩
      · exact .inr ⟨_, rfl⟩
      · next failure failed =>
          rw [failed] at yields
          match failure, yields with
          | .character _ _, _ => exact .inr ⟨_, rfl⟩
          | .error _, _ => exact .inr ⟨_, rfl⟩

theorem ofMapping_of_foreseen {entries : List (Value × Value)}
    (mapping : mappingIn files path = .ok entries) : Settled (ofMapping entries naming) := by
  cases read : files.read path with
  | error error =>
      rw [mappingIn, read] at mapping
      contradiction
  | ok bytes =>
      obtain ⟨source, decoded, foreseen⟩ := foreseen bytes read
      rw [mappingIn_of_read read decoded] at mapping
      split at mapping
      · next others loaded =>
          obtain rfl := Except.ok.inj mapping
          exact ofMapping_settled (foreseen.digits _ loaded)
            fun pattern => foreseen.judged _ pattern loaded
      · contradiction
      · contradiction

end

theorem load_settled {files : Files} {given : Option Path} {naming : Pattern.Naming}
    (foreseen : ∀ path bytes, pathToLoad? files given = some path → files.read path = .ok bytes →
      ∃ source, Text.decodeUtf8 bytes = .ok source ∧ Foreseen (Files.plainBreaks source) naming) :
    Settled (load files given naming) := by
  unfold load
  cases chosen : pathToLoad? files given with
  | none => exact .inl ⟨_, rfl⟩
  | some path =>
      have foreseen := fun bytes => foreseen path bytes chosen
      exact (mappingIn_settled foreseen).bind fun _ => ofMapping_of_foreseen foreseen

end Config

end MdxCheck
