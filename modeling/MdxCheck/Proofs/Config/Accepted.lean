import MdxCheck.Proofs.Config.Load
import MdxCheck.Proofs.Config.Messages
import MdxCheck.Proofs.Data.Number
import Mathlib.Data.Nat.Basic

/-!
Which values are configurations, which settings they give, and what is said of all others.
-/

namespace MdxCheck

namespace Value

/-- A value of the kinds that JSON has. The keys of a mapping are texts. -/
inductive IsJson : Value → Prop
  | null : IsJson .null
  | boolean (truth : Bool) : IsJson (.boolean truth)
  | integer (n : Int) : IsJson (.integer n)
  | float (x : Float) : IsJson (.float x)
  | text (text : Text) : IsJson (.text text)
  | list {items : List Value} : (∀ item ∈ items, IsJson item) → IsJson (.list items)
  | map {entries : List (Value × Value)} :
    (∀ entry ∈ entries, ∃ name, entry.1 = .text name) → (∀ entry ∈ entries, IsJson entry.2) →
    IsJson (.map entries)

/-- Whether a value is a number, which a truth value is not, and equal to a whole one. -/
def IsWhole (value : Value) (n : Int) : Prop :=
  value = .integer n ∨ ∃ x, value = .float x ∧ wholeOf? x = some n

/-- Whether a value is a list of these texts. -/
def IsTexts (value : Value) (texts : List Text) : Prop :=
  value = .list (texts.map .text)

theorem same_text_iff {key : Value} {name : Text} : key.same (.text name) = true ↔ key = .text name := by
  cases key <;> simp [same, whole?]

@[simp] theorem lookup_nil (name : Text) : lookup name [] = none :=
  rfl

@[simp] theorem lookup_cons (name other : Text) (value : Value) (entries : List (Value × Value)) :
    lookup name ((.text other, value) :: entries) =
      if other = name then some value else lookup name entries := by
  by_cases equal : other = name <;> simp [lookup, same, equal]

theorem mem_of_lookup {entries : List (Value × Value)} {name : Text} {value : Value}
    (found : lookup name entries = some value) : (.text name, value) ∈ entries := by
  obtain ⟨⟨key, value⟩, first, rfl⟩ := Option.map_eq_some_iff.mp found
  obtain rfl : key = .text name := same_text_iff.mp (by simpa using List.find?_some first)
  exact List.mem_of_find?_eq_some first

theorem IsJson.of_lookup {entries : List (Value × Value)} (json : (Value.map entries).IsJson)
    {name : Text} {value : Value} (found : lookup name entries = some value) : value.IsJson := by
  cases json with
  | map _ values => exact values _ (mem_of_lookup found)

end Value

namespace Config

open Value

theorem agree_integer_iff {value : Value} {n : Int} :
    agree value (.integer n) = true ↔ value.IsWhole n := by
  cases value with
  | float x => cases whole : wholeOf? x <;> simp [agree, same, whole?, IsWhole, whole]
  | _ => simp [agree, same, whole?, IsWhole]

theorem integer_holds_iff {value : Value} :
    Kind.integer.holds value = true ↔ ∃ n, value.IsWhole n := by
  cases value <;> simp [Kind.holds, IsWhole, Option.isSome_iff_exists]

theorem array_isMetBy_iff {value : Value} (json : value.IsJson) :
    (Requirement.kind [.array]).IsMetBy value ↔ ∃ items, value = .list items := by
  cases json <;> simp [Requirement.IsMetBy, Kind.holds]

theorem isBelow_one_iff {value : Value} {n : Int} (whole : value.IsWhole n) :
    isBelow 1 value = false ↔ 1 ≤ n := by
  rcases whole with rfl | ⟨x, rfl, whole⟩
  · simp [isBelow]
  · rw [isBelow, decide_eq_false_iff_not, lt_one_iff whole]
    omega

theorem pairwise_texts_iff (texts : List Text) :
    ((texts.map Value.text).Pairwise fun a b => agree a b = false) ↔ texts.Nodup := by
  rw [List.pairwise_map]
  simp [agree, same, List.Nodup]

theorem exists_texts_iff {Allowed : Text → Prop} {items : List Value} :
    (∀ item ∈ items, ∃ text, item = .text text ∧ Allowed text) ↔
      ∃ texts : List Text, items = texts.map .text ∧ ∀ text ∈ texts, Allowed text := by
  induction items with
  | nil => simp
  | cons item items ih =>
      rw [List.forall_mem_cons, ih]
      constructor
      · rintro ⟨⟨text, rfl, allowed⟩, texts, rfl, others⟩
        exact ⟨text :: texts, rfl, List.forall_mem_cons.mpr ⟨allowed, others⟩⟩
      · rintro ⟨texts, same, allowed⟩
        cases texts with
        | nil => simp at same
        | cons text texts =>
            obtain ⟨rfl, rfl⟩ := List.cons.inj same
            rw [List.forall_mem_cons] at allowed
            exact ⟨⟨text, rfl, allowed.1⟩, texts, rfl, allowed.2⟩

/-- Whether a value is a list of different texts, each of which is allowed. -/
def ListsTexts (Allowed : Text → Prop) (value : Value) : Prop :=
  ∃ texts, value.IsTexts texts ∧ texts.Nodup ∧ ∀ text ∈ texts, Allowed text

theorem listsTexts_iff {Allowed : Text → Prop} {requirements : List Requirement} {value : Value}
    (json : value.IsJson)
    (meets : ∀ item, (∀ requirement ∈ requirements, requirement.IsMetBy item) ↔
      ∃ text, item = .text text ∧ Allowed text) :
    ((Requirement.kind [.array]).IsMetBy value ∧ Requirement.distinctItems.IsMetBy value ∧
      ∀ items, value = .list items → ∀ item ∈ items, ∀ requirement ∈ requirements,
        requirement.IsMetBy item) ↔ ListsTexts Allowed value := by
  rw [array_isMetBy_iff json]
  constructor
  · rintro ⟨⟨items, rfl⟩, distinct, met⟩
    obtain ⟨texts, rfl, allowed⟩ :=
      exists_texts_iff.mp fun item member => (meets item).mp (met items rfl item member)
    exact ⟨texts, rfl, (pairwise_texts_iff texts).mp (distinct _ rfl), allowed⟩
  · rintro ⟨texts, rfl, distinct, allowed⟩
    refine ⟨⟨_, rfl⟩, ?_, ?_⟩
    · intro items same
      obtain rfl := list.inj same
      exact (pairwise_texts_iff texts).mpr distinct
    · intro items same item member
      obtain rfl := list.inj same
      exact (meets item).mpr (exists_texts_iff.mpr ⟨texts, rfl, allowed⟩ item member)

/-- Whether a text has what a pattern finds. -/
def IsFound (source text : Text) : Prop :=
  ∃ pattern, Pattern.ofText source = .ok pattern ∧ pattern.isFoundIn text = true

theorem extensionSource_spells : Pattern.ofText extensionSource = .ok extensionPattern := by
  decide +kernel

theorem isFound_extension {text : Text} :
    IsFound extensionSource text ↔ extensionPattern.isFoundIn text = true := by
  constructor
  · rintro ⟨pattern, spelled, found⟩
    obtain rfl := Except.ok.inj (extensionSource_spells.symm.trans spelled)
    exact found
  · exact fun found => ⟨_, extensionSource_spells, found⟩

/-- The names of the fields that a configuration may have. -/
def fieldNames : List Text :=
  ["schema_version", "extensions", "exclude_dirs", "exclude_from_freshness_paths",
    "release_date_pattern", "freshness_max_age_days", "check_images"]

/-- Whether the entries of a mapping are as the schema has them. -/
structure Fits (entries : List (Value × Value)) : Prop where
  known : ∀ entry ∈ entries, ∃ name ∈ fieldNames, entry.1 = .text name
  version : ∃ value, lookup "schema_version" entries = some value ∧ value.IsWhole 1
  extensions : ∀ value, lookup "extensions" entries = some value →
    value ≠ .list [] ∧ ListsTexts (IsFound extensionSource) value
  exclusions : ∀ value, lookup "exclude_dirs" entries = some value → ListsTexts (· ≠ []) value
  freshnessExemptions : ∀ value, lookup "exclude_from_freshness_paths" entries = some value →
    ListsTexts (· ≠ []) value
  release : ∀ value, lookup "release_date_pattern" entries = some value →
    ∃ source, value = .text source ∧ source ≠ []
  ageLimit : ∀ value, lookup "freshness_max_age_days" entries = some value →
    value = .null ∨ ∃ days, value.IsWhole days ∧ 1 ≤ days
  checksImages : ∀ value, lookup "check_images" entries = some value → ∃ checks, value = .boolean checks

/-- Whether the entries of a mapping are those of a configuration: the pattern for releases, if there is
one, spells a pattern. -/
structure Accepts (naming : Pattern.Naming) (entries : List (Value × Value)) : Prop
    extends Fits entries where
  spelled : ∀ source, lookup "release_date_pattern" entries = some (.text source) →
    ∃ pattern, Pattern.ofText source naming = .ok pattern

/-- Whether a setting is what a field spells or, if the field is not there, the usual one. -/
def GivenBy {α : Type} (entries : List (Value × Value)) (name : Text) (Spells : Value → α → Prop)
    (usual setting : α) : Prop :=
  (∀ value, lookup name entries = some value → Spells value setting) ∧
    (lookup name entries = none → setting = usual)

inductive SpellsAge : Value → Option Frontmatter.AgeLimit → Prop
  | none : SpellsAge .null none
  | whole (days : Int) : SpellsAge (.integer days) (some (.whole days))
  | fraction (days : Float) : SpellsAge (.float days) (some (.fraction days))

/-- Whether each setting of a configuration is what its field spells, or the usual one. -/
structure Reflects (naming : Pattern.Naming) (entries : List (Value × Value)) (config : Config) : Prop where
  extensions : GivenBy entries "extensions" IsTexts defaultExtensions config.extensions
  exclusions : GivenBy entries "exclude_dirs" IsTexts defaultExclusions config.exclusions
  freshnessExemptions : GivenBy entries "exclude_from_freshness_paths" IsTexts
    Frontmatter.freshnessExemptions config.freshnessExemptions
  release : GivenBy entries "release_date_pattern"
    (fun value release => value = .text release.source ∧
      Pattern.ofText release.source naming = .ok release.pattern)
    ⟨Frontmatter.releaseSource, Frontmatter.releasePattern⟩ config.release
  ageLimit : GivenBy entries "freshness_max_age_days" SpellsAge none config.ageLimit
  checksImages : GivenBy entries "check_images" (fun value checks => value = .boolean checks) true
    config.checksImages

section

variable {value : Value}

theorem integer_isMetBy_iff :
    (Requirement.kind [.integer]).IsMetBy value ↔ ∃ n, value.IsWhole n := by
  simp [Requirement.IsMetBy, integer_holds_iff]

theorem allows_version :
    (∀ requirement ∈ [.kind [.integer], .constant 1], Requirement.IsMetBy value requirement) ↔
      value.IsWhole 1 := by
  rw [List.forall_mem_cons, List.forall_mem_singleton, integer_isMetBy_iff, Requirement.IsMetBy,
    agree_integer_iff]
  exact ⟨And.right, fun whole => ⟨⟨1, whole⟩, whole⟩⟩

theorem allows_age :
    (∀ requirement ∈ [.kind [.integer, .null], .least 1], Requirement.IsMetBy value requirement) ↔
      value = .null ∨ ∃ days, value.IsWhole days ∧ 1 ≤ days := by
  have kinds : (Requirement.kind [.integer, .null]).IsMetBy value ↔
      (∃ days, value.IsWhole days) ∨ value = .null := by
    rw [← integer_holds_iff]
    cases value <;> simp [Requirement.IsMetBy, Kind.holds]
  rw [List.forall_mem_cons, List.forall_mem_singleton, kinds, Requirement.IsMetBy]
  constructor
  · rintro ⟨⟨days, whole⟩ | none, notBelow⟩
    · exact .inr ⟨days, whole, (isBelow_one_iff whole).mp notBelow⟩
    · exact .inl none
  · rintro (rfl | ⟨days, whole, least⟩)
    · exact ⟨.inr rfl, rfl⟩
    · exact ⟨.inl ⟨days, whole⟩, (isBelow_one_iff whole).mpr least⟩

theorem string_isMetBy_iff :
    (Requirement.kind [.string]).IsMetBy value ↔ ∃ text, value = .text text := by
  cases value <;> simp [Requirement.IsMetBy, Kind.holds]

theorem allows_text {other : Requirement} {Allowed : Text → Prop}
    (meets : ∀ text, other.IsMetBy (.text text) ↔ Allowed text) :
    (∀ requirement ∈ [.kind [.string], other], Requirement.IsMetBy value requirement) ↔
      ∃ text, value = .text text ∧ Allowed text := by
  rw [List.forall_mem_cons, List.forall_mem_singleton, string_isMetBy_iff]
  constructor
  · rintro ⟨⟨text, rfl⟩, met⟩
    exact ⟨text, rfl, (meets text).mp met⟩
  · rintro ⟨text, rfl, allowed⟩
    exact ⟨⟨text, rfl⟩, (meets text).mpr allowed⟩

theorem someText_isMetBy_iff (text : Text) :
    Requirement.someText.IsMetBy (.text text) ↔ text ≠ [] := by
  simp [Requirement.IsMetBy]

theorem form_isMetBy_iff (text : Text) :
    (Requirement.form extensionSource extensionPattern).IsMetBy (.text text) ↔
      IsFound extensionSource text := by
  simp [Requirement.IsMetBy, isFound_extension]

theorem boolean_isMetBy_iff :
    (Requirement.kind [.boolean]).IsMetBy value ↔ ∃ checks, value = .boolean checks := by
  cases value <;> simp [Requirement.IsMetBy, Kind.holds]

theorem allows_of_noItems {field : Field} (none : field.itemRequirements = []) :
    field.Allows value ↔ ∀ requirement ∈ field.requirements, requirement.IsMetBy value := by
  simp [Field.Allows, none]

theorem allows_texts (name : Text) (json : value.IsJson) :
    (textsField name).Allows value ↔ ListsTexts (· ≠ []) value := by
  rw [← listsTexts_iff json fun item => allows_text someText_isMetBy_iff, Field.Allows, ← and_assoc]
  refine and_congr ?_ Iff.rfl
  rw [textsField, List.forall_mem_cons, List.forall_mem_singleton]

theorem allows_suffixes (name : Text) (json : value.IsJson) :
    Field.Allows ⟨name, [.kind [.array], .someItems, .distinctItems],
        [.kind [.string], .form extensionSource extensionPattern]⟩ value ↔
      value ≠ .list [] ∧ ListsTexts (IsFound extensionSource) value := by
  rw [← listsTexts_iff json fun item => allows_text form_isMetBy_iff, Field.Allows,
    List.forall_mem_cons, List.forall_mem_cons, List.forall_mem_singleton]
  constructor
  · rintro ⟨⟨isArray, some, distinct⟩, items⟩
    exact ⟨some, isArray, distinct, items⟩
  · rintro ⟨some, isArray, distinct, items⟩
    exact ⟨⟨isArray, some, distinct⟩, items⟩

end

theorem isUnknown_iff {key : Value} :
    ¬schema.IsUnknown key ↔ ∃ name ∈ fieldNames, key = .text name := by
  have names : fieldNames = schema.fields.map Field.name := rfl
  simp [Schema.IsUnknown, names]

/-- The schema finds nothing in a mapping just if its entries are as the schema has them. -/
theorem check_eq_nil_iff_fits {entries : List (Value × Value)} (json : (Value.map entries).IsJson) :
    schema.check (.map entries) = [] ↔ Fits entries := by
  have required : schema.required = ["schema_version".toList] := rfl
  have fields : schema.fields = [⟨"schema_version", [.kind [.integer], .constant 1], []⟩,
    ⟨"extensions", [.kind [.array], .someItems, .distinctItems],
      [.kind [.string], .form extensionSource extensionPattern]⟩,
    textsField "exclude_dirs", textsField "exclude_from_freshness_paths",
    ⟨"release_date_pattern", [.kind [.string], .someText], []⟩,
    ⟨"freshness_max_age_days", [.kind [.integer, .null], .least 1], []⟩,
    ⟨"check_images", [.kind [.boolean]], []⟩] := rfl
  rw [Schema.check_eq_nil_iff, required, List.forall_mem_singleton, fields]
  simp only [isUnknown_iff, List.forall_mem_cons]
  constructor
  · rintro ⟨present, known, version, extensions, exclusions, exemptions, release, limit, images, -⟩
    obtain ⟨number, given⟩ := Option.ne_none_iff_exists'.mp present
    exact {
      known
      version := ⟨number, given, allows_version.mp ((allows_of_noItems rfl).mp (version _ given))⟩
      extensions value found := (allows_suffixes _ (json.of_lookup found)).mp (extensions value found)
      exclusions value found := (allows_texts _ (json.of_lookup found)).mp (exclusions value found)
      freshnessExemptions value found :=
        (allows_texts _ (json.of_lookup found)).mp (exemptions value found)
      release value found := (allows_text someText_isMetBy_iff).mp
        ((allows_of_noItems rfl).mp (release value found))
      ageLimit value found := allows_age.mp ((allows_of_noItems rfl).mp (limit value found))
      checksImages value found := boolean_isMetBy_iff.mp
        (List.forall_mem_singleton.mp ((allows_of_noItems rfl).mp (images value found))) }
  · intro fits
    obtain ⟨number, given, isOne⟩ := fits.version
    refine ⟨Option.ne_none_iff_exists'.mpr ⟨number, given⟩, fits.known, ?_, ?_, ?_, ?_, ?_, ?_, ?_, ?_⟩
    · intro value found
      obtain rfl := Option.some.inj (given.symm.trans found)
      exact (allows_of_noItems rfl).mpr (allows_version.mpr isOne)
    · exact fun value found =>
        (allows_suffixes _ (json.of_lookup found)).mpr (fits.extensions value found)
    · exact fun value found => (allows_texts _ (json.of_lookup found)).mpr (fits.exclusions value found)
    · exact fun value found =>
        (allows_texts _ (json.of_lookup found)).mpr (fits.freshnessExemptions value found)
    · exact fun value found => (allows_of_noItems rfl).mpr
        ((allows_text someText_isMetBy_iff).mpr (fits.release value found))
    · exact fun value found => (allows_of_noItems rfl).mpr (allows_age.mpr (fits.ageLimit value found))
    · exact fun value found => (allows_of_noItems rfl).mpr
        (List.forall_mem_singleton.mpr (boolean_isMetBy_iff.mpr (fits.checksImages value found)))
    · simp

theorem texts?_map (texts : List Text) : texts? (.list (texts.map .text)) = some texts := by
  induction texts with
  | nil => rfl
  | cons text texts ih =>
      simp only [texts?, List.map_cons, List.mapM_cons] at ih ⊢
      rw [ih]
      rfl

theorem givenBy_texts {entries : List (Value × Value)} {name : Text} (usual : List Text)
    (lists : ∀ value, lookup name entries = some value → ∃ texts, value.IsTexts texts) :
    GivenBy entries name IsTexts usual (((lookup name entries).bind texts?).getD usual) := by
  refine ⟨fun value found => ?_, fun missing => by rw [missing]; rfl⟩
  obtain ⟨texts, rfl⟩ := lists value found
  rw [found, Option.bind_some, texts?_map]
  rfl

theorem ListsTexts.exists_isTexts {Allowed : Text → Prop} {value : Value}
    (lists : ListsTexts Allowed value) : ∃ texts, value.IsTexts texts :=
  lists.imp fun _ parts => parts.1

theorem givenBy_release {entries : List (Value × Value)} {naming : Pattern.Naming}
    {selector? : Option Selector}
    (isText : ∀ value, lookup "release_date_pattern" entries = some value → ∃ source, value = .text source)
    (read : release? entries naming = .ok selector?) (usual : Selector) :
    GivenBy entries "release_date_pattern"
      (fun value release => value = .text release.source ∧
        Pattern.ofText release.source naming = .ok release.pattern) usual (selector?.getD usual) := by
  refine ⟨fun value found => ?_, fun missing => ?_⟩
  · obtain ⟨source, rfl⟩ := isText value found
    rw [release?, found] at read
    simp only at read
    split at read
    · next pattern spelled =>
        obtain rfl := Except.ok.inj read
        exact ⟨rfl, spelled⟩
    · contradiction
    · contradiction
  · rw [release?, missing] at read
    obtain rfl := Except.ok.inj read
    rfl

/-- A mapping that is as the schema has it gives each setting that a field spells, and the usual ones. -/
theorem reflects_ofEntries {entries : List (Value × Value)} (fits : Fits entries)
    {naming : Pattern.Naming} {selector? : Option Selector}
    (read : release? entries naming = .ok selector?) :
    (ofEntries entries selector?).Reflects naming entries where
  extensions := givenBy_texts _ fun value found => (fits.extensions value found).2.exists_isTexts
  exclusions := givenBy_texts _ fun value found => (fits.exclusions value found).exists_isTexts
  freshnessExemptions :=
    givenBy_texts _ fun value found => (fits.freshnessExemptions value found).exists_isTexts
  release := givenBy_release (fun value found => (fits.release value found).imp fun _ => And.left) read _
  ageLimit := by
    refine ⟨fun value found => ?_, fun missing => by simp only [ofEntries, missing]; rfl⟩
    simp only [ofEntries, found, Option.bind_some]
    rcases fits.ageLimit value found with rfl | ⟨days, rfl | ⟨x, rfl, -⟩, -⟩
    · exact .none
    · exact .whole days
    · exact .fraction x
  checksImages := by
    refine ⟨fun value found => ?_, fun missing => by simp only [ofEntries, missing]⟩
    obtain ⟨checks, rfl⟩ := fits.checksImages value found
    simp only [ofEntries, found]

theorem release?_eq_ok_iff {entries : List (Value × Value)} {naming : Pattern.Naming} :
    (∃ selector?, release? entries naming = .ok selector?) ↔
      ∀ source, lookup "release_date_pattern" entries = some (.text source) →
        ∃ pattern, Pattern.ofText source naming = .ok pattern := by
  constructor
  · rintro ⟨selector?, read⟩ source found
    rw [release?, found] at read
    simp only at read
    split at read
    · next pattern spelled => exact ⟨pattern, spelled⟩
    · contradiction
    · contradiction
  · intro spelled
    unfold release?
    split
    · next source found =>
        obtain ⟨pattern, spelled⟩ := spelled source found
        rw [spelled]
        exact ⟨_, rfl⟩
    · exact ⟨_, rfl⟩

variable {value : Value} {naming : Pattern.Naming}

theorem ofValue_of_sound (sound : schema.check value = []) :
    ∃ entries, value = .map entries ∧
      ofValue value naming = (release? entries naming).map (ofEntries entries) := by
  cases value with
  | map entries =>
      refine ⟨entries, rfl, ?_⟩
      simp only [ofValue, sound]
      cases release? entries naming <;> rfl
  | _ => simp [Schema.check] at sound

theorem ofValue_of_problems (problems : schema.check value ≠ []) :
    ofValue value naming = if (schema.check value).all (·.violation.isWritable) then
      .error (.fault (.problems (schema.check value))) else .error (.tooLong ⟨⟩) := by
  unfold ofValue
  split
  · next sound => exact absurd sound problems
  · rfl

theorem ofValue_eq_ok_iff {config : Config} :
    ofValue value naming = .ok config ↔ schema.check value = [] ∧
      ∃ entries selector?, value = .map entries ∧ release? entries naming = .ok selector? ∧
        ofEntries entries selector? = config := by
  by_cases sound : schema.check value = []
  · obtain ⟨entries, rfl, made⟩ := @ofValue_of_sound _ naming sound
    rw [made]
    constructor
    · intro done
      obtain ⟨selector?, read, same⟩ := exists_of_map_ok done
      exact ⟨sound, entries, selector?, rfl, read, same⟩
    · rintro ⟨-, _, selector?, same, read, rfl⟩
      obtain rfl := map.inj same
      rw [read]
      rfl
  · rw [ofValue_of_problems sound]
    constructor
    · intro done
      split at done <;> contradiction
    · exact fun parts => absurd parts.1 sound

/-- Whether all numbers of a value can be written out, and the text for its pattern of releases spells
one or has a fault. -/
structure Countable (naming : Pattern.Naming) (value : Value) : Prop where
  digits : value.isWritable = true
  judged : ∀ entries source, value = .map entries →
    lookup "release_date_pattern" entries = some (.text source) → IsJudged source naming

/-- Whether a message has an entry for each problem that the schema finds in a value, and no entry
twice. -/
def Reports (message : Text) (value : Value) : Prop :=
  ∃ problems : List Problem,
    message = "Invalid configuration: " ++ Text.join "; ".toList (problems.map Problem.message) ∧
    (∀ problem, problem ∈ problems ↔ schema.Finds value problem) ∧
    (problems.map Problem.message).Nodup

theorem ok_or_fault (countable : Countable naming value) :
    (∃ config, ofValue value naming = .ok config) ∨
      ∃ fault, ofValue value naming = .error (.fault fault) ∧
        ((∃ problem, schema.Finds value problem) → Reports fault.message value) := by
  by_cases sound : schema.check value = []
  · obtain ⟨entries, rfl, made⟩ := @ofValue_of_sound _ naming sound
    rw [made]
    rcases release_settled fun source => countable.judged entries source rfl with
      ⟨selector?, read⟩ | ⟨fault, failed⟩
    · exact .inl ⟨_, by rw [read]; rfl⟩
    · refine .inr ⟨fault, by rw [failed]; rfl, fun ⟨problem, found⟩ => ?_⟩
      rw [← Schema.mem_check_iff, sound] at found
      simp at found
  · have shown := schema.check_writable countable.digits
    rw [ofValue_of_problems sound, if_pos (List.all_eq_true.mpr shown)]
    exact .inr ⟨_, rfl, fun _ =>
      ⟨_, rfl, fun _ => Schema.mem_check_iff, Schema.messages_nodup schema_isApart value⟩⟩

/-- Whatever names characters have, a value is read as a configuration just if it is a mapping with the
entries of one, and then each setting is what its field spells or the usual one. All other values have a
fault, which reports all that the schema finds, if their numbers can be written out and nothing but
faults is in the way of their patterns. -/
theorem ofValue_exact (json : value.IsJson) :
    ((∃ config, ofValue value naming = .ok config) ↔
      ∃ entries, value = .map entries ∧ Accepts naming entries) ∧
    (∀ config, ofValue value naming = .ok config →
      ∃ entries, value = .map entries ∧ config.Reflects naming entries) ∧
    (Countable naming value → (∃ config, ofValue value naming = .ok config) ∨
      ∃ fault, ofValue value naming = .error (.fault fault) ∧
        ((∃ problem, schema.Finds value problem) → Reports fault.message value)) := by
  refine ⟨⟨?_, ?_⟩, ?_, ok_or_fault⟩
  · rintro ⟨config, made⟩
    obtain ⟨sound, entries, selector?, rfl, read, -⟩ := ofValue_eq_ok_iff.mp made
    exact ⟨entries, rfl, (check_eq_nil_iff_fits json).mp sound, release?_eq_ok_iff.mp ⟨selector?, read⟩⟩
  · rintro ⟨entries, rfl, accepts⟩
    obtain ⟨selector?, read⟩ := release?_eq_ok_iff.mpr accepts.spelled
    have sound := (check_eq_nil_iff_fits json).mpr accepts.toFits
    exact ⟨_, ofValue_eq_ok_iff.mpr ⟨sound, entries, selector?, rfl, read, rfl⟩⟩
  · intro config made
    obtain ⟨sound, entries, selector?, rfl, read, rfl⟩ := ofValue_eq_ok_iff.mp made
    exact ⟨entries, rfl, reflects_ofEntries ((check_eq_nil_iff_fits json).mp sound) read⟩

/-- A mapping that has a version and a pattern for releases, and nothing else. -/
def released (version : Value) (source : Text) : List (Value × Value) :=
  [(.text "schema_version", version), (.text "release_date_pattern", .text source)]

section

variable {version : Value} {source : Text}

theorem isJson_released (json : version.IsJson) : (Value.map (released version source)).IsJson :=
  .map (by simp [released]) (by simp [released, json, IsJson.text])

theorem lookup_released :
    lookup "release_date_pattern" (released version source) = some (.text source) := by
  simp [released]

theorem fits_released (whole : version.IsWhole 1) (some : source ≠ []) :
    Fits (released version source) where
  known := by simp [released, fieldNames]
  version := ⟨version, by simp [released], whole⟩
  extensions := by simp [released]
  exclusions := by simp [released]
  freshnessExemptions := by simp [released]
  release := by simpa [released] using some
  ageLimit := by simp [released]
  checksImages := by simp [released]

end

/-- The names of characters, if only the bullet has one. -/
def bullets : Pattern.Naming :=
  .ofLines ["2022;BULLET"]

/-- A floating-point number may stand for a version or an age if it is whole, and a pattern may name a
character. A half is no age, and lower than the least one. -/
theorem ofValue_exact_half :
    let entries := released (.float 1) "\\N\x7bBULLET\x7d"
    let aged := entries ++ [(.text "freshness_max_age_days", .float 0.5)]
    (Value.map entries).IsJson ∧ (Value.float 1).IsWhole 1 ∧
      (∃ config, ofValue (.map entries) bullets = .ok config ∧
        config.release.pattern = .row [.one (.single '•')]) ∧
      (Value.map aged).IsJson ∧ Countable bullets (.map aged) ∧ ¬Accepts bullets aged ∧
      ∃ fault, ofValue (.map aged) bullets = .error (.fault fault) ∧
        Reports fault.message (.map aged) ∧
        schema.Finds (.map aged)
          ⟨["freshness_max_age_days"], .kind (.float 0.5) [.integer, .null]⟩ ∧
        schema.Finds (.map aged) ⟨["freshness_max_age_days"], .tooLow (.float 0.5) 1⟩ := by
  intro entries aged
  have spelled : Pattern.ofText "\\N\x7bBULLET\x7d" bullets = .ok (.row [.one (.single '•')]) := by
    decide +kernel
  have one : (Value.float 1).IsWhole 1 := .inr ⟨1, rfl, by decide +kernel⟩
  have half : wholeOf? 0.5 = none := by decide +kernel
  have json : (Value.map entries).IsJson := isJson_released (.float 1)
  have agedJson : (Value.map aged).IsJson :=
    .map (by simp [aged, entries, released])
      (by simp [aged, entries, released, IsJson.float, IsJson.text])
  have limit : lookup "freshness_max_age_days" aged = some (.float 0.5) := by
    simp [aged, entries, released]
  have pattern : lookup "release_date_pattern" aged = some (.text "\\N\x7bBULLET\x7d") := by
    simp [aged, entries, released]
  have settings : ∃ config, ofValue (.map entries) bullets = .ok config ∧
      config.release.pattern = .row [.one (.single '•')] := by
    have accepts : Accepts bullets entries := ⟨fits_released one (by decide), fun source found => by
      obtain rfl := text.inj (Option.some.inj (lookup_released.symm.trans found))
      exact ⟨_, spelled⟩⟩
    obtain ⟨accepted, reflected, -⟩ := @ofValue_exact _ bullets json
    obtain ⟨config, made⟩ := accepted.mpr ⟨entries, rfl, accepts⟩
    obtain ⟨others, same, reflects⟩ := reflected config made
    obtain rfl := map.inj same
    obtain ⟨given, read⟩ := reflects.release.1 _ lookup_released
    rw [← text.inj given, spelled] at read
    exact ⟨config, made, (Except.ok.inj read).symm⟩
  have asks {requirement : Requirement} (asked : requirement ∈ [.kind [.integer, .null], .least 1]) :
      schema.Asks aged ["freshness_max_age_days"] (.float 0.5) requirement :=
    @Schema.Asks.field schema aged
      ⟨"freshness_max_age_days", [.kind [.integer, .null], .least 1], []⟩ _ _ (by simp [schema]) limit
      asked
  have notWhole : ¬(Requirement.kind [.integer, .null]).IsMetBy (.float 0.5) := by
    simp [Requirement.IsMetBy, Kind.holds, half]
  have isLow : ¬(Requirement.least 1).IsMetBy (.float 0.5) := by
    rw [Requirement.IsMetBy]
    decide +kernel
  have countable : Countable bullets (.map aged) := by
    refine ⟨by decide +kernel, fun others source same found failure failed => ?_⟩
    obtain rfl := map.inj same
    obtain rfl := text.inj (Option.some.inj (pattern.symm.trans found))
    exact absurd (spelled.symm.trans failed) (by simp)
  obtain ⟨accepted, -, told⟩ := @ofValue_exact _ bullets agedJson
  have refused : ¬Accepts bullets aged := by
    intro accepts
    rcases accepts.ageLimit _ limit with same | ⟨days, whole, -⟩
    · simp at same
    · simp [IsWhole, half] at whole
  refine ⟨json, one, settings, agedJson, countable, refused, ?_⟩
  rcases told countable with made | ⟨fault, failed, reports⟩
  · obtain ⟨others, same, accepts⟩ := accepted.mp made
    rw [← map.inj same] at accepts
    exact absurd accepts refused
  · have tooLow := Schema.Finds.unmet (asks (by simp)) isLow
    exact ⟨fault, failed, reports ⟨_, tooLow⟩, .unmet (asks (by simp)) notWhole, tooLow⟩

/-- A pattern with more repetitions than can be counted: the value is no configuration, and it has no
fault. -/
theorem unreported_of_hugeCount :
    ∃ value : Value, value = .map [(.text "schema_version", .integer 1),
        (.text "release_date_pattern", .text "a\x7b4294967295\x7d")] ∧ value.IsJson ∧
      (∀ config, ofValue value ≠ .ok config) ∧ ∀ fault, ofValue value ≠ .error (.fault fault) := by
  refine ⟨_, rfl, isJson_released (.integer 1), ?_⟩
  have huge : Pattern.ofText "a\x7b4294967295\x7d" = .error .hugeCount := by decide +kernel
  have fits := @fits_released (.integer 1) "a\x7b4294967295\x7d" (.inl rfl) (by decide)
  have sound := (check_eq_nil_iff_fits (isJson_released (.integer 1))).mpr fits
  obtain ⟨others, same, made⟩ := @ofValue_of_sound _ .none sound
  obtain rfl := map.inj same
  have read : release? (released (.integer 1) "a\x7b4294967295\x7d") .none =
      .error (@Failure.hugeCount .hugeCount) := by
    rw [release?, lookup_released]
    simp only
    rw [huge]
  rw [read] at made
  exact ⟨fun config other => absurd (made.symm.trans other) (by simp [Except.map]),
    fun fault other => absurd (made.symm.trans other) (by simp [Except.map])⟩

end Config

end MdxCheck
