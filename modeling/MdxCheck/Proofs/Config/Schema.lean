import MdxCheck.Config.Basic

/-!
What a schema asks of a value, and that a check finds exactly what the value lacks of it.
-/

namespace MdxCheck.Config

namespace Requirement

/-- Whether a value is as a requirement has it. What concerns only texts, lists or numbers is so of all
other values. -/
def IsMetBy (value : Value) : Requirement → Prop
  | kind allowed => ∃ kind ∈ allowed, kind.holds value = true
  | constant expected => agree value (.integer expected) = true
  | form _ pattern => ∀ text, value = .text text → pattern.isFoundIn text = true
  | someText => value ≠ .text []
  | someItems => value ≠ .list []
  | distinctItems => ∀ items, value = .list items → items.Pairwise fun a b => agree a b = false
  | least bound => isBelow bound value = false

/-- What is said of a value that is not as a requirement has it. -/
def violation (value : Value) : Requirement → Violation
  | kind allowed => .kind value allowed
  | constant expected => .constant expected
  | form source _ => .form value source
  | someText | someItems => .empty value
  | distinctItems => .repeatedItems value
  | least bound => .tooLow value bound

end Requirement

theorem areDistinct_iff (items : List Value) :
    areDistinct items = true ↔ items.Pairwise fun a b => agree a b = false := by
  induction items with
  | nil => simp [areDistinct]
  | cons item items ih => simp [areDistinct, ih]

theorem Requirement.check_eq_some_iff {value : Value} {requirement : Requirement}
    {violation : Violation} :
    requirement.check value = some violation ↔
      ¬requirement.IsMetBy value ∧ requirement.violation value = violation := by
  cases requirement with
  | kind allowed => simp [check, IsMetBy, Requirement.violation]
  | constant expected => simp [check, IsMetBy, Requirement.violation]
  | least bound => simp [check, IsMetBy, Requirement.violation]
  | form source pattern => cases value <;> simp [check, IsMetBy, Requirement.violation]
  | someText =>
      simp only [check, IsMetBy, Requirement.violation]
      split <;> simp_all
  | someItems =>
      simp only [check, IsMetBy, Requirement.violation]
      split <;> simp_all
  | distinctItems =>
      cases value with
      | list items => simp [check, IsMetBy, Requirement.violation, ← areDistinct_iff]
      | _ => simp [check, IsMetBy]

theorem mem_violations_iff {way : List Text} {value : Value} {requirements : List Requirement}
    {problem : Problem} :
    problem ∈ violations way value requirements ↔
      ∃ requirement ∈ requirements, ¬requirement.IsMetBy value ∧
        problem = ⟨way, requirement.violation value⟩ := by
  simp only [violations, List.mem_filterMap, Option.map_eq_some_iff,
    Requirement.check_eq_some_iff]
  constructor
  · rintro ⟨requirement, listed, violation, ⟨unmet, rfl⟩, rfl⟩
    exact ⟨requirement, listed, unmet, rfl⟩
  · rintro ⟨requirement, listed, unmet, rfl⟩
    exact ⟨requirement, listed, _, ⟨unmet, rfl⟩, rfl⟩

namespace Schema

variable (schema : Schema) (entries : List (Value × Value))

/-- Whether a schema requires something of the value that stands on a way into a mapping, which leads to
a field or to an item of a field. -/
inductive Asks : List Text → Value → Requirement → Prop
  | field {field : Field} {value : Value} {requirement : Requirement} :
    field ∈ schema.fields → Value.lookup field.name entries = some value →
    requirement ∈ field.requirements → Asks [field.name] value requirement
  | item {field : Field} {items : List Value} {item : Value} {index : Nat}
      {requirement : Requirement} :
    field ∈ schema.fields → Value.lookup field.name entries = some (.list items) →
    items[index]? = some item → requirement ∈ field.itemRequirements →
    Asks [field.name, Text.decimal index] item requirement

/-- Whether a key is the name of no field. -/
def IsUnknown (key : Value) : Prop :=
  ∀ field ∈ schema.fields, key ≠ .text field.name

/-- Whether a value has a problem with a schema: it is no mapping, or a required field is missing, or
there are keys that are unknown, all of which are one problem, or a requirement is not met. -/
inductive Finds : Value → Problem → Prop
  | notMapping {value : Value} : (∀ entries, value ≠ .map entries) →
    Finds value ⟨[], .kind value [.object]⟩
  | missing {entries : List (Value × Value)} {name : Text} : name ∈ schema.required →
    Value.lookup name entries = none → Finds (.map entries) ⟨[], .missingField name⟩
  | unknown {entries : List (Value × Value)} {entry : Value × Value} : entry ∈ entries →
    schema.IsUnknown entry.1 →
    Finds (.map entries) ⟨[], .unknownFields (schema.unknownKeys entries)⟩
  | unmet {entries : List (Value × Value)} {way : List Text} {value : Value}
      {requirement : Requirement} : schema.Asks entries way value requirement →
    ¬requirement.IsMetBy value → Finds (.map entries) ⟨way, requirement.violation value⟩

variable {schema entries}

theorem mem_unknownKeys_iff {key : Value} :
    key ∈ schema.unknownKeys entries ↔ (∃ entry ∈ entries, entry.1 = key) ∧ schema.IsUnknown key := by
  simp only [unknownKeys, List.mem_mergeSort, List.mem_filter, List.mem_map]
  refine and_congr ⟨fun ⟨entry, listed, same⟩ => ⟨entry, listed, same⟩, id⟩ ?_
  cases key with
  | text name => simp [IsUnknown, Value.text.injEq, ne_comm]
  | _ => simp [IsUnknown]

theorem unknownKeys_ne_nil_iff :
    schema.unknownKeys entries ≠ [] ↔ ∃ entry ∈ entries, schema.IsUnknown entry.1 := by
  constructor
  · intro unknown
    obtain ⟨key, member⟩ := List.exists_mem_of_ne_nil _ unknown
    obtain ⟨⟨entry, listed, rfl⟩, unknown⟩ := mem_unknownKeys_iff.mp member
    exact ⟨entry, listed, unknown⟩
  · rintro ⟨entry, listed, unknown⟩
    exact List.ne_nil_of_mem (mem_unknownKeys_iff.mpr ⟨⟨entry, listed, rfl⟩, unknown⟩)

theorem mem_rootProblems_iff {violation : Violation} :
    violation ∈ schema.rootProblems entries ↔
      (∃ name ∈ schema.required, Value.lookup name entries = none ∧
        violation = .missingField name) ∨
      (∃ entry ∈ entries, schema.IsUnknown entry.1) ∧
        violation = .unknownFields (schema.unknownKeys entries) := by
  rw [← unknownKeys_ne_nil_iff]
  simp only [rootProblems, List.mem_append, List.mem_map, List.mem_filter, List.isEmpty_iff]
  refine or_congr ?_ ?_
  · constructor
    · rintro ⟨name, ⟨listed, missing⟩, rfl⟩
      exact ⟨name, listed, Option.isNone_iff_eq_none.mp missing, rfl⟩
    · rintro ⟨name, listed, missing, rfl⟩
      exact ⟨name, ⟨listed, Option.isNone_iff_eq_none.mpr missing⟩, rfl⟩
  · split
    · next none => simp [none]
    · next some => simp [some]

theorem mem_fieldCheck_iff {field : Field} {value : Value} {problem : Problem} :
    problem ∈ field.check value ↔
      (∃ requirement ∈ field.requirements, ¬requirement.IsMetBy value ∧
        problem = ⟨[field.name], requirement.violation value⟩) ∨
      ∃ items index item, value = .list items ∧ items[index]? = some item ∧
        ∃ requirement ∈ field.itemRequirements, ¬requirement.IsMetBy item ∧
          problem = ⟨[field.name, Text.decimal index], requirement.violation item⟩ := by
  unfold Field.check
  rw [List.mem_append, mem_violations_iff]
  refine or_congr Iff.rfl ?_
  split
  · next items =>
      simp only [List.mem_flatMap, Prod.exists, List.mem_zipIdx_iff_getElem?, mem_violations_iff,
        Value.list.injEq]
      constructor
      · rintro ⟨item, index, placed, unmet⟩
        exact ⟨items, index, item, rfl, placed, unmet⟩
      · rintro ⟨_, index, item, rfl, placed, unmet⟩
        exact ⟨item, index, placed, unmet⟩
  · next other =>
      simp only [List.not_mem_nil, false_iff]
      rintro ⟨items, _, _, same, -⟩
      exact other items same

/-- A check finds just the problems that there are. -/
theorem mem_check_iff {value : Value} {problem : Problem} :
    problem ∈ schema.check value ↔ schema.Finds value problem := by
  cases value with
  | map entries =>
      simp only [check, List.mem_mergeSort, List.mem_append, List.mem_map, mem_rootProblems_iff,
        List.mem_flatMap]
      constructor
      · rintro (⟨violation, ⟨name, listed, missing, rfl⟩ | ⟨⟨entry, listed, unknown⟩, rfl⟩, rfl⟩ |
          ⟨field, listed, found⟩)
        · exact .missing listed missing
        · exact .unknown listed unknown
        · split at found
          · next value known =>
              rcases mem_fieldCheck_iff.mp found with ⟨requirement, asked, unmet, rfl⟩ |
                ⟨items, index, item, rfl, placed, requirement, asked, unmet, rfl⟩
              · exact .unmet (.field listed known asked) unmet
              · exact .unmet (.item listed known placed asked) unmet
          · simp at found
      · intro found
        cases found with
        | notMapping other => exact absurd rfl (other entries)
        | missing listed missing => exact .inl ⟨_, .inl ⟨_, listed, missing, rfl⟩, rfl⟩
        | unknown listed unknown => exact .inl ⟨_, .inr ⟨⟨_, listed, unknown⟩, rfl⟩, rfl⟩
        | unmet asks unmet =>
            cases asks with
            | field listed known asked =>
                refine .inr ⟨_, listed, ?_⟩
                rw [known]
                exact mem_fieldCheck_iff.mpr (.inl ⟨_, asked, unmet, rfl⟩)
            | item listed known placed asked =>
                refine .inr ⟨_, listed, ?_⟩
                rw [known]
                exact mem_fieldCheck_iff.mpr (.inr ⟨_, _, _, rfl, placed, _, asked, unmet, rfl⟩)
  | _ =>
      simp only [check, List.mem_singleton]
      constructor
      · rintro rfl
        exact .notMapping (by simp)
      · rintro ⟨⟩
        rfl

end Schema

/-- Whether a value and its items are as a field has them. -/
def Field.Allows (field : Field) (value : Value) : Prop :=
  (∀ requirement ∈ field.requirements, requirement.IsMetBy value) ∧
    ∀ items, value = .list items → ∀ item ∈ items, ∀ requirement ∈ field.itemRequirements,
      requirement.IsMetBy item

/-- A check finds nothing in a mapping just if all that is required is there, all that is there is known,
and all that is known is as it is asked for. -/
theorem Schema.check_eq_nil_iff {schema : Schema} {entries : List (Value × Value)} :
    schema.check (.map entries) = [] ↔
      (∀ name ∈ schema.required, Value.lookup name entries ≠ none) ∧
      (∀ entry ∈ entries, ¬schema.IsUnknown entry.1) ∧
      ∀ field ∈ schema.fields, ∀ value, Value.lookup field.name entries = some value →
        field.Allows value := by
  simp only [List.eq_nil_iff_forall_not_mem, mem_check_iff]
  constructor
  · intro sound
    refine ⟨fun name listed missing => sound _ (.missing listed missing),
      fun entry member unknown => sound _ (.unknown member unknown),
      fun field listed value known => ⟨fun requirement asked => ?_, ?_⟩⟩
    · exact Classical.byContradiction fun unmet =>
        sound _ (.unmet (.field listed known asked) unmet)
    · rintro items rfl item member requirement asked
      obtain ⟨index, placed⟩ := List.mem_iff_getElem?.mp member
      exact Classical.byContradiction fun unmet =>
        sound _ (.unmet (.item listed known placed asked) unmet)
  · rintro ⟨required, known, allowed⟩ problem found
    cases found with
    | notMapping other => exact other entries rfl
    | missing listed missing => exact required _ listed missing
    | unknown member unknown => exact known _ member unknown
    | unmet asks unmet =>
        cases asks with
        | field listed found asked => exact unmet ((allowed _ listed _ found).1 _ asked)
        | item listed found placed asked =>
            exact unmet
              ((allowed _ listed _ found).2 _ rfl _ (List.mem_of_getElem? placed) _ asked)

end MdxCheck.Config
