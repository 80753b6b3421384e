import MdxCheck.Proofs.Config.Schema
import MdxCheck.Proofs.Text.Decimal

/-!
The entries of a report on a value: no two of them are the same.
-/

namespace MdxCheck.Config

/-- Whether two requirements never say the same of a value. -/
def Requirement.Apart (first second : Requirement) : Prop :=
  ∀ value, ¬first.IsMetBy value → ¬second.IsMetBy value →
    (first.violation value).message ≠ (second.violation value).message

theorem Requirement.Apart.of_exclusive {first second : Requirement}
    (exclusive : ∀ value, first.IsMetBy value ∨ second.IsMetBy value) : first.Apart second :=
  fun value unmet other => absurd (exclusive value) (not_or.mpr ⟨unmet, other⟩)

theorem getLast?_append_of_some {front : Text} (back : Text) {last : Char}
    (closes : back.getLast? = some last) : (front ++ back).getLast? = some last := by
  rw [List.getLast?_append, closes, Option.some_or]

/-- Texts that close with different characters are different. -/
theorem ne_of_getLast? {first second : Text} {last otherLast : Char}
    (closes : first.getLast? = some last) (otherCloses : second.getLast? = some otherLast)
    (different : last ≠ otherLast) : first ≠ second := by
  rintro rfl
  exact different (Option.some.inj (closes.symm.trans otherCloses))

/-- Where a text first stops is settled by the text. -/
theorem append_stop_inj {stop : Char} {first second rest otherRest : Text} (noStop : stop ∉ first)
    (otherNoStop : stop ∉ second) (same : first ++ stop :: rest = second ++ stop :: otherRest) :
    first = second ∧ rest = otherRest := by
  induction first generalizing second with
  | nil =>
      cases second with
      | nil => exact ⟨rfl, (List.cons.inj same).2⟩
      | cons c second =>
          obtain ⟨rfl, -⟩ := List.cons.inj same
          simp at otherNoStop
  | cons c first ih =>
      cases second with
      | nil =>
          obtain ⟨rfl, -⟩ := List.cons.inj same
          simp at noStop
      | cons d second =>
          rw [List.mem_cons, not_or] at noStop otherNoStop
          obtain ⟨rfl, tails⟩ := List.cons.inj same
          obtain ⟨rfl, rfl⟩ := ih noStop.2 otherNoStop.2 tails
          exact ⟨rfl, rfl⟩

namespace Schema

/-- Whether the problems with a schema can be told apart by what is said of them: the names of fields are
different and plain, and so is what is said of one value. -/
structure IsApart (schema : Schema) : Prop where
  plain : ∀ field ∈ schema.fields, ':' ∉ field.name ∧ '.' ∉ field.name ∧ '<' ∉ field.name
  names : schema.fields.Pairwise fun first second => first.name ≠ second.name
  missing : schema.required.Pairwise fun first second =>
    (Violation.missingField first).message ≠ (Violation.missingField second).message
  requirements : ∀ field ∈ schema.fields, field.requirements.Pairwise Requirement.Apart
  itemRequirements : ∀ field ∈ schema.fields, field.itemRequirements.Pairwise Requirement.Apart

/-- The ways that problems with a schema are on. -/
inductive HasWay (schema : Schema) : List Text → Prop
  | root : schema.HasWay []
  | field {field : Field} : field ∈ schema.fields → schema.HasWay [field.name]
  | item {field : Field} {index : Nat} : field ∈ schema.fields →
    schema.HasWay [field.name, Text.decimal index]

end Schema

/-- How a report names a way. -/
def shownWay (way : List Text) : Text :=
  if way.isEmpty then "<root>" else Text.join ['.'] way

theorem Problem.message_eq (problem : Problem) :
    problem.message = shownWay problem.way ++ ':' :: ' ' :: problem.violation.message := by
  simp [message, shownWay]

theorem shownWay_singleton (name : Text) : shownWay [name] = name := by
  simp [shownWay, Text.join]

theorem shownWay_pair (name index : Text) : shownWay [name, index] = name ++ '.' :: index := by
  simp [shownWay, Text.join, List.intercalate]

namespace Schema

variable {schema : Schema}

theorem hasWay_of_mem_fieldCheck {field : Field} (listed : field ∈ schema.fields) {value : Value}
    {problem : Problem} (member : problem ∈ field.check value) :
    schema.HasWay problem.way ∧ problem.way.head? = some field.name := by
  rcases mem_fieldCheck_iff.mp member with ⟨_, -, -, rfl⟩ | ⟨_, _, _, -, -, _, -, -, rfl⟩
  · exact ⟨.field listed, rfl⟩
  · exact ⟨.item listed, rfl⟩

variable (apart : schema.IsApart)

include apart

theorem colon_not_mem_shownWay {way : List Text} (has : schema.HasWay way) : ':' ∉ shownWay way := by
  cases has with
  | root => decide
  | field listed =>
      rw [shownWay_singleton]
      exact (apart.plain _ listed).1
  | @item _ index listed =>
      have digits : ':' ∉ Text.decimal index := fun member =>
        absurd (Text.isDigit_of_mem_decimal member) (by decide)
      simp [shownWay_pair, (apart.plain _ listed).1, digits]

theorem shownWay_injective {first second : List Text} (has : schema.HasWay first)
    (other : schema.HasWay second) (same : shownWay first = shownWay second) : first = second := by
  have rootOnly : ∀ way, schema.HasWay way → shownWay way = shownWay [] → way = [] := by
    intro way has same
    have bracket : '<' ∈ shownWay way := by
      rw [same]
      decide
    cases has with
    | root => rfl
    | field listed =>
        rw [shownWay_singleton] at bracket
        exact absurd bracket (apart.plain _ listed).2.2
    | @item _ index listed =>
        have digits : '<' ∉ Text.decimal index := fun member =>
          absurd (Text.isDigit_of_mem_decimal member) (by decide)
        simp [shownWay_pair, (apart.plain _ listed).2.2, digits] at bracket
  have fieldOnly : ∀ {field : Field} {name index : Text}, field ∈ schema.fields →
      field.name ≠ name ++ '.' :: index := by
    intro field name index listed same
    have plain := (apart.plain _ listed).2.1
    simp [same] at plain
  cases has with
  | root => exact (rootOnly _ other same.symm).symm
  | field listed =>
      cases other with
      | root => exact rootOnly _ (.field listed) same
      | field => simpa only [shownWay_singleton, List.cons.injEq, and_true] using same
      | item otherListed =>
          rw [shownWay_singleton, shownWay_pair] at same
          exact absurd same (fieldOnly listed)
  | item listed =>
      cases other with
      | root => exact rootOnly _ (.item listed) same
      | field otherListed =>
          rw [shownWay_singleton, shownWay_pair] at same
          exact absurd same.symm (fieldOnly otherListed)
      | item otherListed =>
          rw [shownWay_pair, shownWay_pair] at same
          obtain ⟨name, index⟩ :=
            append_stop_inj (apart.plain _ listed).2.1 (apart.plain _ otherListed).2.1 same
          rw [name, index]

/-- Entries that are the same are on the same way and say the same. -/
theorem message_injective {first second : Problem} (has : schema.HasWay first.way)
    (other : schema.HasWay second.way) (same : first.message = second.message) :
    first.way = second.way ∧ first.violation.message = second.violation.message := by
  rw [Problem.message_eq, Problem.message_eq] at same
  obtain ⟨way, said⟩ := append_stop_inj (colon_not_mem_shownWay apart has)
    (colon_not_mem_shownWay apart other) same
  exact ⟨shownWay_injective apart has other way, (List.cons.inj said).2⟩

theorem violations_apart {way : List Text} {value : Value} {requirements : List Requirement}
    (has : schema.HasWay way) (different : requirements.Pairwise Requirement.Apart) :
    (violations way value requirements).Pairwise fun first second =>
      first.message ≠ second.message := by
  rw [violations, List.pairwise_filterMap]
  refine different.imp fun {first second} different problem found other otherFound same => ?_
  obtain ⟨violation, violated, rfl⟩ := Option.map_eq_some_iff.mp found
  obtain ⟨otherViolation, otherViolated, rfl⟩ := Option.map_eq_some_iff.mp otherFound
  obtain ⟨unmet, rfl⟩ := Requirement.check_eq_some_iff.mp violated
  obtain ⟨otherUnmet, rfl⟩ := Requirement.check_eq_some_iff.mp otherViolated
  exact different value unmet otherUnmet (message_injective apart has has same).2

theorem field_apart {field : Field} (listed : field ∈ schema.fields) (value : Value) :
    (field.check value).Pairwise fun first second => first.message ≠ second.message := by
  unfold Field.check
  refine List.pairwise_append.mpr
    ⟨violations_apart apart (.field listed) (apart.requirements _ listed), ?_, ?_⟩
  · split
    · next items =>
        refine List.pairwise_flatMap.mpr ⟨fun entry _ => ?_, ?_⟩
        · exact violations_apart apart (.item listed) (apart.itemRequirements _ listed)
        · have places : (items.zipIdx.map Prod.snd).Nodup := by simp [List.nodup_range']
          refine (List.pairwise_map.mp places).imp ?_
          intro first second different problem member other otherMember same
          obtain ⟨_, -, -, rfl⟩ := mem_violations_iff.mp member
          obtain ⟨_, -, -, rfl⟩ := mem_violations_iff.mp otherMember
          have way := (message_injective apart (.item listed) (.item listed) same).1
          simp only [List.cons.injEq, and_true, true_and] at way
          exact different (Text.decimal_injective way)
    · exact .nil
  · intro problem member other otherMember same
    obtain ⟨_, -, -, rfl⟩ := mem_violations_iff.mp member
    split at otherMember
    · obtain ⟨entry, -, found⟩ := List.mem_flatMap.mp otherMember
      obtain ⟨_, -, -, rfl⟩ := mem_violations_iff.mp found
      have way := (message_injective apart (.field listed) (.item listed) same).1
      simp at way
    · simp at otherMember

theorem rootProblems_apart (entries : List (Value × Value)) :
    (schema.rootProblems entries).Pairwise fun first second => first.message ≠ second.message := by
  unfold rootProblems
  refine List.pairwise_append.mpr ⟨?_, ?_, ?_⟩
  · exact List.pairwise_map.mpr (apart.missing.filter _)
  · split
    · exact .nil
    · exact List.pairwise_singleton _ _
  · intro first member second otherMember
    obtain ⟨name, -, rfl⟩ := List.mem_map.mp member
    split at otherMember
    · simp at otherMember
    · obtain rfl := List.mem_singleton.mp otherMember
      exact ne_of_getLast? (getLast?_append_of_some " is a required property" rfl)
        (getLast?_append_of_some " unexpected)" rfl) (by decide)

/-- No two entries of a report are the same. -/
theorem messages_nodup (value : Value) : ((schema.check value).map Problem.message).Nodup := by
  cases value with
  | map entries =>
      refine ((List.mergeSort_perm _ _).map _).nodup_iff.mpr (List.pairwise_map.mpr ?_)
      refine List.pairwise_append.mpr ⟨?_, ?_, ?_⟩
      · refine List.pairwise_map.mpr ((rootProblems_apart apart entries).imp ?_)
        exact fun different same => different (message_injective apart .root .root same).2
      · refine List.pairwise_flatMap.mpr ⟨fun field listed => ?_, ?_⟩
        · split
          · exact field_apart apart listed _
          · exact .nil
        · refine List.Pairwise.imp_of_mem ?_ apart.names
          intro field otherField listed otherListed different problem member other otherMember same
          split at member
          · split at otherMember
            · obtain ⟨has, head⟩ := hasWay_of_mem_fieldCheck listed member
              obtain ⟨otherHas, otherHead⟩ := hasWay_of_mem_fieldCheck otherListed otherMember
              rw [(message_injective apart has otherHas same).1, otherHead] at head
              exact different (Option.some.inj head).symm
            · simp at otherMember
          · simp at member
      · intro problem member other otherMember same
        obtain ⟨violation, -, rfl⟩ := List.mem_map.mp member
        obtain ⟨field, listed, found⟩ := List.mem_flatMap.mp otherMember
        split at found
        · obtain ⟨has, head⟩ := hasWay_of_mem_fieldCheck listed found
          rw [← (message_injective apart .root has same).1] at head
          simp at head
        · simp at found
  | _ => exact List.pairwise_singleton _ _

end Schema

/-- What is said of a kind closes with an apostrophe. -/
theorem kind_apart {allowed : List Kind} {other : Requirement} {last : Char}
    (closes : (Text.join ", ".toList (allowed.map fun kind => Text.quoted kind.name)).getLast? =
      some '\'')
    (otherCloses : ∀ value, ¬other.IsMetBy value → (other.violation value).message.getLast? = some last)
    (different : '\'' ≠ last) : (Requirement.kind allowed).Apart other :=
  fun value _ unmet => ne_of_getLast? (getLast?_append_of_some _ closes) (otherCloses value unmet)
    different

theorem kind_apart_of_met {allowed : List Kind} {other : Requirement}
    (met : ∀ value, (∀ kind ∈ allowed, kind.holds value = false) → other.IsMetBy value) :
    (Requirement.kind allowed).Apart other := by
  refine .of_exclusive fun value => ?_
  by_cases holds : (Requirement.kind allowed).IsMetBy value
  · exact .inl holds
  · exact .inr (met value (by simpa [Requirement.IsMetBy] using holds))

theorem array_apart_distinctItems : (Requirement.kind [.array]).Apart .distinctItems := by
  refine kind_apart_of_met fun value none items same => ?_
  simp [same, Kind.holds] at none

theorem array_apart_someItems : (Requirement.kind [.array]).Apart .someItems := by
  refine kind_apart_of_met fun value none same => ?_
  simp [same, Kind.holds] at none

theorem someItems_apart_distinctItems : Requirement.someItems.Apart .distinctItems := by
  refine .of_exclusive fun value => ?_
  by_cases empty : value = .list []
  · refine .inr fun items same => ?_
    obtain rfl := Value.list.inj (empty.symm.trans same)
    exact .nil
  · exact .inl empty

theorem string_apart_someText : (Requirement.kind [.string]).Apart .someText := by
  refine kind_apart_of_met fun value none same => ?_
  simp [same, Kind.holds] at none

theorem string_apart_form (source : Text) (pattern : Pattern) :
    (Requirement.kind [.string]).Apart (.form source pattern) := by
  refine kind_apart_of_met fun value none text same => ?_
  simp [same, Kind.holds] at none

theorem schema_isApart : schema.IsApart where
  plain := by decide
  names := by decide
  missing := List.pairwise_singleton _ _
  requirements := by
    have version : (Requirement.kind [.integer]).Apart (.constant 1) :=
      kind_apart rfl (fun _ _ => getLast?_append_of_some " was expected" rfl) (by decide)
    have limit : (Requirement.kind [.integer, .null]).Apart (.least 1) :=
      kind_apart rfl (fun _ _ => getLast?_append_of_some (Text.decimalInt 1) rfl) (by decide)
    simp [schema, textsField, version, limit, array_apart_distinctItems, array_apart_someItems,
      someItems_apart_distinctItems, string_apart_someText]
  itemRequirements := by
    simp [schema, textsField, string_apart_someText, string_apart_form]

end MdxCheck.Config
