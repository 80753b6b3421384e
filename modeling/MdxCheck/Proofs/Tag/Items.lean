import MdxCheck.Proofs.Tag.Attributes
import MdxCheck.Proofs.Tag.Expression

/-!
Lists of attributes and spread expressions, with white space of any kind between them and around
equals signs, and that reading such a list gives the attributes back.
-/

namespace MdxCheck.Tag

/-- What stands behind the name of a tag. The white space `before` and `after` an equals sign is
part of an item. -/
inductive Item where
  | bare (name : Text)
  | quoted (name before after : Text) (quote : Char) (value : Text)
  | computed (name before after inside : Text)
  | spread (inside : Text)

def IsWhite (gap : Text) : Prop :=
  ∀ c ∈ gap, Text.isBlank c = true

theorem IsWhite.of_all {gap : Text} (blank : gap.all Text.isBlank = true) : IsWhite gap :=
  List.all_eq_true.mp blank

namespace Item

def source : Item → Text
  | bare name => name
  | quoted name before after quote value =>
    name ++ (before ++ '=' :: (after ++ quote :: (value ++ [quote])))
  | computed name before after inside =>
    name ++ (before ++ '=' :: (after ++ '{' :: (inside ++ ['}'])))
  | spread inside => '{' :: (inside ++ ['}'])

/-- The attribute that an item gives; a spread expression gives none. -/
def attribute? : Item → Option Attribute
  | bare name => some ⟨name, none⟩
  | quoted name _ _ _ value => some ⟨name, some value⟩
  | computed name _ _ inside => some ⟨name, some (expressionValue inside)⟩
  | spread _ => none

/-- A quoted value does not hold its quote, and the braces in an expression are balanced, those in
literals apart. -/
inductive IsSound : Item → Prop
  | bare {name} : IsAttributeName name → IsSound (bare name)
  | quoted {name before after quote value} : IsAttributeName name → IsWhite before →
      IsWhite after → quote = '"' ∨ quote = '\'' → quote ∉ value →
      IsSound (quoted name before after quote value)
  | computed {name before after inside} : IsAttributeName name → IsWhite before →
      IsWhite after → InBraces inside → IsSound (computed name before after inside)
  | spread {inside} : InBraces inside → IsSound (spread inside)

end Item

/-- The source of a list of items: white space stands between two items, and may stand before the
first and behind the last. -/
inductive Listed : List Item → Text → Prop
  | nil {gap} : IsWhite gap → Listed [] gap
  | cons {gap item items rest} : IsWhite gap → item.IsSound →
      (∀ c ∈ rest.head?, Text.isBlank c = true) → Listed items rest →
      Listed (item :: items) (gap ++ (item.source ++ rest))

theorem blank_of_head? {rest : Text} (blank : rest.head?.all Text.isBlank = true) :
    ∀ c ∈ rest.head?, Text.isBlank c = true :=
  (Option.all_eq_true Text.isBlank rest.head?).mp blank

theorem Item.IsSound.exists_cons {item : Item} (sound : item.IsSound) :
    ∃ first others, item.source = first :: others ∧ (isAttributeChar first = true ∨ first = '{') := by
  have named : ∀ {name}, IsAttributeName name → ∀ rest, ∃ first others,
      name ++ rest = first :: others ∧ (isAttributeChar first = true ∨ first = '{') := by
    intro name isName rest
    obtain ⟨first, letters, rfl⟩ := List.exists_cons_of_ne_nil isName.nonempty
    exact ⟨first, letters ++ rest, rfl, .inl (isName.letters first (by simp))⟩
  cases sound with
  | bare isName => simpa [source] using named isName []
  | quoted isName => exact named isName _
  | computed isName => exact named isName _
  | spread => exact ⟨'{', _, rfl, .inr rfl⟩

theorem not_isAttributeChar_of_isBlank {c : Char} (blank : Text.isBlank c = true) :
    isAttributeChar c = false := by
  simp [isAttributeChar, blank]

theorem Listed.endsAttribute {items : List Item} {rest : Text} (listed : Listed items rest)
    (apart : ∀ c ∈ rest.head?, Text.isBlank c = true) : EndsAttribute rest := by
  constructor
  · rintro c tail rfl
    exact not_isAttributeChar_of_isBlank (apart c rfl)
  · intro tail
    cases listed with
    | nil white =>
        rw [List.dropWhile_eq_nil_iff.mpr white]
        simp
    | @cons gap item items rest white sound =>
        obtain ⟨first, others, same, starts⟩ := sound.exists_cons
        have solid : Text.isBlank first = false ∧ first ≠ '=' := by
          rcases starts with letter | rfl
          · exact ⟨(isAttributeChar_iff.mp letter).1, (isAttributeChar_iff.mp letter).2.1⟩
          · decide
        rw [same, List.dropWhile_append_of_pos white]
        simp [solid.1, solid.2]

theorem attributeAt_bare {name rest : Text} (isName : IsAttributeName name)
    (ends : EndsAttribute rest) : attributeAt (name ++ rest) = (⟨name, none⟩, name.length) :=
  attributeAt_written (.bare name) isName ends

theorem attributeAt_valued {name before after : Text} (isName : IsAttributeName name)
    (whiteBefore : IsWhite before) (whiteAfter : IsWhite after) {c : Char}
    (solid : Text.isBlank c = false) (rest : Text) :
    attributeAt (name ++ (before ++ '=' :: (after ++ c :: rest))) =
      (⟨name, (attributeValue (c :: rest)).1⟩,
        name.length + before.length + 1 + after.length + (attributeValue (c :: rest)).2) := by
  have boundary : ∀ d tail, before ++ '=' :: (after ++ c :: rest) = d :: tail →
      isAttributeChar d = false := by
    intro d tail same
    cases before with
    | nil =>
        obtain ⟨rfl, -⟩ := List.cons.inj same
        decide
    | cons e before =>
        obtain ⟨rfl, -⟩ := List.cons.inj same
        exact not_isAttributeChar_of_isBlank (whiteBefore _ (by simp))
  have taken := takeWhile_name isName.letters boundary
  have blankEquals : Text.isBlank '=' = false := by decide
  simp only [attributeAt, taken, List.drop_left, Text.indentWidth,
    List.dropWhile_append_of_pos whiteBefore, List.takeWhile_append_of_pos whiteBefore,
    List.dropWhile_append_of_pos whiteAfter, List.takeWhile_append_of_pos whiteAfter,
    List.dropWhile_cons, List.takeWhile_cons, blankEquals, solid, Bool.false_eq_true, ↓reduceIte,
    List.append_nil]

theorem attributeValue_quoted {quote : Char} (isQuote : quote = '"' ∨ quote = '\'') {value : Text}
    (free : quote ∉ value) (rest : Text) :
    attributeValue (quote :: (value ++ quote :: rest)) = (some value, value.length + 2) := by
  simp [attributeValue, isQuote, cut?_append free]

theorem expressionLength?_braces {inside : Text} (items : InBraces inside) (rest : Text) :
    expressionLength? ('{' :: (inside ++ '}' :: rest)) = some (inside.length + 2) := by
  simpa using expressionLength?_append_of_isExpression ⟨inside, rfl, items⟩ rest

theorem attributeValue_expression {inside : Text} (items : InBraces inside) (rest : Text) :
    attributeValue ('{' :: (inside ++ '}' :: rest)) =
      (some (expressionValue inside), inside.length + 2) := by
  simp [attributeValue, expressionLength?_braces items]

theorem attributesFrom_spread {inside : Text} (items : InBraces inside) (rest : Text) :
    attributesFrom 0 ('{' :: (inside ++ '}' :: rest)) = attributesFrom 0 rest := by
  have solid : Text.isBlank '{' = false := by decide
  have behind : (inside ++ '}' :: rest).drop (inside.length + 1) = rest := by
    rw [← List.drop_drop, List.drop_left]
    rfl
  simp [attributesFrom, solid, expressionLength?_braces items, attributesFrom_skip, behind]

theorem attributesFrom_named {name others rest : Text} {given : Attribute}
    (isName : IsAttributeName name)
    (read : attributeAt (name ++ others ++ rest) = (given, (name ++ others).length)) :
    attributesFrom 0 (name ++ others ++ rest) = given :: attributesFrom 0 rest := by
  obtain ⟨first, letters, rfl⟩ := List.exists_cons_of_ne_nil isName.nonempty
  exact attributesFrom_of_attributeAt (isName.letters first (by simp)) read

theorem attributesFrom_valued {name before after more rest : Text} {c : Char}
    {value : Option Text} (isName : IsAttributeName name) (whiteBefore : IsWhite before)
    (whiteAfter : IsWhite after) (solid : Text.isBlank c = false)
    (read : attributeValue (c :: (more ++ rest)) = (value, more.length + 1)) :
    attributesFrom 0 (name ++ (before ++ '=' :: (after ++ c :: more)) ++ rest) =
      ⟨name, value⟩ :: attributesFrom 0 rest := by
  have valued := attributeAt_valued isName whiteBefore whiteAfter solid (more ++ rest)
  rw [read] at valued
  apply attributesFrom_named isName
  simp only [List.append_assoc, List.cons_append, valued, List.length_append, List.length_cons,
    Prod.mk.injEq, true_and]
  omega

theorem attributesFrom_item {item : Item} (sound : item.IsSound) {rest : Text}
    (ends : EndsAttribute rest) :
    attributesFrom 0 (item.source ++ rest) = item.attribute?.toList ++ attributesFrom 0 rest := by
  cases sound with
  | @bare name isName =>
      have read := attributeAt_bare isName ends
      rw [← List.append_nil name] at read
      simpa [Item.source, Item.attribute?] using attributesFrom_named isName read
  | @quoted name before after quote value isName whiteBefore whiteAfter isQuote free =>
      have solid : Text.isBlank quote = false := by
        rcases isQuote with rfl | rfl <;> decide
      have read : attributeValue (quote :: (value ++ [quote] ++ rest)) =
          (some value, (value ++ [quote]).length + 1) := by
        simpa using attributeValue_quoted isQuote free rest
      exact attributesFrom_valued isName whiteBefore whiteAfter solid read
  | @computed name before after inside isName whiteBefore whiteAfter items =>
      have read : attributeValue ('{' :: (inside ++ ['}'] ++ rest)) =
          (some (expressionValue inside), (inside ++ ['}']).length + 1) := by
        simpa using attributeValue_expression items rest
      exact attributesFrom_valued isName whiteBefore whiteAfter (by decide) read
  | spread items => simpa [Item.source, Item.attribute?] using attributesFrom_spread items rest

theorem attributesFrom_listed {items : List Item} {source : Text} (listed : Listed items source) :
    attributesFrom 0 source = items.filterMap Item.attribute? := by
  induction listed with
  | nil white =>
      have read := attributesFrom_blank white []
      simpa [attributesFrom] using read
  | @cons gap item items rest white sound apart listed ih =>
      rw [attributesFrom_blank white, attributesFrom_item sound (listed.endsAttribute apart), ih,
        List.filterMap_cons]
      cases item.attribute? with
      | none => rfl
      | some given => rfl

/-- Reading a list of items gives the attributes that are in it, in their order: bare ones without
a value, quoted values as they stand, and expressions by their value. -/
theorem parseAttributes_listed {items : List Item} {source : Text} (listed : Listed items source) :
    parseAttributes source = items.filterMap Item.attribute? :=
  attributesFrom_listed listed

theorem parseAttributes_listed_fourForms :
    ∃ items, Listed items " \x7b...rest\x7d id = 'a b'\ttitle=\x7b\"A\"\x7d hidden" ∧
      items.length = 4 ∧
      parseAttributes " \x7b...rest\x7d id = 'a b'\ttitle=\x7b\"A\"\x7d hidden" =
        [⟨"id", some "a b"⟩, ⟨"title", some "A"⟩, ⟨"hidden", none⟩] := by
  have blank : IsWhite " " := .of_all rfl
  have tab : IsWhite "\t" := .of_all rfl
  have none : IsWhite "" := .of_all rfl
  have word : InBraces "...rest" := .of_all rfl
  have literal : InBraces "\"A\"" :=
    .literal rfl (.char (by decide) (by decide) .nil) .nil
  have id : IsAttributeName "id" := ⟨by decide, List.all_eq_true.mp rfl⟩
  have title : IsAttributeName "title" := ⟨by decide, List.all_eq_true.mp rfl⟩
  have hidden : IsAttributeName "hidden" := ⟨by decide, List.all_eq_true.mp rfl⟩
  have listed : Listed [.spread "...rest", .quoted "id" " " " " '\'' "a b",
      .computed "title" "" "" "\"A\"", .bare "hidden"]
      " \x7b...rest\x7d id = 'a b'\ttitle=\x7b\"A\"\x7d hidden" :=
    .cons blank (.spread word) (blank_of_head? (by decide))
      (.cons blank (.quoted id blank blank (.inr rfl) (by decide)) (blank_of_head? (by decide))
        (.cons tab (.computed title none none literal) (blank_of_head? (by decide))
          (.cons blank (.bare hidden) (blank_of_head? (by decide)) (.nil none))))
  exact ⟨_, listed, rfl, parseAttributes_listed listed⟩

end MdxCheck.Tag
