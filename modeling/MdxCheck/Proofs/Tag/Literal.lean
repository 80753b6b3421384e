import MdxCheck.Proofs.Tag.Items

/-!
Which value an expression gives to an attribute. A text in quotes loses them also where two literals
stand at its ends; for all other expressions only a single literal does.
-/

namespace MdxCheck.Tag

/-- A text that is a single literal: no quote of its kind stands unescaped between the first and the
last one. -/
structure IsLiteral (quote : Char) (value text : Text) : Prop where
  isQuote : isLiteralQuote quote = true
  split : text = quote :: (value ++ [quote])
  body : LiteralBody quote value

/-- The value that an expression stands for: what is between the quotes of a literal, and the source
of anything else. -/
def Means (inside value : Text) : Prop :=
  (∃ quote, IsLiteral quote value (Text.trim inside)) ∨
    (∀ quote other, ¬IsLiteral quote other (Text.trim inside)) ∧ value = Text.trim inside

/-- An expression that is no literal, though it starts and ends with the same quote. -/
def JoinsLiterals (inside : Text) : Prop :=
  ∃ quote between, isLiteralQuote quote = true ∧
    Text.trim inside = quote :: (between ++ [quote]) ∧ ¬LiteralBody quote between

theorem JoinsLiterals.not_isLiteral {inside : Text} (joins : JoinsLiterals inside) (quote : Char)
    (value : Text) : ¬IsLiteral quote value (Text.trim inside) := by
  obtain ⟨opener, between, -, split, notBody⟩ := joins
  rintro ⟨-, same, body⟩
  rw [split] at same
  obtain ⟨rfl, rest⟩ := List.cons.inj same
  obtain rfl := List.append_cancel_right rest
  exact notBody body

theorem expressionValue_quoted {inside between : Text} {quote : Char}
    (isQuote : isLiteralQuote quote = true)
    (split : Text.trim inside = quote :: (between ++ [quote])) :
    expressionValue inside = between := by
  simp [expressionValue, split, isQuote]

theorem expressionValue_unquoted {inside : Text}
    (unquoted : ∀ quote between, isLiteralQuote quote = true →
      Text.trim inside ≠ quote :: (between ++ [quote])) :
    expressionValue inside = Text.trim inside := by
  rw [expressionValue]
  split
  next empty => rw [empty]
  next c rest trimmed =>
    rw [if_neg, trimmed]
    rintro ⟨last, isQuote⟩
    obtain ⟨between, rfl⟩ := List.getLast?_eq_some_iff.mp last
    exact unquoted c between isQuote trimmed

/-- The value that is read is the one that is meant, unless literals are joined. -/
theorem means_expressionValue_iff (inside : Text) :
    Means inside (expressionValue inside) ↔ ¬JoinsLiterals inside := by
  by_cases quoted : ∃ quote between, isLiteralQuote quote = true ∧
      Text.trim inside = quote :: (between ++ [quote])
  · obtain ⟨quote, between, isQuote, split⟩ := quoted
    rw [expressionValue_quoted isQuote split]
    constructor
    · intro means joins
      rcases means with ⟨opener, isLiteral⟩ | ⟨-, whole⟩
      · exact joins.not_isLiteral opener between isLiteral
      · have lengths := congrArg List.length whole
        simp only [split, List.length_cons, List.length_append, List.length_nil] at lengths
        omega
    · intro notJoined
      by_cases body : LiteralBody quote between
      · exact .inl ⟨quote, isQuote, split, body⟩
      · exact absurd ⟨quote, between, isQuote, split, body⟩ notJoined
  · have unquoted : ∀ quote between, isLiteralQuote quote = true →
        Text.trim inside ≠ quote :: (between ++ [quote]) :=
      fun quote between isQuote split => quoted ⟨quote, between, isQuote, split⟩
    rw [expressionValue_unquoted unquoted]
    constructor
    · rintro - ⟨quote, between, isQuote, split, -⟩
      exact unquoted quote between isQuote split
    · intro _
      exact .inr ⟨fun quote value isLiteral => unquoted _ _ isLiteral.isQuote isLiteral.split, rfl⟩

/-- An attribute of a list with the value of an expression: the value is the one that is meant,
unless the expression joins literals of the same quote at its ends. -/
theorem parseAttributes_computed {front back : List Item} {name before after inside source : Text}
    (listed : Listed (front ++ .computed name before after inside :: back) source) :
    ∃ value, parseAttributes source =
        front.filterMap Item.attribute? ++ ⟨name, some value⟩ :: back.filterMap Item.attribute? ∧
      (Means inside value ↔ ¬JoinsLiterals inside) := by
  refine ⟨expressionValue inside, ?_, means_expressionValue_iff inside⟩
  rw [parseAttributes, attributesFrom_listed listed]
  simp [Item.attribute?]

theorem parseAttributes_computed_escaped :
    Listed [.bare "hidden", .computed "id" "" " " "\"a\\\"b\""]
        " hidden id= \x7b\"a\\\"b\"\x7d" ∧
      ∃ value, parseAttributes " hidden id= \x7b\"a\\\"b\"\x7d" =
          [⟨"hidden", none⟩, ⟨"id", some value⟩] ∧
        (Means "\"a\\\"b\"" value ↔ ¬JoinsLiterals "\"a\\\"b\"") := by
  have blank : IsWhite " " := .of_all rfl
  have empty : IsWhite "" := .of_all rfl
  have literal : InBraces "\"a\\\"b\"" :=
    .literal rfl
      (.char (by decide) (by decide) (.escaped (.char (by decide) (by decide) .nil))) .nil
  have hidden : IsAttributeName "hidden" := ⟨by decide, List.all_eq_true.mp rfl⟩
  have id : IsAttributeName "id" := ⟨by decide, List.all_eq_true.mp rfl⟩
  have listed : Listed ([.bare "hidden"] ++ .computed "id" "" " " "\"a\\\"b\"" :: [])
      " hidden id= \x7b\"a\\\"b\"\x7d" :=
    .cons blank (.bare hidden) (blank_of_head? (by decide))
      (.cons blank (.computed id empty blank literal) (blank_of_head? (by decide)) (.nil empty))
  exact ⟨listed, parseAttributes_computed listed⟩

/-- A sum of two literals loses the first and the last quote, which are not those of one literal. -/
theorem unmeant_of_joinedLiterals :
    Listed [.computed "id" "" "" "\"a\" + \"b\""] " id=\x7b\"a\" + \"b\"\x7d" ∧
      parseAttributes " id=\x7b\"a\" + \"b\"\x7d" = [⟨"id", some "a\" + \"b"⟩] ∧
      Means "\"a\" + \"b\"" "\"a\" + \"b\"" ∧ ¬Means "\"a\" + \"b\"" "a\" + \"b" := by
  have blank : IsWhite " " := .of_all rfl
  have empty : IsWhite "" := .of_all rfl
  have id : IsAttributeName "id" := ⟨by decide, List.all_eq_true.mp rfl⟩
  have body : ∀ {c}, c = 'a' ∨ c = 'b' → LiteralBody '"' [c] := by
    rintro c (rfl | rfl)
    · exact .char (by decide) (by decide) .nil
    · exact .char (by decide) (by decide) .nil
  have sum : InBraces "\"a\" + \"b\"" :=
    .literal rfl (body (.inl rfl))
      (.char rfl (by decide) (by decide) (.char rfl (by decide) (by decide)
        (.char rfl (by decide) (by decide) (.literal rfl (body (.inr rfl)) .nil))))
  have listed : Listed [.computed "id" "" "" "\"a\" + \"b\""]
      " id=\x7b\"a\" + \"b\"\x7d" :=
    .cons blank (.computed id empty empty sum) (blank_of_head? (by decide)) (.nil empty)
  have joins : JoinsLiterals "\"a\" + \"b\"" := by
    refine ⟨'"', ['a', '"', ' ', '+', ' ', '"', 'b'], rfl, rfl, ?_⟩
    intro body
    cases body with
    | char _ _ rest =>
        cases rest with
        | char _ noQuote _ => exact noQuote rfl
  have unmeant := (means_expressionValue_iff "\"a\" + \"b\"").not.mpr (not_not.mpr joins)
  exact ⟨listed, attributesFrom_listed listed, .inr ⟨joins.not_isLiteral, rfl⟩, unmeant⟩

end MdxCheck.Tag
