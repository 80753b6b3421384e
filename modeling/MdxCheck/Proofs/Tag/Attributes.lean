import MdxCheck.Proofs.Tag.Scan
import MdxCheck.Tag.Attributes

/-!
Attributes as they are written in a tag, and that reading them gives them back.
-/

namespace MdxCheck.Tag

def IsGap (gap : Text) : Prop :=
  ∀ c ∈ gap, c = ' ' ∨ c = '\n'

/-- The source of an attribute: its name alone, or with a value between quotes that the value does
not hold. -/
inductive WritesAttribute : Attribute → Text → Prop
  | bare (name) : WritesAttribute ⟨name, none⟩ name
  | quoted {name value quote} : quote = '"' ∨ quote = '\'' → quote ∉ value →
      WritesAttribute ⟨name, some value⟩ (name ++ '=' :: quote :: (value ++ [quote]))

inductive WritesAttributes : List Attribute → Text → Prop
  | nil : WritesAttributes [] []
  | cons {gap given source attributes rest} : gap ≠ [] → IsGap gap →
      WritesAttribute given source → WritesAttributes attributes rest →
      WritesAttributes (given :: attributes) (gap ++ (source ++ rest))

/-- A name that can be written: neither empty nor with a character that has a part of its own in
the source of a tag. -/
structure IsAttributeName (name : Text) : Prop where
  nonempty : name ≠ []
  letters : ∀ c ∈ name, isAttributeChar c = true

theorem isBlank_of_isGap {gap : Text} (isGap : IsGap gap) : ∀ c ∈ gap, Text.isBlank c = true := by
  intro c member
  rcases isGap c member with rfl | rfl <;> decide

theorem isAttributeChar_iff {c : Char} : isAttributeChar c = true ↔
    Text.isBlank c = false ∧ c ≠ '=' ∧ c ≠ '<' ∧ c ≠ '>' ∧ c ≠ '/' ∧ c ≠ '"' ∧ c ≠ '\'' ∧
      c ≠ '{' ∧ c ≠ '}' := by
  simp [isAttributeChar, and_assoc]

/-! The end of a tag lies behind its attributes. -/

theorem tail?_plain {text : Text}
    (plain : ∀ c ∈ text, c ≠ '"' ∧ c ≠ '\'' ∧ c ≠ '{' ∧ c ≠ '>') (rest : Text) :
    tail? 0 none (text ++ rest) = (tail? 0 none rest).map (· + text.length) := by
  induction text with
  | nil => simp
  | cons c text ih =>
      obtain ⟨noDouble, noSingle, noBrace, noEnd⟩ := plain c (by simp)
      have inner := ih fun d member => plain d (by simp [member])
      simp [tail?, noDouble, noSingle, noBrace, noEnd, inner, Nat.add_assoc, Function.comp_def]

theorem tail?_quoted {quote : Char} {value : Text} (free : quote ∉ value) (rest : Text) :
    tail? 0 (some quote) (value ++ quote :: rest) =
      (tail? 0 none rest).map (· + (value.length + 1)) := by
  induction value with
  | nil => simp [tail?]
  | cons c value ih =>
      simp only [List.mem_cons, not_or] at free
      simp [tail?, Ne.symm free.1, ih free.2, Nat.add_comm, Nat.add_left_comm]

theorem tail?_attribute {given : Attribute} {source : Text}
    (written : WritesAttribute given source) (named : IsAttributeName given.name)
    (rest : Text) :
    tail? 0 none (source ++ rest) = (tail? 0 none rest).map (· + source.length) := by
  have plain : ∀ c ∈ given.name, c ≠ '"' ∧ c ≠ '\'' ∧ c ≠ '{' ∧ c ≠ '>' := by
    intro c member
    obtain ⟨-, -, -, noEnd, -, noDouble, noSingle, noBrace, -⟩ :=
      isAttributeChar_iff.mp (named.letters c member)
    exact ⟨noDouble, noSingle, noBrace, noEnd⟩
  cases written with
  | bare name => exact tail?_plain plain rest
  | @quoted name value quote isQuote free =>
      have opens : tail? 0 none ('=' :: quote :: (value ++ quote :: rest)) =
          (tail? 0 none rest).map (· + (value.length + 3)) := by
        have inside := tail?_quoted free rest
        simp [tail?, isQuote, inside, Function.comp_def, Nat.add_assoc]
      rw [List.append_assoc, tail?_plain plain]
      simp [opens, Function.comp_def]
      congr 1
      funext count
      omega

theorem tail?_gap {gap : Text} (isGap : IsGap gap) (rest : Text) :
    tail? 0 none (gap ++ rest) = (tail? 0 none rest).map (· + gap.length) := by
  apply tail?_plain
  intro c member
  rcases isGap c member with rfl | rfl <;> decide

theorem tail?_attributes {attributes : List Attribute} {source : Text}
    (written : WritesAttributes attributes source)
    (named : ∀ given ∈ attributes, IsAttributeName given.name) (rest : Text) :
    tail? 0 none (source ++ rest) = (tail? 0 none rest).map (· + source.length) := by
  induction written with
  | nil => simp
  | cons _ isGap given _ ih =>
      have inner := ih fun other member => named other (by simp [member])
      rw [List.append_assoc, tail?_gap isGap, List.append_assoc,
        tail?_attribute given (named _ (by simp)), inner]
      simp [Function.comp_def]
      congr 1
      funext count
      omega

/-! Reading attributes. -/

theorem attributesFrom_skip (skipped : Nat) (text : Text) :
    attributesFrom skipped text = attributesFrom 0 (text.drop skipped) := by
  induction text generalizing skipped with
  | nil => simp [attributesFrom]
  | cons c rest ih =>
      cases skipped with
      | zero => rfl
      | succ skipped => rw [attributesFrom, ih, List.drop_succ_cons]

theorem attributesFrom_blank {gap : Text} (blank : ∀ c ∈ gap, Text.isBlank c = true)
    (rest : Text) : attributesFrom 0 (gap ++ rest) = attributesFrom 0 rest := by
  induction gap with
  | nil => rfl
  | cons c gap ih =>
      rw [List.cons_append, attributesFrom, if_pos (blank c (by simp))]
      exact ih fun d member => blank d (by simp [member])

theorem attributesFrom_gap {gap : Text} (isGap : IsGap gap) (rest : Text) :
    attributesFrom 0 (gap ++ rest) = attributesFrom 0 rest :=
  attributesFrom_blank (isBlank_of_isGap isGap) rest

/-- An attribute is read, and the reading goes on behind its source. -/
theorem attributesFrom_of_attributeAt {first : Char} {others rest : Text} {given : Attribute}
    (letter : isAttributeChar first = true)
    (read : attributeAt (first :: others ++ rest) = (given, (first :: others).length)) :
    attributesFrom 0 (first :: others ++ rest) = given :: attributesFrom 0 rest := by
  obtain ⟨notBlank, -, -, -, -, -, -, notBrace, -⟩ := isAttributeChar_iff.mp letter
  rw [List.cons_append, attributesFrom]
  simp only [notBlank, Bool.false_eq_true, ↓reduceIte, notBrace, letter]
  rw [List.cons_append] at read
  rw [read, attributesFrom_skip]
  simp

/-- Text that ends the name of an attribute before it and gives it no value. -/
structure EndsAttribute (rest : Text) : Prop where
  boundary : ∀ c tail, rest = c :: tail → isAttributeChar c = false
  noEquals : ∀ tail, rest.dropWhile Text.isBlank ≠ '=' :: tail

theorem takeWhile_name {name rest : Text} (letters : ∀ c ∈ name, isAttributeChar c = true)
    (boundary : ∀ c tail, rest = c :: tail → isAttributeChar c = false) :
    (name ++ rest).takeWhile isAttributeChar = name := by
  rw [List.takeWhile_append_of_pos letters]
  cases rest with
  | nil => simp
  | cons c tail => simp [boundary c tail rfl]

theorem cut?_append {quote : Char} {value : Text} (free : quote ∉ value) (rest : Text) :
    Text.cut? quote (value ++ quote :: rest) = some (value, rest) := by
  induction value with
  | nil => simp [Text.cut?]
  | cons c value ih =>
      simp only [List.mem_cons, not_or] at free
      simp [Text.cut?, Ne.symm free.1, ih free.2]

theorem attributeAt_written {given : Attribute} {source : Text}
    (written : WritesAttribute given source) (named : IsAttributeName given.name)
    {rest : Text} (ends : EndsAttribute rest) :
    attributeAt (source ++ rest) = (given, source.length) := by
  cases written with
  | bare name =>
      have taken := takeWhile_name named.letters ends.boundary
      simp only at taken
      simp only [attributeAt, taken, List.drop_left]
      split
      next tail same => exact absurd same (ends.noEquals tail)
      next => rfl
  | @quoted name value quote isQuote free =>
      have equals : ∀ c tail, '=' :: quote :: (value ++ [quote]) ++ rest = c :: tail →
          isAttributeChar c = false := by
        intro c tail same
        obtain ⟨rfl, -⟩ := List.cons.inj same
        decide
      have taken := takeWhile_name named.letters equals
      have notBlank : Text.isBlank quote = false := by
        rcases isQuote with rfl | rfl <;> decide
      have cut := cut?_append free rest
      have blankEquals : Text.isBlank '=' = false := by decide
      simp only [attributeAt, List.append_assoc]
      simp only at taken
      rw [taken, List.drop_left]
      simp [blankEquals, notBlank, Text.indentWidth, attributeValue, isQuote, cut]
      omega

theorem WritesAttribute.exists_cons {given : Attribute} {source : Text}
    (written : WritesAttribute given source) (named : IsAttributeName given.name) :
    ∃ first others, source = first :: others ∧ isAttributeChar first = true := by
  obtain ⟨first, letters, same⟩ := List.exists_cons_of_ne_nil named.nonempty
  have letter := named.letters first (by simp [same])
  cases written with
  | bare name => exact ⟨first, letters, same, letter⟩
  | quoted =>
      simp only at same
      rw [same, List.cons_append]
      exact ⟨first, _, rfl, letter⟩

theorem attributesFrom_attribute {given : Attribute} {source : Text}
    (written : WritesAttribute given source) (named : IsAttributeName given.name)
    {rest : Text} (ends : EndsAttribute rest) :
    attributesFrom 0 (source ++ rest) = given :: attributesFrom 0 rest := by
  have read := attributeAt_written written named ends
  obtain ⟨first, others, rfl, letter⟩ := written.exists_cons named
  exact attributesFrom_of_attributeAt letter read

theorem endsAttribute_written {attributes : List Attribute} {source stop : Text}
    (written : WritesAttributes attributes source)
    (named : ∀ given ∈ attributes, IsAttributeName given.name) (isGap : IsGap stop) :
    EndsAttribute (source ++ stop) := by
  have gapStops : ∀ {gap : Text}, IsGap gap → ∀ c ∈ gap, isAttributeChar c = false := by
    intro gap isGap c member
    simp [isAttributeChar, isBlank_of_isGap isGap c member]
  cases written with
  | nil =>
      constructor
      · rintro c tail rfl
        exact gapStops isGap c (by simp)
      · intro tail
        rw [List.nil_append, List.dropWhile_eq_nil_iff.mpr (isBlank_of_isGap isGap)]
        simp
  | @cons gap given source attributes rest nonempty between attributeSource _ =>
      obtain ⟨c, gap, rfl⟩ := List.exists_cons_of_ne_nil nonempty
      constructor
      · intro d tail same
        obtain ⟨rfl, -⟩ := List.cons.inj same
        exact gapStops between _ (by simp)
      · intro tail
        obtain ⟨first, others, rfl, letter⟩ := attributeSource.exists_cons (named given (by simp))
        obtain ⟨notBlank, notEquals, -⟩ := isAttributeChar_iff.mp letter
        rw [List.append_assoc, List.dropWhile_append_of_pos (isBlank_of_isGap between)]
        simp [notBlank, notEquals]

/-- Reading written attributes gives them back. -/
theorem parseAttributes_written {attributes : List Attribute} {source stop : Text}
    (written : WritesAttributes attributes source)
    (named : ∀ given ∈ attributes, IsAttributeName given.name) (isGap : IsGap stop) :
    parseAttributes (source ++ stop) = attributes := by
  simp only [parseAttributes]
  induction written with
  | nil =>
      have read := attributesFrom_gap isGap []
      simpa [attributesFrom] using read
  | @cons gap given source attributes rest _ between attributeSource others ih =>
      have laterNamed : ∀ other ∈ attributes, IsAttributeName other.name :=
        fun other member => named other (by simp [member])
      have ends := endsAttribute_written others laterNamed isGap
      rw [List.append_assoc, attributesFrom_gap between, List.append_assoc,
        attributesFrom_attribute attributeSource (named given (by simp)) ends, ih laterNamed]

end MdxCheck.Tag
