import MdxCheck.Proofs.Document.Spaced
import MdxCheck.Proofs.Tag.Attributes

/-!
Trees of components as they are written, in any layout, and that reading gives them back.
-/

namespace MdxCheck

namespace Node

mutual

def unplaced : Node → Node
  | root children _ => root (unplacedAll children) none
  | component name attributes children _ => component name attributes (unplacedAll children) none
  | paragraph children _ => paragraph (unplacedAll children) none
  | text value _ => text value none
  | element kind children value _ => element kind (unplacedAll children) value none

def unplacedAll : List Node → List Node
  | [] => []
  | node :: nodes => unplaced node :: unplacedAll nodes

end

theorem unplacedAll_append (front back : List Node) :
    unplacedAll (front ++ back) = unplacedAll front ++ unplacedAll back := by
  induction front with
  | nil => rfl
  | cons node rest ih => simp [unplacedAll, ih]

end Node

namespace Document

open Tag (IsName IsAttributeName IsGap WritesAttributes Spaced)
open Text (FeedsOnly)

/-- A value that one of the quotes can enclose, with line feeds as its only ends of lines. -/
structure IsPlainValue (value : Text) : Prop where
  quotable : '"' ∉ value ∨ '\'' ∉ value
  feeds : Text.FeedsOnly value

structure IsPlainAttribute (given : Attribute) : Prop where
  name : IsAttributeName given.name
  value : ∀ value, given.value = some value → IsPlainValue value

inductive Plain : List Node → Prop
  | nil : Plain []
  | cons {name attributes children position rest} : IsName name →
      (∀ given ∈ attributes, IsPlainAttribute given) → Plain children → Plain rest →
      Plain (.component name attributes children position :: rest)

def openingTag (name attributes : Text) : Text :=
  '<' :: (name ++ (attributes ++ ['>']))

def leafTag (name attributes : Text) : Text :=
  '<' :: (name ++ (attributes ++ ['/', '>']))

def closingTag (name : Text) : Text :=
  '<' :: '/' :: (name ++ ['>'])

/-- The layouts of a forest of components: gaps of spaces and line feeds before and after every
tag, before every attribute and before the end of an opening tag; a component without children has
a pair of tags or one that closes itself. -/
inductive Writes : List Node → Text → Prop
  | nil {gap} : IsGap gap → Writes [] gap
  | pair {gap name attributes source stop children position inside rest after} :
      IsGap gap → WritesAttributes attributes source → IsGap stop → Writes children inside →
      Writes rest after →
      Writes (.component name attributes children position :: rest)
        (gap ++ (openingTag name (source ++ stop) ++ (inside ++ (closingTag name ++ after))))
  | leaf {gap name attributes source stop position rest after} :
      IsGap gap → WritesAttributes attributes source → IsGap stop → Writes rest after →
      Writes (.component name attributes [] position :: rest)
        (gap ++ (leafTag name (source ++ stop) ++ after))

theorem exists_writesAttributes {attributes : List Attribute}
    (plain : ∀ given ∈ attributes, IsPlainAttribute given) :
    ∃ source, WritesAttributes attributes source := by
  induction attributes with
  | nil => exact ⟨[], .nil⟩
  | cons given attributes ih =>
      obtain ⟨rest, later⟩ := ih fun other member => plain other (by simp [member])
      have space : IsGap [' '] := by simp [IsGap]
      obtain ⟨name, value⟩ := given
      cases value with
      | none => exact ⟨_, .cons (by simp) space (.bare name) later⟩
      | some value =>
          rcases ((plain ⟨name, some value⟩ (by simp)).value value rfl).quotable with free | free
          · exact ⟨_, .cons (by simp) space (.quoted (Or.inl rfl) free) later⟩
          · exact ⟨_, .cons (by simp) space (.quoted (Or.inr rfl) free) later⟩

theorem exists_writes {forest : List Node} (plain : Plain forest) : ∃ text, Writes forest text := by
  have noGap : IsGap [] := by simp [IsGap]
  induction plain with
  | nil => exact ⟨[], .nil noGap⟩
  | cons _ attributes _ _ children rest =>
      obtain ⟨source, written⟩ := exists_writesAttributes attributes
      obtain ⟨inside, writesChildren⟩ := children
      obtain ⟨after, writesRest⟩ := rest
      exact ⟨_, .pair noGap written noGap writesChildren writesRest⟩

/-! The characters of a layout. -/

theorem feedsOnly_of_solid {text : Text} (solid : ∀ c ∈ text, Text.isBlank c = false) :
    FeedsOnly text := by
  intro c member ends
  have blank := Text.isBlank_of_isLineEnd ends
  rw [solid c member] at blank
  exact absurd blank (by decide)

theorem feedsOnly_gap {gap : Text} (isGap : IsGap gap) : FeedsOnly gap := by
  intro c member ends
  rcases isGap c member with rfl | rfl
  · exact absurd ends (by decide)
  · rfl

theorem feedsOnly_name {name : Text} (isName : IsName name) : FeedsOnly name := by
  obtain ⟨first, rest, rfl, alpha, letters⟩ := isName
  apply feedsOnly_of_solid
  intro c member
  rcases List.mem_cons.mp member with rfl | later
  · exact Text.isBlank_of_isAlpha alpha
  · by_contra blank
    have notLetter := Tag.isNameRest_of_isBlank (by simpa using blank : Text.isBlank c = true)
    rw [letters c later] at notLetter
    exact absurd notLetter (by decide)

theorem feedsOnly_attribute {given : Attribute} {source : Text}
    (written : Tag.WritesAttribute given source) (plain : IsPlainAttribute given) :
    FeedsOnly source := by
  have name : FeedsOnly given.name := feedsOnly_of_solid fun c member =>
    (Tag.isAttributeChar_iff.mp (plain.name.letters c member)).1
  cases written with
  | bare => exact name
  | @quoted name value quote isQuote free =>
      have solid : FeedsOnly ['=', quote] := by
        apply feedsOnly_of_solid
        intro c member
        simp only [List.mem_cons, List.not_mem_nil, or_false] at member
        rcases member with rfl | rfl
        · decide
        · rcases isQuote with rfl | rfl <;> decide
      have last : FeedsOnly [quote] := fun c member => solid c (by simp_all)
      have inside : FeedsOnly value := (plain.value value rfl).feeds
      exact name.append (solid.append (inside.append last))

theorem feedsOnly_attributes {attributes : List Attribute} {source : Text}
    (written : WritesAttributes attributes source)
    (plain : ∀ given ∈ attributes, IsPlainAttribute given) : FeedsOnly source := by
  induction written with
  | nil => intro c member; simp at member
  | cons _ isGap given _ ih =>
      have first := feedsOnly_attribute given (plain _ (by simp))
      have later := ih fun other member => plain other (by simp [member])
      exact (feedsOnly_gap isGap).append (first.append later)

theorem feedsOnly_written {forest : List Node} {text : Text} (written : Writes forest text)
    (plain : Plain forest) : FeedsOnly text := by
  have bracket : FeedsOnly ['<'] := .of_all rfl
  have closing : FeedsOnly ['<', '/'] := .of_all rfl
  have ending : FeedsOnly ['>'] := .of_all rfl
  have leafEnding : FeedsOnly ['/', '>'] := .of_all rfl
  induction written with
  | nil isGap => exact feedsOnly_gap isGap
  | pair isGap attributes stop _ _ children rest =>
      cases plain with
      | cons isName given plainChildren plainRest =>
          have name := feedsOnly_name isName
          have source := (feedsOnly_attributes attributes given).append (feedsOnly_gap stop)
          have opens := bracket.append (name.append (source.append ending))
          have closes := closing.append (name.append ending)
          exact (feedsOnly_gap isGap).append (opens.append ((children plainChildren).append
            (closes.append (rest plainRest))))
  | leaf isGap attributes stop _ rest =>
      cases plain with
      | cons isName given _ plainRest =>
          have name := feedsOnly_name isName
          have source := (feedsOnly_attributes attributes given).append (feedsOnly_gap stop)
          have tag := bracket.append (name.append (source.append leafEnding))
          exact (feedsOnly_gap isGap).append (tag.append (rest plainRest))

theorem append_eq_append_feed {front after text : Text} (last : front.getLast? = some '>')
    (same : front ++ after = text ++ ['\n']) :
    ∃ shorter, after = shorter ++ ['\n'] ∧ text = front ++ shorter := by
  rcases List.append_eq_append_iff.mp same with ⟨shorter, parts⟩ | ⟨between, whole, feed⟩
  · exact ⟨shorter, parts.2, parts.1⟩
  · cases between with
    | nil => exact ⟨[], by simpa using feed.symm, by simpa using whole.symm⟩
    | cons c between =>
        simp only [List.cons_append, List.cons.injEq] at feed
        have empty := List.append_eq_nil_iff.mp feed.2.symm
        rw [whole, empty.1, ← feed.1] at last
        simp at last

/-- A line feed at the end of a layout may go. -/
theorem Writes.of_append_feed {forest : List Node} {whole : Text} (written : Writes forest whole) :
    ∀ text, whole = text ++ ['\n'] → Writes forest text := by
  induction written with
  | nil isGap =>
      rintro text rfl
      exact .nil fun c member => isGap c (by simp [member])
  | @pair gap name _ source stop _ position inside _ after isGap attributes stopGap children _ _ ih =>
      intro text same
      have last : (gap ++ (openingTag name (source ++ stop) ++ (inside ++
          closingTag name))).getLast? = some '>' := by
        simp [closingTag, List.getLast?_append, List.getLast?_cons]
      have parts : (gap ++ (openingTag name (source ++ stop) ++ (inside ++ closingTag name))) ++
          after = text ++ ['\n'] := by
        rw [← same]
        simp only [List.append_assoc]
      obtain ⟨shorter, feed, rfl⟩ := append_eq_append_feed last parts
      have shorterWritten := @Writes.pair _ name _ _ _ _ position _ _ _ isGap attributes stopGap
        children (ih shorter feed)
      simpa only [List.append_assoc] using shorterWritten
  | @leaf gap name _ source stop position _ after isGap attributes stopGap _ ih =>
      intro text same
      have last : (gap ++ leafTag name (source ++ stop)).getLast? = some '>' := by
        simp [leafTag, List.getLast?_append, List.getLast?_cons]
      have parts : (gap ++ leafTag name (source ++ stop)) ++ after = text ++ ['\n'] := by
        rw [← same]
        simp only [List.append_assoc]
      obtain ⟨shorter, feed, rfl⟩ := append_eq_append_feed last parts
      have shorterWritten := @Writes.leaf _ name _ _ _ position _ _ isGap attributes stopGap
        (ih shorter feed)
      simpa only [List.append_assoc] using shorterWritten

end Document

end MdxCheck
