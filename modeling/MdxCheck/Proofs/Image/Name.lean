import MdxCheck.Proofs.Image.Import
import MdxCheck.Proofs.Text.Cut

/-!
Where a name stands in a text by itself. White space around a piece of a text keeps a name within the
piece, so a name stands in a text just if it stands in one of its lines.
-/

namespace MdxCheck.Image

open Text

/-- Whether a text does not open with a character of a name. -/
def OpensApart (text : Text) : Prop :=
  ∀ c, text.head? = some c → isNameChar c = false

/-- Whether a text does not close with a character of a name. -/
def ClosesApart (text : Text) : Prop :=
  ∀ c, text.getLast? = some c → isNameChar c = false

/-- Whether a name stands in a text and is not part of a longer name. -/
def Occurs (name text : Text) : Prop :=
  ∃ front back, text = front ++ (name ++ back) ∧ ClosesApart front ∧ OpensApart back

theorem any_isNameChar_eq_false_iff {found : Option Char} :
    found.any isNameChar = false ↔ ∀ c, found = some c → isNameChar c = false := by
  cases found <;> simp

theorem hasName_eq_true_iff {name text : Text} (nonempty : name ≠ []) {before : Option Char} :
    hasName name before text = true ↔
      ∃ front back, text = front ++ (name ++ back) ∧
        (front.getLast?.or before).any isNameChar = false ∧ OpensApart back := by
  induction text generalizing before with
  | nil => simp [hasName, nonempty]
  | cons c text ih =>
      rw [hasName, Bool.or_eq_true, ih]
      constructor
      · rintro (here | ⟨front, back, rfl, apart, opens⟩)
        · split at here
          · next rest found =>
              rw [Bool.and_eq_true, Bool.not_eq_true', Bool.not_eq_true'] at here
              have split : c :: text = name ++ rest := dropStart?_eq_some_iff.mp found
              exact ⟨[], rest, split, by simpa using here.1, any_isNameChar_eq_false_iff.mp here.2⟩
          · contradiction
        · refine ⟨c :: front, back, rfl, ?_, opens⟩
          rwa [List.getLast?_cons, Option.some_or, ← Option.or_some]
      · rintro ⟨front, back, split, apart, opens⟩
        cases front with
        | nil =>
            left
            rw [List.nil_append] at split
            rw [dropStart?_eq_some_iff.mpr split]
            simpa using ⟨by simpa using apart, any_isNameChar_eq_false_iff.mpr opens⟩
        | cons d front =>
            obtain ⟨rfl, rfl⟩ := List.cons.inj split
            refine .inr ⟨front, back, rfl, ?_, opens⟩
            rwa [List.getLast?_cons, Option.some_or, ← Option.or_some] at apart

theorem hasName_iff_occurs {name text : Text} (nonempty : name ≠ []) :
    hasName name none text = true ↔ Occurs name text := by
  rw [hasName_eq_true_iff nonempty]
  simp only [Option.or_none, any_isNameChar_eq_false_iff]
  rfl

theorem OpensApart.append {front back : Text} (opens : OpensApart front)
    (next : front = [] → OpensApart back) : OpensApart (front ++ back) := by
  cases front with
  | nil => exact next rfl
  | cons c front => exact opens

theorem OpensApart.left {front back : Text} (opens : OpensApart (front ++ back)) : OpensApart front := by
  cases front with
  | nil => simp [OpensApart]
  | cons c front => exact opens

theorem ClosesApart.append {front back : Text} (closes : ClosesApart back)
    (last : back = [] → ClosesApart front) : ClosesApart (front ++ back) := by
  rcases List.eq_nil_or_concat back with rfl | ⟨before, c, rfl⟩
  · rw [List.append_nil]
    exact last rfl
  · simpa [ClosesApart] using closes

theorem ClosesApart.right {front back : Text} (closes : ClosesApart (front ++ back)) :
    ClosesApart back := by
  rcases List.eq_nil_or_concat back with rfl | ⟨before, c, rfl⟩
  · simp [ClosesApart]
  · simpa [ClosesApart] using closes

theorem opensApart_of_blank {text : Text} (blank : ∀ c, text.head? = some c → isBlank c = true) :
    OpensApart text :=
  fun c found => isNameChar_of_isBlank (blank c found)

theorem closesApart_of_blank {text : Text} (blank : ∀ c, text.getLast? = some c → isBlank c = true) :
    ClosesApart text :=
  fun c found => isNameChar_of_isBlank (blank c found)

theorem not_closesApart {front piece : Text} (nonempty : piece ≠ [])
    (inName : ∀ c ∈ piece, isNameChar c = true) : ¬ClosesApart (front ++ piece) := by
  intro closes
  obtain ⟨before, c, rfl⟩ := (List.eq_nil_or_concat piece).resolve_left nonempty
  have apart := closes c (by simp)
  rw [inName c (by simp)] at apart
  contradiction

theorem not_opensApart {piece back : Text} (nonempty : piece ≠ [])
    (inName : ∀ c ∈ piece, isNameChar c = true) : ¬OpensApart (piece ++ back) := by
  intro opens
  obtain ⟨c, rest, rfl⟩ := List.exists_cons_of_ne_nil nonempty
  have apart := opens c rfl
  rw [inName c (by simp)] at apart
  contradiction

theorem IsName.nonempty {name : Text} (isName : IsName name) : name ≠ [] := by
  rintro rfl
  exact absurd isName.first (by simp)

section

variable {name : Text} (isName : IsName name)

include isName

theorem not_occurs_nil : ¬Occurs name [] := by
  rintro ⟨front, back, split, -, -⟩
  obtain ⟨-, rest⟩ := List.append_eq_nil_iff.mp split.symm
  exact isName.nonempty (List.append_eq_nil_iff.mp rest).1

/-- No name stands across a seam that has white space, or the end of a text, on one side. -/
theorem occurs_append {front back : Text} (seam : ClosesApart front ∨ OpensApart back) :
    Occurs name (front ++ back) ↔ Occurs name front ∨ Occurs name back := by
  constructor
  · rintro ⟨before, after, split, closes, opens⟩
    rcases List.append_eq_append_iff.mp split with ⟨rest, rfl, rfl⟩ | ⟨left, rfl, same⟩
    · exact .inr ⟨rest, after, rfl, closes.right, opens⟩
    rcases List.append_eq_append_iff.mp same with ⟨rest, rfl, rfl⟩ | ⟨right, rfl, rfl⟩
    · exact .inl ⟨before, rest, rfl, closes, opens.left⟩
    -- the seam is within the name or at one of its ends
    by_cases noLeft : left = []
    · exact .inr ⟨[], after, by simp [noLeft], by simp [ClosesApart], opens⟩
    · by_cases noRight : right = []
      · exact .inl ⟨before, [], by simp [noRight], closes, by simp [OpensApart]⟩
      · obtain ⟨inLeft, inRight⟩ := List.forall_mem_append.mp isName.all
        exact absurd seam (not_or.mpr ⟨not_closesApart noLeft inLeft, not_opensApart noRight inRight⟩)
  · rintro (⟨before, after, rfl, closes, opens⟩ | ⟨before, after, rfl, closes, opens⟩)
    · refine ⟨before, after ++ back, by simp, closes, opens.append ?_⟩
      rintro rfl
      rw [List.append_nil] at seam
      exact seam.resolve_left (not_closesApart isName.nonempty isName.all)
    · refine ⟨front ++ before, after, by simp, closes.append ?_, opens⟩
      rintro rfl
      rw [List.nil_append] at seam
      exact seam.resolve_right (not_opensApart isName.nonempty isName.all)

theorem not_occurs_blank {gap : Text} (blank : ∀ c ∈ gap, isBlank c = true) : ¬Occurs name gap := by
  rintro ⟨front, back, rfl, -, -⟩
  obtain ⟨c, rest, rfl⟩ := List.exists_cons_of_ne_nil isName.nonempty
  have inName := isName.all c (by simp)
  rw [isNameChar_of_isBlank (blank c (by simp))] at inName
  contradiction

/-- White space may be put in or taken out where a text is cut. -/
theorem occurs_append_blank {front gap back : Text} (blank : ∀ c ∈ gap, isBlank c = true)
    (cut : gap = [] → back = []) :
    Occurs name (front ++ (gap ++ back)) ↔ Occurs name front ∨ Occurs name back := by
  have opens : OpensApart (gap ++ back) := by
    refine (opensApart_of_blank fun c found => blank c (List.mem_of_head? found)).append ?_
    intro noGap
    simp [cut noGap, OpensApart]
  have closes : ClosesApart gap :=
    closesApart_of_blank fun c found => blank c (List.mem_of_getLast? found)
  rw [occurs_append isName (.inr opens), occurs_append isName (.inl closes)]
  simp [not_occurs_blank isName blank]

theorem occurs_iff_mem_lines {text : Text} :
    Occurs name text ↔ ∃ line ∈ lines text, Occurs name line := by
  by_cases empty : text = []
  · simp [empty, lines, not_occurs_nil isName]
  · obtain ⟨line, stop, rest, whole, solid, stops, nonempty⟩ := exists_line text empty
    have shorter : rest.length < text.length := by
      have positive := List.length_pos_iff.mpr nonempty
      rw [whole, ← List.append_assoc, List.length_append]
      omega
    have later := @occurs_iff_mem_lines rest
    have blank (c : Char) (member : c ∈ stop) := isBlank_of_isLineEnd (stops.isLineEnd c member)
    rw [whole, occurs_append_blank isName blank stops.rest_eq_nil, lines_append solid stops nonempty,
      later]
    simp
termination_by text.length

theorem occurs_unlines (lines : List Text) :
    Occurs name (unlines lines) ↔ ∃ line ∈ lines, Occurs name line := by
  induction lines with
  | nil => simp [not_occurs_nil isName]
  | cons line lines ih =>
      cases lines with
      | nil => simp
      | cons next lines =>
          have split := @occurs_append_blank name isName line ['\n'] (unlines (next :: lines))
            (List.forall_mem_singleton.mpr (by decide)) (by simp)
          rw [unlines_cons_cons, ← List.singleton_append, split, ih]
          simp

end

end MdxCheck.Image
