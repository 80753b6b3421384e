import Mathlib.Data.Nat.Basic
import MdxCheck.Proofs.Yaml.Traversal

/-!
Which YAML texts are read without a misuse: each scalar has the form that the reading of its type
relies on. All other faults of a text are reported as such.
-/

namespace MdxCheck

theorem Text.length_splitOn (isSeparator : Char → Bool) (text : Text) :
    (Text.splitOn isSeparator text).length = text.countP isSeparator + 1 := by
  induction text with
  | nil => rfl
  | cons c rest ih =>
      rw [Text.splitOn]
      cases pieces : Text.splitOn isSeparator rest with
      | nil => simp [pieces] at ih
      | cons piece others =>
          rw [pieces] at ih
          by_cases separates : isSeparator c = true
          · simp [separates, ← ih]
          · simp [separates, ← ih]

theorem Text.toLower_eq_colon {c : Char} (lower : c.toLower = ':') : c = ':' := by
  by_contra other
  unfold Char.toLower at lower
  split at lower
  case isTrue upper =>
    have shifted : c.val + 32 = 58 := congrArg Char.val lower
    have low : (65 : UInt32) ≤ c.val := upper.1
    have high : c.val ≤ (90 : UInt32) := upper.2
    have shifted := congrArg UInt32.toNat shifted
    rw [UInt32.toNat_add] at shifted
    rw [UInt32.le_iff_toNat_le] at low high
    simp at shifted low high
    omega
  case isFalse => exact other lower

theorem Text.count_lower_colon (text : Text) :
    (text.map Char.toLower).count ':' = text.count ':' := by
  simp only [List.count_eq_countP, List.countP_map]
  refine List.countP_congr fun c _ => ?_
  suffices c.toLower = ':' ↔ c = ':' by simpa using this
  exact ⟨Text.toLower_eq_colon, fun colon => by rw [colon]; rfl⟩

namespace Yaml

def Failure.IsReported : Failure → Prop
  | .misuse _ => False
  | _ => True

/-- A result that is no misuse, and has a property if it is a value. -/
def Handled {α : Type} (P : α → Prop) (result : Except Failure α) : Prop :=
  Yields Failure.IsReported P result

theorem length_of_mapM_ok {α β ε : Type} {f : α → Except ε β} {items : List α} {values : List β}
    (mapped : items.mapM f = .ok values) : values.length = items.length := by
  induction items generalizing values with
  | nil =>
      cases mapped
      rfl
  | cons item items ih =>
      rw [List.mapM_cons] at mapped
      cases first : f item with
      | error fault => simp [first, bind, Except.bind] at mapped
      | ok value =>
          cases rest : items.mapM f with
          | error fault => simp [first, rest, bind, Except.bind] at mapped
          | ok others =>
              simp only [first, rest, bind, Except.bind, pure, Except.pure, Except.ok.injEq] at mapped
              rw [← mapped, List.length_cons, ih rest, List.length_cons]

/-- Whether a text has the form that the reading of a type relies on. -/
def Tag.Fits (text : Text) : Tag → Prop
  | .boolean => ∃ truth, Tag.truthWords.lookup (text.map Char.toLower) = some truth
  | .integer => Decimal.unsigned (text.filter (· ≠ '_')) ≠ []
  | .float => text.filter (· ≠ '_') ≠ [] ∧ text.count ':' < placeLimit
  | .timestamp =>
    ∃ timestamp,
      Timestamp.ofText? (if text.getLast? = some '\n' then text.dropLast else text) =
        some timestamp
  | _ => True

namespace Node

/-- Whether a node, read as a scalar, has an end to its default values and a text that fits its
type. No default value of a mapping is read as a timestamp. -/
structure Fits (node : Node) : Prop where
  ends : node.scalarText ≠ .error (.misuse .endlessDefault)
  form : ∀ text, node.scalarText = .ok text → node.tag.Fits text
  noTimestamp : ∀ text, node.scalarText = .ok text → node.isMapping = true → node.tag ≠ .timestamp

theorem Fits.of_scalar {tag : Tag} {text : Text} {start : Mark} (form : tag.Fits text) :
    (scalar tag text start).Fits where
  ends := by simp [scalarText, textWithin]
  form := by
    intro read same
    obtain rfl : text = read := by simpa [scalarText, textWithin] using same
    exact form
  noTimestamp := by simp [isMapping]

def Sound (root : Node) : Prop :=
  ∀ node, Within node root → node.Fits

def SoundEntry (entry : Node × Node) : Prop :=
  entry.1.Sound ∧ entry.2.Sound

namespace Sound

theorem of_scalar {tag : Tag} {text : Text} {start : Mark} (form : tag.Fits text) :
    (scalar tag text start).Sound :=
  Throughout.of_scalar (.of_scalar form)

theorem of_mapping {tag : Tag} {entries : List (Node × Node)} {start : Mark}
    (fits : (mapping tag entries start).Fits) (each : ∀ entry ∈ entries, SoundEntry entry) :
    (mapping tag entries start).Sound :=
  Throughout.of_mapping fits each

end Sound

theorem numeric_map {α β : Type} (make : β → Value) (f : α → β) (result : Except NumberFault α) :
    numeric make (result.map f) = numeric (make ∘ f) result := by
  rcases result with (_ | _ | _) | _ <;> rfl

theorem handled_digits {α : Type} (make : α → Value) (result : Except Decimal.Fault α) :
    Handled (fun _ => True) (numeric make (result.mapError .digits)) := by
  cases result <;> trivial

theorem handled_integer {text : Text} (fits : Tag.integer.Fits text) :
    Handled (fun _ => True) (numeric .integer (integerValue text)) := by
  unfold integerValue
  simp only
  have fits : Decimal.unsigned (text.filter (· ≠ '_')) ≠ [] := fits
  generalize text.filter (· ≠ '_') = kept at fits
  have someDigits : (Decimal.unsigned kept).isEmpty = false := List.isEmpty_eq_false_iff.mpr fits
  have someText : kept.isEmpty = false := by
    cases kept with
    | nil => exact absurd rfl fits
    | cons _ _ => rfl
  simp only [someText, someDigits, Bool.false_eq_true, if_false]
  exact handled_digits _ _

theorem count_unsigned_le (c : Char) (text : Text) :
    (Decimal.unsigned text).count c ≤ text.count c := by
  unfold Decimal.unsigned
  split
  · exact List.count_le_count_cons
  · exact List.count_le_count_cons
  · exact le_rfl

theorem handled_places {digits : Text} (fewColons : digits.count ':' < placeLimit)
    (make : Float → Value) :
    Handled (fun _ => True) (numeric make (do
      let places ← ((Text.splitOn (· == ':') digits).mapM Decimal.readFloat).mapError
        NumberFault.digits
      if placeLimit < places.length then .error .hugeWeight
      else return floatSixtieths 1 0.0 places.reverse)) := by
  cases read : (Text.splitOn (· == ':') digits).mapM Decimal.readFloat with
  | error fault => trivial
  | ok places =>
      have few : places.length ≤ placeLimit := by
        have counted := length_of_mapM_ok read
        rw [Text.length_splitOn, ← List.count_eq_countP] at counted
        omega
      simp only [Except.mapError, bind, Except.bind]
      rw [if_neg (by omega)]
      trivial

theorem handled_float {text : Text} (fits : Tag.float.Fits text) :
    Handled (fun _ => True) (numeric .float (floatValue text)) := by
  obtain ⟨someText, fewColons⟩ := fits
  have someLower : ((text.filter (· ≠ '_')).map Char.toLower).isEmpty = false := by
    simpa using someText
  have fewDigits : (Decimal.unsigned ((text.filter (· ≠ '_')).map Char.toLower)).count ':' <
      placeLimit := by
    calc
      _ ≤ ((text.filter (· ≠ '_')).map Char.toLower).count ':' := count_unsigned_le _ _
      _ = (text.filter (· ≠ '_')).count ':' := Text.count_lower_colon _
      _ ≤ text.count ':' := List.filter_sublist.count_le _
      _ < placeLimit := fewColons
  simp only [floatValue, someLower, Bool.false_eq_true, if_false, numeric_map]
  generalize Decimal.unsigned ((text.filter (· ≠ '_')).map Char.toLower) = digits at fewDigits
  by_cases infinite : digits = ".inf".toList
  · rw [if_pos infinite]
    trivial
  by_cases none : digits = ".nan".toList
  · rw [if_neg infinite, if_pos none]
    trivial
  rw [if_neg infinite, if_neg none]
  by_cases colon : digits.any (· == ':') = true
  · rw [if_pos colon]
    exact handled_places fewDigits _
  · rw [if_neg colon]
    exact handled_digits _ _

namespace Fits

variable {node : Node}

theorem scalarValue (fits : node.Fits) : Handled (fun _ => True) node.scalarValue := by
  refine yields_scalarValue (fun _ => trivial) fits.ends (fun text read => ?_) fits.noTimestamp
  have form := fits.form text read
  cases type : node.tag with
  | boolean =>
      have form : Tag.boolean.Fits text := type ▸ form
      exact form
  | integer =>
      have form : Tag.integer.Fits text := type ▸ form
      exact handled_integer form
  | float =>
      have form : Tag.float.Fits text := type ▸ form
      exact handled_float form
  | timestamp =>
      obtain ⟨timestamp, known⟩ : Tag.timestamp.Fits text := type ▸ form
      exact ⟨timestamp, known, fun _ _ => trivial⟩
  | _ => trivial

theorem withText (fits : node.Fits) : (node.withTag .text).Fits := by
  cases node with
  | scalar tag text start => exact .of_scalar trivial
  | sequence tag items start => exact ⟨fits.ends, fun _ _ => trivial, by simp [withTag, isMapping]⟩
  | mapping tag entries start => exact ⟨fits.ends, fun _ _ => trivial, by simp [withTag, Node.tag]⟩
  | enclosing isMap start => exact fits

end Fits

theorem fits_settles : Settles Fits Failure.IsReported where
  error _ := trivial
  retagged fits := fits.withText
  scalarValue fits := fits.scalarValue

end Node

/-- A text that is read without a misuse: every escape for a character is a number of moderate size,
and the nodes of its document fit their types. -/
structure Sound (source : Text) : Prop where
  codes : ∀ code, document? source = .error (.badCode code) → code < 0x80000000
  nodes : ∀ root, document? source = .ok (some root) → root.Sound

/-- A sound text has a value or a fault that is reported. -/
theorem handled_load {source : Text} (sound : Sound source) :
    Handled (fun _ => True) (load source) := by
  refine yields_load Node.fits_settles (fun _ _ => trivial) (fun code read => ?_) sound.nodes
  rw [Failure.ofScan, if_pos (sound.codes code read)]
  trivial

end Yaml

end MdxCheck
