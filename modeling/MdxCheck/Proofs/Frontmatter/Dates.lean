import MdxCheck.Frontmatter.Dates
import MdxCheck.Proofs.Calendar.Date

/-!
Which texts are taken for dates: a real date, alone or with a time of day after it. The time is not
read, so what only looks like one passes as well.
-/

namespace MdxCheck.Frontmatter

open Calendar (Date)
open Text (padded)

section Written

/-- An hour and a minute that a day has, and perhaps a second. -/
def IsClock (text : Text) : Prop :=
  ∃ hour < 24, ∃ minute < 60, ∃ rest : Text,
    text = padded 10 2 hour ++ ':' :: (padded 10 2 minute ++ rest) ∧
      (rest = [] ∨ ∃ second < 60, rest = ':' :: padded 10 2 second)

/-- The fraction of a second, or of a minute. -/
def IsFraction (text : Text) : Prop :=
  ∃ point digits, text = point :: digits ∧ (point = '.' ∨ point = ',') ∧ digits ≠ [] ∧
    ∀ c ∈ digits, c.isDigit = true

/-- How far a local time is from universal time. -/
def IsOffset (text : Text) : Prop :=
  text = ['Z'] ∨
    ∃ sign, (sign = '+' ∨ sign = '-') ∧ ∃ hour < 24, ∃ rest : Text,
      text = sign :: (padded 10 2 hour ++ rest) ∧
        (rest = [] ∨ ∃ minute < 60, rest = padded 10 2 minute ∨ rest = ':' :: padded 10 2 minute)

/-- What may follow a date: a time of day that exists. -/
def IsTime (text : Text) : Prop :=
  ∃ gap, (gap = 'T' ∨ gap = ' ') ∧ ∃ clock fraction offset : Text,
    text = gap :: (clock ++ (fraction ++ offset)) ∧ IsClock clock ∧
      (fraction = [] ∨ IsFraction fraction) ∧ (offset = [] ∨ IsOffset offset)

/-- A text that is a date, alone or with a time of day, between white space. -/
def IsDated (text : Text) (date : Date) : Prop :=
  date.Exists ∧ ∃ tail, Text.trim text = date.iso ++ tail ∧ (tail = [] ∨ IsTime tail)

/-- A real date with something after it that starts like a time and is none: an hour that no day
has, or more than the time. -/
def HasFalseTime (text : Text) : Prop :=
  ∃ date : Date, date.Exists ∧ ∃ tail, Text.trim text = date.iso ++ tail ∧
    startsWithTime tail = true ∧ ¬IsTime tail

end Written

theorem isDecimalDigit_of_isDigit {c : Char} (digit : c.isDigit = true) :
    Text.isDecimalDigit c = true := by
  obtain ⟨low, high⟩ : 48 ≤ c.toNat ∧ c.toNat ≤ 57 := by
    simpa [Char.isDigit, UInt32.le_iff_toNat_le] using digit
  simp [Text.isDecimalDigit, Text.decimalDigit?, low, high, show c.toNat < 128 by omega]

theorem exists_two_digits {n : Nat} (fits : n < 100) :
    ∃ a b, padded 10 2 n = [a, b] ∧ Text.isDecimalDigit a = true ∧ Text.isDecimalDigit b = true := by
  have shown : padded 10 2 n = [Text.digitChar (n / 10), Text.digitChar (n % 10)] := by
    rw [Text.padded_succ, Text.padded_one (by omega)]
    rfl
  have digits : ∀ c ∈ padded 10 2 n, Text.isDecimalDigit c = true :=
    fun c member => isDecimalDigit_of_isDigit (Text.isDigit_of_mem_padded member)
  rw [shown] at digits
  exact ⟨_, _, shown, digits _ (by simp), digits _ (by simp)⟩

theorem IsTime.startsWithTime {tail : Text} (time : IsTime tail) : startsWithTime tail = true := by
  obtain ⟨gap, gaps, clock, fraction, offset, rfl, clocked, -, -⟩ := time
  obtain ⟨hour, hours, minute, minutes, rest, rfl, -⟩ := clocked
  obtain ⟨a, b, hourShown, first, second⟩ := exists_two_digits (n := hour) (by omega)
  obtain ⟨c, d, minuteShown, third, fourth⟩ := exists_two_digits (n := minute) (by omega)
  rw [hourShown, minuteShown]
  simp [Frontmatter.startsWithTime, first, second, third, fourth, gaps]

/-- A text is read as a date just if it is one, alone or before what starts like a time. -/
theorem dateOfText_eq_some_iff {text : Text} {date : Date} :
    dateOfText? text = some date ↔
      date.Exists ∧ ∃ tail, Text.trim text = date.iso ++ tail ∧
        (tail = [] ∨ startsWithTime tail = true) := by
  constructor
  · intro read
    simp only [dateOfText?] at read
    split at read
    · next fine =>
        obtain ⟨real, shown⟩ := Date.ofIso_eq_some_iff.mp read
        refine ⟨real, (Text.trim text).drop 10, ?_, by simpa using fine⟩
        rw [← shown, List.take_append_drop]
    · simp at read
  · rintro ⟨real, tail, shown, fine⟩
    have cut : (Text.trim text).take 10 = date.iso ∧ (Text.trim text).drop 10 = tail := by
      have long := Date.length_iso real
      constructor
      · rw [shown, List.take_left' long]
      · rw [shown, List.drop_left' long]
    simp only [dateOfText?, cut]
    rw [if_pos (by simpa using fine)]
    exact Date.ofIso_eq_some_iff.mpr ⟨real, rfl⟩

theorem IsDated.read {text : Text} {date : Date} (dated : IsDated text date) :
    dateOfText? text = some date := by
  obtain ⟨real, tail, shown, alone | time⟩ := dated
  · exact dateOfText_eq_some_iff.mpr ⟨real, tail, shown, .inl alone⟩
  · exact dateOfText_eq_some_iff.mpr ⟨real, tail, shown, .inr time.startsWithTime⟩

/-- A false time is read over: the text passes for a date and is none. -/
theorem HasFalseTime.misread {text : Text} (false : HasFalseTime text) :
    ∃ date, dateOfText? text = some date ∧ ¬IsDated text date := by
  obtain ⟨date, real, tail, shown, starts, untimely⟩ := false
  refine ⟨date, dateOfText_eq_some_iff.mpr ⟨real, tail, shown, .inr starts⟩, ?_⟩
  rintro ⟨-, other, same, fine⟩
  obtain rfl : tail = other := List.append_cancel_left (shown.symm.trans same)
  rcases fine with rfl | time
  · simp [startsWithTime] at starts
  · exact untimely time

theorem isDated_of_read {text : Text} (timely : ¬HasFalseTime text) {date : Date}
    (read : dateOfText? text = some date) : IsDated text date := by
  obtain ⟨real, tail, shown, alone | starts⟩ := dateOfText_eq_some_iff.mp read
  · exact ⟨real, tail, shown, .inl alone⟩
  · refine ⟨real, tail, shown, .inr ?_⟩
    by_contra untimely
    exact timely ⟨date, real, tail, shown, starts, untimely⟩

section Messages

variable {frontmatter : Frontmatter} (whole : frontmatter.problem = none) {text : Text}

include whole

theorem releaseMessage_of_unread (found : frontmatter.field? releaseField = some (.text text))
    (unread : dateOfText? text = none) :
    frontmatter.releaseMessage? =
      .ok (some ("releaseDate must be a date in the format YYYY-MM-DD, found: ".toList ++ text)) := by
  have fault : frontmatter.releaseFault? = some (.notDate (.text text)) := by
    simp [releaseFault?, found, dateOf?, unread]
  simp only [releaseMessage?, whole, fault, Option.isSome_none, Bool.false_eq_true, if_false]
  rfl

theorem freshnessMessage_of_unread
    (found : frontmatter.field? freshnessField = some (.text text))
    (dated : Text.trim text ≠ "never".toList) (unread : dateOfText? text = none)
    (today : Date) (limit : Option AgeLimit) :
    frontmatter.freshnessMessage? today limit =
      .ok (some (("freshnessValidatedDate must be a date in the format YYYY-MM-DD or `never`, " ++
        "found: ").toList ++ text)) := by
  have other : isNever (.text text) = false := beq_eq_false_iff_ne.mpr dated
  have fault : frontmatter.freshness = .error (.notDate (.text text)) := by
    simp [freshness, found, other, dateOf?, unread]
  simp only [freshnessMessage?, whole, freshnessFault?, fault, Option.isSome_none,
    Bool.false_eq_true, if_false]
  rfl

end Messages

/-- Only real dates pass: a text is read as the date that it is, and any other text is told the
format that a date has. -/
structure OnlyDatesPass (text : Text) : Prop where
  read : ∀ date, dateOfText? text = some date ↔ IsDated text date
  release : (¬∃ date, IsDated text date) → ∀ frontmatter : Frontmatter, frontmatter.problem = none →
    frontmatter.field? releaseField = some (.text text) →
      frontmatter.releaseMessage? =
        .ok (some ("releaseDate must be a date in the format YYYY-MM-DD, found: ".toList ++ text))
  freshness : (¬∃ date, IsDated text date) → Text.trim text ≠ "never".toList →
    ∀ frontmatter : Frontmatter, frontmatter.problem = none →
      frontmatter.field? freshnessField = some (.text text) → ∀ today limit,
        frontmatter.freshnessMessage? today limit =
          .ok (some (("freshnessValidatedDate must be a date in the format YYYY-MM-DD or `never`, " ++
            "found: ").toList ++ text))

theorem onlyDatesPass_of_timely {text : Text} (timely : ¬HasFalseTime text) : OnlyDatesPass text := by
  have read (date : Date) : dateOfText? text = some date ↔ IsDated text date :=
    ⟨isDated_of_read timely, IsDated.read⟩
  have unread (undated : ¬∃ date, IsDated text date) : dateOfText? text = none := by
    cases found : dateOfText? text with
    | none => rfl
    | some date => exact absurd ⟨date, (read date).mp found⟩ undated
  refine ⟨read, ?_, ?_⟩
  · intro undated frontmatter whole found
    exact releaseMessage_of_unread whole found (unread undated)
  · intro undated dated frontmatter whole found today limit
    exact freshnessMessage_of_unread whole found dated (unread undated) today limit

theorem HasFalseTime.not_onlyDatesPass {text : Text} (false : HasFalseTime text) :
    ¬OnlyDatesPass text := by
  intro passes
  obtain ⟨date, read, undated⟩ := false.misread
  exact undated ((passes.read date).mp read)

/-- The texts that are checked as they should be are those without a false time; what is read over
is the time alone, never a date that does not exist. -/
theorem onlyDatesPass_iff (text : Text) :
    (OnlyDatesPass text ↔ ¬HasFalseTime text) ∧
      ∀ date, dateOfText? text = some date ↔
        date.Exists ∧ ∃ tail, Text.trim text = date.iso ++ tail ∧
          (tail = [] ∨ startsWithTime tail = true) := by
  refine ⟨⟨?_, onlyDatesPass_of_timely⟩, fun date => dateOfText_eq_some_iff⟩
  intro passes false
  exact false.not_onlyDatesPass passes

/-- No day has an hour 99, and a release on it is not complained of. -/
theorem release_of_hour99 :
    HasFalseTime "2024-05-01T99:99" ∧ ¬OnlyDatesPass "2024-05-01T99:99" ∧
      (ofText "---\nreleaseDate: '2024-05-01T99:99'\n---\n").map releaseMessage? = .ok (.ok none) := by
  have false : HasFalseTime "2024-05-01T99:99" := by
    refine ⟨⟨2024, 5, 1⟩, by decide, ['T', '9', '9', ':', '9', '9'], by decide, by decide, ?_⟩
    rintro ⟨gap, -, clock, fraction, offset, shown, ⟨hour, hours, minute, -, rest, rfl, -⟩, -⟩
    have long : (padded 10 2 hour).length = 2 := Text.length_padded (by omega)
    have same : padded 10 2 hour = ['9', '9'] := by
      have front := congrArg (fun tail => (tail.drop 1).take 2) shown
      simpa [List.take_append_of_le_length, long, List.take_of_length_le] using front.symm
    have value := congrArg (Text.toNat 10) same
    rw [Text.toNat_padded (by omega)] at value
    have : Text.toNat 10 ['9', '9'] = 99 := by decide
    omega
  exact ⟨false, false.not_onlyDatesPass, by decide +kernel⟩

end MdxCheck.Frontmatter
