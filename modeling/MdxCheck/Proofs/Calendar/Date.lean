import Mathlib.Logic.Function.Iterate
import MdxCheck.Calendar.Date
import MdxCheck.Proofs.Text.Decimal

/-!
The days of the calendar: which dates exist, how each is written, and that the number of a day
counts the days from one to the next.
-/

namespace MdxCheck.Calendar

theorem daysInMonth_pos (year month : Nat) : 0 < daysInMonth year month := by
  unfold daysInMonth
  split
  · split <;> omega
  · split <;> omega

theorem daysInMonth_le (year month : Nat) : daysInMonth year month ≤ 31 := by
  unfold daysInMonth
  split
  · split <;> omega
  · split <;> omega

namespace Date

/-- A day that the calendar has, in any year from the first on. -/
structure OnCalendar (date : Date) : Prop where
  year_pos : 1 ≤ date.year
  month_pos : 1 ≤ date.month
  month_le : date.month ≤ 12
  day_pos : 1 ≤ date.day
  day_le : date.day ≤ daysInMonth date.year date.month

/-- A day that the calendar has and whose year is written in four digits. -/
structure Exists (date : Date) : Prop extends OnCalendar date where
  year_le : date.year ≤ 9999

instance (date : Date) : Decidable date.OnCalendar :=
  decidable_of_iff
    (1 ≤ date.year ∧ 1 ≤ date.month ∧ date.month ≤ 12 ∧ 1 ≤ date.day ∧
      date.day ≤ daysInMonth date.year date.month)
    ⟨fun ⟨year, low, high, first, last⟩ => ⟨year, low, high, first, last⟩,
      fun ⟨year, low, high, first, last⟩ => ⟨year, low, high, first, last⟩⟩

instance (date : Date) : Decidable date.Exists :=
  decidable_of_iff (date.OnCalendar ∧ date.year ≤ 9999)
    ⟨fun ⟨real, short⟩ => ⟨real, short⟩, fun real => ⟨real.toOnCalendar, real.year_le⟩⟩

theorem check_eq_ok_iff {year month day : Nat} {date : Date} :
    check year month day = .ok date ↔ date = ⟨year, month, day⟩ ∧ date.Exists := by
  constructor
  · intro checked
    unfold check at checked
    split at checked
    · simp at checked
    split at checked
    · simp at checked
    split at checked
    · simp at checked
    next years months days =>
    obtain rfl : Date.mk year month day = date := Except.ok.inj checked
    refine ⟨rfl, ⟨⟨?_, ?_, ?_, ?_, ?_⟩, ?_⟩⟩ <;> dsimp only <;> omega
  · rintro ⟨rfl, ⟨⟨first, low, high, start, last⟩, short⟩⟩
    dsimp only at first low high start last short
    rw [check, if_neg (by omega), if_neg (by omega), if_neg (by omega)]

/-- The order of the calendar: by year, then by month, then by day. -/
def Before (date other : Date) : Prop :=
  date.year < other.year ∨
    date.year = other.year ∧
      (date.month < other.month ∨ date.month = other.month ∧ date.day < other.day)

instance (date other : Date) : Decidable (date.Before other) := by
  unfold Before
  infer_instance

theorem before_trichotomy (date other : Date) :
    date.Before other ∨ date = other ∨ other.Before date := by
  cases date
  cases other
  simp only [Before, mk.injEq]
  omega

/-- The day that follows. -/
def next (date : Date) : Date :=
  if date.day < daysInMonth date.year date.month then { date with day := date.day + 1 }
  else if date.month < 12 then ⟨date.year, date.month + 1, 1⟩
  else ⟨date.year + 1, 1, 1⟩

theorem OnCalendar.next {date : Date} (real : date.OnCalendar) : date.next.OnCalendar := by
  obtain ⟨first, low, high, start, last⟩ := real
  unfold Date.next
  split
  · exact ⟨first, low, high, by dsimp only; omega, by dsimp only; omega⟩
  · split
    · exact ⟨first, by dsimp only; omega, by dsimp only; omega, Nat.le_refl 1, daysInMonth_pos _ _⟩
    · exact ⟨by dsimp only; omega, Nat.le_refl 1, by dsimp only; omega, Nat.le_refl 1,
        daysInMonth_pos _ _⟩

theorem daysInMonths_mono (year : Nat) {first last : Nat} (ordered : first ≤ last) :
    daysInMonths year first ≤ daysInMonths year last := by
  induction ordered with
  | refl => exact Nat.le_refl _
  | step _ ih => exact Nat.le_trans ih (Nat.le_add_right _ _)

theorem daysInMonths_year (year : Nat) :
    daysInMonths year 12 = if isLeap year then 366 else 365 := by
  by_cases leap : isLeap year = true <;> simp [daysInMonths, daysInMonth, leap]

theorem isLeap_iff {year : Nat} :
    isLeap year = true ↔ year % 4 = 0 ∧ (year % 100 = 0 → year % 400 = 0) := by
  simp [isLeap, Decidable.imp_iff_not_or]

theorem daysBeforeYear_succ {year : Nat} (positive : 1 ≤ year) :
    daysBeforeYear (year + 1) = daysBeforeYear year + daysInMonths year 12 := by
  obtain ⟨past, rfl⟩ : ∃ past, year = past + 1 := ⟨year - 1, by omega⟩
  -- a quotient grows with the year just if the year is a multiple
  have fourth : (past + 1) / 4 = past / 4 + if (past + 1) % 4 = 0 then 1 else 0 := by
    split <;> omega
  have century : (past + 1) / 100 = past / 100 + if (past + 1) % 100 = 0 then 1 else 0 := by
    split <;> omega
  have cycle : (past + 1) / 400 = past / 400 + if (past + 1) % 400 = 0 then 1 else 0 := by
    split <;> omega
  have leap : (if isLeap (past + 1) then 366 else 365) + (if (past + 1) % 100 = 0 then 1 else 0) =
      365 + (if (past + 1) % 4 = 0 then 1 else 0) + (if (past + 1) % 400 = 0 then 1 else 0) := by
    simp only [isLeap_iff]
    split_ifs <;> omega
  have centuries : past / 100 ≤ past / 4 := Nat.div_le_div_left (by decide) (by decide)
  have fewer : (past + 1) / 100 ≤ (past + 1) / 4 := Nat.div_le_div_left (by decide) (by decide)
  rw [fourth, century] at fewer
  rw [daysInMonths_year]
  simp only [daysBeforeYear, Nat.add_sub_cancel, fourth, century, cycle]
  generalize past / 4 = fours, past / 100 = hundreds, past / 400 = cycles at *
  omega

theorem daysBeforeYear_mono {first last : Nat} (positive : 1 ≤ first) (ordered : first ≤ last) :
    daysBeforeYear first ≤ daysBeforeYear last := by
  induction ordered with
  | refl => exact Nat.le_refl _
  | step above ih =>
      rw [daysBeforeYear_succ (Nat.le_trans positive above)]
      exact Nat.le_trans ih (Nat.le_add_right _ _)

theorem dayNumber_next {date : Date} (real : date.OnCalendar) :
    date.next.dayNumber = date.dayNumber + 1 := by
  obtain ⟨first, low, high, start, last⟩ := real
  obtain ⟨year, month, day⟩ := date
  obtain ⟨month, rfl⟩ : ∃ past, month = past + 1 := ⟨month - 1, by dsimp only at low; omega⟩
  dsimp only at first low high start last
  unfold Date.next dayNumber
  split
  · next early =>
      dsimp only
      omega
  · next late =>
      -- the last day of its month: the days of the month are over
      dsimp only at late
      split
      · simp only [Nat.add_sub_cancel, daysInMonths]
        omega
      · next december =>
          obtain rfl : month = 11 := by dsimp only at december; omega
          have exceeds := daysBeforeYear_succ first
          rw [daysInMonths] at exceeds
          have begun : daysInMonths (year + 1) (1 - 1) = 0 := rfl
          simp only [Nat.add_sub_cancel] at *
          omega

/-- Within its year a day is numbered after the months that are over and within its own. -/
theorem dayNumber_bounds {date : Date} (real : date.OnCalendar) :
    daysBeforeYear date.year + daysInMonths date.year (date.month - 1) < date.dayNumber ∧
      date.dayNumber ≤ daysBeforeYear date.year + daysInMonths date.year date.month := by
  obtain ⟨first, low, high, start, last⟩ := real
  obtain ⟨past, month⟩ : ∃ past, date.month = past + 1 := ⟨date.month - 1, by omega⟩
  rw [month] at last
  simp only [dayNumber, month, Nat.add_sub_cancel, daysInMonths]
  omega

theorem dayNumber_lt_of_before {date other : Date} (real : date.OnCalendar)
    (otherReal : other.OnCalendar) (before : date.Before other) :
    date.dayNumber < other.dayNumber := by
  have upper := (dayNumber_bounds real).2
  have lower := (dayNumber_bounds otherReal).1
  rcases before with year | ⟨year, month | ⟨month, day⟩⟩
  · have past := daysInMonths_mono date.year real.month_le
    have exceeds := daysBeforeYear_succ real.year_pos
    have later := daysBeforeYear_mono (Nat.le_add_left 1 date.year) (Nat.succ_le_of_lt year)
    omega
  · have past := daysInMonths_mono date.year (Nat.le_sub_one_of_lt month)
    rw [← year] at lower
    omega
  · simp only [dayNumber, year, month]
    omega

theorem before_iff {date other : Date} (real : date.OnCalendar) (otherReal : other.OnCalendar) :
    date.Before other ↔ date.dayNumber < other.dayNumber := by
  constructor
  · exact dayNumber_lt_of_before real otherReal
  · intro less
    rcases before_trichotomy date other with before | rfl | after
    · exact before
    · omega
    · have := dayNumber_lt_of_before otherReal real after
      omega

theorem dayNumber_injective {date other : Date} (real : date.OnCalendar)
    (otherReal : other.OnCalendar) (same : date.dayNumber = other.dayNumber) : date = other := by
  rcases before_trichotomy date other with before | equal | after
  · have := dayNumber_lt_of_before real otherReal before
    omega
  · exact equal
  · have := dayNumber_lt_of_before otherReal real after
    omega

theorem OnCalendar.iterate_next {date : Date} (real : date.OnCalendar) (days : Nat) :
    (Date.next^[days] date).OnCalendar ∧
      (Date.next^[days] date).dayNumber = date.dayNumber + days := by
  induction days with
  | zero => exact ⟨real, rfl⟩
  | succ days ih =>
      obtain ⟨later, number⟩ := ih
      rw [Function.iterate_succ_apply']
      exact ⟨later.next, by rw [dayNumber_next later, number, Nat.add_assoc]⟩

theorem iterate_next_iff {date other : Date} (real : date.OnCalendar) (otherReal : other.OnCalendar)
    (days : Nat) : Date.next^[days] date = other ↔ date.daysUntil other = days := by
  obtain ⟨later, number⟩ := real.iterate_next days
  unfold daysUntil
  constructor
  · rintro rfl
    omega
  · intro apart
    exact dayNumber_injective later otherReal (by omega)

theorem dayNumber_le {date : Date} (real : date.Exists) : date.dayNumber ≤ 3652059 := by
  have upper := (dayNumber_bounds real.toOnCalendar).2
  have past := daysInMonths_mono date.year real.month_le
  have exceeds := daysBeforeYear_succ real.year_pos
  have last : daysBeforeYear (date.year + 1) ≤ daysBeforeYear 10000 :=
    daysBeforeYear_mono (Nat.le_add_left 1 _) (Nat.succ_le_succ real.year_le)
  have total : daysBeforeYear 10000 = 3652059 := by decide
  omega

section Written

theorem digits_eq_some_iff {text : Text} {n : Nat} :
    digits? text = some n ↔ (∀ c ∈ text, c.isDigit = true) ∧ Text.toNat 10 text = n := by
  simp [digits?]

theorem padded_of_digits {text : Text} {n width : Nat} (read : digits? text = some n)
    (long : text.length = width + 1) : Text.padded 10 (width + 1) n = text := by
  obtain ⟨all, rfl⟩ := digits_eq_some_iff.mp read
  rw [← long]
  exact (Text.padded_toNat (by rintro rfl; simp at long) all).2

theorem digits_padded {n width : Nat} (fits : n < 10 ^ (width + 1)) :
    digits? (Text.padded 10 (width + 1) n) = some n :=
  digits_eq_some_iff.mpr ⟨fun _ => Text.isDigit_of_mem_padded, Text.toNat_padded fits⟩

theorem Exists.isoDigits {date : Date} (real : date.Exists) :
    ∃ a b c d e f g h, date.iso = [a, b, c, d, '-', e, f, '-', g, h] ∧
      digits? [a, b, c, d] = some date.year ∧ digits? [e, f] = some date.month ∧
      digits? [g, h] = some date.day := by
  obtain ⟨⟨_, _, high, _, last⟩, short⟩ := real
  have bound := daysInMonth_le date.year date.month
  have years : digits? (Text.padded 10 4 date.year) = some date.year := digits_padded (by omega)
  have months : digits? (Text.padded 10 2 date.month) = some date.month := digits_padded (by omega)
  have days : digits? (Text.padded 10 2 date.day) = some date.day := digits_padded (by omega)
  rw [Text.padded_succ, Text.padded_succ, Text.padded_succ, Text.padded_one (by omega)] at years
  rw [Text.padded_succ, Text.padded_one (by omega)] at months days
  refine ⟨_, _, _, _, _, _, _, _, ?_, years, months, days⟩
  rw [iso, Text.padded_succ, Text.padded_succ, Text.padded_succ, Text.padded_one (by omega),
    Text.padded_succ 0, Text.padded_one (by omega), Text.padded_succ 0, Text.padded_one (by omega)]
  rfl

theorem length_iso {date : Date} (real : date.Exists) : date.iso.length = 10 := by
  obtain ⟨a, b, c, d, e, f, g, h, shown, -⟩ := real.isoDigits
  rw [shown]
  rfl

/-- The dates that are read are those that exist, and each is read from the ten characters that it
is written in. -/
theorem ofIso_eq_some_iff {text : Text} {date : Date} :
    ofIso? text = some date ↔ date.Exists ∧ text = date.iso := by
  constructor
  · intro read
    unfold ofIso? at read
    split at read
    · next a b c d e f g h =>
        simp only [Option.bind_eq_bind, Option.bind_eq_some_iff] at read
        obtain ⟨year, years, month, months, day, days, checked⟩ := read
        cases result : check year month day with
        | error fault =>
            rw [result] at checked
            simp [Except.toOption] at checked
        | ok found =>
            rw [result] at checked
            obtain rfl : found = date := Option.some.inj checked
            obtain ⟨rfl, real⟩ := check_eq_ok_iff.mp result
            have years : Text.padded 10 4 year = [a, b, c, d] := padded_of_digits years rfl
            have months : Text.padded 10 2 month = [e, f] := padded_of_digits months rfl
            have days : Text.padded 10 2 day = [g, h] := padded_of_digits days rfl
            exact ⟨real, by rw [iso, years, months, days]; rfl⟩
    · simp at read
  · rintro ⟨real, rfl⟩
    obtain ⟨a, b, c, d, e, f, g, h, shown, years, months, days⟩ := real.isoDigits
    have checked : check date.year date.month date.day = .ok date := check_eq_ok_iff.mpr ⟨rfl, real⟩
    rw [shown]
    simp [ofIso?, years, months, days, checked, Except.toOption]

end Written

end Date

end MdxCheck.Calendar
