import MdxCheck.Proofs.Data.Result
import MdxCheck.Proofs.Frontmatter.Dates
import MdxCheck.Proofs.Verification.Batch
import MdxCheck.Proofs.Yaml.Traversal

/-!
The days on which a page counts as fresh: from the date of its last check to as many days later as the
limit says.
-/

namespace MdxCheck

open Calendar (Date)

namespace Value

/-- The date that a value is taken for exists, and if the value is a mapping, so do the dates of its
entries. -/
structure IsReal (value : Value) : Prop where
  date : ∀ date, Frontmatter.dateOf? value = some date → date.Exists
  entries : ∀ entries, value = .map entries → ∀ entry ∈ entries, ∀ date,
    Frontmatter.dateOf? entry.2 = some date → date.Exists

theorem isReal_of_undated {value : Value} (plain : ∀ entries, value ≠ .map entries)
    (undated : Frontmatter.dateOf? value = none) : value.IsReal :=
  ⟨fun date read => by simp [undated] at read, fun entries same => absurd same (plain entries)⟩

theorem isReal_date {date : Date} (real : date.Exists) : IsReal (.date date) := by
  refine ⟨?_, by simp⟩
  rintro _ ⟨⟩
  exact real

theorem isReal_moment {moment : Calendar.Moment} (real : moment.date.Exists) :
    IsReal (.moment moment) := by
  refine ⟨?_, by simp⟩
  rintro _ ⟨⟩
  exact real

theorem isReal_text (text : Text) : IsReal (.text text) :=
  ⟨fun _ read => (Frontmatter.dateOfText_eq_some_iff.mp read).1, by simp⟩

theorem isReal_map {entries : List (Value × Value)}
    (real : ∀ entry ∈ entries, ∀ date, Frontmatter.dateOf? entry.2 = some date → date.Exists) :
    IsReal (.map entries) where
  date _ read := by simp [Frontmatter.dateOf?] at read
  entries others same := by
    obtain rfl := Value.map.inj same
    exact real

theorem insert_forall {P : Value → Prop} {key value : Value} {entries : List (Value × Value)}
    (fits : P value) (all : ∀ entry ∈ entries, P entry.2) :
    ∀ entry ∈ insert key value entries, P entry.2 := by
  induction entries with
  | nil => simpa [insert] using fits
  | cons first entries ih =>
      obtain ⟨other, old⟩ := first
      have rest := ih fun entry member => all entry (List.mem_cons_of_mem _ member)
      rw [insert]
      split
      · intro entry member
        rcases List.mem_cons.mp member with rfl | member
        · exact fits
        · exact all entry (List.mem_cons_of_mem _ member)
      · intro entry member
        rcases List.mem_cons.mp member with rfl | member
        · exact all _ List.mem_cons_self
        · exact rest entry member

theorem foldl_insert_forall {P : Value → Prop} {given entries : List (Value × Value)}
    (fit : ∀ entry ∈ given, P entry.2) (all : ∀ entry ∈ entries, P entry.2) :
    ∀ entry ∈ given.foldl (fun map (key, value) => insert key value map) entries, P entry.2 := by
  induction given generalizing entries with
  | nil => exact all
  | cons first given ih =>
      exact ih (fun entry member => fit entry (List.mem_cons_of_mem _ member))
        (insert_forall (fit first List.mem_cons_self) all)

end Value

namespace Yaml

theorem Timestamp.resolve_exists {timestamp : Timestamp} {day : Date ⊕ Calendar.Moment}
    (resolved : timestamp.resolve = .ok day) : (day.elim id (·.date)).Exists := by
  unfold resolve at resolved
  split at resolved
  · obtain ⟨date, checked, rfl⟩ := exists_of_map_ok resolved
    exact (Date.check_eq_ok_iff.mp checked).2
  · obtain ⟨offset, -, resolved⟩ := exists_of_bind_ok resolved
    obtain ⟨moment, checked, resolved⟩ := exists_of_bind_ok resolved
    obtain rfl : Sum.inr moment = day := Except.ok.inj resolved
    obtain ⟨date, dated, rest⟩ := exists_of_bind_ok checked
    have real := (Date.check_eq_ok_iff.mp dated).2
    split at rest
    · simp at rest
    split at rest
    · simp at rest
    split at rest
    · simp at rest
    obtain rfl := Except.ok.inj rest
    exact real

theorem Yields.unconditional {α : Type} (result : Except Failure α) :
    Yields (fun _ => True) (fun _ => True) result := by
  cases result <;> trivial

namespace Node

theorem isReal_numeric {α : Type} {make : α → Value} (plain : ∀ n entries, make n ≠ .map entries)
    (undated : ∀ n, Frontmatter.dateOf? (make n) = none) (number : Except NumberFault α) :
    Yields (fun _ => True) Value.IsReal (numeric make number) := by
  cases number with
  | error fault => cases fault <;> trivial
  | ok n => exact Value.isReal_of_undated (plain n) (undated n)

theorem isReal_scalarValue (node : Node) :
    Yields (fun _ => True) Value.IsReal node.scalarValue := by
  unfold scalarValue
  have text := Yields.unconditional node.scalarText
  cases node.tag with
  | null => exact text.bind fun _ _ => Value.isReal_of_undated (by simp) rfl
  | boolean =>
      refine text.bind fun word _ => ?_
      dsimp only
      split
      · exact Value.isReal_of_undated (by simp) rfl
      · trivial
  | integer => exact text.bind fun _ _ => isReal_numeric (fun _ _ => by simp) (fun _ => rfl) _
  | float => exact text.bind fun _ _ => isReal_numeric (fun _ _ => by simp) (fun _ => rfl) _
  | binary =>
      refine text.bind fun _ _ => ?_
      split
      · exact Value.isReal_of_undated (by simp) rfl
      · trivial
      · trivial
  | timestamp =>
      refine text.bind fun word _ => ?_
      by_cases mapping : node.isMapping = true
      · simp only [mapping]
        trivial
      simp only [mapping, Bool.false_eq_true, if_false]
      cases known : Timestamp.ofText?
          (if word.getLast? = some '\n' then word.dropLast else word) with
      | none => trivial
      | some timestamp =>
          dsimp only
          cases resolved : timestamp.resolve with
          | error fault => trivial
          | ok day =>
              have real := Timestamp.resolve_exists resolved
              cases day with
              | inl date => exact Value.isReal_date real
              | inr moment => exact Value.isReal_moment real
  | text => exact text.bind fun text _ => Value.isReal_text text
  | _ => trivial

theorem isReal_valueOf (known : Known) (fuel : Nat) (outer : List Mark) (node : Node) :
    Yields (fun _ => True) Value.IsReal (node.valueOf known fuel outer) := by
  induction fuel generalizing outer node with
  | zero => exact Value.isReal_of_undated (by simp) rfl
  | succ fuel ih =>
      by_cases encloses : ∃ isMap start, node = enclosing isMap start
      · obtain ⟨isMap, start, rfl⟩ := encloses
        exact Value.isReal_of_undated (by simp) rfl
      rw [valueOf.eq_3 known outer node fuel fun isMap start same => encloses ⟨isMap, start, same⟩]
      split
      · exact Value.isReal_of_undated (by simp) rfl
      dsimp only
      split
      · refine (Yields.unconditional _).bind fun items _ => ?_
        refine (Yields.unconditional _).bind fun values _ => ?_
        exact Value.isReal_of_undated (by simp) rfl
      · refine (Yields.unconditional _).bind fun nodes _ => ?_
        have each : Yields (fun _ => True) (fun entries : List (Value × Value) =>
            ∀ entry ∈ entries, entry.2.IsReal)
            (nodes.mapM fun entry => do
              return (← valueOf known fuel (node.start :: outer) entry.1,
                ← valueOf known fuel (node.start :: outer) entry.2)) := by
          refine Yields.mapM fun entry _ => ?_
          refine (Yields.unconditional _).bind fun key _ => ?_
          exact (ih _ entry.2).bind fun value real => real
        refine each.bind fun entries real => Value.isReal_map ?_
        let Dated (value : Value) : Prop := ∀ date, Frontmatter.dateOf? value = some date → date.Exists
        exact Value.foldl_insert_forall (P := Dated) (fun entry member => (real entry member).date)
          (by simp)
      · refine (Yields.unconditional _).bind fun nodes _ => ?_
        refine (Yields.unconditional _).bind fun keys _ => ?_
        exact Value.isReal_of_undated (by simp) rfl
      · refine (Yields.unconditional _).bind fun nodes _ => ?_
        refine (Yields.unconditional _).bind fun items _ => ?_
        exact Value.isReal_of_undated (by simp) rfl
      · refine (Yields.unconditional _).bind fun nodes _ => ?_
        refine (Yields.unconditional _).bind fun items _ => ?_
        exact Value.isReal_of_undated (by simp) rfl
      · exact isReal_scalarValue _

end Node

theorem load_real {text : Text} {entries : List (Value × Value)}
    (loaded : load text = .ok (.map entries)) :
    ∀ entry ∈ entries, ∀ date, Frontmatter.dateOf? entry.2 = some date → date.Exists := by
  obtain ⟨_, -, loaded⟩ := exists_of_bind_ok loaded
  obtain ⟨root?, -, loaded⟩ := exists_of_bind_ok loaded
  cases root? with
  | none => simp [pure, Except.pure] at loaded
  | some root =>
      obtain ⟨_, -, loaded⟩ := exists_of_bind_ok loaded
      obtain ⟨_, -, loaded⟩ := exists_of_bind_ok loaded
      have real := Node.isReal_valueOf root.known (text.length + 1) [] root
      rw [loaded] at real
      exact real.entries entries rfl

end Yaml

namespace Frontmatter

theorem ofText_real {document : Text} {frontmatter : Frontmatter}
    (read : ofText document = .ok frontmatter) {name : Text} {value : Value}
    (found : frontmatter.field? name = some value) :
    ∀ date, dateOf? value = some date → date.Exists := by
  obtain ⟨entry, member, rfl⟩ := mem_of_field found
  unfold ofText at read
  split at read
  · obtain rfl := Except.ok.inj read
    simp at member
  · next source _ =>
      unfold ofLoaded at read
      split at read
      · next fields loaded =>
          obtain rfl := Except.ok.inj read
          exact Yaml.load_real loaded entry member
      all_goals first
        | contradiction
        | obtain rfl := Except.ok.inj read
          simp [broken] at member

/-- The date from which the age of a page is counted: what the field holds, if the frontmatter is a
mapping that has the field. -/
def checkedDate? (document : Text) : Option Date := do
  let frontmatter ← (ofText document).toOption
  if frontmatter.problem.isSome then none
  let value ← frontmatter.field? freshnessField
  if isNever value then none else dateOf? value

/-- The check of a page on a day. -/
def freshnessOn (document : Text) (today : Date) (limit : Option AgeLimit) :
    Except Yaml.Misuse (Except Value.TooLong (Option Text)) :=
  (ofText document).map (·.freshnessMessage? today limit)

theorem checkedDate_of_ok {document : Text} {frontmatter : Frontmatter}
    (read : ofText document = .ok frontmatter) :
    checkedDate? document =
      if frontmatter.problem.isSome then none
      else (frontmatter.field? freshnessField).bind fun value =>
        if isNever value then none else dateOf? value := by
  unfold checkedDate?
  rw [read]
  simp only [Except.toOption, Option.bind_eq_bind, Option.bind_some]
  cases frontmatter.problem <;> rfl

theorem of_checkedDate {document : Text} {date : Date}
    (checked : checkedDate? document = some date) :
    ∃ frontmatter, ofText document = .ok frontmatter ∧ frontmatter.problem = none ∧
      frontmatter.freshness = .ok (.checked date) ∧ date.Exists := by
  cases read : ofText document with
  | error misuse => simp [checkedDate?, read, Except.toOption] at checked
  | ok frontmatter =>
      rw [checkedDate_of_ok read] at checked
      split at checked
      · contradiction
      next whole =>
      obtain ⟨value, found, checked⟩ := Option.bind_eq_some_iff.mp checked
      split at checked
      · contradiction
      next dated =>
      have fresh : frontmatter.freshness = .ok (.checked date) := by
        simp only [freshness, found, dated, checked, Bool.false_eq_true, if_false]
      exact ⟨frontmatter, rfl, by simpa using whole, fresh, ofText_real read found date checked⟩

/-- Without a date to count from, the day and the limit do not matter. -/
theorem freshnessOn_constant {document : Text} (unchecked : checkedDate? document = none)
    (today other : Date) (limit otherLimit : Option AgeLimit) :
    freshnessOn document today limit = freshnessOn document other otherLimit := by
  unfold freshnessOn
  cases read : ofText document with
  | error misuse => simp only [Except.map]
  | ok frontmatter =>
      rw [checkedDate_of_ok read] at unchecked
      simp only [Except.map, freshnessMessage?]
      split at unchecked
      · next broken => simp only [broken, if_true]
      next whole =>
      -- the field decides before the day does
      have fault : frontmatter.freshnessFault? today limit =
          frontmatter.freshnessFault? other otherLimit := by
        unfold freshnessFault? freshness
        cases found : frontmatter.field? freshnessField with
        | none => rfl
        | some value =>
            rw [found, Option.bind_some] at unchecked
            by_cases never : isNever value = true
            · simp only [never, if_true]
            · simp only [never, Bool.false_eq_true, if_false] at unchecked ⊢
              rw [unchecked]
      rw [fault]

def futureText (date : Date) : Text :=
  freshnessField ++ " cannot be in the future, found: " ++ date.iso

def agedText (days : Int) (date : Date) : Text :=
  freshnessField ++ " is older than " ++ Text.decimalInt days ++ " days (" ++ date.iso ++
    "); review the page and update the date"

theorem futureText_ne_agedText (date other : Date) (days : Int) :
    futureText date ≠ agedText days other := by
  unfold futureText agedText
  simp only [List.append_assoc]
  intro same
  simpa using List.append_cancel_left same

theorem written_days {days : Int} (positive : 1 ≤ days) (short : days < 3652059) :
    (AgeLimit.whole days).value.written = .ok (Text.decimalInt days) := by
  have digits : 7 ≤ Decimal.digitLimit := by decide
  have bound : 10 ^ 7 ≤ 10 ^ Decimal.digitLimit := Nat.pow_le_pow_right (by decide) digits
  have writable : (AgeLimit.whole days).value.isWritable = true := by
    rw [AgeLimit.value, Value.isWritable, decide_eq_true_eq, Nat.pow_eq]
    omega
  rw [Value.written, if_pos writable]
  rfl

section Verdict

variable {document : Text} {date today : Date} {limit : Option Int}
  (checked : checkedDate? document = some date) (present : today.Exists)

include checked

theorem freshnessOn_of_fault (fault : Option DateFault) {message : Option Text}
    (faulty : ∀ frontmatter : Frontmatter, frontmatter.freshness = .ok (.checked date) →
      frontmatter.freshnessFault? today (limit.map .whole) = fault)
    (told : fault.mapM (·.message freshnessField "date in the format YYYY-MM-DD or `never`") =
      .ok message) :
    freshnessOn document today (limit.map .whole) = .ok (.ok message) := by
  obtain ⟨frontmatter, read, whole, fresh, -⟩ := of_checkedDate checked
  have answer : frontmatter.freshnessMessage? today (limit.map .whole) = .ok message := by
    rw [freshnessMessage?, whole, faulty frontmatter fresh, ← told]
    rfl
  rw [freshnessOn, read, Except.map, answer]

theorem before_iff_isAfter (present : today.Exists) :
    today.Before date ↔ date.isAfter today = true := by
  obtain ⟨frontmatter, -, -, -, real⟩ := of_checkedDate checked
  rw [Date.before_iff present.toOnCalendar real.toOnCalendar, Date.isAfter, decide_eq_true_eq]

include present

theorem freshnessOn_of_future (future : today.Before date) :
    freshnessOn document today (limit.map .whole) = .ok (.ok (some (futureText date))) := by
  have after := (before_iff_isAfter checked present).mp future
  refine freshnessOn_of_fault checked (some (.future date)) ?_ rfl
  intro frontmatter fresh
  simp only [freshnessFault?, fresh, after, if_true]

theorem freshnessOn_of_aged {days : Int} (limited : limit = some days) (positive : 1 ≤ days)
    (aged : days < date.daysUntil today) :
    freshnessOn document today (limit.map .whole) = .ok (.ok (some (agedText days date))) := by
  subst limited
  have notAfter : date.isAfter today = false := by
    rw [Date.daysUntil] at aged
    rw [Date.isAfter, decide_eq_false_iff_not]
    omega
  have exceeded : (AgeLimit.whole days).isExceededBy (date.daysUntil today) = true :=
    decide_eq_true aged
  -- a limit that is exceeded is shorter than the calendar, so it is written out
  have short : days < 3652059 := by
    have last := Date.dayNumber_le present
    rw [Date.daysUntil] at aged
    omega
  refine freshnessOn_of_fault checked (some (.tooOld date (.whole days))) ?_ ?_
  · intro frontmatter fresh
    simp only [freshnessFault?, fresh, notAfter, Option.map_some, exceeded, Bool.false_eq_true,
      if_false, if_true]
  · rw [Option.mapM_some, DateFault.message, written_days positive short]
    rfl

theorem freshnessOn_of_kept (past : ¬today.Before date)
    (kept : ∀ days ∈ limit, date.daysUntil today ≤ days) :
    freshnessOn document today (limit.map .whole) = .ok (.ok none) := by
  have notAfter : date.isAfter today = false := by
    rw [before_iff_isAfter checked present] at past
    simpa using past
  refine freshnessOn_of_fault checked none ?_ rfl
  intro frontmatter fresh
  simp only [freshnessFault?, fresh, notAfter, Bool.false_eq_true, if_false]
  cases limit with
  | none => rfl
  | some days =>
      have within : (AgeLimit.whole days).isExceededBy (date.daysUntil today) = false :=
        decide_eq_false (Int.not_lt.mpr (kept days rfl))
      simp only [Option.map_some, within, Bool.false_eq_true, if_false]

end Verdict

/-- The age of a page is checked from a date on: the page is accepted from that day to the last one
within the limit, and told on any other day what is wrong. -/
structure ChecksAge (document : Text) (date : Date) : Prop where
  accepts_iff : ∀ today : Date, today.Exists → ∀ limit : Option Int, (∀ days ∈ limit, 1 ≤ days) →
    (freshnessOn document today (limit.map .whole) = .ok (.ok none) ↔
      ¬today.Before date ∧ ∀ days ∈ limit, date.daysUntil today ≤ days)
  future_iff : ∀ today : Date, today.Exists → ∀ limit : Option Int, (∀ days ∈ limit, 1 ≤ days) →
    (freshnessOn document today (limit.map .whole) = .ok (.ok (some (futureText date))) ↔
      today.Before date)
  aged_iff : ∀ today : Date, today.Exists → ∀ days : Int, 1 ≤ days →
    (freshnessOn document today (some (.whole days)) = .ok (.ok (some (agedText days date))) ↔
      days < date.daysUntil today)
  interval : ∀ today : Date, today.Exists → ∀ days : Nat, 1 ≤ days →
    (freshnessOn document today (some (.whole days)) = .ok (.ok none) ↔
      ∃ age ≤ days, Date.next^[age] date = today)
  unlimited : ∀ today : Date, today.Exists →
    (freshnessOn document today none = .ok (.ok none) ↔ ∃ age, Date.next^[age] date = today)
  relaxed : ∀ today : Date, today.Exists → ∀ limit other : Option Int,
    (∀ days ∈ limit, 1 ≤ days) → (∀ days ∈ other, ∃ least ∈ limit, least ≤ days) →
    freshnessOn document today (limit.map .whole) = .ok (.ok none) →
      freshnessOn document today (other.map .whole) = .ok (.ok none)

section Verdict

variable {document : Text} {date today : Date} {limit : Option Int}
  (checked : checkedDate? document = some date) (present : today.Exists)

include checked present

/-- The answers exclude each other, so each says on which days it is given. -/
theorem verdict (positive : ∀ days ∈ limit, 1 ≤ days) :
    (today.Before date ∧
      freshnessOn document today (limit.map .whole) = .ok (.ok (some (futureText date)))) ∨
    (∃ days ∈ limit, days < date.daysUntil today ∧
      freshnessOn document today (limit.map .whole) = .ok (.ok (some (agedText days date)))) ∨
    ((¬today.Before date ∧ ∀ days ∈ limit, date.daysUntil today ≤ days) ∧
      freshnessOn document today (limit.map .whole) = .ok (.ok none)) := by
  by_cases future : today.Before date
  · exact .inl ⟨future, freshnessOn_of_future checked present future⟩
  by_cases aged : ∃ days ∈ limit, days < date.daysUntil today
  · obtain ⟨days, limited, exceeds⟩ := aged
    exact .inr (.inl ⟨days, limited, exceeds,
      freshnessOn_of_aged checked present limited (positive days limited) exceeds⟩)
  · have kept : ∀ days ∈ limit, date.daysUntil today ≤ days := by
      intro days limited
      by_contra exceeds
      exact aged ⟨days, limited, Int.not_le.mp exceeds⟩
    exact .inr (.inr ⟨⟨future, kept⟩, freshnessOn_of_kept checked present future kept⟩)

theorem daysUntil_neg_of_before (future : today.Before date) : date.daysUntil today < 0 := by
  rw [before_iff_isAfter checked present, Date.isAfter, decide_eq_true_eq] at future
  rw [Date.daysUntil]
  omega

theorem accepts_iff (positive : ∀ days ∈ limit, 1 ≤ days) :
    freshnessOn document today (limit.map .whole) = .ok (.ok none) ↔
      ¬today.Before date ∧ ∀ days ∈ limit, date.daysUntil today ≤ days := by
  rcases verdict checked present positive with
    ⟨future, told⟩ | ⟨days, limited, exceeds, told⟩ | ⟨kept, told⟩
  · simp [told, future]
  · simp only [told, Except.ok.injEq, reduceCtorEq, false_iff, not_and]
    intro _ kept
    exact Int.not_le.mpr exceeds (kept days limited)
  · simp only [told, true_iff]
    exact kept

theorem future_iff (positive : ∀ days ∈ limit, 1 ≤ days) :
    freshnessOn document today (limit.map .whole) = .ok (.ok (some (futureText date))) ↔
      today.Before date := by
  rcases verdict checked present positive with
    ⟨future, told⟩ | ⟨days, limited, exceeds, told⟩ | ⟨⟨past, -⟩, told⟩
  · simp [told, future]
  · have past : ¬today.Before date := by
      intro future
      have := daysUntil_neg_of_before checked present future
      have := positive days limited
      omega
    simp [told, past, (futureText_ne_agedText date date days).symm]
  · simp [told, past]

theorem aged_iff {days : Int} (positive : 1 ≤ days) :
    freshnessOn document today (some (.whole days)) = .ok (.ok (some (agedText days date))) ↔
      days < date.daysUntil today := by
  have limited : ∀ other ∈ some days, 1 ≤ other := by simpa using positive
  rcases verdict checked present limited with ⟨future, told⟩ | ⟨other, same, exceeds, told⟩ |
    ⟨⟨-, kept⟩, told⟩
  · have young := daysUntil_neg_of_before checked present future
    rw [Option.map_some] at told
    simp only [told, Except.ok.injEq, Option.some.injEq, futureText_ne_agedText, false_iff]
    omega
  · obtain rfl : days = other := Option.some.inj same
    rw [Option.map_some] at told
    simp only [told, true_iff]
    exact exceeds
  · rw [Option.map_some] at told
    simp only [told, Except.ok.injEq, reduceCtorEq, false_iff]
    exact Int.not_lt.mpr (kept days rfl)

theorem iterate_next_iff (age : Nat) :
    Date.next^[age] date = today ↔ date.daysUntil today = age := by
  obtain ⟨frontmatter, -, -, -, real⟩ := of_checkedDate checked
  exact Date.iterate_next_iff real.toOnCalendar present.toOnCalendar age

theorem not_before_iff : ¬today.Before date ↔ ∃ age, Date.next^[age] date = today := by
  simp only [iterate_next_iff checked present]
  rw [before_iff_isAfter checked present, Date.isAfter, decide_eq_true_eq, Date.daysUntil]
  constructor
  · intro past
    exact ⟨today.dayNumber - date.dayNumber, by omega⟩
  · rintro ⟨age, apart⟩
    omega

theorem within_iff (days : Nat) :
    (¬today.Before date ∧ date.daysUntil today ≤ days) ↔
      ∃ age ≤ days, Date.next^[age] date = today := by
  rw [not_before_iff checked present]
  simp only [iterate_next_iff checked present]
  constructor
  · rintro ⟨⟨age, apart⟩, kept⟩
    exact ⟨age, by omega, apart⟩
  · rintro ⟨age, kept, apart⟩
    exact ⟨⟨age, apart⟩, by omega⟩

end Verdict

theorem checksAge_of_checkedDate {document : Text} {date : Date}
    (checked : checkedDate? document = some date) : ChecksAge document date where
  accepts_iff _ present _ positive := accepts_iff checked present positive
  future_iff _ present _ positive := future_iff checked present positive
  aged_iff _ present _ positive := aged_iff checked present positive
  interval today present days positive := by
    have least : ∀ limit ∈ some (days : Int), 1 ≤ limit := by simpa using positive
    have kept := accepts_iff checked present least
    rw [← within_iff checked present]
    simpa using kept
  unlimited today present := by
    have least : ∀ limit ∈ (none : Option Int), 1 ≤ limit := by simp
    have kept := accepts_iff checked present least
    rw [← not_before_iff checked present]
    simpa using kept
  relaxed today present limit other positive looser accepted := by
    obtain ⟨past, kept⟩ := (accepts_iff checked present positive).mp accepted
    refine freshnessOn_of_kept checked present past ?_
    intro days limited
    obtain ⟨least, given, less⟩ := looser days limited
    exact Int.le_trans (kept least given) less

/-- Freshness is an interval in time: the page of a real date is accepted from that day on, as long as
the limit says, and where there is no date neither the day nor the limit changes the answer. -/
theorem freshness_interval (document : Text) :
    (∀ date, checkedDate? document = some date → date.Exists ∧ ChecksAge document date) ∧
      (checkedDate? document = none → ∀ today other limit otherLimit,
        freshnessOn document today limit = freshnessOn document other otherLimit) := by
  constructor
  · intro date checked
    obtain ⟨_, -, -, -, real⟩ := of_checkedDate checked
    exact ⟨real, checksAge_of_checkedDate checked⟩
  · intro unchecked today other limit otherLimit
    exact freshnessOn_constant unchecked today other limit otherLimit

theorem freshness_interval_leapDay :
    checkedDate? "---\nfreshnessValidatedDate: 2024-02-28\n---\n" = some ⟨2024, 2, 28⟩ ∧
      ChecksAge "---\nfreshnessValidatedDate: 2024-02-28\n---\n" ⟨2024, 2, 28⟩ ∧
      checkedDate? "---\nfreshnessValidatedDate: never\n---\n" = none ∧
      freshnessOn "---\nfreshnessValidatedDate: never\n---\n" ⟨2024, 2, 28⟩ none =
        freshnessOn "---\nfreshnessValidatedDate: never\n---\n" ⟨1999, 1, 1⟩ (some (.whole 7)) := by
  have checked : checkedDate? "---\nfreshnessValidatedDate: 2024-02-28\n---\n" =
      some ⟨2024, 2, 28⟩ := by decide +kernel
  have unchecked : checkedDate? "---\nfreshnessValidatedDate: never\n---\n" = none := by
    decide +kernel
  exact ⟨checked, ((freshness_interval _).1 _ checked).2, unchecked,
    (freshness_interval _).2 unchecked _ _ _ _⟩

end Frontmatter

end MdxCheck
