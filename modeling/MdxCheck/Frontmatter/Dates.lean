import MdxCheck.Frontmatter.Basic
import MdxCheck.Text.Digit

/-!
The fields with dates: when a page was last checked for freshness, and when a release came out.

The rules about fields are silent where the frontmatter as a whole has a problem.
-/

namespace MdxCheck.Frontmatter

def freshnessField : Text := "freshnessValidatedDate"

def releaseField : Text := "releaseDate"

/-- Whether a time of day follows a date: hours and minutes, and then anything. -/
def startsWithTime : Text → Bool
  | gap :: a :: b :: ':' :: c :: d :: _ =>
    (gap == 'T' || gap == ' ') && [a, b, c, d].all Text.isDecimalDigit
  | _ => false

def dateOfText? (text : Text) : Option Calendar.Date :=
  let inside := Text.trim text
  let rest := inside.drop 10
  if rest.isEmpty || startsWithTime rest then Calendar.Date.ofIso? (inside.take 10) else none

def dateOf? : Value → Option Calendar.Date
  | .date date => some date
  | .moment moment => some moment.date
  | .text text => dateOfText? text
  | _ => none

inductive AgeLimit where
  | whole (days : Int)
  | fraction (days : Float)
deriving Repr

namespace AgeLimit

def value : AgeLimit → Value
  | whole days => .integer days
  | fraction days => .float days

def isExceededBy (age : Int) : AgeLimit → Bool
  | whole days => days < age
  | fraction days => days < Float.ofInt age

end AgeLimit

inductive DateFault where
  | missing
  | notDate (found : Value)
  | future (date : Calendar.Date)
  | tooOld (date : Calendar.Date) (limit : AgeLimit)

inductive Freshness where
  | never
  | checked (date : Calendar.Date)
deriving DecidableEq, Repr

def isNever : Value → Bool
  | .text text => Text.trim text == "never".toList
  | _ => false

def freshness (frontmatter : Frontmatter) : Except DateFault Freshness :=
  match frontmatter.field? freshnessField with
  | none => .error .missing
  | some value =>
    if isNever value then .ok .never
    else
      match dateOf? value with
      | some date => .ok (.checked date)
      | none => .error (.notDate value)

def freshnessFault? (frontmatter : Frontmatter) (today : Calendar.Date) (limit : Option AgeLimit) :
    Option DateFault :=
  match frontmatter.freshness with
  | .error fault => some fault
  | .ok .never => none
  | .ok (.checked date) =>
    if date.isAfter today then some (.future date)
    else
      match limit with
      | none => none
      | some limit =>
        if limit.isExceededBy (date.daysUntil today) then some (.tooOld date limit) else none

def releaseFault? (frontmatter : Frontmatter) : Option DateFault :=
  match frontmatter.field? releaseField with
  | none => some .missing
  | some value => if (dateOf? value).isSome then none else some (.notDate value)

/-- The fault of a field in words; `forms` says what the field may hold. -/
def DateFault.message (field forms : Text) : DateFault → Except Value.TooLong Text
  | missing => .ok ("Missing required frontmatter field: " ++ field)
  | notDate found => do
    return field ++ " must be a " ++ forms ++ ", found: " ++ (← found.written)
  | future date => .ok (field ++ " cannot be in the future, found: " ++ date.iso)
  | tooOld date limit => do
    return field ++ " is older than " ++ (← limit.value.written) ++ " days (" ++ date.iso ++
      "); review the page and update the date"

def freshnessMessage? (frontmatter : Frontmatter) (today : Calendar.Date)
    (limit : Option AgeLimit) : Except Value.TooLong (Option Text) :=
  if frontmatter.problem.isSome then .ok none
  else (frontmatter.freshnessFault? today limit).mapM
    (·.message freshnessField "date in the format YYYY-MM-DD or `never`")

def releaseMessage? (frontmatter : Frontmatter) : Except Value.TooLong (Option Text) :=
  if frontmatter.problem.isSome then .ok none
  else frontmatter.releaseFault?.mapM (·.message releaseField "date in the format YYYY-MM-DD")

end MdxCheck.Frontmatter
