import MdxCheck.Data.Show
import MdxCheck.Pattern.Search

/-!
What the values of a configuration have to be like, and what is said of those that are not.
-/

namespace MdxCheck.Config

inductive Kind where
  | object
  | array
  | string
  | integer
  | boolean
  | null
deriving DecidableEq, Repr

namespace Kind

def name : Kind → Text
  | object => "object"
  | array => "array"
  | string => "string"
  | integer => "integer"
  | boolean => "boolean"
  | null => "null"

/-- Whether a value is of a kind. A truth value is no integer; a floating-point number is one if it
is whole. -/
def holds : Kind → Value → Bool
  | object, .map _ | object, .enclosing true => true
  | array, .list _ | array, .enclosing false => true
  | string, .text _ => true
  | integer, .integer _ => true
  | integer, .float x => (Value.wholeOf? x).isSome
  | boolean, .boolean _ => true
  | null, .null => true
  | _, _ => false

end Kind

/-- Something that a value is required to be. Some requirements concern only texts, lists or numbers,
and say nothing of other values. -/
inductive Requirement where
  | kind (allowed : List Kind)
  | constant (value : Int)
  | form (source : Text) (pattern : Pattern)
  | someText
  | someItems
  | distinctItems
  | least (bound : Int)

inductive Violation where
  | kind (found : Value) (allowed : List Kind)
  | constant (expected : Int)
  | form (found : Value) (source : Text)
  | empty (found : Value)
  | repeatedItems (found : Value)
  | tooLow (found : Value) (bound : Int)
  | missingField (name : Text)
  | unknownFields (names : List Value)

/-- Whether all values that the message of a violation shows can be written out. -/
def Violation.isWritable : Violation → Bool
  | kind found _ | form found _ | empty found | repeatedItems found | tooLow found _ =>
    found.isWritable
  | unknownFields names => names.all Value.isWritable
  | constant _ | missingField _ => true

def Violation.message : Violation → Text
  | kind found allowed =>
    found.describe ++ " is not of type " ++
      Text.join ", ".toList (allowed.map fun kind => Text.quoted kind.name)
  | constant expected => Text.decimalInt expected ++ " was expected"
  | form found source => found.describe ++ " does not match " ++ Text.quoted source
  | empty found => found.describe ++ " should be non-empty"
  | repeatedItems found => found.describe ++ " has non-unique elements"
  | tooLow found bound =>
    found.describe ++ " is less than the minimum of " ++ Text.decimalInt bound
  | missingField name => Text.quoted name ++ " is a required property"
  | unknownFields names =>
    let verb : Text := if names.length = 1 then "was" else "were"
    "Additional properties are not allowed (" ++ Text.join ", ".toList (names.map Value.describe) ++
      " " ++ verb ++ " unexpected)"

mutual

/-- Whether two values are the same for a configuration: a truth value is no number. -/
def agree : Value → Value → Bool
  | .boolean a, .boolean b => a == b
  | .boolean _, _ => false
  | _, .boolean _ => false
  | .list as, .list bs => agreeItems as bs
  | .map as, .map bs => as.length == bs.length && agreeEntries as bs
  | a, b => a.same b

def agreeItems : List Value → List Value → Bool
  | [], [] => true
  | a :: as, b :: bs => agree a b && agreeItems as bs
  | _, _ => false

def agreeEntries : List (Value × Value) → List (Value × Value) → Bool
  | [], _ => true
  | (key, a) :: as, bs =>
    (match bs.find? fun (other, _) => key.same other with
      | some (_, b) => agree a b
      | none => false) && agreeEntries as bs

end

def areDistinct : List Value → Bool
  | [] => true
  | value :: values => !values.any (agree value) && areDistinct values

/-- Whether a number is lower than a bound; other values have no order. -/
def isBelow (bound : Int) : Value → Bool
  | .integer value => value < bound
  | .float value => value < Float.ofInt bound
  | _ => false

namespace Requirement

def check (value : Value) : Requirement → Option Violation
  | kind allowed =>
    if allowed.any (·.holds value) then none else some (.kind value allowed)
  | constant expected =>
    if agree value (.integer expected) then none else some (.constant expected)
  | form source pattern =>
    match value with
    | .text text => if pattern.isFoundIn text then none else some (.form value source)
    | _ => none
  | someText =>
    match value with
    | .text [] => some (.empty value)
    | _ => none
  | someItems =>
    match value with
    | .list [] => some (.empty value)
    | _ => none
  | distinctItems =>
    match value with
    | .list items => if areDistinct items then none else some (.repeatedItems value)
    | _ => none
  | least bound => if isBelow bound value then some (.tooLow value bound) else none

end Requirement

structure Field where
  name : Text
  requirements : List Requirement
  itemRequirements : List Requirement := []

/-- A violation and the way to the value that it is about: the names of fields and the numbers of
items. -/
structure Problem where
  way : List Text
  violation : Violation

namespace Problem

def message (problem : Problem) : Text :=
  (if problem.way.isEmpty then "<root>".toList else Text.join ['.'] problem.way) ++ ": " ++
    problem.violation.message

end Problem

def violations (way : List Text) (value : Value) (requirements : List Requirement) :
    List Problem :=
  requirements.filterMap fun requirement => (requirement.check value).map (⟨way, ·⟩)

namespace Field

def check (field : Field) (value : Value) : List Problem :=
  violations [field.name] value field.requirements ++
    match value with
    | .list items =>
      items.zipIdx.flatMap fun (item, index) =>
        violations [field.name, Text.decimal index] item field.itemRequirements
    | _ => []

end Field

structure Schema where
  required : List Text
  fields : List Field

namespace Schema

def unknownKeys (schema : Schema) (entries : List (Value × Value)) : List Value :=
  let isKnown (key : Value) : Bool := match key with
    | .text name => schema.fields.any (·.name == name)
    | _ => false
  ((entries.map Prod.fst).filter (!isKnown ·)).mergeSort fun a b => !Text.before b.shown a.shown

def rootProblems (schema : Schema) (entries : List (Value × Value)) : List Violation :=
  let missing := schema.required.filter fun name => (Value.lookup name entries).isNone
  let unknown := schema.unknownKeys entries
  missing.map .missingField ++ (if unknown.isEmpty then [] else [.unknownFields unknown])

def check (schema : Schema) (value : Value) : List Problem :=
  match value with
  | .map entries =>
    let inside := schema.fields.flatMap fun field =>
      match Value.lookup field.name entries with
      | some value => field.check value
      | none => []
    let all := (schema.rootProblems entries).map (⟨[], ·⟩) ++ inside
    all.mergeSort fun a b => !Text.rowBefore b.way a.way
  | value => [⟨[], .kind value [.object]⟩]

end Schema

end MdxCheck.Config
