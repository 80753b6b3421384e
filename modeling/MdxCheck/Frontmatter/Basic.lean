import MdxCheck.Data.Show
import MdxCheck.Yaml.Load

/-!
The frontmatter of a document: the YAML mapping between lines of three hyphens at its start.
-/

namespace MdxCheck

namespace Frontmatter

/-- What follows the line break that the text opens with, if it opens with one: a line feed,
perhaps after a carriage return. -/
def afterBreak? : Text → Option Text
  | '\r' :: '\n' :: rest => some rest
  | '\n' :: rest => some rest
  | _ => none

/-- What follows a run of spaces and tabs. -/
def afterSpaces (text : Text) : Text :=
  text.dropWhile fun c => c == ' ' || c == '\t'

/-- Whether a line break comes next, and then the line of three hyphens that ends frontmatter. -/
def isClosed (text : Text) : Bool :=
  match (afterBreak? text).bind (Text.dropStart? ['-', '-', '-']) with
  | none => false
  | some rest => (afterSpaces rest).isEmpty || (afterBreak? (afterSpaces rest)).isSome

/-- The text up to the first place where frontmatter is closed. -/
def content? : Text → Option Text
  | [] => none
  | c :: rest => if isClosed (c :: rest) then some [] else (content? rest).map (c :: ·)

/-- The YAML text of the frontmatter of a document; there is none unless the document opens with a
line of three hyphens and a later line closes it. -/
def source? (document : Text) : Option Text := do
  let rest ← Text.dropStart? ['-', '-', '-'] document
  let rest ← afterBreak? (afterSpaces rest)
  content? rest

/-- What is wrong with a frontmatter as a whole, and the part of its source that shows it. -/
structure Problem where
  reason : Text
  snippet : Option Text := none
deriving DecidableEq, Repr

end Frontmatter

structure Frontmatter where
  fields : List (Value × Value)
  problem : Option Frontmatter.Problem

namespace Frontmatter

def broken (reason : Text) (snippet : Option Text := none) : Frontmatter :=
  ⟨[], some ⟨reason, snippet⟩⟩

/-- The frontmatter whose source has a value, or failed to have one. A scalar that misuses its type
is no problem of the frontmatter; it ends the reading. -/
def ofLoaded (source : Text) : Except Yaml.Failure Value → Except Yaml.Misuse Frontmatter
  | .ok (.map fields) => .ok ⟨fields, none⟩
  | .ok .null => .ok ⟨[], none⟩
  | .ok value => .ok (broken ("Frontmatter must be a mapping of fields, found " ++ value.typeName))
  | .error (.error fault) =>
    .ok (broken fault.fault.message (some (Yaml.snippet source fault.mark)))
  | .error (.character code position) => .ok (broken (Yaml.badCharacter code position))
  | .error (.value fault) => .ok (broken ("Invalid value in frontmatter: " ++ fault.message))
  | .error (.misuse misuse) => .error misuse

/-- The frontmatter of a document; without any there are no fields. -/
def ofText (document : Text) : Except Yaml.Misuse Frontmatter :=
  match source? document with
  | none => .ok ⟨[], none⟩
  | some source => ofLoaded source (Yaml.load source)

def field? (frontmatter : Frontmatter) (name : Text) : Option Value :=
  Value.lookup name frontmatter.fields

end Frontmatter

end MdxCheck
