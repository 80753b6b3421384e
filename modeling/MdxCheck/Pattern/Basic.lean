import MdxCheck.Text.Digit
import MdxCheck.Text.LetterCase
import MdxCheck.Text.Word

/-!
Patterns: what they are made of, and how many characters they take up.
-/

namespace MdxCheck

namespace Pattern

inductive Kind where
  | digit
  | blank
  | word
deriving DecidableEq, Repr

/-- Whether a character is of a kind; the kind may be limited to ASCII. -/
def Kind.holds (kind : Kind) (ascii : Bool) (c : Char) : Bool :=
  (!ascii || c.toNat < 128) &&
    match kind with
    | digit => Text.isDecimalDigit c
    | blank => Text.isBlank c && (!ascii || c.toNat < 28 || c == ' ')
    | word => Text.isWordChar c

/-- A member of a set of characters: the codes from one to another, or a kind or all others. -/
inductive Member where
  | range (first last : Nat)
  | ofKind (kind : Kind) (ascii negated : Bool)
deriving DecidableEq, Repr

/-- Whether a character belongs to a member, given the codes of those that agree with it. -/
def Member.holds (c : Char) (codes : List Nat) : Member → Bool
  | range first last => codes.any fun code => first ≤ code && code ≤ last
  | ofKind kind ascii negated => kind.holds ascii c != negated

/-- A set of characters: those that belong to a member, or all others. -/
structure Letters where
  members : List Member
  negated : Bool := false
  letterCase : Text.LetterCase := .told
deriving DecidableEq, Repr

namespace Letters

def accepts (letters : Letters) (c : Char) : Bool :=
  letters.members.any (Member.holds c (letters.letterCase.agreeing c.toNat)) != letters.negated

def single (c : Char) : Letters :=
  { members := [.range c.toNat c.toNat] }

/-- The set of all characters, or of all but the line feed. -/
def all (withLineFeed : Bool) : Letters :=
  { members := if withLineFeed then [] else [.range 10 10], negated := true }

end Letters

inductive Edge where
  | textStart
  | lineStart
  | textStop
  | lastLineStop
  | lineStop
  | word (ascii negated : Bool)
deriving DecidableEq, Repr

/-- How many times a pattern is repeated if there is a choice: as often as possible, as rarely as
possible, or as often as possible without a second try. -/
inductive Greed where
  | most
  | least
  | possessive
deriving DecidableEq, Repr

end Pattern

/-- A pattern for a part of a text. A group remembers what it matched, and a reference to a group
matches the same once more. -/
inductive Pattern where
  | empty
  | one (letters : Pattern.Letters)
  | edge (edge : Pattern.Edge)
  | sequence (first second : Pattern)
  | either (first second : Pattern)
  | repeated (least : Nat) (most : Option Nat) (greed : Pattern.Greed) (body : Pattern)
  | group (number : Nat) (body : Pattern)
  | enclosed (body : Pattern)
  | atomic (body : Pattern)
  | reference (number : Nat) (letterCase : Text.LetterCase)
  | ahead (negated : Bool) (body : Pattern)
  | behind (negated : Bool) (body : Pattern)
  | ifGroup (number : Nat) (yes no : Pattern)
deriving DecidableEq, Repr, Inhabited

namespace Pattern

def row : List Pattern → Pattern
  | [] => empty
  | [only] => only
  | first :: rest => sequence first (row rest)

def characters (text : Text) : List Pattern :=
  text.map fun c => one (.single c)

def literal (text : Text) : Pattern :=
  row (characters text)

/-- How many characters a match can take up; without a limit if the number is missing. -/
structure Width where
  least : Nat
  most : Option Nat
deriving DecidableEq, Repr

namespace Width

def exactly (count : Nat) : Width := ⟨count, some count⟩

def add (first second : Width) : Width :=
  ⟨first.least + second.least, do return (← first.most) + (← second.most)⟩

def either (first second : Width) : Width :=
  ⟨min first.least second.least, do return max (← first.most) (← second.most)⟩

def repeated (least : Nat) (most : Option Nat) (width : Width) : Width :=
  ⟨width.least * least,
    if width.most = some 0 then some 0 else do return (← width.most) * (← most)⟩

def isFixed (width : Width) : Bool :=
  width.most == some width.least

end Width

/-- The width of a pattern; `groups` holds the widths of the groups before it. -/
def width (groups : List (Nat × Width)) : Pattern → Width
  | empty | edge _ | ahead _ _ | behind _ _ => .exactly 0
  | one _ => .exactly 1
  | sequence first second => (first.width groups).add (second.width groups)
  | either first second => (first.width groups).either (second.width groups)
  | repeated least most _ body => (body.width groups).repeated least most
  | group _ body | enclosed body | atomic body => body.width groups
  | reference number _ => (groups.lookup number).getD (.exactly 0)
  | ifGroup _ yes no => (yes.width groups).either (no.width groups)

def references : Pattern → List Nat
  | empty | edge _ | one _ => []
  | reference number _ => [number]
  | sequence first second | either first second => first.references ++ second.references
  | ifGroup number yes no => number :: (yes.references ++ no.references)
  | repeated _ _ _ body | group _ body | enclosed body | atomic body | ahead _ body
  | behind _ body => body.references

end Pattern

end MdxCheck
