import MdxCheck.Tag.Expression
import MdxCheck.Text.Word

/-!
The tags in a piece of source. A tag runs from its angle bracket to the first closing bracket
outside quoted values and brace expressions.
-/

namespace MdxCheck

/-- A complete tag; `attributes` is the source between its name and its end, and `start` and
`stop` are the offsets of its first character and of what follows its last. -/
structure Tag where
  name : Text
  closing : Bool
  selfClosing : Bool
  attributes : Text
  start : Nat
  stop : Nat
deriving DecidableEq, Repr

namespace Tag

/-- The characters of a tag name after its first, which is an ASCII letter. -/
def isNameRest (c : Char) : Bool :=
  Text.isWordChar c || c == '.' || c == '-'

def endsName : Text → Bool
  | [] => true
  | c :: _ => Text.isBlank c || c == '/' || c == '>'

def name? : Text → Option (Text × Text)
  | [] => none
  | c :: text =>
    let rest := text.dropWhile isNameRest
    if c.isAlpha && endsName rest then some (c :: text.takeWhile isNameRest, rest) else none

structure Opening where
  closing : Bool
  name : Text
  rest : Text

/-- The opening of a tag at the start of the text: an angle bracket, a slash if the tag closes a
component, and the name. -/
def opening? : Text → Option Opening
  | '<' :: '/' :: text => (name? text).map fun (name, rest) => ⟨true, name, rest⟩
  | '<' :: text => (name? text).map fun (name, rest) => ⟨false, name, rest⟩
  | _ => none

def Opening.length (opening : Opening) : Nat :=
  opening.name.length + if opening.closing then 2 else 1

/-- The number of characters until a tag ends, its closing bracket included. The first `skipped`
characters belong to an expression, and `quote` is the quote of the value that the text starts in,
if any. -/
def tail? (skipped : Nat) (quote : Option Char) : Text → Option Nat
  | [] => none
  | c :: rest =>
    match skipped with
    | skipped + 1 => (tail? skipped quote rest).map (· + 1)
    | 0 =>
      match quote with
      | some q => (tail? 0 (if c = q then none else some q) rest).map (· + 1)
      | none =>
        if c = '"' ∨ c = '\'' then (tail? 0 (some c) rest).map (· + 1)
        else if c = '{' then
          match expressionLength? (c :: rest) with
          | none => none
          | some length => (tail? (length - 1) none rest).map (· + 1)
        else if c = '>' then some 1
        else (tail? 0 none rest).map (· + 1)

/-- The tag at offset `start` from its opening and the number of characters that follow it. -/
def ofOpening (start : Nat) (opening : Opening) (length : Nat) : Tag :=
  let body := Text.trimEnd (opening.rest.take (length - 1))
  let selfClosing := body.getLast? == some '/'
  { name := opening.name
    closing := opening.closing
    selfClosing := selfClosing
    attributes := if selfClosing then body.dropLast else body
    start := start
    stop := start + opening.length + length }

/-- What a scan finds: complete tags in order, and the offset of a last tag that does not end. -/
structure Found where
  tags : List Tag
  unterminated : Option Nat
deriving DecidableEq, Repr

/-- The tags of a text that starts at `offset`; its first `skipped` characters belong to a tag. -/
def scanFrom (skipped offset : Nat) : Text → Found
  | [] => ⟨[], none⟩
  | c :: rest =>
    match skipped with
    | skipped + 1 => scanFrom skipped (offset + 1) rest
    | 0 =>
      match opening? (c :: rest) with
      | none => scanFrom 0 (offset + 1) rest
      | some opening =>
        match tail? 0 none opening.rest with
        | none => ⟨[], some offset⟩
        | some length =>
          let tag := ofOpening offset opening length
          let found := scanFrom (opening.length + length - 1) (offset + 1) rest
          ⟨tag :: found.tags, found.unterminated⟩

def scan (source : Text) : Found :=
  scanFrom 0 0 source

end Tag

end MdxCheck
