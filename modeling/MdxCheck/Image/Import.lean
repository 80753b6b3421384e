import MdxCheck.Text.CaseFold
import MdxCheck.Text.Lines
import MdxCheck.Text.Word

/-!
Statements that import images into a document, and whether the document uses them.
-/

namespace MdxCheck.Image

structure Import where
  name : Text
  source : Text
  line : Nat
deriving DecidableEq, Repr

def extensions : List Text :=
  (["png", "jpg", "jpeg", "gif", "svg", "webp"] : List String).map String.toList

/-- What follows a word at the start of a text, whatever the case of its letters. -/
def afterWord? : Text → Text → Option Text
  | [], text => some text
  | _ :: _, [] => none
  | w :: word, c :: text => if Text.foldLetter c = w then afterWord? word text else none

def afterBlanks? : Text → Option Text
  | [] => none
  | c :: text => if Text.isBlank c then some (text.dropWhile Text.isBlank) else none

def startsName (c : Char) : Bool :=
  (Text.foldLetter c).isAlpha || c == '_' || c == '$'

def isNameChar (c : Char) : Bool :=
  Text.isWordChar c || c == '$'

/-- Whether a source is the name of a file with an image: something, a period and a suffix. -/
def isImageSource (source : Text) : Bool :=
  let suffix := (source.reverse.takeWhile (· != '.')).reverse
  suffix.length + 1 < source.length && extensions.contains (suffix.map Text.foldLetter)

/-- Whether a statement ends here: with a semicolon or without, and then blanks up to the end of the
line. -/
def endsStatement (text : Text) : Bool :=
  let rest := if text.head? = some ';' then text.drop 1 else text
  match rest.dropWhile fun c => c == ' ' || c == '\t' with
  | [] => true
  | c :: _ => c == '\n'

/-- The name and the source that a text imports, if it opens with an import of an image, and the text
behind the closing quote. -/
def statement? (text : Text) : Option (Text × Text × Text) := do
  let rest ← afterBlanks? (← afterWord? "import" text)
  let name := rest.takeWhile isNameChar
  if !(name.head?.any startsName) then none
  else
    let rest ← afterBlanks? (← afterWord? "from" (← afterBlanks? (rest.drop name.length)))
    match rest with
    | [] => none
    | quote :: rest =>
      let source := rest.takeWhile fun c => c != '\'' && c != '"'
      match rest.drop source.length with
      | [] => none
      | stop :: rest =>
        if (quote = '\'' ∨ quote = '"') ∧ stop = quote ∧ isImageSource source ∧
            endsStatement rest then
          some (name, source, rest)
        else none

/-- The imports from the start of line `line` on; `isStart` tells whether a line starts here, and
`skipped` characters belong to the import before. -/
def importsFrom (line : Nat) (isStart : Bool) (skipped : Nat) : Text → List Import
  | [] => []
  | c :: text =>
    let next := if c = '\n' then line + 1 else line
    match skipped with
    | skipped + 1 => importsFrom next (c == '\n') skipped text
    | 0 =>
      match (if isStart then statement? (c :: text) else none) with
      | some (name, source, rest) =>
        ⟨name, source, line⟩ :: importsFrom next false (text.length - rest.length) text
      | none => importsFrom next (c == '\n') 0 text

def imports (document : Text) : List Import :=
  importsFrom 1 true 0 document

/-- Whether a name stands in a text and is not part of a longer one; `before` is the character before
the text. -/
def hasName (name : Text) (before : Option Char) : Text → Bool
  | [] => false
  | c :: text =>
    let standsHere := match Text.dropStart? name (c :: text) with
      | some rest => !before.any isNameChar && !rest.head?.any isNameChar
      | none => false
    standsHere || hasName name (some c) text

/-- Whether a document uses an import: its name stands in some line other than its own. -/
def Import.isUsedIn (document : Text) (image : Import) : Bool :=
  let others := (Text.lines document).zipIdx.filter fun (_, index) => index + 1 ≠ image.line
  hasName image.name none (Text.unlines (others.map Prod.fst))

end MdxCheck.Image
