import MdxCheck.Markdown.Link
import MdxCheck.Markdown.Marker

/-!
Link definitions: a label, a destination and perhaps a title, at the start of a paragraph. Label,
blanks and title may go on over several lines, the destination may not.

The source of a definition is kept as a list of lines with their line feeds. Only the first of
them may be read in part, so the number of lines that are left says how far the reading got.
-/

namespace MdxCheck.Markdown.Definition

/-- The source without its first `count` characters. -/
def dropChars (count : Nat) : List Text → List Text
  | [] => []
  | [line] => [line.drop count]
  | line :: lines =>
    if count < line.length then line.drop count :: lines
    else dropChars (count - line.length) lines

/-- The source without the blanks at its start; a line feed leads to the next line, if there is
one. -/
def dropBlanks (line : Text) : List Text → Text × List Text
  | [] =>
    match line.dropWhile isSpace with
    | '\n' :: _ => ([], [])
    | rest => (rest, [])
  | next :: lines =>
    match line.dropWhile isSpace with
    | '\n' :: _ => dropBlanks next lines
    | rest => (rest, next :: lines)

/-- The length of the label whose opening bracket comes before the text. A label holds no further
opening bracket, and a backslash takes the next character with it. -/
def labelLength? : Text → Option Nat
  | [] => none
  | '\\' :: _ :: rest => (labelLength? rest).map (· + 2)
  | c :: rest =>
    if c = '[' then none
    else if c = ']' then some 0
    else (labelLength? rest).map (· + 1)

def isDone (line : Text) : Bool :=
  match line.dropWhile isSpace with
  | [] => true
  | c :: _ => c == '\n'

/-- What follows the title that may come after a destination, and whether that title is empty.
Blanks have to stand before a title that ends on its first line. -/
def dropTitle? (afterDestination : Text) (lines : List Text) : Option (List Text × Bool) :=
  let (line, lines) := dropBlanks afterDestination lines
  let spaced := (afterDestination.head?.map fun c => isSpace c || c == '\n').getD false
  match titleLength? (line :: lines).flatten with
  | some length =>
    if spaced || line.length < length then some (dropChars length (line :: lines), length == 2)
    else none
  | none => none

/-- The lines that are left after the end of a definition. What follows a title on its line can
still belong to the paragraph when the title opens a line of its own. -/
def dropEnd? (afterDestination : Text) (lines : List Text) : Option (List Text) :=
  let bare := if isDone afterDestination then some lines else none
  match dropTitle? afterDestination lines with
  | some (rest, isEmpty) =>
    if isDone (rest.head?.getD []) then some rest.tail
    else if isEmpty then none
    else bare
  | none => bare

def read? (lines : List Text) : Option (Text × Nat) :=
  match lines with
  | ('[' :: text) :: further => do
    let length ← labelLength? (text :: further).flatten
    match dropChars (length + 1) (text :: further) with
    | (':' :: afterLabel) :: further =>
      let (line, further) := dropBlanks afterLabel further
      let (destination, size) ← destination? line
      if Address.isAllowed destination then
        let further ← dropEnd? (line.drop size) further
        let key := labelKey (((text :: lines.tail).flatten).take length)
        if key.isEmpty then none else some (key, lines.length - further.length)
      else none
    | _ => none
  | _ => none

end MdxCheck.Markdown.Definition

namespace MdxCheck.Markdown.View

/-- The lines from `number` on that can continue a definition, each with its line feed. -/
def continuations (view : View) : Nat → Nat → List Text
  | 0, _ => []
  | fuel + 1, number =>
    let line := view.line number
    if number < view.limit && !line.isEmpty &&
        (view.goesOn number || !view.interrupts false number) then
      (line.content ++ if line.ended then ['\n'] else []) :: view.continuations fuel (number + 1)
    else []

def definition? (view : View) (number : Nat) : Option (Text × Nat) :=
  let line := view.line number
  if view.isCode number || line.content.head? != some '[' then none
  else
    Definition.read? ((line.content ++ if line.ended then ['\n'] else []) ::
      view.continuations (view.limit - number) (number + 1))

end MdxCheck.Markdown.View
