import MdxCheck.Markdown.Html
import MdxCheck.Markdown.Line

/-!
The lines that open a block, told by their content: fences, thematic breaks, headings, quotes and
list items. The same tests say which lines interrupt the block before them.
-/

namespace MdxCheck.Markdown

structure Fence where
  mark : Char
  length : Nat
deriving DecidableEq, Repr

/-- The fence that content opens with: three or more backticks, with no backtick after them, or
three or more tildes. -/
def fence? (content : Text) : Option Fence :=
  match content with
  | [] => none
  | mark :: _ =>
    let run := content.takeWhile (· == mark)
    if (mark = '`' ∨ mark = '~') ∧ 3 ≤ run.length ∧
        ¬(mark = '`' ∧ (content.drop run.length).any (· == '`')) then
      some ⟨mark, run.length⟩
    else none

/-- Whether content closes a fence: at least as many of its characters, and blanks. -/
def Fence.closedBy (fence : Fence) (content : Text) : Bool :=
  let run := content.takeWhile (· == fence.mark)
  fence.length ≤ run.length && (content.drop run.length).all isSpace

/-- Whether content is a thematic break: three or more stars, hyphens or underscores of one kind,
and blanks. -/
def isThematicBreak (content : Text) : Bool :=
  match content with
  | [] => false
  | mark :: _ =>
    (mark == '*' || mark == '-' || mark == '_') &&
      content.all (fun c => c == mark || isSpace c) && 3 ≤ content.count mark

def trimSpacesEnd (text : Text) : Text :=
  (text.reverse.dropWhile isSpace).reverse

/-- The text of a heading that starts with number signs: a closing run of them goes, if a blank
comes before it. -/
def headingText (afterSigns : Text) : Text :=
  let text := trimSpacesEnd afterSigns
  let opened := (text.reverse.dropWhile (· == '#')).reverse
  match opened.getLast? with
  | some c => Text.trim (if isSpace c then opened else text)
  | none => Text.trim text

/-- The text of the heading that content is: one to six number signs, then a blank or nothing. -/
def heading? (content : Text) : Option Text :=
  let signs := content.takeWhile (· == '#')
  let rest := content.drop signs.length
  if 1 ≤ signs.length ∧ signs.length ≤ 6 ∧ (rest.head?.map isSpace).getD true then
    some (headingText rest)
  else none

/-- A marker of a list item: its last character, the number before it in an ordered list, and the
length of both. -/
structure ListMarker where
  mark : Char
  number : Option Nat
  length : Nat
deriving DecidableEq, Repr

def endsMarker : Text → Bool
  | [] => true
  | c :: _ => isSpace c

/-- The marker of an ordered list that content opens with: one to nine digits and a period or a
parenthesis. -/
def orderedMarker? (content : Text) : Option ListMarker :=
  let digits := content.takeWhile Char.isDigit
  match content.drop digits.length with
  | mark :: rest =>
    if 1 ≤ digits.length ∧ digits.length ≤ 9 ∧ (mark = '.' ∨ mark = ')') ∧ endsMarker rest then
      some ⟨mark, some (Text.toNat 10 digits), digits.length + 1⟩
    else none
  | [] => none

def bulletMarker? (content : Text) : Option ListMarker :=
  match content with
  | mark :: rest =>
    if (mark = '*' ∨ mark = '-' ∨ mark = '+') ∧ endsMarker rest then some ⟨mark, none, 1⟩ else none
  | [] => none

def listMarker? (content : Text) : Option ListMarker :=
  (orderedMarker? content).or (bulletMarker? content)

/-- The level of the heading that a line below its text makes: equals signs or hyphens. -/
def isUnderline (content : Text) : Bool :=
  match content with
  | [] => false
  | mark :: _ =>
    (mark == '-' || mark == '=') && (content.dropWhile (· == mark)).all isSpace

namespace View

def fence? (view : View) (number : Nat) : Option Fence :=
  if view.isCode number then none else Markdown.fence? (view.line number).content

def opensQuote (view : View) (number : Nat) : Bool :=
  !view.isCode number && (view.line number).content.head? == some '>'

def isBreak (view : View) (number : Nat) : Bool :=
  !view.isCode number && isThematicBreak (view.line number).content

def heading? (view : View) (number : Nat) : Option Text :=
  if view.isCode number then none else Markdown.heading? (view.line number).content

def htmlEnd? (view : View) (number : Nat) : Option (Html.BlockEnd × Bool) :=
  if view.isCode number then none else Html.blockEnd? (view.line number).content

/-- The marker of the list that a line opens. A line far to the right of the list around it, but
left of its content, continues a paragraph. A list that interrupts a paragraph has text in its
first item and starts with one if it is ordered. -/
def list? (view : View) (interrupting : Bool) (number : Nat) : Option ListMarker :=
  let line := view.line number
  let continues := match view.listIndent with
    | some indent => (indent : Int) + 4 ≤ line.indent && line.indent < view.indent
    | none => false
  if view.isCode number || continues then none
  else
    (listMarker? line.content).filter fun marker =>
      !(interrupting && (view.indent : Int) ≤ line.indent) ||
        (marker.number.getD 1 == 1 && !(line.content.drop marker.length).all isSpace)

/-- Whether a line ends the list item before it, apart from opening the next one. -/
def endsItem (view : View) (number : Nat) : Bool :=
  (view.fence? number).isSome || view.opensQuote number || view.isBreak number

/-- Whether a line ends the block before it; `paragraph` says that this is a paragraph. -/
def interrupts (view : View) (paragraph : Bool) (number : Nat) : Bool :=
  view.endsItem number || (view.list? paragraph number).isSome ||
    ((view.htmlEnd? number).map Prod.snd).getD false || (view.heading? number).isSome

/-- Whether a line goes on with a paragraph whatever it holds: it is indented as code, or lazily
continued. -/
def goesOn (view : View) (number : Nat) : Bool :=
  view.isCode number || (view.line number).indent < 0

end View

end MdxCheck.Markdown
