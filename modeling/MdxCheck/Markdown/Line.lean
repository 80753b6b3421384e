import MdxCheck.Text.Lines

/-!
The lines of a Markdown text as the constructs around them leave them: a block quote moves the
mark where the body of a line begins, and a list item moves its content and its indent.
-/

namespace MdxCheck.Markdown

def isSpace (c : Char) : Bool :=
  c == ' ' || c == '\t'

/-- The number of spaces and tabs at the start of the text, and the column after them. The text
starts at `column`; tabs stop at every fourth column, counted `shift` columns further left. -/
def spacesFrom (shift column : Nat) : Text → Nat × Nat
  | '\t' :: rest =>
    let (count, stop) := spacesFrom shift (column + (4 - (column + shift) % 4)) rest
    (count + 1, stop)
  | ' ' :: rest =>
    let (count, stop) := spacesFrom shift (column + 1) rest
    (count + 1, stop)
  | _ => (0, column)

/-- A line: its body, how many characters of the body come before the content, the column of the
content, the columns that the constructs around the line take, and whether a line feed follows. A
lazily continued line has a negative indent. -/
structure Line where
  body : Text
  lead : Nat
  indent : Int
  base : Nat
  ended : Bool
deriving DecidableEq, Repr

namespace Line

def ofText (text : Text) (ended : Bool) : Line :=
  let (count, column) := spacesFrom 0 0 text
  ⟨text, count, column, 0, ended⟩

def content (line : Line) : Text :=
  line.body.drop line.lead

def isEmpty (line : Line) : Bool :=
  line.body.length ≤ line.lead

/-- The body from the column `indent` on. A tab that reaches beyond this column leaves spaces; the
first `lead` characters count as one column each if they are no blanks. -/
def cutFrom (lead base indent column : Nat) : Text → Text
  | [] => List.replicate (column - indent) ' '
  | c :: rest =>
    if column < indent then
      if c = '\t' then
        cutFrom (lead - 1) base indent (column + (4 - (column + base) % 4)) rest
      else if c = ' ' ∨ 0 < lead then cutFrom (lead - 1) base indent (column + 1) rest
      else c :: rest
    else List.replicate (column - indent) ' ' ++ (c :: rest)

/-- The line without its first `indent` columns. -/
def cut (line : Line) (indent : Nat) : Text :=
  cutFrom line.lead line.base indent 0 line.body

end Line

/-- The lines of a text; nothing after the last line feed is no line. -/
def linesOf : List Text → List Line
  | [] => []
  | [text] => if text.isEmpty then [] else [.ofText text false]
  | text :: texts => .ofText text true :: linesOf texts

/-- The lines that a construct sees: up to the line `limit`, with content at column `indent` or
beyond; `listIndent` is the column of the innermost list around, if there is one. -/
structure View where
  lines : Array Line
  limit : Nat
  indent : Nat
  listIndent : Option Nat
deriving Repr

namespace View

def ofLines (lines : List Line) : View :=
  ⟨lines.toArray, lines.length, 0, none⟩

/-- A line of the view; below the last line there is an empty one. -/
def line (view : View) (number : Nat) : Line :=
  (view.lines[number]?).getD ⟨[], 0, 0, 0, false⟩

def isCode (view : View) (number : Nat) : Bool :=
  (view.indent : Int) + 4 ≤ (view.line number).indent

/-- The first line from `number` on that is not empty; `fuel` counts the lines to look at. -/
def skipEmpty (view : View) : Nat → Nat → Nat
  | 0, number => number
  | fuel + 1, number =>
    if number < view.limit && (view.line number).isEmpty then view.skipEmpty fuel (number + 1)
    else number

/-- The lines from `first` to below `past`, each without its first `indent` columns, with their
line feeds; the last has its own only if `closed`. -/
def cutLines (view : View) (indent : Nat) (closed : Bool) (first past : Nat) : Text :=
  (List.range' first (past - first)).flatMap fun number =>
    let line := view.line number
    line.cut indent ++ if line.ended && (number + 1 < past || closed) then ['\n'] else []

end View

end MdxCheck.Markdown
