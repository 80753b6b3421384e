import MdxCheck.Markdown.Definition
import MdxCheck.Markdown.Token

/-!
The blocks of a Markdown text: which lines belong together, and which tokens they give.

A reader takes the lines of a view from one line up to another. Readers of nested blocks are built
from each other by recursion on the number of levels that may still be opened, so no text nests
deeper than `Blocks.depth` levels; what would do so is left out.
-/

namespace MdxCheck.Markdown

/-- What reading some lines gives: the tokens, the keys of the labels that are defined, and the
line where the reading stopped. -/
structure Blocks where
  tokens : List Token
  labels : List Text
  line : Nat
deriving Repr

namespace Blocks

abbrev Reader := View → Nat → Nat → Blocks

def depth : Nat := 20

/-- The blocks of `first` and then those of `next`. -/
def append (first next : Blocks) : Blocks :=
  ⟨first.tokens ++ next.tokens, first.labels ++ next.labels, next.line⟩

/-- The line that opens a quote, as the blocks inside the quote see it. A blank after the mark
belongs to the mark; of a tab it may be a part only. -/
def quoted (line : Line) : Line :=
  let column := line.indent.toNat + 1
  let inside := line.content.drop 1
  let (body, taken, shift) := match inside with
    | ' ' :: rest => (rest, 1, 0)
    | '\t' :: rest => if (line.base + column) % 4 = 3 then (rest, 1, 0) else (inside, 0, 1)
    | _ => (inside, 0, 0)
  let (count, stop) := spacesFrom (line.base + shift) (column + taken) body
  ⟨body, count, stop - (column + taken), column + taken + shift, line.ended⟩

/-- The lines of a quote from `number` on, and the line after them. A line without a mark goes on
with the quote unless it is empty, comes after an empty one, or opens a block; where it opens a
block, the quote cannot see beyond it. -/
def quotedLines (view : View) (stop : Nat) (inner : View) (afterEmpty : Bool) :
    Nat → Nat → View × Nat
  | 0, number => (inner, number)
  | fuel + 1, number =>
    let line := view.line number
    if stop ≤ number || line.isEmpty then (inner, number)
    else if line.content.head? == some '>' && (view.indent : Int) ≤ line.indent then
      let line := quoted line
      quotedLines view stop { inner with lines := inner.lines.setIfInBounds number line }
        line.isEmpty fuel (number + 1)
    else if afterEmpty then (inner, number)
    else if view.interrupts false number then
      let line := { line with indent := line.indent - view.indent }
      ({ inner with lines := inner.lines.setIfInBounds number line, limit := number }, number)
    else
      let line := { line with indent := -1 }
      quotedLines view stop { inner with lines := inner.lines.setIfInBounds number line } false
        fuel (number + 1)

def quote (inside : Reader) (view : View) (start stop : Nat) : Blocks :=
  let first := quoted (view.line start)
  let opened := { view with lines := view.lines.setIfInBounds start first, indent := 0 }
  let (inner, past) :=
    quotedLines view stop opened first.isEmpty (stop - start) (start + 1)
  let blocks := inside inner start past
  { blocks with tokens := Token.wrap .blockquote start blocks.tokens }

/-- The item whose marker a line opens with. Its content starts after the blanks that follow the
marker, or one column after the marker if these would indent code. -/
def item (inside : Reader) (view : View) (marker : ListMarker) (start stop : Nat) : Blocks :=
  let line := view.line start
  let column := line.indent.toNat + marker.length
  let afterMarker := line.content.drop marker.length
  let (count, offset) := spacesFrom line.base column afterMarker
  let isEmpty := afterMarker.length ≤ count
  let padding := if isEmpty || 4 < offset - column then 1 else offset - column
  let opened := { line with lead := line.lead + marker.length + count, indent := offset }
  let inner := { view with
    lines := view.lines.setIfInBounds start opened
    indent := column + padding
    listIndent := some view.indent }
  let blocks :=
    if isEmpty && (view.line (start + 1)).isEmpty then ⟨[], [], min (start + 2) stop⟩
    else inside inner start stop
  { blocks with tokens := Token.wrap .listItem start blocks.tokens }

def nextMarker? (view : View) (marker : ListMarker) (number : Nat) : Option ListMarker :=
  if (view.line number).indent < view.indent || view.isCode number || view.endsItem number then
    none
  else
    let content := (view.line number).content
    (if marker.number.isSome then orderedMarker? content else bulletMarker? content).filter
      fun next => next.mark == marker.mark

def items (inside : Reader) (view : View) (stop : Nat) : Nat → ListMarker → Nat → Blocks
  | 0, _, start => ⟨[], [], start⟩
  | fuel + 1, marker, start =>
    let first := item inside view marker start stop
    if stop ≤ first.line then first
    else
      match nextMarker? view marker first.line with
      | some marker => first.append (items inside view stop fuel marker first.line)
      | none => first

def list (inside : Reader) (view : View) (marker : ListMarker) (start stop : Nat) : Blocks :=
  let blocks := items inside view stop (stop - start + 1) marker start
  let kind := if marker.number.isSome then .orderedList else .bulletList
  { blocks with tokens := Token.wrap kind start blocks.tokens }

/-- The line after the last line of indented code; empty lines belong to the code only between
others. -/
def codePast (view : View) (stop : Nat) : Nat → Nat → Nat → Nat
  | 0, _, last => last
  | fuel + 1, number, last =>
    if stop ≤ number then last
    else if (view.line number).isEmpty then codePast view stop fuel (number + 1) last
    else if view.isCode number then codePast view stop fuel (number + 1) (number + 1)
    else last

def code (view : View) (start stop : Nat) : Blocks :=
  let past := codePast view stop (stop - start) (start + 1) (start + 1)
  let content := view.cutLines (view.indent + 4) false start past ++ ['\n']
  ⟨[.leaf .indentedCode content start past], [], past⟩

def fencePast (view : View) (fence : Fence) (stop : Nat) : Nat → Nat → Nat × Bool
  | 0, number => (number, false)
  | fuel + 1, number =>
    let line := view.line number
    if stop ≤ number then (number, false)
    else if line.isEmpty then
      if line.ended then fencePast view fence stop fuel (number + 1) else (number, false)
    else if line.indent < view.indent then (number, false)
    else if fence.closedBy line.content && !view.isCode number then (number, true)
    else fencePast view fence stop fuel (number + 1)

def fenced (view : View) (fence : Fence) (start stop : Nat) : Blocks :=
  let (past, closed) := fencePast view fence stop (stop - start) (start + 1)
  let content := view.cutLines (view.line start).indent.toNat true (start + 1) past
  let past := if closed then past + 1 else past
  ⟨[.leaf .fencedCode content start past], [], past⟩

def htmlPast (view : View) (ending : Html.BlockEnd) (stop : Nat) : Nat → Nat → Nat
  | 0, number => number
  | fuel + 1, number =>
    let line := view.line number
    if stop ≤ number || line.indent < view.indent then number
    else if ending.holdsOn line.content then (if line.content.isEmpty then number else number + 1)
    else htmlPast view ending stop fuel (number + 1)

def html (view : View) (ending : Html.BlockEnd) (start stop : Nat) : Blocks :=
  let past :=
    if ending.holdsOn (view.line start).content then start + 1
    else htmlPast view ending stop (stop - start) (start + 1)
  ⟨[.leaf .html (view.cutLines view.indent true start past) start past], [], past⟩

def underline? (view : View) (stop : Nat) : Nat → Nat → Option Nat
  | 0, _ => none
  | fuel + 1, number =>
    let line := view.line number
    if stop ≤ number || line.isEmpty then none
    else if view.isCode number then underline? view stop fuel (number + 1)
    else if (view.indent : Int) ≤ line.indent && isUnderline line.content then some number
    else if 0 ≤ line.indent && view.interrupts true number then none
    else underline? view stop fuel (number + 1)

def paragraphPast (view : View) : Nat → Nat → Nat
  | 0, number => number
  | fuel + 1, number =>
    if view.limit ≤ number || (view.line number).isEmpty then number
    else if view.goesOn number || !view.interrupts true number then
      paragraphPast view fuel (number + 1)
    else number

/-- The text of the lines from `first` to below `past`, without white space at its ends. -/
def textOf (view : View) (first past : Nat) : Text :=
  Text.trim (view.cutLines view.indent false first past)

def heading (text : Text) (start past : Nat) : Blocks :=
  ⟨Token.wrap .heading start [.inline text start], [], past⟩

def text (view : View) (start stop : Nat) : Blocks :=
  match underline? view stop (stop - start) (start + 1) with
  | some number => heading (textOf view start number) start (number + 1)
  | none =>
    let past := paragraphPast view (view.limit - start) (start + 1)
    ⟨Token.wrap .paragraph start [.inline (textOf view start past) start], [], past⟩

def block (inQuote inItem : Reader) (view : View) (start stop : Nat) : Blocks :=
  if view.isCode start then code view start stop
  else if let some fence := view.fence? start then fenced view fence start stop
  else if view.opensQuote start then quote inQuote view start stop
  else if view.isBreak start then ⟨[.leaf .thematicBreak [] start (start + 1)], [], start + 1⟩
  else if let some marker := view.list? false start then list inItem view marker start stop
  else if let some (label, count) := view.definition? start then ⟨[], [label], start + count⟩
  else if let some (ending, _) := view.htmlEnd? start then html view ending start stop
  else if let some text := view.heading? start then heading text start (start + 1)
  else text view start stop

/-- Reads blocks one after the other with `next`, up to a line that is not indented enough. -/
def readWith (next : Reader) (view : View) (stop : Nat) : Nat → Nat → Blocks
  | 0, number => ⟨[], [], number⟩
  | fuel + 1, number =>
    if stop ≤ number then ⟨[], [], number⟩
    else
      let start := view.skipEmpty (view.limit - number) number
      if stop ≤ start || (view.line start).indent < view.indent then ⟨[], [], start⟩
      else
        let first := next view start stop
        let past :=
          if first.line < stop && (view.line first.line).isEmpty then first.line + 1
          else first.line
        first.append (readWith next view stop fuel past)

def readNone : Reader := fun view start stop =>
  readWith (fun _ _ stop => ⟨[], [], stop⟩) view stop (stop - start + 1) start

/-- Reads blocks that may open `room` further levels. A quote opens one, an item of a list two. -/
def read : Nat → Reader
  | 0 => readNone
  | 1 => fun view start stop =>
    readWith (block readNone readNone) view stop (stop - start + 1) start
  | room + 2 => fun view start stop =>
    readWith (block (read (room + 1)) (read room)) view stop (stop - start + 1) start

def cleanChar (c : Char) : Char :=
  if c = '\x00' then '\uFFFD' else c

def ofText (text : Text) : Blocks :=
  let lines := linesOf (Text.splitOn (· == '\n') (text.map cleanChar))
  read depth (.ofLines lines) 0 lines.length

end Blocks

end MdxCheck.Markdown
