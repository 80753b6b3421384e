import MdxCheck.Markdown.Autolink
import MdxCheck.Markdown.Emphasis
import MdxCheck.Markdown.Html
import MdxCheck.Markdown.Line
import MdxCheck.Markdown.Link

/-!
The text that inline Markdown shows: emphasis marks vanish, links leave their text, images the
source of their description, raw HTML nothing.

Reading runs over positions of one content. To find where the label of a link ends, the constructs
inside are skipped; what skipping finds at a position is remembered, also where the limit of the
reading has changed since.
-/

namespace MdxCheck.Markdown

/-- A piece of inline content: plain characters, text that is a token of its own, the end of a
line, or an emphasis mark. -/
inductive Piece where
  | plain (text : Text)
  | token (text : Text)
  | lineEnd
  | mark (delimiter : Delimiter)
deriving DecidableEq, Repr

namespace Piece

def joinPlain : List Piece → List Piece
  | [] => []
  | plain text :: pieces =>
    match joinPlain pieces with
    | plain further :: pieces => plain (text ++ further) :: pieces
    | pieces => plain text :: pieces
  | piece :: pieces => piece :: joinPlain pieces

def trimLines : List Piece → List Piece
  | [] => []
  | plain text :: lineEnd :: pieces =>
    plain (text.reverse.dropWhile (· == ' ')).reverse :: lineEnd :: trimLines pieces
  | piece :: pieces => piece :: trimLines pieces

/-- The delimiters among some pieces; `after` says that one comes right before. -/
def delimiters (after : Bool) : List Piece → List Delimiter
  | [] => []
  | mark delimiter :: pieces => { delimiter with adjoins := after } :: delimiters true pieces
  | _ :: pieces => delimiters false pieces

def render : List Bool → List Piece → Text
  | _, [] => []
  | paired, plain text :: pieces => text ++ render paired pieces
  | paired, token text :: pieces => text ++ render paired pieces
  | paired, lineEnd :: pieces => '\n' :: render paired pieces
  | true :: paired, mark _ :: pieces => render paired pieces
  | false :: paired, mark delimiter :: pieces => delimiter.mark :: render paired pieces
  | [], mark delimiter :: pieces => delimiter.mark :: render [] pieces

def text (pieces : List Piece) : Text :=
  let pieces := trimLines (joinPlain pieces)
  render (Pairing.run (delimiters false pieces)) pieces

end Piece

structure Inline where
  chars : Array Char
  labels : List Text

/-- What is remembered while reading: where skipping from a position ends, where a run of so many
backticks was last seen, and whether all runs have been looked at. -/
structure Memo where
  skips : Array (Option Nat)
  ticks : List (Nat × Nat)
  scanned : Bool

namespace Inline

def slice (content : Inline) (start stop : Nat) : Text :=
  (content.chars.extract start stop).toList

def at? (content : Inline) (limit position : Nat) : Option Char :=
  if position < limit then content.chars[position]? else none

/-- Whether a character may open a construct; all others are plain text. -/
def isSpecial (c : Char) : Bool :=
  "\n!#$%&*+-:<=>@[\\]^_`\x7b\x7d~".toList.contains c

/-- The first position from `position` on where the characters no longer satisfy `accept`; `fuel`
bounds their number. -/
def skipWhile (content : Inline) (accept : Char → Bool) (limit : Nat) : Nat → Nat → Nat
  | 0, position => position
  | fuel + 1, position =>
    match content.at? limit position with
    | some c => if accept c then content.skipWhile accept limit fuel (position + 1) else position
    | none => position

/-- The first position from `position` on with no character that satisfies `accept`. -/
def past (content : Inline) (accept : Char → Bool) (limit position : Nat) : Nat :=
  content.skipWhile accept limit (limit - position) position

/-- The end of a line, with the blanks that start the next one. -/
def lineEnd? (content : Inline) (limit position : Nat) : Option (Piece × Nat) :=
  some (.lineEnd, content.past isSpace limit (position + 1))

def escape? (content : Inline) (limit position : Nat) : Option (Piece × Nat) :=
  match content.at? limit (position + 1) with
  | none => none
  | some '\n' => some (.token ['\n'], content.past isSpace limit (position + 2))
  | some c =>
    some (.token (if Text.isAsciiPunctuation c then [c] else ['\\', c]), position + 2)

/-- The text of a code span: one space goes from both its ends, unless it is blank. -/
def codeText (source : Text) : Text :=
  let text := source.map fun c => if c = '\n' then ' ' else c
  if text.head? = some ' ' ∧ text.getLast? = some ' ' ∧ !Text.isBlankText text then
    (text.drop 1).dropLast
  else text

/-- The run of `count` backticks from `position` on that closes a code span: where it starts and
ends. The other runs on the way are remembered. -/
def closingTicks (content : Inline) (limit count : Nat) :
    Nat → Nat → Memo → Option (Nat × Nat) × Memo
  | 0, _, memo => (none, { memo with scanned := true })
  | fuel + 1, position, memo =>
    let start := content.past (· ≠ '`') content.chars.size position
    if content.chars.size ≤ start then (none, { memo with scanned := true })
    else
      let stop := content.past (· == '`') limit (start + 1)
      if stop - start = count then (some (start, stop), memo)
      else
        content.closingTicks limit count fuel stop
          { memo with ticks := (stop - start, start) :: memo.ticks }

/-- The code span that opens at a position, or its backticks as they are if nothing closes it. -/
def code (content : Inline) (limit : Nat) (memo : Memo) (position : Nat) :
    (Piece × Nat) × Memo :=
  let opened := content.past (· == '`') limit (position + 1)
  let count := opened - position
  let ticks : Piece × Nat := (.plain (List.replicate count '`'), opened)
  if memo.scanned && (memo.ticks.lookup count).getD 0 ≤ position then (ticks, memo)
  else
    match content.closingTicks limit count (content.chars.size + 1) opened memo with
    | (some (start, stop), memo) => ((.token (codeText (content.slice opened start)), stop), memo)
    | (none, memo) => (ticks, memo)

def bracketed? (content : Inline) (limit position : Nat) : Option (Piece × Nat) :=
  match Autolink.address? (content.slice position limit) with
  | some address => some (.token (Address.shown address), position + address.length + 2)
  | none =>
    let mayOpen := match content.at? limit (position + 1) with
      | some c => c == '!' || c == '?' || c == '/' || c.isAlpha
      | none => false
    if position + 2 < limit && mayOpen then
      (Html.dropInline? (content.slice position content.chars.size)).map fun rest =>
        (.token [], content.chars.size - rest.length)
    else none

def entity? (content : Inline) (limit position : Nat) : Option (Piece × Nat) :=
  if position + 1 < limit then
    (entityAt? (content.slice position content.chars.size)).map fun (form, rest) =>
      (.token form, content.chars.size - rest.length)
  else none

def simple? (content : Inline) (limit : Nat) (memo : Memo) (position : Nat) :
    Option (Piece × Nat) × Memo :=
  match content.at? limit position with
  | some '\n' => (content.lineEnd? limit position, memo)
  | some '\\' => (content.escape? limit position, memo)
  | some '`' =>
    let (found, memo) := content.code limit memo position
    (some found, memo)
  | some '<' => (content.bracketed? limit position, memo)
  | some '&' => (content.entity? limit position, memo)
  | some c =>
    if isSpecial c then (none, memo)
    else
      let stop := content.past (fun c => !isSpecial c) limit position
      (some (.plain (content.slice position stop), stop), memo)
  | none => (none, memo)

abbrev Skip := Memo → Nat → Nat × Memo

/-- The closing bracket of a label from `position` on, where `opened` brackets are open. A label
that is not `nested` holds no construct that starts with a bracket. -/
def labelEnd (content : Inline) (skip : Skip) (limit : Nat) (nested : Bool) :
    Nat → Nat → Memo → Nat → Option Nat × Memo
  | 0, _, memo, _ => (none, memo)
  | fuel + 1, opened, memo, position =>
    match content.at? limit position with
    | none => (none, memo)
    | some c =>
      if c = ']' ∧ opened = 1 then (some position, memo)
      else
        let (next, memo) := skip memo position
        let opened := if c = ']' then opened - 1 else opened
        if c = '[' then
          if next = position + 1 then
            content.labelEnd skip limit nested fuel (opened + 1) memo next
          else if nested then content.labelEnd skip limit nested fuel opened memo next
          else (none, memo)
        else content.labelEnd skip limit nested fuel opened memo next

/-- The closing bracket of the label whose opening bracket stands at a position. -/
def label (content : Inline) (skip : Skip) (limit : Nat) (nested : Bool) (memo : Memo)
    (position : Nat) : Option Nat × Memo :=
  content.labelEnd skip limit nested (limit + 1) 1 memo (position + 1)

/-- How the parentheses after a label end: outside of the content, at a closing parenthesis, or at
another character. -/
inductive TargetEnd where
  | outside
  | closed (position : Nat)
  | other (position : Nat)

def isSpaceOrFeed (c : Char) : Bool :=
  isSpace c || c == '\n'

/-- Reads the target of a link from what follows its opening parenthesis: a destination and perhaps
a title after some blanks. -/
def target (content : Inline) (limit position : Nat) : TargetEnd :=
  let start := content.past isSpaceOrFeed limit position
  if limit ≤ start then .outside
  else
    let stop :=
      match destination? (content.slice start limit) with
      | none => start
      | some (destination, length) =>
        let stop := if Address.isAllowed destination then start + length else start
        let title := content.past isSpaceOrFeed limit stop
        if stop < title then
          match titleLength? (content.slice title limit) with
          | some length => content.past isSpaceOrFeed limit (title + length)
          | none => title
        else title
    match content.at? limit stop with
    | some ')' => .closed (stop + 1)
    | _ => .other stop

/-- Where a reference ends whose label runs from `first` to `last`; a second label may stand at
`position`. -/
def reference? (content : Inline) (skip : Skip) (limit : Nat) (memo : Memo)
    (first last position : Nat) : Option Nat × Memo :=
  if content.labels.isEmpty then (none, memo)
  else
    let (second, memo) :=
      if content.at? limit position = some '[' then content.label skip limit true memo position
      else (none, memo)
    let (label, stop) := match second with
      | some stop =>
        (if position + 1 < stop then content.slice (position + 1) stop
          else content.slice first last, stop + 1)
      | none => (content.slice first last, last + 1)
    (if content.labels.contains (labelKey label) then some stop else none, memo)

/-- The link whose opening bracket stands at a position: where its text ends, and where the link
ends. Parentheses that hold no target leave a reference possible after them. -/
def link? (content : Inline) (skip : Skip) (limit : Nat) (memo : Memo) (position : Nat) :
    Option (Nat × Nat) × Memo :=
  match content.label skip limit false memo position with
  | (none, memo) => (none, memo)
  | (some last, memo) =>
    let reference (after : Nat) : Option (Nat × Nat) × Memo :=
      let (stop, memo) := content.reference? skip limit memo (position + 1) last after
      (stop.map fun stop => (last, stop), memo)
    if content.at? limit (last + 1) = some '(' then
      match content.target limit (last + 2) with
      | .outside => (none, memo)
      | .closed stop => (some (last, stop), memo)
      | .other stop => reference (stop + 1)
    else reference (last + 1)

/-- The image whose exclamation mark stands at a position: where its description ends, and where
the image ends. -/
def image? (content : Inline) (skip : Skip) (limit : Nat) (memo : Memo) (position : Nat) :
    Option (Nat × Nat) × Memo :=
  if content.at? limit (position + 1) ≠ some '[' then (none, memo)
  else
    match content.label skip limit true memo (position + 1) with
    | (none, memo) => (none, memo)
    | (some last, memo) =>
      if content.at? limit (last + 1) = some '(' then
        match content.target limit (last + 2) with
        | .closed stop => (some (last, stop), memo)
        | _ => (none, memo)
      else
        let (stop, memo) := content.reference? skip limit memo (position + 2) last (last + 1)
        (stop.map fun stop => (last, stop), memo)

/-- Skips the construct at a position and remembers where it ends. Where no further level may be
opened, everything up to the limit is skipped. -/
def skip (content : Inline) (limit : Nat) : Nat → Skip
  | 0, memo, position =>
    match (memo.skips[position]?).join with
    | some stop => (stop, memo)
    | none =>
      (limit + 1, { memo with skips := memo.skips.setIfInBounds position (some (limit + 1)) })
  | room + 1, memo, position =>
    match (memo.skips[position]?).join with
    | some stop => (stop, memo)
    | none =>
      let (found, memo) : Option Nat × Memo := match content.at? limit position with
        | some '[' =>
          let (link, memo) := content.link? (content.skip limit room) limit memo position
          (link.map Prod.snd, memo)
        | some '!' =>
          let (image, memo) := content.image? (content.skip limit room) limit memo position
          (image.map Prod.snd, memo)
        | _ =>
          let (piece, memo) := content.simple? limit memo position
          (piece.map Prod.snd, memo)
      let stop := found.getD (position + 1)
      (stop, { memo with skips := memo.skips.setIfInBounds position (some stop) })

def marks (content : Inline) (limit : Nat) (mark : Char) (position : Nat) : List Piece × Nat :=
  let stop := content.past (· == mark) limit position
  let before := if position = 0 then ' ' else (content.chars[position - 1]?).getD ' '
  let delimiter :=
    Delimiter.ofRun mark (stop - position) before ((content.at? limit stop).getD ' ')
  (List.replicate (stop - position) (.mark delimiter), stop)

def plainChar (c : Char) (position : Nat) : List Piece × Nat :=
  ([.plain [c]], position + 1)

/-- The pieces at a position, and where they end; `inside` reads the text of a link. -/
def step (content : Inline) (skip : Skip) (inside : Memo → Nat → Nat → List Piece × Memo)
    (limit : Nat) (memo : Memo) (c : Char) (position : Nat) : (List Piece × Nat) × Memo :=
  if c = '*' ∨ c = '_' then (content.marks limit c position, memo)
  else if c = '[' then
    match content.link? skip limit memo position with
    | (some (last, stop), memo) =>
      let (pieces, memo) := inside memo (position + 1) last
      (([.token (Piece.text pieces)], stop), memo)
    | (none, memo) => (plainChar c position, memo)
  else if c = '!' then
    match content.image? skip limit memo position with
    | (some (last, stop), memo) => (([.token (content.slice (position + 2) last)], stop), memo)
    | (none, memo) => (plainChar c position, memo)
  else
    match content.simple? limit memo position with
    | (some (piece, stop), memo) => (([piece], stop), memo)
    | (none, memo) => (plainChar c position, memo)

def steps (content : Inline) (skip : Skip) (inside : Memo → Nat → Nat → List Piece × Memo)
    (limit : Nat) : Nat → Memo → Nat → List Piece × Memo
  | 0, memo, _ => ([], memo)
  | fuel + 1, memo, position =>
    match content.at? limit position with
    | none => ([], memo)
    | some c =>
      let ((pieces, next), memo) := content.step skip inside limit memo c position
      let (further, memo) := content.steps skip inside limit fuel memo next
      (pieces ++ further, memo)

/-- The pieces between two positions, where links may nest `room` levels deep. -/
def pieces (content : Inline) : Nat → Memo → Nat → Nat → List Piece × Memo
  | 0, memo, start, stop => ([.plain (content.slice start stop)], memo)
  | room + 1, memo, start, stop =>
    content.steps (content.skip stop (room + 1)) (content.pieces room) stop (stop - start) memo
      start

def depth : Nat := 20

def shown (labels : List Text) (source : Text) : Text :=
  let chars := source.toArray
  let memo : Memo := ⟨Array.replicate chars.size none, [], false⟩
  Piece.text (Inline.pieces ⟨chars, labels⟩ depth memo 0 chars.size).1

end Inline

end MdxCheck.Markdown
