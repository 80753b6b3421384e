import MdxCheck.Yaml.Error

/-!
Reading the scalars of a YAML text: plain ones, quoted ones and blocks.

Line breaks inside a scalar are folded: a single one counts as a space, and of several the first is
dropped. The loops take a count of the characters that are left, which bounds their steps.
-/

namespace MdxCheck.Yaml

/-- The text that a folded line break and the breaks after it stand for. -/
def foldBreaks (first : Char) (breaks : Text) : Text :=
  (if first ≠ '\n' then [first] else if breaks.isEmpty then [' '] else []) ++ breaks

/-! ## Plain scalars -/

/-- Whether a plain scalar stops before this text; inside flow collections their marks stop it. -/
def stopsPlain (inFlow : Bool) : Text → Bool
  | [] => true
  | c :: rest =>
    c == ' ' || c == '\t' || isBreak c ||
      (c == ':' && (atBlank rest ||
        (inFlow && ((rest.head?.map fun d => ",[]\x7b\x7d".toList.contains d).getD false)))) ||
      (inFlow && ",?[]\x7b\x7d".toList.contains c)

def plainLength (inFlow : Bool) : Text → Nat
  | [] => 0
  | c :: rest => if stopsPlain inFlow (c :: rest) then 0 else plainLength inFlow rest + 1

/-- The line breaks between two lines of a plain scalar; nothing comes back where a document ends
instead. -/
def plainBreaks? : Nat → Cursor → Option (Text × Cursor)
  | 0, cursor => some ([], cursor)
  | fuel + 1, cursor =>
    if cursor.atDocumentMark then none
    else
      let inside := cursor.skipSpaces
      match inside.lineBreak? with
      | some (c, cursor) =>
        (plainBreaks? fuel cursor).map fun (breaks, cursor) => (c :: breaks, cursor)
      | none => some ([], inside)

/-- Where the search for line breaks gives up at a document mark. -/
def documentMark : Nat → Cursor → Cursor
  | 0, cursor => cursor
  | fuel + 1, cursor =>
    if cursor.atDocumentMark then cursor
    else
      match cursor.skipSpaces.lineBreak? with
      | some (_, cursor) => documentMark fuel cursor
      | none => cursor

/-- The blanks between two pieces of a plain scalar, what they stand for, and whether a line ended
among them. -/
def plainSpaces (cursor : Cursor) : Text × Bool × Cursor :=
  let (spaces, cursor) := cursor.takeWhile (· == ' ')
  match cursor.lineBreak? with
  | none => (spaces, false, cursor)
  | some (c, cursor) =>
    match plainBreaks? (cursor.rest.length + 1) cursor with
    | some (breaks, cursor) => (foldBreaks c breaks, true, cursor)
    | none => ([], true, documentMark (cursor.rest.length + 1) cursor)

/-- A plain scalar as far as it is read: its text, its end, whether its last blanks held the end of
a line, and the cursor behind these. -/
structure PlainScalar where
  value : Text
  stop : Mark
  atLineStart : Bool
  cursor : Cursor

/-- Reads on with a plain scalar after the blanks that stand for `spaces`. -/
def plainFrom (inFlow : Bool) (indent : Int) : Nat → Text → PlainScalar → PlainScalar
  | 0, _, scalar => scalar
  | fuel + 1, spaces, scalar =>
    let length := plainLength inFlow scalar.cursor.rest
    if scalar.cursor.peek? = some '#' ∨ length = 0 then scalar
    else
      let piece := scalar.cursor.rest.take length
      let behind := scalar.cursor.skip length
      let (further, ended, cursor) := plainSpaces behind
      let scalar := ⟨scalar.value ++ spaces ++ piece, behind.mark, ended, cursor⟩
      if further.isEmpty ∨ cursor.peek? = some '#' ∨ (!inFlow ∧ (cursor.column : Int) < indent) then
        scalar
      else plainFrom inFlow indent fuel further scalar

/-- Reads a plain scalar; outside of flow collections its lines start at the column `indent` or
beyond. -/
def plainScalar (inFlow : Bool) (indent : Int) (cursor : Cursor) : PlainScalar :=
  plainFrom inFlow indent (cursor.rest.length + 1) [] ⟨[], cursor.mark, false, cursor⟩

/-! ## Quoted scalars -/

def escaped? (c : Char) : Option Char :=
  match c with
  | '0' => some '\x00'
  | 'a' => some '\x07'
  | 'b' => some '\x08'
  | 't' => some '\t'
  | '\t' => some '\t'
  | 'n' => some '\n'
  | 'v' => some '\x0b'
  | 'f' => some '\x0c'
  | 'r' => some '\r'
  | 'e' => some '\x1b'
  | ' ' => some ' '
  | '"' => some '"'
  | '\\' => some '\\'
  | '/' => some '/'
  | 'N' => some '\x85'
  | '_' => some '\u00a0'
  | 'L' => some '\u2028'
  | 'P' => some '\u2029'
  | _ => none

def escapeDigits? (c : Char) : Option Nat :=
  if c = 'x' then some 2 else if c = 'u' then some 4 else if c = 'U' then some 8 else none

def isHexDigit (c : Char) : Bool :=
  (Text.digitValue? 16 c).isSome

/-- The line breaks inside a quoted scalar; blanks around them do not count. -/
def quotedBreaks (start : Mark) : Nat → Cursor → Except Error (Text × Cursor)
  | 0, cursor => .ok ([], cursor)
  | fuel + 1, cursor =>
    if cursor.atDocumentMark then
      .error (.within .quotedScalar start .documentInQuote cursor.mark)
    else
      let inside := cursor.skipWhile fun c => c == ' ' || c == '\t'
      match inside.lineBreak? with
      | some (c, cursor) => do
        let (breaks, cursor) ← quotedBreaks start fuel cursor
        return (c :: breaks, cursor)
      | none => .ok ([], inside)

inductive QuotedFault where
  | error (error : Error)
  | badCode (code : Nat)
deriving DecidableEq, Repr

/-- The character that a code stands for. A text has no place for a surrogate on its own, so the
replacement character holds it. -/
def characterOf (code : Nat) : Char :=
  if code.isValidChar then Char.ofNat code else '\uFFFD'

/-- The character of an escape whose backslash comes before the cursor, with line breaks instead of
it if the escape joins lines. -/
def quotedEscape (start : Mark) (cursor : Cursor) : Except QuotedFault (Text × Cursor) :=
  let fail (fault : Fault) : Except QuotedFault (Text × Cursor) :=
    .error (.error (.within .escapedScalar start fault cursor.mark))
  match cursor.rest with
  | [] => fail (.unknownEscape none)
  | c :: rest =>
    match escaped? c, escapeDigits? c with
    | some form, _ => .ok ([form], cursor.skip 1)
    | none, some count =>
      let digits := (rest.take count).takeWhile isHexDigit
      if digits.length < count then
        .error (.error (.within .escapedScalar start
          (.noHexDigits count (rest[digits.length]?)) (cursor.skip 1).mark))
      else
        let code := Text.toNat 16 digits
        if 0x10FFFF < code then .error (.badCode code)
        else .ok ([characterOf code], cursor.skip (count + 1))
    | none, none =>
      if isBreak c then
        let cursor := cursor.skipBreak
        (quotedBreaks start (cursor.rest.length + 1) cursor).mapError .error
      else fail (.unknownEscape (some c))

def quotedPiece (quote : Char) (start : Mark) :
    Nat → Cursor → Except QuotedFault (Text × Cursor)
  | 0, cursor => .ok ([], cursor)
  | fuel + 1, cursor =>
    match cursor.rest with
    | [] => .ok ([], cursor)
    | c :: rest => do
      if c = ' ' ∨ c = '\t' ∨ isBreak c then return ([], cursor)
      else if c = quote then
        if quote = '\'' ∧ rest.head? = some '\'' then
          let (piece, cursor) ← quotedPiece quote start fuel (cursor.skip 2)
          return ('\'' :: piece, cursor)
        else return ([], cursor)
      else if c = '\\' ∧ quote = '"' then
        let (form, cursor) ← quotedEscape start (cursor.skip 1)
        let (piece, cursor) ← quotedPiece quote start fuel cursor
        return (form ++ piece, cursor)
      else
        let (piece, cursor) ← quotedPiece quote start fuel (cursor.skip 1)
        return (c :: piece, cursor)

def quotedSpaces (start : Mark) (cursor : Cursor) : Except Error (Text × Cursor) :=
  let (spaces, cursor) := cursor.takeWhile fun c => c == ' ' || c == '\t'
  match cursor.rest with
  | [] => .error (.within .quotedScalar start .unfinishedQuote cursor.mark)
  | _ =>
    match cursor.lineBreak? with
    | none => .ok (spaces, cursor)
    | some (c, cursor) => do
      let (breaks, cursor) ← quotedBreaks start (cursor.rest.length + 1) cursor
      return (foldBreaks c breaks, cursor)

def quotedFrom (quote : Char) (start : Mark) :
    Nat → Cursor → Except QuotedFault (Text × Cursor)
  | 0, cursor => .ok ([], cursor)
  | fuel + 1, cursor => do
    let (piece, cursor) ← quotedPiece quote start (cursor.rest.length + 1) cursor
    if cursor.peek? = some quote then return (piece, cursor.skip 1)
    else
      let (spaces, cursor) ← (quotedSpaces start cursor).mapError .error
      let (further, cursor) ← quotedFrom quote start fuel cursor
      return (piece ++ spaces ++ further, cursor)

def quotedScalar (quote : Char) (cursor : Cursor) : Except QuotedFault (Text × Cursor) :=
  quotedFrom quote cursor.mark (cursor.rest.length + 1) (cursor.skip 1)

/-! ## Blocks -/

/-- What happens to the line breaks at the end of a block: one is kept, none, or all. -/
inductive Chomping where
  | clip
  | strip
  | keep
deriving DecidableEq, Repr

/-- The header of a block: what happens at its end, and by how many columns it is indented. -/
structure BlockHeader where
  chomping : Chomping
  increment : Option Nat

def chomping? : Option Char → Option Chomping
  | some '+' => some .keep
  | some '-' => some .strip
  | _ => none

def increment? (start : Mark) (cursor : Cursor) : Except Error (Option Nat × Cursor) :=
  match cursor.peek? with
  | some c =>
    if c = '0' then .error (.within .blockScalar start .noIndentDigit cursor.mark)
    else if c.isDigit then .ok (some (c.toNat - 48), cursor.skip 1)
    else .ok (none, cursor)
  | none => .ok (none, cursor)

def blockSigns (start : Mark) (cursor : Cursor) : Except Error (BlockHeader × Cursor) :=
  match chomping? cursor.peek? with
  | some chomping => do
    let (increment, cursor) ← increment? start (cursor.skip 1)
    return (⟨chomping, increment⟩, cursor)
  | none => do
    let (increment, cursor) ← increment? start cursor
    match increment, chomping? cursor.peek? with
    | some count, some chomping => return (⟨chomping, some count⟩, cursor.skip 1)
    | increment, _ => return (⟨.clip, increment⟩, cursor)

def skipLineEnd (context : Context) (start : Mark) (cursor : Cursor) : Except Error Cursor :=
  let cursor := cursor.skipSpaces.skipComment
  if atBreak cursor.rest then .ok cursor.skipBreak
  else .error (.within context start (.noLineEnd cursor.peek?) cursor.mark)

/-- The line breaks before the first line of a block, and the column of the deepest space among
them. -/
def blockIndent : Nat → Nat → Cursor → Text × Nat × Cursor
  | 0, deepest, cursor => ([], deepest, cursor)
  | fuel + 1, deepest, cursor =>
    if cursor.peek? = some ' ' then
      let cursor := cursor.skipSpaces
      blockIndent fuel (max deepest cursor.column) cursor
    else
      match cursor.lineBreak? with
      | some (c, cursor) =>
        let (breaks, deepest, cursor) := blockIndent fuel deepest cursor
        (c :: breaks, deepest, cursor)
      | none => ([], deepest, cursor)

def blockBreaks (indent : Nat) : Nat → Cursor → Text × Cursor
  | 0, cursor => ([], cursor)
  | fuel + 1, cursor =>
    let inside := cursor.skipIndent indent
    match inside.lineBreak? with
    | some (c, cursor) =>
      let (breaks, cursor) := blockBreaks indent fuel cursor
      (c :: breaks, cursor)
    | none => ([], inside)

def atBlockLine (indent : Nat) (cursor : Cursor) : Bool :=
  cursor.column == indent && !cursor.rest.isEmpty

def atIndentBlank (cursor : Cursor) : Bool :=
  cursor.peek? == some ' ' || cursor.peek? == some '\t'

/-- The end of a block: the line break after its last line, the breaks after that one, and the
cursor behind them. -/
structure BlockEnd where
  text : Text
  last : Text
  breaks : Text
  cursor : Cursor

/-- Reads the lines of a block after `breaks`. In a folded block the line breaks between two lines
that do not start with blanks are folded. -/
def blockLines (folded : Bool) (indent : Nat) : Nat → Text → Text → Cursor → BlockEnd
  | 0, last, breaks, cursor => ⟨[], last, breaks, cursor⟩
  | fuel + 1, last, breaks, cursor =>
    if atBlockLine indent cursor then
      let (line, behind) := cursor.takeWhile fun c => !isBreak c
      let (last, next) := match behind.lineBreak? with
        | some (c, next) => ([c], next)
        | none => ([], behind)
      let (further, next) := blockBreaks indent (next.rest.length + 1) next
      let joint :=
        if !atBlockLine indent next then []
        else if folded && last == ['\n'] && !atIndentBlank cursor && !atIndentBlank next then
          if further.isEmpty then [' '] else []
        else last
      let stop := blockLines folded indent fuel last further next
      { stop with text := breaks ++ line ++ joint ++ stop.text }
    else ⟨[], last, breaks, cursor⟩

/-- Reads a block whose mark comes next, inside a construct at column `outer`. -/
def blockScalar (folded : Bool) (outer : Int) (cursor : Cursor) : Except Error (Text × Cursor) := do
  let start := cursor.mark
  let (header, cursor) ← blockSigns start (cursor.skip 1)
  if !atSpace cursor.rest then
    .error (.within .blockScalar start (.noBlockIndicator cursor.peek?) cursor.mark)
  let cursor ← skipLineEnd .blockScalar start cursor
  let least := max 1 (outer + 1).toNat
  let fuel := cursor.rest.length + 1
  let (indent, breaks, cursor) := match header.increment with
    | none =>
      let (breaks, deepest, cursor) := blockIndent fuel 0 cursor
      (max least deepest, breaks, cursor)
    | some count =>
      let (breaks, cursor) := blockBreaks (least + count - 1) fuel cursor
      (least + count - 1, breaks, cursor)
  let stop := blockLines folded indent fuel [] breaks cursor
  let tail := match header.chomping with
    | .clip => stop.last
    | .strip => []
    | .keep => stop.last ++ stop.breaks
  return (stop.text ++ tail, stop.cursor)

end MdxCheck.Yaml
