import MdxCheck.Text.Basic

/-!
Places in a YAML text: how they move over its characters, and how they are shown.
-/

namespace MdxCheck.Yaml

/-- A place in a text: its offset, line and column, all from zero. -/
structure Mark where
  index : Nat
  line : Nat
  column : Nat
deriving DecidableEq, Repr, Inhabited

def isBreak (c : Char) : Bool :=
  c == '\n' || c == '\r' || c == '\x85' || c == '\u2028' || c == '\u2029'

def atBreak : Text → Bool
  | [] => true
  | c :: _ => isBreak c

def atSpace : Text → Bool
  | ' ' :: _ => true
  | text => atBreak text

def atBlank : Text → Bool
  | '\t' :: _ => true
  | text => atSpace text

structure Cursor where
  rest : Text
  mark : Mark
deriving Repr, Inhabited

namespace Cursor

def start (text : Text) : Cursor := ⟨text, ⟨0, 0, 0⟩⟩

/-- The next character; there is none at the end. -/
def peek? (cursor : Cursor) : Option Char :=
  cursor.rest.head?

def column (cursor : Cursor) : Nat :=
  cursor.mark.column

/-- The place behind a character that is followed by `rest`. A carriage return before a line feed
ends no line by itself, and a byte order mark takes no column. -/
def behind (mark : Mark) (c : Char) (rest : Text) : Mark :=
  if isBreak c && !(c == '\r' && rest.head? == some '\n') then ⟨mark.index + 1, mark.line + 1, 0⟩
  else ⟨mark.index + 1, mark.line, if c = '\uFEFF' then mark.column else mark.column + 1⟩

/-- The cursor behind `count` more characters. -/
def skip : Nat → Cursor → Cursor
  | 0, cursor => cursor
  | _ + 1, ⟨[], mark⟩ => ⟨[], mark⟩
  | count + 1, ⟨c :: rest, mark⟩ => skip count ⟨rest, behind mark c rest⟩

/-- The characters up to the first that does not satisfy `accept`, and the cursor there. -/
def takeWhile (accept : Char → Bool) (cursor : Cursor) : Text × Cursor :=
  let taken := cursor.rest.takeWhile accept
  (taken, skip taken.length cursor)

/-- The cursor at the first character that does not satisfy `accept`. -/
def skipWhile (accept : Char → Bool) (cursor : Cursor) : Cursor :=
  (cursor.takeWhile accept).2

def skipSpaces (cursor : Cursor) : Cursor :=
  cursor.skipWhile (· == ' ')

def skipIndent (indent : Nat) (cursor : Cursor) : Cursor :=
  skip (min (indent - cursor.column) (cursor.rest.takeWhile (· == ' ')).length) cursor

def skipComment (cursor : Cursor) : Cursor :=
  if cursor.peek? = some '#' then cursor.skipWhile fun c => !isBreak c else cursor

/-- What the line break that comes next stands for, and the cursor behind it: a line feed, or the
line or paragraph separator itself. -/
def lineBreak? (cursor : Cursor) : Option (Char × Cursor) :=
  match cursor.rest with
  | '\r' :: '\n' :: _ => some ('\n', cursor.skip 2)
  | c :: _ =>
    if c = '\u2028' ∨ c = '\u2029' then some (c, cursor.skip 1)
    else if isBreak c then some ('\n', cursor.skip 1)
    else none
  | [] => none

def skipBreak (cursor : Cursor) : Cursor :=
  match cursor.lineBreak? with
  | some (_, cursor) => cursor
  | none => cursor

/-- Whether three hyphens or three periods come next, and then a blank or the end of a line. -/
def atDocumentMark (cursor : Cursor) : Bool :=
  match cursor.rest with
  | '-' :: '-' :: '-' :: rest => atBlank rest
  | '.' :: '.' :: '.' :: rest => atBlank rest
  | _ => false

end Cursor

/-- The characters on one side of a place that a snippet shows, up to the end of the line. If the
line goes on beyond 36 characters, fewer are shown, and the result says so. -/
def snippetSide (text : Text) : Text × Bool :=
  let shown := text.takeWhile fun c => !isBreak c
  if 37 ≤ shown.length then (shown.take 32, true) else (shown, false)

def snippet (source : Text) (mark : Mark) : Text :=
  let (before, cutBefore) := snippetSide (source.take mark.index).reverse
  let (after, cutAfter) := snippetSide (source.drop mark.index)
  let gap : Text := " ... "
  let head := (if cutBefore then gap else []) ++ before.reverse
  List.replicate 4 ' ' ++ head ++ after ++ (if cutAfter then gap else []) ++ ['\n'] ++
    List.replicate (4 + head.length) ' ' ++ ['^']

def Mark.describe (source : Text) (mark : Mark) : Text :=
  "  in \"<unicode string>\", line " ++ Text.decimal (mark.line + 1) ++ ", column " ++
    Text.decimal (mark.column + 1) ++ ":\n" ++ snippet source mark

end MdxCheck.Yaml
