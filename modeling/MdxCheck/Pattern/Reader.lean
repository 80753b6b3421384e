import MdxCheck.Pattern.Basic
import MdxCheck.Pattern.Fault
import MdxCheck.Text.Identifier

/-!
The state of reading a pattern, and the small steps of it.

The text is read by tokens: a character, or a backslash with the character behind it. A backslash at
the very end is a fault as soon as the token before it is taken.
-/

namespace MdxCheck.Pattern

structure Flags where
  ascii : Bool := false
  ignoresCase : Bool := false
  multiline : Bool := false
  dotAll : Bool := false
  spaced : Bool := false
deriving DecidableEq, Repr

def Flags.letterCase (flags : Flags) : Text.LetterCase :=
  if !flags.ignoresCase then .told else if flags.ascii then .ascii else .ignored

/-- The characters that have names, by these. -/
abbrev Naming := Text → Option Char

def Naming.none : Naming := fun _ => .none

/-- The names in a table. A line of it has the code of a character in base 16, a semicolon, and the name
up to the next one. A name may be given in small letters. -/
def Naming.ofLines (lines : List Text) : Naming := fun name =>
  lines.findSome? fun line =>
    match Text.splitOn (· == ';') line with
    | code :: own :: _ =>
      if own = name.map Char.toUpper then some (Char.ofNat (Text.toNat 16 code)) else .none
    | _ => .none

/-- What is left of the text of a pattern, and what is known of its groups; `everywhere` holds the
letters of the flags that are on in all of it. -/
structure Reader where
  rest : Text
  naming : Naming
  position : Nat := 0
  flags : Flags := {}
  everywhere : Text := []
  opened : Nat := 0
  closed : List (Nat × Width) := []
  names : List (Text × Nat) := []
  behind : Option Nat := none
  conditions : List (Nat × Nat) := []

abbrev Read := StateT Reader (Except Failure)

namespace Reader

/-- The next token; it is empty at the end. -/
def next (reader : Reader) : Text :=
  match reader.rest with
  | '\\' :: c :: _ => ['\\', c]
  | c :: _ => [c]
  | [] => []

def checked (reader : Reader) : Except Failure Reader :=
  if reader.rest = ['\\'] then .error (.fault .endEscape (some reader.position))
  else .ok reader

def skip (reader : Reader) : Except Failure Reader :=
  let token := reader.next
  { reader with
    rest := reader.rest.drop token.length
    position := reader.position + token.length }.checked

def isClosed (reader : Reader) (number : Nat) : Bool :=
  (reader.closed.lookup number).isSome

end Reader

namespace Read

def failAt {α : Type} (fault : Fault) (position : Nat) : Read α :=
  throw (.fault fault (some position))

def fail {α : Type} (fault : Fault) (back : Nat := 0) : Read α := do
  failAt fault ((← get).position - back)

def place : Read Nat :=
  return (← get).position

def peek : Read Text :=
  return (← get).next

/-- Takes the next token; it is empty at the end. -/
def take : Read Text := do
  let reader ← get
  set (← reader.skip)
  return reader.next

def takeIf (c : Char) : Read Bool := do
  if (← peek) = [c] then
    let _ ← take
    return true
  else return false

/-- Takes at most `count` tokens that are characters of some kind. -/
def takeUpTo (accept : Char → Bool) : Nat → Read Text
  | 0 => return []
  | count + 1 => do
    match ← peek with
    | [c] =>
      if accept c then
        let _ ← take
        return c :: (← takeUpTo accept count)
      else return []
    | _ => return []

/-- Takes the tokens up to a closing mark, at most `count`, and the mark; `what` they are. -/
def takeUntil (mark : Char) (what : Text) : Nat → Text → Read Text
  | 0, found => return found
  | count + 1, found => do
    let token ← take
    if token.isEmpty then
      if found.isEmpty then fail (.missing what) else fail (.missingEnd mark) found.length
    else if token = [mark] then
      if found.isEmpty then fail (.missing what) 1 else return found
    else takeUntil mark what count (found ++ token)

def takeName (mark : Char) (what : Text) : Read Text := do
  takeUntil mark what ((← get).rest.length + 1) []

def takeGroupName (mark : Char) : Read Text := do
  let name ← takeName mark "group name"
  if Text.isIdentifier name then return name else fail (.badName name) (name.length + 1)

def checkLookBehind (number : Nat) : Read Unit := do
  let reader ← get
  match reader.behind with
  | none => return
  | some limit =>
    if !reader.isClosed number then fail .openGroup
    else if limit < number then fail .groupInLookBehind

/-- The reference to a group; a fault is so many characters back. -/
def referTo (number back : Nat) (flags : Flags) : Read Pattern := do
  if (← get).isClosed number then
    checkLookBehind number
    return .reference number flags.letterCase
  else fail .openGroup back

end Read

end MdxCheck.Pattern
