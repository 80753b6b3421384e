import MdxCheck.Text.Punctuation

/-!
Emphasis marks. A run of stars or underscores is one delimiter for each character; a delimiter that
can open emphasis is paired with a later one that can close it. Paired delimiters vanish from the
text, the others stay as they are written.
-/

namespace MdxCheck.Markdown

/-- An emphasis mark: its character, the length of its run, whether it may open and whether it may
close emphasis, and whether another mark comes right before it. -/
structure Delimiter where
  mark : Char
  run : Nat
  opens : Bool
  closes : Bool
  adjoins : Bool
deriving DecidableEq, Repr, Inhabited

namespace Delimiter

def isGap (c : Char) : Bool :=
  let n := c.toNat
  (9 ≤ n && n ≤ 13) || n == 0x20 || n == 0xA0 || n == 0x1680 || (0x2000 ≤ n && n ≤ 0x200A) ||
    n == 0x202F || n == 0x205F || n == 0x3000

/-- The delimiters of a run of `length` characters between `before` and `after`. The run opens
emphasis where text follows and closes it where text comes before; an underscore inside a word
does neither. -/
def ofRun (mark : Char) (length : Nat) (before after : Char) : Delimiter :=
  let isPunctuationBefore := Text.isPunctuation before
  let isPunctuationAfter := Text.isPunctuation after
  let left := !(isGap after || (isPunctuationAfter && !(isGap before || isPunctuationBefore)))
  let right := !(isGap before || (isPunctuationBefore && !(isGap after || isPunctuationAfter)))
  { mark := mark
    run := length
    opens := left && (mark == '*' || !right || isPunctuationBefore)
    closes := right && (mark == '*' || !left || isPunctuationAfter)
    adjoins := false }

/-- Whether two delimiters may not be paired although one opens and the other closes: one of their
runs does both, and their lengths add up to a multiple of three without being ones themselves. -/
def conflicts (opener closer : Delimiter) : Bool :=
  (opener.closes || closer.opens) && (opener.run + closer.run) % 3 == 0 &&
    (opener.run % 3 != 0 || closer.run % 3 != 0)

end Delimiter

/-- How far delimiters are paired. `jumps` holds for each delimiter how many before it cannot be
openers, `bottoms` for each sort of closer how many delimiters at the start need no further search,
`head` is the first delimiter of the current run, and `fresh` says that the next one starts a
run. -/
structure Pairing where
  delimiters : Array Delimiter
  paired : Array Bool
  jumps : Array Nat
  bottoms : List ((Char × Nat × Bool) × Nat)
  head : Nat
  fresh : Bool

namespace Pairing

def start (delimiters : List Delimiter) : Pairing :=
  let count := delimiters.length
  ⟨delimiters.toArray, Array.replicate count false, Array.replicate count 0, [], 0, true⟩

def delimiter (pairing : Pairing) (number : Nat) : Delimiter :=
  (pairing.delimiters[number]?).getD default

def isPaired (pairing : Pairing) (number : Nat) : Bool :=
  (pairing.paired[number]?).getD false

/-- How many delimiters before the given one cannot be openers. -/
def jump (pairing : Pairing) (number : Nat) : Nat :=
  (pairing.jumps[number]?).getD 0

/-- The last delimiter before `top`, but not before `bottom`, that the closer can be paired
with. -/
def opener? (pairing : Pairing) (closer : Delimiter) (bottom top : Nat) : Option Nat :=
  if bottom < top then
    let number := top - 1
    let opener := pairing.delimiter number
    if opener.mark = closer.mark ∧ opener.opens ∧ !pairing.isPaired number ∧
        !opener.conflicts closer then
      some number
    else pairing.opener? closer bottom (top - (pairing.jump number + 1))
  else none
termination_by top

def join (pairing : Pairing) (opener closer : Nat) : Pairing :=
  let before :=
    if 0 < opener ∧ !(pairing.delimiter (opener - 1)).opens then pairing.jump (opener - 1) + 1
    else 0
  { pairing with
    delimiters := (pairing.delimiters.modify closer fun delimiter =>
      { delimiter with opens := false }).modify opener fun delimiter =>
        { delimiter with closes := false }
    paired := (pairing.paired.setIfInBounds closer true).setIfInBounds opener true
    jumps := (pairing.jumps.setIfInBounds closer (closer - opener + before)).setIfInBounds opener
      before
    fresh := true }

def step (pairing : Pairing) (number : Nat) : Pairing :=
  let closer := pairing.delimiter number
  let starts := pairing.fresh || !closer.adjoins ||
    (pairing.delimiter pairing.head).mark != closer.mark
  let head := if starts then number else pairing.head
  let pairing := { pairing with head := head, fresh := false }
  if closer.closes then
    let key := (closer.mark, closer.run % 3, closer.opens)
    let top := head - pairing.jump head
    match pairing.opener? closer ((pairing.bottoms.lookup key).getD 0) top with
    | some opener => pairing.join opener number
    | none => if top = 0 then pairing else { pairing with bottoms := (key, top) :: pairing.bottoms }
  else pairing

/-- For each delimiter whether it is paired. -/
def run (delimiters : List Delimiter) : List Bool :=
  ((List.range delimiters.length).foldl step (start delimiters)).paired.toList

end Pairing

end MdxCheck.Markdown
