import MdxCheck.Pattern.Basic

/-!
Where patterns match: the places that a match from some place can reach.

All of them are found at once, so no choice is ever taken back. A place is reached once for each
memory of groups, and only groups that the pattern refers to are remembered.
-/

namespace MdxCheck.Pattern

/-- A place in a text: how many characters come before it, these with the last one first, and what
comes after it. -/
structure Place where
  offset : Nat
  before : Text
  after : Text
deriving DecidableEq, Repr

/-- A place that a match has reached, and what its groups have matched. -/
structure Reach where
  place : Place
  groups : List (Nat × Text) := []
deriving DecidableEq, Repr

namespace Place

def next? : Place → Option (Char × Place)
  | ⟨_, _, []⟩ => none
  | ⟨offset, before, c :: after⟩ => some (c, ⟨offset + 1, c :: before, after⟩)

/-- The places behind some characters of a text and further on, given these characters, the last one
first, and the rest of the text. -/
def onward (offset : Nat) (before : Text) : Text → List Place
  | [] => [⟨offset, before, []⟩]
  | c :: after => ⟨offset, before, c :: after⟩ :: onward (offset + 1) (c :: before) after

def backward (after : Text) : Text → List Place
  | [] => [⟨0, [], after⟩]
  | c :: before => ⟨before.length + 1, c :: before, after⟩ :: backward (c :: after) before

def isWordEdge (ascii : Bool) (place : Place) : Bool :=
  let isWord (c : Option Char) : Bool := c.any (Kind.word.holds ascii)
  isWord place.before.head? != isWord place.after.head?

/-- Whether a place fulfils a condition; the empty text has no places inside or outside of words. -/
def fulfils (place : Place) : Edge → Bool
  | .textStart => place.before.isEmpty
  | .lineStart => place.before.isEmpty || place.before.head? == some '\n'
  | .textStop => place.after.isEmpty
  | .lastLineStop => place.after.isEmpty || place.after == ['\n']
  | .lineStop => place.after.isEmpty || place.after.head? == some '\n'
  | .word ascii negated =>
    !(place.before.isEmpty && place.after.isEmpty) && place.isWordEdge ascii != negated

def skipText? (letterCase : Text.LetterCase) : Text → Place → Option Place
  | [], place => some place
  | c :: text, place =>
    match place.next? with
    | none => none
    | some (d, place) =>
      if letterCase.lower c.toNat = letterCase.lower d.toNat then skipText? letterCase text place
      else none

end Place

namespace Reach

def isBehind (reach other : Reach) : Bool :=
  other.place.offset < reach.place.offset

/-- The reach with the text from `start` on as the match of a group. -/
def remember (number : Nat) (start : Place) (reach : Reach) : Reach :=
  let matched := start.after.take (reach.place.offset - start.offset)
  let others := reach.groups.filter fun (other, _) => other != number
  { reach with groups := (number, matched) :: others }

/-- Whether two reaches are one: no more can be said of one than of the other. -/
def isSame (reach other : Reach) : Bool :=
  reach.place.offset == other.place.offset && reach.groups == other.groups

def distinct (reaches : List Reach) : List Reach :=
  reaches.foldl (fun found reach =>
    if found.any reach.isSame then found else found ++ [reach]) []

def stepAll (step : Reach → List Reach) (reaches : List Reach) : List Reach :=
  distinct (reaches.flatMap step)

def after (step : Reach → List Reach) : Nat → List Reach → List Reach
  | 0, reaches => reaches
  | _, [] => []
  | count + 1, reaches => after step count (stepAll step reaches)

/-- What none, one, and more steps reach, up to so many. A step that stays where it is is the last one;
what it reaches comes behind what it starts from. -/
def levels (step : Reach → List Reach) : Nat → List Reach → List (List Reach)
  | _, [] => []
  | 0, reaches => [reaches]
  | count + 1, reaches =>
    let forward (reach : Reach) : List Reach := (step reach).filter (·.isBehind reach)
    let still (reach : Reach) : List Reach := (step reach).filter (!·.isBehind reach)
    reaches :: stepAll still reaches :: levels step count (stepAll forward reaches)

def repeated (step : Reach → List Reach) (least : Nat) (most : Option Nat) (greed : Greed)
    (start : Reach) : List Reach :=
  let room := start.place.after.length
  let further := (most.map fun most => min (most - least) room).getD room
  let found := levels step further (after step least [start])
  match greed with
  | .least => distinct found.flatten
  | .most => distinct found.reverse.flatten
  | .possessive => (distinct found.reverse.flatten).take 1

end Reach

/-- The places that a match from a place reaches, the preferred first; of the groups, the match
remembers those that `keeps` names. -/
def reaches (keeps : Nat → Bool) : Pattern → Reach → List Reach
  | empty, start => [start]
  | one letters, start =>
    match start.place.next? with
    | some (c, place) => if letters.accepts c then [{ start with place := place }] else []
    | none => []
  | edge condition, start => if start.place.fulfils condition then [start] else []
  | sequence first second, start =>
    Reach.stepAll (second.reaches keeps) (first.reaches keeps start)
  | either first second, start =>
    Reach.distinct (first.reaches keeps start ++ second.reaches keeps start)
  | repeated least most greed body, start =>
    Reach.repeated (body.reaches keeps) least most greed start
  | group number body, start =>
    let found := body.reaches keeps start
    if keeps number then Reach.distinct (found.map (·.remember number start.place)) else found
  | enclosed body, start => body.reaches keeps start
  | atomic body, start => (body.reaches keeps start).take 1
  | reference number letterCase, start =>
    match start.groups.lookup number with
    | none => []
    | some text =>
      match start.place.skipText? letterCase text with
      | some place => [{ start with place := place }]
      | none => []
  | ahead negated body, start =>
    match body.reaches keeps start with
    | [] => if negated then [start] else []
    | found :: _ => if negated then [] else [{ found with place := start.place }]
  | behind negated body, start =>
    let ends := (Place.backward start.place.after start.place.before).flatMap fun place =>
      (body.reaches keeps { start with place := place }).filter fun reach =>
        reach.place.offset == start.place.offset
    match ends with
    | [] => if negated then [start] else []
    | found :: _ => if negated then [] else [found]
  | ifGroup number yes no, start =>
    if (start.groups.lookup number).isSome then yes.reaches keeps start else no.reaches keeps start

def isFoundIn (pattern : Pattern) (text : Text) : Bool :=
  let keeps (number : Nat) : Bool := pattern.references.contains number
  (Place.onward 0 [] text).any fun place => !(pattern.reaches keeps ⟨place, []⟩).isEmpty

end MdxCheck.Pattern
