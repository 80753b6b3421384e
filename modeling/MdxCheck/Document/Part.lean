import MdxCheck.Tag.Scan
import MdxCheck.Text.Lines

/-!
The parts of a document: runs of prose, module statements, and pieces of source that start with a
tag. The lines of a fenced run of code are prose whatever they hold.

Cutting a document into parts needs to know only how many components are open, since module
statements stand outside of components; whether the tags fit together is decided later.
-/

namespace MdxCheck.Document

/-- A part of a document; `first` is the number of its first line. -/
inductive Part where
  | prose (first : Nat) (lines : List Text)
  | statement (line : Nat) (source : Text)
  | tagged (first : Nat) (source : Text) (tags : List Tag)
  | unterminated (first : Nat) (source : Text) (offset : Nat)
deriving DecidableEq, Repr

/-- The run of backticks or tildes that opens fenced code: three or more at the start of a line,
white space apart. -/
def fenceRun? (line : Text) : Option Text :=
  match Text.trim line with
  | [] => none
  | mark :: rest =>
    let run := (mark :: rest).takeWhile (· == mark)
    if (mark = '`' ∨ mark = '~') ∧ 3 ≤ run.length then some run else none

/-- Whether a line closes the fenced code that a run has opened: it holds nothing but as many of
the same characters or more. -/
def closesFence (run line : Text) : Bool :=
  let inside := Text.trim line
  run.length ≤ inside.length && inside.all fun c => run.head? == some c

/-- Whether a line is a module statement: an import or an export at its very start. -/
def isStatement (line : Text) : Bool :=
  (["import", "export"] : List String).any fun word =>
    match Text.dropStart? word.toList line with
    | some (c :: _) => Text.isBlank c
    | _ => false

def startsWithTag (line : Text) : Bool :=
  (Tag.opening? (line.dropWhile Text.isBlank)).isSome

/-- What the lines read so far leave open: nothing, fenced code, or a tag that has not ended in the
source from line `first` on. -/
inductive Mode where
  | plain
  | fenced (run : Text)
  | tagged (first : Nat) (source : Text)
deriving DecidableEq, Repr

def depthAfter (depth : Nat) (tags : List Tag) : Nat :=
  tags.foldl (fun depth tag =>
    if tag.closing then depth - 1 else if tag.selfClosing then depth else depth + 1) depth

/-- The run of prose that the lines before line `number` are, the last of them first. -/
def proseBefore (number : Nat) (lines : List Text) : List Part :=
  if lines.isEmpty then [] else [.prose (number - lines.length) lines.reverse]

/-- The parts of a document from line `number` on. So many components are open, and the lines of
`prose`, the last of them first, are not yet part of any part. -/
def partsFrom (mode : Mode) (depth number : Nat) (prose : List Text) : List Text → List Part
  | [] =>
    proseBefore number prose ++
      match mode with
      | .tagged first source =>
        [.unterminated first source ((Tag.scan source).unterminated.getD 0)]
      | _ => []
  | line :: lines =>
    match mode with
    | .plain =>
      match fenceRun? line with
      | some run => partsFrom (.fenced run) depth (number + 1) (line :: prose) lines
      | none =>
        if depth = 0 ∧ isStatement line then
          proseBefore number prose ++
            .statement number line :: partsFrom .plain depth (number + 1) [] lines
        else if startsWithTag line then
          proseBefore number prose ++
            match Tag.scan line with
            | ⟨tags, none⟩ =>
              .tagged number line tags ::
                partsFrom .plain (depthAfter depth tags) (number + 1) [] lines
            | ⟨_, some _⟩ => partsFrom (.tagged number line) depth (number + 1) [] lines
        else partsFrom .plain depth (number + 1) (line :: prose) lines
    | .fenced run =>
      let mode := if closesFence run line then .plain else .fenced run
      partsFrom mode depth (number + 1) (line :: prose) lines
    | .tagged first source =>
      let source := source ++ '\n' :: line
      match Tag.scan source with
      | ⟨tags, none⟩ =>
        .tagged first source tags ::
          partsFrom .plain (depthAfter depth tags) (number + 1) [] lines
      | ⟨_, some _⟩ => partsFrom (.tagged first source) depth (number + 1) [] lines

def isBoundary (line : Text) : Bool :=
  Text.trim line == ['-', '-', '-']

/-- The lines of the block of data at the start of a document and the lines after it, if there is
such a block. -/
def splitData? : List Text → Option (List Text × List Text)
  | [] => none
  | line :: lines =>
    if isBoundary line then
      let inside := lines.takeWhile fun line => !isBoundary line
      match lines.drop inside.length with
      | _ :: rest => some (inside, rest)
      | [] => none
    else none

end MdxCheck.Document
