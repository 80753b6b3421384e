import MdxCheck.Text.Basic

/-!
Paths of files: the names on the way to a file, without those that say nothing.
-/

namespace MdxCheck

/-- A path: the slashes that it starts with, and its names. -/
structure Path where
  slashes : Nat
  names : List Text
deriving DecidableEq, Repr, Inhabited

namespace Path

def isIdle (name : Text) : Bool :=
  name.isEmpty || name == ['.']

/-- The path that a text spells. Of the slashes at the start two are kept if they are exactly two,
and else one. -/
def ofText (text : Text) : Path :=
  let count := (text.takeWhile (· == '/')).length
  { slashes := if count = 2 then 2 else min count 1
    names := (Text.splitOn (· == '/') text).filter (!isIdle ·) }

/-- The path as text; a single period if it has no names. -/
def toText (path : Path) : Text :=
  let text := List.replicate path.slashes '/' ++ Text.join ['/'] path.names
  if text.isEmpty then ['.'] else text

def parent (path : Path) : Path :=
  { path with names := path.names.dropLast }

/-- A path as seen from another; one that starts with a slash stays as it is. -/
def append (path further : Path) : Path :=
  if further.slashes = 0 then { path with names := path.names ++ further.names } else further

def name (path : Path) : Text :=
  path.names.getLast?.getD []

/-- The last period of a name and what follows it. A period at the start or at the end of a name
does not count. -/
def suffixOf (name : Text) : Text :=
  let stop := (name.reverse.takeWhile (· != '.')).reverse
  let start := name.length - stop.length
  if 1 < start ∧ !stop.isEmpty then '.' :: stop else []

def suffix (path : Path) : Text :=
  suffixOf path.name

/-- The names of a path, and before them the slashes that it starts with if there are any. -/
def parts (path : Path) : List Text :=
  if path.slashes = 0 then path.names else List.replicate path.slashes '/' :: path.names

def before (path other : Path) : Bool :=
  Text.rowBefore path.parts other.parts

end Path

end MdxCheck
