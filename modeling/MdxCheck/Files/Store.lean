import MdxCheck.Files.Path
import MdxCheck.Text.Quoted
import MdxCheck.Text.Utf8

/-!
A tree of files and directories with a working directory in it, and what its files hold.

A path leads to an entry name by name, from the root if it starts with a slash and else from the working
directory. Two periods lead back to the directory above, and at the root nowhere else.
-/

namespace MdxCheck

namespace Files

inductive Entry where
  | file (bytes : List Nat)
  | directory
deriving DecidableEq, Repr

inductive Fault where
  | missing
  | notDirectory
  | isDirectory
  | zeroCharacter
deriving DecidableEq, Repr

structure Error where
  fault : Fault
  path : Path
deriving DecidableEq, Repr

def Fault.message (path : Text) : Fault → Text
  | missing => "[Errno 2] No such file or directory: " ++ Text.quoted path
  | notDirectory => "[Errno 20] Not a directory: " ++ Text.quoted path
  | isDirectory => "[Errno 21] Is a directory: " ++ Text.quoted path
  | zeroCharacter => "embedded null byte"

def Error.message (error : Error) : Text :=
  error.fault.message error.path.toText

end Files

/-- A tree: the names that lead from its root to the working directory, and the entries below the root,
each by the names that lead to it. -/
structure Files where
  home : List Text
  entries : List (List Text × Files.Entry)
deriving Inhabited

namespace Files

/-- The entry behind some names; without names it is the root. -/
def entry? (files : Files) (names : List Text) : Option Entry :=
  if names.isEmpty then some .directory else files.entries.lookup names

/-- The names that lead from the root to where further names lead from `here`. -/
def resolveFrom (files : Files) (here : List Text) : List Text → Except Fault (List Text)
  | [] => .ok here
  | name :: names =>
    match files.entry? here with
    | none => .error .missing
    | some (.file _) => .error .notDirectory
    | some .directory =>
      if name = ['.', '.'] then resolveFrom files here.dropLast names
      else resolveFrom files (here ++ [name]) names

/-- The names that lead from the root to where a path starts. -/
def startOf (files : Files) (path : Path) : List Text :=
  if path.slashes = 0 then files.home else []

/-- The names that lead from the root to where a path leads, and the entry there. -/
def resolve (files : Files) (path : Path) : Except Fault (List Text × Entry) := do
  if path.names.any fun name => name.any (· == '\x00') then throw .zeroCharacter
  let names ← files.resolveFrom (files.startOf path) path.names
  match files.entry? names with
  | some entry => return (names, entry)
  | none => throw .missing

def isFile (files : Files) (path : Path) : Bool :=
  match files.resolve path with
  | .ok (_, .file _) => true
  | _ => false

def isDirectory (files : Files) (path : Path) : Bool :=
  match files.resolve path with
  | .ok (_, .directory) => true
  | _ => false

def read (files : Files) (path : Path) : Except Error (List Nat) :=
  match files.resolve path with
  | .ok (_, .file bytes) => .ok bytes
  | .ok (_, .directory) => .error ⟨.isDirectory, path⟩
  | .error fault => .error ⟨fault, path⟩

def plainBreaks : Text → Text
  | [] => []
  | '\r' :: '\n' :: rest => '\n' :: plainBreaks rest
  | c :: rest => (if c = '\r' then '\n' else c) :: plainBreaks rest

/-- The text of the file that a path leads to; what is no UTF-8 is replaced. -/
def readText (files : Files) (path : Path) : Except Error Text := do
  return plainBreaks (Text.repairUtf8 (← files.read path))

def namesBelow (files : Files) (directory : List Text) : List (List Text) :=
  files.entries.filterMap fun
    | (names, .file _) =>
      if directory.isPrefixOf names then some (names.drop directory.length) else none
    | _ => none

/-- The paths of all files below the directory that a path leads to, as seen from this path. -/
def filesBelow (files : Files) (path : Path) : List (List Text) :=
  match files.resolve path with
  | .ok (names, .directory) => files.namesBelow names
  | _ => []

def put (files : Files) (names : List Text) (entry : Entry) : Files :=
  { files with
    entries := files.entries.filter (fun (other, _) => other != names) ++ [(names, entry)] }

def withDirectories (files : Files) (names : List Text) : Files :=
  (List.range names.length).foldl (fun files count =>
    let names := names.take (count + 1)
    if (files.entry? names).isSome then files else files.put names .directory) files

/-- A tree with nothing in it but a working directory and those above it. -/
def inDirectory (home : List Text) : Files :=
  { Files.withDirectories ⟨[], []⟩ home with home := home }

def empty : Files := inDirectory ["work"]

/-- The names that lead from the root to where a path leads that nowhere leads back up. -/
def placeOf (files : Files) (path : Path) : List Text :=
  files.startOf path ++ path.names

def makeDirectory (files : Files) (path : Path) : Files :=
  files.withDirectories (files.placeOf path)

def write (files : Files) (path : Path) (bytes : List Nat) : Files :=
  (files.withDirectories (files.placeOf path.parent)).put (files.placeOf path) (.file bytes)

def delete (files : Files) (path : Path) : Files :=
  { files with entries := files.entries.filter fun (names, _) => names != files.placeOf path }

end Files

end MdxCheck
