import MdxCheck.Config.Basic
import MdxCheck.Files.Store

/-!
Which documents lie under some paths.

A path to a file is a document whatever its name. Below a directory, documents are the files with one
of the suffixes of documents, unless a directory on the way down from there is left out.
-/

namespace MdxCheck.Verification

def isDocument (config : Config) (names : List Text) : Bool :=
  config.extensions.contains (Path.suffixOf (names.getLast?.getD [])) &&
    !names.dropLast.any config.exclusions.contains

def documentsUnder (files : Files) (config : Config) (path : Path) : List Path :=
  if files.isFile path then [path]
  else ((files.filesBelow path).filter (isDocument config)).map fun names =>
    { path with names := path.names ++ names }

def leadsNowhere (files : Files) (path : Path) : Bool :=
  !(files.isFile path || files.isDirectory path)

def insertPath (path : Path) : List Path → List Path
  | [] => [path]
  | other :: paths =>
    if path = other then other :: paths
    else if path.before other then path :: other :: paths
    else other :: insertPath path paths

/-- The documents under some paths, in order and each of them once. -/
def discover (files : Files) (config : Config) (paths : List Path) : List Path :=
  (paths.flatMap (documentsUnder files config)).foldl (fun found path => insertPath path found) []

end MdxCheck.Verification
