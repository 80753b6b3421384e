import MdxCheck.Config.Basic
import MdxCheck.Files.Store
import MdxCheck.Yaml.Load

/-!
From a file to the configuration in it.
-/

namespace MdxCheck.Config

def defaultPath : Path := .ofText ".verify-mdx.yml"

inductive LoadFault where
  | notFound (path : Path)
  | notYaml (path : Path) (report : Text)
  | notMapping (path : Path)
  | invalid (fault : Fault)

def LoadFault.message : LoadFault → Text
  | notFound path => "Configuration file not found: " ++ path.toText
  | notYaml path report => "Failed to parse YAML in " ++ path.toText ++ ": " ++ report
  | notMapping path => "Configuration in " ++ path.toText ++ " must be a mapping"
  | invalid fault => fault.message

/-- Why the reading of a configuration ends: a fault of the file, or something that is not foreseen,
which are bytes that are no UTF-8, scalars without a value, values that are too long to be written, and
failures of a pattern that are no faults of it. -/
inductive LoadFailure where
  | fault (fault : LoadFault)
  | notText (error : Text.Utf8Error)
  | value (fault : Yaml.ValueFault)
  | misuse (fault : Yaml.Misuse)
  | tooLong (fault : Value.TooLong)
  | hugeCount {failure : Pattern.Failure}

def ofYamlFailure (path : Path) (source : Text) : Yaml.Failure → LoadFailure
  | .error error => .fault (.notYaml path (error.describe source))
  | .character code position => .fault (.notYaml path (Yaml.badCharacter code position))
  | .value fault => .value fault
  | .misuse fault => .misuse fault

def mappingIn (files : Files) (path : Path) : Except LoadFailure (List (Value × Value)) :=
  match files.read path with
  | .error _ => .error (.fault (.notFound path))
  | .ok bytes => do
    let source ← (Text.decodeUtf8 bytes).mapError .notText
    let source := Files.plainBreaks source
    match ← (Yaml.load source).mapError (ofYamlFailure path source) with
    | .map entries => return entries
    | _ => throw (.fault (.notMapping path))

def ofMapping (entries : List (Value × Value)) (naming : Pattern.Naming) :
    Except LoadFailure Config :=
  (ofValue (.map entries) naming).mapError fun
    | .fault fault => .fault (.invalid fault)
    | .tooLong fault => .tooLong fault
    | @Failure.hugeCount failure => @LoadFailure.hugeCount failure

def pathToLoad? (files : Files) (given : Option Path) : Option Path :=
  match given with
  | some path => some path
  | none => if files.isFile defaultPath then some defaultPath else none

/-- The configuration in a file; without a file all settings have their defaults. -/
def load (files : Files) (given : Option Path) (naming : Pattern.Naming := .none) :
    Except LoadFailure Config :=
  match pathToLoad? files given with
  | none => .ok {}
  | some path => do ofMapping (← mappingIn files path) naming

end MdxCheck.Config
