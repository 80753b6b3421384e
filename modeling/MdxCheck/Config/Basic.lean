import MdxCheck.Config.Schema
import MdxCheck.Frontmatter.Dates
import MdxCheck.Frontmatter.Scope

/-!
The settings of a run: which files are documents, and what is asked of them.
-/

namespace MdxCheck

namespace Config

structure Selector where
  source : Text
  pattern : Pattern
deriving DecidableEq, Repr

def defaultExtensions : List Text :=
  ([".md", ".mdx"] : List String).map String.toList

def defaultExclusions : List Text :=
  (["node_modules", ".git"] : List String).map String.toList

end Config

/-- The settings of a run: the suffixes of documents, the names of directories to leave out, the parts
of paths that need no day of checking, the paths that need the day of a release, the highest age of a
check, and whether images are checked. -/
structure Config where
  extensions : List Text := Config.defaultExtensions
  exclusions : List Text := Config.defaultExclusions
  freshnessExemptions : List Text := Frontmatter.freshnessExemptions
  release : Config.Selector := ⟨Frontmatter.releaseSource, Frontmatter.releasePattern⟩
  ageLimit : Option Frontmatter.AgeLimit := none
  checksImages : Bool := true

namespace Config

inductive Fault where
  | problems (found : List Problem)
  | release (source : Text) (fault : Pattern.Fault) (position : Option Nat)

def Fault.message : Fault → Text
  | problems found =>
    "Invalid configuration: " ++ Text.join "; ".toList (found.map Problem.message)
  | release source fault position =>
    "Invalid release_date_pattern: " ++ (Pattern.Failure.fault fault position).message source

/-- Why a value gives no configuration: it is none, or something ends the reading, which is a faulty
value that is too long to be written into a message, or a failure of the pattern that is no fault of it,
such as a count of repetitions that is too high. -/
inductive Failure where
  | fault (fault : Fault)
  | tooLong (fault : Value.TooLong)
  | hugeCount {failure : Pattern.Failure}

/-- The pattern for suffixes: a period, then ASCII letters and digits. -/
def extensionSource : Text := "^\\.[A-Za-z0-9]+$"

/-- The pattern that `extensionSource` spells. -/
def extensionPattern : Pattern :=
  .row [.edge .textStart, .one (.single '.'),
    .repeated 1 none .most
      (.one { members := [.range 65 90, .range 97 122, .range 48 57] }),
    .edge .lastLineStop]

def textsField (name : Text) : Field where
  name := name
  requirements := [.kind [.array], .distinctItems]
  itemRequirements := [.kind [.string], .someText]

def schema : Schema where
  required := ["schema_version".toList]
  fields :=
    [{ name := "schema_version", requirements := [.kind [.integer], .constant 1] },
      { name := "extensions"
        requirements := [.kind [.array], .someItems, .distinctItems]
        itemRequirements := [.kind [.string], .form extensionSource extensionPattern] },
      textsField "exclude_dirs",
      textsField "exclude_from_freshness_paths",
      { name := "release_date_pattern", requirements := [.kind [.string], .someText] },
      { name := "freshness_max_age_days", requirements := [.kind [.integer, .null], .least 1] },
      { name := "check_images", requirements := [.kind [.boolean]] }]

def texts? : Value → Option (List Text)
  | .list items => items.mapM fun
    | .text text => some text
    | _ => none
  | _ => none

def ageLimit? : Value → Option Frontmatter.AgeLimit
  | .integer days => some (.whole days)
  | .float days => some (.fraction days)
  | _ => none

def release? (entries : List (Value × Value)) (naming : Pattern.Naming) :
    Except Failure (Option Selector) :=
  match Value.lookup "release_date_pattern" entries with
  | some (.text source) =>
    match Pattern.ofText source naming with
    | .ok pattern => .ok (some ⟨source, pattern⟩)
    | .error (.fault fault position) => .error (.fault (.release source fault position))
    | .error failure => .error (@Failure.hugeCount failure)
  | _ => .ok none

/-- The settings that the fields of a mapping give; a field that is not there keeps its default. -/
def ofEntries (entries : List (Value × Value)) (release : Option Selector) : Config :=
  let texts (name : Text) : Option (List Text) := (Value.lookup name entries).bind texts?
  let standard : Config := {}
  { extensions := (texts "extensions").getD standard.extensions
    exclusions := (texts "exclude_dirs").getD standard.exclusions
    freshnessExemptions :=
      (texts "exclude_from_freshness_paths").getD standard.freshnessExemptions
    release := release.getD standard.release
    ageLimit := (Value.lookup "freshness_max_age_days" entries).bind ageLimit?
    checksImages := match Value.lookup "check_images" entries with
      | some (.boolean checks) => checks
      | _ => standard.checksImages }

/-- The configuration that a value is, if it is one. The pattern in it may name characters. -/
def ofValue (value : Value) (naming : Pattern.Naming := .none) : Except Failure Config :=
  match schema.check value, value with
  | [], .map entries => do return ofEntries entries (← release? entries naming)
  | problems, _ =>
    if problems.all (·.violation.isWritable) then .error (.fault (.problems problems))
    else .error (.tooLong ⟨⟩)

end Config

end MdxCheck
