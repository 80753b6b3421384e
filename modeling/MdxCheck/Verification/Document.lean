import MdxCheck.Config.Basic
import MdxCheck.Document.Parse
import MdxCheck.Files.Store
import MdxCheck.Rule.Registry

/-!
All problems of one document: those of its structure, of its frontmatter and of the dates in there.
-/

namespace MdxCheck.Verification

/-- Why a document cannot be verified: it cannot be read, a scalar of its frontmatter misuses its type,
a problem is about a value that is too long to be written, or a problem lies at a node without a
place. -/
inductive Failure where
  | file (error : Files.Error)
  | misuse (fault : Yaml.Misuse)
  | value (fault : Value.TooLong)
  | position (error : MissingPosition)

structure Verdict where
  path : Path
  problems : List Diagnostic
deriving DecidableEq, Repr

namespace Verdict

def isClean (verdict : Verdict) : Bool :=
  verdict.problems.isEmpty

end Verdict

def parseProblem (error : Document.ParseError) : Diagnostic :=
  .atPosition error.position error.reason .mdx

/-- The problems with the structure of a document: the first that the text shows if it has no tree, and
else what the rules find. -/
def structureProblems (text : Text) : Except MissingPosition (List Diagnostic) :=
  match Document.parse text with
  | .error error => .ok [parseProblem error]
  | .ok tree => Rule.checkAll tree Rule.registry

def frontmatterProblems (frontmatter : Frontmatter) : List Diagnostic :=
  match frontmatter.problem with
  | none => []
  | some problem =>
    [{ reason := problem.reason, category := .frontmatter, snippet := problem.snippet }]

def fieldProblems (message : Option Text) : List Diagnostic :=
  match message with
  | none => []
  | some reason => [{ reason := reason, category := .frontmatterField }]

def freshnessProblems (config : Config) (today : Calendar.Date) (path : Path)
    (frontmatter : Frontmatter) : Except Value.TooLong (List Diagnostic) :=
  if Frontmatter.needsFreshness config.freshnessExemptions path then
    (frontmatter.freshnessMessage? today config.ageLimit).map fieldProblems
  else .ok []

def releaseProblems (config : Config) (path : Path) (frontmatter : Frontmatter) :
    Except Value.TooLong (List Diagnostic) :=
  if Frontmatter.needsRelease config.release.pattern path then
    frontmatter.releaseMessage?.map fieldProblems
  else .ok []

def problems (config : Config) (today : Calendar.Date) (path : Path) (text : Text) :
    Except Failure (List Diagnostic) := do
  let inStructure ← (structureProblems text).mapError .position
  let frontmatter ← (Frontmatter.ofText text).mapError .misuse
  let ofFreshness ← (freshnessProblems config today path frontmatter).mapError .value
  let ofRelease ← (releaseProblems config path frontmatter).mapError .value
  return inStructure ++ frontmatterProblems frontmatter ++ ofFreshness ++ ofRelease

def verify (files : Files) (config : Config) (today : Calendar.Date) (path : Path) :
    Except Failure Verdict := do
  let text ← (files.readText path).mapError .file
  let found ← problems config today path text
  return ⟨path, found.map (·.withFile path.toText)⟩

def verifyAll (files : Files) (config : Config) (today : Calendar.Date) :
    List Path → Except Failure (List Verdict)
  | [] => .ok []
  | path :: paths => do
    let verdict ← verify files config today path
    let verdicts ← verifyAll files config today paths
    return verdict :: verdicts

end MdxCheck.Verification
