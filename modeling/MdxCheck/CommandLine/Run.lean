import MdxCheck.CommandLine.Arguments
import MdxCheck.CommandLine.Help
import MdxCheck.Config.Load
import MdxCheck.Image.Check
import MdxCheck.Verification.Discovery
import MdxCheck.Verification.Report

/-!
A run of the command: it loads the configuration, finds the documents, verifies them, and checks their
images.
-/

namespace MdxCheck.CommandLine

open Verification

inductive Level where
  | debug
  | warning
deriving DecidableEq, Repr

structure LogLine where
  level : Level
  origin : Text
  message : Text
deriving DecidableEq, Repr

def LogLine.shown (line : LogLine) : Text :=
  let label : Text := match line.level with
    | .debug => "DEBUG "
    | .warning => "WARNING "
  label ++ line.origin ++ ": " ++ line.message

/-- What is printed of the log: warnings always, the rest if it is asked for. These are the lines that
the checks themselves log. If all are asked for, the reading of prose adds further ones, which show where
its objects lie in memory and are left out here. -/
def printedLog (isVerbose : Bool) (lines : List LogLine) : Printed :=
  .ofErrors ((lines.filter fun line => isVerbose || line.level = .warning).map LogLine.shown)

inductive ExitCode where
  | clean
  | problems
  | misused
deriving DecidableEq, Repr

def ExitCode.number : ExitCode → Nat
  | clean => 0
  | problems => 1
  | misused => 2

inductive Failure where
  | config (failure : Config.LoadFailure)
  | document (failure : Verification.Failure)

def Failure.message : Failure → Text
  | config (.fault fault) => fault.message
  | config (.notText error) => error.message
  | config (.value fault) => fault.message
  | config (.misuse fault) => fault.message
  | config (.tooLong fault) => fault.message
  | config (@Config.LoadFailure.hugeCount failure) => failure.message []
  | document (.file error) => error.message
  | document (.misuse fault) => fault.message
  | document (.value fault) => fault.message
  | document (.position error) => error.message

def configLog (path : Option Path) : List LogLine :=
  match path with
  | none => []
  | some path => [⟨.debug, "verify_config", "Loaded configuration from " ++ path.toText⟩]

def discoveryLog (files : Files) (paths documents : List Path) : List LogLine :=
  (paths.filter (leadsNowhere files)).map (fun path =>
    ⟨.warning, "verify_mdx", "Skipping " ++ path.toText ++ ": no such file or directory"⟩) ++
    [⟨.debug, "verify_mdx", "Discovered " ++ Text.decimal documents.length ++ " document(s)"⟩]

def ruleLabel : Rule.Structural → Text
  | .pairedContainer _ => "validate_steps"
  | .barPages _ => "validate_tabs"

def rulesLog (tree : Node) : List LogLine :=
  Rule.registry.map fun rule =>
    let count := ((rule.check tree).toOption.getD []).length
    ⟨.debug, "validators", ruleLabel rule ++ ": " ++ Text.decimal count ++ " diagnostic(s)"⟩

def documentLog (files : Files) (path : Path) : List LogLine :=
  match files.readText path with
  | .error _ => []
  | .ok text =>
    match Document.parse text with
    | .error _ => []
    | .ok tree => rulesLog tree

def imageLog (problems : List Diagnostic) : List LogLine :=
  [⟨.debug, "image_imports",
    "Checked image imports, " ++ Text.decimal problems.length ++ " error(s)"⟩]

def checkImages (files : Files) (config : Config) (options : Options) (documents : List Path) :
    Except Failure (Option (List Diagnostic)) :=
  if config.checksImages && !options.skipsImages then
    ((Image.checkAll files documents).mapError (.document ∘ .file)).map some
  else .ok none

def runWith (files : Files) (today : Calendar.Date) (options : Options) (config : Config) :
    Except Failure (ExitCode × Printed) := do
  let log := printedLog options.isVerbose
  let paths := options.paths.map Path.ofText
  let documents := discover files config paths
  let verdicts ← (verifyAll files config today documents).mapError .document
  let images ← checkImages files config options documents
  let imageProblems := images.getD []
  let count := total verdicts + imageProblems.length
  let imagesPrinted : Printed := match images with
    | none => {}
    | some problems => log (imageLog problems) ++ imageReport problems
  return (if count = 0 then .clean else .problems,
    log (discoveryLog files paths documents) ++
      .ofOutput ["Verifying " ++ Text.decimal documents.length ++ " documents..."] ++
      log (documents.flatMap (documentLog files)) ++ report verdicts ++ imagesPrinted)

def runOptions (files : Files) (today : Calendar.Date) (options : Options) (naming : Pattern.Naming) :
    Except Failure (ExitCode × Printed) := do
  let misused (message : Text) : Printed := .ofErrors ["[ERROR] " ++ message]
  match Config.pathToLoad? files (options.config.map Path.ofText) with
  | none => runWith files today options {}
  | some path =>
    match Config.mappingIn files path with
    | .error (.fault fault) => return (.misused, misused fault.message)
    | .error failure => throw (.config failure)
    | .ok entries =>
      let log := printedLog options.isVerbose (configLog path)
      match Config.ofMapping entries naming with
      | .error (.fault fault) => return (.misused, log ++ misused fault.message)
      | .error failure => throw (.config failure)
      | .ok config =>
        let (code, printed) ← runWith files today options config
        return (code, log ++ printed)

def run (files : Files) (today : Calendar.Date) (arguments : List Text)
    (naming : Pattern.Naming := .none) : Except Failure (ExitCode × Printed) :=
  match Options.ofArguments arguments with
  | .error .help => .ok (.clean, { output := helpText })
  | .error (.fault fault) => .ok (.misused, { errors := usageError fault.message })
  | .ok options => runOptions files today options naming

end MdxCheck.CommandLine
