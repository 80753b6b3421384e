import MdxCheck.Proofs.CommandLine.Configuration
import MdxCheck.Proofs.Verification.Discovery
import MdxCheck.Proofs.Verification.Report

/-!
What a run of the command comes to: its exit code, the problems that it counts and how it prints them.
-/

namespace MdxCheck

namespace Verification

theorem forall₂_of_verifyAll {files : Files} {config : Config} {today : Calendar.Date}
    {paths : List Path} {verdicts : List Verdict}
    (verified : verifyAll files config today paths = .ok verdicts) :
    List.Forall₂ (fun path verdict => verify files config today path = .ok verdict) paths
      verdicts := by
  induction paths generalizing verdicts with
  | nil =>
      obtain rfl := Except.ok.inj verified
      exact .nil
  | cons path paths ih =>
      obtain ⟨verdict, first, verified⟩ := exists_of_bind_ok verified
      obtain ⟨others, rest, verified⟩ := exists_of_bind_ok verified
      obtain rfl := Except.ok.inj verified
      exact .cons first (ih rest)

end Verification

namespace CommandLine

open Verification

@[simp] theorem output_printedLog (isVerbose : Bool) (lines : List LogLine) :
    (printedLog isVerbose lines).output = [] := by
  rfl

section

variable (files : Files) (today : Calendar.Date) (options : Options) (config : Config)

def documentsOf : List Path :=
  discover files config (options.paths.map Path.ofText)

/-- The warnings of a run: one for each path that leads neither to a file nor to a directory. -/
def skipped : List LogLine :=
  ((options.paths.map Path.ofText).filter fun path =>
    files.isFile path = false ∧ files.isDirectory path = false).map fun path =>
      ⟨.warning, "verify_mdx", "Skipping " ++ path.toText ++ ": no such file or directory"⟩

/-- The problems with the images of the documents, if images are checked. -/
inductive Images : Option (List Diagnostic) → Prop
  | unchecked : config.checksImages = false ∨ options.skipsImages = true → Images none
  | checked {problems} : config.checksImages = true → options.skipsImages = false →
      Image.checkAll files (documentsOf files options config) = .ok problems → Images (some problems)

def printedImages (isVerbose : Bool) : Option (List Diagnostic) → Printed
  | none => {}
  | some problems => printedLog isVerbose (imageLog problems) ++ imageReport problems

def HasProblems (verdicts : List Verdict) (images : Option (List Diagnostic)) : Prop :=
  (∃ verdict ∈ verdicts, verdict.problems ≠ []) ∨ ∃ problem, problem ∈ images.getD []

/-- What a run with some settings comes to, given what is found out about its documents and their
images. The report follows a log, which has the warnings of the run, and no other lines if only these are
asked for. -/
structure Accounts (verdicts : List Verdict) (images : Option (List Diagnostic)) (code : ExitCode)
    (printed : Printed) : Prop where
  inOrder : (documentsOf files options config).Pairwise fun first second => first.parts < second.parts
  members : ∀ path, path ∈ documentsOf files options config ↔
    LeadsTo files config (options.paths.map Path.ofText) path
  verified : List.Forall₂ (fun path verdict => verify files config today path = .ok verdict)
    (documentsOf files options config) verdicts
  checked : Images files options config images
  problems : code.number = 1 ↔ HasProblems verdicts images
  clean : code.number = 0 ↔ ¬HasProblems verdicts images
  counted : total verdicts = (verdicts.map fun verdict => verdict.problems.length).sum
  errors : ∃ log : List LogLine,
    (log.filter fun line => line.level = .warning) = skipped files options ∧
    (options.isVerbose = false → ∀ line ∈ log, line.level = .warning) ∧
    printed.errors = (log.map LogLine.shown ++ verdicts.flatMap documentLines).flatMap (· ++ ['\n']) ++
      (printedImages options.isVerbose images).errors
  output : printed.output =
    "Verifying " ++ Text.decimal verdicts.length ++ " documents...\n\n" ++ List.replicate 60 '=' ++
      '\n' :: summary verdicts ++ '\n' :: (printedImages options.isVerbose images).output
  summarized : summary verdicts =
    if total verdicts = 0 then passed verdicts.length
    else failed (total verdicts) (verdicts.countP (·.problems ≠ [])) verdicts.length
  saysPassed : summary verdicts = passed verdicts.length ↔ total verdicts = 0

end

section

variable {files : Files} {today : Calendar.Date} {options : Options} {config : Config}

theorem images_of_checkImages {images : Option (List Diagnostic)}
    (checked : checkImages files config options (documentsOf files options config) = .ok images) :
    Images files options config images := by
  unfold checkImages at checked
  split at checked
  · next wanted =>
      simp only [Bool.and_eq_true, Bool.not_eq_true'] at wanted
      obtain ⟨problems, made, rfl⟩ := exists_of_map_ok checked
      exact .checked wanted.1 wanted.2 (ok_of_mapError made)
  · next unwanted =>
      obtain rfl := Except.ok.inj checked
      refine .unchecked ?_
      cases on : config.checksImages with
      | false => exact .inl rfl
      | true => exact .inr (by simpa [on] using unwanted)

theorem count_eq_zero_iff {verdicts : List Verdict} {images : Option (List Diagnostic)} :
    total verdicts + (images.getD []).length = 0 ↔ ¬HasProblems verdicts images := by
  rw [Nat.add_eq_zero_iff, total_eq_zero_iff, List.length_eq_zero_iff,
    List.eq_nil_iff_forall_not_mem, HasProblems]
  push Not
  rfl

theorem number_eq_zero_iff (count : Nat) :
    (if count = 0 then ExitCode.clean else .problems).number = 0 ↔ count = 0 := by
  by_cases none : count = 0
  · simp [none, ExitCode.number]
  · simp [none, ExitCode.number]

theorem number_eq_one_iff (count : Nat) :
    (if count = 0 then ExitCode.clean else .problems).number = 1 ↔ ¬count = 0 := by
  by_cases none : count = 0
  · simp [none, ExitCode.number]
  · simp [none, ExitCode.number]

/-- The log of a run up to the report. -/
def runLog (files : Files) (options : Options) (config : Config) : List LogLine :=
  configLog (Config.pathToLoad? files (options.config.map Path.ofText)) ++
    (discoveryLog files (options.paths.map Path.ofText) (documentsOf files options config) ++
      (documentsOf files options config).flatMap (documentLog files))

def shownLog (files : Files) (options : Options) (config : Config) : List LogLine :=
  (runLog files options config).filter fun line => options.isVerbose || line.level = .warning

theorem level_of_mem_documentLog {path : Path} {line : LogLine} (logged : line ∈ documentLog files path) :
    line.level = .debug := by
  unfold documentLog at logged
  split at logged
  · contradiction
  · split at logged
    · contradiction
    · obtain ⟨rule, -, rfl⟩ := List.mem_map.mp logged
      rfl

theorem warnings_runLog :
    ((runLog files options config).filter fun line => line.level = .warning) =
      skipped files options := by
  have fromConfig : ∀ line ∈ configLog (Config.pathToLoad? files (options.config.map Path.ofText)),
      line.level = .debug := by
    cases Config.pathToLoad? files (options.config.map Path.ofText) <;> simp [configLog]
  have fromDocuments : ∀ line ∈ (documentsOf files options config).flatMap (documentLog files),
      line.level = .debug := by
    intro line member
    obtain ⟨path, -, logged⟩ := List.mem_flatMap.mp member
    exact level_of_mem_documentLog logged
  have warnings : ∀ line ∈ skipped files options, decide (line.level = .warning) = true := by
    intro line member
    obtain ⟨path, -, rfl⟩ := List.mem_map.mp member
    simp
  have none {lines : List LogLine} (debug : ∀ line ∈ lines, line.level = .debug) :
      lines.filter (fun line => line.level = .warning) = [] := by
    rw [List.filter_eq_nil_iff]
    intro line member
    simp [debug line member]
  have nowhere : leadsNowhere files =
      fun path => decide (files.isFile path = false ∧ files.isDirectory path = false) := by
    funext path
    simp [leadsNowhere, Bool.decide_and]
  rw [runLog, List.filter_append, List.filter_append, none fromConfig, none fromDocuments,
    discoveryLog, nowhere, ← skipped, List.filter_append, List.filter_eq_self.mpr warnings]
  simp

theorem warnings_shownLog :
    ((shownLog files options config).filter fun line => line.level = .warning) =
      skipped files options := by
  have same : (fun line : LogLine => decide (line.level = .warning) &&
      (options.isVerbose || decide (line.level = .warning))) =
        fun line => decide (line.level = .warning) := by
    funext line
    cases decide (line.level = .warning) <;> simp
  rw [shownLog, List.filter_filter, same, warnings_runLog]

theorem level_of_mem_shownLog (quiet : options.isVerbose = false) {line : LogLine}
    (member : line ∈ shownLog files options config) : line.level = .warning := by
  simpa [quiet] using (List.mem_filter.mp member).2

theorem accounts_of_runWith (tree : files.IsTree) {code : ExitCode} {printed : Printed}
    (ran : runWith files today options config = .ok (code, printed)) :
    ∃ verdicts images, Accounts files today options config verdicts images code
      (printedLog options.isVerbose
        (configLog (Config.pathToLoad? files (options.config.map Path.ofText))) ++ printed) := by
  obtain ⟨verdicts, verified, ran⟩ := exists_of_bind_ok ran
  obtain ⟨images, checked, ran⟩ := exists_of_bind_ok ran
  obtain ⟨rfl, rfl⟩ := Prod.mk.inj (Except.ok.inj ran)
  have each := forall₂_of_verifyAll (ok_of_mapError verified)
  have count : (documentsOf files options config).length = verdicts.length := each.length_eq
  refine ⟨verdicts, images, ?_⟩
  constructor
  case inOrder => exact (discover_spec tree _ _).1
  case members => exact (discover_spec tree _ _).2
  case verified => exact each
  case checked => exact images_of_checkImages checked
  case problems => exact (number_eq_one_iff _).trans (not_iff_comm.mp count_eq_zero_iff.symm)
  case clean => exact (number_eq_zero_iff _).trans count_eq_zero_iff
  case counted => exact total_eq_sum verdicts
  case errors =>
    refine ⟨shownLog files options config, warnings_shownLog,
      fun quiet line => level_of_mem_shownLog quiet, ?_⟩
    rw [List.flatMap_append, ← report_errors]
    simp only [shownLog, runLog, List.filter_append, List.map_append, List.flatMap_append, printedLog,
      Printed.errors_append, Printed.errors_ofErrors, Printed.errors_ofOutput, List.append_nil,
      List.append_assoc]
    rfl
  case output =>
    rw [← count]
    simp only [Printed.output_append, output_printedLog, Printed.output_ofOutput, report_output,
      List.flatMap_cons, List.flatMap_nil, List.nil_append, List.append_nil, List.append_assoc,
      List.cons_append]
    rfl
  case summarized =>
    split
    · next clean => exact summary_of_clean clean
    · next faulty => exact summary_of_problems faulty
  case saysPassed => exact summary_eq_passed_iff

theorem Accounts.number_ne_two {verdicts : List Verdict} {images : Option (List Diagnostic)}
    {code : ExitCode} {printed : Printed}
    (accounts : Accounts files today options config verdicts images code printed) :
    code.number ≠ 2 := by
  intro two
  by_cases some : HasProblems verdicts images
  · have one := accounts.problems.mpr some
    omega
  · have none := accounts.clean.mpr some
    omega

/-- A run whose arguments can be read and whose configuration has a fault tells it, verifies nothing and
has exit code two. No other run has that code: with a configuration the exit code tells whether there are
problems, and the report shows and counts those of all documents. -/
theorem run_accounts (tree : files.IsTree) {naming : Pattern.Naming}
    {arguments : List Text} (read : Options.ofArguments arguments = .ok options) :
    (∀ fault, Config.load files (options.config.map Path.ofText) naming = .error (.fault fault) →
      ∃ code printed, run files today arguments naming = .ok (code, printed) ∧ code.number = 2 ∧
        printed.output = [] ∧
        printed.errors =
          (printedLog options.isVerbose
            (loadLog files (Config.pathToLoad? files (options.config.map Path.ofText)))).errors ++
          ("[ERROR] " ++ fault.message ++ ['\n'])) ∧
    ∀ code printed, run files today arguments naming = .ok (code, printed) →
      (code.number = 2 ↔
        ∃ fault, Config.load files (options.config.map Path.ofText) naming = .error (.fault fault)) ∧
      (code.number ≠ 2 → ∃ config verdicts images,
        Config.load files (options.config.map Path.ofText) naming = .ok config ∧
        Accounts files today options config verdicts images code printed) := by
  cases loaded : Config.load files (options.config.map Path.ofText) naming with
  | ok config =>
      refine ⟨fun fault failed => absurd failed (by simp), fun code printed ran => ?_⟩
      rw [run_of_options today read, runOptions_eq, loaded] at ran
      obtain ⟨⟨code, printed⟩, verified, same⟩ := exists_of_map_ok ran
      obtain ⟨rfl, rfl⟩ := Prod.mk.inj same
      obtain ⟨verdicts, images, accounts⟩ := accounts_of_runWith tree verified
      rw [← loadLog_of_ok loaded] at accounts
      exact ⟨iff_of_false accounts.number_ne_two (by simp), fun _ =>
        ⟨config, verdicts, images, rfl, accounts⟩⟩
  | error failure =>
      constructor
      · intro fault failed
        obtain rfl := Except.error.inj failed
        exact ⟨.misused, _, run_of_fault today read loaded, rfl, rfl, by simp⟩
      · intro code printed ran
        have stopped : ∃ fault, failure = .fault fault := by
          by_contra unforeseen
          rw [run_of_failure today read loaded fun fault same => unforeseen ⟨fault, same⟩] at ran
          simp at ran
        obtain ⟨fault, rfl⟩ := stopped
        rw [run_of_fault today read loaded] at ran
        obtain ⟨rfl, rfl⟩ := Prod.mk.inj (Except.ok.inj ran)
        exact ⟨iff_of_true rfl ⟨fault, rfl⟩, fun other => absurd rfl other⟩

end

/-- A run over one document, in which a component is not closed. -/
theorem run_accounts_unclosed :
    ∃ (files : Files) (today : Calendar.Date) (options : Options) (code : ExitCode)
      (printed : Printed), files.IsTree ∧ Options.ofArguments ["a.mdx", "../b"] = .ok options ∧
      run files today ["a.mdx", "../b"] = .ok (code, printed) ∧ code.number = 1 ∧
      ∃ config verdicts images, Accounts files today options config verdicts images code printed := by
  let files := Files.empty.write (.ofText "a.mdx") (Text.encodeUtf8 "<A>\n")
  have tree : files.IsTree :=
    Files.isTree_empty.write [] "a.mdx" (by decide) (by decide) (by decide) (by decide) _
  have read : Options.ofArguments ["a.mdx", "../b"] = .ok { paths := ["a.mdx", "../b"] } := by rfl
  have exits : ((run files ⟨2024, 2, 1⟩ ["a.mdx", "../b"]).map fun result =>
      result.1.number).toOption = some 1 := by
    decide +kernel
  obtain ⟨⟨code, printed⟩, ran, one⟩ := exists_of_toOption_map exits
  have notMisused : code.number ≠ 2 := by
    rw [show code.number = 1 from one]
    decide
  obtain ⟨config, verdicts, images, -, accounts⟩ :=
    ((run_accounts tree read).2 code printed ran).2 notMisused
  exact ⟨files, _, _, code, printed, tree, read, ran, one, config, verdicts, images, accounts⟩

end CommandLine

end MdxCheck
