import MdxCheck.CommandLine.Run
import MdxCheck.Proofs.Config.Load
import MdxCheck.Proofs.Data.Result
import Mathlib.Data.Nat.Basic

/-!
Runs of the command as far as their configuration goes. A file that has nothing unforeseen to it either
gives the settings of the run or ends it with the exit code for misuse.
-/

namespace MdxCheck.CommandLine

open Verification

/-- The log of the loading of a configuration: that of a file only tells that it was read. -/
def loadLog (files : Files) (path? : Option Path) : List LogLine :=
  match path? with
  | none => []
  | some path =>
    match Config.mappingIn files path with
    | .error _ => []
    | .ok _ => configLog path

theorem loadLog_of_ok {files : Files} {given : Option Path} {naming : Pattern.Naming} {config : Config}
    (loaded : Config.load files given naming = .ok config) :
    loadLog files (Config.pathToLoad? files given) =
      configLog (Config.pathToLoad? files given) := by
  unfold Config.load at loaded
  cases chosen : Config.pathToLoad? files given with
  | none => rfl
  | some path =>
      simp only [chosen] at loaded
      obtain ⟨entries, mapping, -⟩ := exists_of_bind_ok loaded
      rw [loadLog, mapping]

section

variable {files : Files} {options : Options} {naming : Pattern.Naming} (today : Calendar.Date)

/-- All that a run does with its configuration is to load it: from there on it verifies with the settings,
tells the fault, or fails as the loading does. -/
theorem runOptions_eq : runOptions files today options naming =
    let path? := Config.pathToLoad? files (options.config.map Path.ofText)
    let log := printedLog options.isVerbose (loadLog files path?)
    match Config.load files (options.config.map Path.ofText) naming with
    | .ok config => (runWith files today options config).map fun (code, printed) =>
        (code, log ++ printed)
    | .error (.fault fault) => .ok (.misused, log ++ .ofErrors ["[ERROR] " ++ fault.message])
    | .error failure => .error (.config failure) := by
  unfold runOptions Config.load
  cases chosen : Config.pathToLoad? files (options.config.map Path.ofText) with
  | none =>
      simp only [loadLog]
      cases runWith files today options {} <;> rfl
  | some path =>
      simp only [loadLog]
      cases Config.mappingIn files path with
      | error failure => cases failure <;> rfl
      | ok entries =>
          simp only [bind, Except.bind]
          cases Config.ofMapping entries naming with
          | error failure => cases failure <;> rfl
          | ok config => cases runWith files today options config <;> rfl

theorem run_of_options {arguments : List Text} (read : Options.ofArguments arguments = .ok options) :
    run files today arguments naming = runOptions files today options naming := by
  rw [run, read]

theorem run_of_fault {arguments : List Text} (read : Options.ofArguments arguments = .ok options)
    {fault : Config.LoadFault}
    (loaded : Config.load files (options.config.map Path.ofText) naming = .error (.fault fault)) :
    run files today arguments naming = .ok (.misused,
      printedLog options.isVerbose
        (loadLog files (Config.pathToLoad? files (options.config.map Path.ofText))) ++
      .ofErrors ["[ERROR] " ++ fault.message]) := by
  rw [run_of_options today read, runOptions_eq, loaded]

theorem run_of_failure {arguments : List Text} (read : Options.ofArguments arguments = .ok options)
    {failure : Config.LoadFailure}
    (loaded : Config.load files (options.config.map Path.ofText) naming = .error failure)
    (unforeseen : ∀ fault, failure ≠ .fault fault) :
    run files today arguments naming = .error (.config failure) := by
  rw [run_of_options today read, runOptions_eq, loaded]
  cases failure with
  | fault fault => exact absurd rfl (unforeseen fault)
  | _ => rfl

end

/-- A configuration file with nothing unforeseen gives settings or a fault. If it gives none, a run with
it verifies nothing, tells the fault and ends with exit code two. -/
theorem configured_or_misused {files : Files} {given : Option Path} {naming : Pattern.Naming}
    (foreseen : ∀ path bytes, Config.pathToLoad? files given = some path →
      files.read path = .ok bytes →
      ∃ source, Text.decodeUtf8 bytes = .ok source ∧
        Config.Foreseen (Files.plainBreaks source) naming) :
    ((∃ config, Config.load files given naming = .ok config) ∨
      ∃ fault, Config.load files given naming = .error (.fault fault)) ∧
    ∀ today arguments options, Options.ofArguments arguments = .ok options →
      options.config.map Path.ofText = given →
      (∀ config, Config.load files given naming ≠ .ok config) →
      ∃ code fault, Config.load files given naming = .error (.fault fault) ∧ code.number = 2 ∧
        run files today arguments naming = .ok (code,
          printedLog options.isVerbose (loadLog files (Config.pathToLoad? files given)) ++
            .ofErrors ["[ERROR] " ++ fault.message]) := by
  have settled := Config.load_settled foreseen
  refine ⟨settled, ?_⟩
  rintro today arguments options read rfl unusable
  rcases settled with ⟨config, loaded⟩ | ⟨fault, loaded⟩
  · exact absurd loaded (unusable config)
  · exact ⟨.misused, fault, loaded, rfl, run_of_fault today read loaded⟩

/-- What a mapping has for a name. -/
def valueAt? (name : Text) : Value → Option Value
  | .map entries => Value.lookup name entries
  | _ => none

/-- A file whose version is a day. -/
theorem configured_or_misused_dated :
    ∃ files : Files, (∃ path bytes, Config.pathToLoad? files none = some path ∧
        files.read path = .ok bytes) ∧
      ∀ today, ∃ code fault, Config.load files none = .error (.fault fault) ∧ code.number = 2 ∧
        run files today [] = .ok (code,
          printedLog false (loadLog files (Config.pathToLoad? files none)) ++
            .ofErrors ["[ERROR] " ++ fault.message]) := by
  let source : Text := "schema_version: 2024-01-02\n"
  let files := Files.empty.write (.ofText ".verify-mdx.yml") (Text.encodeUtf8 source)
  have chosen : Config.pathToLoad? files none = some (.ofText ".verify-mdx.yml") := by decide +kernel
  have held : files.read (.ofText ".verify-mdx.yml") = .ok (Text.encodeUtf8 source) := by
    decide +kernel
  have decoded : Text.decodeUtf8 (Text.encodeUtf8 source) = .ok source := by decide +kernel
  have plain : Files.plainBreaks source = source := by decide +kernel
  have form : Yaml.soleField? (Yaml.document? source) = some (.timestamp, "2024-01-02".toList) := by
    decide +kernel
  have shown : ((Yaml.load source).map Value.isWritable).toOption = some true := by decide +kernel
  have noPattern : ((Yaml.load source).map fun value =>
      (valueAt? "release_date_pattern" value).isNone).toOption = some true := by
    decide +kernel
  have faulty : ((Yaml.load source).map fun value => Config.schema.fields.any fun field =>
      (valueAt? field.name value).any fun value => !(field.check value).isEmpty).toOption =
        some true := by
    decide +kernel
  have day : Yaml.Tag.timestamp.Spells "2024-01-02" :=
    ⟨⟨2024, 1, 2, true, none⟩, by decide, .inl ⟨2024, 1, 2⟩, rfl⟩
  have foreseen : Config.Foreseen source .none := by
    refine .of_soleField form day (fun value read => ?_) fun entries read => ?_
    · rw [read] at shown
      exact Option.some.inj shown
    · rw [read] at noPattern
      exact Option.isNone_iff_eq_none.mp (Option.some.inj noPattern)
  refine ⟨files, ⟨_, _, chosen, held⟩, fun today => ?_⟩
  refine (@configured_or_misused files none .none ?_).2 today [] {} rfl rfl fun config usable => ?_
  · intro path bytes isChosen read
    obtain rfl := Option.some.inj (chosen.symm.trans isChosen)
    obtain rfl := Except.ok.inj (held.symm.trans read)
    refine ⟨source, decoded, ?_⟩
    rw [plain]
    exact foreseen
  · simp only [Config.load, chosen, Config.mappingIn_of_read held decoded, plain] at usable
    split at usable
    · next entries read =>
        rw [read] at faulty
        obtain ⟨field, listed, wrong⟩ := List.any_eq_true.mp (Option.some.inj faulty)
        obtain ⟨value, known, wrong⟩ := (Option.any_eq_true _ _).mp wrong
        refine Config.Schema.check_ne_nil listed known (fun none => ?_)
          (Config.check_of_ofMapping usable)
        simp [none] at wrong
    · simp [bind, Except.bind] at usable
    · simp [bind, Except.bind] at usable

def valueFault? : Except Config.LoadFailure Config → Option Yaml.ValueFault
  | .error (.value fault) => some fault
  | _ => none

/-- The thirteenth month among the names of directories to leave out: the file gives neither settings
nor a fault, and the run has no exit code. -/
theorem unforeseen_of_thirteenth_month :
    ∃ files : Files, (∃ bytes, files.read Config.defaultPath = .ok bytes ∧
        Text.decodeUtf8 bytes =
          .ok "schema_version: 1\nexclude_dirs: [2024-13-45]\n".toList) ∧
      (∀ config, Config.load files none ≠ .ok config) ∧
      (∀ fault, Config.load files none ≠ .error (.fault fault)) ∧
      ∀ today, ∃ failure, run files today [] = .error failure := by
  let source : Text := "schema_version: 1\nexclude_dirs: [2024-13-45]\n"
  let files := Files.empty.write Config.defaultPath (Text.encodeUtf8 source)
  have held : files.read Config.defaultPath = .ok (Text.encodeUtf8 source) := by decide +kernel
  have decoded : Text.decodeUtf8 (Text.encodeUtf8 source) = .ok source := by decide +kernel
  have stopped : valueFault? (Config.load files none) = some (.calendar .month) := by decide +kernel
  refine ⟨files, ⟨_, held, decoded⟩, ?_, ?_, fun today => ?_⟩
  · intro config loaded
    rw [loaded] at stopped
    simp [valueFault?] at stopped
  · intro fault loaded
    rw [loaded] at stopped
    simp [valueFault?] at stopped
  · cases loaded : Config.load files none with
    | ok config =>
        rw [loaded] at stopped
        simp [valueFault?] at stopped
    | error failure =>
        refine ⟨.config failure, @run_of_failure files {} .none today [] rfl failure loaded ?_⟩
        intro fault same
        rw [loaded, same] at stopped
        simp [valueFault?] at stopped

end MdxCheck.CommandLine
