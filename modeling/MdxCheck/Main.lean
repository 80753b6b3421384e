import MdxCheck.CommandLine.Run

/-!
The command. The files that there are are named on standard input, one path a line. The environment
variable `PWD` holds the path of the working directory, and `TODAY` the day on which documents are
verified. If `NAMES` is set, it holds the path of a file that names characters, one a line, as in
`2022;BULLET`.
-/

namespace MdxCheck.CommandLine

partial def readLines (stream : IO.FS.Stream) : IO (List String) := do
  let line ← stream.getLine
  if line.isEmpty then return []
  else
    let rest ← readLines stream
    let path := line.toList.filter (· != '\n')
    return if path.isEmpty then rest else String.ofList path :: rest

def readFiles (paths : List String) : IO Files := do
  let home := ((← IO.getEnv "PWD").map fun text => (Path.ofText text.toList).names).getD []
  paths.foldlM (fun files (path : String) => do
    let bytes ← IO.FS.readBinFile path
    return files.write (.ofText path.toList) (bytes.toList.map UInt8.toNat)) (.inDirectory home)

def readNaming : IO Pattern.Naming := do
  match ← IO.getEnv "NAMES" with
  | none => return .none
  | some path =>
    return .ofLines ((← IO.FS.readFile path).toList |> Text.splitOn (· == '\n'))

def printAll (printed : Verification.Printed) : IO Unit := do
  (← IO.getStdout).putStr (String.ofList printed.output)
  (← IO.getStderr).putStr (String.ofList printed.errors)

end MdxCheck.CommandLine

open MdxCheck

def main (arguments : List String) : IO UInt32 := do
  match ((← IO.getEnv "TODAY").map String.toList).bind Calendar.Date.ofIso? with
  | none =>
    IO.eprintln "TODAY must hold a date in the format YYYY-MM-DD"
    return 2
  | some today =>
    let files ← CommandLine.readFiles (← CommandLine.readLines (← IO.getStdin))
    match CommandLine.run files today (arguments.map String.toList) (← CommandLine.readNaming) with
    | .ok (code, printed) =>
      CommandLine.printAll printed
      return UInt32.ofNat code.number
    | .error failure =>
      IO.eprintln (String.ofList failure.message)
      return 1
