import MdxCheck.Verification.Document

/-!
What is printed about verified documents and about their images.
-/

namespace MdxCheck.Verification

structure Printed where
  output : Text := []
  errors : Text := []
deriving DecidableEq, Repr

namespace Printed

def ofOutput (lines : List Text) : Printed :=
  { output := lines.flatMap (· ++ ['\n']) }

def ofErrors (lines : List Text) : Printed :=
  { errors := lines.flatMap (· ++ ['\n']) }

def append (first second : Printed) : Printed :=
  ⟨first.output ++ second.output, first.errors ++ second.errors⟩

instance : Append Printed := ⟨append⟩

end Printed

def total (verdicts : List Verdict) : Nat :=
  (verdicts.flatMap Verdict.problems).length

def verdictLines (verdict : Verdict) : List Text :=
  ('\n' :: verdict.path.toText ++ ": " ++ Text.decimal verdict.problems.length ++ " error(s)") ::
    verdict.problems.map Diagnostic.format

def summary (verdicts : List Verdict) : Text :=
  let count := Text.decimal verdicts.length
  if total verdicts = 0 then "MDX verification passed: " ++ count ++ " documents"
  else
    let failed := verdicts.filter (!·.isClean)
    "MDX verification failed: " ++ Text.decimal (total verdicts) ++ " error(s) in " ++
      Text.decimal failed.length ++ " of " ++ count ++ " documents"

def report (verdicts : List Verdict) : Printed :=
  .ofErrors ((verdicts.filter (!·.isClean)).flatMap verdictLines) ++
    .ofOutput ['\n' :: List.replicate 60 '=', summary verdicts]

def imageLine (problem : Diagnostic) (index : Nat) : Text :=
  "\nError " ++ Text.decimal (index + 1) ++ ": " ++ problem.format

def imageReport (problems : List Diagnostic) : Printed :=
  if problems.isEmpty then .ofOutput ["\nNo image import issues found"]
  else
    .ofErrors <|
      ("\nFound " ++ Text.decimal problems.length ++ " image import errors") ::
      problems.zipIdx.map (fun (problem, index) => imageLine problem index) ++
        ['\n' :: List.replicate 60 '-']

end MdxCheck.Verification
