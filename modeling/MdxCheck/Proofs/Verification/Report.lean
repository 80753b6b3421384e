import MdxCheck.Verification.Report
import Mathlib.Algebra.GroupWithZero.Nat

/-!
What is printed about verified documents: nothing of a problem is lost, and the summary counts what is
there.
-/

namespace MdxCheck.Verification

namespace Printed

@[simp] theorem output_append (first second : Printed) :
    (first ++ second).output = first.output ++ second.output := by
  rfl

@[simp] theorem errors_append (first second : Printed) :
    (first ++ second).errors = first.errors ++ second.errors := by
  rfl

@[simp] theorem output_ofErrors (lines : List Text) : (ofErrors lines).output = [] := by
  rfl

@[simp] theorem errors_ofErrors (lines : List Text) :
    (ofErrors lines).errors = lines.flatMap (· ++ ['\n']) := by
  rfl

@[simp] theorem output_ofOutput (lines : List Text) :
    (ofOutput lines).output = lines.flatMap (· ++ ['\n']) := by
  rfl

@[simp] theorem errors_ofOutput (lines : List Text) : (ofOutput lines).errors = [] := by
  rfl

end Printed

theorem total_eq_sum (verdicts : List Verdict) :
    total verdicts = (verdicts.map fun verdict => verdict.problems.length).sum := by
  rw [total, List.length_flatMap]

theorem total_eq_zero_iff {verdicts : List Verdict} :
    total verdicts = 0 ↔ ∀ verdict ∈ verdicts, verdict.problems = [] := by
  rw [total, List.length_eq_zero_iff, List.flatMap_eq_nil_iff]

/-- The lines that tell of one document: none if nothing is wrong with it, and else one with the number of
its problems and then each of them. -/
def documentLines (verdict : Verdict) : List Text :=
  match verdict.problems with
  | [] => []
  | problems =>
    ('\n' :: verdict.path.toText ++ ": " ++ Text.decimal problems.length ++ " error(s)") ::
      problems.map Diagnostic.format

theorem report_errors (verdicts : List Verdict) :
    (report verdicts).errors = (verdicts.flatMap documentLines).flatMap (· ++ ['\n']) := by
  have lines : (verdicts.filter (!·.isClean)).flatMap verdictLines =
      verdicts.flatMap documentLines := by
    induction verdicts with
    | nil => rfl
    | cons verdict verdicts ih =>
        rw [List.flatMap_cons, ← ih, List.filter_cons]
        cases problems : verdict.problems with
        | nil => simp [Verdict.isClean, problems, documentLines]
        | cons problem others => simp [Verdict.isClean, problems, documentLines, verdictLines]
  rw [report, Printed.errors_append, Printed.errors_ofErrors, lines, Printed.errors_ofOutput,
    List.append_nil]

theorem report_output (verdicts : List Verdict) :
    (report verdicts).output =
      '\n' :: List.replicate 60 '=' ++ '\n' :: summary verdicts ++ ['\n'] := by
  rw [report, Printed.output_append, Printed.output_ofErrors, Printed.output_ofOutput]
  simp only [List.flatMap_cons, List.flatMap_nil, List.nil_append, List.append_nil,
    List.append_assoc, List.cons_append]

def passed (documents : Nat) : Text :=
  "MDX verification passed: " ++ Text.decimal documents ++ " documents"

def failed (problems faulty documents : Nat) : Text :=
  "MDX verification failed: " ++ Text.decimal problems ++ " error(s) in " ++ Text.decimal faulty ++
    " of " ++ Text.decimal documents ++ " documents"

theorem summary_of_clean {verdicts : List Verdict} (clean : total verdicts = 0) :
    summary verdicts = passed verdicts.length :=
  if_pos clean

theorem summary_of_problems {verdicts : List Verdict} (faulty : total verdicts ≠ 0) :
    summary verdicts =
      failed (total verdicts) (verdicts.countP (·.problems ≠ [])) verdicts.length := by
  have count : (verdicts.filter (!·.isClean)).length = verdicts.countP (·.problems ≠ []) := by
    rw [List.countP_eq_length_filter]
    congr 2
    funext verdict
    cases problems : verdict.problems <;> simp [Verdict.isClean, problems]
  rw [← count]
  exact if_neg faulty

theorem passed_ne_failed (documents problems faulty others : Nat) :
    passed documents ≠ failed problems faulty others := by
  intro same
  have left : (passed documents)[17]? = some 'p' := by rfl
  have right : (failed problems faulty others)[17]? = some 'f' := by rfl
  rw [same, right] at left
  exact absurd (Option.some.inj left) (by decide)

theorem summary_eq_passed_iff {verdicts : List Verdict} :
    summary verdicts = passed verdicts.length ↔ total verdicts = 0 := by
  constructor
  · intro told
    by_cases clean : total verdicts = 0
    · exact clean
    · rw [summary_of_problems clean] at told
      exact absurd told.symm (passed_ne_failed _ _ _ _)
  · exact summary_of_clean

end MdxCheck.Verification
