import MdxCheck.Proofs.Verification.Batch

/-!
What the problems of a document are made of: those of its structure, of its frontmatter and of the
fields in there. The frontmatter alone decides all but the first.
-/

namespace MdxCheck.Verification

/-- The problems with the structure of a text: the one that keeps it from having a tree, or those of all
rules, each of them about a place in the tree. -/
inductive OfStructure (text : Text) : List Diagnostic → Prop
  | noTree {error} : Document.parse text = .error error →
      OfStructure text
        [{ reason := error.reason, category := .mdx
           line := some error.position.line, column := some error.position.column }]
  | rules {tree problems} : Document.parse text = .ok tree →
      Rule.checkAll tree Rule.registry = .ok problems →
      (∀ problem ∈ problems, problem.category = .validation) → OfStructure text problems

inductive OfFrontmatter (frontmatter : Frontmatter) : List Diagnostic → Prop
  | sound : frontmatter.problem = none → OfFrontmatter frontmatter []
  | broken {problem} : frontmatter.problem = some problem →
      OfFrontmatter frontmatter
        [{ reason := problem.reason, category := .frontmatter, snippet := problem.snippet }]

/-- The problem with a field, if the field is asked for and there is something to say. -/
inductive OfField (isNeeded : Bool) (message? : Except Value.TooLong (Option Text)) :
    List Diagnostic → Prop
  | notNeeded : isNeeded = false → OfField isNeeded message? []
  | fine : isNeeded = true → message? = .ok none → OfField isNeeded message? []
  | faulty {message} : isNeeded = true → message? = .ok (some message) →
      OfField isNeeded message? [{ reason := message, category := .frontmatterField }]

theorem ofStructure_of_structureProblems {text : Text} {problems : List Diagnostic}
    (found : structureProblems text = .ok problems) : OfStructure text problems := by
  unfold structureProblems at found
  split at found
  · next error failed =>
      obtain rfl := Except.ok.inj found
      exact .noTree failed
  · next tree parsed =>
      refine .rules parsed found fun problem member => ?_
      obtain ⟨position, reason, rfl⟩ := Rule.checkAll_placed found problem member
      rfl

theorem ofFrontmatter_frontmatterProblems (frontmatter : Frontmatter) :
    OfFrontmatter frontmatter (frontmatterProblems frontmatter) := by
  unfold frontmatterProblems
  split
  · next sound => exact .sound sound
  · next problem broken => exact .broken broken

theorem ofField_of_fieldProblems {isNeeded : Bool} {message? : Except Value.TooLong (Option Text)}
    {problems : List Diagnostic}
    (found : (if isNeeded then message?.map fieldProblems else .ok []) = .ok problems) :
    OfField isNeeded message? problems := by
  split at found
  · next needed =>
      obtain ⟨message, made, rfl⟩ := exists_of_map_ok found
      cases message with
      | none => exact .fine needed made
      | some message => exact .faulty needed made
  · next notNeeded =>
      obtain rfl := Except.ok.inj found
      exact .notNeeded (by simpa using notNeeded)

theorem freshnessMessage_of_problem {frontmatter : Frontmatter}
    (broken : frontmatter.problem ≠ none) (today : Calendar.Date)
    (limit : Option Frontmatter.AgeLimit) : frontmatter.freshnessMessage? today limit = .ok none :=
  if_pos (Option.isSome_iff_ne_none.mpr broken)

theorem releaseMessage_of_problem {frontmatter : Frontmatter}
    (broken : frontmatter.problem ≠ none) : frontmatter.releaseMessage? = .ok none :=
  if_pos (Option.isSome_iff_ne_none.mpr broken)

theorem OfField.eq_nil {isNeeded : Bool} {problems : List Diagnostic}
    (ofField : OfField isNeeded (.ok none) problems) : problems = [] := by
  cases ofField with
  | notNeeded => rfl
  | fine => rfl
  | faulty needed made => simp at made

theorem parts_of_problems {config : Config} {today : Calendar.Date} {path : Path} {text : Text}
    {found : List Diagnostic} (made : problems config today path text = .ok found) :
    ∃ ofStructure frontmatter ofFreshness ofRelease,
      structureProblems text = .ok ofStructure ∧ Frontmatter.ofText text = .ok frontmatter ∧
      freshnessProblems config today path frontmatter = .ok ofFreshness ∧
      releaseProblems config path frontmatter = .ok ofRelease ∧
      found = ofStructure ++ frontmatterProblems frontmatter ++ ofFreshness ++ ofRelease := by
  obtain ⟨ofStructure, structured, made⟩ := exists_of_bind_ok made
  obtain ⟨frontmatter, read, made⟩ := exists_of_bind_ok made
  obtain ⟨ofFreshness, fresh, made⟩ := exists_of_bind_ok made
  obtain ⟨ofRelease, released, made⟩ := exists_of_bind_ok made
  exact ⟨ofStructure, frontmatter, ofFreshness, ofRelease, ok_of_mapError structured,
    ok_of_mapError read, ok_of_mapError fresh, ok_of_mapError released,
    (Except.ok.inj made).symm⟩

/-- The problems of a document are those of its structure, its frontmatter, the day of its check and that
of its release, one after another and each with the path. Broken frontmatter silences the last two, and
all but the first are the same for every document with this frontmatter. -/
theorem verify_composition {files : Files} {config : Config} {today : Calendar.Date} {path : Path}
    {verdict : Verdict} (verified : verify files config today path = .ok verdict) :
    ∃ text frontmatter ofStructure ofFrontmatter ofFreshness ofRelease,
      files.readText path = .ok text ∧ Frontmatter.ofText text = .ok frontmatter ∧
      verdict = ⟨path, (ofStructure ++ ofFrontmatter ++ ofFreshness ++ ofRelease).map
        fun problem => { problem with file := some path.toText }⟩ ∧
      OfStructure text ofStructure ∧ OfFrontmatter frontmatter ofFrontmatter ∧
      OfField (Frontmatter.needsFreshness config.freshnessExemptions path)
        (frontmatter.freshnessMessage? today config.ageLimit) ofFreshness ∧
      OfField (Frontmatter.needsRelease config.release.pattern path)
        frontmatter.releaseMessage? ofRelease ∧
      (ofFrontmatter ≠ [] → ofFreshness = [] ∧ ofRelease = []) ∧
      ∀ (others : Files) (other : Text), others.readText path = .ok other →
        Frontmatter.ofText other = .ok frontmatter →
        ∃ ofOther, OfStructure other ofOther ∧
          verify others config today path =
            .ok ⟨path, (ofOther ++ ofFrontmatter ++ ofFreshness ++ ofRelease).map
              fun problem => { problem with file := some path.toText }⟩ := by
  obtain ⟨text, read, verified⟩ := exists_of_bind_ok verified
  obtain ⟨found, made, verified⟩ := exists_of_bind_ok verified
  obtain rfl := Except.ok.inj verified
  obtain ⟨ofStructure, frontmatter, ofFreshness, ofRelease, structured, loaded, fresh, released,
    rfl⟩ := parts_of_problems made
  have freshness := ofField_of_fieldProblems fresh
  have release := ofField_of_fieldProblems released
  have whole := ofFrontmatter_frontmatterProblems frontmatter
  refine ⟨text, frontmatter, ofStructure, frontmatterProblems frontmatter, ofFreshness, ofRelease,
    ok_of_mapError read, loaded, rfl, ofStructure_of_structureProblems structured, whole, freshness,
    release, fun broken => ?_, fun others other readOther same => ?_⟩
  · have problem : frontmatter.problem ≠ none := by
      intro none
      rw [frontmatterProblems, none] at broken
      exact broken rfl
    rw [freshnessMessage_of_problem problem] at freshness
    rw [releaseMessage_of_problem problem] at release
    exact ⟨freshness.eq_nil, release.eq_nil⟩
  · obtain ⟨ofOther, structuredOther⟩ := structureProblems_ok other
    exact ⟨ofOther, ofStructure_of_structureProblems structuredOther,
      verify_of_problems readOther (problems_of_parts structuredOther same fresh released)⟩

/-- A component that is not closed, and no frontmatter. -/
theorem verify_composition_unclosed :
    ∃ (files : Files) (path : Path) (today : Calendar.Date) (verdict : Verdict),
      verify files {} today path = .ok verdict ∧
      verdict.problems.map Diagnostic.category = [.mdx, .frontmatterField] ∧
      ∃ text ofStructure others, files.readText path = .ok text ∧ OfStructure text ofStructure ∧
        verdict.problems = (ofStructure ++ others).map
          fun problem => { problem with file := some path.toText } := by
  let files := Files.empty.write (.ofText "a.mdx") (Text.encodeUtf8 "<A>\n")
  have categories : ((verify files {} ⟨2024, 2, 1⟩ (.ofText "a.mdx")).map fun verdict =>
      verdict.problems.map Diagnostic.category).toOption = some [.mdx, .frontmatterField] := by
    decide +kernel
  obtain ⟨verdict, verified, categories⟩ := exists_of_toOption_map categories
  obtain ⟨text, frontmatter, ofStructure, ofFrontmatter, ofFreshness, ofRelease, read, -, rfl,
    structured, -⟩ := verify_composition verified
  exact ⟨files, _, _, _, verified, categories, text, ofStructure,
    ofFrontmatter ++ ofFreshness ++ ofRelease, read, structured, by simp⟩

end MdxCheck.Verification
