import MdxCheck.Proofs.Rule.Placed
import MdxCheck.Proofs.Yaml.Load
import MdxCheck.Verification.Document

/-!
Documents whose frontmatter can be read: each of them gets its verdict, in the order of their paths.
-/

namespace MdxCheck

namespace Frontmatter

/-- A document whose frontmatter, if there is any, is read without a misuse. -/
def Sound (document : Text) : Prop :=
  ∀ source, source? document = some source → Yaml.Sound source

theorem ofLoaded_ok (source : Text) {result : Except Yaml.Failure Value}
    (handled : Yaml.Handled (fun _ => True) result) :
    ∃ frontmatter, ofLoaded source result = .ok frontmatter ∧
      (frontmatter.problem = none ∨ frontmatter.fields = []) := by
  match result, handled with
  | .error (.character _ _), _ => exact ⟨_, rfl, .inr rfl⟩
  | .error (.error _), _ => exact ⟨_, rfl, .inr rfl⟩
  | .error (.value _), _ => exact ⟨_, rfl, .inr rfl⟩
  | .ok value, _ =>
      unfold ofLoaded
      split
      case h_1 => exact ⟨_, rfl, .inl rfl⟩
      case h_2 => exact ⟨_, rfl, .inl rfl⟩
      case h_3 => exact ⟨_, rfl, .inr rfl⟩
      all_goals contradiction

theorem ofText_ok {document : Text} (sound : Sound document) :
    ∃ frontmatter, ofText document = .ok frontmatter ∧
      (frontmatter.problem = none ∨ frontmatter.fields = []) := by
  unfold ofText
  split
  · exact ⟨_, rfl, .inl rfl⟩
  · next source found => exact ofLoaded_ok source (Yaml.handled_load (sound source found))

/-- Whether the fields of a document can be written into a message. -/
def Writable (document : Text) : Prop :=
  ∀ frontmatter, ofText document = .ok frontmatter →
    ∀ entry ∈ frontmatter.fields, entry.2.isWritable = true

def DateFault.isWritable : DateFault → Bool
  | missing => true
  | notDate found => found.isWritable
  | future _ => true
  | tooOld _ limit => limit.value.isWritable

theorem DateFault.message_ok (field forms : Text) {fault : DateFault}
    (writable : fault.isWritable = true) : ∃ message, fault.message field forms = .ok message := by
  cases fault with
  | missing => exact ⟨_, rfl⟩
  | future date => exact ⟨_, rfl⟩
  | notDate found =>
      have written : found.written = .ok found.shown := if_pos writable
      exact ⟨_, by rw [message, written]; rfl⟩
  | tooOld date limit =>
      have written : limit.value.written = .ok limit.value.shown := if_pos writable
      exact ⟨_, by rw [message, written]; rfl⟩

theorem mem_of_field {frontmatter : Frontmatter} {name : Text} {value : Value}
    (found : frontmatter.field? name = some value) :
    ∃ entry ∈ frontmatter.fields, entry.2 = value := by
  obtain ⟨entry, first, same⟩ := Option.map_eq_some_iff.mp found
  exact ⟨entry, List.mem_of_find?_eq_some first, same⟩

section

variable {frontmatter : Frontmatter}
  (writable : ∀ entry ∈ frontmatter.fields, entry.2.isWritable = true)

include writable

theorem field_writable {name : Text} {value : Value}
    (found : frontmatter.field? name = some value) : value.isWritable = true := by
  obtain ⟨entry, member, rfl⟩ := mem_of_field found
  exact writable entry member

theorem freshnessFault_writable (today : Calendar.Date) {limit : Option AgeLimit}
    (limited : ∀ days, limit = some days → days.value.isWritable = true) {fault : DateFault}
    (faulty : frontmatter.freshnessFault? today limit = some fault) : fault.isWritable = true := by
  unfold freshnessFault? freshness at faulty
  cases found : frontmatter.field? freshnessField with
  | none =>
      obtain rfl : DateFault.missing = fault := by simpa [found] using faulty
      rfl
  | some value =>
      have shown := field_writable writable found
      rw [found] at faulty
      by_cases never : isNever value = true
      · simp [never] at faulty
      cases dated : dateOf? value with
      | none =>
          obtain rfl : DateFault.notDate value = fault := by simpa [never, dated] using faulty
          exact shown
      | some date =>
          simp only [never, dated, Bool.false_eq_true, if_false] at faulty
          split at faulty
          · obtain rfl := Option.some.inj faulty
            rfl
          · split at faulty
            · simp at faulty
            · next days =>
                split at faulty
                · obtain rfl := Option.some.inj faulty
                  exact limited days rfl
                · simp at faulty

theorem releaseFault_writable {fault : DateFault}
    (faulty : frontmatter.releaseFault? = some fault) : fault.isWritable = true := by
  unfold releaseFault? at faulty
  cases found : frontmatter.field? releaseField with
  | none =>
      obtain rfl : DateFault.missing = fault := by simpa [found] using faulty
      rfl
  | some value =>
      simp only [found] at faulty
      split at faulty
      · simp at faulty
      · obtain rfl := Option.some.inj faulty
        exact field_writable writable found

theorem freshnessMessage_ok (today : Calendar.Date) {limit : Option AgeLimit}
    (limited : ∀ days, limit = some days → days.value.isWritable = true) :
    ∃ message?, frontmatter.freshnessMessage? today limit = .ok message? := by
  unfold freshnessMessage?
  split
  · exact ⟨_, rfl⟩
  · cases faulty : frontmatter.freshnessFault? today limit with
    | none => exact ⟨none, rfl⟩
    | some fault =>
        obtain ⟨message, made⟩ := DateFault.message_ok freshnessField
          "date in the format YYYY-MM-DD or `never`"
          (freshnessFault_writable writable today limited faulty)
        exact ⟨some message, by rw [Option.mapM_some, made]; rfl⟩

theorem releaseMessage_ok : ∃ message?, frontmatter.releaseMessage? = .ok message? := by
  unfold releaseMessage?
  split
  · exact ⟨_, rfl⟩
  · cases faulty : frontmatter.releaseFault? with
    | none => exact ⟨none, rfl⟩
    | some fault =>
        obtain ⟨message, made⟩ := DateFault.message_ok releaseField "date in the format YYYY-MM-DD"
          (releaseFault_writable writable faulty)
        exact ⟨some message, by rw [Option.mapM_some, made]; rfl⟩

end

end Frontmatter

namespace Verification

theorem structureProblems_ok (text : Text) : ∃ problems, structureProblems text = .ok problems := by
  cases parsed : Document.parse text with
  | error error => exact ⟨_, by rw [structureProblems, parsed]⟩
  | ok tree =>
      obtain ⟨problems, checked⟩ := Rule.checkAll_ok (Document.placed_of_parse parsed) Rule.registry
      exact ⟨problems, by rw [structureProblems, parsed]; exact checked⟩

section

variable {config : Config} {today : Calendar.Date} {path : Path} {text : Text}

theorem problems_of_parts {frontmatter : Frontmatter}
    {ofStructure ofFreshness ofRelease : List Diagnostic}
    (structured : structureProblems text = .ok ofStructure)
    (read : Frontmatter.ofText text = .ok frontmatter)
    (fresh : freshnessProblems config today path frontmatter = .ok ofFreshness)
    (released : releaseProblems config path frontmatter = .ok ofRelease) :
    problems config today path text =
      .ok (ofStructure ++ frontmatterProblems frontmatter ++ ofFreshness ++ ofRelease) := by
  simp only [problems, structured, read, fresh, released, Except.mapError, bind, Except.bind]
  rfl

theorem verify_of_problems {files : Files} {found : List Diagnostic}
    (read : files.readText path = .ok text) (made : problems config today path text = .ok found) :
    verify files config today path = .ok ⟨path, found.map (·.withFile path.toText)⟩ := by
  simp only [verify, read, made, Except.mapError, bind, Except.bind]
  rfl

end

section

variable {config : Config}
  (limited : ∀ limit, config.ageLimit = some limit → limit.value.isWritable = true)
  (today : Calendar.Date) (path : Path)

include limited

theorem freshnessProblems_ok {frontmatter : Frontmatter}
    (writable : ∀ entry ∈ frontmatter.fields, entry.2.isWritable = true) :
    ∃ problems, freshnessProblems config today path frontmatter = .ok problems := by
  unfold freshnessProblems
  split
  · obtain ⟨message?, made⟩ := Frontmatter.freshnessMessage_ok writable today limited
    exact ⟨fieldProblems message?, by rw [made]; rfl⟩
  · exact ⟨[], rfl⟩

omit limited in
theorem releaseProblems_ok {frontmatter : Frontmatter}
    (writable : ∀ entry ∈ frontmatter.fields, entry.2.isWritable = true) :
    ∃ problems, releaseProblems config path frontmatter = .ok problems := by
  unfold releaseProblems
  split
  · obtain ⟨message?, made⟩ := Frontmatter.releaseMessage_ok writable
    exact ⟨fieldProblems message?, by rw [made]; rfl⟩
  · exact ⟨[], rfl⟩

theorem problems_ok {document : Text} (sound : Frontmatter.Sound document)
    (writable : Frontmatter.Writable document) :
    ∃ found, problems config today path document = .ok found := by
  obtain ⟨inStructure, structured⟩ := structureProblems_ok document
  obtain ⟨frontmatter, read, -⟩ := Frontmatter.ofText_ok sound
  obtain ⟨ofFreshness, fresh⟩ := freshnessProblems_ok limited today path (writable _ read)
  obtain ⟨ofRelease, released⟩ := @releaseProblems_ok config path frontmatter (writable _ read)
  exact ⟨_, problems_of_parts structured read fresh released⟩

theorem verify_ok {files : Files} {document : Text} (read : files.readText path = .ok document)
    (sound : Frontmatter.Sound document) (writable : Frontmatter.Writable document) :
    ∃ verdict, verify files config today path = .ok verdict ∧ verdict.path = path := by
  obtain ⟨found, made⟩ := problems_ok limited today path sound writable
  exact ⟨_, verify_of_problems read made, rfl⟩

omit limited in
theorem verify_misuse {files : Files} {document : Text} {fault : Yaml.Misuse}
    (read : files.readText path = .ok document) (misused : Frontmatter.ofText document = .error fault) :
    verify files config today path = .error (.misuse fault) := by
  obtain ⟨inStructure, structured⟩ := structureProblems_ok document
  have stopped : problems config today path document = .error (.misuse fault) := by
    rw [problems, structured, misused]
    rfl
  simp only [verify, read, Except.mapError, bind, Except.bind, stopped]

end

/-- Documents with sound frontmatter never end a run: each frontmatter has fields or a problem, and
each document gets its verdict, in the order of the paths. -/
theorem verifyAll_of_sound {files : Files} {config : Config} (today : Calendar.Date)
    {paths : List Path}
    (limited : ∀ limit, config.ageLimit = some limit → limit.value.isWritable = true)
    (documents : ∀ path ∈ paths, ∃ document, files.readText path = .ok document ∧
      Frontmatter.Sound document ∧ Frontmatter.Writable document) :
    (∀ document, Frontmatter.Sound document →
      ∃ frontmatter, Frontmatter.ofText document = .ok frontmatter ∧
        (frontmatter.problem = none ∨ frontmatter.fields = [])) ∧
    ∃ verdicts, verifyAll files config today paths = .ok verdicts ∧
      verdicts.map Verdict.path = paths := by
  refine ⟨fun document sound => Frontmatter.ofText_ok sound, ?_⟩
  induction paths with
  | nil => exact ⟨[], rfl, rfl⟩
  | cons path paths ih =>
      obtain ⟨document, read, sound, writable⟩ := documents path (by simp)
      obtain ⟨verdict, first, atPath⟩ := verify_ok limited today path read sound writable
      obtain ⟨verdicts, rest, inOrder⟩ := ih fun other member => documents other (by simp [member])
      refine ⟨verdict :: verdicts, ?_, by rw [List.map_cons, atPath, inOrder]⟩
      rw [verifyAll, first, rest]
      rfl

theorem verifyAll_of_sound_dated :
    ∃ (files : Files) (path : Path),
      files.readText path = .ok "---\na: !!timestamp 2024-01-02\n---\n" ∧
      ∀ today, ∃ verdicts, verifyAll files {} today [path] = .ok verdicts ∧
        verdicts.map Verdict.path = [path] := by
  let document : Text := "---\na: !!timestamp 2024-01-02\n---\n"
  let files := Files.empty.write (.ofText "a.mdx") (Text.encodeUtf8 document)
  have read : files.readText (.ofText "a.mdx") = .ok document := by decide +kernel
  have sound : Frontmatter.Sound document := by
    intro source found
    have block : Frontmatter.source? document = some "a: !!timestamp 2024-01-02".toList := by
      decide +kernel
    obtain rfl := Option.some.inj (block.symm.trans found)
    have form : Yaml.soleField? (Yaml.document? "a: !!timestamp 2024-01-02") =
        some (.timestamp, "2024-01-02".toList) := by
      decide +kernel
    obtain ⟨root, loaded, mapping⟩ := Yaml.exists_of_soleField? form
    refine ⟨fun code failed => ?_, fun other found => ?_⟩
    · exact absurd (loaded.symm.trans failed) (by simp)
    obtain rfl := Option.some.inj (Except.ok.inj (loaded.symm.trans found))
    obtain ⟨name, nameStart, start, mark, rfl⟩ := mapping
    refine .of_mapping ⟨?_, fun _ _ => trivial, fun _ _ _ => ?_⟩ fun entry member => ?_
    · rw [Yaml.Node.scalarText, Yaml.Node.textWithin, Yaml.Node.defaultText]
      simp [Yaml.Node.tag, Yaml.Node.defaultText]
    · simp [Yaml.Node.tag]
    · obtain rfl := List.mem_singleton.mp member
      exact ⟨.of_scalar trivial, .of_scalar ⟨⟨2024, 1, 2, true, none⟩, by decide⟩⟩
  have writable : Frontmatter.Writable document := by
    intro frontmatter loaded entry member
    have all : ((Frontmatter.ofText document).map fun frontmatter =>
        frontmatter.fields.all (·.2.isWritable)).toOption = some true := by
      decide +kernel
    rw [loaded] at all
    exact List.all_eq_true.mp (Option.some.inj all) entry member
  refine ⟨files, .ofText "a.mdx", read, fun today => ?_⟩
  have documents : ∀ path ∈ [Path.ofText "a.mdx"], ∃ document, files.readText path = .ok document ∧
      Frontmatter.Sound document ∧ Frontmatter.Writable document := by
    intro path member
    obtain rfl := List.mem_singleton.mp member
    exact ⟨document, read, sound, writable⟩
  exact (@verifyAll_of_sound files {} today _ (by simp) documents).2

/-- One document whose frontmatter misuses a type ends the run over all documents. -/
theorem verifyAll_misused :
    ∃ (files : Files) (path : Path) (document : Text),
      files.readText path = .ok document ∧
      (∀ frontmatter, Frontmatter.ofText document ≠ .ok frontmatter) ∧
      ∀ config today paths, ∃ failure,
        verifyAll files config today (path :: paths) = .error failure := by
  let document : Text := "---\na: !!timestamp x\n---\n"
  let files := Files.empty.write (.ofText "a.mdx") (Text.encodeUtf8 document)
  have read : files.readText (.ofText "a.mdx") = .ok document := by decide +kernel
  have stops : (Frontmatter.ofText document).isOk = false := by decide +kernel
  refine ⟨files, .ofText "a.mdx", document, read, fun frontmatter loaded => ?_,
    fun config today paths => ?_⟩
  · rw [loaded] at stops
    contradiction
  · cases misused : Frontmatter.ofText document with
    | ok frontmatter =>
        rw [misused] at stops
        contradiction
    | error fault =>
        refine ⟨.misuse fault, ?_⟩
        rw [verifyAll, verify_misuse today (.ofText "a.mdx") read misused]
        rfl

end Verification

end MdxCheck
