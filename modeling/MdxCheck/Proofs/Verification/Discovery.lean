import MdxCheck.Proofs.Files.Tree
import MdxCheck.Proofs.Rule.Identifiers
import MdxCheck.Verification.Discovery

/-!
The documents under some paths: each of them once, in the order of the paths.
-/

namespace MdxCheck

theorem Text.rowBefore_iff_lt (first second : List Text) :
    Text.rowBefore first second = true ↔ first < second := by
  induction first generalizing second with
  | nil => cases second <;> simp [Text.rowBefore]
  | cons text first ih =>
      cases second with
      | nil => simp [Text.rowBefore]
      | cons other second =>
          rw [Text.rowBefore, List.cons_lt_cons_iff]
          split
          · next same => simp [same, ih]
          · next different => simp [different, Text.before_iff_lt]

namespace Path

theorem before_iff_lt (path other : Path) : path.before other = true ↔ path.parts < other.parts := by
  rw [before, Text.rowBefore_iff_lt]

/-- What stands first in a path tells its slashes, as no name has any. -/
theorem IsPlain.eq_of_parts {path other : Path} (plain : path.IsPlain) (otherPlain : other.IsPlain)
    (same : path.parts = other.parts) : path = other := by
  obtain ⟨slashes, names⟩ := path
  obtain ⟨otherSlashes, otherNames⟩ := other
  have slash {count : Nat} (some : count ≠ 0) : '/' ∈ List.replicate count '/' := by
    simp [some]
  by_cases relative : slashes = 0 <;> by_cases otherRelative : otherSlashes = 0 <;>
    simp only [parts, relative, otherRelative, ↓reduceIte] at same
  · rw [relative, otherRelative, same]
  · subst same
    exact absurd (slash otherRelative) (plain _ (by simp))
  · subst same
    exact absurd (slash relative) (otherPlain _ (by simp))
  · obtain ⟨start, rfl⟩ := List.cons.inj same
    rw [List.replicate_inj] at start
    rw [start.1]

instance : Std.Irrefl fun path other : Path => path.parts < other.parts :=
  ⟨fun path => lt_irrefl path.parts⟩

instance : Std.Antisymm fun path other : Path => path.parts < other.parts :=
  ⟨fun _ _ less more => absurd less (lt_asymm more)⟩

end Path

namespace Verification

theorem inserts_insertPath : Inserts Path.IsPlain Path.parts insertPath where
  injective _ _ := Path.IsPlain.eq_of_parts
  empty _ := rfl
  same path paths := by simp [insertPath]
  earlier path other paths less := by
    have before := (path.before_iff_lt other).mpr less
    have different : path ≠ other := fun same => absurd less (same ▸ lt_irrefl _)
    simp [insertPath, different, before]
  later path other paths less := by
    have notBefore : ¬path.before other = true := by
      rw [Path.before_iff_lt]
      exact lt_asymm less
    have different : path ≠ other := fun same => absurd less (same ▸ lt_irrefl _)
    simp [insertPath, different, notBefore]

theorem foldl_insertPath (found paths : List Path) (foundPlain : ∀ path ∈ found, path.IsPlain)
    (plain : ∀ path ∈ paths, path.IsPlain)
    (inOrder : found.Pairwise fun first second => first.parts < second.parts) :
    let all := paths.foldl (fun found path => insertPath path found) found
    (all.Pairwise fun first second => first.parts < second.parts) ∧
      ∀ path, path ∈ all ↔ path ∈ found ∨ path ∈ paths := by
  induction paths generalizing found with
  | nil => exact ⟨inOrder, by simp⟩
  | cons first rest ih =>
      obtain ⟨firstPlain, restPlain⟩ := List.forall_mem_cons.mp plain
      have inserted {path : Path} : path ∈ insertPath first found ↔ path = first ∨ path ∈ found :=
        inserts_insertPath.mem_iff firstPlain foundPlain
      have nowPlain : ∀ path ∈ insertPath first found, path.IsPlain := by
        intro path member
        rcases inserted.mp member with rfl | before
        · exact firstPlain
        · exact foundPlain path before
      obtain ⟨allInOrder, members⟩ :=
        ih _ nowPlain restPlain (inserts_insertPath.ordered firstPlain foundPlain inOrder)
      refine ⟨allInOrder, fun path => ?_⟩
      rw [List.foldl_cons, members, inserted, List.mem_cons]
      tauto

/-- The documents that some given paths lead to: a given file, whatever it is called, and below a given
directory a file with a suffix of documents that no directory on the way down leaves out. -/
inductive LeadsTo (files : Files) (config : Config) (given : List Path) : Path → Prop
  | itself {path} : path ∈ given → files.isFile path = true → LeadsTo files config given path
  | below {directory : Path} {way : List Text} : directory ∈ given →
      files.isDirectory directory = true → Path.GoesDown way →
      files.isFile (directory.append ⟨0, way⟩) = true →
      (directory.append ⟨0, way⟩).suffix ∈ config.extensions →
      (∀ name ∈ way.dropLast, name ∉ config.exclusions) →
      LeadsTo files config given (directory.append ⟨0, way⟩)

theorem LeadsTo.isFile {files : Files} {config : Config} {given : List Path} {path : Path}
    (leads : LeadsTo files config given path) : files.isFile path = true := by
  cases leads with
  | itself _ isFile => exact isFile
  | below _ _ _ isFile _ _ => exact isFile

theorem isDocument_iff {config : Config} {directory : Path} {way : List Text} (nonempty : way ≠ []) :
    isDocument config way = true ↔
      (directory.append ⟨0, way⟩).suffix ∈ config.extensions ∧
        ∀ name ∈ way.dropLast, name ∉ config.exclusions := by
  obtain ⟨front, last, rfl⟩ := (List.eq_nil_or_concat way).resolve_left nonempty
  simp [isDocument, Path.suffix, Path.name, Path.append]

theorem leadsTo_iff_exists {files : Files} {config : Config} {given : List Path} {path : Path} :
    LeadsTo files config given path ↔ ∃ start ∈ given, LeadsTo files config [start] path := by
  constructor
  · intro leads
    cases leads with
    | itself member isFile => exact ⟨path, member, .itself (by simp) isFile⟩
    | below member isDirectory down isFile suffix kept =>
        exact ⟨_, member, .below (by simp) isDirectory down isFile suffix kept⟩
  · rintro ⟨start, member, leads⟩
    cases leads with
    | itself same isFile =>
        obtain rfl := List.mem_singleton.mp same
        exact .itself member isFile
    | below same isDirectory down isFile suffix kept =>
        obtain rfl := List.mem_singleton.mp same
        exact .below member isDirectory down isFile suffix kept

section

variable {files : Files} (tree : files.IsTree) (config : Config)

include tree

theorem mem_documentsUnder_iff {given path : Path} :
    path ∈ documentsUnder files config given ↔ LeadsTo files config [given] path := by
  have wayOn {way : List Text} (isDirectory : files.isDirectory given = true)
      (isFile : files.isFile (given.append ⟨0, way⟩) = true) : way ≠ [] := by
    rintro rfl
    have same : given.append ⟨0, []⟩ = given := by simp [Path.append]
    rw [same] at isFile
    rw [Files.not_isDirectory_of_isFile isFile] at isDirectory
    contradiction
  unfold documentsUnder
  split
  · next isFile =>
      rw [List.mem_singleton]
      constructor
      · rintro rfl
        exact .itself (by simp) isFile
      · intro leads
        cases leads with
        | itself member => exact List.mem_singleton.mp member
        | below member isDirectory =>
            obtain rfl := List.mem_singleton.mp member
            rw [Files.not_isDirectory_of_isFile isFile] at isDirectory
            contradiction
  · next noFile =>
      rw [List.mem_map]
      constructor
      · rintro ⟨way, member, rfl⟩
        obtain ⟨below, wanted⟩ := List.mem_filter.mp member
        obtain ⟨isDirectory, down, isFile⟩ := tree.mem_filesBelow_iff.mp below
        obtain ⟨suffix, kept⟩ := (isDocument_iff (wayOn isDirectory isFile)).mp wanted
        exact .below (by simp) isDirectory down isFile suffix kept
      · intro leads
        cases leads with
        | itself member isFile =>
            obtain rfl := List.mem_singleton.mp member
            exact absurd isFile noFile
        | @below directory way member isDirectory down isFile suffix kept =>
            obtain rfl := List.mem_singleton.mp member
            have below := tree.mem_filesBelow_iff.mpr ⟨isDirectory, down, isFile⟩
            have wanted := (isDocument_iff (wayOn isDirectory isFile)).mpr ⟨suffix, kept⟩
            exact ⟨way, List.mem_filter.mpr ⟨below, wanted⟩, rfl⟩

/-- The documents are those that the given paths lead to, in order. -/
theorem discover_spec (given : List Path) :
    ((discover files config given).Pairwise fun first second => first.parts < second.parts) ∧
      ∀ path, path ∈ discover files config given ↔ LeadsTo files config given path := by
  have under {path : Path} : path ∈ given.flatMap (documentsUnder files config) ↔
      LeadsTo files config given path := by
    rw [List.mem_flatMap, leadsTo_iff_exists]
    exact exists_congr fun start => and_congr_right fun _ => mem_documentsUnder_iff tree config
  have plain : ∀ path ∈ given.flatMap (documentsUnder files config), path.IsPlain :=
    fun path member => tree.isPlain_of_isFile (under.mp member).isFile
  obtain ⟨inOrder, members⟩ := foldl_insertPath [] _ (by simp) plain .nil
  refine ⟨inOrder, fun path => (members path).trans ?_⟩
  simpa using under

/-- The documents that are found are those that the given paths lead to, in the order of the paths and each
of them once. So it does not matter in which order and how often paths are given, more paths add their
documents, and what is found for the documents found is the same again. -/
theorem discover_exact (paths others : List Path) :
    let found := discover files config
    ((found paths).Pairwise fun first second => first.parts < second.parts) ∧
      (∀ path, path ∈ found paths ↔ LeadsTo files config paths path) ∧
      ((∀ path, path ∈ paths ↔ path ∈ others) → found paths = found others) ∧
      (∀ path, path ∈ found (paths ++ others) ↔ path ∈ found paths ∨ path ∈ found others) ∧
      found (found paths) = found paths := by
  have inOrder (given : List Path) := (discover_spec tree config given).1
  have members (given : List Path) := (discover_spec tree config given).2
  refine ⟨inOrder paths, members paths, fun same => ?_, fun path => ?_, ?_⟩
  · refine (inOrder paths).eq_of_mem_iff (inOrder others) fun path => ?_
    rw [members, members, leadsTo_iff_exists, leadsTo_iff_exists]
    simp only [same]
  · simp only [members]
    rw [leadsTo_iff_exists, leadsTo_iff_exists, leadsTo_iff_exists]
    simp only [List.mem_append, or_and_right, exists_or]
  · refine (inOrder _).eq_of_mem_iff (inOrder paths) fun path => ?_
    -- all that is found are files, and a given file leads to itself only
    rw [members]
    constructor
    · intro leads
      cases leads with
      | itself member => exact member
      | below member isDirectory =>
          have isFile := ((members paths _).mp member).isFile
          rw [Files.not_isDirectory_of_isFile isFile] at isDirectory
          contradiction
    · intro member
      exact .itself member ((members paths path).mp member).isFile

end

/-- A directory that is left out below another is searched if it is given itself. Paths that start at the
root or lead up from the working directory stay as they are given. -/
theorem discover_exact_overlapping :
    ∃ (files : Files) (paths : List Path), files.IsTree ∧
      paths = [.ofText "notes.txt", .ofText "/work/docs/vendor/.git", .ofText "docs", .ofText "../lib",
        .ofText "docs"] ∧
      discover files {} paths = [.ofText "../lib/c.mdx", .ofText "/work/docs/vendor/.git/b.mdx",
        .ofText "docs/a.md", .ofText "notes.txt"] ∧
      LeadsTo files {} paths (.ofText "/work/docs/vendor/.git/b.mdx") ∧
      ¬LeadsTo files {} [.ofText "docs"] (.ofText "docs/vendor/.git/b.mdx") ∧
      discover files {} (discover files {} paths) = discover files {} paths := by
  let first := Files.empty.write (.ofText "docs/a.md") []
  let second := first.write (.ofText "docs/vendor/.git/b.mdx") []
  let third := second.write (.ofText "/lib/c.mdx") []
  let files := third.write (.ofText "notes.txt") []
  let paths : List Path := [.ofText "notes.txt", .ofText "/work/docs/vendor/.git", .ofText "docs",
    .ofText "../lib", .ofText "docs"]
  have isFirst : first.IsTree :=
    Files.isTree_empty.write ["docs"] "a.md" (by decide) (by decide) (by decide) (by decide) []
  have isSecond : second.IsTree :=
    isFirst.write ["docs", "vendor", ".git"] "b.mdx" (by decide) (by decide) (by decide) (by decide) []
  have isThird : third.IsTree :=
    isSecond.write ["lib"] "c.mdx" (by decide) (by decide) (by decide) (by decide) []
  have tree : files.IsTree :=
    isThird.write [] "notes.txt" (by decide) (by decide) (by decide) (by decide) []
  obtain ⟨-, members, -, -, again⟩ := discover_exact tree {} paths []
  have onlyDocs := (discover_exact tree {} [.ofText "docs"] []).2.1
  refine ⟨files, paths, tree, rfl, by decide +kernel, (members _).mp (by decide +kernel), ?_, again⟩
  rw [← onlyDocs]
  decide +kernel

end Verification

end MdxCheck
