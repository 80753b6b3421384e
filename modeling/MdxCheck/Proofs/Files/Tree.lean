import MdxCheck.Files.Store
import Mathlib.Data.List.Induction
import Mathlib.Data.List.Nodup

/-!
Trees of files: each entry stands once in a directory of the tree. A path that goes down from a
directory leads to a file just if the file is one of those below the directory.
-/

namespace MdxCheck

namespace Path

/-- Whether names lead further down at each step, so that none of them leads back up. -/
def GoesDown (names : List Text) : Prop :=
  ['.', '.'] ∉ names

instance (names : List Text) : Decidable (GoesDown names) :=
  inferInstanceAs (Decidable (['.', '.'] ∉ names))

/-- Whether a file can have a name: it says something, does not lead up, and has no slash and no zero
character. -/
def IsName (name : Text) : Prop :=
  isIdle name = false ∧ name ≠ ['.', '.'] ∧ '/' ∉ name ∧ '\x00' ∉ name

instance : DecidablePred IsName := fun _ =>
  inferInstanceAs (Decidable (_ ∧ _ ∧ _ ∧ _))

/-- Whether the names of a path have no slashes. -/
def IsPlain (path : Path) : Prop :=
  ∀ name ∈ path.names, '/' ∉ name

theorem goesDown_of_isName {names : List Text} (named : ∀ name ∈ names, IsName name) :
    GoesDown names :=
  fun up => (named _ up).2.1 rfl

end Path

namespace Files

/-- Whether names lead to the root or to a directory below. -/
def HasDirectory (files : Files) (names : List Text) : Prop :=
  names = [] ∨ (names, .directory) ∈ files.entries

instance (files : Files) (names : List Text) : Decidable (files.HasDirectory names) :=
  inferInstanceAs (Decidable (names = [] ∨ (names, .directory) ∈ files.entries))

/-- What makes entries a tree: none is listed twice, each stands in a directory and has a name, and the
working directory is one of them or the root. -/
structure IsTree (files : Files) : Prop where
  once : (files.entries.map Prod.fst).Nodup
  rooted : ∀ names entry, (names, entry) ∈ files.entries →
    ∃ above name, names = above ++ [name] ∧ files.HasDirectory above
  named : ∀ names entry, (names, entry) ∈ files.entries → ∀ name ∈ names, Path.IsName name
  homed : files.HasDirectory files.home

theorem resolveFrom_append (files : Files) (names further : List Text) :
    ∀ here, files.resolveFrom here (names ++ further) =
      (files.resolveFrom here names).bind fun there => files.resolveFrom there further := by
  induction names with
  | nil =>
      intro here
      rfl
  | cons name names ih =>
      intro here
      simp only [List.cons_append, resolveFrom]
      split
      · rfl
      · rfl
      · split
        · exact ih _
        · exact ih _

theorem eq_append_of_resolveFrom {files : Files} {names : List Text} (down : Path.GoesDown names) :
    ∀ here there, files.resolveFrom here names = .ok there → there = here ++ names := by
  induction names with
  | nil =>
      intro here there resolved
      simpa [resolveFrom] using resolved.symm
  | cons name names ih =>
      intro here there resolved
      rw [Path.GoesDown, List.mem_cons, not_or] at down
      simp only [resolveFrom, Ne.symm down.1, ↓reduceIte] at resolved
      split at resolved
      · contradiction
      · contradiction
      · rw [ih down.2 _ _ resolved, List.append_assoc, List.singleton_append]

theorem isFile_iff {files : Files} {path : Path} :
    files.isFile path = true ↔ ∃ names bytes, files.resolve path = .ok (names, .file bytes) := by
  unfold isFile
  split
  · next names bytes found => simp [found]
  · next other =>
      simp only [Bool.false_eq_true, false_iff]
      rintro ⟨names, bytes, found⟩
      exact other names bytes found

theorem not_isDirectory_of_isFile {files : Files} {path : Path} (isFile : files.isFile path = true) :
    files.isDirectory path = false := by
  obtain ⟨names, bytes, found⟩ := isFile_iff.mp isFile
  simp [isDirectory, found]

theorem isDirectory_iff {files : Files} {path : Path} :
    files.isDirectory path = true ↔ ∃ names, files.resolve path = .ok (names, .directory) := by
  unfold isDirectory
  split
  · next names found => simp [found]
  · next other =>
      simp only [Bool.false_eq_true, false_iff]
      rintro ⟨names, found⟩
      exact other names found

theorem resolve_eq_ok_iff {files : Files} {path : Path} {names : List Text} {entry : Entry} :
    files.resolve path = .ok (names, entry) ↔
      (∀ name ∈ path.names, '\x00' ∉ name) ∧
        files.resolveFrom (files.startOf path) path.names = .ok names ∧
          files.entry? names = some entry := by
  have zero : (path.names.any fun name => name.any (· == '\x00')) = false ↔
      ∀ name ∈ path.names, '\x00' ∉ name := by
    simp
  unfold resolve
  cases hasZero : path.names.any fun name => name.any (· == '\x00') with
  | true =>
      have noName := mt zero.mpr (by simp [hasZero])
      simp [bind, Except.bind, throw, throwThe, MonadExceptOf.throw, noName]
  | false =>
      have named := zero.mp hasZero
      cases resolved : files.resolveFrom (files.startOf path) path.names with
      | error fault => simp [bind, Except.bind]
      | ok there =>
          simp only [bind, Except.bind, Bool.false_eq_true, ↓reduceIte, pure, Except.pure]
          cases found : files.entry? there with
          | none =>
              simp only [throw, throwThe, MonadExceptOf.throw, reduceCtorEq, false_iff, not_and,
                Except.ok.injEq]
              rintro - rfl
              simp [found]
          | some other =>
              simp only [Except.ok.injEq, Prod.mk.injEq]
              constructor
              · rintro ⟨rfl, rfl⟩
                exact ⟨named, rfl, found⟩
              · rintro ⟨-, rfl, again⟩
                rw [found] at again
                exact ⟨rfl, Option.some.inj again⟩

theorem startOf_append (files : Files) (path : Path) (way : List Text) :
    files.startOf { path with names := path.names ++ way } = files.startOf path :=
  rfl

theorem mem_namesBelow {files : Files} {directory way : List Text} :
    way ∈ files.namesBelow directory ↔
      ∃ bytes, (directory ++ way, .file bytes) ∈ files.entries := by
  rw [namesBelow, List.mem_filterMap]
  constructor
  · rintro ⟨⟨names, entry⟩, member, made⟩
    cases entry with
    | directory => simp at made
    | file bytes =>
        simp only [Option.ite_none_right_eq_some, Option.some.injEq, List.isPrefixOf_iff_prefix] at made
        obtain ⟨⟨rest, rfl⟩, rfl⟩ := made
        exact ⟨bytes, by simpa using member⟩
  · rintro ⟨bytes, member⟩
    exact ⟨_, member, by simp⟩

namespace IsTree

variable {files : Files} (tree : files.IsTree)

include tree

theorem entry?_eq_some_iff {names : List Text} (below : names ≠ []) {entry : Entry} :
    files.entry? names = some entry ↔ (names, entry) ∈ files.entries := by
  unfold entry?
  rw [if_neg (by simpa using below), List.lookup_eq_some_iff]
  constructor
  · rintro ⟨before, after, split, -⟩
    rw [split]
    simp
  · intro member
    obtain ⟨before, after, split⟩ := List.append_of_mem member
    refine ⟨before, after, split, fun other earlier => ?_⟩
    have once := tree.once
    rw [split, List.map_append, List.map_cons, List.nodup_append] at once
    rw [bne_iff_ne]
    exact Ne.symm (once.2.2 other.1 (List.mem_map_of_mem earlier) names (by simp))

theorem entry?_eq_directory_iff {names : List Text} :
    files.entry? names = some .directory ↔ files.HasDirectory names := by
  by_cases below : names = []
  · simp [below, entry?, HasDirectory]
  · simp [HasDirectory, below, tree.entry?_eq_some_iff below]

/-- What stands further down stands in directories all the way. -/
theorem directory_above {above : List Text} {name : Text} (further : List Text) :
    ∀ entry, (above ++ name :: further, entry) ∈ files.entries → files.HasDirectory above := by
  induction further using List.reverseRecOn with
  | nil =>
      intro entry member
      obtain ⟨others, last, same, directory⟩ := tree.rooted _ entry member
      obtain ⟨rfl, -⟩ := List.append_inj' same rfl
      exact directory
  | append_singleton further last ih =>
      intro entry member
      obtain ⟨others, name, same, directory⟩ := tree.rooted _ entry member
      rw [← List.cons_append, ← List.append_assoc] at same
      obtain ⟨rfl, -⟩ := List.append_inj' same rfl
      exact ih _ (directory.resolve_left (by simp))

theorem resolveFrom_of_mem {names : List Text} (down : Path.GoesDown names) :
    ∀ here entry, (here ++ names, entry) ∈ files.entries →
      files.resolveFrom here names = .ok (here ++ names) := by
  induction names with
  | nil =>
      intro here entry member
      simp [resolveFrom]
  | cons name names ih =>
      intro here entry member
      rw [Path.GoesDown, List.mem_cons, not_or] at down
      have directory := tree.entry?_eq_directory_iff.mpr (tree.directory_above names entry member)
      have later := ih down.2 (here ++ [name]) entry (by simpa using member)
      simp only [resolveFrom, directory, Ne.symm down.1, ↓reduceIte, later]
      simp

/-- The names on the way to an entry are names of the tree, unless they lead up. -/
theorem named_of_resolveFrom {names : List Text} :
    ∀ {here there entry}, files.resolveFrom here names = .ok there →
      files.entry? there = some entry →
        (∃ start, files.entry? here = some start) ∧
          ∀ name ∈ names, name = ['.', '.'] ∨ Path.IsName name := by
  induction names with
  | nil =>
      intro here there entry resolved found
      obtain rfl : here = there := by simpa [resolveFrom] using resolved
      exact ⟨⟨entry, found⟩, by simp⟩
  | cons name names ih =>
      intro here there entry resolved found
      simp only [resolveFrom] at resolved
      split at resolved
      · contradiction
      · contradiction
      · next start =>
          refine ⟨⟨_, start⟩, List.forall_mem_cons.mpr ?_⟩
          split at resolved
          · next up => exact ⟨.inl up, (ih resolved found).2⟩
          · obtain ⟨⟨below, next⟩, further⟩ := ih resolved found
            have member := (tree.entry?_eq_some_iff (by simp)).mp next
            exact ⟨.inr (tree.named _ _ member name (by simp)), further⟩

theorem isPlain_of_isFile {path : Path} (isFile : files.isFile path = true) : path.IsPlain := by
  obtain ⟨there, bytes, found⟩ := isFile_iff.mp isFile
  obtain ⟨-, resolved, entry⟩ := resolve_eq_ok_iff.mp found
  intro name member
  rcases (tree.named_of_resolveFrom resolved entry).2 name member with rfl | isName
  · decide
  · exact isName.2.2.1

/-- The files below a directory are those that ways down from there lead to. -/
theorem mem_filesBelow_iff {path : Path} {way : List Text} :
    way ∈ files.filesBelow path ↔
      files.isDirectory path = true ∧ Path.GoesDown way ∧
        files.isFile (path.append ⟨0, way⟩) = true := by
  have appended : path.append ⟨0, way⟩ = { path with names := path.names ++ way } := rfl
  rw [isDirectory_iff, isFile_iff, appended]
  constructor
  · intro member
    unfold filesBelow at member
    split at member
    · next here found =>
        obtain ⟨bytes, listed⟩ := mem_namesBelow.mp member
        obtain ⟨-, named⟩ := List.forall_mem_append.mp (tree.named _ _ listed)
        have down := Path.goesDown_of_isName named
        obtain ⟨pathNoZero, resolved, -⟩ := resolve_eq_ok_iff.mp found
        have below : here ++ way ≠ [] := by
          obtain ⟨above, name, same, -⟩ := tree.rooted _ _ listed
          simp [same]
        have entry := (tree.entry?_eq_some_iff below).mpr listed
        refine ⟨⟨here, found⟩, down, here ++ way, bytes, resolve_eq_ok_iff.mpr ⟨?_, ?_, entry⟩⟩
        · simp only [List.forall_mem_append]
          exact ⟨pathNoZero, fun name inside => (named name inside).2.2.2⟩
        · rw [resolveFrom_append, startOf_append, resolved]
          exact tree.resolveFrom_of_mem down here _ listed
    · simp at member
  · rintro ⟨⟨here, found⟩, down, there, bytes, reached⟩
    obtain ⟨-, resolved, -⟩ := resolve_eq_ok_iff.mp found
    obtain ⟨-, further, entry⟩ := resolve_eq_ok_iff.mp reached
    simp only [resolveFrom_append, startOf_append, resolved] at further
    obtain rfl := eq_append_of_resolveFrom down here there further
    have below : here ++ way ≠ [] := by
      intro none
      simp [none, entry?] at entry
    simp only [filesBelow, found]
    exact mem_namesBelow.mpr ⟨bytes, (tree.entry?_eq_some_iff below).mp entry⟩

end IsTree

/-! Trees that files are written into. -/

theorem mem_put {files : Files} {names other : List Text} {entry kept : Entry} :
    (other, kept) ∈ (files.put names entry).entries ↔
      (other, kept) ∈ files.entries ∧ other ≠ names ∨ other = names ∧ kept = entry := by
  simp [put]

namespace IsTree

variable {files : Files} (tree : files.IsTree)

include tree

theorem named_of_directory {names : List Text} (directory : files.HasDirectory names) :
    ∀ name ∈ names, Path.IsName name := by
  rcases directory with rfl | member
  · simp
  · exact tree.named names _ member

theorem directory_startOf (path : Path) : files.HasDirectory (files.startOf path) := by
  unfold startOf
  split
  · exact tree.homed
  · exact .inl rfl

/-- A new entry in a directory leaves a tree, unless it puts a file in the place of a directory. -/
theorem put {above : List Text} {name : Text} {entry : Entry} (directory : files.HasDirectory above)
    (isName : Path.IsName name)
    (free : entry = .directory ∨ ¬files.HasDirectory (above ++ [name])) :
    (files.put (above ++ [name]) entry).IsTree := by
  have kept {names : List Text} (stands : files.HasDirectory names) :
      (files.put (above ++ [name]) entry).HasDirectory names := by
    rcases stands with rfl | member
    · exact .inl rfl
    · refine .inr (mem_put.mpr ?_)
      by_cases same : names = above ++ [name]
      · subst same
        exact .inr ⟨rfl, (free.resolve_right (not_not_intro (.inr member))).symm⟩
      · exact .inl ⟨member, same⟩
  constructor
  case once =>
    rw [Files.put, List.map_append, List.nodup_append]
    refine ⟨(List.filter_sublist.map Prod.fst).nodup tree.once, by simp, ?_⟩
    intro other before names last
    obtain ⟨earlier, listed, rfl⟩ := List.mem_map.mp before
    obtain rfl : names = above ++ [name] := by simpa using last
    simpa using (List.mem_filter.mp listed).2
  case rooted =>
    intro names other member
    rcases mem_put.mp member with ⟨before, -⟩ | ⟨rfl, -⟩
    · obtain ⟨front, last, same, stands⟩ := tree.rooted names other before
      exact ⟨front, last, same, kept stands⟩
    · exact ⟨above, name, rfl, kept directory⟩
  case named =>
    intro names other member
    rcases mem_put.mp member with ⟨before, -⟩ | ⟨rfl, -⟩
    · exact tree.named names other before
    · exact List.forall_mem_append.mpr ⟨tree.named_of_directory directory, by simpa using isName⟩
  case homed => exact kept tree.homed

end IsTree

/-- Whether no file stands on the way that names lead. -/
def IsFreeAlong (files : Files) (names : List Text) : Prop :=
  ∀ entry ∈ files.entries, entry.1 <+: names → entry.2 = .directory

instance (files : Files) (names : List Text) : Decidable (files.IsFreeAlong names) :=
  inferInstanceAs (Decidable (∀ entry ∈ files.entries, entry.1 <+: names → entry.2 = .directory))

theorem withDirectories_concat (files : Files) (front : List Text) (last : Text) :
    files.withDirectories (front ++ [last]) =
      if (Files.entry? (files.withDirectories front) (front ++ [last])).isSome then
        files.withDirectories front
      else (files.withDirectories front).put (front ++ [last]) .directory := by
  have within : ∀ count ∈ List.range front.length,
      (front ++ [last]).take (count + 1) = front.take (count + 1) := by
    intro count member
    exact List.take_append_of_le_length (List.mem_range.mp member)
  have whole : (front ++ [last]).take (front.length + 1) = front ++ [last] :=
    List.take_of_length_le (by simp)
  unfold withDirectories
  rw [List.length_append, List.length_singleton, List.range_succ, List.foldl_append, List.foldl_cons,
    List.foldl_nil, whole]
  simp only
  rw [List.foldl_ext _ _ files fun made count member => by rw [within count member]]

namespace IsTree

variable {files : Files} (tree : files.IsTree)

include tree

/-- Directories are made along the names; what has more names stays as it is. -/
theorem withDirectories {names : List Text} (named : ∀ name ∈ names, Path.IsName name)
    (free : files.IsFreeAlong names) :
    (files.withDirectories names).IsTree ∧ (files.withDirectories names).HasDirectory names ∧
      ∀ other entry, names.length < other.length →
        ((other, entry) ∈ (files.withDirectories names).entries ↔ (other, entry) ∈ files.entries) := by
  induction names using List.reverseRecOn with
  | nil => exact ⟨tree, .inl rfl, fun _ _ _ => Iff.rfl⟩
  | append_singleton front last ih =>
      rw [List.forall_mem_append, List.forall_mem_singleton] at named
      obtain ⟨made, directory, longer⟩ := ih named.1 fun entry member before =>
        free entry member (before.trans (List.prefix_append _ _))
      rw [withDirectories_concat]
      split
      · next stands =>
          obtain ⟨entry, found⟩ := Option.isSome_iff_exists.mp stands
          have member := (made.entry?_eq_some_iff (by simp)).mp found
          have isDirectory := free _ ((longer _ entry (by simp)).mp member) (List.prefix_refl _)
          refine ⟨made, .inr ?_, fun other entry more => longer other entry ?_⟩
          · rw [← show entry = .directory from isDirectory]
            exact member
          · rw [List.length_append] at more
            omega
      · refine ⟨made.put directory named.2 (.inl rfl),
          .inr (mem_put.mpr (.inr ⟨rfl, rfl⟩)), fun other entry more => ?_⟩
        have different : other ≠ front ++ [last] := by
          rintro rfl
          exact Nat.lt_irrefl _ more
        rw [List.length_append] at more
        rw [mem_put, longer other entry (by omega)]
        simp [different]

/-- A tree stays one when a file is written, unless a file stands on the way or a directory at its end. -/
theorem write {path : Path} (front : List Text) (last : Text) (names : path.names = front ++ [last])
    (named : ∀ name ∈ path.names, Path.IsName name)
    (free : files.IsFreeAlong (files.startOf path ++ front))
    (noDirectory : ¬files.HasDirectory (files.placeOf path))
    (bytes : List Nat) : (files.write path bytes).IsTree := by
  have place : files.placeOf path = files.startOf path ++ front ++ [last] := by
    rw [placeOf, names, List.append_assoc]
  rw [names, List.forall_mem_append, List.forall_mem_singleton] at named
  rw [place] at noDirectory
  have start := tree.named_of_directory (tree.directory_startOf path)
  obtain ⟨made, directory, longer⟩ :=
    tree.withDirectories (List.forall_mem_append.mpr ⟨start, named.1⟩) free
  have above : files.placeOf path.parent = files.startOf path ++ front := by
    simp [placeOf, startOf, Path.parent, names]
  rw [Files.write, above, place]
  refine made.put directory named.2 (.inr ?_)
  rintro (none | member)
  · simp at none
  · exact noDirectory (.inr ((longer _ _ (by simp)).mp member))

end IsTree

theorem isTree_inDirectory {home : List Text} (named : ∀ name ∈ home, Path.IsName name) :
    (inDirectory home).IsTree := by
  have root : Files.IsTree ⟨[], []⟩ := ⟨.nil, by simp, by simp, .inl rfl⟩
  obtain ⟨made, directory, -⟩ := root.withDirectories named (by simp [IsFreeAlong])
  exact ⟨made.once, made.rooted, made.named, directory⟩

theorem isTree_empty : empty.IsTree :=
  isTree_inDirectory (by decide)

end Files

end MdxCheck
