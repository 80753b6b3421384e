import MdxCheck.Frontmatter.Scope
import MdxCheck.Proofs.Pattern.Search
import MdxCheck.Proofs.Text.Join
import Mathlib.Data.List.Basic

/-!
The pages that need the day of a release, by the names on the way to them.

The pattern for their paths looks at characters, not at names: a directory whose name merely starts
like that for translations is taken for it, and a page whose stem merely ends like that of an index
page is taken for one.
-/

namespace MdxCheck

open Pattern

theorem Path.toText_ofText_join {names : List Text} (nonempty : names ≠ [])
    (free : ∀ name ∈ names, '/' ∉ name) (kept : ∀ name ∈ names, isIdle name = false) :
    (ofText (Text.join ['/'] names)).toText = Text.join ['/'] names := by
  obtain ⟨c, rest, whole, noSlash⟩ : ∃ c rest, Text.join ['/'] names = c :: rest ∧ c ≠ '/' := by
    obtain ⟨name, others, rfl⟩ := List.exists_cons_of_ne_nil nonempty
    obtain ⟨c, rest, rfl⟩ : ∃ c rest, name = c :: rest := by
      apply List.exists_cons_of_ne_nil
      rintro rfl
      exact absurd (kept [] List.mem_cons_self) (by decide)
    have noSlash : c ≠ '/' := by
      rintro rfl
      exact free _ List.mem_cons_self List.mem_cons_self
    cases others with
    | nil => exact ⟨c, rest, Text.join_singleton _ _, noSlash⟩
    | cons next others => exact ⟨c, _, Text.join_cons_cons _ _ _ _, noSlash⟩
  have all : (Text.splitOn (· == '/') (Text.join ['/'] names)).filter (!isIdle ·) = names := by
    rw [Text.splitOn_join nonempty free, List.filter_eq_self]
    simpa using kept
  have relative : (Text.join ['/'] names).takeWhile (· == '/') = [] := by
    simp [whole, noSlash]
  rw [ofText, all, relative]
  simp [toText, whole]

namespace Frontmatter

def releaseDirectories : List Text :=
  ([ "security-bulletins", "release-notes", "whats-new" ] : List String).map String.toList

def pageEndings : List Text :=
  ([ ".mdx", ".md" ] : List String).map String.toList

/-- Whether names lead from the sources, past what is no translation, to a directory for releases.
Names that end like the one for sources count as it, and names that start like the one for
translations as this one. -/
def leadsToRelease : List Text → Bool
  | sources :: inside :: further =>
    ("src".toList.isSuffixOf sources && !"i18n".toList.isPrefixOf inside &&
      further.any (releaseDirectories.contains ·)) || leadsToRelease (inside :: further)
  | _ => false

theorem leadsToRelease_iff {names : List Text} : leadsToRelease names = true ↔
    ∃ before sources inside between directory after,
      names = before ++ sources :: inside :: (between ++ directory :: after) ∧
        "src".toList <:+ sources ∧ ¬"i18n".toList <+: inside ∧ directory ∈ releaseDirectories := by
  fun_induction leadsToRelease names with
  | case1 sources inside further ih =>
      simp only [Bool.or_eq_true, Bool.and_eq_true, Bool.not_eq_true', List.isSuffixOf_iff_suffix,
        Bool.eq_false_iff, ne_eq, List.isPrefixOf_iff_prefix, List.any_eq_true, ih,
        List.contains_iff_mem]
      constructor
      · rintro (⟨⟨ends, starts⟩, directory, member, release⟩ | ⟨before, later⟩)
        · obtain ⟨between, after, rfl⟩ := List.append_of_mem member
          exact ⟨[], sources, inside, between, directory, after, rfl, ends, starts, release⟩
        · obtain ⟨first, next, between, directory, after, same, holds⟩ := later
          exact ⟨sources :: before, first, next, between, directory, after,
            congrArg (sources :: ·) same, holds⟩
      · rintro ⟨before, first, next, between, directory, after, same, ends, starts, release⟩
        cases before with
        | nil =>
            obtain ⟨rfl, rest⟩ := List.cons.inj same
            obtain ⟨rfl, rfl⟩ := List.cons.inj rest
            exact .inl ⟨⟨ends, starts⟩, directory, by simp, release⟩
        | cons name before =>
            exact .inr ⟨before, first, next, between, directory, after, (List.cons.inj same).2,
              ends, starts, release⟩
  | case2 names short =>
      simp only [Bool.false_eq_true, false_iff, not_exists, not_and]
      rintro before sources inside between directory after rfl - -
      cases before with
      | nil => exact absurd rfl (short _ _ _)
      | cons name before => cases before <;> exact absurd rfl (short _ _ _)

/-- The slashes that the pattern asks for stand between names, so the characters in front of the
first one end a name, and those behind it start one. -/
theorem leadsToRelease_join {names : List Text} {stem : Text}
    (free : ∀ name ∈ names ++ [stem], '/' ∉ name) :
    leadsToRelease names = true ↔ ∃ front between directory below,
      Text.join ['/'] (names ++ [stem]) =
        (front ++ "src".toList) ++ '/' :: (between ++ '/' :: (directory ++ '/' :: below)) ∧
      ¬"i18n".toList <+: between ∧ directory ∈ releaseDirectories := by
  have source : '/' ∉ "src".toList := by decide
  have translation : '/' ∉ "i18n".toList := by decide
  have undivided : ∀ directory ∈ releaseDirectories, '/' ∉ directory := by decide
  rw [leadsToRelease_iff]
  constructor
  · rintro ⟨before, sources, inside, between, directory, after, rfl, ends, starts, release⟩
    obtain ⟨front, toSources⟩ := (Text.suffix_join source).mpr ends
    have split : before ++ sources :: inside :: (between ++ directory :: after) ++ [stem] =
        (before ++ [sources]) ++ ((inside :: between) ++ ([directory] ++ (after ++ [stem]))) := by
      simp
    refine ⟨front, Text.join ['/'] (inside :: between), directory,
      Text.join ['/'] (after ++ [stem]), ?_,
      fun same => starts ((Text.prefix_join translation).mp same), release⟩
    rw [split, Text.join_append (by simp) (by simp), ← toSources,
      Text.join_append (by simp) (by simp), Text.join_append (by simp) (by simp),
      Text.join_singleton]
    rfl
  · rintro ⟨front, between, directory, below, same, starts, release⟩
    rw [Text.join_eq_iff (by simp) free, Text.splitOn_append, Text.splitOn_append,
      Text.splitOn_append, Text.splitOn_of_not_mem (undivided directory release)] at same
    obtain ⟨before, sources, toSources⟩ :=
      Text.exists_splitOn_eq_concat (· == '/') (front ++ "src".toList)
    obtain ⟨inside, others, past⟩ :=
      List.exists_cons_of_ne_nil (Text.splitOn_ne_nil (· == '/') between)
    obtain ⟨after, last, toPage⟩ := Text.exists_splitOn_eq_concat (· == '/') below
    have split : names ++ [stem] =
        (before ++ sources :: inside :: (others ++ directory :: after)) ++ [last] := by
      rw [toSources, past, toPage] at same
      simpa using same
    refine ⟨before, sources, inside, others, directory, after, (List.append_inj' split rfl).1, ?_,
      fun same => starts ?_, release⟩
    · rw [← Text.suffix_join source, ← toSources, Text.join_splitOn]
      exact List.suffix_append front _
    · rw [← Text.join_splitOn '/' between, past, Text.prefix_join translation]
      exact same

theorem ofText_releaseSource : Pattern.ofText releaseSource = .ok releasePattern := by
  decide +kernel

section Matches

variable {front inside back : Text} {number : Nat}

theorem matches_directory :
    (group number (either (literal "/security-bulletins/")
      (either (literal "/release-notes/") (literal "/whats-new/")))).Matches front inside back ↔
        ∃ directory ∈ releaseDirectories, inside = '/' :: directory ++ ['/'] := by
  simp only [Matches, matches_literal, releaseDirectories]
  simp

theorem matches_ending :
    (group number (either (literal ".mdx") (literal ".md"))).Matches front inside back ↔
      inside ∈ pageEndings := by
  simp only [Matches, matches_literal, pageEndings]
  simp

theorem matches_releasePattern :
    releasePattern.Matches front inside back ↔ ∃ between directory below ending,
      inside = "src/".toList ++ (between ++ (('/' :: directory ++ ['/']) ++ (below ++ ending))) ∧
        ¬"i18n".toList <+: between ++ (('/' :: directory ++ ['/']) ++ (below ++ ending)) ++ back ∧
        (∀ c ∈ between, c ≠ '\n') ∧ directory ∈ releaseDirectories ∧ (∀ c ∈ below, c ≠ '\n') ∧
        ¬"index".toList <:+
          front ++ "src/".toList ++ between ++ ('/' :: directory ++ ['/']) ++ below ∧
        ending ∈ pageEndings ∧ (back = [] ∨ back = ['\n']) := by
  have stops {before after : Text} : (row []).Matches before after back ↔ after = [] := Iff.rfl
  simp only [releasePattern, matches_row_characters, matches_row_cons, matches_ahead_literal,
    matches_behind_literal, matches_lastLineStop, matches_repeated_one, Letters.accepts_all_false,
    matches_directory, matches_ending, stops]
  constructor
  · rintro ⟨_, rfl, _, _, rfl, ⟨rfl, starts⟩, between, _, rfl, line, _, _, rfl,
      ⟨directory, release, rfl⟩, below, _, rfl, name, _, _, rfl, ⟨rfl, ends⟩, ending, _, rfl, page,
      _, _, rfl, ⟨rfl, stop⟩, rfl⟩
    exact ⟨between, directory, below, ending, by simp, by simpa using starts, line, release, name,
      by simpa using ends, page, by simpa using stop⟩
  · rintro ⟨between, directory, below, ending, rfl, starts, line, release, name, ends, page, stop⟩
    exact ⟨_, rfl, [], _, rfl, ⟨rfl, starts⟩, between, _, rfl, line, _, _, rfl,
      ⟨directory, release, rfl⟩, below, _, rfl, name, [], _, rfl, ⟨rfl, by simpa using ends⟩,
      ending, [], by simp, page, [], [], rfl, ⟨rfl, by simpa using stop⟩, rfl⟩

theorem isFoundIn_releasePattern {text : Text} (noFeed : '\n' ∉ text) :
    releasePattern.isFoundIn text = true ↔ ∃ body ending, text = body ++ ending ∧
      ending ∈ pageEndings ∧ ¬"index".toList <:+ body ∧ ∃ front between directory below,
        body = (front ++ "src".toList) ++ '/' :: (between ++ '/' :: (directory ++ '/' :: below)) ∧
        ¬"i18n".toList <+: between ∧ directory ∈ releaseDirectories := by
  have translation : '/' ∉ "i18n".toList := by decide
  have line {part : Text} (within : ∀ c ∈ part, c ∈ text) : ∀ c ∈ part, c ≠ '\n' := by
    rintro _ member rfl
    exact noFeed (within _ member)
  rw [isFoundIn_iff (by decide)]
  simp only [matches_releasePattern]
  constructor
  · rintro ⟨front, inside, rest, rfl, between, directory, below, ending, rfl, starts, -, release, -,
      ends, page, stop⟩
    obtain rfl : rest = [] := stop.resolve_right fun feed => noFeed (by simp [feed])
    refine ⟨_, ending, by simp, page, ends, front, between, directory, below, by simp, ?_, release⟩
    rw [← Text.prefix_append_cons translation]
    simpa using starts
  · rintro ⟨_, ending, rfl, page, ends, front, between, directory, below, rfl, starts, release⟩
    refine ⟨front, _, [], by simp, between, directory, below, ending, rfl, ?_,
      line (by simp +contextual), release, line (by simp +contextual), by simpa using ends, page,
      .inl rfl⟩
    rw [← Text.prefix_append_cons translation] at starts
    simpa using starts

end Matches

theorem eq_of_append_ending {body other ending page : Text} (isEnding : ending ∈ pageEndings)
    (isPage : page ∈ pageEndings) (same : body ++ ending = other ++ page) : body = other := by
  have last : ending.getLast? = page.getLast? := by
    have nonempty : ∀ ending ∈ pageEndings, ending ≠ [] := by decide
    have last := congrArg List.getLast? same
    rwa [List.getLast?_append_of_ne_nil _ (nonempty _ isEnding),
      List.getLast?_append_of_ne_nil _ (nonempty _ isPage)] at last
  have told : ∀ ending ∈ pageEndings, ∀ page ∈ pageEndings,
      ending.getLast? = page.getLast? → ending = page := by decide
  obtain rfl := told ending isEnding page isPage last
  exact List.append_cancel_right same

theorem isFoundIn_join {names : List Text} {stem ending : Text}
    (free : ∀ name ∈ names ++ [stem], '/' ∉ name) (line : ∀ name ∈ names ++ [stem], '\n' ∉ name)
    (page : ending ∈ pageEndings) :
    releasePattern.isFoundIn (Text.join ['/'] (names ++ [stem]) ++ ending) = true ↔
      ¬"index".toList <:+ stem ∧ leadsToRelease names = true := by
  have index : '/' ∉ "index".toList := by decide
  have endings : ∀ ending ∈ pageEndings, '\n' ∉ ending := by decide
  have noFeed : '\n' ∉ Text.join ['/'] (names ++ [stem]) ++ ending := by
    rw [List.mem_append, not_or]
    exact ⟨Text.not_mem_join (by decide) line, endings ending page⟩
  rw [isFoundIn_releasePattern noFeed, leadsToRelease_join free, ← Text.suffix_join index]
  constructor
  · rintro ⟨body, other, same, isPage, ends, leads⟩
    obtain rfl := eq_of_append_ending page isPage same
    exact ⟨ends, leads⟩
  · rintro ⟨ends, leads⟩
    exact ⟨_, ending, rfl, page, ends, leads⟩

/-- A name that a path keeps, on one line. -/
def IsName (name : Text) : Prop :=
  Path.isIdle name = false ∧ '/' ∉ name ∧ '\n' ∉ name

instance (name : Text) : Decidable (IsName name) :=
  inferInstanceAs (Decidable (_ ∧ _))

/-- A page below the sources and, further down, a directory for releases: the name right behind the
sources, those up to the directory, those below it, and the parts of the page's own name. -/
structure ReleasePage where
  first : Text
  above : List Text
  directory : Text
  below : List Text
  stem : Text
  ending : Text
  named : ∀ name ∈ first :: (above ++ below), IsName name
  release : directory ∈ releaseDirectories
  single : '/' ∉ stem ∧ '\n' ∉ stem
  ends : ending ∈ pageEndings

namespace ReleasePage

/-- The directories below the sources. -/
def directories (page : ReleasePage) : List Text :=
  page.first :: (page.above ++ page.directory :: page.below)

def text (page : ReleasePage) : Text :=
  Text.join ['/'] ("src".toList :: page.directories ++ [page.stem ++ page.ending])

/-- Whether a page is about a release: neither a translation nor an index page. -/
def IsAboutRelease (page : ReleasePage) : Prop :=
  page.first ≠ "i18n".toList ∧ page.stem ≠ "index".toList

/-- Whether a page is told wrong by its characters. Its stem merely ends like that of an index page;
or its first directory starts like the one for translations, and it either is none and has no other
sources among its directories, or is one and has. -/
def IsMisjudged (page : ReleasePage) : Prop :=
  ("index".toList <:+ page.stem ∧ page.IsAboutRelease) ∨
    (¬"index".toList <:+ page.stem ∧ "i18n".toList <+: page.first ∧
      (page.first = "i18n".toList ↔ leadsToRelease page.directories = true))

variable (page : ReleasePage)

theorem isName_of_mem_directories : ∀ name ∈ page.directories, IsName name := by
  have release : ∀ directory ∈ releaseDirectories, IsName directory := by decide
  intro name member
  have named := page.named name
  simp only [directories, List.mem_cons, List.mem_append] at member named
  rcases member with first | above | rfl | below
  · exact named (.inl first)
  · exact named (.inr (.inl above))
  · exact release _ page.release
  · exact named (.inr (.inr below))

theorem leadsToRelease_directories : leadsToRelease ("src".toList :: page.directories) = true ↔
    ¬"i18n".toList <+: page.first ∨ leadsToRelease page.directories = true := by
  have source : "src".toList.isSuffixOf "src".toList = true := by decide
  have release : (page.above ++ page.directory :: page.below).any
      (releaseDirectories.contains ·) = true :=
    List.any_eq_true.mpr ⟨page.directory, by simp, List.contains_iff_mem.mpr page.release⟩
  rw [directories, leadsToRelease, release, source, Bool.or_eq_true, Bool.true_and, Bool.and_true,
    Bool.not_eq_true', Bool.eq_false_iff, ne_eq, List.isPrefixOf_iff_prefix]

theorem isIdle_stem_append : Path.isIdle (page.stem ++ page.ending) = false := by
  have endings : ∀ ending ∈ pageEndings, 1 < ending.length := by decide
  have long : 1 < (page.stem ++ page.ending).length := by
    rw [List.length_append]
    exact Nat.lt_add_left _ (endings page.ending page.ends)
  rw [Path.isIdle, Bool.or_eq_false_iff, beq_eq_false_iff_ne, List.isEmpty_eq_false_iff]
  constructor
  · intro none
    simp [none] at long
  · intro period
    simp [period] at long

theorem needsRelease_text : needsRelease releasePattern (Path.ofText page.text) = true ↔
    ¬"index".toList <:+ page.stem ∧
      (¬"i18n".toList <+: page.first ∨ leadsToRelease page.directories = true) := by
  have source : IsName "src".toList := by decide
  have endings : ∀ ending ∈ pageEndings, '/' ∉ ending := by decide
  have named : ∀ name ∈ "src".toList :: page.directories, IsName name :=
    List.forall_mem_cons.mpr ⟨source, page.isName_of_mem_directories⟩
  have own : '/' ∉ page.stem ++ page.ending := by
    rw [List.mem_append, not_or]
    exact ⟨page.single.1, endings page.ending page.ends⟩
  have shown : (Path.ofText page.text).toText =
      Text.join ['/'] ("src".toList :: page.directories ++ [page.stem]) ++ page.ending := by
    rw [← Text.join_concat_append]
    apply Path.toText_ofText_join (by simp)
    · exact List.forall_mem_append.mpr ⟨fun name member => (named name member).2.1,
        List.forall_mem_singleton.mpr own⟩
    · exact List.forall_mem_append.mpr ⟨fun name member => (named name member).1,
        List.forall_mem_singleton.mpr page.isIdle_stem_append⟩
  rw [needsRelease, shown, isFoundIn_join _ _ page.ends, page.leadsToRelease_directories]
  · exact List.forall_mem_append.mpr ⟨fun name member => (named name member).2.1,
      List.forall_mem_singleton.mpr page.single.1⟩
  · exact List.forall_mem_append.mpr ⟨fun name member => (named name member).2.2,
      List.forall_mem_singleton.mpr page.single.2⟩

/-- The pages that need the day of a release are told by how their first directory starts and by how
their stem ends. They are those about releases, apart from the pages that this misjudges. -/
theorem needsRelease_iff_isAboutRelease :
    Pattern.ofText releaseSource = .ok releasePattern ∧
      ((needsRelease releasePattern (Path.ofText page.text) = true ↔ page.IsAboutRelease) ↔
        ¬page.IsMisjudged) ∧
      (needsRelease releasePattern (Path.ofText page.text) = true ↔
        ¬"index".toList <:+ page.stem ∧
          (¬"i18n".toList <+: page.first ∨ leadsToRelease page.directories = true)) := by
  refine ⟨ofText_releaseSource, ?_, page.needsRelease_text⟩
  rw [page.needsRelease_text]
  by_cases index : "index".toList <:+ page.stem
  · simp only [IsMisjudged, index, not_true_eq_false, false_and, false_iff, true_and, or_false]
  · have other : page.stem ≠ "index".toList := fun same => index (same ▸ List.suffix_refl _)
    by_cases starts : "i18n".toList <+: page.first
    · simp only [IsMisjudged, IsAboutRelease, index, starts, other, ne_eq, not_true_eq_false,
        not_false_eq_true, false_and, true_and, false_or, and_true]
      by_cases translated : page.first = "i18n".toList
      · simp only [translated, not_true_eq_false, iff_false, true_iff]
      · simp only [translated, not_false_eq_true, iff_true, false_iff, not_not]
    · have ordinary : page.first ≠ "i18n".toList := fun same => starts (same ▸ List.prefix_refl _)
      simp only [IsMisjudged, IsAboutRelease, index, starts, other, ordinary, ne_eq,
        not_false_eq_true, false_and, true_and, and_self, true_or, or_self]

/-- A release note whose stem ends in "index" is no index page, and no day is asked of it. -/
theorem not_needsRelease_reindex : ∃ page : ReleasePage,
    page.text = "src/content/release-notes/reindex.md".toList ∧ page.IsAboutRelease ∧
      needsRelease releasePattern (Path.ofText page.text) = false := by
  let page : ReleasePage :=
    { first := "content", above := [], directory := "release-notes", below := [],
      stem := "reindex", ending := ".md", named := by decide, release := by decide,
      single := by decide, ends := by decide }
  exact ⟨page, by decide, ⟨by decide, by decide⟩, by decide +kernel⟩

end ReleasePage

end Frontmatter

end MdxCheck
