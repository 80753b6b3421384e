import MdxCheck.Files.Path
import MdxCheck.Pattern.Read
import MdxCheck.Pattern.Search

/-!
Which documents need which dates, decided by their paths.
-/

namespace MdxCheck.Frontmatter

def freshnessExemptions : List Text :=
  ([ "src/content/docs/release-notes/",
    "src/content/whats-new/",
    "src/content/docs/style-guide/",
    "src/content/docs/security/new-relic-security/security-bulletins/",
    "src/i18n/content/" ] : List String).map String.toList

/-- Whether a document needs the day of the last check: its path contains none of some texts. -/
def needsFreshness (exemptions : List Text) (path : Path) : Bool :=
  !exemptions.any fun exemption => Text.contains exemption path.toText

/-- The pattern for the paths of documents about releases, unless another is given: a directory for
them somewhere below the sources, translations and index pages apart. -/
def releaseSource : Text :=
  "src/(?!i18n).*(/security-bulletins/|/release-notes/|/whats-new/).*(?<!index)(\\.mdx|\\.md)$"

/-- The pattern that `releaseSource` spells. -/
def releasePattern : Pattern :=
  let anything : Pattern := .repeated 0 none .most (.one (.all false))
  .row <| Pattern.characters "src/" ++
    [.ahead true (.literal "i18n"), anything,
      .group 1 (.either (.literal "/security-bulletins/")
        (.either (.literal "/release-notes/") (.literal "/whats-new/"))),
      anything, .behind true (.literal "index"),
      .group 2 (.either (.literal ".mdx") (.literal ".md")), .edge .lastLineStop]

/-- Whether a document needs the day of a release: its path has a part that matches a pattern. -/
def needsRelease (pattern : Pattern) (path : Path) : Bool :=
  pattern.isFoundIn path.toText

end MdxCheck.Frontmatter
