import MdxCheck.Proofs.Frontmatter.Block
import MdxCheck.Proofs.Frontmatter.Freshness

/-!
The body of a document is not read for its frontmatter: the first line of three hyphens closes the
block, whatever comes after it.
-/

namespace MdxCheck.Frontmatter

open Calendar (Date)

/-- The check of the release day of a page. -/
def releaseOf (document : Text) : Except Yaml.Misuse (Except Value.TooLong (Option Text)) :=
  (ofText document).map (·.releaseMessage?)

/-- A line that may stand inside of frontmatter: one line, and not one of three hyphens. -/
structure IsInside (line : Text) : Prop where
  solid : ∀ c ∈ line, Text.isLineEnd c = false
  inside : Document.isBoundary line = false

theorem IsInside.of_all {line : Text} (solid : (line.all fun c => !Text.isLineEnd c) = true)
    (inside : Document.isBoundary line = false) : IsInside line :=
  ⟨fun c member => by simpa using List.all_eq_true.mp solid c member, inside⟩

theorem IsInside.noBreak {line : Text} (inside : IsInside line) : NoBreak line :=
  ⟨fun feed => absurd (inside.solid _ feed) (by decide),
    fun feed => absurd (inside.solid _ feed) (by decide)⟩

/-- A document with some lines between two lines of hyphens, and a body after them. -/
def withBody (lines : List Text) (body : Text) : Text :=
  "---\n".toList ++ Text.unlines lines ++ "\n---\n".toList ++ body

/-- Where the lines between are no bounds, the first bound after them ends the frontmatter; the lines
after it may hold anything. -/
theorem content?_unlines_append {first stop : Text} {inside : List Text} (rest : List Text)
    (noBreak : ∀ line ∈ first :: inside, NoBreak line)
    (noFence : ∀ line ∈ inside, isFence line = false)
    (stopBreak : NoBreak stop) (fence : isFence stop = true) :
    content? (Text.unlines (first :: (inside ++ stop :: rest))) =
      some (Text.unlines (first :: inside)) := by
  induction inside generalizing first with
  | nil =>
      rw [List.nil_append, content?_unlines_cons (noBreak first (by simp)) stopBreak, if_pos fence,
        Text.unlines_singleton]
  | cons second inside ih =>
      obtain ⟨firstBreak, others⟩ := List.forall_mem_cons.mp noBreak
      obtain ⟨notFence, later⟩ := List.forall_mem_cons.mp noFence
      rw [List.cons_append, content?_unlines_cons firstBreak (others second (by simp)), notFence,
        if_neg (by decide), ih others later]
      simp

section

variable {lines : List Text}

theorem withBody_eq_unlines (nonempty : lines ≠ []) (body : Text) :
    withBody lines body = Text.unlines
      (['-', '-', '-'] :: (lines ++ ['-', '-', '-'] :: Text.splitOn (· == '\n') body)) := by
  obtain ⟨second, inside, rfl⟩ := List.exists_cons_of_ne_nil nonempty
  obtain ⟨piece, pieces, split⟩ :=
    List.exists_cons_of_ne_nil (Text.splitOn_ne_nil (· == '\n') body)
  have joined := Text.unlines_splitOn body
  rw [split] at joined
  rw [List.cons_append, Text.unlines_cons_cons, ← List.cons_append,
    Text.unlines_append _ _ (by simp) (by simp), split, Text.unlines_cons_cons, joined]
  simp [withBody]

variable (nonempty : lines ≠ []) (inside : ∀ line ∈ lines, IsInside line)

include nonempty inside

theorem source?_withBody (body : Text) :
    source? (withBody lines body) = some (Text.unlines lines) := by
  have hyphens : NoBreak ['-', '-', '-'] := ⟨by decide, by decide⟩
  rw [withBody_eq_unlines nonempty, source?_unlines_cons hyphens, if_pos ⟨rfl, by simp⟩]
  obtain ⟨first, others, rfl⟩ := List.exists_cons_of_ne_nil nonempty
  refine content?_unlines_append _ (fun line member => (inside line member).noBreak) ?_ hyphens rfl
  intro line member
  exact isFence_of_not_isBoundary (inside line (List.mem_cons_of_mem _ member)).inside

theorem ofText_withBody (body : Text) :
    ofText (withBody lines body) =
      ofLoaded (Text.unlines lines) (Yaml.load (Text.unlines lines)) := by
  rw [ofText, source?_withBody nonempty inside]

/-- The frontmatter of a document is what stands between its first two bounds, so documents that
agree on the block get the same fields, problem or misuse from it and the same answers about their
dates. -/
theorem body_unread (first second : Text) :
    (source? (withBody lines first) = some (Text.unlines lines) ∧
      source? (withBody lines second) = some (Text.unlines lines)) ∧
    ofText (withBody lines first) = ofText (withBody lines second) ∧
    (∀ today limit, freshnessOn (withBody lines first) today limit =
      freshnessOn (withBody lines second) today limit) ∧
    releaseOf (withBody lines first) = releaseOf (withBody lines second) := by
  have same : ofText (withBody lines first) = ofText (withBody lines second) := by
    rw [ofText_withBody nonempty inside, ofText_withBody nonempty inside]
  refine ⟨⟨source?_withBody nonempty inside first, source?_withBody nonempty inside second⟩,
    same, ?_, ?_⟩
  · intro today limit
    rw [freshnessOn, same, freshnessOn]
  · rw [releaseOf, same, releaseOf]

end

theorem body_unread_hyphens :
    (["releaseDate: 2024-05-01", "--- x"].map String.toList ≠ [] ∧
      ∀ line ∈ ["releaseDate: 2024-05-01", "--- x"].map String.toList, IsInside line) ∧
    releaseOf (withBody (["releaseDate: 2024-05-01", "--- x"].map String.toList)
        "---\n\nreleaseDate: never\n---\r\n".toList) =
      releaseOf (withBody (["releaseDate: 2024-05-01", "--- x"].map String.toList) []) := by
  have nonempty : ["releaseDate: 2024-05-01", "--- x"].map String.toList ≠ [] := by decide
  have inside : ∀ line ∈ ["releaseDate: 2024-05-01", "--- x"].map String.toList,
      IsInside line := by
    intro line member
    simp only [List.map_cons, List.map_nil, List.mem_cons, List.not_mem_nil, or_false] at member
    rcases member with rfl | rfl
    · exact IsInside.of_all (by decide) (by decide)
    · exact IsInside.of_all (by decide) (by decide)
  exact ⟨⟨nonempty, inside⟩, (body_unread nonempty inside _ _).2.2.2⟩

end MdxCheck.Frontmatter
