import MdxCheck.Proofs.Document.Partition
import MdxCheck.Proofs.Document.Places
import MdxCheck.Proofs.Document.TopNodes

/-!
The places where the passages of a document start: each comes after the one before, within a part and
from part to part.
-/

namespace MdxCheck

/-- Where a passage starts; the end of a component has no place. -/
def Passage.position? : Passage → Option Position
  | .event (.opens _ _ position) => position
  | .event (.closes _) => none
  | .node inner => inner.position

def placesOf (passages : List Passage) : List Position :=
  passages.filterMap Passage.position?

theorem placesOf_append (front back : List Passage) :
    placesOf (front ++ back) = placesOf front ++ placesOf back :=
  List.filterMap_append

theorem placesOf_nodes (nodes : List Node) :
    placesOf (nodes.map .node) = nodes.filterMap Node.position := by
  rw [placesOf, List.filterMap_map]
  rfl

/-- Places one after the other between two bounds. -/
structure Track (low high : Position) (places : List Position) : Prop where
  advances : low.UpTo high
  within : ∀ place ∈ places, low.UpTo place ∧ place.Before high
  ordered : places.Pairwise Position.Before

namespace Track

variable {low middle high : Position} {places : List Position}

theorem nil (advances : low.UpTo high) : Track low high [] where
  advances := advances
  within := by simp
  ordered := .nil

theorem single {place : Position} (lower : low.UpTo place) (upper : place.Before high) :
    Track low high [place] where
  advances := lower.trans upper.upTo
  within other member := by
    obtain rfl := List.mem_singleton.mp member
    exact ⟨lower, upper⟩
  ordered := List.pairwise_singleton _ _

theorem append {further : List Position} (left : Track low middle places)
    (right : Track middle high further) : Track low high (places ++ further) where
  advances := left.advances.trans right.advances
  within place member := by
    rcases List.mem_append.mp member with before | after
    · obtain ⟨lower, upper⟩ := left.within place before
      exact ⟨lower, upper.trans_upTo right.advances⟩
    · obtain ⟨lower, upper⟩ := right.within place after
      exact ⟨left.advances.trans lower, upper⟩
  ordered := by
    refine List.pairwise_append.mpr ⟨left.ordered, right.ordered, ?_⟩
    intro place before other after
    exact (left.within place before).2.trans_upTo (right.within other after).1

theorem widen {first second : Position} (track : Track low high places)
    (lower : first.UpTo low) (upper : high.UpTo second) : Track first second places := by
  have whole := (nil lower).append (track.append (nil upper))
  simpa using whole

theorem nodup (track : Track low high places) : places.Nodup := by
  refine track.ordered.imp fun {place other} before same => ?_
  subst same
  simp only [Position.Before] at before
  omega

end Track

namespace Document

open Position (lineStart)
open Builder (sourcePosition phrase)

section Between

variable {first : Nat} {source : Text}

theorem placesOf_tag (tag : Tag) (place : Position) :
    placesOf (PlacedTag.passages ⟨tag, place⟩) = if tag.closing then [] else [place] := by
  rw [PlacedTag.passages, PlacedTag.events]
  split
  · rfl
  · split <;> rfl

theorem track_phrase {start stop : Nat} (ordered : start ≤ stop) (bound : stop ≤ source.length) :
    Track (sourcePosition first source start) (sourcePosition first source stop)
      (placesOf ((phrase first source start stop).map .node)) := by
  rw [phrase]
  split
  · exact .nil (Builder.sourcePosition_upTo first ordered bound)
  · next notBlank =>
      obtain ⟨-, -, -, -, inside⟩ := Builder.drop_indent_between (by simpa using notBlank)
      exact .single (Builder.sourcePosition_upTo first (Nat.le_add_right _ _) (by omega))
        (Builder.sourcePosition_before first inside bound)

theorem track_taggedPassages {tags : List Tag} {start : Nat} (chain : Tag.Chain source start tags) :
    Track (sourcePosition first source start) (sourcePosition first source source.length)
      (placesOf (taggedPassages first source start tags)) := by
  induction chain with
  | nil bound => exact track_phrase bound (Nat.le_refl _)
  | @cons cursor tag tags others before inside _ _ chain ih =>
      have bound := chain.length
      have upper := Builder.sourcePosition_before first inside bound
      rw [taggedPassages, placesOf_append, placesOf_append, placesOf_tag]
      refine ((track_phrase before (by omega)).append ?_).append ih
      split
      · exact .nil upper.upTo
      · exact .single (.refl _) upper

end Between

section Parts

variable (front : List Text) {lines : List Text}

theorem track_proseNodes (noFeed : ∀ line ∈ lines, '\n' ∉ line) :
    Track (lineStart (front.length + 1)) (lineStart (front.length + 1 + lines.length))
      (placesOf ((proseNodes (front.length + 1) lines).map .node)) := by
  obtain ⟨tops, same, ordered, each⟩ := proseNodes_tops (front.length + 1) noFeed
  have places : placesOf ((proseNodes (front.length + 1) lines).map .node) =
      (tops.map Prod.fst).map (linePosition (front.length + 1) lines) := by
    rw [placesOf_nodes, same, List.filterMap_map, List.map_map, ← List.filterMap_eq_map]
    exact List.filterMap_congr fun top member => (each top member).2.position
  rw [places]
  refine ⟨Position.lineStart_upTo (by omega), fun place member => ?_, ?_⟩
  · obtain ⟨number, listed, rfl⟩ := List.mem_map.mp member
    obtain ⟨top, inTops, rfl⟩ := List.mem_map.mp listed
    obtain ⟨⟨line, here, -⟩, -⟩ := each top inTops
    have inside := (List.getElem?_eq_some_iff.mp here).1
    simp only [Position.UpTo, Position.Before, lineStart, linePosition]
    omega
  · refine List.pairwise_map.mpr (ordered.imp fun less => Or.inl ?_)
    simp only [linePosition]
    omega

theorem track_part {part : Part} (noFeed : ∀ line ∈ part.lines, '\n' ∉ line)
    (fits : part.Fits) (complete : part.Complete) (first : part.first = front.length + 1) :
    Track (lineStart (front.length + 1)) (lineStart (front.length + 1 + part.lines.length))
      (placesOf part.passages) := by
  cases part with
  | prose number lines =>
      obtain rfl : number = front.length + 1 := first
      exact track_proseNodes front noFeed
  | statement number source =>
      obtain rfl : number = front.length + 1 := first
      refine .single (Or.inr ⟨rfl, (by decide : (0 : Int) ≤ 1)⟩) (Or.inl ?_)
      simp only [lineStart, Part.lines, List.length_singleton]
      omega
  | tagged number source tags =>
      obtain rfl : number = front.length + 1 := first
      have scanned : (Tag.scan source).tags = tags := by rw [complete]
      have track := @track_taggedPassages (front.length + 1) source tags 0
        (scanned ▸ Tag.chain_scan source)
      have whole : Text.unlines (Part.lines (.tagged (front.length + 1) source tags)) = source :=
        Text.unlines_splitOn source
      have lower := (Builder.sourcePosition_within front fits.lines_ne_nil noFeed (Nat.zero_le _)).1
      have upper := (Builder.sourcePosition_within front fits.lines_ne_nil noFeed (Nat.le_refl _)).2
      rw [whole] at lower upper
      exact track.widen lower upper.upTo
  | unterminated => exact complete.elim

theorem track_parts {parts : List Part} (fits : ∀ part ∈ parts, part.Fits)
    (complete : ∀ part ∈ parts, part.Complete) : ∀ (front lines : List Text),
      (∀ line ∈ lines, '\n' ∉ line) →
      parts.flatMap Part.numbered = lines.zipIdx (front.length + 1) →
      Track (lineStart (front.length + 1)) (lineStart (front.length + 1 + lines.length))
        (placesOf (parts.flatMap Part.passages)) := by
  -- `front` are the lines of the parts before, which say where the next part begins
  induction parts with
  | nil =>
      intro front lines _ _
      exact .nil (Position.lineStart_upTo (by omega))
  | cons part parts ih =>
      intro front lines noFeed all
      rw [List.flatMap_cons] at all
      obtain ⟨here, after, rfl, numbered, later⟩ := List.zipIdx_eq_append_iff.mp all.symm
      have same : part.lines = here := by
        have texts := congrArg (List.map Prod.fst) numbered
        rwa [Part.numbered, List.zipIdx_map_fst, List.zipIdx_map_fst] at texts
      obtain ⟨line, more, cons⟩ := List.exists_cons_of_ne_nil (fits part (by simp)).lines_ne_nil
      have first : part.first = front.length + 1 := by
        rw [Part.numbered, ← same, cons, List.zipIdx_cons, List.zipIdx_cons] at numbered
        simp only [List.cons.injEq, Prod.mk.injEq, true_and] at numbered
        exact numbered.1
      subst same
      have left := track_part front (fun line member => noFeed line (List.mem_append_left _ member))
        (fits part (by simp)) (complete part (by simp)) first
      have right := ih (fun other member => fits other (by simp [member]))
        (fun other member => complete other (by simp [member])) (front ++ part.lines) after
        (fun line member => noFeed line (List.mem_append_right _ member))
      rw [List.length_append, Nat.add_right_comm] at right
      rw [List.flatMap_cons, placesOf_append, List.length_append, ← Nat.add_assoc]
      exact left.append (right later)

end Parts

theorem BodyOf.track {lines body : List Text} {number : Nat} {before : List Node}
    (start : BodyOf lines number before body) :
    Track (lineStart 1) (lineStart number) (placesOf (before.map .node)) := by
  cases start with
  | whole => exact .nil (.refl _)
  | @afterData inside =>
      refine .single (Or.inr ⟨rfl, (by decide : (0 : Int) ≤ 1)⟩) (Or.inl ?_)
      simp only [lineStart]
      omega

end Document

end MdxCheck
