import MdxCheck.Proofs.Tag.Spaced

/-!
Scans of a text that grows line by line. A line that is added changes none of the tags that were
found: the scan goes on at the tag without end, or behind the text if all its tags end.
-/

namespace MdxCheck.Tag

theorem Found.andThen_assoc (first second third : Found) :
    (first.andThen second).andThen third = first.andThen (second.andThen third) := by
  simp [andThen]

theorem OpenAt.offset_le {text : Text} {offset : Nat} {opening : Opening}
    (isOpen : OpenAt text offset opening) : offset ≤ text.length := by
  rcases Nat.le_total offset text.length with within | beyond
  · exact within
  · have opens := isOpen.opens
    rw [List.drop_eq_nil_of_le beyond] at opens
    simp [opening?] at opens

theorem OpenAt.of_append_line {text more : Text} {opening : Opening}
    (isOpen : OpenAt (text ++ '\n' :: more) 0 opening) : ∃ shorter, OpenAt text 0 shorter := by
  obtain ⟨opens, noEnd⟩ := isOpen
  rw [List.drop_zero, opening?_append_line] at opens
  obtain ⟨shorter, here, rfl⟩ := Option.map_eq_some_iff.mp opens
  refine ⟨shorter, here, ?_⟩
  cases ends : tail? 0 none shorter.rest with
  | none => rfl
  | some length =>
      rw [(tail?_append ends _).1] at noEnd
      simp at noEnd

theorem OpenAt.exists_bracket {text : Text} {opening : Opening} (isOpen : OpenAt text 0 opening) :
    ∃ source, text = '<' :: source := by
  have whole := (opening?_eq_some isOpen.opens).1
  rw [List.drop_zero] at whole
  rw [whole, openingSource]
  cases opening.closing with
  | true => exact ⟨_, rfl⟩
  | false => exact ⟨_, rfl⟩

theorem OpenAt.scan_eq {text : Text} {opening : Opening} (isOpen : OpenAt text 0 opening) :
    scan text = ⟨[], some 0⟩ :=
  scanFrom_of_open isOpen.opens isOpen.noEnd 0

theorem scanFrom_skip_append {c : Char} {rest : Text} (closed : opening? (c :: rest) = none)
    (offset : Nat) (more : Text) :
    scanFrom 0 offset (c :: rest ++ '\n' :: more) =
      scanFrom 0 (offset + 1) (rest ++ '\n' :: more) := by
  have still := opening?_append_line (c :: rest) more
  rw [closed] at still
  exact scanFrom_of_not_opening still offset

theorem scanFrom_tag_append {text : Text} {opening : Opening} {length : Nat}
    (opens : opening? text = some opening) (ends : tail? 0 none opening.rest = some length)
    (offset : Nat) (more : Text) :
    scanFrom 0 offset (text ++ '\n' :: more) =
      Found.andThen ⟨[ofOpening offset opening length], none⟩
        (scanFrom 0 (offset + opening.length + length)
          (text.drop (opening.length + length) ++ '\n' :: more)) := by
  have longer := opening?_append_line text more
  rw [opens, Option.map_some] at longer
  rw [scanFrom_of_tag longer (tail?_append ends _).1, ofOpening_append ends]
  have dropped := drop_tag_append opens ends ('\n' :: more)
  simp only [Opening.length] at dropped ⊢
  rw [dropped]
  rfl

theorem length_drop_tag {text : Text} {opening : Opening} {length : Nat}
    (opens : opening? text = some opening) (ends : tail? 0 none opening.rest = some length) :
    (text.drop (opening.length + length)).length + (opening.length + length) = text.length := by
  have bound := (tail?_append ends []).2.2
  have whole := congrArg List.length (opening?_eq_some opens).1
  rw [List.length_append, openingSource_length] at whole
  rw [List.length_drop]
  omega

/-- Where all tags of a text end, a scan of more goes on behind the text. -/
theorem Scans.append_of_complete {offset : Nat} {text : Text} {found : Found}
    (scans : Scans offset text found) (complete : found.unterminated = none) (more : Text) :
    scanFrom 0 offset (text ++ '\n' :: more) =
      found.andThen (scanFrom 0 (offset + text.length + 1) more) := by
  induction scans with
  | done offset =>
      rw [List.nil_append, scanFrom_of_not_opening (by rfl)]
      rfl
  | @skip offset c rest found closed _ ih =>
      rw [scanFrom_skip_append closed, ih complete, List.length_cons,
        Nat.add_assoc offset 1, Nat.add_comm 1]
  | unterminated => simp at complete
  | @tag offset text opening length found opens ends _ ih =>
      have whole := length_drop_tag opens ends
      have behind : offset + opening.length + length +
          (text.drop (opening.length + length)).length = offset + text.length := by omega
      rw [scanFrom_tag_append opens ends, ih complete, Found.andThen_assoc, behind]

/-- Where a tag has no end, a scan of more goes on at the start of this tag. -/
theorem Scans.append_of_open {offset : Nat} {text : Text} {found : Found}
    (scans : Scans offset text found) {start : Nat} (pending : found.unterminated = some start) :
    ∃ count opening, start = offset + count ∧ OpenAt text count opening ∧
      ∀ more, scanFrom 0 offset (text ++ '\n' :: more) =
        found.andThen (scanFrom 0 start (text.drop count ++ '\n' :: more)) := by
  induction scans with
  | done => simp at pending
  | @skip offset c rest found closed _ ih =>
      obtain ⟨count, opening, rfl, isOpen, goesOn⟩ := ih pending
      refine ⟨count + 1, opening, by omega, ⟨isOpen.opens, isOpen.noEnd⟩, fun more => ?_⟩
      rw [scanFrom_skip_append closed, goesOn, List.drop_succ_cons]
  | @unterminated offset text opening isOpen =>
      obtain rfl : offset = start := by simpa using pending
      exact ⟨0, opening, rfl, isOpen, fun more => rfl⟩
  | @tag offset text opening length found opens ends _ ih =>
      obtain ⟨count, inner, rfl, isOpen, goesOn⟩ := ih pending
      have opened := isOpen.opens
      rw [List.drop_drop] at opened
      refine ⟨opening.length + length + count, inner, by omega, ⟨opened, isOpen.noEnd⟩,
        fun more => ?_⟩
      rw [scanFrom_tag_append opens ends, goesOn, Found.andThen_assoc, List.drop_drop]

theorem scan_append_of_complete {source : Text} (complete : (scan source).unterminated = none)
    (line : Text) :
    scan (source ++ '\n' :: line) = (scan source).andThen (scanFrom 0 (source.length + 1) line) := by
  have goesOn := (scans_scan source).append_of_complete complete line
  rwa [Nat.zero_add] at goesOn

theorem scan_append_of_open {source : Text} {start : Nat}
    (pending : (scan source).unterminated = some start) :
    ∃ opening, OpenAt source start opening ∧
      ∀ line, scan (source ++ '\n' :: line) =
        (scan source).andThen (scanFrom 0 start (source.drop start ++ '\n' :: line)) := by
  obtain ⟨count, opening, same, isOpen, goesOn⟩ := (scans_scan source).append_of_open pending
  obtain rfl : start = count := by omega
  exact ⟨opening, isOpen, goesOn⟩

/-- What a scan of a text finds, and what a scan of the text with more lines then finds. The tags
stay; a tag without end is the next one or is still without end, and where all tags end the new
ones lie in the lines that were added. -/
inductive Found.Extends (source : Text) : Found → Found → Prop
  | complete {tags later unterminated} : (∀ tag ∈ later, source.length < tag.start) →
      (∀ start ∈ unterminated, source.length < start) →
      Extends source ⟨tags, none⟩ ⟨tags ++ later, unterminated⟩
  | ended {tags start opening tag later unterminated} : OpenAt source start opening →
      tag.start = start → tag.name = opening.name → tag.closing = opening.closing →
      Extends source ⟨tags, some start⟩ ⟨tags ++ tag :: later, unterminated⟩
  | pending {tags start opening} : OpenAt source start opening →
      Extends source ⟨tags, some start⟩ ⟨tags, some start⟩

theorem extends_scan (source : Text) : (scan source).Extends source (scan source) := by
  cases scanned : scan source with
  | mk tags unterminated =>
      cases unterminated with
      | none =>
          have same := @Found.Extends.complete source tags [] none (by simp) (by simp)
          rwa [List.append_nil] at same
      | some start =>
          obtain ⟨opening, isOpen, -⟩ := scan_append_of_open (congrArg Found.unterminated scanned)
          exact .pending isOpen

theorem extends_scan_append (source line : Text) :
    (scan source).Extends source (scan (source ++ '\n' :: line)) := by
  cases scanned : scan source with
  | mk tags unterminated =>
      cases unterminated with
      | none =>
          have behind := (scans_scanFrom (source.length + 1) line).offset_le
          rw [scan_append_of_complete (congrArg Found.unterminated scanned), scanned]
          exact .complete behind.1 behind.2
      | some start =>
          obtain ⟨opening, isOpen, goesOn⟩ :=
            scan_append_of_open (congrArg Found.unterminated scanned)
          have longer := opening?_append_line (source.drop start) line
          rw [isOpen.opens, Option.map_some] at longer
          rw [goesOn, scanned]
          cases ends : tail? 0 none (opening.rest ++ '\n' :: line) with
          | none =>
              rw [scanFrom_of_open longer ends, Found.andThen, List.append_nil]
              exact .pending isOpen
          | some length =>
              rw [scanFrom_of_tag longer ends]
              exact .ended isOpen rfl rfl rfl

end MdxCheck.Tag
