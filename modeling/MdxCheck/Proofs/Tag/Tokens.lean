import MdxCheck.Proofs.Tag.Body

/-!
What a scan finds, told from the source alone: its tags stand one behind the other, each up to the
bracket that ends it, and no tag starts outside of them before a tag without end. This determines
the result of the scan.
-/

namespace MdxCheck.Tag

structure StartsAt (source : Text) (offset : Nat) (closing : Bool) (name rest : Text) : Prop where
  split : source.drop offset = openingSource closing name ++ rest
  isName : IsName name
  ends : endsName rest = true

/-- A tag as it stands in a source, from the bracket that opens it to the one that ends it; `inside`
is the source between its name and its end, and `rest` is what follows it. -/
structure StandsIn (source : Text) (tag : Tag) (inside rest : Text) : Prop where
  starts : StartsAt source tag.start tag.closing tag.name (inside ++ '>' :: rest)
  body : IsBody inside
  stop : tag.stop = tag.start + (openingSource tag.closing tag.name ++ inside ++ ['>']).length
  selfClosing : tag.selfClosing = true ↔ (Text.trimEnd inside).getLast? = some '/'
  attributes : Text.trimEnd inside = tag.attributes ++ if tag.selfClosing then ['/'] else []

/-- A tag starts at an offset of a source, and nothing behind it ends the tag. -/
def IsUnended (source : Text) (offset : Nat) : Prop :=
  ∃ closing name rest, StartsAt source offset closing name rest ∧
    ∀ inside more, rest = inside ++ '>' :: more → ¬Settled inside

/-- The tags of a source from offset `cursor` on, and the offset of a tag without end. -/
structure Tokens (source : Text) (cursor : Nat) (found : Found) : Prop where
  stand : ∀ tag ∈ found.tags, cursor ≤ tag.start ∧ ∃ inside rest, StandsIn source tag inside rest
  apart : found.tags.Pairwise fun tag next => tag.stop ≤ next.start
  leftmost : ∀ offset closing name rest, cursor ≤ offset →
    StartsAt source offset closing name rest →
      (∃ tag ∈ found.tags, tag.start ≤ offset ∧ offset < tag.stop) ∨
        ∃ start ∈ found.unterminated, start ≤ offset
  pending : ∀ start ∈ found.unterminated,
    cursor ≤ start ∧ (∀ tag ∈ found.tags, tag.stop ≤ start) ∧ IsUnended source start

theorem startsAt_iff {source : Text} {offset : Nat} {opening : Opening} :
    StartsAt source offset opening.closing opening.name opening.rest ↔
      opening? (source.drop offset) = some opening := by
  constructor
  · rintro ⟨split, isName, ends⟩
    rw [split]
    exact opening?_source _ isName ends
  · intro opens
    obtain ⟨split, isName, ends⟩ := opening?_eq_some opens
    exact ⟨split, isName, ends⟩

theorem StartsAt.opens {source : Text} {offset : Nat} {closing : Bool} {name rest : Text}
    (starts : StartsAt source offset closing name rest) :
    opening? (source.drop offset) = some ⟨closing, name, rest⟩ :=
  startsAt_iff.mp starts

theorem StandsIn.lt {source : Text} {tag : Tag} {inside rest : Text}
    (stands : StandsIn source tag inside rest) : tag.start < tag.stop := by
  have stop := stands.stop
  simp only [List.length_append, List.length_singleton] at stop
  omega

theorem slash_iff {body between : Text} {slash : Bool} :
    ((slash = true ↔ body.getLast? = some '/') ∧ body = between ++ if slash then ['/'] else []) ↔
      (body.getLast? == some '/') = slash ∧ (if slash then body.dropLast else body) = between := by
  by_cases last : body.getLast? = some '/'
  · obtain ⟨front, rfl⟩ := List.getLast?_eq_some_iff.mp last
    cases slash with
    | true => simp
    | false => simp
  · cases slash with
    | true => simp [last]
    | false => simp [last]

theorem standsIn_ofOpening {source : Text} {offset : Nat} {opening : Opening} {length : Nat}
    (opens : opening? (source.drop offset) = some opening)
    (ends : tail? 0 none opening.rest = some length) :
    ∃ inside rest, StandsIn source (ofOpening offset opening length) inside rest := by
  have starts := startsAt_iff.mpr opens
  obtain ⟨inside, rest, split, body, rfl⟩ := tail?_eq_some_iff.mp ends
  rw [split] at starts
  have taken : opening.rest.take (inside.length + 1 - 1) = inside := by
    rw [Nat.add_sub_cancel, split, List.take_left]
  obtain ⟨selfClosing, attributes⟩ := slash_iff.mpr ⟨rfl, rfl⟩
  refine ⟨inside, rest, starts, body, ?_, ?_, ?_⟩
  · have length := openingSource_length opening
    simp only [ofOpening, List.length_append, List.length_singleton, length]
    omega
  · simp only [ofOpening, taken]
    exact selfClosing
  · simp only [ofOpening, taken]
    exact attributes

theorem StandsIn.eq_ofOpening {source : Text} {tag : Tag} {inside rest : Text}
    (stands : StandsIn source tag inside rest) :
    tail? 0 none (inside ++ '>' :: rest) = some (inside.length + 1) ∧
      tag = ofOpening tag.start ⟨tag.closing, tag.name, inside ++ '>' :: rest⟩
        (inside.length + 1) := by
  obtain ⟨-, body, stop, selfClosing, attributes⟩ := stands
  refine ⟨tail?_eq_some_iff.mpr ⟨inside, rest, rfl, body, rfl⟩, ?_⟩
  have length := openingSource_length ⟨tag.closing, tag.name, inside ++ '>' :: rest⟩
  obtain ⟨isSlash, between⟩ := slash_iff.mp ⟨selfClosing, attributes⟩
  obtain ⟨name, closing, slash, source, start, past⟩ := tag
  simp only [List.length_append, List.length_singleton] at stop length isSlash between
  simp only [ofOpening, Nat.add_sub_cancel, List.take_left, isSlash, between, Tag.mk.injEq,
    true_and]
  omega

theorem StandsIn.eq_of_opens {source : Text} {tag : Tag} {inside rest : Text}
    (stands : StandsIn source tag inside rest) {opening : Opening}
    (opens : opening? (source.drop tag.start) = some opening) :
    ∃ length, tail? 0 none opening.rest = some length ∧
      tag = ofOpening tag.start opening length := by
  obtain ⟨ends, same⟩ := stands.eq_ofOpening
  have first := stands.starts.opens
  rw [opens] at first
  obtain rfl := Option.some.inj first
  exact ⟨_, ends, same⟩

theorem IsUnended.noEnd {source : Text} {offset : Nat} (unended : IsUnended source offset)
    {opening : Opening} (opens : opening? (source.drop offset) = some opening) :
    tail? 0 none opening.rest = none := by
  obtain ⟨closing, name, rest, starts, noEnd⟩ := unended
  rw [starts.opens] at opens
  obtain rfl := Option.some.inj opens
  exact tail?_eq_none_iff.mpr noEnd

namespace Tokens

variable {source : Text}

theorem cons {tag : Tag} {inside rest : Text} (stands : StandsIn source tag inside rest)
    {found : Found} (later : Tokens source tag.stop found) :
    Tokens source tag.start (Found.andThen ⟨[tag], none⟩ found) := by
  obtain ⟨stand, apart, leftmost, pending⟩ := later
  have positive := stands.lt
  constructor
  · intro other member
    rcases List.mem_cons.mp member with rfl | behind
    · exact ⟨Nat.le_refl _, inside, rest, stands⟩
    · obtain ⟨after, stands⟩ := stand other behind
      exact ⟨by omega, stands⟩
  · exact List.pairwise_cons.mpr ⟨fun other member => (stand other member).1, apart⟩
  · intro offset closing name more bound starts
    by_cases within : offset < tag.stop
    · exact .inl ⟨tag, List.mem_cons_self, bound, within⟩
    · rcases leftmost offset closing name more (by omega) starts with
        ⟨other, member, covers⟩ | unended
      · exact .inl ⟨other, List.mem_cons_of_mem _ member, covers⟩
      · exact .inr unended
  · intro start isPending
    obtain ⟨after, beyond, unended⟩ := pending start isPending
    exact ⟨by omega, List.forall_mem_cons.mpr ⟨after, beyond⟩, unended⟩

theorem of_cons {cursor : Nat} {tag : Tag} {found : Found}
    (tokens : Tokens source cursor (Found.andThen ⟨[tag], none⟩ found)) :
    Tokens source tag.stop found := by
  obtain ⟨stand, apart, leftmost, pending⟩ := tokens
  obtain ⟨before, inside, rest, stands⟩ := stand tag List.mem_cons_self
  have positive := stands.lt
  obtain ⟨behind, apart⟩ := List.pairwise_cons.mp apart
  constructor
  · intro other member
    exact ⟨behind other member, (stand other (List.mem_cons_of_mem _ member)).2⟩
  · exact apart
  · intro offset closing name more bound starts
    rcases leftmost offset closing name more (by omega) starts with
      ⟨other, member, covers⟩ | unended
    · rcases List.mem_cons.mp member with rfl | later
      · omega
      · exact .inl ⟨other, later, covers⟩
    · exact .inr unended
  · intro start isPending
    obtain ⟨-, beyond, unended⟩ := pending start isPending
    obtain ⟨after, beyond⟩ := List.forall_mem_cons.mp beyond
    exact ⟨after, beyond, unended⟩

/-- Where a tag starts at the cursor, it is the first one that is found, or the one without end. -/
theorem first_of_opens {cursor : Nat} {found : Found} (tokens : Tokens source cursor found)
    {opening : Opening} (opens : opening? (source.drop cursor) = some opening) :
    (∃ length later, tail? 0 none opening.rest = some length ∧
        found = Found.andThen ⟨[ofOpening cursor opening length], none⟩ later) ∨
      tail? 0 none opening.rest = none ∧ found = ⟨[], some cursor⟩ := by
  obtain ⟨tags, unterminated⟩ := found
  have starts := startsAt_iff.mpr opens
  rcases tokens.leftmost cursor _ _ _ (Nat.le_refl _) starts with
    ⟨tag, member, before, -⟩ | ⟨start, isPending, before⟩
  · left
    cases tags with
    | nil => simp at member
    | cons first tags =>
        obtain ⟨notBefore, inside, rest, stands⟩ := tokens.stand first List.mem_cons_self
        have positive := stands.lt
        have here : first.start = cursor := by
          rcases List.mem_cons.mp member with rfl | later
          · omega
          · have behind := List.rel_of_pairwise_cons tokens.apart later
            omega
        subst here
        obtain ⟨length, ends, same⟩ := stands.eq_of_opens opens
        refine ⟨length, ⟨tags, unterminated⟩, ends, ?_⟩
        rw [← same]
        rfl
  · right
    obtain ⟨notBefore, beyond, unended⟩ := tokens.pending start isPending
    obtain rfl : start = cursor := by omega
    refine ⟨unended.noEnd opens, ?_⟩
    cases tags with
    | nil => exact congrArg (Found.mk []) isPending
    | cons first tags =>
        obtain ⟨notBefore, inside, rest, stands⟩ := tokens.stand first List.mem_cons_self
        have positive := stands.lt
        have behind := beyond first List.mem_cons_self
        omega

theorem skip_iff {cursor : Nat} (closed : opening? (source.drop cursor) = none) {found : Found} :
    Tokens source cursor found ↔ Tokens source (cursor + 1) found := by
  have apartFrom : ∀ {closing name rest}, ¬StartsAt source cursor closing name rest := by
    intro closing name rest starts
    simp [starts.opens] at closed
  constructor
  · rintro ⟨stand, apart, leftmost, pending⟩
    refine ⟨?_, apart, ?_, ?_⟩
    · intro tag member
      obtain ⟨bound, inside, rest, stands⟩ := stand tag member
      refine ⟨Nat.lt_of_le_of_ne bound ?_, inside, rest, stands⟩
      rintro rfl
      exact apartFrom stands.starts
    · intro offset closing name rest bound starts
      exact leftmost offset closing name rest (by omega) starts
    · intro start isPending
      obtain ⟨bound, beyond, unended⟩ := pending start isPending
      refine ⟨Nat.lt_of_le_of_ne bound ?_, beyond, unended⟩
      rintro rfl
      obtain ⟨closing, name, rest, starts, -⟩ := unended
      exact apartFrom starts
  · rintro ⟨stand, apart, leftmost, pending⟩
    refine ⟨?_, apart, ?_, ?_⟩
    · intro tag member
      obtain ⟨bound, stands⟩ := stand tag member
      exact ⟨by omega, stands⟩
    · intro offset closing name rest bound starts
      refine leftmost offset closing name rest (Nat.lt_of_le_of_ne bound ?_) starts
      rintro rfl
      exact apartFrom starts
    · intro start isPending
      obtain ⟨bound, others⟩ := pending start isPending
      exact ⟨by omega, others⟩

theorem done_iff {cursor : Nat} (atEnd : source.drop cursor = []) {found : Found} :
    Tokens source cursor found ↔ found = ⟨[], none⟩ := by
  have apartFrom : ∀ {offset closing name rest}, cursor ≤ offset →
      ¬StartsAt source offset closing name rest := by
    intro offset closing name rest bound starts
    have opens := starts.opens
    rw [List.drop_eq_nil_of_le (Nat.le_trans (List.drop_eq_nil_iff.mp atEnd) bound)] at opens
    simp [opening?] at opens
  constructor
  · rintro ⟨stand, -, -, pending⟩
    obtain ⟨tags, unterminated⟩ := found
    congr
    · apply List.eq_nil_iff_forall_not_mem.mpr
      intro tag member
      obtain ⟨bound, inside, rest, stands⟩ := stand tag member
      exact apartFrom bound stands.starts
    · apply Option.eq_none_iff_forall_not_mem.mpr
      intro start isPending
      obtain ⟨bound, -, closing, name, rest, starts, -⟩ := pending start isPending
      exact apartFrom bound starts
  · rintro rfl
    exact ⟨by simp, .nil, fun _ _ _ _ bound starts => absurd starts (apartFrom bound), by simp⟩

theorem unterminated {cursor : Nat} (unended : IsUnended source cursor) :
    Tokens source cursor ⟨[], some cursor⟩ := by
  refine ⟨by simp, .nil, fun _ _ _ _ bound _ => .inr ⟨cursor, rfl, bound⟩, ?_⟩
  intro start isPending
  obtain rfl := Option.some.inj isPending
  exact ⟨Nat.le_refl _, by simp, unended⟩

end Tokens

theorem isUnended_of_opens {source : Text} {offset : Nat} {opening : Opening}
    (opens : opening? (source.drop offset) = some opening)
    (noEnd : tail? 0 none opening.rest = none) : IsUnended source offset :=
  ⟨_, _, _, startsAt_iff.mpr opens, tail?_eq_none_iff.mp noEnd⟩

theorem Scans.tokens_iff {offset : Nat} {text : Text} {found : Found}
    (scans : Scans offset text found) {source : Text} (inside : text = source.drop offset) :
    ∀ other, Tokens source offset other ↔ other = found := by
  induction scans with
  | done offset =>
      intro other
      exact Tokens.done_iff inside.symm
  | @skip offset c rest found closed _ ih =>
      intro other
      have later : rest = source.drop (offset + 1) := by
        rw [← List.drop_drop, ← inside]
        rfl
      rw [inside] at closed
      exact (Tokens.skip_iff closed).trans (ih later other)
  | @unterminated offset text opening isOpen =>
      intro other
      obtain ⟨opens, noEnd⟩ := isOpen
      rw [List.drop_zero, inside] at opens
      constructor
      · intro tokens
        rcases tokens.first_of_opens opens with ⟨length, -, ends, -⟩ | ⟨-, same⟩
        · rw [noEnd] at ends
          simp at ends
        · exact same
      · rintro rfl
        exact .unterminated (isUnended_of_opens opens noEnd)
  | @tag offset text opening length found opens ends _ ih =>
      intro other
      have later : text.drop (opening.length + length) =
          source.drop (offset + opening.length + length) := by
        rw [inside, List.drop_drop, Nat.add_assoc]
      rw [inside] at opens
      constructor
      · intro tokens
        rcases tokens.first_of_opens opens with ⟨_, others, again, rfl⟩ | ⟨noEnd, -⟩
        · rw [ends, Option.some.injEq] at again
          subst again
          exact congrArg _ ((ih later others).mp tokens.of_cons)
        · rw [ends] at noEnd
          simp at noEnd
      · rintro rfl
        obtain ⟨inside, rest, stands⟩ := standsIn_ofOpening opens ends
        exact .cons stands ((ih later found).mpr rfl)

/-- A scan finds the tags of a source and nothing else: they do not overlap, each ends with the
first closing bracket outside of its quoted values and expressions, and no tag starts in the gaps
between them. -/
theorem scan_eq_iff (source : Text) (found : Found) :
    scan source = found ↔ Tokens source 0 found :=
  eq_comm.trans ((scans_scan source).tokens_iff rfl found).symm

end MdxCheck.Tag
