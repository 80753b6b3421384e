import MdxCheck.Pattern.Search

/-!
What patterns match, told apart from the search for it: the search reaches a place exactly if the
pattern matches the characters on the way. This is for patterns without references to groups, where
it does not matter which of several matches is preferred.
-/

namespace MdxCheck.Pattern

/-- The place between two parts of a text. -/
def Place.between (front back : Text) : Place :=
  ⟨front.length, front.reverse, back⟩

/-- The reach of a place between two parts of a text, with no group remembered. -/
def Reach.between (front back : Text) : Reach :=
  ⟨.between front back, []⟩

/-- One match and another right behind it. -/
def InTurn (first second : Text → Text → Text → Prop) (front inside rest : Text) : Prop :=
  ∃ start stop, inside = start ++ stop ∧ first front start (stop ++ rest) ∧
    second (front ++ start) stop rest

/-- So many matches, one behind the other. -/
def Repeats (matched : Text → Text → Text → Prop) : Nat → Text → Text → Text → Prop
  | 0, _, inside, _ => inside = []
  | count + 1, front, inside, rest => InTurn matched (Repeats matched count) front inside rest

/-- A match that takes up some characters. -/
def Moving (matched : Text → Text → Text → Prop) (front inside rest : Text) : Prop :=
  inside ≠ [] ∧ matched front inside rest

/-- Whether a pattern matches what stands between two other parts of a text. Patterns that depend on
what a group has matched, or on which match is preferred, are left out. -/
def Matches : Pattern → Text → Text → Text → Prop
  | empty, _, inside, _ => inside = []
  | one letters, _, inside, _ => ∃ c, inside = [c] ∧ letters.accepts c = true
  | edge condition, front, inside, rest =>
    inside = [] ∧ (Place.between front rest).fulfils condition = true
  | sequence first second, front, inside, rest =>
    InTurn first.Matches second.Matches front inside rest
  | either first second, front, inside, rest =>
    first.Matches front inside rest ∨ second.Matches front inside rest
  | repeated least most _ body, front, inside, rest =>
    ∃ count, least ≤ count ∧ (∀ bound ∈ most, count ≤ bound) ∧
      Repeats body.Matches count front inside rest
  | group _ body, front, inside, rest | enclosed body, front, inside, rest =>
    body.Matches front inside rest
  | ahead negated body, front, inside, rest =>
    inside = [] ∧ (negated = false ↔ ∃ found after, rest = found ++ after ∧
      body.Matches front found after)
  | behind negated body, front, inside, rest =>
    inside = [] ∧ (negated = false ↔ ∃ before found, front = before ++ found ∧
      body.Matches before found rest)
  | atomic _, _, _, _ | reference _ _, _, _, _ | ifGroup _ _ _, _, _, _ => False

/-- Whether a pattern refers to no group and takes all its matches alike, and no repetition asks for
more than it allows. -/
def isPlain : Pattern → Bool
  | empty | one _ | edge _ => true
  | sequence first second | either first second => first.isPlain && second.isPlain
  | repeated least most greed body =>
    greed != .possessive && most.all (least ≤ ·) && body.isPlain
  | group _ body | enclosed body | ahead _ body | behind _ body => body.isPlain
  | atomic _ | reference _ _ | ifGroup _ _ _ => false

theorem references_of_isPlain {pattern : Pattern} (plain : pattern.isPlain = true) :
    pattern.references = [] := by
  induction pattern <;> simp_all [isPlain, references]

/-- Where letter case is told, a character agrees with itself only. -/
@[simp] theorem agreeing_told (code : Nat) : Text.LetterCase.told.agreeing code = [code] := by
  rfl

section Rows

variable {front inside back : Text}

theorem Letters.accepts_single {c d : Char} : (Letters.single c).accepts d = true ↔ d = c := by
  have range : (Letters.single c).accepts d = true ↔ c.toNat ≤ d.toNat ∧ d.toNat ≤ c.toNat := by
    simp [Letters.accepts, Letters.single, Member.holds]
  rw [range, ← Nat.le_antisymm_iff, ← Char.toNat_inj, eq_comm]

theorem Letters.accepts_all_false {c : Char} : (Letters.all false).accepts c = true ↔ c ≠ '\n' := by
  have range : (Letters.all false).accepts c = true ↔ ¬(10 ≤ c.toNat ∧ c.toNat ≤ 10) := by
    simp [Letters.accepts, Letters.all, Member.holds, Decidable.imp_iff_not_or]
  rw [range, ← Nat.le_antisymm_iff, ne_eq, ← Char.toNat_inj, eq_comm]
  rfl

theorem repeats_one {letters : Letters} {count : Nat} :
    Repeats (one letters).Matches count front inside back ↔
      inside.length = count ∧ ∀ c ∈ inside, letters.accepts c = true := by
  induction count generalizing front inside with
  | zero =>
      rw [Repeats, List.length_eq_zero_iff]
      exact ⟨fun none => ⟨none, by simp [none]⟩, And.left⟩
  | succ count ih =>
      simp only [Repeats, InTurn, ih]
      constructor
      · rintro ⟨_, rest, rfl, ⟨c, rfl, accepted⟩, rfl, others⟩
        exact ⟨rfl, List.forall_mem_cons.mpr ⟨accepted, others⟩⟩
      · rintro ⟨long, accepted⟩
        obtain ⟨c, rest, rfl⟩ := List.exists_cons_of_length_eq_add_one long
        rw [List.forall_mem_cons] at accepted
        exact ⟨[c], rest, rfl, ⟨c, rfl, accepted.1⟩, Nat.succ.inj long, accepted.2⟩

theorem matches_repeated_one {letters : Letters} {greed : Greed} :
    (repeated 0 none greed (one letters)).Matches front inside back ↔
      ∀ c ∈ inside, letters.accepts c = true := by
  constructor
  · rintro ⟨count, -, -, repeats⟩
    exact (repeats_one.mp repeats).2
  · intro accepted
    exact ⟨inside.length, Nat.zero_le _, by simp, repeats_one.mpr ⟨rfl, accepted⟩⟩

theorem matches_row_cons {first : Pattern} {others : List Pattern} :
    (row (first :: others)).Matches front inside back ↔ ∃ start stop, inside = start ++ stop ∧
      first.Matches front start (stop ++ back) ∧
      (row others).Matches (front ++ start) stop back := by
  cases others with
  | nil => simp [row, Matches]
  | cons second others => rfl

theorem matches_row_characters {text : Text} {others : List Pattern} :
    (row (characters text ++ others)).Matches front inside back ↔
      ∃ stop, inside = text ++ stop ∧ (row others).Matches (front ++ text) stop back := by
  induction text generalizing front inside with
  | nil => simp [characters]
  | cons c text ih =>
      have split : characters (c :: text) ++ others =
          one (.single c) :: (characters text ++ others) := rfl
      simp only [split, matches_row_cons, ih, Matches, Letters.accepts_single]
      constructor
      · rintro ⟨_, _, rfl, ⟨_, rfl, rfl⟩, stop, rfl, later⟩
        exact ⟨stop, rfl, by simpa using later⟩
      · rintro ⟨stop, rfl, later⟩
        exact ⟨[c], text ++ stop, rfl, ⟨c, rfl, rfl⟩, stop, rfl, by simpa using later⟩

theorem matches_literal {text : Text} :
    (literal text).Matches front inside back ↔ inside = text := by
  have single := @matches_row_characters front inside back text []
  rw [List.append_nil] at single
  simp [literal, single, row, Matches]

theorem matches_ahead_literal {text : Text} :
    (ahead true (literal text)).Matches front inside back ↔ inside = [] ∧ ¬text <+: back := by
  simp [Matches, matches_literal, List.IsPrefix, eq_comm]

theorem matches_behind_literal {text : Text} :
    (behind true (literal text)).Matches front inside back ↔ inside = [] ∧ ¬text <:+ front := by
  simp [Matches, matches_literal, List.IsSuffix, eq_comm]

theorem matches_lastLineStop : (edge .lastLineStop).Matches front inside back ↔
    inside = [] ∧ (back = [] ∨ back = ['\n']) := by
  simp [Matches, Place.fulfils, Place.between]

end Rows

namespace Reach

/-! Reaches that are one are found once. -/

def keepNew (found : List Reach) (reach : Reach) : List Reach :=
  if found.any reach.isSame then found else found ++ [reach]

theorem isSame_self (reach : Reach) : reach.isSame reach = true := by
  simp [isSame]

theorem mem_keepNew {found : List Reach} {reach other : Reach} (member : other ∈ found) :
    other ∈ keepNew found reach := by
  unfold keepNew
  split
  · exact member
  · exact List.mem_append_left _ member

theorem mem_or_of_mem_foldl {reaches found : List Reach} {reach : Reach}
    (member : reach ∈ reaches.foldl keepNew found) : reach ∈ found ∨ reach ∈ reaches := by
  induction reaches generalizing found with
  | nil => exact .inl member
  | cons first reaches ih =>
      rcases ih member with before | later
      · unfold keepNew at before
        split at before
        · exact .inl before
        · rcases List.mem_append.mp before with before | here
          · exact .inl before
          · exact .inr (List.mem_cons.mpr (.inl (List.mem_singleton.mp here)))
      · exact .inr (List.mem_cons_of_mem _ later)

theorem mem_foldl_of_mem (reaches : List Reach) {found : List Reach} {reach : Reach}
    (member : reach ∈ found) :
    reach ∈ reaches.foldl keepNew found := by
  induction reaches generalizing found with
  | nil => exact member
  | cons first reaches ih => exact ih (mem_keepNew member)

theorem exists_same_of_mem (found : List Reach) {reaches : List Reach} {reach : Reach}
    (member : reach ∈ reaches) :
    ∃ other ∈ reaches.foldl keepNew found, reach.isSame other = true := by
  induction reaches generalizing found with
  | nil => simp at member
  | cons first reaches ih =>
      rcases List.mem_cons.mp member with rfl | later
      · by_cases known : found.any reach.isSame = true
        · obtain ⟨other, before, same⟩ := List.any_eq_true.mp known
          exact ⟨other, mem_foldl_of_mem (reach :: reaches) before, same⟩
        · have kept : reach ∈ keepNew found reach := by
            rw [keepNew, if_neg known]
            exact List.mem_append_right _ List.mem_cons_self
          exact ⟨reach, mem_foldl_of_mem reaches kept, reach.isSame_self⟩
      · exact ih _ later

/-- A place in a text, reached with no group remembered. -/
def IsIn (text : Text) (reach : Reach) : Prop :=
  ∃ front back, text = front ++ back ∧ reach = between front back

theorem IsIn.eq_of_isSame {text : Text} {reach other : Reach} (here : reach.IsIn text)
    (there : other.IsIn text) (same : reach.isSame other = true) : reach = other := by
  obtain ⟨front, back, rfl, rfl⟩ := here
  obtain ⟨before, after, split, rfl⟩ := there
  have long : front.length = before.length := by simpa [isSame, between, Place.between] using same
  obtain ⟨rfl, rfl⟩ := List.append_inj split long
  rfl

theorem mem_distinct (text : Text) {reaches : List Reach}
    (inside : ∀ reach ∈ reaches, reach.IsIn text) {reach : Reach} :
    reach ∈ distinct reaches ↔ reach ∈ reaches := by
  have folded : distinct reaches = reaches.foldl keepNew [] := rfl
  rw [folded]
  constructor
  · intro member
    exact (mem_or_of_mem_foldl member).resolve_left List.not_mem_nil
  · intro member
    obtain ⟨other, found, same⟩ := exists_same_of_mem [] member
    have listed := (mem_or_of_mem_foldl found).resolve_left List.not_mem_nil
    rw [(inside reach member).eq_of_isSame (inside other listed) same]
    exact found

/-- Whether a match leads from one place to another. -/
def Goes (matched : Text → Text → Text → Prop) (start stop : Reach) : Prop :=
  ∃ front inside rest, start = between front (inside ++ rest) ∧
    stop = between (front ++ inside) rest ∧ matched front inside rest

theorem between_inj {front back before after : Text}
    (same : between front back = between before after) : front = before ∧ back = after := by
  simp only [between, Place.between, Reach.mk.injEq, Place.mk.injEq, List.reverse_inj] at same
  exact ⟨same.1.2.1, same.1.2.2⟩

theorem goes_between {matched : Text → Text → Text → Prop} {front back : Text} {stop : Reach} :
    Goes matched (between front back) stop ↔ ∃ inside rest, back = inside ++ rest ∧
      stop = between (front ++ inside) rest ∧ matched front inside rest := by
  constructor
  · rintro ⟨before, inside, rest, start, goes⟩
    obtain ⟨rfl, rfl⟩ := between_inj start
    exact ⟨inside, rest, rfl, goes⟩
  · rintro ⟨inside, rest, rfl, goes⟩
    exact ⟨front, inside, rest, rfl, goes⟩

section Steps

variable {matched : Text → Text → Text → Prop} {text : Text} {start stop : Reach}

theorem Goes.isIn (goes : Goes matched start stop) (inside : start.IsIn text) : stop.IsIn text := by
  obtain ⟨front, back, rfl, rfl⟩ := inside
  obtain ⟨inside, rest, rfl, rfl, -⟩ := goes_between.mp goes
  exact ⟨front ++ inside, rest, by rw [List.append_assoc], rfl⟩

variable (matched) in
theorem goes_repeats_zero (inside : start.IsIn text) :
    Goes (Repeats matched 0) start stop ↔ start = stop := by
  obtain ⟨front, back, rfl, rfl⟩ := inside
  rw [goes_between]
  constructor
  · rintro ⟨inside, rest, rfl, rfl, none⟩
    obtain rfl : inside = [] := none
    rw [List.append_nil, List.nil_append]
  · rintro rfl
    exact ⟨[], back, rfl, by rw [List.append_nil], rfl⟩

variable (matched) in
theorem mem_iff_goes_zero {reaches : List Reach} (inside : ∀ reach ∈ reaches, reach.IsIn text) :
    stop ∈ reaches ↔ ∃ start ∈ reaches, Goes (Repeats matched 0) start stop := by
  constructor
  · intro member
    exact ⟨stop, member, (goes_repeats_zero matched (inside stop member)).mpr rfl⟩
  · rintro ⟨start, listed, goes⟩
    obtain rfl := (goes_repeats_zero matched (inside start listed)).mp goes
    exact listed

theorem goes_inTurn {first second : Text → Text → Text → Prop} :
    Goes (InTurn first second) start stop ↔
      ∃ next, Goes first start next ∧ Goes second next stop := by
  constructor
  · rintro ⟨front, inside, rest, rfl, rfl, head, tail, rfl, here, later⟩
    refine ⟨between (front ++ head) (tail ++ rest), ?_, ?_⟩
    · exact ⟨front, head, tail ++ rest, by rw [List.append_assoc], rfl, here⟩
    · exact ⟨front ++ head, tail, rest, rfl, by rw [List.append_assoc], later⟩
  · rintro ⟨next, ⟨front, head, back, rfl, rfl, here⟩, further⟩
    obtain ⟨tail, rest, rfl, rfl, later⟩ := goes_between.mp further
    exact ⟨front, head ++ tail, rest, by rw [List.append_assoc], by rw [List.append_assoc],
      head, tail, rfl, here, later⟩

theorem goes_repeats_succ {count : Nat} :
    Goes (Repeats matched (count + 1)) start stop ↔
      ∃ next, Goes matched start next ∧ Goes (Repeats matched count) next stop :=
  goes_inTurn

theorem goes_repeats_add (first second : Nat) (inside : start.IsIn text) :
    Goes (Repeats matched (first + second)) start stop ↔
      ∃ middle, Goes (Repeats matched first) start middle ∧
        Goes (Repeats matched second) middle stop := by
  induction first generalizing start with
  | zero => simp only [Nat.zero_add, goes_repeats_zero matched inside, exists_eq_left']
  | succ first ih =>
      simp only [Nat.succ_add, goes_repeats_succ]
      constructor
      · rintro ⟨next, here, later⟩
        obtain ⟨middle, further, last⟩ := (ih (here.isIn inside)).mp later
        exact ⟨middle, ⟨next, here, further⟩, last⟩
      · rintro ⟨middle, ⟨next, here, further⟩, last⟩
        exact ⟨next, here, (ih (here.isIn inside)).mpr ⟨middle, further, last⟩⟩

/-- From any place in a text a step reaches the places that a match leads to. -/
def Follows (step : Reach → List Reach) (matched : Text → Text → Text → Prop) : Prop :=
  ∀ text start, start.IsIn text → ∀ stop, stop ∈ step start ↔ Goes matched start stop

variable {step : Reach → List Reach} (follows : Follows step matched)

include follows

theorem Follows.isIn (within : start.IsIn text) : ∀ reach ∈ step start, reach.IsIn text := by
  intro reach member
  exact ((follows text start within reach).mp member).isIn within

theorem Follows.mem_stepAll {reaches : List Reach} (inside : ∀ reach ∈ reaches, reach.IsIn text) :
    stop ∈ stepAll step reaches ↔ ∃ start ∈ reaches, Goes matched start stop := by
  have found : stop ∈ stepAll step reaches ↔ ∃ start ∈ reaches, stop ∈ step start := by
    rw [stepAll, mem_distinct text, List.mem_flatMap]
    intro other member
    obtain ⟨start, listed, stepped⟩ := List.mem_flatMap.mp member
    exact follows.isIn (inside start listed) other stepped
  rw [found]
  constructor
  · rintro ⟨start, listed, stepped⟩
    exact ⟨start, listed, (follows text start (inside start listed) stop).mp stepped⟩
  · rintro ⟨start, listed, goes⟩
    exact ⟨start, listed, (follows text start (inside start listed) stop).mpr goes⟩

theorem Follows.isIn_stepAll {reaches : List Reach} (inside : ∀ reach ∈ reaches, reach.IsIn text) :
    ∀ reach ∈ stepAll step reaches, reach.IsIn text := by
  intro reach member
  obtain ⟨start, listed, goes⟩ := (follows.mem_stepAll inside).mp member
  exact goes.isIn (inside start listed)

theorem Follows.mem_after (count : Nat) {reaches : List Reach}
    (inside : ∀ reach ∈ reaches, reach.IsIn text) :
    stop ∈ after step count reaches ↔
      ∃ start ∈ reaches, Goes (Repeats matched count) start stop := by
  induction count generalizing reaches with
  | zero => rw [after, ← mem_iff_goes_zero matched inside]
  | succ count ih =>
      cases reaches with
      | nil => simp [after]
      | cons first reaches =>
          simp only [after, ih (follows.isIn_stepAll inside), follows.mem_stepAll inside,
            goes_repeats_succ]
          constructor
          · rintro ⟨next, ⟨start, listed, here⟩, later⟩
            exact ⟨start, listed, next, here, later⟩
          · rintro ⟨start, listed, next, here, later⟩
            exact ⟨next, ⟨start, listed, here⟩, later⟩

theorem Follows.still :
    Follows (fun reach => (step reach).filter (!·.isBehind reach))
      (fun front inside rest => inside = [] ∧ matched front inside rest) := by
  intro text start within stop
  rw [List.mem_filter, follows text start within]
  constructor
  · rintro ⟨⟨front, inside, rest, rfl, rfl, here⟩, stays⟩
    refine ⟨front, inside, rest, rfl, rfl, ?_, here⟩
    simpa [isBehind, between, Place.between] using stays
  · rintro ⟨front, inside, rest, rfl, rfl, rfl, here⟩
    exact ⟨⟨front, [], rest, rfl, rfl, here⟩, by simp [isBehind, between, Place.between]⟩

/-- What does not move stays at the reaches it starts from. -/
theorem Follows.mem_of_still {reaches : List Reach} (inside : ∀ reach ∈ reaches, reach.IsIn text)
    (stays : stop ∈ stepAll (fun reach => (step reach).filter (!·.isBehind reach)) reaches) :
    stop ∈ reaches := by
  obtain ⟨start, listed, front, -, rest, rfl, rfl, rfl, -⟩ := (follows.still.mem_stepAll inside).mp stays
  simpa using listed

theorem Follows.forward :
    Follows (fun reach => (step reach).filter (·.isBehind reach)) (Moving matched) := by
  intro text start within stop
  rw [List.mem_filter, follows text start within]
  constructor
  · rintro ⟨⟨front, inside, rest, rfl, rfl, here⟩, moves⟩
    refine ⟨front, inside, rest, rfl, rfl, ?_, here⟩
    rintro rfl
    simp [isBehind, between, Place.between] at moves
  · rintro ⟨front, inside, rest, rfl, rfl, some, here⟩
    have long := List.length_pos_iff.mpr some
    exact ⟨⟨front, inside, rest, rfl, rfl, here⟩, by simp [isBehind, between, Place.between, long]⟩

theorem Follows.mem_levels (count : Nat) {reaches : List Reach}
    (inside : ∀ reach ∈ reaches, reach.IsIn text) :
    stop ∈ (levels step count reaches).flatten ↔ ∃ steps ≤ count, ∃ start ∈ reaches,
      Goes (Repeats (Moving matched) steps) start stop := by
  induction count generalizing reaches with
  | zero =>
      have here : stop ∈ reaches ↔ _ := mem_iff_goes_zero (Moving matched) inside
      cases reaches with
      | nil => simp [levels]
      | cons first reaches => simpa [levels] using here
  | succ count ih =>
      cases reaches with
      | nil => simp [levels]
      | cons first reaches =>
          have within := follows.forward.isIn_stepAll inside
          simp only [levels, List.flatten_cons, List.mem_append, ih within,
            follows.forward.mem_stepAll inside]
          rw [← or_assoc, or_iff_left_of_imp (follows.mem_of_still inside),
            mem_iff_goes_zero (Moving matched) inside]
          constructor
          · rintro (⟨start, listed, goes⟩ | ⟨steps, few, next, ⟨start, listed, here⟩, later⟩)
            · exact ⟨0, Nat.zero_le _, start, listed, goes⟩
            · exact ⟨steps + 1, Nat.succ_le_succ few, start, listed,
                goes_repeats_succ.mpr ⟨next, here, later⟩⟩
          · rintro ⟨steps, few, start, listed, goes⟩
            cases steps with
            | zero => exact .inl ⟨start, listed, goes⟩
            | succ steps =>
                obtain ⟨next, here, later⟩ := goes_repeats_succ.mp goes
                exact .inr ⟨steps, Nat.le_of_succ_le_succ few, next, ⟨start, listed, here⟩, later⟩

end Steps

end Reach

section Matches

variable {matched : Text → Text → Text → Prop} {front inside rest : Text}

theorem Repeats.of_moving {count : Nat}
    (repeats : Repeats (Moving matched) count front inside rest) :
    Repeats matched count front inside rest := by
  induction count generalizing front inside with
  | zero => exact repeats
  | succ count ih =>
      obtain ⟨start, stop, rfl, here, later⟩ := repeats
      exact ⟨start, stop, rfl, here.2, ih later⟩

/-- Matches that take up nothing can be left out; of the others there are not more than
characters. -/
theorem Repeats.moving {count : Nat} (repeats : Repeats matched count front inside rest) :
    ∃ steps ≤ count, steps ≤ inside.length ∧ Repeats (Moving matched) steps front inside rest := by
  induction count generalizing front inside with
  | zero => exact ⟨0, Nat.le_refl _, Nat.zero_le _, repeats⟩
  | succ count ih =>
      obtain ⟨start, stop, rfl, here, later⟩ := repeats
      obtain ⟨steps, few, short, moving⟩ := ih later
      by_cases empty : start = []
      · subst empty
        exact ⟨steps, by omega, by simpa using short, by simpa using moving⟩
      · have long := List.length_pos_iff.mpr empty
        refine ⟨steps + 1, by omega, ?_, start, stop, rfl, ⟨empty, here⟩, moving⟩
        rw [List.length_append]
        omega

end Matches

section Search

open Reach (Follows Goes IsIn goes_between)

variable {step : Reach → List Reach} {matched : Text → Text → Text → Prop}

/-- As many matches as are asked for, and no more than are allowed. -/
def Within (least : Nat) (most : Option Nat) (matched : Text → Text → Text → Prop)
    (front inside rest : Text) : Prop :=
  ∃ count, least ≤ count ∧ (∀ bound ∈ most, count ≤ bound) ∧ Repeats matched count front inside rest

/-- How many matches there may be beyond those that are asked for. -/
def beyond (least : Nat) (most : Option Nat) (room : Nat) : Nat :=
  (most.map fun most => min (most - least) room).getD room

theorem goes_within {least : Nat} {most : Option Nat} (fits : ∀ bound ∈ most, least ≤ bound)
    {text : Text} {start stop : Reach} (within : start.IsIn text) {room : Nat}
    (wide : start.place.after.length ≤ room) :
    Goes (Within least most matched) start stop ↔ ∃ steps ≤ beyond least most room, ∃ middle,
      Goes (Repeats matched least) start middle ∧
        Goes (Repeats (Moving matched) steps) middle stop := by
  constructor
  · rintro ⟨front, inside, rest, rfl, rfl, count, enough, few, repeats⟩
    obtain ⟨further, rfl⟩ := Nat.exists_eq_add_of_le enough
    obtain ⟨middle, here, later⟩ := (Reach.goes_repeats_add least further within).mp
      ⟨front, inside, rest, rfl, rfl, repeats⟩
    obtain ⟨first, back, split, rfl, -⟩ := goes_between.mp here
    obtain ⟨others, last, rfl, same, moves⟩ := goes_between.mp later
    obtain ⟨steps, less, short, moving⟩ := moves.moving
    refine ⟨steps, ?_, _, here, goes_between.mpr ⟨others, last, rfl, same, moving⟩⟩
    -- each of these steps takes up a character, so there is room for all of them
    have roomy : steps ≤ room := by
      have long := congrArg List.length split
      simp only [Reach.between, Place.between, List.length_append] at wide long
      omega
    cases most with
    | none => exact roomy
    | some bound =>
        have allowed := few bound rfl
        exact Nat.le_min.mpr ⟨by omega, roomy⟩
  · rintro ⟨steps, few, middle, here, ⟨front, inside, rest, rfl, rfl, moving⟩⟩
    have whole := (Reach.goes_repeats_add least steps within).mpr
      ⟨_, here, front, inside, rest, rfl, rfl, moving.of_moving⟩
    obtain ⟨front, inside, rest, rfl, same, repeats⟩ := whole
    refine ⟨front, inside, rest, rfl, same, least + steps, Nat.le_add_right _ _, ?_, repeats⟩
    rintro bound ⟨⟩
    have allowed := fits bound rfl
    have few : steps ≤ min (bound - least) room := few
    omega

theorem mem_reverse_flatten {α : Type} {lists : List (List α)} {a : α} :
    a ∈ lists.reverse.flatten ↔ a ∈ lists.flatten := by
  simp [List.mem_flatten]

/-- Greed orders the reaches of a repetition and leaves none of them out. -/
theorem mem_repeated (text : Text) {least : Nat} {most : Option Nat} {greed : Greed}
    (free : greed ≠ .possessive) {start stop : Reach} {found : List (List Reach)}
    (searched : Reach.levels step (beyond least most start.place.after.length)
      (Reach.after step least [start]) = found)
    (inside : ∀ reach ∈ found.flatten, reach.IsIn text) :
    stop ∈ Reach.repeated step least most greed start ↔ stop ∈ found.flatten := by
  subst searched
  cases greed with
  | possessive => exact absurd rfl free
  | least => exact Reach.mem_distinct text inside
  | most =>
      rw [← mem_reverse_flatten]
      exact Reach.mem_distinct text fun reach member => inside reach (mem_reverse_flatten.mp member)

theorem follows_repeated (follows : Follows step matched) {least : Nat} {most : Option Nat}
    (fits : ∀ bound ∈ most, least ≤ bound) {greed : Greed} (free : greed ≠ .possessive) :
    Follows (Reach.repeated step least most greed) (Within least most matched) := by
  intro text start within stop
  have alone : ∀ reach ∈ [start], reach.IsIn text := by simpa using within
  have first : ∀ reach ∈ Reach.after step least [start], reach.IsIn text := by
    intro reach member
    obtain ⟨_, listed, goes⟩ := (follows.mem_after least alone).mp member
    exact goes.isIn (alone _ listed)
  rw [mem_repeated text free rfl, follows.mem_levels _ first,
    goes_within fits within (Nat.le_refl _)]
  · simp only [follows.mem_after least alone, List.mem_singleton, exists_eq_left]
  · intro reach member
    obtain ⟨_, -, middle, listed, goes⟩ := (follows.mem_levels _ first).mp member
    exact goes.isIn (first middle listed)

theorem exists_goes_iff (follows : Follows step matched) (front back : Text) :
    (∃ stop, stop ∈ step (.between front back)) ↔
      ∃ found after, back = found ++ after ∧ matched front found after := by
  simp only [follows _ _ ⟨front, back, rfl, rfl⟩, goes_between]
  constructor
  · rintro ⟨_, found, after, rfl, -, here⟩
    exact ⟨found, after, rfl, here⟩
  · rintro ⟨found, after, rfl, here⟩
    exact ⟨_, found, after, rfl, rfl, here⟩

theorem mem_backward {place : Place} {reversed after : Text} :
    place ∈ Place.backward after reversed ↔ ∃ before found, reversed.reverse = before ++ found ∧
      place = .between before (found ++ after) := by
  induction reversed generalizing after with
  | nil =>
      rw [Place.backward, List.mem_singleton, List.reverse_nil]
      constructor
      · rintro rfl
        exact ⟨[], [], rfl, rfl⟩
      · rintro ⟨before, found, split, rfl⟩
        obtain ⟨rfl, rfl⟩ := List.append_eq_nil_iff.mp split.symm
        rfl
  | cons c reversed ih =>
      rw [Place.backward, List.mem_cons, ih]
      constructor
      · rintro (rfl | ⟨before, found, split, rfl⟩)
        · exact ⟨(c :: reversed).reverse, [], by simp, by simp [Place.between]⟩
        · exact ⟨before, found ++ [c], by simp [split], by simp⟩
      · rintro ⟨before, found, split, rfl⟩
        rcases List.eq_nil_or_concat found with rfl | ⟨found, d, rfl⟩
        · left
          rw [List.append_nil] at split
          simp [← split, Place.between]
        · rw [List.concat_eq_append, List.reverse_cons, ← List.append_assoc] at split
          obtain ⟨shorter, same⟩ := List.append_inj' split rfl
          obtain rfl := List.singleton_inj.mp same
          exact .inr ⟨before, found, shorter, by simp⟩

theorem mem_onward {place : Place} {front back : Text} :
    place ∈ Place.onward front.length front.reverse back ↔ ∃ skipped rest, back = skipped ++ rest ∧
      place = .between (front ++ skipped) rest := by
  induction back generalizing front with
  | nil =>
      rw [Place.onward, List.mem_singleton]
      constructor
      · rintro rfl
        exact ⟨[], [], rfl, by simp [Place.between]⟩
      · rintro ⟨skipped, rest, split, rfl⟩
        obtain ⟨rfl, rfl⟩ := List.append_eq_nil_iff.mp split.symm
        simp [Place.between]
  | cons c back ih =>
      have next := @ih (front ++ [c])
      rw [List.length_append, List.reverse_append, List.length_singleton, List.reverse_singleton,
        List.singleton_append] at next
      rw [Place.onward, List.mem_cons, next]
      constructor
      · rintro (rfl | ⟨skipped, rest, rfl, rfl⟩)
        · exact ⟨[], c :: back, rfl, by simp [Place.between]⟩
        · exact ⟨c :: skipped, rest, rfl, by simp⟩
      · rintro ⟨skipped, rest, split, rfl⟩
        cases skipped with
        | nil =>
            left
            rw [List.nil_append] at split
            simp [← split, Place.between]
        | cons d skipped =>
            obtain ⟨rfl, rfl⟩ := List.cons.inj split
            exact .inr ⟨skipped, rest, rfl, by simp⟩

theorem follows_sequence {other : Reach → List Reach} {further : Text → Text → Text → Prop}
    (first : Follows step matched) (second : Follows other further) :
    Follows (fun start => Reach.stepAll other (step start)) (InTurn matched further) := by
  intro text start within stop
  rw [second.mem_stepAll (first.isIn within), Reach.goes_inTurn]
  simp only [first text start within]

theorem follows_either {other : Reach → List Reach} {further : Text → Text → Text → Prop}
    (first : Follows step matched) (second : Follows other further) :
    Follows (fun start => Reach.distinct (step start ++ other start)) fun front inside rest =>
      matched front inside rest ∨ further front inside rest := by
  intro text start within stop
  rw [Reach.mem_distinct text, List.mem_append, first text start within,
    second text start within]
  · constructor
    · rintro (⟨front, inside, rest, rfl, rfl, here⟩ | ⟨front, inside, rest, rfl, rfl, here⟩)
      · exact ⟨front, inside, rest, rfl, rfl, .inl here⟩
      · exact ⟨front, inside, rest, rfl, rfl, .inr here⟩
    · rintro ⟨front, inside, rest, rfl, rfl, here | here⟩
      · exact .inl ⟨front, inside, rest, rfl, rfl, here⟩
      · exact .inr ⟨front, inside, rest, rfl, rfl, here⟩
  · exact List.forall_mem_append.mpr ⟨first.isIn within, second.isIn within⟩

/-- A step that stays where it is, under a condition, matches nothing under this condition. -/
theorem follows_condition {condition : Text → Text → Prop}
    (stays : ∀ front back, condition front back →
      step (.between front back) = [.between front back])
    (fails : ∀ front back, ¬condition front back → step (.between front back) = []) :
    Follows step fun front inside rest => inside = [] ∧ condition front rest := by
  rintro _ _ ⟨front, back, rfl, rfl⟩ stop
  rw [goes_between]
  by_cases holds : condition front back
  · rw [stays front back holds, List.mem_singleton]
    constructor
    · rintro rfl
      exact ⟨[], back, rfl, by rw [List.append_nil], rfl, holds⟩
    · rintro ⟨inside, rest, rfl, rfl, rfl, -⟩
      rw [List.append_nil, List.nil_append]
  · rw [fails front back holds]
    simp only [List.not_mem_nil, false_iff, not_exists, not_and]
    rintro _ rest rfl - rfl
    exact holds

/-- A look around stays where it is if it is answered as asked; what it has found is only kept with
the place that it started from. -/
theorem follows_look {met : Text → Text → Prop} {look : Reach → List Reach}
    {keep : Reach → Reach → Reach} (negated : Bool)
    (kept : ∀ front back, ∀ found ∈ look (.between front back),
      keep (.between front back) found = .between front back)
    (answers : ∀ front back, (∃ found, found ∈ look (.between front back)) ↔ met front back) :
    Follows (fun start =>
      match look start with
      | [] => if negated then [start] else []
      | found :: _ => if negated then [] else [keep start found])
      fun front inside rest => inside = [] ∧ (negated = false ↔ met front rest) := by
  apply follows_condition
  · intro front back holds
    rw [← answers] at holds
    cases reached : look (.between front back) with
    | nil =>
        have negates : negated = true := by simpa [reached] using holds
        simp [negates]
    | cons found others =>
        have affirms : negated = false := by simpa [reached, exists_or] using holds
        simp [affirms, kept front back found (by simp [reached])]
  · intro front back fails
    rw [← answers] at fails
    cases reached : look (.between front back) with
    | nil =>
        have affirms : negated = false := by simpa [reached] using fails
        simp [affirms]
    | cons found others =>
        have negates : negated = true := by simpa [reached, exists_or] using fails
        simp [negates]

theorem follows_ahead (follows : Follows step matched) (negated : Bool) :
    Follows (fun start =>
      match step start with
      | [] => if negated then [start] else []
      | found :: _ => if negated then [] else [{ found with place := start.place }])
      fun front inside rest => inside = [] ∧
        (negated = false ↔ ∃ found after, rest = found ++ after ∧ matched front found after) := by
  refine follows_look negated ?_ (exists_goes_iff follows)
  intro front back found listed
  obtain ⟨_, _, -, rfl, -⟩ :=
    goes_between.mp ((follows _ _ ⟨front, back, rfl, rfl⟩ found).mp listed)
  rfl

/-- The matches that end at a place, from all places before it. -/
theorem mem_ends (follows : Follows step matched) {front back : Text} {reach : Reach} :
    reach ∈ ((Place.backward back front.reverse).flatMap fun place =>
        (step ⟨place, []⟩).filter fun reach => reach.place.offset == front.length) ↔
      reach = .between front back ∧
        ∃ before found, front = before ++ found ∧ matched before found back := by
  simp only [List.mem_flatMap, mem_backward, List.reverse_reverse, List.mem_filter, beq_iff_eq]
  constructor
  · rintro ⟨_, ⟨before, found, rfl, rfl⟩, stepped, ends⟩
    obtain ⟨inside, rest, split, rfl, here⟩ :=
      goes_between.mp ((follows _ _ ⟨before, found ++ back, rfl, rfl⟩ reach).mp stepped)
    have long : found.length = inside.length := by
      simpa [Reach.between, Place.between] using ends.symm
    obtain ⟨rfl, rfl⟩ := List.append_inj split long
    exact ⟨rfl, before, found, rfl, here⟩
  · rintro ⟨rfl, before, found, rfl, here⟩
    refine ⟨_, ⟨before, found, rfl, rfl⟩, ?_, rfl⟩
    refine (follows _ _ ⟨before, found ++ back, rfl, rfl⟩ _).mpr ?_
    exact ⟨before, found, back, rfl, rfl, here⟩

theorem follows_behind (follows : Follows step matched) (negated : Bool) :
    Follows (fun start =>
      match (Place.backward start.place.after start.place.before).flatMap fun place =>
        (step { start with place := place }).filter fun reach =>
          reach.place.offset == start.place.offset with
      | [] => if negated then [start] else []
      | found :: _ => if negated then [] else [found])
      fun front inside rest => inside = [] ∧ (negated = false ↔
        ∃ before found, front = before ++ found ∧ matched before found rest) := by
  refine follows_look negated ?_ ?_
  · intro front back found listed
    exact ((mem_ends follows).mp listed).1
  · intro front back
    constructor
    · rintro ⟨found, listed⟩
      exact ((mem_ends follows).mp listed).2
    · intro here
      exact ⟨_, (mem_ends follows).mpr ⟨rfl, here⟩⟩

theorem follows_one (letters : Letters) (keeps : Nat → Bool) :
    Follows ((one letters).reaches keeps) (one letters).Matches := by
  rintro _ _ ⟨front, back, rfl, rfl⟩ stop
  rw [goes_between]
  cases back with
  | nil => simp [reaches, Reach.between, Place.between, Place.next?, Matches]
  | cons c back =>
      have next : (Reach.between front (c :: back)).place.next? =
          some (c, .between (front ++ [c]) back) := by
        simp [Reach.between, Place.between, Place.next?]
      simp only [reaches, next, Matches]
      constructor
      · intro member
        split at member
        · next accepted =>
            obtain rfl := List.mem_singleton.mp member
            exact ⟨[c], back, rfl, rfl, c, rfl, accepted⟩
        · simp at member
      · rintro ⟨_, rest, split, rfl, d, rfl, accepted⟩
        obtain ⟨rfl, rfl⟩ := List.cons.inj split
        rw [if_pos accepted]
        exact List.mem_cons_self

/-- The search for a plain pattern reaches the places behind its matches, and only these. -/
theorem follows_of_isPlain (keeps : Nat → Bool) (forgets : ∀ number, keeps number = false)
    {pattern : Pattern} (plain : pattern.isPlain = true) :
    Follows (pattern.reaches keeps) pattern.Matches := by
  induction pattern with
  | empty =>
      intro text start within stop
      rw [reaches, List.mem_singleton]
      exact eq_comm.trans (Reach.goes_repeats_zero empty.Matches within).symm
  | one letters => exact follows_one letters keeps
  | edge condition =>
      apply follows_condition
      · intro front back holds
        exact if_pos holds
      · intro front back fails
        exact if_neg fails
  | sequence first second ihFirst ihSecond =>
      simp only [isPlain, Bool.and_eq_true] at plain
      exact follows_sequence (ihFirst plain.1) (ihSecond plain.2)
  | either first second ihFirst ihSecond =>
      simp only [isPlain, Bool.and_eq_true] at plain
      exact follows_either (ihFirst plain.1) (ihSecond plain.2)
  | repeated least most greed body ih =>
      simp only [isPlain, Bool.and_eq_true, bne_iff_ne, Option.all_eq_true, decide_eq_true_eq]
        at plain
      exact follows_repeated (ih plain.2) plain.1.2 plain.1.1
  | group number body ih =>
      intro text start within stop
      rw [reaches, forgets, if_neg (by decide)]
      exact ih plain text start within stop
  | enclosed body ih => exact ih plain
  | ahead negated body ih => exact follows_ahead (ih plain) negated
  | behind negated body ih => exact follows_behind (ih plain) negated
  | atomic body => simp [isPlain] at plain
  | reference number letterCase => simp [isPlain] at plain
  | ifGroup number yes no => simp [isPlain] at plain

/-- A plain pattern is found in a text exactly if it matches a part of it. -/
theorem isFoundIn_iff {pattern : Pattern} (plain : pattern.isPlain = true) (text : Text) :
    pattern.isFoundIn text = true ↔
      ∃ front inside rest, text = front ++ (inside ++ rest) ∧
        pattern.Matches front inside rest := by
  have follows := follows_of_isPlain (fun number => pattern.references.contains number)
    (by simp [references_of_isPlain plain]) plain
  have starts (place : Place) := @mem_onward place [] text
  simp only [isFoundIn, List.any_eq_true, Bool.not_eq_true', List.isEmpty_eq_false_iff_exists_mem]
  constructor
  · rintro ⟨_, listed, stop, member⟩
    obtain ⟨front, back, rfl, rfl⟩ := (starts _).mp listed
    obtain ⟨inside, rest, rfl, -, here⟩ :=
      goes_between.mp ((follows _ _ ⟨front, back, rfl, rfl⟩ stop).mp member)
    exact ⟨front, inside, rest, rfl, here⟩
  · rintro ⟨front, inside, rest, rfl, here⟩
    refine ⟨_, (starts (.between front (inside ++ rest))).mpr ⟨front, _, rfl, rfl⟩,
      .between (front ++ inside) rest, ?_⟩
    refine (follows _ _ ⟨front, inside ++ rest, rfl, rfl⟩ _).mpr ?_
    exact ⟨front, inside, rest, rfl, rfl, here⟩

end Search

end MdxCheck.Pattern
