import MdxCheck.Proofs.Markdown.Closing

/-!
Reading positions of a content: how far a run of characters goes, and where labels, links and images
end.
-/

namespace MdxCheck.Markdown

/-- What is remembered of skipping leads on. -/
def Memo.Forward (memo : Memo) : Prop :=
  ∀ position stop : Nat, memo.skips[position]? = some (some stop) → position < stop

theorem Memo.Forward.remember {memo : Memo} (leads : memo.Forward) {position stop : Nat}
    (less : position < stop) :
    Memo.Forward { memo with skips := memo.skips.setIfInBounds position (some stop) } := by
  intro place past kept
  by_cases same : position = place
  · subst same
    rw [Array.getElem?_setIfInBounds_self] at kept
    split at kept
    · obtain rfl := Option.some.inj (Option.some.inj kept)
      exact less
    · simp at kept
  · rw [Array.getElem?_setIfInBounds_ne same] at kept
    exact leads place past kept

namespace Inline

section Reading

variable {content : Inline} {limit position : Nat}

theorem at_eq_some_iff {c : Char} :
    content.at? limit position = some c ↔ position < limit ∧ content.chars[position]? = some c := by
  simp [at?]

theorem slice_eq (content : Inline) (start stop : Nat) :
    content.slice start stop = (content.chars.toList.take stop).drop start := by
  rw [slice, Array.toList_extract, List.extract_eq_drop_take']

theorem getElem?_slice {start stop index : Nat} {c : Char}
    (found : (content.slice start stop)[index]? = some c) :
    content.chars[start + index]? = some c := by
  rw [slice_eq, List.getElem?_drop, List.getElem?_take] at found
  split at found
  · rwa [Array.getElem?_toList] at found
  · simp at found

theorem mem_slice {start stop place : Nat} {c : Char} (here : content.chars[place]? = some c)
    (low : start ≤ place) (high : place < stop) : c ∈ content.slice start stop := by
  apply List.mem_of_getElem? (i := place - start)
  rw [slice_eq, List.getElem?_drop, List.getElem?_take, if_pos (by omega), Nat.add_sub_cancel' low,
    Array.getElem?_toList, here]

/-- What is left of a content behind a character that closes something starts behind that
character. -/
theorem leftBehind_slice {stop : Char} {rest : Text}
    (left : LeftBehind stop (content.slice position content.chars.size) rest) :
    position < content.chars.size - rest.length ∧
      content.chars[content.chars.size - rest.length - 1]? = some stop := by
  obtain ⟨inside, whole⟩ := left
  have long := congrArg List.length whole
  rw [slice_eq, List.length_drop, List.length_take, Array.length_toList, List.length_append,
    List.length_cons] at long
  have last : (content.slice position content.chars.size)[inside.length]? = some stop := by
    rw [whole]
    simp
  have index : content.chars.size - rest.length - 1 = position + inside.length := by omega
  exact ⟨by omega, index ▸ getElem?_slice last⟩

theorem skipWhile_spec (accept : Char → Bool) (fuel : Nat) :
    ∀ position, position ≤ content.skipWhile accept limit fuel position ∧
      (∀ place, position ≤ place → place < content.skipWhile accept limit fuel position →
        ∃ c, content.chars[place]? = some c ∧ accept c = true) ∧
      (limit ≤ position + fuel → ∀ c,
        content.at? limit (content.skipWhile accept limit fuel position) = some c →
          accept c = false) := by
  induction fuel with
  | zero =>
      intro position
      refine ⟨Nat.le_refl _, ?_, ?_⟩
      · intro place low high
        simp only [skipWhile] at high
        omega
      · intro enough c found
        have inside := (at_eq_some_iff.mp found).1
        simp only [skipWhile] at inside
        omega
  | succ fuel ih =>
      intro position
      obtain ⟨forward, all, stops⟩ := ih (position + 1)
      rw [skipWhile]
      split
      · next c here =>
          split
          · next accepted =>
              refine ⟨by omega, ?_, fun enough => stops (by omega)⟩
              intro place low high
              by_cases first : place = position
              · subst first
                exact ⟨c, (at_eq_some_iff.mp here).2, accepted⟩
              · exact all place (by omega) high
          · next refused =>
              refine ⟨Nat.le_refl _, fun place low high => by omega, ?_⟩
              intro _ d found
              obtain rfl := Option.some.inj (here.symm.trans found)
              simpa using refused
      · next ended =>
          refine ⟨Nat.le_refl _, fun place low high => by omega, ?_⟩
          intro _ d found
          rw [ended] at found
          contradiction

variable (content limit position)

theorem past_ge (accept : Char → Bool) : position ≤ content.past accept limit position :=
  (skipWhile_spec accept _ position).1

variable {content limit position}

theorem accepts_of_past {accept : Char → Bool} {place : Nat} (low : position ≤ place)
    (high : place < content.past accept limit position) :
    ∃ c, content.chars[place]? = some c ∧ accept c = true :=
  (skipWhile_spec accept _ position).2.1 place low high

theorem refuses_past {accept : Char → Bool} {c : Char}
    (found : content.at? limit (content.past accept limit position) = some c) :
    accept c = false :=
  (skipWhile_spec accept _ position).2.2 (by omega) c found

theorem past_gt {accept : Char → Bool} {c : Char} (here : content.at? limit position = some c)
    (accepted : accept c = true) : position < content.past accept limit position := by
  rcases Nat.lt_or_eq_of_le (past_ge content limit position accept) with forward | stays
  · exact forward
  · have refused : accept c = false := refuses_past (stays ▸ here)
    rw [accepted] at refused
    contradiction

end Reading

section Links

variable {content : Inline} {limit : Nat} {skip : Skip}

/-- Skipping leads on, and what is remembered of it does. -/
def SkipsForward (limit : Nat) (skip : Skip) : Prop :=
  ∀ memo position, memo.Forward → position < limit →
    (skip memo position).2.Forward ∧ position < (skip memo position).1

theorem labelEnd_spec (forward : SkipsForward limit skip) {nested : Bool} {fuel : Nat} :
    ∀ {opened position : Nat} {memo after : Memo} {found : Option Nat}, memo.Forward →
      content.labelEnd skip limit nested fuel opened memo position = (found, after) →
      after.Forward ∧
        ∀ last, found = some last → position ≤ last ∧ content.at? limit last = some ']' := by
  induction fuel with
  | zero =>
      intro opened position memo after found leads read
      obtain ⟨rfl, rfl⟩ := Prod.mk.inj read
      exact ⟨leads, by simp⟩
  | succ fuel ih =>
      intro opened position memo after found leads read
      rw [labelEnd] at read
      split at read
      · obtain ⟨rfl, rfl⟩ := Prod.mk.inj read
        exact ⟨leads, by simp⟩
      next c here =>
      split at read
      · next closes =>
          obtain ⟨rfl, rfl⟩ := Prod.mk.inj read
          refine ⟨leads, fun last same => ?_⟩
          obtain rfl := Option.some.inj same
          exact ⟨Nat.le_refl _, closes.1 ▸ here⟩
      · obtain ⟨leadsOn, further⟩ := forward memo position leads (at_eq_some_iff.mp here).1
        have step {opened : Nat} (rest : content.labelEnd skip limit nested fuel opened
            (skip memo position).2 (skip memo position).1 = (found, after)) :
            after.Forward ∧
              ∀ last, found = some last → position ≤ last ∧ content.at? limit last = some ']' := by
          obtain ⟨leadsAfter, ends⟩ := ih leadsOn rest
          refine ⟨leadsAfter, fun last same => ?_⟩
          obtain ⟨low, closed⟩ := ends last same
          exact ⟨by omega, closed⟩
        dsimp only at read
        split at read
        · split at read
          · exact step read
          · split at read
            · exact step read
            · obtain ⟨rfl, rfl⟩ := Prod.mk.inj read
              exact ⟨leadsOn, by simp⟩
        · exact step read

theorem label_spec (forward : SkipsForward limit skip) {nested : Bool} {position : Nat}
    {memo after : Memo} {found : Option Nat} (leads : memo.Forward)
    (read : content.label skip limit nested memo position = (found, after)) :
    after.Forward ∧
      ∀ last, found = some last → position < last ∧ content.at? limit last = some ']' :=
  labelEnd_spec forward leads read

/-- Where a target that is read from a position on may end. -/
def EndsTarget (content : Inline) (position : Nat) : TargetEnd → Prop
  | .outside => True
  | .closed stop => position < stop ∧ content.chars[stop - 1]? = some ')'
  | .other stop => position ≤ stop

variable (content limit) in
theorem target_spec (position : Nat) :
    EndsTarget content position (content.target limit position) := by
  have reached := past_ge content limit position isSpaceOrFeed
  unfold target
  dsimp only
  generalize content.past isSpaceOrFeed limit position = start at *
  split
  · trivial
  -- at a closing parenthesis or before another character, the target ends behind its start
  split
  case' h_1 closed =>
    refine ⟨Nat.lt_succ_of_le (Nat.le_trans reached ?_), (at_eq_some_iff.mp closed).2⟩
  case' h_2 => refine Nat.le_trans reached ?_
  all_goals
    split
    · exact Nat.le_refl _
    next destination length _ =>
    have low : start ≤ if Address.isAllowed destination then start + length else start := by
      split <;> omega
    -- after the destination come blanks, perhaps a title, and blanks again
    generalize (if Address.isAllowed destination = true then start + length else start) = stop at *
    have spaces := past_ge content limit stop isSpaceOrFeed
    generalize content.past isSpaceOrFeed limit stop = title at *
    split
    · split
      · next count _ =>
          have further := past_ge content limit (title + count) isSpaceOrFeed
          omega
      · omega
    · omega

theorem reference_spec (forward : SkipsForward limit skip) {first last position : Nat}
    {memo after : Memo} {found : Option Nat} (leads : memo.Forward)
    (read : content.reference? skip limit memo first last position = (found, after)) :
    after.Forward ∧ ∀ stop, found = some stop → stop = last + 1 ∨
      position + 1 < stop ∧ content.chars[position]? = some '[' ∧
        content.chars[stop - 1]? = some ']' := by
  rw [reference?] at read
  split at read
  · obtain ⟨rfl, rfl⟩ := Prod.mk.inj read
    exact ⟨leads, by simp⟩
  by_cases opens : content.at? limit position = some '['
  · simp only [opens, if_true] at read
    rcases labelled : content.label skip limit true memo position with ⟨second, ending⟩
    obtain ⟨leadsOn, closes⟩ := label_spec forward leads labelled
    rw [labelled] at read
    obtain ⟨same, rfl⟩ := Prod.mk.inj read
    refine ⟨leadsOn, fun stop isStop => ?_⟩
    rw [← same, Option.ite_none_right_eq_some] at isStop
    cases second with
    | none => exact .inl (Option.some.inj isStop.2).symm
    | some close =>
        obtain ⟨low, closed⟩ := closes close rfl
        obtain rfl : close + 1 = stop := Option.some.inj isStop.2
        exact .inr ⟨by omega, (at_eq_some_iff.mp opens).2, (at_eq_some_iff.mp closed).2⟩
  · simp only [opens, if_false] at read
    obtain ⟨same, rfl⟩ := Prod.mk.inj read
    refine ⟨leads, fun stop isStop => .inl ?_⟩
    rw [← same, Option.ite_none_right_eq_some] at isStop
    exact (Option.some.inj isStop.2).symm

/-- The closing bracket of a label, and where its link or image ends: behind that bracket, or behind
the target or the second label that follows it. -/
structure IsSpan (content : Inline) (last stop : Nat) : Prop where
  label : content.chars[last]? = some ']'
  target : stop = last + 1 ∨ last + 1 < stop ∧
    (content.chars[last + 1]? = some '(' ∨ content.chars[last + 1]? = some '[') ∧
    (content.chars[stop - 1]? = some ')' ∨ content.chars[stop - 1]? = some ']')

/-- A reference that follows a label ends its link or image. -/
theorem reference_isSpan (forward : SkipsForward limit skip) {first last position : Nat}
    {memo after : Memo} {found : Option Nat} (leads : memo.Forward)
    (label : content.chars[last]? = some ']')
    (follows : position = last + 1 ∨
      last + 1 < position ∧ content.chars[last + 1]? = some '(')
    (read : content.reference? skip limit memo first last position = (found, after)) :
    after.Forward ∧ ∀ stop, found = some stop → IsSpan content last stop := by
  obtain ⟨leadsOn, ends⟩ := reference_spec forward leads read
  refine ⟨leadsOn, fun stop same => ⟨label, ?_⟩⟩
  rcases ends stop same with alone | ⟨less, opens, closes⟩
  · exact .inl alone
  · rcases follows with rfl | ⟨further, target⟩
    · exact .inr ⟨by omega, .inr opens, .inr closes⟩
    · exact .inr ⟨by omega, .inl target, .inr closes⟩

theorem link_spec (forward : SkipsForward limit skip) {position : Nat}
    {memo after : Memo} {found : Option (Nat × Nat)} (leads : memo.Forward)
    (read : content.link? skip limit memo position = (found, after)) :
    after.Forward ∧ ∀ last stop, found = some (last, stop) →
      position < last ∧ IsSpan content last stop := by
  rw [link?] at read
  rcases labelled : content.label skip limit false memo position with ⟨close, ending⟩
  obtain ⟨leadsOn, closes⟩ := label_spec forward leads labelled
  rw [labelled] at read
  cases close with
  | none =>
      obtain ⟨rfl, rfl⟩ := Prod.mk.inj read
      exact ⟨leadsOn, by simp⟩
  | some close =>
      obtain ⟨low, closed⟩ := closes close rfl
      have label := (at_eq_some_iff.mp closed).2
      dsimp only at read
      have refers (behind : Nat)
          (follows : behind = close + 1 ∨
            close + 1 < behind ∧ content.chars[close + 1]? = some '(')
          (read : ((content.reference? skip limit ending (position + 1) close behind).1.map
              fun stop => (close, stop),
            (content.reference? skip limit ending (position + 1) close behind).2) =
              (found, after)) :
          after.Forward ∧ ∀ last stop, found = some (last, stop) →
            position < last ∧ IsSpan content last stop := by
        obtain ⟨leadsAfter, spans⟩ := reference_isSpan forward leadsOn label follows
          (rfl : content.reference? skip limit ending (position + 1) close behind = (_, _))
        obtain ⟨same, rfl⟩ := Prod.mk.inj read
        refine ⟨leadsAfter, fun last stop isLink => ?_⟩
        obtain ⟨past, reached, both⟩ := Option.map_eq_some_iff.mp (same.trans isLink)
        obtain ⟨rfl, rfl⟩ := Prod.mk.inj both
        exact ⟨low, spans _ reached⟩
      split at read
      · next opens =>
          have targeted := target_spec content limit (close + 2)
          split at read
          · obtain ⟨rfl, rfl⟩ := Prod.mk.inj read
            exact ⟨leadsOn, by simp⟩
          · next past same =>
              rw [same] at targeted
              obtain ⟨rfl, rfl⟩ := Prod.mk.inj read
              refine ⟨leadsOn, fun last stop isLink => ?_⟩
              obtain ⟨rfl, rfl⟩ := Prod.mk.inj (Option.some.inj isLink)
              exact ⟨low, label, .inr ⟨by have := targeted.1; omega,
                .inl (at_eq_some_iff.mp opens).2, .inl targeted.2⟩⟩
          · next past same =>
              rw [same] at targeted
              have further : close + 2 ≤ past := targeted
              exact refers (past + 1) (.inr ⟨by omega, (at_eq_some_iff.mp opens).2⟩) read
      · exact refers (close + 1) (.inl rfl) read

theorem image_spec (forward : SkipsForward limit skip) {position : Nat}
    {memo after : Memo} {found : Option (Nat × Nat)} (leads : memo.Forward)
    (read : content.image? skip limit memo position = (found, after)) :
    after.Forward ∧ ∀ last stop, found = some (last, stop) →
      content.at? limit (position + 1) = some '[' ∧ position + 1 < last ∧
        IsSpan content last stop := by
  rw [image?] at read
  split at read
  · obtain ⟨rfl, rfl⟩ := Prod.mk.inj read
    exact ⟨leads, by simp⟩
  next opens =>
  rcases labelled : content.label skip limit true memo (position + 1) with ⟨close, ending⟩
  obtain ⟨leadsOn, closes⟩ := label_spec forward leads labelled
  rw [labelled] at read
  cases close with
  | none =>
      obtain ⟨rfl, rfl⟩ := Prod.mk.inj read
      exact ⟨leadsOn, by simp⟩
  | some close =>
      obtain ⟨low, closed⟩ := closes close rfl
      have label := (at_eq_some_iff.mp closed).2
      dsimp only at read
      split at read
      · next target =>
          have targeted := target_spec content limit (close + 2)
          split at read
          · next past same =>
              rw [same] at targeted
              obtain ⟨rfl, rfl⟩ := Prod.mk.inj read
              refine ⟨leadsOn, fun last stop isImage => ?_⟩
              obtain ⟨rfl, rfl⟩ := Prod.mk.inj (Option.some.inj isImage)
              exact ⟨Decidable.not_not.mp opens, low, label, .inr ⟨by have := targeted.1; omega,
                .inl (at_eq_some_iff.mp target).2, .inl targeted.2⟩⟩
          · obtain ⟨rfl, rfl⟩ := Prod.mk.inj read
            exact ⟨leadsOn, by simp⟩
      · obtain ⟨leadsAfter, spans⟩ := reference_isSpan forward leadsOn label (.inl rfl)
          (rfl : content.reference? skip limit ending (position + 2) close (close + 1) = (_, _))
        obtain ⟨same, rfl⟩ := Prod.mk.inj read
        refine ⟨leadsAfter, fun last stop isImage => ?_⟩
        obtain ⟨past, reached, both⟩ := Option.map_eq_some_iff.mp (same.trans isImage)
        obtain ⟨rfl, rfl⟩ := Prod.mk.inj both
        exact ⟨Decidable.not_not.mp opens, low, spans _ reached⟩

theorem IsSpan.less {last stop : Nat} (span : IsSpan content last stop) : last < stop := by
  rcases span.target with rfl | ⟨less, -⟩
  · exact Nat.lt_succ_self last
  · omega

end Links

end Inline

end MdxCheck.Markdown
