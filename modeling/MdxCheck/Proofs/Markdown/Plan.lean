import MdxCheck.Proofs.Markdown.Advance
import MdxCheck.Proofs.Markdown.Plain

/-!
Reading lines whose fenced code is known beforehand: where the other lines are plain, the fenced code that
is found is just this.
-/

namespace MdxCheck.Markdown

/-- A line goes on with the fenced code of a line before: it holds nothing, or it is not to the left of
that line and does not close the code. -/
structure Line.StaysIn (line : Line) (fence : Fence) (opener : Line) : Prop where
  ended : line.isEmpty = true → line.ended = true
  left : line.isEmpty = false → opener.indent ≤ line.indent
  fence : line.isEmpty = false → fence.closedBy line.content = false

structure Line.Closes (line : Line) (fence : Fence) (opener : Line) : Prop where
  shown : line.isEmpty = false
  left : opener.indent ≤ line.indent
  right : line.indent < 4
  fence : fence.closedBy line.content = true

/-- Fenced code from line `start` on. If it is `closed`, line `last` closes it, otherwise it goes on up to
the end. -/
structure CodeRun (line : Nat → Line) (limit start : Nat) (fence : Fence) (last : Nat) (closed : Bool) :
    Prop where
  opens : (line start).OpensFence
  found : Markdown.fence? (line start).content = some fence
  forward : start < last
  within : last ≤ limit
  stays : ∀ n, start < n → n < last → (line n).StaysIn fence (line start)
  ends : if closed then last < limit ∧ (line last).Closes fence (line start) else last = limit

/-- Lines whose fenced code is known: reading may stop before a `safe` line, and at one that is not
`flagged` the line is plain. Before an `html` line a block of HTML may be open. Of the flagged lines, an
`opening` one opens fenced code. -/
structure Plan where
  limit : Nat
  line : Nat → Line
  text : Nat → Text
  flagged : Nat → Prop
  opening : Nat → Prop
  safe : Nat → Prop
  html : Nat → Prop
  stands : ∀ n, (line n).Stands (text n)
  inside : ∀ n, flagged n → n < limit
  flagged_of_opening : ∀ n, opening n → flagged n
  plain : ∀ n, safe n → n < limit → ¬flagged n → isPlain (text n) = true ∧ safe (n + 1)
  opensHtml : ∀ n, safe n → n < limit → ¬flagged n → opensHtml (text n) = true → html (n + 1)
  goesOn : ∀ n, html n → n < limit → (line n).isEmpty = false → html (n + 1)
  safe_of_html : ∀ n, html n → safe n ∧ ¬flagged n
  code : ∀ n, safe n → flagged n → ∃ fence last closed, CodeRun line limit n fence last closed ∧
    safe (if closed then last + 1 else last) ∧
    ∀ m, n ≤ m → m < (if closed then last + 1 else last) → flagged m ∧ (opening m → m = n)

namespace Plan

variable {plan : Plan}

/-- No line from `start` to below `wall` is fenced code, and what follows is, if anything does. -/
structure Wall (plan : Plan) (start wall : Nat) : Prop where
  forward : start ≤ wall
  within : wall ≤ plan.limit
  safe : ∀ n, start ≤ n → n ≤ wall → plan.safe n
  clear : ∀ n, start ≤ n → n < wall → ¬plan.flagged n
  ends : wall < plan.limit → plan.flagged wall

theorem wall_exists {start : Nat} (safe : plan.safe start) (inside : start ≤ plan.limit) :
    ∃ wall, plan.Wall start wall := by
  -- by induction on the lines that are left: behind a plain line the next one is safe again
  induction more : plan.limit - start generalizing start with
  | zero =>
      refine ⟨start, Nat.le_refl _, inside, fun n lower upper => ?_, fun n lower upper => ?_,
        fun more => ?_⟩
      · exact Nat.le_antisymm lower upper ▸ safe
      · omega
      · omega
  | succ left ih =>
      by_cases flagged : plan.flagged start
      · refine ⟨start, Nat.le_refl _, inside, fun n lower upper => ?_, fun n lower upper => ?_,
          fun _ => flagged⟩
        · exact Nat.le_antisymm lower upper ▸ safe
        · omega
      · obtain ⟨-, next⟩ := plan.plain start safe (by omega) flagged
        obtain ⟨wall, later⟩ := ih next (by omega) (by omega)
        have forward := later.forward
        refine ⟨wall, by omega, later.within, fun n lower upper => ?_, fun n lower upper => ?_,
          later.ends⟩
        · by_cases same : n = start
          · exact same ▸ safe
          · exact later.safe n (by omega) upper
        · by_cases same : n = start
          · exact same ▸ flagged
          · exact later.clear n (by omega) upper

/-- A view of the lines from `start` on: the first of them may have lost markers. -/
structure Shows (plan : Plan) (view : View) (start : Nat) : Prop where
  limit : view.limit = plan.limit
  later : ∀ n, start < n → view.line n = plan.line n
  here : view.line start = plan.line start ∨
    ¬plan.flagged start ∧ (view.line start).Stands (plan.text start)

namespace Shows

variable {view : View} {start : Nat} (shows : plan.Shows view start)

include shows

theorem mono {n : Nat} (lower : start ≤ n) : plan.Shows view n := by
  by_cases same : start = n
  · exact same ▸ shows
  · exact ⟨shows.limit, fun m later => shows.later m (by omega), .inl (shows.later n (by omega))⟩

theorem stands : (view.line start).Stands (plan.text start) := by
  rcases shows.here with same | ⟨-, stands⟩
  · rw [same]
    exact plan.stands start
  · exact stands

theorem eq_of_flagged (flagged : plan.flagged start) : view.line start = plan.line start := by
  rcases shows.here with same | ⟨clear, -⟩
  · exact same
  · exact absurd flagged clear

theorem opens (safe : plan.safe start) (flagged : plan.flagged start) :
    (view.line start).OpensFence := by
  obtain ⟨fence, last, closed, run, -⟩ := plan.code start safe flagged
  rw [shows.eq_of_flagged flagged]
  exact run.opens

theorem clear_of_isEmpty (safe : plan.safe start) (empty : (view.line start).isEmpty = true) :
    ¬plan.flagged start := by
  intro flagged
  have opens := shows.opens safe flagged
  rw [opens.shown] at empty
  contradiction

theorem walled {wall : Nat} (known : plan.Wall start wall) : view.Walled wall := by
  have later := shows.mono known.forward
  refine ⟨shows.limit ▸ known.within, fun inside => ?_⟩
  exact later.opens (known.safe wall known.forward (Nat.le_refl _))
    (known.ends (shows.limit ▸ inside))

end Shows

/-- Blocks read from line `start` on: fenced code among them opens at the opening lines and covers just
the flagged lines that were read. -/
structure Finds (plan : Plan) (start : Nat) (blocks : Blocks) : Prop where
  forward : start ≤ blocks.line
  within : blocks.line ≤ plan.limit
  safe : plan.safe blocks.line
  covers : ∀ n, Covers blocks.tokens n ↔ start ≤ n ∧ n < blocks.line ∧ plan.flagged n
  opens : ∀ n, start ≤ n → n < blocks.line → plan.opening n → OpensAt blocks.tokens n

namespace Finds

theorem clear {start : Nat} {blocks : Blocks} (forward : start ≤ blocks.line)
    (within : blocks.line ≤ plan.limit) (safe : plan.safe blocks.line)
    (clear : ∀ n, start ≤ n → n < blocks.line → ¬plan.flagged n)
    (none : ∀ n, ¬Covers blocks.tokens n) : plan.Finds start blocks where
  forward := forward
  within := within
  safe := safe
  covers n := by
    constructor
    · exact fun covered => absurd covered (none n)
    · rintro ⟨lower, upper, flagged⟩
      exact absurd flagged (clear n lower upper)
  opens n lower upper opening := absurd (plan.flagged_of_opening n opening) (clear n lower upper)

theorem of_walls {start : Nat} {blocks : Blocks} (safe : plan.safe start) (inside : start ≤ plan.limit)
    (forward : start ≤ blocks.line) (stops : ∀ wall, plan.Wall start wall → blocks.line ≤ wall)
    (none : ∀ n, ¬Covers blocks.tokens n) : plan.Finds start blocks := by
  obtain ⟨wall, known⟩ := wall_exists safe inside
  have reached := stops wall known
  refine clear forward (Nat.le_trans reached known.within) (known.safe _ forward reached) ?_ none
  exact fun n lower upper => known.clear n lower (Nat.lt_of_lt_of_le upper reached)

theorem widen {start number : Nat} {blocks : Blocks} (finds : plan.Finds start blocks)
    (before : number ≤ start) (clear : ∀ n, number ≤ n → n < start → ¬plan.flagged n) :
    plan.Finds number blocks where
  forward := Nat.le_trans before finds.forward
  within := finds.within
  safe := finds.safe
  covers n := by
    rw [finds.covers]
    constructor
    · exact fun ⟨lower, upper, flagged⟩ => ⟨by omega, upper, flagged⟩
    · rintro ⟨lower, upper, flagged⟩
      refine ⟨?_, upper, flagged⟩
      by_contra outside
      exact clear n lower (by omega) flagged
  opens n lower upper opening := by
    refine finds.opens n ?_ upper opening
    by_contra outside
    exact clear n lower (by omega) (plan.flagged_of_opening n opening)

theorem append {start middle : Nat} {first next : Blocks} (left : plan.Finds start first)
    (between : first.line ≤ middle) (clear : ∀ n, first.line ≤ n → n < middle → ¬plan.flagged n)
    (right : plan.Finds middle next) : plan.Finds start (first.append next) where
  forward := Nat.le_trans left.forward (Nat.le_trans between right.forward)
  within := right.within
  safe := right.safe
  covers n := by
    have forward := left.forward
    have further := right.forward
    rw [Blocks.append, covers_append, left.covers, right.covers]
    constructor
    · rintro (⟨lower, upper, flagged⟩ | ⟨lower, upper, flagged⟩)
      · exact ⟨lower, by simp only; omega, flagged⟩
      · exact ⟨by omega, upper, flagged⟩
    · rintro ⟨lower, upper, flagged⟩
      by_cases before : n < first.line
      · exact .inl ⟨lower, before, flagged⟩
      · by_cases reached : middle ≤ n
        · exact .inr ⟨reached, upper, flagged⟩
        · exact absurd flagged (clear n (by omega) (by omega))
  opens n lower upper opening := by
    by_cases before : n < first.line
    · obtain ⟨content, past, member⟩ := left.opens n lower before opening
      exact ⟨content, past, List.mem_append_left _ member⟩
    · by_cases reached : middle ≤ n
      · obtain ⟨content, past, member⟩ := right.opens n reached upper opening
        exact ⟨content, past, List.mem_append_right _ member⟩
      · exact absurd (plan.flagged_of_opening n opening) (clear n (by omega) (by omega))

theorem wrap {start : Nat} {blocks : Blocks} (finds : plan.Finds start blocks) (kind : ContainerKind)
    (line : Nat) :
    plan.Finds start { blocks with tokens := Token.wrap kind line blocks.tokens } where
  forward := finds.forward
  within := finds.within
  safe := finds.safe
  covers n := by
    rw [covers_wrap]
    exact finds.covers n
  opens n lower upper opening := by
    obtain ⟨content, past, member⟩ := finds.opens n lower upper opening
    exact ⟨content, past, by simp [Token.wrap, member]⟩

end Finds

end Plan

namespace Blocks

theorem fencePast_eq {view : View} {fence : Fence} {opener : Line} {stop last : Nat} {closed : Bool}
    (left : (view.indent : Int) ≤ opener.indent)
    (ends : if closed then last < stop ∧ (view.line last).Closes fence opener else last = stop)
    (fuel : Nat) :
    ∀ number, number ≤ last → last < number + fuel →
      (∀ n, number ≤ n → n < last → (view.line n).StaysIn fence opener) →
      fencePast view fence stop fuel number = (last, closed) := by
  have within : last ≤ stop := by
    cases closed with
    | true => exact Nat.le_of_lt ends.1
    | false => exact Nat.le_of_eq ends
  induction fuel with
  | zero =>
      intro number reached enough
      omega
  | succ fuel ih =>
      intro number reached enough stays
      by_cases final : number = last
      · subst final
        cases closed with
        | true =>
            obtain ⟨inside, closes⟩ : number < stop ∧ (view.line number).Closes fence opener := ends
            have right := closes.right
            have aligned := closes.left
            have noCode : view.isCode number = false := by
              simp only [View.isCode, decide_eq_false_iff_not]
              omega
            have notLeft : ¬(view.line number).indent < view.indent := by omega
            simp [fencePast, closes.shown, closes.fence, noCode, notLeft, Nat.not_le.mpr inside]
        | false =>
            obtain rfl : number = stop := ends
            simp [fencePast]
      · have stay := stays number (Nat.le_refl _) (by omega)
        have later := ih (number + 1) (by omega) (by omega)
          fun n lower upper => stays n (by omega) upper
        simp only [fencePast]
        rw [if_neg (by omega)]
        cases empty : (view.line number).isEmpty with
        | true => simpa [stay.ended empty] using later
        | false =>
            have aligned := stay.left empty
            have notLeft : ¬(view.line number).indent < view.indent := by omega
            simpa [stay.fence empty, notLeft] using later

section

variable {plan : Plan} {view : View} {start : Nat} (shows : plan.Shows view start)
  (safe : plan.safe start)

include shows safe

theorem fenced_finds (flagged : plan.flagged start)
    (left : (view.indent : Int) ≤ (view.line start).indent) {fence : Fence}
    (found : view.fence? start = some fence) :
    plan.Finds start (fenced view fence start plan.limit) := by
  obtain ⟨other, last, closed, run, after, flags⟩ := plan.code start safe flagged
  have same := shows.eq_of_flagged flagged
  obtain rfl : other = fence := by
    simp only [View.fence?, View.isCode_of_opensFence (shows.opens safe flagged), same] at found
    exact Option.some.inj (run.found.symm.trans found)
  have forward := run.forward
  have within := run.within
  have past : fencePast view other plan.limit (plan.limit - start) (start + 1) = (last, closed) := by
    refine fencePast_eq left ?_ _ _ forward (by omega) fun n lower upper => ?_
    · have ends := run.ends
      cases closed with
      | true => exact ⟨ends.1, by rw [same, shows.later last forward]; exact ends.2⟩
      | false => exact ends
    · rw [same, shows.later n lower]
      exact run.stays n lower upper
  have ends := run.ends
  simp only [fenced, past]
  refine ⟨?_, ?_, after, fun n => ?_, fun n lower upper opening => ?_⟩
  · simp only
    split <;> omega
  · cases closed with
    | true => exact ends.1
    | false => exact within
  · rw [covers_fenced]
    constructor
    · rintro ⟨lower, upper⟩
      exact ⟨lower, upper, (flags n lower upper).1⟩
    · rintro ⟨lower, upper, -⟩
      exact ⟨lower, upper⟩
  · obtain rfl := (flags n lower upper).2 opening
    exact ⟨_, _, List.mem_singleton_self _⟩

section

variable (inside : start < plan.limit) (clear : ¬plan.flagged start)

include inside clear

theorem bare_of_clear {n : Nat} (lower : start ≤ n) (upper : n < plan.limit)
    (free : ∀ wall, start < wall → view.Walled wall → n < wall) : (view.line n).Bare := by
  obtain ⟨-, next⟩ := plan.plain start safe inside clear
  obtain ⟨wall, known⟩ := Plan.wall_exists next inside
  have forward := known.forward
  have near := free wall forward ((shows.mono (Nat.le_succ start)).walled known)
  by_cases same : n = start
  · subst same
    exact shows.stands.bare (plan.plain n safe inside clear).1
  · have later : plan.safe n := known.safe n (by omega) (by omega)
    have noCode := known.clear n (by omega) near
    exact (shows.mono lower).stands.bare (plan.plain n later upper noCode).1

theorem finds_of_walls {blocks : Blocks} (forward : start ≤ blocks.line)
    (stops : ∀ wall, start < wall → view.Walled wall → blocks.line ≤ wall)
    (none : ∀ n, ¬Covers blocks.tokens n) : plan.Finds start blocks := by
  obtain ⟨-, next⟩ := plan.plain start safe inside clear
  refine Plan.Finds.of_walls safe (Nat.le_of_lt inside) forward (fun wall known => ?_) none
  -- a wall at the line itself would be fenced code
  have beyond : start ≠ wall := by
    intro same
    subst same
    exact clear (known.ends inside)
  exact stops wall (by have := known.forward; omega) (shows.walled known)

theorem quote_finds {inQuote : Reader} (stops : inQuote.Stops) (bare : inQuote.Bare)
    (fits : inQuote.Fits fun _ => True) (opens : view.opensQuote start = true) :
    plan.Finds start (quote inQuote view start plan.limit) := by
  have bound : plan.limit ≤ view.limit := Nat.le_of_eq shows.limit.symm
  refine finds_of_walls shows safe inside clear ?_ (fun wall below walled => ?_) ?_
  · exact (@quote_fits (fun _ => True) _ fits view (fun _ _ => trivial) start plan.limit inside bound
      trivial).advances
  · exact quote_le stops inside bound walled below
  · exact quote_bare bound bare inside opens fun n lower upper free =>
      bare_of_clear shows safe inside clear lower upper free

omit safe inside clear in
theorem htmlPast_html (fuel : Nat) :
    ∀ number, start < number → number ≤ plan.limit → plan.html number →
      htmlPast view .emptyLine plan.limit fuel number ≤ plan.limit ∧
        plan.html (htmlPast view .emptyLine plan.limit fuel number) ∧
        ∀ n, number ≤ n → n < htmlPast view .emptyLine plan.limit fuel number → ¬plan.flagged n := by
  induction fuel with
  | zero =>
      intro number _ within html
      refine ⟨within, html, fun n lower upper => ?_⟩
      simp only [htmlPast] at upper
      omega
  | succ fuel ih =>
      intro number later within html
      have done : number ≤ plan.limit ∧ plan.html number ∧
          ∀ n, number ≤ n → n < number → ¬plan.flagged n :=
        ⟨within, html, fun n lower upper => by omega⟩
      simp only [htmlPast]
      split
      next => exact done
      next going =>
        simp only [Bool.or_eq_true, decide_eq_true_eq, not_or, Nat.not_le] at going
        split
        next holds =>
          have empty : (view.line number).content.isEmpty = true := holds
          rw [if_pos empty]
          exact done
        next shown =>
          have more : (view.line number).isEmpty = false := by
            cases empty : (view.line number).isEmpty with
            | false => rfl
            | true =>
                have less : (view.line number).body.length ≤ (view.line number).lead :=
                  of_decide_eq_true empty
                simp [Html.BlockEnd.holdsOn, Line.content, less] at shown
          rw [shows.later number later] at more
          obtain ⟨bound, reached, free⟩ := ih (number + 1) (by omega) (by omega)
            (plan.goesOn number html going.1 more)
          refine ⟨bound, reached, fun n lower upper => ?_⟩
          by_cases same : n = number
          · subst same
            exact (plan.safe_of_html n html).2
          · exact free n (by omega) upper

theorem html_finds {ending : Html.BlockEnd} {interrupts : Bool}
    (opens : view.htmlEnd? start = some (ending, interrupts)) :
    plan.Finds start (html view ending start plan.limit) := by
  obtain ⟨plain, next⟩ := plan.plain start safe inside clear
  have none (content : Text) (past n : Nat) : ¬Covers [.leaf .html content start past] n := by
    simp [Covers]
  have found : Html.blockEnd? (view.line start).content = some (ending, interrupts) := by
    simp only [View.htmlEnd?] at opens
    split at opens
    · simp at opens
    · exact opens
  have ends := shows.stands.html plain found
  simp only [html]
  split
  next holds =>
    refine .clear (Nat.le_succ start) inside next (fun n lower upper => ?_) (none _ _)
    obtain rfl : n = start := by simp only at upper; omega
    exact clear
  next holds =>
    obtain ⟨rfl, further⟩ := ends.resolve_left holds
    obtain ⟨bound, reached, free⟩ := htmlPast_html shows (plan.limit - start) (start + 1)
      (Nat.lt_succ_self start) inside (plan.opensHtml start safe inside clear further)
    have past := htmlPast_ge view .emptyLine plan.limit (plan.limit - start) (start + 1)
    refine .clear (by simp only; omega) bound (plan.safe_of_html _ reached).1
      (fun n lower upper => ?_) (none _ _)
    by_cases same : n = start
    · exact same ▸ clear
    · exact free n (by omega) upper

end

end

theorem nextMarker_spec {view : View} {marker next : ListMarker} {number : Nat}
    (found : nextMarker? view marker number = some next) :
    (view.indent : Int) ≤ (view.line number).indent ∧ ¬(view.line number).OpensFence ∧
      (listMarker? (view.line number).content).isSome = true := by
  unfold nextMarker? at found
  have kept := eq_some_of_filtered found
  split at found
  next => simp at found
  next stays =>
    simp only [Bool.or_eq_true, decide_eq_true_eq, not_or, Bool.not_eq_true] at stays
    obtain ⟨⟨left, noCode⟩, noEnd⟩ := stays
    refine ⟨by omega, fun opens => ?_, ?_⟩
    · simp [View.endsItem, View.fence?, noCode, opens.fence] at noEnd
    · simp only [listMarker?, Option.isSome_or, Bool.or_eq_true]
      split at kept
      · exact .inl (by rw [kept]; rfl)
      · exact .inr (by rw [kept]; rfl)

/-- A reader finds the fenced code of a plan wherever a view is that far to the right of `indent`, as
the content of an item is. -/
def Reader.Finds (plan : Plan) (indent : Nat) (reader : Reader) : Prop :=
  ∀ (view : View) (start : Nat), plan.Shows view start → plan.safe start → start ≤ plan.limit →
    indent + 2 ≤ view.indent → indent + 2 < depth → plan.Finds start (reader view start plan.limit)

section

variable {plan : Plan} {view : View} {inItem : Reader} (reads : inItem.Finds plan view.indent)

include reads

theorem item_finds {start : Nat} (shows : plan.Shows view start) (safe : plan.safe start)
    (inside : start < plan.limit) (clear : ¬plan.flagged start) {marker : ListMarker}
    (opens : marker.Opens (view.line start).content)
    (marked : (listMarker? (view.line start).content).isSome = true)
    (left : (view.indent : Int) ≤ (view.line start).indent) :
    plan.Finds start (item inItem view marker start plan.limit) := by
  obtain ⟨plain, next⟩ := plan.plain start safe inside clear
  obtain ⟨inner, isItem, same⟩ := item_spec opens
  rcases same inItem plan.limit with same | ⟨empty, same⟩
  · have narrow := shows.stands.indent_lt plain marked
    have deeper := isItem.deeper
    have positive := opens.positive
    have shown : plan.Shows inner start := by
      refine ⟨isItem.limit.trans shows.limit, fun n later => ?_, .inr ⟨clear, ?_⟩⟩
      · rw [isItem.others n (by omega)]
        exact shows.later n later
      · rw [isItem.first]
        exact shows.stands.opened opens
    rw [same]
    exact (reads inner start shown safe (Nat.le_of_lt inside) (by omega) (by omega)).wrap _ _
  · -- an item without content ends behind the empty line after its marker
    have later := shows.mono (Nat.le_succ start)
    have free : start + 1 < plan.limit → ¬plan.flagged (start + 1) :=
      fun _ => later.clear_of_isEmpty next empty
    have reached : plan.safe (min (start + 2) plan.limit) := by
      by_cases more : start + 1 < plan.limit
      · rw [Nat.min_eq_left more]
        exact (plan.plain (start + 1) next more (free more)).2
      · obtain ends : min (start + 2) plan.limit = start + 1 := by omega
        exact ends ▸ next
    rw [same]
    refine .clear (by simp only; omega) (Nat.min_le_right _ _) reached (fun n lower upper => ?_)
      fun n => ?_
    · by_cases first : n = start
      · exact first ▸ clear
      · obtain rfl : n = start + 1 := by simp only at upper; omega
        exact free (by simp only at upper; omega)
    · rw [covers_wrap]
      exact not_covers_nil n

theorem items_finds (fuel : Nat) :
    ∀ (marker : ListMarker) (start : Nat), plan.Shows view start → plan.safe start →
      start < plan.limit → ¬plan.flagged start → marker.Opens (view.line start).content →
      (listMarker? (view.line start).content).isSome = true →
      (view.indent : Int) ≤ (view.line start).indent →
      plan.Finds start (items inItem view plan.limit fuel marker start) := by
  induction fuel with
  | zero =>
      intro marker start _ safe inside _ _ _ _
      exact .clear (Nat.le_refl start) (Nat.le_of_lt inside) safe
        (fun n lower upper => by simp only [items] at upper; omega) not_covers_nil
  | succ fuel ih =>
      intro marker start shows safe inside clear opens marked left
      have first := item_finds reads shows safe inside clear opens marked left
      simp only [items]
      split
      next => exact first
      next going =>
        split
        next next found =>
          have later := shows.mono first.forward
          obtain ⟨aligned, noFence, isMarked⟩ := nextMarker_spec found
          have free : ¬plan.flagged _ := fun flagged => noFence (later.opens first.safe flagged)
          exact first.append (Nat.le_refl _) (fun n lower upper => by omega)
            (ih next _ later first.safe (by omega) free (opens_of_nextMarker found) isMarked aligned)
        next => exact first

theorem block_finds {inQuote : Reader} (stops : inQuote.Stops) (bare : inQuote.Bare)
    (fits : inQuote.Fits fun _ => True) {start : Nat} (shows : plan.Shows view start)
    (safe : plan.safe start) (inside : start < plan.limit)
    (left : (view.indent : Int) ≤ (view.line start).indent) :
    plan.Finds start (block inQuote inItem view start plan.limit) := by
  have bound : plan.limit ≤ view.limit := Nat.le_of_eq shows.limit.symm
  -- a flagged line passes the test for a fence, and no other line does
  by_cases flagged : plan.flagged start
  · have opens := shows.opens safe flagged
    have noCode := View.isCode_of_opensFence opens
    obtain ⟨fence, found⟩ := Option.isSome_iff_exists.mp opens.fence
    have isFence : view.fence? start = some fence := by
      simp only [View.fence?, noCode]
      exact found
    simp only [block, noCode, isFence]
    exact fenced_finds shows safe flagged left isFence
  · obtain ⟨plain, next⟩ := plan.plain start safe inside flagged
    have leaves {blocks : Blocks} := @finds_of_walls plan view start shows safe inside flagged blocks
    have noFence : view.fence? start = none := by
      simp only [View.fence?]
      split
      · rfl
      · exact shows.stands.bare plain [] _ rfl rfl
    simp only [block, noFence]
    split
    · have forward := codePast_ge view plan.limit (plan.limit - start) (start + 1) (start + 1)
        (Nat.le_refl _)
      exact leaves (Nat.le_of_succ_le forward) (fun wall below walled => code_le walled below bound)
        (not_covers_of_absent (by simp [code]))
    split
    next isQuote => exact quote_finds shows safe inside flagged stops bare fits isQuote
    split
    · exact leaves (Nat.le_succ start) (fun wall below _ => below) (not_covers_of_absent (by simp))
    split
    next marker found =>
      have isMarker := View.listMarker_of_list found
      exact (items_finds reads _ marker start shows safe inside flagged
        (opens_of_listMarker isMarker) (by rw [isMarker]; rfl) left).wrap _ _
    split
    next label count found =>
      exact leaves (Nat.le_add_right start count)
        (fun wall below walled => definition_le walled below found) not_covers_nil
    split
    next ending interrupts found => exact html_finds shows safe inside flagged found
    split
    · exact leaves (Nat.le_succ start) (fun wall below _ => below)
        (not_covers_of_absent (by simp [heading, Token.wrap]))
    · have advances := (@text_fits (fun _ => True) view start plan.limit trivial).advances
      refine leaves advances (fun wall below walled => text_le walled below bound) (not_covers_of_absent ?_)
      simp only [text]
      split <;> simp [heading, Token.wrap]

end

theorem readWith_finds {plan : Plan} {view : View} {next : Reader}
    (reads : ∀ start, plan.Shows view start → plan.safe start → start < plan.limit →
      (view.indent : Int) ≤ (view.line start).indent → plan.Finds start (next view start plan.limit))
    (fuel : Nat) :
    ∀ number, plan.Shows view number → plan.safe number → number ≤ plan.limit →
      plan.Finds number (readWith next view plan.limit fuel number) := by
  induction fuel with
  | zero =>
      intro number _ safe within
      exact .clear (Nat.le_refl number) within safe
        (fun n lower upper => by simp only [readWith] at upper; omega) not_covers_nil
  | succ fuel ih =>
      intro number shows safe within
      -- reading starts behind empty lines, but not behind the next wall
      obtain ⟨wall, known⟩ := Plan.wall_exists safe within
      have walled := shows.walled known
      have ahead := (skipEmpty_spec view (view.limit - number) number).1
      have skipped := skipEmpty_le walled (view.limit - number) number known.forward
      have reached := known.safe _ ahead skipped
      have free : ∀ n, number ≤ n → n < view.skipEmpty (view.limit - number) number →
          ¬plan.flagged n :=
        fun n lower upper => known.clear n lower (by omega)
      have bound := known.within
      simp only [readWith]
      split
      next =>
        exact .clear (Nat.le_refl number) within safe
          (fun n lower upper => by simp only at upper; omega) not_covers_nil
      next =>
        split
        next => exact .clear ahead (by simp only; omega) reached free not_covers_nil
        next going =>
          simp only [Bool.or_eq_true, decide_eq_true_eq, not_or, Nat.not_le] at going
          have first := reads _ (shows.mono ahead) reached going.1 (by omega)
          have later := shows.mono (Nat.le_trans ahead first.forward)
          have here := first.widen ahead free
          -- one empty line behind a block is passed over at once
          split
          next skips =>
            simp only [Bool.and_eq_true, decide_eq_true_eq] at skips
            have gap := later.clear_of_isEmpty first.safe skips.2
            refine here.append (Nat.le_succ _) (fun n lower upper => ?_)
              (ih _ (later.mono (Nat.le_succ _)) (plan.plain _ first.safe skips.1 gap).2 skips.1)
            obtain same : n = _ := Nat.le_antisymm (Nat.le_of_lt_succ upper) lower
            exact same ▸ gap
          next =>
            exact here.append (Nat.le_refl _) (fun n lower upper => by omega)
              (ih _ later first.safe first.within)

/-- As long as there is room for the items of a list in the first columns, all fenced code is found. -/
theorem read_finds (plan : Plan) (room : Nat) :
    ∀ (view : View) (start : Nat), plan.Shows view start → plan.safe start → start ≤ plan.limit →
      0 < room → depth ≤ room + view.indent → plan.Finds start (read room view start plan.limit) := by
  -- an item takes two levels and moves the view two columns to the right, so the sum never falls
  induction room using read.induct with
  | case1 =>
      intro view start _ _ _ some
      contradiction
  | case2 =>
      intro view start shows safe within _ enough
      refine readWith_finds (fun first shown isSafe inside left => ?_) _ start shows safe within
      have none : readNone.Finds plan view.indent := by
        intro inner first _ _ _ _ narrow
        omega
      exact block_finds none readNone_stops readNone_bare readNone_fits shown isSafe inside left
  | case3 room quotes lists =>
      intro view start shows safe within _ enough
      refine readWith_finds (fun first shown isSafe inside left => ?_) _ start shows safe within
      have items : (read room).Finds plan view.indent := by
        intro inner first innerShows innerSafe innerWithin deeper narrow
        exact lists inner first innerShows innerSafe innerWithin (by omega) (by omega)
      exact block_finds items (read_stops (room + 1)) (read_bare (room + 1)) (read_fits (room + 1))
        shown isSafe inside left

/-- Read as a whole, lines with a plan have just the fenced code that the plan has. -/
theorem code_of_plan (plan : Plan) {lines : List Line} (limit : plan.limit = lines.length)
    (shown : ∀ n, (View.ofLines lines).line n = plan.line n) (safe : plan.safe 0) (n : Nat) :
    (Covers (read depth (.ofLines lines) 0 lines.length).tokens n ↔ plan.flagged n) ∧
      (plan.opening n → OpensAt (read depth (.ofLines lines) 0 lines.length).tokens n) := by
  have shows : plan.Shows (.ofLines lines) 0 := ⟨limit.symm, fun n _ => shown n, .inl (shown 0)⟩
  have finds := read_finds plan depth (.ofLines lines) 0 shows safe (Nat.zero_le _) (by decide)
    (Nat.le_refl depth)
  have complete : lines.length ≤ (read depth (.ofLines lines) 0 lines.length).line := by
    refine readWith_complete (fun n _ => ?_) (fun first inside => ?_) _ 0 (by omega)
    · rw [shown n]
      exact (plan.stands n).left
    · exact block_advances inside (Nat.le_refl _) (read_advances 19) (read_advances 18) (read_fits 18)
  rw [limit] at finds
  have reached (flagged : plan.flagged n) :
      n < (read depth (.ofLines lines) 0 lines.length).line := by
    have inside := plan.inside n flagged
    omega
  constructor
  · rw [finds.covers]
    constructor
    · exact fun ⟨_, _, flagged⟩ => flagged
    · exact fun flagged => ⟨Nat.zero_le n, reached flagged, flagged⟩
  · intro opening
    exact finds.opens n (Nat.zero_le n) (reached (plan.flagged_of_opening n opening)) opening

end Blocks

end MdxCheck.Markdown
