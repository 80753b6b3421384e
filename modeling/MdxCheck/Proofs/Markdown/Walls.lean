import MdxCheck.Markdown.Block
import Mathlib.Data.Nat.Basic

/-!
A line that opens fenced code in the first columns is a wall: no block before it runs past it.
-/

namespace MdxCheck.Markdown

/-- A line that opens fenced code and is not far enough to the right to be indented code. -/
structure Line.OpensFence (line : Line) : Prop where
  shown : line.isEmpty = false
  left : 0 ≤ line.indent
  right : line.indent < 4
  fence : (Markdown.fence? line.content).isSome = true

/-- Line `wall` opens fenced code, unless the view ends there. -/
structure View.Walled (view : View) (wall : Nat) : Prop where
  limit : wall ≤ view.limit
  fence : wall < view.limit → (view.line wall).OpensFence

theorem head_of_fence {content : Text} (fence : (fence? content).isSome = true) :
    ∃ mark rest, content = mark :: rest ∧ (mark = '`' ∨ mark = '~') := by
  cases content with
  | nil => simp [fence?] at fence
  | cons mark rest =>
      simp only [fence?] at fence
      split at fence
      next found => exact ⟨mark, rest, rfl, found.1⟩
      next => simp at fence

namespace View

section

variable {view : View} {number : Nat} (opens : (view.line number).OpensFence)

include opens

theorem isCode_of_opensFence : view.isCode number = false := by
  have right := opens.right
  simp only [isCode, decide_eq_false_iff_not]
  omega

theorem interrupts_of_opensFence (paragraph : Bool) : view.interrupts paragraph number = true := by
  simp [interrupts, endsItem, fence?, isCode_of_opensFence opens, opens.fence]

theorem goesOn_of_opensFence : view.goesOn number = false := by
  have left := opens.left
  simp [goesOn, isCode_of_opensFence opens, left]

theorem not_isUnderline_of_opensFence : isUnderline (view.line number).content = false := by
  obtain ⟨mark, rest, content, rfl | rfl⟩ := head_of_fence opens.fence
  · simp [content, isUnderline]
  · simp [content, isUnderline]

theorem not_isQuote_of_opensFence : ((view.line number).content.head? == some '>') = false := by
  obtain ⟨mark, rest, content, rfl | rfl⟩ := head_of_fence opens.fence
  · simp [content]
  · simp [content]

end

theorem Walled.of_ne {view : View} {wall : Nat} (walled : view.Walled wall) {number : Nat}
    (reached : number ≤ wall) (inside : number < view.limit)
    (other : ¬(view.line number).OpensFence) : number + 1 ≤ wall := by
  by_contra past
  obtain rfl : number = wall := by omega
  exact other (walled.fence inside)

end View

namespace Definition

theorem length_dropChars_le (count : Nat) (lines : List Text) :
    (dropChars count lines).length ≤ lines.length := by
  fun_induction dropChars count lines with
  | case1 => exact Nat.le_refl _
  | case2 => simp
  | case3 => simp
  | case4 count line lines _ _ ih => exact Nat.le_succ_of_le ih

theorem length_dropBlanks_le (line : Text) (lines : List Text) :
    (dropBlanks line lines).2.length ≤ lines.length := by
  induction lines generalizing line with
  | nil =>
      simp only [dropBlanks]
      split <;> simp
  | cons next lines ih =>
      simp only [dropBlanks]
      split
      · exact Nat.le_succ_of_le (ih next)
      · exact Nat.le_refl _

theorem length_dropTitle_le {afterDestination : Text} {lines rest : List Text} {isEmpty : Bool}
    (found : dropTitle? afterDestination lines = some (rest, isEmpty)) :
    rest.length ≤ lines.length + 1 := by
  have blanks := length_dropBlanks_le afterDestination lines
  simp only [dropTitle?] at found
  split at found
  next length _ =>
    split at found
    · obtain ⟨rfl, -⟩ := Prod.mk.inj (Option.some.inj found)
      refine Nat.le_trans (length_dropChars_le _ _) ?_
      simpa using blanks
    · simp at found
  next => simp at found

theorem length_dropEnd_le {afterDestination : Text} {lines rest : List Text}
    (found : dropEnd? afterDestination lines = some rest) : rest.length ≤ lines.length := by
  have bare : (if isDone afterDestination then some lines else none) = some rest →
      rest.length ≤ lines.length := by
    intro same
    split at same
    · exact Nat.le_of_eq (congrArg List.length (Option.some.inj same).symm)
    · simp at same
  simp only [dropEnd?] at found
  split at found
  next titled =>
    have title := length_dropTitle_le titled
    split at found
    · obtain rfl := Option.some.inj found
      simp only [List.length_tail]
      omega
    · split at found
      · simp at found
      · exact bare found
  next => exact bare found

theorem read_count {lines : List Text} {key : Text} {count : Nat}
    (found : read? lines = some (key, count)) : 0 < count ∧ count ≤ lines.length := by
  unfold read? at found
  split at found
  next text further =>
    simp only [Option.bind_eq_bind, Option.bind_eq_some_iff] at found
    obtain ⟨length, -, found⟩ := found
    split at found
    next afterLabel rest labelled =>
      have label := length_dropChars_le (length + 1) (text :: further)
      have blanks := length_dropBlanks_le afterLabel rest
      rw [labelled] at label
      simp only [Option.bind_eq_some_iff] at found
      obtain ⟨⟨destination, size⟩, -, found⟩ := found
      simp only at found
      split at found
      next =>
        simp only [Option.bind_eq_some_iff] at found
        obtain ⟨left, ended, found⟩ := found
        have ending := length_dropEnd_le ended
        split at found
        · simp at found
        · obtain ⟨-, rfl⟩ := Prod.mk.inj (Option.some.inj found)
          simp only [List.length_cons] at label ⊢
          omega
      next => simp at found
    next => simp at found
  next => simp at found

end Definition

theorem View.read_of_definition {view : View} {number count : Nat} {label : Text}
    (found : view.definition? number = some (label, count)) :
    Definition.read? (((view.line number).content ++ if (view.line number).ended then ['\n'] else []) ::
      view.continuations (view.limit - number) (number + 1)) = some (label, count) := by
  simp only [definition?] at found
  split at found
  · simp at found
  · exact found

namespace Blocks

section

variable {view : View} {wall : Nat} (walled : view.Walled wall)

include walled

theorem skipEmpty_le (fuel : Nat) :
    ∀ number, number ≤ wall → view.skipEmpty fuel number ≤ wall := by
  induction fuel with
  | zero =>
      intro number reached
      exact reached
  | succ fuel ih =>
      intro number reached
      simp only [View.skipEmpty]
      split
      next skips =>
        simp only [Bool.and_eq_true, decide_eq_true_eq] at skips
        refine ih (number + 1) (walled.of_ne reached skips.1 fun opens => ?_)
        simp [opens.shown] at skips
      next => exact reached

theorem codePast_le {stop : Nat} (bound : stop ≤ view.limit) (fuel : Nat) :
    ∀ number last, number ≤ wall → last ≤ wall → codePast view stop fuel number last ≤ wall := by
  induction fuel with
  | zero =>
      intro number last _ before
      exact before
  | succ fuel ih =>
      intro number last reached before
      simp only [codePast]
      split
      next => exact before
      next going =>
        have inside : number < view.limit := by omega
        split
        next empty =>
          have next := walled.of_ne reached inside fun opens => by simp [opens.shown] at empty
          exact ih (number + 1) last next before
        next =>
          split
          next code =>
            have next := walled.of_ne reached inside fun opens => by
              simp [View.isCode_of_opensFence opens] at code
            exact ih (number + 1) (number + 1) next next
          next => exact before

theorem underline_lt {stop : Nat} (bound : stop ≤ view.limit) (fuel : Nat) :
    ∀ number found, number ≤ wall → underline? view stop fuel number = some found →
      found < wall := by
  induction fuel with
  | zero => simp [underline?]
  | succ fuel ih =>
      intro number found reached here
      simp only [underline?] at here
      split at here
      next => simp at here
      next going =>
        simp only [Bool.or_eq_true, decide_eq_true_eq, not_or, Nat.not_le] at going
        have other (differs : ¬(view.line number).OpensFence) : number + 1 ≤ wall :=
          walled.of_ne reached (by omega) differs
        split at here
        next code =>
          refine ih (number + 1) found (other fun opens => ?_) here
          simp [View.isCode_of_opensFence opens] at code
        next =>
          split at here
          next underlined =>
            obtain rfl := Option.some.inj here
            refine other fun opens => ?_
            simp [View.not_isUnderline_of_opensFence opens] at underlined
          next =>
            split at here
            next => simp at here
            next uninterrupted =>
              refine ih (number + 1) found (other fun opens => ?_) here
              simp [View.interrupts_of_opensFence opens, opens.left] at uninterrupted

theorem paragraphPast_le (fuel : Nat) :
    ∀ number, number ≤ wall → paragraphPast view fuel number ≤ wall := by
  induction fuel with
  | zero =>
      intro number reached
      exact reached
  | succ fuel ih =>
      intro number reached
      simp only [paragraphPast]
      split
      next => exact reached
      next going =>
        simp only [Bool.or_eq_true, decide_eq_true_eq, not_or, Nat.not_le] at going
        split
        next continues =>
          refine ih (number + 1) (walled.of_ne reached going.1 fun opens => ?_)
          simp [View.goesOn_of_opensFence opens, View.interrupts_of_opensFence opens] at continues
        next => exact reached

theorem continuations_le (fuel : Nat) :
    ∀ number, number ≤ wall → number + (view.continuations fuel number).length ≤ wall := by
  induction fuel with
  | zero =>
      intro number reached
      simpa [View.continuations] using reached
  | succ fuel ih =>
      intro number reached
      simp only [View.continuations]
      split
      next continues =>
        simp only [Bool.and_eq_true, decide_eq_true_eq] at continues
        have later := ih (number + 1) (walled.of_ne reached continues.1.1 fun opens => by
          simp [View.goesOn_of_opensFence opens, View.interrupts_of_opensFence opens] at continues)
        simp only [List.length_cons]
        omega
      next => simpa using reached

theorem code_le {start stop : Nat} (before : start < wall) (bound : stop ≤ view.limit) :
    (code view start stop).line ≤ wall :=
  codePast_le walled bound (stop - start) (start + 1) (start + 1) before before

theorem text_le {start stop : Nat} (before : start < wall) (bound : stop ≤ view.limit) :
    (text view start stop).line ≤ wall := by
  simp only [text]
  split
  next number found => exact underline_lt walled bound _ _ _ before found
  next => exact paragraphPast_le walled _ _ before

theorem definition_le {start count : Nat} {label : Text} (before : start < wall)
    (found : view.definition? start = some (label, count)) : start + count ≤ wall := by
  have lines := continuations_le walled (view.limit - start) (start + 1) before
  have counted := (Definition.read_count (View.read_of_definition found)).2
  simp only [List.length_cons] at counted
  omega

end

theorem fencePast_le (view : View) (fence : Fence) (stop fuel : Nat) :
    ∀ number, number ≤ stop → (fencePast view fence stop fuel number).1 ≤ stop ∧
      ((fencePast view fence stop fuel number).2 = true →
        (fencePast view fence stop fuel number).1 < stop) := by
  induction fuel with
  | zero =>
      intro number within
      exact ⟨within, by simp [fencePast]⟩
  | succ fuel ih =>
      intro number within
      simp only [fencePast]
      split
      next => exact ⟨within, by simp⟩
      next inside =>
        have later := ih (number + 1) (by omega)
        split
        next =>
          split
          · exact later
          · exact ⟨within, by simp⟩
        next =>
          split
          next => exact ⟨within, by simp⟩
          next =>
            split
            next => exact ⟨within, fun _ => by simp only; omega⟩
            next => exact later

theorem fenced_le (view : View) (fence : Fence) {start stop : Nat} (before : start < stop) :
    (fenced view fence start stop).line ≤ stop := by
  obtain ⟨within, closed⟩ := fencePast_le view fence stop (stop - start) (start + 1) before
  simp only [fenced]
  split
  next done => exact closed done
  next => exact within

theorem htmlPast_le (view : View) (ending : Html.BlockEnd) (stop fuel : Nat) :
    ∀ number, number ≤ stop → htmlPast view ending stop fuel number ≤ stop := by
  induction fuel with
  | zero =>
      intro number within
      exact within
  | succ fuel ih =>
      intro number within
      simp only [htmlPast]
      split
      next => exact within
      next going =>
        simp only [Bool.or_eq_true, decide_eq_true_eq, not_or, Nat.not_le] at going
        split
        · split <;> omega
        · exact ih (number + 1) (by omega)

theorem html_le (view : View) (ending : Html.BlockEnd) {start stop : Nat} (before : start < stop) :
    (html view ending start stop).line ≤ stop := by
  simp only [html]
  split
  · exact before
  · exact htmlPast_le view ending stop _ _ before

end Blocks

namespace View

/-- A view with another line in place of line `number`. -/
abbrev setLine (view : View) (number : Nat) (line : Line) : View :=
  { view with lines := view.lines.setIfInBounds number line }

theorem line_setLine_ne (view : View) {number other : Nat} (line : Line) (differs : number ≠ other) :
    (view.setLine number line).line other = view.line other := by
  rw [View.line, Array.getElem?_setIfInBounds_ne differs]
  rfl

theorem inside_of_shown {view : View} {number : Nat} (shown : (view.line number).isEmpty = false) :
    number < view.lines.size := by
  by_contra outside
  rw [View.line, Array.getElem?_eq_none (by omega)] at shown
  simp [Line.isEmpty] at shown

theorem line_setLine {view : View} {number : Nat} (line : Line) (inside : number < view.lines.size) :
    (view.setLine number line).line number = line := by
  rw [View.line, Array.getElem?_setIfInBounds_self_of_lt inside]
  rfl

end View

namespace Blocks

/-- What the lines of a quote from `number` on look like from inside, `inner` being the view before:
lines up to where they stop are quoted lines or keep their content. -/
structure Quotes (view inner : View) (number stop : Nat) (inside : View) (past : Nat) : Prop where
  forward : number ≤ past
  within : past ≤ stop
  limit : inside.limit = view.limit ∨ inside.limit = past
  size : inside.lines.size = inner.lines.size
  indent : inside.indent = inner.indent
  before : ∀ n < number, inside.line n = inner.line n
  quoted : ∀ n, number ≤ n → n < past →
    ((view.line n).content.head? = some '>' ∧ inside.line n = quoted (view.line n)) ∨
      (inside.line n).content = (view.line n).content
  after : inside.limit = view.limit → ∀ n, past ≤ n → inside.line n = inner.line n
  walls : ∀ wall, number ≤ wall → view.Walled wall → past ≤ wall

theorem Quotes.done {view inner : View} {number stop : Nat} (limit : inner.limit = view.limit)
    (within : number ≤ stop) : Quotes view inner number stop inner number where
  forward := Nat.le_refl _
  within := within
  limit := .inl limit
  size := rfl
  indent := rfl
  before _ _ := rfl
  quoted n lower upper := by omega
  after _ _ _ := rfl
  walls _ reached _ := reached

/-- One more line of the quote, seen from inside as `line`. -/
theorem Quotes.more {view inner inside : View} {number stop past : Nat} {line : Line}
    (rest : Quotes view (inner.setLine number line) (number + 1) stop inside past)
    (here : number < inner.lines.size)
    (fits : ((view.line number).content.head? = some '>' ∧ line = Blocks.quoted (view.line number)) ∨
      line.content = (view.line number).content)
    (shown : number < view.limit) (noFence : ¬(view.line number).OpensFence) :
    Quotes view inner number stop inside past where
  forward := by have := rest.forward; omega
  within := rest.within
  limit := rest.limit
  size := by rw [rest.size]; simp
  indent := rest.indent
  before n lower := by rw [rest.before n (by omega), View.line_setLine_ne _ _ (by omega)]
  quoted n lower upper := by
    by_cases same : n = number
    · subst same
      rw [rest.before n (by omega), View.line_setLine line here]
      exact fits
    · exact rest.quoted n (by omega) upper
  after same n lower := by
    have forward := rest.forward
    rw [rest.after same n lower, View.line_setLine_ne _ _ (by omega)]
  walls wall reached walled := rest.walls wall (walled.of_ne reached shown noFence) walled

theorem quotedLines_quotes {view : View} {stop : Nat} (bound : stop ≤ view.limit) (fuel : Nat) :
    ∀ (inner : View) (afterEmpty : Bool) (number : Nat), inner.limit = view.limit → number ≤ stop →
      inner.lines.size = view.lines.size →
      Quotes view inner number stop (quotedLines view stop inner afterEmpty fuel number).1
        (quotedLines view stop inner afterEmpty fuel number).2 := by
  induction fuel with
  | zero =>
      intro inner afterEmpty number limit within size
      exact .done limit within
  | succ fuel ih =>
      intro inner afterEmpty number limit within size
      simp only [quotedLines]
      split
      next => exact .done limit within
      next going =>
        simp only [Bool.or_eq_true, decide_eq_true_eq, not_or, Nat.not_le, Bool.not_eq_true] at going
        have here : number < inner.lines.size := by
          rw [size]
          exact View.inside_of_shown going.2
        split
        next marked =>
          have rest := ih (inner.setLine number (quoted (view.line number)))
            (quoted (view.line number)).isEmpty (number + 1) limit (by omega) (by simp [size])
          have isMarked : (view.line number).content.head? = some '>' :=
            eq_of_beq (Bool.and_eq_true_iff.mp marked).1
          refine rest.more here (.inl ⟨isMarked, rfl⟩) (by omega) fun opens => ?_
          simp [View.not_isQuote_of_opensFence opens] at marked
        next =>
          split
          next => exact .done limit within
          next =>
            split
            next interrupts =>
              refine ⟨Nat.le_refl _, within, .inr rfl, by simp, rfl, fun n lower => ?_,
                fun n lower upper => by omega, fun same n lower => ?_, fun wall reached _ => reached⟩
              · exact View.line_setLine_ne inner _ (by omega)
              · exact absurd same (by simp only; omega)
            next uninterrupted =>
              have rest := ih (inner.setLine number { view.line number with indent := -1 }) false
                (number + 1) limit (by omega) (by simp [size])
              refine rest.more here (.inr rfl) (by omega) fun opens => ?_
              exact uninterrupted (View.interrupts_of_opensFence opens false)

/-- A reader that is to stop at a wall or before does so. -/
def Reader.Stops (reader : Reader) : Prop :=
  ∀ (view : View) (start stop wall : Nat), view.Walled wall → start ≤ wall → stop ≤ wall →
    stop ≤ view.limit → (reader view start stop).line ≤ wall

theorem quotes_opened (view : View) {start stop : Nat} (before : start < stop)
    (bound : stop ≤ view.limit) :
    ∃ opened inside past,
      opened.lines = view.lines.setIfInBounds start (quoted (view.line start)) ∧
      opened.indent = 0 ∧ Quotes view opened (start + 1) stop inside past ∧
      ∀ reader : Reader, quote reader view start stop =
        { reader inside start past with
          tokens := Token.wrap .blockquote start (reader inside start past).tokens } := by
  let opened : View :=
    { view with lines := view.lines.setIfInBounds start (quoted (view.line start)), indent := 0 }
  have quotes := quotedLines_quotes bound (stop - start) opened (quoted (view.line start)).isEmpty
    (start + 1) rfl before (by simp [opened])
  exact ⟨opened, _, _, rfl, rfl, quotes, fun _ => rfl⟩

theorem quote_le {inside : Reader} (stops : inside.Stops) {view : View} {start stop wall : Nat}
    (before : start < stop) (bound : stop ≤ view.limit) (walled : view.Walled wall)
    (below : start < wall) : (quote inside view start stop).line ≤ wall := by
  obtain ⟨opened, inner, past, lines, -, quotes, reads⟩ := quotes_opened view before bound
  have reached := quotes.walls wall below walled
  have within := quotes.within
  have forward := quotes.forward
  rw [reads]
  rcases quotes.limit with same | ended
  · refine stops inner start past wall ⟨same ▸ walled.limit, fun shown => ?_⟩ (by omega) reached
      (by omega)
    have kept : inner.line wall = view.line wall := by
      rw [quotes.after same wall reached]
      change (View.mk opened.lines _ _ _).line wall = _
      rw [lines]
      exact View.line_setLine_ne view _ (by omega)
    exact kept ▸ walled.fence (same ▸ shown)
  · have near := stops inner start past past ⟨by omega, fun shown => by omega⟩ (by omega)
      (Nat.le_refl _) (by omega)
    exact Nat.le_trans near reached

theorem item_le {inside : Reader} (stops : inside.Stops) {view : View} (marker : ListMarker)
    {start stop wall : Nat} (before : start < stop) (bound : stop ≤ view.limit)
    (walled : view.Walled wall) (below : stop ≤ wall) :
    (item inside view marker start stop).line ≤ wall := by
  simp only [item]
  split
  next => exact Nat.le_trans (Nat.min_le_right _ _) below
  next =>
    refine stops _ start stop wall ⟨walled.limit, fun shown => ?_⟩ (by omega) below bound
    have kept := walled.fence shown
    rwa [← View.line_setLine_ne view _ (show start ≠ wall by omega)] at kept

theorem items_le {inside : Reader} (stops : inside.Stops) {view : View} {stop wall : Nat}
    (bound : stop ≤ view.limit) (walled : view.Walled wall) (below : stop ≤ wall) (fuel : Nat) :
    ∀ marker start, start < stop → (items inside view stop fuel marker start).line ≤ wall := by
  induction fuel with
  | zero =>
      intro marker start before
      simp only [items]
      omega
  | succ fuel ih =>
      intro marker start before
      have first := item_le stops marker before bound walled below
      simp only [items]
      split
      next => exact first
      next going =>
        split
        next next _ => exact ih next _ (by omega)
        next => exact first

theorem block_le {inQuote inItem : Reader} (quotes : inQuote.Stops) (lists : inItem.Stops)
    {view : View} {start stop wall : Nat} (before : start < stop) (bound : stop ≤ view.limit)
    (walled : view.Walled wall) (below : stop ≤ wall) :
    (block inQuote inItem view start stop).line ≤ wall := by
  have inFront : start < wall := by omega
  simp only [block]
  split
  · exact code_le walled inFront bound
  split
  · exact Nat.le_trans (fenced_le view _ before) below
  split
  · exact quote_le quotes before bound walled inFront
  split
  · exact inFront
  split
  next marker _ => exact items_le lists bound walled below _ marker start before
  split
  next found => exact definition_le walled inFront found
  split
  · exact Nat.le_trans (html_le view _ before) below
  split
  · exact inFront
  exact text_le walled inFront bound

theorem readWith_le {next : Reader} {view : View} {stop wall : Nat}
    (walled : view.Walled wall) (below : stop ≤ wall)
    (stops : ∀ start, start < stop → (next view start stop).line ≤ wall) (fuel : Nat) :
    ∀ number, number ≤ wall → (readWith next view stop fuel number).line ≤ wall := by
  induction fuel with
  | zero =>
      intro number reached
      exact reached
  | succ fuel ih =>
      intro number reached
      have skipped := skipEmpty_le walled (view.limit - number) number reached
      simp only [readWith]
      split
      next => exact reached
      next =>
        split
        next => exact skipped
        next going =>
          simp only [Bool.or_eq_true, decide_eq_true_eq, not_or, Nat.not_le] at going
          have first := stops _ going.1
          refine ih _ ?_
          split
          next empty =>
            simp only [Bool.and_eq_true, decide_eq_true_eq] at empty
            omega
          next => exact first

theorem readNone_stops : readNone.Stops := by
  intro view start stop wall walled reached below bound
  exact readWith_le walled below (fun _ _ => below) _ start reached

theorem read_stops (room : Nat) : (read room).Stops := by
  induction room using read.induct with
  | case1 => exact readNone_stops
  | case2 =>
      intro view start stop wall walled reached below bound
      exact readWith_le walled below (fun first before =>
        block_le readNone_stops readNone_stops before bound walled below) _ start reached
  | case3 room quotes lists =>
      intro view start stop wall walled reached below bound
      exact readWith_le walled below (fun first before =>
        block_le quotes lists before bound walled below) _ start reached

end Blocks

end MdxCheck.Markdown
