import MdxCheck.Proofs.Markdown.Fences

/-!
Readers get on: they leave the line they start on, so a text is read to its end.
-/

namespace MdxCheck.Markdown.Blocks

/-- A reader leaves the line it starts on, provided that this line is not to the left of the view. -/
def Reader.Advances (reader : Reader) : Prop :=
  ∀ (view : View) (start stop : Nat), start < stop → stop ≤ view.limit →
    ((view.line start).isEmpty = false → (view.indent : Int) ≤ (view.line start).indent) →
    start < (reader view start stop).line

theorem indent_quoted (line : Line) : 0 ≤ (quoted line).indent := by
  have blanks (body : Text) (taken shift : Nat) :
      0 ≤ ((spacesFrom (line.base + shift) (line.indent.toNat + 1 + taken) body).2 : Int) -
        (((line.indent.toNat + 1 : Nat) : Int) + (taken : Int)) := by
    have reached := (spacesFrom_snd (line.base + shift) body (line.indent.toNat + 1 + taken)).1
    omega
  simp only [quoted]
  split
  · exact blanks _ _ _
  · split <;> exact blanks _ _ _
  · exact blanks _ _ _

theorem readWith_ge {next : Reader} {view : View} {stop : Nat}
    (forward : ∀ start, start < stop → start ≤ (next view start stop).line) (fuel : Nat) :
    ∀ number, number ≤ (readWith next view stop fuel number).line := by
  induction fuel with
  | zero =>
      intro number
      exact Nat.le_refl number
  | succ fuel ih =>
      intro number
      have skipped := (skipEmpty_spec view (view.limit - number) number).1
      simp only [readWith]
      split
      next => exact Nat.le_refl number
      next =>
        split
        next => exact skipped
        next going =>
          simp only [Bool.or_eq_true, decide_eq_true_eq, not_or, Nat.not_le] at going
          have first := forward _ going.1
          refine Nat.le_trans ?_ (ih _)
          split <;> omega

section

variable {view : View} {start stop : Nat} (before : start < stop) (bound : stop ≤ view.limit)

include before bound

theorem quote_advances {inside : Reader} (reads : inside.Advances)
    (opens : view.opensQuote start = true) : start < (quote inside view start stop).line := by
  obtain ⟨opened, inner, past, lines, indent, quotes, isQuote⟩ := quotes_opened view before bound
  have forward := quotes.forward
  have within := quotes.within
  rw [isQuote]
  refine reads inner start past (by omega) ?_ fun _ => ?_
  · rcases quotes.limit with same | ended <;> omega
  · have marked : (view.line start).content.head? = some '>' := by
      simp only [View.opensQuote, Bool.and_eq_true] at opens
      exact eq_of_beq opens.2
    have first : inner.line start = quoted (view.line start) := by
      rw [quotes.before start (by omega)]
      change (View.mk opened.lines _ _ _).line start = _
      rw [lines]
      refine View.line_setLine _ (inside_of_content fun empty => ?_)
      simp [empty] at marked
    rw [quotes.indent, indent, first]
    exact indent_quoted _

theorem item_advances {inside : Reader} (reads : inside.Advances) {marker : ListMarker}
    (opens : marker.Opens (view.line start).content) :
    start < (item inside view marker start stop).line := by
  obtain ⟨inner, isItem, same⟩ := item_spec opens
  rcases same inside stop with same | ⟨-, same⟩
  · rw [same]
    exact reads inner start stop before (isItem.limit ▸ bound) isItem.aligned
  · rw [same]
    simp only
    omega

theorem items_advances {inside : Reader} (reads : inside.Advances)
    (forward : inside.Fits fun _ => True) (fuel : Nat) {marker : ListMarker}
    (opens : marker.Opens (view.line start).content) :
    start < (items inside view stop (fuel + 1) marker start).line := by
  have first := item_advances before bound reads opens
  simp only [items]
  split
  next => exact first
  next going =>
    split
    next next found =>
      have later := (@items_fits (fun _ => True) _ forward view (fun _ _ => trivial) stop bound fuel
        next (item inside view marker start stop).line (by omega) trivial).advances
      exact Nat.lt_of_lt_of_le first later
    next => exact first

theorem block_advances {inQuote inItem : Reader} (quotes : inQuote.Advances)
    (lists : inItem.Advances) (forward : inItem.Fits fun _ => True) :
    start < (block inQuote inItem view start stop).line := by
  simp only [block]
  split
  · exact codePast_ge view stop (stop - start) (start + 1) (start + 1) (Nat.le_refl _)
  split
  next fence _ =>
    have past := fencePast_ge view fence stop (stop - start) (start + 1)
    simp only [fenced]
    split <;> omega
  split
  next opens => exact quote_advances before bound quotes opens
  split
  · exact Nat.lt_succ_self start
  split
  next marker found =>
    exact items_advances before bound lists forward _
      (opens_of_listMarker (View.listMarker_of_list found))
  split
  next label count found =>
    have counted := (Definition.read_count (View.read_of_definition found)).1
    simp only
    omega
  split
  next ending _ _ =>
    have past := htmlPast_ge view ending stop (stop - start) (start + 1)
    simp only [html]
    split <;> omega
  split
  · exact Nat.lt_succ_self start
  · simp only [text]
    split
    next number found =>
      have below := underline_ge view stop _ _ _ found
      simp only [heading]
      omega
    next => exact paragraphPast_ge view (view.limit - start) (start + 1)

theorem readWith_advances {next : Reader}
    (forward : ∀ start, start < stop → start < (next view start stop).line) (fuel : Nat)
    (left : (view.line start).isEmpty = false → (view.indent : Int) ≤ (view.line start).indent) :
    start < (readWith next view stop (fuel + 1) start).line := by
  have later (number : Nat) : number ≤ (readWith next view stop fuel number).line :=
    readWith_ge (fun first inside => Nat.le_of_lt (forward first inside)) fuel number
  obtain ⟨skipped, shown⟩ := skipEmpty_spec view (view.limit - start) start
  have stays : view.skipEmpty (view.limit - start) start = start →
      (view.indent : Int) ≤ (view.line start).indent := by
    intro same
    rw [same] at shown
    exact left (shown (by omega) (by omega))
  simp only [readWith]
  split
  next => omega
  next =>
    split
    next stops =>
      simp only [Bool.or_eq_true, decide_eq_true_eq] at stops
      by_cases same : view.skipEmpty (view.limit - start) start = start
      · have here := stays same
        rw [same] at stops
        omega
      · simp only
        omega
    next going =>
      simp only [Bool.or_eq_true, decide_eq_true_eq, not_or, Nat.not_le] at going
      have first := forward _ going.1
      refine Nat.lt_of_lt_of_le ?_ (later _)
      split <;> omega

end

theorem readNone_advances : readNone.Advances := by
  intro view start stop before bound left
  exact readWith_advances before bound (fun first inside => inside) _ left

theorem read_advances (room : Nat) : (read room).Advances := by
  induction room using read.induct with
  | case1 => exact readNone_advances
  | case2 =>
      intro view start stop before bound left
      exact readWith_advances before bound (fun first inside =>
        block_advances inside bound readNone_advances readNone_advances readNone_fits) _ left
  | case3 room quotes lists =>
      intro view start stop before bound left
      exact readWith_advances before bound (fun first inside =>
        block_advances inside bound quotes lists (read_fits room)) _ left

/-- Where no line is to the left of the view, reading goes on to the end. -/
theorem readWith_complete {next : Reader} {view : View} {stop : Nat}
    (left : ∀ n < stop, (view.indent : Int) ≤ (view.line n).indent)
    (forward : ∀ start, start < stop → start < (next view start stop).line) (fuel : Nat) :
    ∀ number, stop ≤ number + fuel → stop ≤ (readWith next view stop fuel number).line := by
  induction fuel with
  | zero =>
      intro number enough
      exact enough
  | succ fuel ih =>
      intro number enough
      have skipped := (skipEmpty_spec view (view.limit - number) number).1
      simp only [readWith]
      split
      next done => exact done
      next =>
        split
        next stops =>
          simp only [Bool.or_eq_true, decide_eq_true_eq] at stops
          change stop ≤ view.skipEmpty (view.limit - number) number
          by_contra short
          have inside := left _ (Nat.lt_of_not_le short)
          omega
        next going =>
          simp only [Bool.or_eq_true, decide_eq_true_eq, not_or, Nat.not_le] at going
          have first := forward _ going.1
          refine ih _ ?_
          split <;> omega

end MdxCheck.Markdown.Blocks
