import MdxCheck.Markdown.Block

/-!
The lines of tokens: they never go back, and each is a line of the text that holds something.
-/

namespace MdxCheck.Markdown

def Token.line? : Token → Option Nat
  | .opening _ line => some line
  | .closing => none
  | .inline _ line => some line
  | .leaf _ _ line _ => some line

def tokenLines (tokens : List Token) : List Nat :=
  tokens.filterMap Token.line?

theorem tokenLines_append (front back : List Token) :
    tokenLines (front ++ back) = tokenLines front ++ tokenLines back := by
  simp [tokenLines]

theorem tokenLines_wrap (kind : ContainerKind) (line : Nat) (tokens : List Token) :
    tokenLines (Token.wrap kind line tokens) = line :: tokenLines tokens := by
  simp [tokenLines, Token.wrap, Token.line?]

/-- Where a view shows anything, it shows a line of `solid`. -/
def View.Shows (view : View) (solid : Nat → Prop) : Prop :=
  ∀ number, (view.line number).body ≠ [] → solid number

/-- Blocks read from line `start` on: the lines of their tokens do not go back, lie between this
line and the one where the reading stopped, and are all `solid`. -/
structure Blocks.Fits (solid : Nat → Prop) (start : Nat) (blocks : Blocks) : Prop where
  advances : start ≤ blocks.line
  sorted : (tokenLines blocks.tokens).Pairwise (· ≤ ·)
  within : ∀ number ∈ tokenLines blocks.tokens,
    start ≤ number ∧ number ≤ blocks.line ∧ solid number

section

variable {solid : Nat → Prop}

namespace View

theorem body_ne_nil_of_content {line : Line} (content : line.content ≠ []) : line.body ≠ [] := by
  intro empty
  simp [Line.content, empty] at content

theorem body_ne_nil_of_not_isEmpty {line : Line} (shown : line.isEmpty = false) :
    line.body ≠ [] := by
  intro empty
  simp [Line.isEmpty, empty] at shown

theorem Shows.set {view : View} (shows : view.Shows solid) {number : Nat} (line : Line)
    (shown : line.body ≠ [] → solid number) (limit indent : Nat) (listIndent : Option Nat) :
    View.Shows ⟨view.lines.setIfInBounds number line, limit, indent, listIndent⟩ solid := by
  intro other body
  by_cases same : number = other
  · subst same
    by_cases inside : number < view.lines.size
    · rw [View.line, Array.getElem?_setIfInBounds_self_of_lt inside] at body
      exact shown body
    · rw [View.line, Array.setIfInBounds_eq_of_size_le (by omega)] at body
      exact shows number body
  · rw [View.line, Array.getElem?_setIfInBounds_ne same] at body
    exact shows other body

end View

namespace Blocks

theorem Fits.none {start past : Nat} (labels : List Text) (advances : start ≤ past) :
    Fits solid start ⟨[], labels, past⟩ where
  advances := advances
  sorted := by simp [tokenLines]
  within := by simp [tokenLines]

theorem Fits.wrap {start : Nat} {blocks : Blocks} (fits : Fits solid start blocks)
    (opens : solid start) (kind : ContainerKind) :
    Fits solid start { blocks with tokens := Token.wrap kind start blocks.tokens } where
  advances := fits.advances
  sorted := by
    simp only [tokenLines_wrap]
    exact .cons (fun number member => (fits.within number member).1) fits.sorted
  within := by
    simp only [tokenLines_wrap]
    intro number member
    rcases List.mem_cons.mp member with rfl | inside
    · exact ⟨Nat.le_refl _, fits.advances, opens⟩
    · exact fits.within number inside

theorem Fits.single {start past : Nat} {token : Token} (line : token.line? = some start)
    (advances : start ≤ past) (opens : solid start) : Fits solid start ⟨[token], [], past⟩ where
  advances := advances
  sorted := by simp [tokenLines, line]
  within := by
    intro number member
    obtain rfl : number = start := by simpa [tokenLines, line] using member
    exact ⟨Nat.le_refl _, advances, opens⟩

theorem Fits.append {start middle : Nat} {first next : Blocks} (left : Fits solid start first)
    (between : first.line ≤ middle) (right : Fits solid middle next) :
    Fits solid start (first.append next) where
  advances := Nat.le_trans left.advances (Nat.le_trans between right.advances)
  sorted := by
    rw [Blocks.append, tokenLines_append, List.pairwise_append]
    refine ⟨left.sorted, right.sorted, ?_⟩
    intro number before other after
    have stops := (left.within number before).2.1
    have starts := (right.within other after).1
    omega
  within := by
    intro number member
    rw [Blocks.append, tokenLines_append] at member
    simp only [Blocks.append]
    have later := right.advances
    rcases List.mem_append.mp member with before | after
    · obtain ⟨lower, upper, shown⟩ := left.within number before
      exact ⟨lower, by omega, shown⟩
    · obtain ⟨lower, upper, shown⟩ := right.within number after
      have earlier := left.advances
      exact ⟨by omega, upper, shown⟩

theorem Fits.of_le {start number : Nat} {blocks : Blocks} (fits : Fits solid start blocks)
    (before : number ≤ start) : Fits solid number blocks where
  advances := Nat.le_trans before fits.advances
  sorted := fits.sorted
  within line member :=
    ⟨Nat.le_trans before (fits.within line member).1, (fits.within line member).2⟩

def Reader.Fits (solid : Nat → Prop) (reader : Reader) : Prop :=
  ∀ (view : View) (start stop : Nat), view.Shows solid → stop ≤ view.limit →
    Blocks.Fits solid start (reader view start stop)

theorem body_of_quoted {line : Line} (body : (quoted line).body ≠ []) : line.body ≠ [] := by
  intro empty
  simp [quoted, Line.content, empty] at body

theorem quotedLines_shows {view : View} (shows : view.Shows solid) {stop : Nat}
    (bound : stop ≤ view.limit) (fuel : Nat) :
    ∀ (inner : View) (afterEmpty : Bool) (number : Nat), inner.Shows solid →
      inner.limit = view.limit → number ≤ stop →
      (quotedLines view stop inner afterEmpty fuel number).1.Shows solid ∧
        (quotedLines view stop inner afterEmpty fuel number).2 ≤
          (quotedLines view stop inner afterEmpty fuel number).1.limit := by
  induction fuel with
  | zero =>
      intro inner afterEmpty number innerShows limit before
      exact ⟨innerShows, by simp only [quotedLines]; omega⟩
  | succ fuel ih =>
      intro inner afterEmpty number innerShows limit before
      have kept := shows number
      simp only [quotedLines]
      split
      next => exact ⟨innerShows, by simp only; omega⟩
      next going =>
        simp only [Bool.or_eq_true, decide_eq_true_eq, not_or, Nat.not_le] at going
        split
        next =>
          refine ih _ _ _ (innerShows.set _ (fun body => kept (body_of_quoted body)) _ _ _) limit ?_
          omega
        next =>
          split
          next => exact ⟨innerShows, by simp only; omega⟩
          next =>
            split
            next =>
              exact ⟨innerShows.set
                { view.line number with indent := (view.line number).indent - view.indent } kept
                _ _ _, by simp only; omega⟩
            next =>
              refine ih _ _ _ (innerShows.set { view.line number with indent := -1 } kept _ _ _)
                limit ?_
              omega

theorem quote_fits {inside : Reader} (reads : inside.Fits solid) {view : View}
    (shows : view.Shows solid) {start stop : Nat} (before : start < stop)
    (bound : stop ≤ view.limit) (opens : solid start) :
    Fits solid start (quote inside view start stop) := by
  have opened := @View.Shows.set solid view shows start (quoted (view.line start))
    (fun _ => opens) view.limit 0 view.listIndent
  obtain ⟨innerShows, limit⟩ := quotedLines_shows shows bound (stop - start) _
    (quoted (view.line start)).isEmpty (start + 1) opened rfl before
  exact (reads _ start _ innerShows limit).wrap opens .blockquote

theorem item_fits {inside : Reader} (reads : inside.Fits solid) {view : View}
    (shows : view.Shows solid) (marker : ListMarker) {start stop : Nat} (before : start < stop)
    (bound : stop ≤ view.limit) (opens : solid start) :
    Fits solid start (item inside view marker start stop) := by
  simp only [item]
  split
  next => exact (Fits.none [] (by omega)).wrap opens .listItem
  next => exact (reads _ start stop (shows.set _ (fun _ => opens) _ _ _) bound).wrap opens .listItem

theorem solid_of_nextMarker {view : View} (shows : view.Shows solid) {marker next : ListMarker}
    {number : Nat} (found : nextMarker? view marker number = some next) : solid number := by
  apply shows number
  apply View.body_ne_nil_of_content
  intro empty
  simp only [nextMarker?, empty] at found
  split at found
  next => simp at found
  next => split at found <;> simp [orderedMarker?, bulletMarker?] at found

theorem items_fits {inside : Reader} (reads : inside.Fits solid) {view : View}
    (shows : view.Shows solid) {stop : Nat} (bound : stop ≤ view.limit) (fuel : Nat) :
    ∀ (marker : ListMarker) (start : Nat), start < stop → solid start →
      Fits solid start (items inside view stop fuel marker start) := by
  induction fuel with
  | zero =>
      intro marker start _ _
      exact Fits.none [] (Nat.le_refl start)
  | succ fuel ih =>
      intro marker start before opens
      have first := item_fits reads shows marker before bound opens
      simp only [items]
      split
      next => exact first
      next going =>
        split
        next next found =>
          exact first.append (Nat.le_refl _)
            (ih next _ (by omega) (solid_of_nextMarker shows found))
        next => exact first

theorem list_fits {inside : Reader} (reads : inside.Fits solid) {view : View}
    (shows : view.Shows solid) (marker : ListMarker) {start stop : Nat} (before : start < stop)
    (bound : stop ≤ view.limit) (opens : solid start) :
    Fits solid start (list inside view marker start stop) :=
  (items_fits reads shows bound (stop - start + 1) marker start before opens).wrap opens _

/-! The blocks that hold no others stop behind their first line. -/

theorem codePast_ge (view : View) (stop fuel : Nat) :
    ∀ number last, last ≤ number → last ≤ codePast view stop fuel number last := by
  induction fuel with
  | zero =>
      intro number last _
      exact Nat.le_refl last
  | succ fuel ih =>
      intro number last before
      simp only [codePast]
      split
      next => exact Nat.le_refl last
      next =>
        split
        next => exact ih (number + 1) last (by omega)
        next =>
          split
          next =>
            have later := ih (number + 1) (number + 1) (Nat.le_refl _)
            omega
          next => exact Nat.le_refl last

theorem fencePast_ge (view : View) (fence : Fence) (stop fuel : Nat) :
    ∀ number, number ≤ (fencePast view fence stop fuel number).1 := by
  induction fuel with
  | zero =>
      intro number
      exact Nat.le_refl number
  | succ fuel ih =>
      intro number
      have later := ih (number + 1)
      simp only [fencePast]
      split
      · exact Nat.le_refl number
      · split
        · split
          · omega
          · exact Nat.le_refl number
        · split
          · exact Nat.le_refl number
          · split
            · exact Nat.le_refl number
            · omega

theorem htmlPast_ge (view : View) (ending : Html.BlockEnd) (stop fuel : Nat) :
    ∀ number, number ≤ htmlPast view ending stop fuel number := by
  induction fuel with
  | zero =>
      intro number
      exact Nat.le_refl number
  | succ fuel ih =>
      intro number
      have later := ih (number + 1)
      simp only [htmlPast]
      split
      · exact Nat.le_refl number
      · split
        · split <;> omega
        · omega

theorem paragraphPast_ge (view : View) (fuel : Nat) :
    ∀ number, number ≤ paragraphPast view fuel number := by
  induction fuel with
  | zero =>
      intro number
      exact Nat.le_refl number
  | succ fuel ih =>
      intro number
      have later := ih (number + 1)
      simp only [paragraphPast]
      split
      · exact Nat.le_refl number
      · split <;> omega

theorem underline_ge (view : View) (stop fuel : Nat) :
    ∀ number found, underline? view stop fuel number = some found → number ≤ found := by
  induction fuel with
  | zero => simp [underline?]
  | succ fuel ih =>
      intro number found here
      have later := ih (number + 1) found
      simp only [underline?] at here
      split at here
      · simp at here
      · split at here
        · have reached := later here
          omega
        · split at here
          · have reached := Option.some.inj here
            omega
          · split at here
            · simp at here
            · have reached := later here
              omega

theorem text_fits (view : View) {start : Nat} (stop : Nat) (opens : solid start) :
    Fits solid start (text view start stop) := by
  simp only [text]
  split
  next number found =>
    have below := underline_ge view stop _ _ _ found
    exact (@Fits.single solid start (number + 1) (.inline _ start) rfl (by omega) opens).wrap opens
      .heading
  next =>
    have below := paragraphPast_ge view (view.limit - start) (start + 1)
    exact (@Fits.single solid start _ (.inline _ start) rfl (by omega) opens).wrap opens .paragraph

theorem block_fits {inQuote inItem : Reader} (quotes : inQuote.Fits solid)
    (lists : inItem.Fits solid) {view : View} (shows : view.Shows solid) {start stop : Nat}
    (before : start < stop) (bound : stop ≤ view.limit) (opens : solid start) :
    Fits solid start (block inQuote inItem view start stop) := by
  simp only [block]
  split
  · have past := codePast_ge view stop (stop - start) (start + 1) (start + 1) (Nat.le_refl _)
    exact Fits.single rfl (by omega) opens
  split
  next fence _ =>
    have past := fencePast_ge view fence stop (stop - start) (start + 1)
    refine Fits.single rfl ?_ opens
    split <;> omega
  split
  · exact quote_fits quotes shows before bound opens
  split
  · exact Fits.single rfl (by omega) opens
  split
  next marker _ => exact list_fits lists shows marker before bound opens
  split
  next label count _ => exact Fits.none [label] (by omega)
  split
  next ending _ _ =>
    have past := htmlPast_ge view ending stop (stop - start) (start + 1)
    refine Fits.single rfl ?_ opens
    split <;> omega
  split
  next heading _ =>
    exact (@Fits.single solid start (start + 1) (.inline heading start) rfl (by omega) opens).wrap
      opens .heading
  exact text_fits view stop opens

theorem skipEmpty_spec (view : View) (fuel : Nat) :
    ∀ number, number ≤ view.skipEmpty fuel number ∧
      (view.limit ≤ number + fuel → view.skipEmpty fuel number < view.limit →
        (view.line (view.skipEmpty fuel number)).isEmpty = false) := by
  induction fuel with
  | zero =>
      intro number
      refine ⟨Nat.le_refl number, ?_⟩
      intro reached inside
      simp only [View.skipEmpty] at inside
      omega
  | succ fuel ih =>
      intro number
      obtain ⟨later, shown⟩ := ih (number + 1)
      simp only [View.skipEmpty]
      split
      next => exact ⟨by omega, fun reached => shown (by omega)⟩
      next stops =>
        refine ⟨Nat.le_refl number, ?_⟩
        intro _ inside
        simpa [inside] using stops

theorem readWith_fits {next : Reader} {view : View} (shows : view.Shows solid) {stop : Nat}
    (bound : stop ≤ view.limit)
    (fits : ∀ start, start < stop → solid start → Fits solid start (next view start stop))
    (fuel : Nat) : ∀ number, Fits solid number (readWith next view stop fuel number) := by
  induction fuel with
  | zero =>
      intro number
      exact Fits.none [] (Nat.le_refl number)
  | succ fuel ih =>
      intro number
      obtain ⟨forward, shown⟩ := skipEmpty_spec view (view.limit - number) number
      simp only [readWith]
      split
      next => exact Fits.none [] (Nat.le_refl number)
      next before =>
        split
        next => exact Fits.none [] forward
        next inside =>
          simp only [Bool.or_eq_true, decide_eq_true_eq, not_or, Nat.not_le] at inside
          have opens := shows _ (View.body_ne_nil_of_not_isEmpty (shown (by omega) (by omega)))
          have first := fits _ inside.1 opens
          split
          · exact (first.append (by omega) (ih _)).of_le forward
          · exact (first.append (Nat.le_refl _) (ih _)).of_le forward

theorem readNone_fits : readNone.Fits solid := by
  intro view start stop shows bound
  exact readWith_fits shows bound (fun first before _ => Fits.none [] (by omega)) _ start

theorem read_fits (room : Nat) : (read room).Fits solid := by
  induction room using read.induct with
  | case1 => exact readNone_fits
  | case2 =>
      intro view start stop shows bound
      exact readWith_fits shows bound (fun first before opens =>
        block_fits readNone_fits readNone_fits shows before bound opens) _ start
  | case3 room quotes lists =>
      intro view start stop shows bound
      exact readWith_fits shows bound (fun first before opens =>
        block_fits quotes lists shows before bound opens) _ start

theorem body_of_linesOf (texts : List Text) :
    ∀ (number : Nat) (line : Line), (linesOf texts)[number]? = some line →
      texts[number]? = some line.body := by
  fun_induction linesOf texts with
  | case1 => simp
  | case2 => simp
  | case3 text notEmpty =>
      intro number line found
      cases number with
      | zero => simpa [Line.ofText] using congrArg (Option.map Line.body) found
      | succ number => simp at found
  | case4 text texts _ ih =>
      intro number line found
      cases number with
      | zero => simpa [Line.ofText] using congrArg (Option.map Line.body) found
      | succ number => exact ih number line (by simpa using found)

/-- The lines that hold something, one for each piece of text between line feeds. -/
def IsSolid (texts : List Text) (number : Nat) : Prop :=
  ∃ text, texts[number]? = some text ∧ text ≠ []

/-- The tokens of a whole text stand on lines that hold something, and do not go back. -/
theorem ofText_fits (text : Text) :
    Fits (IsSolid (Text.splitOn (· == '\n') (text.map cleanChar))) 0 (ofText text) := by
  refine read_fits depth _ 0 _ ?_ (Nat.le_refl _)
  intro number body
  cases found : (linesOf (Text.splitOn (· == '\n') (text.map cleanChar)))[number]? with
  | none => simp [View.line, View.ofLines, found] at body
  | some line =>
      have piece := body_of_linesOf _ number line found
      refine ⟨line.body, piece, ?_⟩
      simpa [View.line, View.ofLines, found] using body

end Blocks

end

end MdxCheck.Markdown
