import MdxCheck.Proofs.Markdown.TokenLines
import MdxCheck.Proofs.Markdown.Walls
import MdxCheck.Proofs.Text.Lines
import Mathlib.Algebra.GroupWithZero.Nat
import Mathlib.Data.List.TakeWhile

/-!
Which lines the fenced code of a text covers. Where no line holds a fence behind the markers of quotes
and items, there is none.
-/

namespace MdxCheck.Markdown

/-- Fenced code among some tokens covers a line. -/
def Covers (tokens : List Token) (number : Nat) : Prop :=
  ∃ content first past, Token.leaf .fencedCode content first past ∈ tokens ∧
    first ≤ number ∧ number < past

def Token.coversLine (number : Nat) : Token → Bool
  | .leaf .fencedCode _ first past => first ≤ number && number < past
  | _ => false

theorem covers_iff_any (tokens : List Token) (number : Nat) :
    Covers tokens number ↔ tokens.any (Token.coversLine number) = true := by
  rw [List.any_eq_true]
  constructor
  · rintro ⟨content, first, past, member, lower, upper⟩
    exact ⟨_, member, by simp [Token.coversLine, lower, upper]⟩
  · rintro ⟨token, member, covers⟩
    unfold Token.coversLine at covers
    split at covers
    next content first past =>
      rw [Bool.and_eq_true, decide_eq_true_eq, decide_eq_true_eq] at covers
      exact ⟨content, first, past, member, covers⟩
    next => contradiction

instance (tokens : List Token) (number : Nat) : Decidable (Covers tokens number) :=
  decidable_of_iff _ (covers_iff_any tokens number).symm

theorem not_covers_nil (number : Nat) : ¬Covers [] number := by
  simp [Covers]

theorem not_covers_of_absent {tokens : List Token}
    (absent : ∀ content first past, Token.leaf .fencedCode content first past ∉ tokens)
    (number : Nat) : ¬Covers tokens number := by
  rintro ⟨content, first, past, member, -⟩
  exact absent content first past member

theorem covers_append (front back : List Token) (number : Nat) :
    Covers (front ++ back) number ↔ Covers front number ∨ Covers back number := by
  constructor
  · rintro ⟨content, first, past, member, within⟩
    rcases List.mem_append.mp member with member | member
    · exact .inl ⟨content, first, past, member, within⟩
    · exact .inr ⟨content, first, past, member, within⟩
  · rintro (⟨content, first, past, member, within⟩ | ⟨content, first, past, member, within⟩)
    · exact ⟨content, first, past, List.mem_append_left _ member, within⟩
    · exact ⟨content, first, past, List.mem_append_right _ member, within⟩

theorem covers_wrap (kind : ContainerKind) (line : Nat) (tokens : List Token) (number : Nat) :
    Covers (Token.wrap kind line tokens) number ↔ Covers tokens number := by
  simp [Covers, Token.wrap]

theorem covers_fenced (content : Text) (first past number : Nat) :
    Covers [.leaf .fencedCode content first past] number ↔ first ≤ number ∧ number < past := by
  constructor
  · rintro ⟨other, start, stop, member, within⟩
    obtain ⟨-, rfl, rfl⟩ : other = content ∧ start = first ∧ stop = past := by
      simpa using member
    exact within
  · exact fun within => ⟨content, first, past, by simp, within⟩

/-- Some tokens open fenced code at a line. -/
def OpensAt (tokens : List Token) (number : Nat) : Prop :=
  ∃ content past, Token.leaf .fencedCode content number past ∈ tokens

/-- A character that stands in front of the content of a line: a blank, the mark of a quote, or a
character of the marker of an item. -/
def isMarkerChar (c : Char) : Bool :=
  isSpace c || c == '>' || c == '*' || c == '-' || c == '+' || c == '.' || c == ')' || c.isDigit

/-- Behind no markers the line holds a fence. -/
def Line.Bare (line : Line) : Prop :=
  ∀ front rest, line.content = front ++ rest → front.all isMarkerChar = true → fence? rest = none

theorem Line.Bare.of_append {line other : Line} (bare : line.Bare) {front : Text}
    (content : line.content = front ++ other.content) (markers : front.all isMarkerChar = true) :
    other.Bare := by
  intro further rest same only
  refine bare (front ++ further) rest ?_ ?_
  · rw [content, same, List.append_assoc]
  · rw [List.all_append, markers, only]
    rfl

theorem Line.Bare.of_content {line other : Line} (bare : line.Bare)
    (content : other.content = line.content) : other.Bare :=
  @Line.Bare.of_append line other bare [] (by rw [content]; rfl) rfl

theorem spacesFrom_fst (shift : Nat) (text : Text) :
    ∀ column, (spacesFrom shift column text).1 = (text.takeWhile isSpace).length := by
  induction text with
  | nil => intro column; rfl
  | cons c rest ih =>
      intro column
      by_cases tab : c = '\t'
      · subst tab
        simp only [spacesFrom, List.takeWhile_cons]
        simp [isSpace, ih]
      · by_cases blank : c = ' '
        · subst blank
          simp only [spacesFrom, List.takeWhile_cons]
          simp [isSpace, ih]
        · rw [spacesFrom]
          · simp [isSpace, tab, blank]
          · simpa using tab
          · simpa using blank

theorem isMarkerChar_of_isSpace {c : Char} (space : isSpace c = true) : isMarkerChar c = true := by
  simp [isMarkerChar, space]

theorem all_takeWhile_isSpace (text : Text) :
    (text.takeWhile isSpace).all isMarkerChar = true := by
  refine List.all_eq_true.mpr fun c member => isMarkerChar_of_isSpace ?_
  exact List.mem_takeWhile_imp member

theorem spaces_append_drop (shift column : Nat) (text : Text) :
    text.takeWhile isSpace ++ text.drop (spacesFrom shift column text).1 = text := by
  rw [spacesFrom_fst, Text.drop_length_takeWhile, List.takeWhile_append_dropWhile]

theorem quoted_parts (line : Line) :
    ∃ front, line.content.drop 1 = front ++ (Blocks.quoted line).body ∧
      front.all isSpace = true ∧
      (Blocks.quoted line).lead = ((Blocks.quoted line).body.takeWhile isSpace).length := by
  simp only [Blocks.quoted, spacesFrom_fst]
  split
  next rest inside => exact ⟨[' '], by simpa using inside, rfl, trivial⟩
  next rest inside =>
    split
    · exact ⟨['\t'], by simpa using inside, rfl, trivial⟩
    · exact ⟨[], rfl, rfl, trivial⟩
  next => exact ⟨[], rfl, rfl, trivial⟩

/-- Behind its mark and blanks, a quoted line shows the rest of its content. -/
theorem content_quoted {line : Line} (marked : line.content.head? = some '>') :
    ∃ front, line.content = front ++ (Blocks.quoted line).content ∧
      front.all isMarkerChar = true := by
  obtain ⟨front, inside, blank, lead⟩ := quoted_parts line
  have split := List.takeWhile_append_dropWhile (p := isSpace) (l := (Blocks.quoted line).body)
  have shown : (Blocks.quoted line).content = (Blocks.quoted line).body.dropWhile isSpace := by
    rw [Line.content, lead, Text.drop_length_takeWhile]
  cases content : line.content with
  | nil => simp [content] at marked
  | cons c rest =>
      obtain rfl : c = '>' := by simpa [content] using marked
      rw [content, List.drop_one, List.tail_cons] at inside
      refine ⟨'>' :: (front ++ (Blocks.quoted line).body.takeWhile isSpace), ?_, ?_⟩
      · rw [List.cons_append, List.append_assoc, shown, split, inside]
      · have blank : front.all isMarkerChar = true :=
          List.all_eq_true.mpr fun c member =>
            isMarkerChar_of_isSpace (List.all_eq_true.mp blank c member)
        rw [List.all_cons, List.all_append, blank, all_takeWhile_isSpace]
        rfl

/-- A marker consists of marker characters, and a blank follows it unless the line ends there. -/
structure ListMarker.Opens (marker : ListMarker) (content : Text) : Prop where
  positive : 0 < marker.length
  chars : (content.take marker.length).all isMarkerChar = true
  within : marker.length ≤ content.length
  ends : endsMarker (content.drop marker.length) = true

theorem opens_of_orderedMarker {content : Text} {marker : ListMarker}
    (found : orderedMarker? content = some marker) : marker.Opens content := by
  simp only [orderedMarker?] at found
  split at found
  next mark rest behind =>
    split at found
    next fits =>
      obtain rfl := Option.some.inj found
      obtain ⟨someDigits, -, isMark, ends⟩ := fits
      have parts := List.takeWhile_append_dropWhile (p := Char.isDigit) (l := content)
      rw [Text.drop_length_takeWhile] at behind
      have digits : (content.takeWhile Char.isDigit).all isMarkerChar = true := by
        refine List.all_eq_true.mpr fun c member => ?_
        have digit : c.isDigit = true := List.mem_takeWhile_imp member
        simp [isMarkerChar, digit]
      generalize content.takeWhile Char.isDigit = front at *
      rw [behind] at parts
      subst parts
      have chars : (front ++ [mark]).all isMarkerChar = true := by
        rw [List.all_append, digits]
        rcases isMark with rfl | rfl <;> rfl
      refine ⟨by simp, ?_, by simp, ?_⟩
      · have taken : (front ++ mark :: rest).take (front.length + 1) = front ++ [mark] := by
          simp [List.take_append, List.take_of_length_le]
        rw [taken, chars]
      · simpa using ends
    next => simp at found
  next => simp at found

theorem opens_of_bulletMarker {content : Text} {marker : ListMarker}
    (found : bulletMarker? content = some marker) : marker.Opens content := by
  simp only [bulletMarker?] at found
  split at found
  next mark rest =>
    split at found
    next fits =>
      obtain rfl := Option.some.inj found
      refine ⟨by simp, ?_, by simp, by simpa using fits.2⟩
      rcases fits.1 with rfl | rfl | rfl <;> rfl
    next => simp at found
  next => simp at found

theorem opens_of_listMarker {content : Text} {marker : ListMarker}
    (found : listMarker? content = some marker) : marker.Opens content := by
  rcases Option.or_eq_some_iff.mp found with ordered | ⟨-, bullet⟩
  · exact opens_of_orderedMarker ordered
  · exact opens_of_bulletMarker bullet

theorem eq_some_of_filtered {α : Type} {excluded : Prop} [Decidable excluded] {found : Option α}
    {keep : α → Bool} {value : α}
    (filtered : (if excluded then none else found.filter keep) = some value) :
    found = some value := by
  split at filtered
  · simp at filtered
  · exact (Option.filter_eq_some_iff.mp filtered).1

theorem View.listMarker_of_list {view : View} {interrupting : Bool} {number : Nat}
    {marker : ListMarker} (found : view.list? interrupting number = some marker) :
    listMarker? (view.line number).content = some marker := by
  unfold View.list? at found
  exact eq_some_of_filtered found

theorem Blocks.opens_of_nextMarker {view : View} {marker next : ListMarker} {number : Nat}
    (found : Blocks.nextMarker? view marker number = some next) :
    next.Opens (view.line number).content := by
  unfold Blocks.nextMarker? at found
  have kept := eq_some_of_filtered found
  split at kept
  · exact opens_of_orderedMarker kept
  · exact opens_of_bulletMarker kept

/-- The columns of some characters at most: a tab takes up to four. -/
def columns (text : Text) : Nat :=
  (text.map fun c => if c = '\t' then 4 else 1).sum

theorem columns_append (front back : Text) : columns (front ++ back) = columns front + columns back := by
  simp [columns]

theorem spacesFrom_snd (shift : Nat) (text : Text) :
    ∀ column, column + (text.takeWhile isSpace).length ≤ (spacesFrom shift column text).2 ∧
      (spacesFrom shift column text).2 ≤ column + columns (text.takeWhile isSpace) := by
  induction text with
  | nil => intro column; simp [spacesFrom, columns]
  | cons c rest ih =>
      intro column
      by_cases tab : c = '\t'
      · subst tab
        have later := ih (column + (4 - (column + shift) % 4))
        have taken : ('\t' :: rest).takeWhile isSpace = '\t' :: rest.takeWhile isSpace := rfl
        simp only [spacesFrom, taken, columns, List.map_cons, List.sum_cons, List.length_cons] at later ⊢
        simp only [if_true]
        omega
      · by_cases blank : c = ' '
        · subst blank
          have later := ih (column + 1)
          have taken : (' ' :: rest).takeWhile isSpace = ' ' :: rest.takeWhile isSpace := rfl
          simp only [spacesFrom, taken, columns, List.map_cons, List.sum_cons, List.length_cons] at later ⊢
          simp only [show ¬(' ' = '\t') by decide, if_false]
          omega
        · rw [spacesFrom]
          · simp [isSpace, tab, blank, columns]
          · simpa using tab
          · simpa using blank

namespace Blocks

/-- The line that opens an item, as the blocks of the item see it. -/
def opened (line : Line) (marker : ListMarker) : Line :=
  let behind := line.content.drop marker.length
  let (count, offset) := spacesFrom line.base (line.indent.toNat + marker.length) behind
  { line with lead := line.lead + marker.length + count, indent := offset }

theorem content_opened (line : Line) (marker : ListMarker) :
    line.content = (line.content.take marker.length ++
      (line.content.drop marker.length).takeWhile isSpace) ++ (opened line marker).content := by
  have shown : (opened line marker).content =
      (line.content.drop marker.length).drop (spacesFrom line.base
        (line.indent.toNat + marker.length) (line.content.drop marker.length)).1 := by
    simp only [opened, Line.content, List.drop_drop]
  rw [shown, List.append_assoc, spaces_append_drop, List.take_append_drop]

/-- What the blocks of an item see of the view around it. -/
structure ItemView (view : View) (marker : ListMarker) (start : Nat) (inner : View) : Prop where
  limit : inner.limit = view.limit
  others : ∀ n, start ≠ n → inner.line n = view.line n
  first : inner.line start = opened (view.line start) marker
  deeper : (view.line start).indent.toNat + marker.length + 1 ≤ inner.indent
  aligned : (inner.line start).isEmpty = false → (inner.indent : Int) ≤ (inner.line start).indent

theorem inside_of_content {view : View} {number : Nat} (content : (view.line number).content ≠ []) :
    number < view.lines.size := by
  apply View.inside_of_shown
  have more := List.length_pos_iff.mpr content
  simp only [Line.content, List.length_drop] at more
  simp only [Line.isEmpty, decide_eq_false_iff_not]
  omega

theorem item_spec {view : View} {marker : ListMarker} {start : Nat}
    (opens : marker.Opens (view.line start).content) :
    ∃ inner, ItemView view marker start inner ∧ ∀ (inside : Reader) (stop : Nat),
      item inside view marker start stop =
          { inside inner start stop with
            tokens := Token.wrap .listItem start (inside inner start stop).tokens } ∨
        (view.line (start + 1)).isEmpty = true ∧
          item inside view marker start stop =
            ⟨Token.wrap .listItem start [], [], min (start + 2) stop⟩ := by
  let line := view.line start
  let column := line.indent.toNat + marker.length
  let behind := line.content.drop marker.length
  let count := (spacesFrom line.base column behind).1
  let offset := (spacesFrom line.base column behind).2
  let padding := if behind.length ≤ count || 4 < offset - column then 1 else offset - column
  let inner : View :=
    ⟨view.lines.setIfInBounds start (opened line marker), view.limit, column + padding,
      some view.indent⟩
  have here : start < view.lines.size := by
    apply inside_of_content
    intro empty
    have within := opens.within
    have positive := opens.positive
    rw [empty, List.length_nil] at within
    omega
  have first : inner.line start = opened line marker := View.line_setLine _ here
  have past : ¬behind.length ≤ count → column + 1 ≤ offset := by
    intro more
    have blanks := (spacesFrom_snd line.base behind column).1
    cases content : behind with
    | nil => simp [content] at more
    | cons c rest =>
        have space : isSpace c = true := by
          have ends := opens.ends
          change endsMarker behind = true at ends
          simpa [content, endsMarker] using ends
        rw [content, List.takeWhile_cons_of_pos space, List.length_cons] at blanks
        simp only [offset, content]
        omega
  have padded : 1 ≤ padding ∧ (¬behind.length ≤ count → column + padding ≤ offset) := by
    simp only [padding]
    by_cases empty : behind.length ≤ count
    · simp [empty]
    · have more := past empty
      split
      · exact ⟨Nat.le_refl 1, fun _ => more⟩
      · exact ⟨by omega, fun _ => by omega⟩
  refine ⟨inner, ⟨rfl, fun n other => View.line_setLine_ne view _ other, first, ?_, ?_⟩, ?_⟩
  · exact Nat.add_le_add_left padded.1 column
  · intro shown
    have more : ¬behind.length ≤ count := by
      intro less
      have within : marker.length ≤ line.body.length - line.lead := by
        simpa only [Line.content, List.length_drop] using opens.within
      have left : behind.length = line.body.length - line.lead - marker.length := by
        simp only [behind, Line.content, List.length_drop]
      rw [first] at shown
      have further : ¬line.body.length ≤ line.lead + marker.length + count :=
        of_decide_eq_false shown
      omega
    rw [first]
    exact Int.ofNat_le.mpr (padded.2 more)
  · intro inside stop
    by_cases empty : (behind.length ≤ count && (view.line (start + 1)).isEmpty) = true
    · refine .inr ⟨(Bool.and_eq_true_iff.mp empty).2, ?_⟩
      simp only [item]
      rw [if_pos empty]
    · refine .inl ?_
      simp only [item]
      rw [if_neg empty]
      rfl

/-- A reader of lines that hold no fence gives none. -/
def Reader.Bare (reader : Reader) : Prop :=
  ∀ (view : View) (start stop : Nat), stop ≤ view.limit →
    (∀ n, start ≤ n → n < stop → (view.line n).Bare) →
    ∀ number, ¬Covers (reader view start stop).tokens number

section

variable {view : View} {stop : Nat} (bound : stop ≤ view.limit)

include bound

theorem quote_bare {inside : Reader} (reads : inside.Bare) {start : Nat} (before : start < stop)
    (opens : view.opensQuote start = true)
    (bare : ∀ n, start ≤ n → n < stop → (∀ wall, start < wall → view.Walled wall → n < wall) →
      (view.line n).Bare) (number : Nat) :
    ¬Covers (quote inside view start stop).tokens number := by
  obtain ⟨opened, inner, past, lines, -, quotes, isQuote⟩ := quotes_opened view before bound
  have within := quotes.within
  rw [isQuote, covers_wrap]
  refine reads inner start past ?_ (fun n lower upper => ?_) number
  · rcases quotes.limit with same | ended <;> omega
  have own := bare n lower (by omega) fun wall below walled =>
    Nat.lt_of_lt_of_le upper (quotes.walls wall below walled)
  by_cases first : n = start
  · subst first
    have marked : (view.line n).content.head? = some '>' := by
      simp only [View.opensQuote, Bool.and_eq_true] at opens
      exact eq_of_beq opens.2
    have isOpened : inner.line n = quoted (view.line n) := by
      rw [quotes.before n (by omega)]
      change (View.mk opened.lines _ _ _).line n = _
      rw [lines]
      refine View.line_setLine _ (inside_of_content fun empty => ?_)
      simp [empty] at marked
    obtain ⟨front, content, markers⟩ := content_quoted marked
    rw [isOpened]
    exact own.of_append content markers
  · rcases quotes.quoted n (by omega) upper with ⟨marked, same⟩ | content
    · obtain ⟨front, content, markers⟩ := content_quoted marked
      rw [same]
      exact own.of_append content markers
    · exact own.of_content content

theorem item_bare {inside : Reader} (reads : inside.Bare) {marker : ListMarker} {start : Nat}
    (opens : marker.Opens (view.line start).content)
    (bare : ∀ n, start ≤ n → n < stop → (view.line n).Bare) (number : Nat) :
    ¬Covers (item inside view marker start stop).tokens number := by
  obtain ⟨inner, isItem, same⟩ := item_spec opens
  rcases same inside stop with same | ⟨-, same⟩
  · rw [same, covers_wrap]
    refine reads inner start stop (isItem.limit ▸ bound) (fun n lower upper => ?_) number
    have own := bare n lower upper
    by_cases first : start = n
    · subst first
      rw [isItem.first]
      refine own.of_append (content_opened (view.line start) marker) ?_
      rw [List.all_append, opens.chars, all_takeWhile_isSpace]
      rfl
    · rw [isItem.others n first]
      exact own
  · rw [same, covers_wrap]
    exact not_covers_nil number

theorem items_bare {inside : Reader} (reads : inside.Bare)
    (forward : inside.Fits fun _ => True) (fuel : Nat) :
    ∀ (marker : ListMarker) (start : Nat), start < stop →
      marker.Opens (view.line start).content →
      (∀ n, start ≤ n → n < stop → (view.line n).Bare) →
      ∀ number, ¬Covers (items inside view stop fuel marker start).tokens number := by
  induction fuel with
  | zero =>
      intro marker start _ _ _
      exact not_covers_nil
  | succ fuel ih =>
      intro marker start before opens bare number
      have first := item_bare bound reads opens bare number
      have further := (@item_fits (fun _ => True) _ forward view (fun _ _ => trivial) marker start
        stop before bound trivial).advances
      simp only [items]
      split
      next => exact first
      next going =>
        split
        next next found =>
          rw [append, covers_append, not_or]
          exact ⟨first, ih next _ (by omega) (opens_of_nextMarker found)
            (fun n lower upper => bare n (by omega) upper) number⟩
        next => exact first

theorem block_bare {inQuote inItem : Reader} (quotes : inQuote.Bare) (lists : inItem.Bare)
    (forward : inItem.Fits fun _ => True) {start : Nat} (before : start < stop)
    (bare : ∀ n, start ≤ n → n < stop → (view.line n).Bare) (number : Nat) :
    ¬Covers (block inQuote inItem view start stop).tokens number := by
  have noFence : view.fence? start = none := by
    simp only [View.fence?]
    split
    · rfl
    · exact bare start (Nat.le_refl _) before [] _ rfl rfl
  simp only [block, noFence]
  split
  · exact not_covers_of_absent (by simp [code]) number
  split
  next isQuote =>
    exact quote_bare bound quotes before isQuote (fun n lower upper _ => bare n lower upper) number
  split
  · exact not_covers_of_absent (by simp) number
  split
  next marker found =>
    simp only [list, covers_wrap]
    exact items_bare bound lists forward _ marker start before
      (opens_of_listMarker (View.listMarker_of_list found)) bare number
  split
  · exact not_covers_nil number
  split
  · exact not_covers_of_absent (by simp [html]) number
  split
  · exact not_covers_of_absent (by simp [heading, Token.wrap]) number
  · refine not_covers_of_absent ?_ number
    simp only [text]
    split <;> simp [heading, Token.wrap]

omit bound in
theorem readWith_bare {next : Reader}
    (forward : ∀ start, start < stop → start ≤ (next view start stop).line)
    (reads : ∀ start, start < stop → (∀ n, start ≤ n → n < stop → (view.line n).Bare) →
      ∀ number, ¬Covers (next view start stop).tokens number) (fuel : Nat) :
    ∀ start, (∀ n, start ≤ n → n < stop → (view.line n).Bare) →
      ∀ number, ¬Covers (readWith next view stop fuel start).tokens number := by
  induction fuel with
  | zero =>
      intro start _
      exact not_covers_nil
  | succ fuel ih =>
      intro start bare number
      have skipped := (skipEmpty_spec view (view.limit - start) start).1
      simp only [readWith]
      split
      next => exact not_covers_nil number
      next =>
        split
        next => exact not_covers_nil number
        next going =>
          simp only [Bool.or_eq_true, decide_eq_true_eq, not_or, Nat.not_le] at going
          have further := forward _ going.1
          rw [append, covers_append, not_or]
          refine ⟨reads _ going.1 (fun n lower upper => bare n (by omega) upper) number, ?_⟩
          refine ih _ (fun n lower upper => bare n ?_ upper) number
          split at lower <;> omega

omit bound in
theorem readNone_bare : readNone.Bare := by
  intro view start stop bound bare
  exact readWith_bare (fun first before => by simp only; omega)
    (fun first before _ => not_covers_nil) _ start bare

omit bound in
theorem read_bare (room : Nat) : (read room).Bare := by
  induction room using read.induct with
  | case1 => exact readNone_bare
  | case2 =>
      intro view start stop bound bare
      refine readWith_bare (fun first before => ?_) (fun first before bare =>
        block_bare bound readNone_bare readNone_bare readNone_fits before bare) _ start bare
      exact (@block_fits (fun _ => True) _ _ readNone_fits readNone_fits view (fun _ _ => trivial)
        first stop before bound trivial).advances
  | case3 room quotes lists =>
      intro view start stop bound bare
      refine readWith_bare (fun first before => ?_) (fun first before bare =>
        block_bare bound quotes lists (read_fits room) before bare) _ start bare
      exact (@block_fits (fun _ => True) _ _ (read_fits (room + 1)) (read_fits room) view
        (fun _ _ => trivial) first stop before bound trivial).advances

end

end Blocks

end MdxCheck.Markdown
