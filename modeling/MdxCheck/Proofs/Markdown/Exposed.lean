import MdxCheck.Proofs.Markdown.Spans

/-!
What the text that Markdown shows keeps: each character without a meaning of its own, unless it stands
in a tag, in a character reference or in the target of a link.
-/

namespace MdxCheck.Markdown

/-- A character that shows and that no construct of Markdown starts or ends with. -/
def IsOrdinary (c : Char) : Prop :=
  Text.isBlank c = false ∧
    c ∉ ['!', '&', '(', ')', '*', ';', '<', '>', '[', '\\', ']', '_', '`']

instance : DecidablePred IsOrdinary := fun _ =>
  inferInstanceAs (Decidable (_ ∧ _))

theorem IsOrdinary.ne_space {c : Char} (ordinary : IsOrdinary c) : c ≠ ' ' := by
  rintro rfl
  exact absurd ordinary.1 (by decide)

theorem not_isOrdinary_of_isSpace {c : Char} (space : isSpace c = true) : ¬IsOrdinary c := by
  simp only [isSpace, Bool.or_eq_true, beq_iff_eq] at space
  rcases space with rfl | rfl
  · decide
  · decide

namespace Inline

/-- A character of a content that stands in none of the places which are not shown. -/
structure Exposes (content : Inline) (place : Nat) (c : Char) : Prop where
  here : content.chars[place]? = some c
  ordinary : IsOrdinary c
  noTag : ∀ first last, first < place → place < last → content.chars[first]? = some '<' →
    content.chars[last]? ≠ some '>'
  noReference : ∀ first last, first < place → place < last → content.chars[first]? = some '&' →
    content.chars[last]? ≠ some ';'
  noTarget : ∀ first last, first + 1 < place → place < last → content.chars[first]? = some ']' →
    (content.chars[first + 1]? = some '(' ∨ content.chars[first + 1]? = some '[') →
    content.chars[last]? ≠ some ')' ∧ content.chars[last]? ≠ some ']'

/-- A character is among those of some pieces. -/
def Keeps (c : Char) (pieces : List Piece) : Prop :=
  ∃ text, (.plain text ∈ pieces ∨ .token text ∈ pieces) ∧ c ∈ text

theorem Keeps.append_left {c : Char} {pieces : List Piece} (keeps : Keeps c pieces)
    (further : List Piece) : Keeps c (pieces ++ further) := by
  obtain ⟨text, plain | token, inside⟩ := keeps
  · exact ⟨text, .inl (List.mem_append_left _ plain), inside⟩
  · exact ⟨text, .inr (List.mem_append_left _ token), inside⟩

theorem Keeps.append_right {c : Char} {pieces : List Piece} (keeps : Keeps c pieces)
    (before : List Piece) : Keeps c (before ++ pieces) := by
  obtain ⟨text, plain | token, inside⟩ := keeps
  · exact ⟨text, .inl (List.mem_append_right _ plain), inside⟩
  · exact ⟨text, .inr (List.mem_append_right _ token), inside⟩

/-- Pieces keep each exposed character between two positions. -/
def KeepsExposed (content : Inline) (start stop : Nat) (pieces : List Piece) : Prop :=
  ∀ place c, content.Exposes place c → start ≤ place → place < stop → Keeps c pieces

/-- Pieces that are read from one position to a later one. -/
structure Passes (content : Inline) (position : Nat) (pieces : List Piece) (next : Nat) : Prop where
  advances : position < next
  keeps : KeepsExposed content position next pieces

section Simple

variable {content : Inline} {place : Nat} {c : Char} {limit position next : Nat} {piece : Piece}

section

variable (exposes : content.Exposes place c)

include exposes

theorem Exposes.unmet {d : Char} (found : content.chars[place]? = some d) (odd : ¬IsOrdinary d) :
    False := by
  obtain rfl := Option.some.inj (exposes.here.symm.trans found)
  exact odd exposes.ordinary

theorem Exposes.not_past {accept : Char → Bool} (odd : ∀ d, accept d = true → ¬IsOrdinary d)
    (low : position ≤ place) : ¬place < content.past accept limit position := by
  intro high
  obtain ⟨d, here, accepted⟩ := accepts_of_past low high
  exact exposes.unmet here (odd d accepted)

/-- An exposed character stands behind a tag or an address that starts before it. -/
theorem Exposes.not_within {first : Char} {last : Char}
    (none : ∀ start stop, start < place → place < stop → content.chars[start]? = some first →
      content.chars[stop]? ≠ some last)
    (odd : ¬IsOrdinary first) (oddLast : ¬IsOrdinary last)
    (opens : content.chars[position]? = some first)
    (closes : content.chars[next - 1]? = some last) (low : position ≤ place) :
    ¬place < next := by
  intro high
  rcases Nat.lt_or_eq_of_le low with after | rfl
  · rcases Nat.lt_or_eq_of_le (Nat.le_sub_one_of_lt high) with before | rfl
    · exact none position (next - 1) after before opens closes
    · exact exposes.unmet closes oddLast
  · exact exposes.unmet opens odd

theorem Exposes.mem_codeText {source : Text} (inside : c ∈ source) : c ∈ codeText source := by
  have notBlank := exposes.ordinary.1
  have kept : c ∈ source.map fun c => if c = '\n' then ' ' else c := by
    refine List.mem_map.mpr ⟨c, inside, if_neg ?_⟩
    rintro rfl
    exact absurd notBlank (by decide)
  have notSpace : c ≠ ' ' := by
    rintro rfl
    exact absurd notBlank (by decide)
  unfold codeText
  dsimp only
  split
  · next spaced =>
      obtain ⟨first, last, -⟩ := spaced
      generalize source.map (fun c => if c = '\n' then ' ' else c) = text at *
      cases text with
      | nil => simp at kept
      | cons d text =>
          obtain rfl : d = ' ' := Option.some.inj first
          have later : c ∈ text := (List.mem_cons.mp kept).resolve_left notSpace
          rcases List.eq_nil_or_concat text with rfl | ⟨front, e, rfl⟩
          · simp at later
          · rw [List.concat_eq_append] at *
            obtain rfl : e = ' ' := by
              rw [← List.cons_append, List.getLast?_concat] at last
              exact Option.some.inj last
            rcases List.mem_append.mp later with inner | same
            · rwa [List.drop_one, List.tail_cons, List.dropLast_concat]
            · exact absurd (List.mem_singleton.mp same) notSpace
  · exact kept

end

theorem lineEnd_passes (here : content.at? limit position = some '\n')
    (read : content.lineEnd? limit position = some (piece, next)) :
    Passes content position [piece] next := by
  obtain ⟨rfl, rfl⟩ := Prod.mk.inj (Option.some.inj read)
  have forward := past_ge content limit (position + 1) isSpace
  refine ⟨forward, fun place c exposes low high => ?_⟩
  rcases Nat.lt_or_eq_of_le low with after | rfl
  · exact absurd high (exposes.not_past (fun d => not_isOrdinary_of_isSpace) after)
  · exact (exposes.unmet (at_eq_some_iff.mp here).2 (by decide)).elim

theorem escape_passes (here : content.at? limit position = some '\\')
    (read : content.escape? limit position = some (piece, next)) :
    Passes content position [piece] next := by
  have marked {place : Nat} {c : Char} (exposes : content.Exposes place c) : place ≠ position := by
    rintro rfl
    exact exposes.unmet (at_eq_some_iff.mp here).2 (by decide)
  unfold escape? at read
  split at read
  · simp at read
  · next feed =>
      obtain ⟨rfl, rfl⟩ := Prod.mk.inj (Option.some.inj read)
      have forward := past_ge content limit (position + 2) isSpace
      refine ⟨by omega, fun place c exposes low high => ?_⟩
      have fed : place ≠ position + 1 := by
        rintro rfl
        exact exposes.unmet (at_eq_some_iff.mp feed).2 (by decide)
      have unmarked := marked exposes
      exact absurd high (exposes.not_past (fun d => not_isOrdinary_of_isSpace) (by omega))
  · next d _ escaped =>
      obtain ⟨rfl, rfl⟩ := Prod.mk.inj (Option.some.inj read)
      refine ⟨by omega, fun place c exposes low high => ?_⟩
      have unmarked := marked exposes
      obtain rfl : place = position + 1 := by omega
      obtain rfl := Option.some.inj (exposes.here.symm.trans (at_eq_some_iff.mp escaped).2)
      exact ⟨_, .inr (List.mem_singleton_self _), by split <;> simp⟩

theorem closingTicks_spec (count fuel : Nat) (memo : Memo) :
    (content.closingTicks limit count fuel position memo).2.skips = memo.skips ∧
      ∀ start stop, (content.closingTicks limit count fuel position memo).1 = some (start, stop) →
        position ≤ start ∧ start < stop ∧
          ∀ index, start ≤ index → index < stop → content.chars[index]? = some '`' := by
  induction fuel generalizing position memo with
  | zero => simp [closingTicks]
  | succ fuel ih =>
      have reached := past_ge content content.chars.size position (· ≠ '`')
      rw [closingTicks]
      dsimp only
      split
      · simp
      next inside =>
      generalize opened : content.past (· ≠ '`') content.chars.size position = start at *
      have further := past_ge content limit (start + 1) (· == '`')
      split
      · refine ⟨rfl, ?_⟩
        rintro _ _ ⟨⟩
        refine ⟨reached, further, fun index low high => ?_⟩
        rcases Nat.lt_or_eq_of_le low with after | rfl
        · obtain ⟨d, here, tick⟩ := @accepts_of_past content limit (start + 1) _ index after high
          rw [here, eq_of_beq tick]
        · have bound : start < content.chars.size := Nat.lt_of_not_le inside
          have here := Array.getElem?_eq_getElem bound
          have refused : decide (content.chars[start] ≠ '`') = false := by
            apply @refuses_past content content.chars.size position (· ≠ '`')
            rw [opened]
            exact at_eq_some_iff.mpr ⟨bound, here⟩
          simpa [here] using refused
      · obtain ⟨skips, found⟩ := @ih (content.past (· == '`') limit (start + 1))
          { memo with
            ticks := (content.past (· == '`') limit (start + 1) - start, start) :: memo.ticks }
        refine ⟨skips, fun first last later => ?_⟩
        obtain ⟨low, rest⟩ := found first last later
        exact ⟨by omega, rest⟩

theorem code_passes {memo after : Memo} (here : content.at? limit position = some '`')
    (read : content.code limit memo position = ((piece, next), after)) :
    Passes content position [piece] next ∧ after.skips = memo.skips := by
  unfold code at read
  dsimp only at read
  have opened := past_ge content limit (position + 1) (· == '`')
  have unmarked {place : Nat} {c : Char} (exposes : content.Exposes place c)
      (low : position ≤ place) : ¬place < content.past (· == '`') limit (position + 1) := by
    rcases Nat.lt_or_eq_of_le low with later | rfl
    · refine exposes.not_past (fun d tick => ?_) later
      rw [eq_of_beq tick]
      decide
    · exact (exposes.unmet (at_eq_some_iff.mp here).2 (by decide)).elim
  generalize content.past (· == '`') limit (position + 1) = start at *
  split at read
  · obtain ⟨same, rfl⟩ := Prod.mk.inj read
    obtain ⟨rfl, rfl⟩ := Prod.mk.inj same
    exact ⟨⟨opened, fun place c exposes low high => absurd high (unmarked exposes low)⟩, rfl⟩
  · obtain ⟨skips, closed⟩ := @closingTicks_spec content limit start (start - position)
      (content.chars.size + 1) memo
    split at read
    · next stop past ending found =>
        rw [found] at skips closed
        obtain ⟨same, rfl⟩ := Prod.mk.inj read
        obtain ⟨rfl, rfl⟩ := Prod.mk.inj same
        obtain ⟨reached, less, marks⟩ := closed stop past rfl
        refine ⟨⟨by omega, fun place c exposes low high => ?_⟩, skips⟩
        have inside : place < stop := by
          apply Nat.lt_of_not_le
          intro behind
          exact exposes.unmet (marks place behind high) (by decide)
        have between := mem_slice exposes.here (Nat.le_of_not_lt (unmarked exposes low)) inside
        exact ⟨_, .inr (List.mem_singleton_self _), exposes.mem_codeText between⟩
    · next ending found =>
        rw [found] at skips
        obtain ⟨same, rfl⟩ := Prod.mk.inj read
        obtain ⟨rfl, rfl⟩ := Prod.mk.inj same
        exact ⟨⟨opened, fun place c exposes low high => absurd high (unmarked exposes low)⟩, skips⟩

theorem bracketed_passes (here : content.at? limit position = some '<')
    (read : content.bracketed? limit position = some (piece, next)) :
    Passes content position [piece] next := by
  have opens := (at_eq_some_iff.mp here).2
  have behind (closes : content.chars[next - 1]? = some '>') (less : position < next) :
      Passes content position [piece] next := by
    refine ⟨less, fun place c exposes low high => ?_⟩
    exact absurd high
      (exposes.not_within exposes.noTag (by decide) (by decide) opens closes low)
  unfold bracketed? at read
  split at read
  · next address found =>
      obtain ⟨-, rfl⟩ := Prod.mk.inj (Option.some.inj read)
      obtain ⟨rest, whole⟩ := inside_of_address found
      refine behind ?_ (by omega)
      have last : (content.slice position limit)[address.length + 1]? = some '>' := by
        rw [whole]
        simp
      exact (getElem?_slice last : content.chars[position + (address.length + 1)]? = some '>')
  · rw [Option.ite_none_right_eq_some] at read
    obtain ⟨rest, dropped, same⟩ := Option.map_eq_some_iff.mp read.2
    obtain ⟨-, rfl⟩ := Prod.mk.inj same
    obtain ⟨less, closes⟩ := leftBehind_slice (Html.leftBehind_dropInline dropped)
    exact behind closes less

theorem entity_passes (here : content.at? limit position = some '&')
    (read : content.entity? limit position = some (piece, next)) :
    Passes content position [piece] next := by
  have opens := (at_eq_some_iff.mp here).2
  unfold entity? at read
  split at read
  · obtain ⟨⟨form, rest⟩, found, same⟩ := Option.map_eq_some_iff.mp read
    obtain ⟨-, rfl⟩ := Prod.mk.inj same
    obtain ⟨less, closes⟩ := leftBehind_slice (leftBehind_entityAt found)
    refine ⟨less, fun place c exposes low high => ?_⟩
    exact absurd high
      (exposes.not_within exposes.noReference (by decide) (by decide) opens closes low)
  · simp at read

theorem plain_passes {d : Char} (here : content.at? limit position = some d)
    (plain : isSpecial d = false) :
    Passes content position
      [.plain (content.slice position (content.past (fun c => !isSpecial c) limit position))]
      (content.past (fun c => !isSpecial c) limit position) := by
  refine ⟨past_gt here (by simp [plain]), fun place c exposes low high => ?_⟩
  exact ⟨_, .inl (List.mem_singleton_self _), mem_slice exposes.here low high⟩

theorem simple_passes {memo after : Memo} {found : Option (Piece × Nat)}
    (read : content.simple? limit memo position = (found, after)) :
    after.skips = memo.skips ∧
      ∀ piece next, found = some (piece, next) → Passes content position [piece] next := by
  unfold simple? at read
  split at read
  · next here =>
      obtain ⟨rfl, rfl⟩ := Prod.mk.inj read
      exact ⟨rfl, fun piece next => lineEnd_passes here⟩
  · next here =>
      obtain ⟨rfl, rfl⟩ := Prod.mk.inj read
      exact ⟨rfl, fun piece next => escape_passes here⟩
  · next here =>
      rcases run : content.code limit memo position with ⟨⟨piece, next⟩, ending⟩
      rw [run] at read
      obtain ⟨rfl, rfl⟩ := Prod.mk.inj read
      obtain ⟨passes, skips⟩ := code_passes here run
      refine ⟨skips, fun other past same => ?_⟩
      obtain ⟨rfl, rfl⟩ := Prod.mk.inj (Option.some.inj same)
      exact passes
  · next here =>
      obtain ⟨rfl, rfl⟩ := Prod.mk.inj read
      exact ⟨rfl, fun piece next => bracketed_passes here⟩
  · next here =>
      obtain ⟨rfl, rfl⟩ := Prod.mk.inj read
      exact ⟨rfl, fun piece next => entity_passes here⟩
  · next d _ _ _ _ _ here =>
      split at read
      · obtain ⟨rfl, rfl⟩ := Prod.mk.inj read
        exact ⟨rfl, by simp⟩
      · next plain =>
          obtain ⟨rfl, rfl⟩ := Prod.mk.inj read
          refine ⟨rfl, fun piece next same => ?_⟩
          obtain ⟨rfl, rfl⟩ := Prod.mk.inj (Option.some.inj same)
          exact plain_passes here (by simpa using plain)
  · obtain ⟨rfl, rfl⟩ := Prod.mk.inj read
    exact ⟨rfl, by simp⟩

end Simple

section Links

variable {content : Inline} {limit : Nat}

theorem skip_forward (limit room : Nat) : SkipsForward limit (content.skip limit room) := by
  -- a position is either remembered, with an end behind it, or read one level further down
  induction room with
  | zero =>
      intro memo position leads inside
      rw [Inline.skip]
      split
      · next stop known => exact ⟨leads, leads position stop (Option.join_eq_some_iff.mp known)⟩
      · exact ⟨leads.remember (by omega), by dsimp only; omega⟩
  | succ room ih =>
      intro memo position leads inside
      rw [Inline.skip]
      split
      · next stop known => exact ⟨leads, leads position stop (Option.join_eq_some_iff.mp known)⟩
      · have remembers {found : Option Nat} {after : Memo} (leadsOn : after.Forward)
            (ends : ∀ stop, found = some stop → position < stop) :
            position < found.getD (position + 1) ∧ Memo.Forward { after with
              skips := after.skips.setIfInBounds position (some (found.getD (position + 1))) } := by
          have less : position < found.getD (position + 1) := by
            cases found with
            | none => exact Nat.lt_succ_self position
            | some stop => exact ends stop rfl
          exact ⟨less, leadsOn.remember less⟩
        dsimp only
        split
        · rcases read : content.link? (content.skip limit room) limit memo position with
            ⟨link, after⟩
          obtain ⟨leadsOn, spans⟩ := link_spec ih leads read
          refine (remembers leadsOn fun stop same => ?_).symm
          obtain ⟨⟨last, past⟩, isLink, rfl⟩ := Option.map_eq_some_iff.mp same
          obtain ⟨low, span⟩ := spans last past isLink
          exact Nat.lt_trans low span.less
        · rcases read : content.image? (content.skip limit room) limit memo position with
            ⟨image, after⟩
          obtain ⟨leadsOn, spans⟩ := image_spec ih leads read
          refine (remembers leadsOn fun stop same => ?_).symm
          obtain ⟨⟨last, past⟩, isImage, rfl⟩ := Option.map_eq_some_iff.mp same
          obtain ⟨-, low, span⟩ := spans last past isImage
          have less := span.less
          dsimp only
          omega
        · rcases read : content.simple? limit memo position with ⟨simple, after⟩
          obtain ⟨skips, passes⟩ := simple_passes read
          have leadsOn : after.Forward := fun place past kept => leads place past (skips ▸ kept)
          refine (remembers leadsOn fun stop same => ?_).symm
          obtain ⟨⟨piece, past⟩, isSimple, rfl⟩ := Option.map_eq_some_iff.mp same
          exact (passes piece past isSimple).advances

/-- No exposed character stands in the target of a link or an image. -/
theorem IsSpan.hides {last stop place : Nat} {c : Char} (span : IsSpan content last stop)
    (exposes : content.Exposes place c) (low : last ≤ place) : ¬place < stop := by
  intro high
  have notLabel : place ≠ last := by
    rintro rfl
    exact exposes.unmet span.label (by decide)
  obtain alone | ⟨less, opens, closes⟩ := span.target
  · omega
  · have notOpening : place ≠ last + 1 := by
      rintro rfl
      rcases opens with round | square
      · exact exposes.unmet round (by decide)
      · exact exposes.unmet square (by decide)
    have notClosing : place ≠ stop - 1 := by
      rintro rfl
      rcases closes with round | square
      · exact exposes.unmet round (by decide)
      · exact exposes.unmet square (by decide)
    obtain ⟨notRound, notSquare⟩ :=
      exposes.noTarget last (stop - 1) (by omega) (by omega) span.label opens
    exact closes.elim notRound notSquare

end Links

section Text

variable {c : Char} {text : Text} {pieces : List Piece}

@[simp] theorem keeps_nil : ¬Keeps c [] := by
  simp [Keeps]

@[simp] theorem keeps_plain : Keeps c (.plain text :: pieces) ↔ c ∈ text ∨ Keeps c pieces := by
  simp [Keeps, or_and_right, exists_or, or_assoc]

@[simp] theorem keeps_token : Keeps c (.token text :: pieces) ↔ c ∈ text ∨ Keeps c pieces := by
  simp [Keeps, or_and_right, exists_or, or_left_comm]

@[simp] theorem keeps_lineEnd : Keeps c (.lineEnd :: pieces) ↔ Keeps c pieces := by
  simp [Keeps]

@[simp] theorem keeps_mark {delimiter : Delimiter} :
    Keeps c (.mark delimiter :: pieces) ↔ Keeps c pieces := by
  simp [Keeps]

theorem Keeps.cons_imp {piece : Piece} {others : List Piece} (keeps : Keeps c (piece :: pieces))
    (later : Keeps c pieces → Keeps c others) : Keeps c (piece :: others) := by
  cases piece with
  | plain text => exact keeps_plain.mpr ((keeps_plain.mp keeps).imp_right later)
  | token text => exact keeps_token.mpr ((keeps_token.mp keeps).imp_right later)
  | lineEnd => exact keeps_lineEnd.mpr (later (keeps_lineEnd.mp keeps))
  | mark delimiter => exact keeps_mark.mpr (later (keeps_mark.mp keeps))

theorem Keeps.joinPlain (keeps : Keeps c pieces) : Keeps c (Piece.joinPlain pieces) := by
  fun_induction Piece.joinPlain pieces with
  | case1 => exact keeps
  | case2 text pieces further rest joined ih =>
      simp only [keeps_plain, List.mem_append, joined] at keeps ih ⊢
      rw [or_assoc]
      exact keeps.imp_right ih
  | case3 text pieces _ ih => exact keeps.cons_imp ih
  | case4 piece pieces _ ih => exact keeps.cons_imp ih

/-- Only spaces go where a line is trimmed at its end. -/
theorem mem_trimmed (inside : c ∈ text) (shows : c ≠ ' ') :
    c ∈ (text.reverse.dropWhile (· == ' ')).reverse := by
  have whole : c ∈ text.reverse.takeWhile (· == ' ') ++ text.reverse.dropWhile (· == ' ') := by
    rwa [List.takeWhile_append_dropWhile, List.mem_reverse]
  rw [List.mem_reverse]
  refine (List.mem_append.mp whole).resolve_left fun spaces => shows ?_
  exact eq_of_beq (List.all_eq_true.mp List.all_takeWhile c spaces)

theorem Keeps.trimLines (keeps : Keeps c pieces) (shows : c ≠ ' ') :
    Keeps c (Piece.trimLines pieces) := by
  fun_induction Piece.trimLines pieces with
  | case1 => exact keeps
  | case2 text pieces ih =>
      simp only [keeps_plain, keeps_lineEnd] at keeps ⊢
      exact keeps.imp (fun inside => mem_trimmed inside shows) ih
  | case3 piece pieces _ ih => exact keeps.cons_imp ih

theorem Keeps.render (keeps : Keeps c pieces) (paired : List Bool) :
    c ∈ Piece.render paired pieces := by
  fun_induction Piece.render paired pieces with
  | case1 => exact absurd keeps keeps_nil
  | case2 paired text pieces ih =>
      exact List.mem_append.mpr ((keeps_plain.mp keeps).imp_right ih)
  | case3 paired text pieces ih =>
      exact List.mem_append.mpr ((keeps_token.mp keeps).imp_right ih)
  | case4 paired pieces ih => exact List.mem_cons_of_mem _ (ih (keeps_lineEnd.mp keeps))
  | case5 delimiter pieces paired ih => exact ih (keeps_mark.mp keeps)
  | case6 delimiter pieces paired ih => exact List.mem_cons_of_mem _ (ih (keeps_mark.mp keeps))
  | case7 delimiter pieces ih => exact List.mem_cons_of_mem _ (ih (keeps_mark.mp keeps))

theorem Keeps.mem_text (keeps : Keeps c pieces) (shows : c ≠ ' ') : c ∈ Piece.text pieces :=
  (keeps.joinPlain.trimLines shows).render _

end Text

section Pieces

variable {content : Inline} {limit position next : Nat} {memo after : Memo} {pieces : List Piece}

theorem marks_passes {mark : Char} (here : content.at? limit position = some mark)
    (odd : ¬IsOrdinary mark) :
    Passes content position (content.marks limit mark position).1
      (content.marks limit mark position).2 := by
  refine ⟨past_gt here (beq_self_eq_true mark), fun place c exposes low high => ?_⟩
  exact absurd high (exposes.not_past (fun d same => eq_of_beq same ▸ odd) low)

theorem plainChar_passes {d : Char} (here : content.at? limit position = some d) :
    Passes content position (plainChar d position).1 (plainChar d position).2 := by
  refine ⟨Nat.lt_succ_self position, fun place c exposes low high => ?_⟩
  obtain rfl : place = position := Nat.le_antisymm (Nat.le_of_lt_succ high) low
  obtain rfl := Option.some.inj (exposes.here.symm.trans (at_eq_some_iff.mp here).2)
  exact ⟨[c], .inl (List.mem_singleton_self _), List.mem_singleton_self c⟩

theorem link_passes (here : content.at? limit position = some '[') {last stop : Nat}
    (low : position < last) (span : IsSpan content last stop)
    (keeps : KeepsExposed content (position + 1) last pieces) :
    Passes content position [.token (Piece.text pieces)] stop := by
  refine ⟨Nat.lt_trans low span.less, fun place c exposes first past => ?_⟩
  have behind : place ≠ position := by
    rintro rfl
    exact exposes.unmet (at_eq_some_iff.mp here).2 (by decide)
  have before : place < last := by
    apply Nat.lt_of_not_le
    intro further
    exact span.hides exposes further past
  have kept := keeps place c exposes (by omega) before
  exact ⟨_, .inr (List.mem_singleton_self _), kept.mem_text exposes.ordinary.ne_space⟩

theorem image_passes (here : content.at? limit position = some '!') {last stop : Nat}
    (label : content.at? limit (position + 1) = some '[') (low : position + 1 < last)
    (span : IsSpan content last stop) :
    Passes content position [.token (content.slice (position + 2) last)] stop := by
  have less := span.less
  refine ⟨by omega, fun place c exposes first past => ?_⟩
  have behind : place ≠ position := by
    rintro rfl
    exact exposes.unmet (at_eq_some_iff.mp here).2 (by decide)
  have inner : place ≠ position + 1 := by
    rintro rfl
    exact exposes.unmet (at_eq_some_iff.mp label).2 (by decide)
  have before : place < last := by
    apply Nat.lt_of_not_le
    intro further
    exact span.hides exposes further past
  exact ⟨_, .inr (List.mem_singleton_self _), mem_slice exposes.here (by omega) before⟩

theorem step_passes {skip : Skip} {inside : Memo → Nat → Nat → List Piece × Memo}
    (forward : SkipsForward limit skip)
    (reads : ∀ memo start stop, memo.Forward → (inside memo start stop).2.Forward ∧
      KeepsExposed content start stop (inside memo start stop).1)
    {d : Char} (here : content.at? limit position = some d) (leads : memo.Forward)
    (read : content.step skip inside limit memo d position = ((pieces, next), after)) :
    after.Forward ∧ Passes content position pieces next := by
  unfold step at read
  split at read
  · next mark =>
      obtain ⟨same, rfl⟩ := Prod.mk.inj read
      obtain ⟨rfl, rfl⟩ := Prod.mk.inj same
      refine ⟨leads, marks_passes here ?_⟩
      rcases mark with rfl | rfl
      · decide
      · decide
  split at read
  · next bracket =>
      rcases linked : content.link? skip limit memo position with ⟨link, ending⟩
      obtain ⟨leadsOn, spans⟩ := link_spec forward leads linked
      cases link with
      | none =>
          simp only [linked, Prod.mk.injEq] at read
          obtain ⟨⟨rfl, rfl⟩, rfl⟩ := read
          exact ⟨leadsOn, plainChar_passes here⟩
      | some link =>
          obtain ⟨low, span⟩ := spans link.1 link.2 rfl
          obtain ⟨leadsAfter, keeps⟩ := reads ending (position + 1) link.1 leadsOn
          simp only [linked, Prod.mk.injEq] at read
          obtain ⟨⟨rfl, rfl⟩, rfl⟩ := read
          exact ⟨leadsAfter, link_passes (bracket ▸ here) low span keeps⟩
  split at read
  · next bang =>
      rcases seen : content.image? skip limit memo position with ⟨image, ending⟩
      obtain ⟨leadsOn, spans⟩ := image_spec forward leads seen
      cases image with
      | none =>
          simp only [seen, Prod.mk.injEq] at read
          obtain ⟨⟨rfl, rfl⟩, rfl⟩ := read
          exact ⟨leadsOn, plainChar_passes here⟩
      | some image =>
          obtain ⟨label, low, span⟩ := spans image.1 image.2 rfl
          simp only [seen, Prod.mk.injEq] at read
          obtain ⟨⟨rfl, rfl⟩, rfl⟩ := read
          exact ⟨leadsOn, image_passes (bang ▸ here) label low span⟩
  · rcases run : content.simple? limit memo position with ⟨simple, ending⟩
    obtain ⟨skips, passes⟩ := simple_passes run
    have leadsOn : ending.Forward := fun place past kept => leads place past (skips ▸ kept)
    cases simple with
    | none =>
        simp only [run, Prod.mk.injEq] at read
        obtain ⟨⟨rfl, rfl⟩, rfl⟩ := read
        exact ⟨leadsOn, plainChar_passes here⟩
    | some simple =>
        simp only [run, Prod.mk.injEq] at read
        obtain ⟨⟨rfl, rfl⟩, rfl⟩ := read
        exact ⟨leadsOn, passes simple.1 simple.2 rfl⟩

theorem steps_keep {skip : Skip} {inside : Memo → Nat → Nat → List Piece × Memo}
    (forward : SkipsForward limit skip)
    (reads : ∀ memo start stop, memo.Forward → (inside memo start stop).2.Forward ∧
      KeepsExposed content start stop (inside memo start stop).1)
    {fuel : Nat} (leads : memo.Forward) (enough : limit ≤ position + fuel) :
    (content.steps skip inside limit fuel memo position).2.Forward ∧
      KeepsExposed content position limit
        (content.steps skip inside limit fuel memo position).1 := by
  -- each step advances, so the fuel lasts to the limit
  induction fuel generalizing memo position with
  | zero =>
      refine ⟨leads, fun place c exposes low high => ?_⟩
      omega
  | succ fuel ih =>
      rw [steps]
      split
      · next ended =>
          refine ⟨leads, fun place c exposes low high => ?_⟩
          -- an exposed character is inside of the content, so the reading has not ended before it
          have inside := (Array.getElem?_eq_some_iff.mp exposes.here).1
          simp only [at?, if_pos (Nat.lt_of_le_of_lt low high),
            Array.getElem?_eq_none_iff] at ended
          omega
      · next d here =>
          rcases stepped : content.step skip inside limit memo d position with
            ⟨⟨pieces, next⟩, after⟩
          obtain ⟨leadsOn, passes⟩ := step_passes forward reads here leads stepped
          have less := passes.advances
          obtain ⟨leadsAfter, further⟩ := @ih next after leadsOn (by omega)
          refine ⟨leadsAfter, fun place c exposes low high => ?_⟩
          rcases Nat.lt_or_ge place next with now | later
          · exact (passes.keeps place c exposes low now).append_left _
          · exact (further place c exposes later high).append_right _

theorem pieces_keep (room : Nat) : ∀ (memo : Memo) (start stop : Nat), memo.Forward →
    (content.pieces room memo start stop).2.Forward ∧
      KeepsExposed content start stop (content.pieces room memo start stop).1 := by
  induction room with
  | zero =>
      intro memo start stop leads
      refine ⟨leads, fun place c exposes low high => ?_⟩
      exact ⟨_, .inl (List.mem_singleton_self _), mem_slice exposes.here low high⟩
  | succ room ih =>
      intro memo start stop leads
      exact steps_keep (skip_forward stop (room + 1)) ih leads (by omega)

end Pieces

end Inline

/-- A text has a character of its own that shows: an ordinary one that stands neither between angle
brackets, nor between an ampersand and a semicolon, nor in the target of a link. -/
def HasExposed (source : Text) : Prop :=
  ∃ front c back, source = front ++ c :: back ∧ IsOrdinary c ∧
    ¬('<' ∈ front ∧ '>' ∈ back) ∧ ¬('&' ∈ front ∧ ';' ∈ back) ∧
    ¬(([']', '('] <:+: front ∨ [']', '['] <:+: front) ∧ (')' ∈ back ∨ ']' ∈ back))

theorem infix_of_getElem? {text : Text} {index : Nat} {a b : Char} (first : text[index]? = some a)
    (second : text[index + 1]? = some b) : [a, b] <:+: text := by
  obtain ⟨low, rfl⟩ := List.getElem?_eq_some_iff.mp first
  obtain ⟨high, rfl⟩ := List.getElem?_eq_some_iff.mp second
  refine ⟨text.take index, text.drop (index + 2), ?_⟩
  have rest : text.drop index = text[index] :: text[index + 1] :: text.drop (index + 2) := by
    rw [List.drop_eq_getElem_cons low, List.drop_eq_getElem_cons high]
  calc text.take index ++ [text[index], text[index + 1]] ++ text.drop (index + 2)
      = text.take index ++ text.drop index := by
        rw [rest, List.append_assoc, List.cons_append, List.cons_append, List.nil_append]
    _ = text := List.take_append_drop index text

theorem exposes_of_split (labels : List Text) {front back : Text} {c : Char}
    (ordinary : IsOrdinary c) (noTag : ¬('<' ∈ front ∧ '>' ∈ back))
    (noReference : ¬('&' ∈ front ∧ ';' ∈ back))
    (noTarget : ¬(([']', '('] <:+: front ∨ [']', '['] <:+: front) ∧ (')' ∈ back ∨ ']' ∈ back))) :
    Inline.Exposes ⟨(front ++ c :: back).toArray, labels⟩ front.length c := by
  have before {index : Nat} {d : Char} (low : index < front.length)
      (here : (front ++ c :: back).toArray[index]? = some d) : front[index]? = some d := by
    rwa [List.getElem?_toArray, List.getElem?_append_left low] at here
  have behind {index : Nat} {d : Char} (high : front.length < index)
      (here : (front ++ c :: back).toArray[index]? = some d) : d ∈ back := by
    rw [List.getElem?_toArray, List.getElem?_append_right (Nat.le_of_lt high)] at here
    obtain ⟨offset, same⟩ := Nat.exists_eq_add_of_lt high
    have shift : index - front.length = offset + 1 := by omega
    rw [shift, List.getElem?_cons_succ] at here
    exact List.mem_of_getElem? here
  refine ⟨by simp, ordinary, fun first last low high opens closes => ?_,
    fun first last low high opens closes => ?_, fun first last low high label opens => ?_⟩
  · exact noTag ⟨List.mem_of_getElem? (before low opens), behind high closes⟩
  · exact noReference ⟨List.mem_of_getElem? (before low opens), behind high closes⟩
  · have closing := before (by omega) label
    have target : [']', '('] <:+: front ∨ [']', '['] <:+: front :=
      opens.imp (fun round => infix_of_getElem? closing (before low round))
        (fun square => infix_of_getElem? closing (before low square))
    exact ⟨fun round => noTarget ⟨target, .inl (behind high round)⟩,
      fun square => noTarget ⟨target, .inr (behind high square)⟩⟩

/-- A text with an exposed character shows more than blanks. -/
theorem shown_not_blank (labels : List Text) {source : Text} (exposed : HasExposed source) :
    Text.isBlankText (Inline.shown labels source) = false := by
  obtain ⟨front, c, back, rfl, ordinary, noTag, noReference, noTarget⟩ := exposed
  have leads : Memo.Forward ⟨Array.replicate (front ++ c :: back).toArray.size none, [], false⟩ := by
    intro position stop known
    simp [Array.getElem?_replicate] at known
  have keeps := (@Inline.pieces_keep ⟨(front ++ c :: back).toArray, labels⟩ Inline.depth _ 0
    (front ++ c :: back).toArray.size leads).2 front.length c
    (exposes_of_split labels ordinary noTag noReference noTarget) (Nat.zero_le _) (by simp)
  have shows : c ∈ Inline.shown labels (front ++ c :: back) := keeps.mem_text ordinary.ne_space
  refine Bool.eq_false_iff.mpr fun blank => ?_
  have hidden := List.all_eq_true.mp blank c shows
  rw [ordinary.1] at hidden
  contradiction

end MdxCheck.Markdown
