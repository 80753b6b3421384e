import MdxCheck.Proofs.Tag.Attributes
import MdxCheck.Proofs.Tag.Expression

/-!
Where a tag ends: at the first closing bracket outside of quoted values and expressions. A bracket
is outside of them if the text before it is made of whole ones and of characters that open none.
-/

namespace MdxCheck.Tag

/-- A value between quotes, an expression, or a character that opens neither. -/
inductive Piece : Text → Prop
  | char {c} : c ≠ '"' → c ≠ '\'' → c ≠ '{' → Piece [c]
  | quoted {quote value} : quote = '"' ∨ quote = '\'' → quote ∉ value →
      Piece (quote :: (value ++ [quote]))
  | expression {source} : IsExpression source → Piece source

/-- Text that leaves no quoted value and no expression open. -/
inductive Settled : Text → Prop
  | nil : Settled []
  | cons {piece rest} : Piece piece → Settled rest → Settled (piece ++ rest)

/-- The text of a tag before its closing bracket: what comes next is outside of quoted values and
expressions, and no bracket before it is. -/
structure IsBody (inside : Text) : Prop where
  settled : Settled inside
  noBracket : ∀ before after, inside = before ++ '>' :: after → ¬Settled before

theorem Piece.nonempty {piece : Text} (isPiece : Piece piece) : piece ≠ [] := by
  cases isPiece with
  | char => simp
  | quoted => simp
  | expression isExpression =>
      obtain ⟨inside, rfl, -⟩ := isExpression
      simp

theorem tail?_skip (skipped : Nat) (text : Text) :
    tail? skipped none text = (tail? 0 none (text.drop skipped)).map (· + skipped) := by
  induction text generalizing skipped with
  | nil => simp [tail?]
  | cons c rest ih =>
      cases skipped with
      | zero => simp
      | succ skipped => rw [tail?, ih, map_add_add, List.drop_succ_cons]

theorem tail?_expression {inside : Text} {length : Nat}
    (found : expressionLength? ('{' :: inside) = some length) :
    tail? 0 none ('{' :: inside) =
      (tail? 0 none (('{' :: inside).drop length)).map (· + length) := by
  obtain ⟨count, rfl⟩ : ∃ count, length = count + 1 :=
    ⟨length - 1, by have := (expressionLength?_append found []).2.1; omega⟩
  rw [tail?]
  simp only [Char.reduceEq, or_self, ↓reduceIte, found, Nat.add_sub_cancel, List.drop_succ_cons]
  rw [tail?_skip, map_add_add]

theorem tail?_piece {piece : Text} (isPiece : Piece piece) (noBracket : piece ≠ ['>'])
    (rest : Text) :
    tail? 0 none (piece ++ rest) = (tail? 0 none rest).map (· + piece.length) := by
  cases isPiece with
  | @char c noDouble noSingle noBrace =>
      apply tail?_plain
      intro d member
      obtain rfl := List.mem_singleton.mp member
      exact ⟨noDouble, noSingle, noBrace, fun same => noBracket (by rw [same])⟩
  | @quoted quote value isQuote free =>
      have inside := tail?_quoted free rest
      simp only [List.cons_append, List.append_assoc, List.nil_append]
      rw [tail?]
      simp only [isQuote, ↓reduceIte, inside, map_add_add, List.length_cons, List.length_append,
        List.length_nil]
  | expression isExpression =>
      have read := expressionLength?_append_of_isExpression isExpression rest
      have behind := @List.drop_left _ piece rest
      obtain ⟨inside, rfl, -⟩ := isExpression
      rw [List.cons_append] at read behind ⊢
      rw [tail?_expression read, behind]

theorem exists_tail?_of_settled {inside : Text} (settled : Settled inside) (rest : Text) :
    ∃ length ≤ inside.length + 1, tail? 0 none (inside ++ '>' :: rest) = some length := by
  have ends : ∀ more, tail? 0 none ('>' :: more) = some 1 := by simp [tail?]
  induction settled with
  | nil => exact ⟨1, by simp, ends rest⟩
  | @cons piece more isPiece _ ih =>
      by_cases bracket : piece = ['>']
      · subst bracket
        exact ⟨1, by simp, ends _⟩
      · obtain ⟨length, bound, found⟩ := ih
        refine ⟨length + piece.length, ?_, ?_⟩
        · rw [List.length_append]
          omega
        · rw [List.append_assoc, tail?_piece isPiece bracket, found]
          rfl

/-! What was read is the body of a tag. -/

theorem exists_of_tail?_quoted {quote : Char} {text : Text} {length : Nat}
    (found : tail? 0 (some quote) text = some length) :
    ∃ value rest shorter, text = value ++ quote :: rest ∧ quote ∉ value ∧
      tail? 0 none rest = some shorter ∧ length = value.length + 1 + shorter := by
  induction text generalizing length with
  | nil => simp [tail?] at found
  | cons c text ih =>
      simp only [tail?] at found
      obtain ⟨count, inner, rfl⟩ := Option.map_eq_some_iff.mp found
      by_cases same : c = quote
      · subst same
        rw [if_pos rfl] at inner
        exact ⟨[], text, count, rfl, by simp, inner, by simp [Nat.add_comm]⟩
      · rw [if_neg same] at inner
        obtain ⟨value, rest, shorter, rfl, free, ends, rfl⟩ := ih inner
        refine ⟨c :: value, rest, shorter, rfl, ?_, ends, ?_⟩
        · simp [Ne.symm same, free]
        · rw [List.length_cons]
          omega

theorem piece_of_tail? {c : Char} {text : Text} {length : Nat}
    (found : tail? 0 none (c :: text) = some length) :
    (c = '>' ∧ length = 1) ∨
      ∃ piece rest shorter, c :: text = piece ++ rest ∧ Piece piece ∧
        tail? 0 none rest = some shorter ∧ length = piece.length + shorter := by
  by_cases isQuote : c = '"' ∨ c = '\''
  · simp only [tail?, isQuote, ↓reduceIte] at found
    obtain ⟨count, inner, rfl⟩ := Option.map_eq_some_iff.mp found
    obtain ⟨value, rest, shorter, rfl, free, ends, rfl⟩ := exists_of_tail?_quoted inner
    refine .inr ⟨_, rest, shorter, ?_, .quoted isQuote free, ends, ?_⟩
    · simp
    · simp only [List.length_cons, List.length_append, List.length_nil]
      omega
  · by_cases brace : c = '{'
    · subst brace
      cases expression : expressionLength? ('{' :: text) with
      | none => simp [tail?, expression] at found
      | some count =>
          rw [tail?_expression expression] at found
          obtain ⟨shorter, ends, rfl⟩ := Option.map_eq_some_iff.mp found
          have bound := (expressionLength?_append expression []).2.2
          refine .inr ⟨_, _, shorter, (List.take_append_drop count _).symm,
            .expression (isExpression_of_expressionLength? expression), ends, ?_⟩
          rw [List.length_take_of_le bound, Nat.add_comm]
    · by_cases bracket : c = '>'
      · subst bracket
        exact .inl ⟨rfl, by simpa [tail?] using found.symm⟩
      · simp only [tail?, isQuote, brace, bracket, ↓reduceIte] at found
        obtain ⟨shorter, ends, rfl⟩ := Option.map_eq_some_iff.mp found
        rw [not_or] at isQuote
        exact .inr ⟨[c], text, shorter, rfl, .char isQuote.1 isQuote.2 brace, ends,
          Nat.add_comm _ _⟩

theorem settled_of_tail?_within (count : Nat) :
    ∀ text length, text.length ≤ count → tail? 0 none text = some length →
      ∃ inside rest, text = inside ++ '>' :: rest ∧ Settled inside ∧ length = inside.length + 1 := by
  induction count with
  | zero =>
      intro text length bound found
      obtain rfl : text = [] := List.eq_nil_of_length_eq_zero (by omega)
      simp [tail?] at found
  | succ count ih =>
      intro text length bound found
      cases text with
      | nil => simp [tail?] at found
      | cons c text =>
          rcases piece_of_tail? found with ⟨rfl, rfl⟩ | ⟨piece, rest, shorter, split, isPiece, ends, rfl⟩
          · exact ⟨[], text, rfl, .nil, rfl⟩
          · have positive := List.length_pos_iff.mpr isPiece.nonempty
            have lengths := congrArg List.length split
            rw [List.length_append, List.length_cons] at lengths
            rw [List.length_cons] at bound
            obtain ⟨inside, more, rfl, settled, rfl⟩ := ih rest shorter (by omega) ends
            refine ⟨piece ++ inside, more, ?_, .cons isPiece settled, ?_⟩
            · rw [split, List.append_assoc]
            · rw [List.length_append]
              omega

theorem settled_of_tail? {text : Text} {length : Nat} (found : tail? 0 none text = some length) :
    ∃ inside rest, text = inside ++ '>' :: rest ∧ Settled inside ∧ length = inside.length + 1 :=
  settled_of_tail?_within text.length text length (Nat.le_refl _) found

/-- A tag ends with the first closing bracket that is outside of quoted values and expressions. -/
theorem tail?_eq_some_iff {text : Text} {length : Nat} :
    tail? 0 none text = some length ↔
      ∃ inside rest, text = inside ++ '>' :: rest ∧ IsBody inside ∧ length = inside.length + 1 := by
  constructor
  · intro found
    obtain ⟨inside, rest, rfl, settled, rfl⟩ := settled_of_tail? found
    refine ⟨inside, rest, rfl, ⟨settled, ?_⟩, rfl⟩
    rintro before after rfl earlier
    -- an earlier bracket outside would have been the end
    obtain ⟨length, bound, same⟩ := exists_tail?_of_settled earlier (after ++ '>' :: rest)
    rw [List.append_assoc, List.cons_append, same, Option.some.injEq] at found
    simp only [List.length_append, List.length_cons] at found
    omega
  · rintro ⟨inside, rest, rfl, isBody, rfl⟩
    obtain ⟨length, bound, found⟩ := exists_tail?_of_settled isBody.settled rest
    obtain ⟨before, after, split, settled, rfl⟩ := settled_of_tail? found
    rw [found]
    rcases List.append_eq_append_iff.mp split with ⟨more, rfl, _⟩ | ⟨more, rfl, later⟩
    · simp only [List.length_append] at bound ⊢
      congr 1
      omega
    · cases more with
      | nil => simp
      | cons c more =>
          obtain ⟨rfl, -⟩ := List.cons.inj later
          exact absurd settled (isBody.noBracket before more rfl)

theorem tail?_eq_none_iff {text : Text} :
    tail? 0 none text = none ↔ ∀ inside rest, text = inside ++ '>' :: rest → ¬Settled inside := by
  constructor
  · rintro noEnd inside rest rfl settled
    obtain ⟨length, -, found⟩ := exists_tail?_of_settled settled rest
    simp [found] at noEnd
  · intro unsettled
    cases found : tail? 0 none text with
    | none => rfl
    | some length =>
        obtain ⟨inside, rest, split, settled, -⟩ := settled_of_tail? found
        exact absurd settled (unsettled inside rest split)

end MdxCheck.Tag
