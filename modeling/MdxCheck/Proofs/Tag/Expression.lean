import MdxCheck.Proofs.Tag.Scan

/-!
The grammar of brace expressions, told without a count of open braces, and that an expression is
read as far as the grammar lets it go.
-/

namespace MdxCheck.Tag

/-- What stands between the quotes of a literal. A backslash takes the next character with it, and
the quote itself stands only behind one. -/
inductive LiteralBody (quote : Char) : Text → Prop
  | nil : LiteralBody quote []
  | char {c rest} : c ≠ '\\' → c ≠ quote → LiteralBody quote rest → LiteralBody quote (c :: rest)
  | escaped {c rest} : LiteralBody quote rest → LiteralBody quote ('\\' :: c :: rest)

/-- What stands between the braces of an expression: expressions, literals, and characters that are
no quotes and no braces. -/
inductive InBraces : Text → Prop
  | nil : InBraces []
  | char {c rest} : isLiteralQuote c = false → c ≠ '{' → c ≠ '}' → InBraces rest →
      InBraces (c :: rest)
  | literal {quote body rest} : isLiteralQuote quote = true → LiteralBody quote body →
      InBraces rest → InBraces (quote :: (body ++ quote :: rest))
  | nested {inside rest} : InBraces inside → InBraces rest →
      InBraces ('{' :: (inside ++ '}' :: rest))

theorem InBraces.of_all {text : Text}
    (plain : (text.all fun c => !isLiteralQuote c && c != '{' && c != '}') = true) :
    InBraces text := by
  induction text with
  | nil => exact .nil
  | cons c rest ih =>
      simp only [List.all_cons, Bool.and_eq_true, Bool.not_eq_true', bne_iff_ne] at plain
      obtain ⟨⟨⟨noQuote, notOpen⟩, notClose⟩, others⟩ := plain
      exact .char noQuote notOpen notClose (ih (by simpa using others))

def IsExpression (source : Text) : Prop :=
  ∃ inside, source = '{' :: (inside ++ ['}']) ∧ InBraces inside

theorem map_add_add (length : Option Nat) (first second : Nat) :
    (length.map (· + first)).map (· + second) = length.map (· + (first + second)) := by
  cases length with
  | none => rfl
  | some count => exact congrArg some (Nat.add_assoc count first second)

/-! One character of an expression. -/

section

variable (opened : Nat) (rest : Text)

theorem braceTail?_quoted {quote c : Char} (notEscape : c ≠ '\\') :
    braceTail? opened (some quote) (c :: rest) =
      (braceTail? opened (if c = quote then none else some quote) rest).map (· + 1) := by
  rw [braceTail?.eq_def]
  simp [notEscape]

theorem braceTail?_escaped (quote c : Char) :
    braceTail? opened (some quote) ('\\' :: c :: rest) =
      (braceTail? opened (some quote) rest).map (· + 2) := by
  simp [braceTail?]

theorem braceTail?_quote {quote : Char} (isQuote : isLiteralQuote quote = true) :
    braceTail? opened none (quote :: rest) =
      (braceTail? opened (some quote) rest).map (· + 1) := by
  simp [braceTail?, isQuote]

theorem braceTail?_open :
    braceTail? opened none ('{' :: rest) = (braceTail? (opened + 1) none rest).map (· + 1) := by
  simp [braceTail?, isLiteralQuote]

theorem braceTail?_close :
    braceTail? (opened + 2) none ('}' :: rest) =
      (braceTail? (opened + 1) none rest).map (· + 1) := by
  simp [braceTail?, isLiteralQuote]

theorem braceTail?_last : braceTail? 1 none ('}' :: rest) = some 1 := by
  simp [braceTail?, isLiteralQuote]

theorem braceTail?_char {c : Char} (noQuote : isLiteralQuote c = false) (notOpen : c ≠ '{')
    (notClose : c ≠ '}') :
    braceTail? opened none (c :: rest) = (braceTail? opened none rest).map (· + 1) := by
  simp [braceTail?, noQuote, notOpen, notClose]

end

theorem braceTail?_literal {quote : Char} (isQuote : isLiteralQuote quote = true) {body : Text}
    (literal : LiteralBody quote body) (opened : Nat) (rest : Text) :
    braceTail? opened (some quote) (body ++ quote :: rest) =
      (braceTail? opened none rest).map (· + (body.length + 1)) := by
  have notEscape : quote ≠ '\\' := by
    rintro rfl
    exact absurd isQuote (by decide)
  induction literal with
  | nil => rw [List.nil_append, braceTail?_quoted _ _ notEscape, if_pos rfl, List.length_nil]
  | char noEscape noQuote _ ih =>
      rw [List.cons_append, braceTail?_quoted _ _ noEscape, if_neg noQuote, ih, map_add_add,
        List.length_cons]
  | escaped _ ih =>
      rw [List.cons_append, List.cons_append, braceTail?_escaped, ih, map_add_add,
        List.length_cons, List.length_cons]

theorem braceTail?_inBraces {inside : Text} (items : InBraces inside) :
    ∀ opened rest, braceTail? (opened + 1) none (inside ++ rest) =
      (braceTail? (opened + 1) none rest).map (· + inside.length) := by
  induction items with
  | nil => simp
  | char noQuote notOpen notClose _ ih =>
      intro opened rest
      rw [List.cons_append, braceTail?_char _ _ noQuote notOpen notClose, ih, map_add_add,
        List.length_cons]
  | @literal quote body rest isQuote literal _ ih =>
      intro opened more
      rw [List.cons_append, List.append_assoc, List.cons_append, braceTail?_quote _ _ isQuote,
        braceTail?_literal isQuote literal, ih, map_add_add, map_add_add, List.length_cons,
        List.length_append, List.length_cons]
      congr 1
      funext count
      omega
  | @nested inside rest _ _ ihInside ihRest =>
      intro opened more
      rw [List.cons_append, List.append_assoc, List.cons_append, braceTail?_open, ihInside,
        braceTail?_close, ihRest, map_add_add, map_add_add, map_add_add, List.length_cons,
        List.length_append, List.length_cons]
      congr 1
      funext count
      omega

/-- An expression is read to its end, whatever follows it. -/
theorem expressionLength?_append_of_isExpression {source : Text} (isExpression : IsExpression source)
    (rest : Text) : expressionLength? (source ++ rest) = some source.length := by
  obtain ⟨inside, rfl, items⟩ := isExpression
  have read := braceTail?_inBraces items 0 ('}' :: rest)
  rw [braceTail?_last] at read
  rw [expressionLength?, List.cons_append, List.append_assoc, braceTail?_open,
    List.singleton_append, read]
  simp [Nat.add_comm]

/-! What was read is an expression. -/

/-- Text that closes one brace more than `count`; the last of them is its last character. -/
inductive Closes : Nat → Text → Prop
  | last {inside} : InBraces inside → Closes 0 (inside ++ ['}'])
  | more {count inside rest} : InBraces inside → Closes count rest →
      Closes (count + 1) (inside ++ '}' :: rest)

theorem Closes.prepend {count : Nat} {text : Text} (closes : Closes count text) (front : Text)
    (goesBefore : ∀ inside, InBraces inside → InBraces (front ++ inside)) :
    Closes count (front ++ text) := by
  cases closes with
  | @last inside items =>
      rw [← List.append_assoc]
      exact .last (goesBefore inside items)
  | @more _ inside rest items closes =>
      rw [← List.append_assoc]
      exact .more (goesBefore inside items) closes

theorem Closes.nest {count : Nat} {text : Text} (closes : Closes (count + 1) text) :
    Closes count ('{' :: text) := by
  cases closes with
  | @more _ inside rest items closes =>
      have longer := closes.prepend ('{' :: (inside ++ ['}'])) fun next more => by
        simpa using InBraces.nested items more
      simpa using longer

/-- Text from inside a literal of this quote, if there is one, that closes so many braces. -/
def ClosesFrom (count : Nat) : Option Char → Text → Prop
  | none, text => Closes count text
  | some quote, text =>
    ∃ body rest, text = body ++ quote :: rest ∧ LiteralBody quote body ∧ Closes count rest

theorem closesFrom_of_braceTail? {opened : Nat} {quote : Option Char} {text : Text} {length : Nat}
    (found : braceTail? opened quote text = some length) (isOpen : 0 < opened) :
    ClosesFrom (opened - 1) quote (text.take length) := by
  fun_induction braceTail? opened quote text generalizing length with
  | case1 => simp at found
  | case2 => simp at found
  | case3 opened q c rest ih =>
      obtain ⟨count, inner, rfl⟩ := Option.map_eq_some_iff.mp found
      obtain ⟨body, tail, taken, literal, closes⟩ := ih inner isOpen
      exact ⟨'\\' :: c :: body, tail, by simp [taken], .escaped literal, closes⟩
  | case4 opened c rest q notEscape ih =>
      obtain ⟨count, inner, rfl⟩ := Option.map_eq_some_iff.mp found
      have within := ih inner isOpen
      by_cases same : c = q
      · subst same
        simp only [↓reduceIte] at within
        exact ⟨[], rest.take count, by simp, .nil, within⟩
      · simp only [same, ↓reduceIte] at within
        obtain ⟨body, tail, taken, literal, closes⟩ := within
        exact ⟨c :: body, tail, by simp [taken], .char notEscape same literal, closes⟩
  | case5 opened c rest isQuote ih =>
      obtain ⟨count, inner, rfl⟩ := Option.map_eq_some_iff.mp found
      obtain ⟨body, tail, taken, literal, closes⟩ := ih inner isOpen
      have longer := closes.prepend (c :: (body ++ [c])) fun inside items => by
        simpa using InBraces.literal isQuote literal items
      simpa [ClosesFrom, taken] using longer
  | case6 opened rest noQuote ih =>
      obtain ⟨count, inner, rfl⟩ := Option.map_eq_some_iff.mp found
      obtain ⟨less, rfl⟩ := Nat.exists_eq_succ_of_ne_zero (Nat.ne_of_gt isOpen)
      exact (ih inner (Nat.succ_pos _)).nest
  | case7 =>
      obtain rfl := Option.some.inj found
      exact .last .nil
  | case8 opened rest noQuote notOpen notLast ih =>
      obtain ⟨count, inner, rfl⟩ := Option.map_eq_some_iff.mp found
      obtain ⟨less, rfl⟩ : ∃ less, opened = less + 2 := ⟨opened - 2, by omega⟩
      exact .more .nil (ih inner (Nat.succ_pos _))
  | case9 opened c rest noQuote notOpen notClose ih =>
      obtain ⟨count, inner, rfl⟩ := Option.map_eq_some_iff.mp found
      exact (ih inner isOpen).prepend [c] fun inside items =>
        .char (by simpa using noQuote) notOpen notClose items

theorem isExpression_of_expressionLength? {inside : Text} {length : Nat}
    (found : expressionLength? ('{' :: inside) = some length) :
    IsExpression (('{' :: inside).take length) := by
  rw [expressionLength?, braceTail?_open] at found
  obtain ⟨count, inner, rfl⟩ := Option.map_eq_some_iff.mp found
  have closes := closesFrom_of_braceTail? inner Nat.one_pos
  rw [List.take_succ_cons]
  generalize inside.take count = taken at closes
  cases closes with
  | last items => exact ⟨_, rfl, items⟩

/-- An expression is read exactly as far as it goes. -/
theorem expressionLength?_eq_some_iff {text : Text} (opens : text.head? = some '{') {length : Nat} :
    expressionLength? text = some length ↔
      length ≤ text.length ∧ IsExpression (text.take length) := by
  constructor
  · intro found
    obtain ⟨inside, rfl⟩ := List.head?_eq_some_iff.mp opens
    exact ⟨(expressionLength?_append found []).2.2, isExpression_of_expressionLength? found⟩
  · rintro ⟨bound, isExpression⟩
    have read := expressionLength?_append_of_isExpression isExpression (text.drop length)
    rwa [List.take_append_drop, List.length_take_of_le bound] at read

theorem expressionLength?_eq_none_iff {text : Text} (opens : text.head? = some '{') :
    expressionLength? text = none ↔ ∀ taken, taken <+: text → ¬IsExpression taken := by
  rw [Option.eq_none_iff_forall_not_mem]
  constructor
  · rintro nowhere taken ⟨rest, rfl⟩ isExpression
    exact nowhere taken.length (expressionLength?_append_of_isExpression isExpression rest)
  · intro none length found
    have isExpression := ((expressionLength?_eq_some_iff opens).mp found).2
    exact none _ (List.take_prefix length text) isExpression

/-- The offset behind the expression that opens at an offset of a source. -/
def expressionEnd? (source : Text) (start : Nat) : Option Nat :=
  (expressionLength? (source.drop start)).map (start + ·)

theorem expressionEnd?_eq_some_iff {source : Text} {start : Nat} (opens : source[start]? = some '{')
    (stop : Nat) : expressionEnd? source start = some stop ↔
      stop ≤ source.length ∧ IsExpression (source.extract start stop) := by
  have opensBehind : (source.drop start).head? = some '{' := by rw [List.head?_drop, opens]
  obtain ⟨inside, -⟩ := List.getElem?_eq_some_iff.mp opens
  rw [expressionEnd?, Option.map_eq_some_iff, List.extract_eq_take_drop]
  simp only [expressionLength?_eq_some_iff opensBehind, List.length_drop]
  constructor
  · rintro ⟨length, ⟨bound, isExpression⟩, rfl⟩
    rw [Nat.add_sub_cancel_left]
    exact ⟨by omega, isExpression⟩
  · rintro ⟨bound, isExpression⟩
    have longer : start ≤ stop := by
      by_contra before
      rw [Nat.sub_eq_zero_of_le (by omega), List.take_zero] at isExpression
      obtain ⟨_, empty, -⟩ := isExpression
      cases empty
    exact ⟨stop - start, ⟨by omega, isExpression⟩, by omega⟩

/-- Where a source has an opening brace, an expression is found if one starts there, and it ends where
that one does: no other expression starts there, nothing before or behind the expression matters, and
nothing is found exactly if the rest of the source starts with no expression. -/
theorem expressionEnd_exact (source : Text) (start : Nat) (opens : source[start]? = some '{') :
    (∀ stop, expressionEnd? source start = some stop ↔
      stop ≤ source.length ∧ IsExpression (source.extract start stop)) ∧
    (∀ stop other, stop ≤ source.length → IsExpression (source.extract start stop) →
      other ≤ source.length → IsExpression (source.extract start other) → stop = other) ∧
    (∀ stop, expressionEnd? source start = some stop → ∀ before behind,
      expressionEnd? (before ++ source.extract start stop ++ behind) before.length =
        some (before.length + (stop - start))) ∧
    (expressionEnd? source start = none ↔
      ∀ taken, taken <+: source.drop start → ¬IsExpression taken) := by
  have spec := expressionEnd?_eq_some_iff opens
  refine ⟨spec, ?_, ?_, ?_⟩
  · intro stop other bound isFirst otherBound isSecond
    have first := (spec stop).mpr ⟨bound, isFirst⟩
    have second := (spec other).mpr ⟨otherBound, isSecond⟩
    exact Option.some.inj (first.symm.trans second)
  · intro stop found before behind
    obtain ⟨bound, isExpression⟩ := (spec stop).mp found
    have length : (source.extract start stop).length = stop - start := by
      rw [List.extract_eq_take_drop, List.length_take_of_le (by rw [List.length_drop]; omega)]
    rw [expressionEnd?, List.append_assoc, List.drop_left,
      expressionLength?_append_of_isExpression isExpression, Option.map_some, length]
  · rw [expressionEnd?, Option.map_eq_none_iff,
      expressionLength?_eq_none_iff (by rw [List.head?_drop, opens])]

/-- Neither a brace in a literal nor one that is nested ends an expression. -/
theorem expressionEnd_nested :
    (" a=\x7b\x7bb: \"\\\"\x7d\"\x7d\x7d c\x7d" : Text)[3]? = some '{' ∧
      expressionEnd? " a=\x7b\x7bb: \"\\\"\x7d\"\x7d\x7d c\x7d" 3 = some 15 ∧
      IsExpression "\x7b\x7bb: \"\\\"\x7d\"\x7d\x7d" ∧
      ∀ behind, expressionEnd? ("\x7b\x7bb: \"\\\"\x7d\"\x7d\x7d" ++ behind) 0 = some 12 := by
  have opens : (" a=\x7b\x7bb: \"\\\"\x7d\"\x7d\x7d c\x7d" : Text)[3]? = some '{' := rfl
  have ends : expressionEnd? " a=\x7b\x7bb: \"\\\"\x7d\"\x7d\x7d c\x7d" 3 = some 15 := by
    decide +kernel
  have slice : (" a=\x7b\x7bb: \"\\\"\x7d\"\x7d\x7d c\x7d" : Text).extract 3 15 =
      "\x7b\x7bb: \"\\\"\x7d\"\x7d\x7d" := rfl
  obtain ⟨exact, -, elsewhere, -⟩ := expressionEnd_exact _ 3 opens
  have isExpression := ((exact 15).mp ends).2
  have alone := elsewhere 15 ends []
  rw [slice] at isExpression alone
  exact ⟨opens, ends, isExpression, alone⟩

end MdxCheck.Tag
