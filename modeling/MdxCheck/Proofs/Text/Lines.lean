import MdxCheck.Text.Lines
import MdxCheck.Proofs.Text.Join
import Mathlib.Data.List.TakeWhile

/-!
Lines joined by line feeds, the lines of a text whose line ends are known, and white space at the
end of a line.
-/

namespace MdxCheck.Text

theorem trimEnd_cons {c : Char} (solid : isBlank c = false) (rest : Text) :
    ∃ others, trimEnd (c :: rest) = c :: others := by
  simp only [trimEnd, List.reverse_cons, List.dropWhile_append]
  split
  · exact ⟨[], by simp [solid]⟩
  · exact ⟨(rest.reverse.dropWhile isBlank).reverse, by simp⟩

theorem trimEnd_append_blank {text gap : Text}
    (solid : ∀ c, text.getLast? = some c → isBlank c = false)
    (blank : ∀ c ∈ gap, isBlank c = true) : trimEnd (text ++ gap) = text := by
  have skipped : ∀ c ∈ gap.reverse, isBlank c = true := by simpa using blank
  rw [trimEnd, List.reverse_append, List.dropWhile_append_of_pos skipped]
  cases reversed : text.reverse with
  | nil => simpa using reversed.symm
  | cons c rest =>
      have whole : text = (c :: rest).reverse := by rw [← reversed, List.reverse_reverse]
      have last := solid c (by rw [whole]; simp)
      rw [List.dropWhile_cons_of_neg (by simp [last]), ← whole]

@[simp] theorem unlines_nil : unlines [] = [] := by
  rfl

@[simp] theorem unlines_singleton (line : Text) : unlines [line] = line :=
  join_singleton _ line

@[simp] theorem unlines_cons_cons (line next : Text) (lines : List Text) :
    unlines (line :: next :: lines) = line ++ '\n' :: unlines (next :: lines) :=
  join_cons_cons _ line next lines

theorem unlines_joined (line next : Text) (lines : List Text) :
    unlines ((line ++ '\n' :: next) :: lines) = unlines (line :: next :: lines) := by
  cases lines with
  | nil => simp
  | cons following rest => simp

theorem unlines_append (front back : List Text) (frontLines : front ≠ []) (backLines : back ≠ []) :
    unlines (front ++ back) = unlines front ++ '\n' :: unlines back :=
  join_append frontLines backLines

theorem lines_cons_ne_nil (c : Char) (rest : Text) : lines (c :: rest) ≠ [] := by
  cases rest with
  | nil => by_cases ends : isLineEnd c = true <;> simp [lines, ends]
  | cons d rest =>
      simp only [lines]
      split
      · split <;> simp
      · cases lines (d :: rest) <;> simp [consFirst]

/-- No end of a line but line feeds. -/
def FeedsOnly (text : Text) : Prop :=
  ∀ c ∈ text, isLineEnd c = true → c = '\n'

theorem FeedsOnly.of_all {text : Text}
    (feeds : (text.all fun c => !isLineEnd c || c == '\n') = true) : FeedsOnly text := by
  intro c member ends
  simpa [ends] using List.all_eq_true.mp feeds c member

theorem FeedsOnly.append {first second : Text} (left : FeedsOnly first)
    (right : FeedsOnly second) : FeedsOnly (first ++ second) := by
  intro c member ends
  rcases List.mem_append.mp member with before | after
  · exact left c before ends
  · exact right c after ends

/-- A text whose lines end with line feeds only is its lines joined, but for a line feed at its
end. -/
theorem eq_unlines_lines {text : Text} (feeds : FeedsOnly text) :
    text = unlines (lines text) ∨ text = unlines (lines text) ++ ['\n'] := by
  induction text with
  | nil => exact Or.inl rfl
  | cons c rest ih =>
      have later := ih fun d member => feeds d (by simp [member])
      cases rest with
      | nil =>
          by_cases ends : isLineEnd c = true
          · refine Or.inr ?_
            rw [feeds c (by simp) ends]
            rfl
          · exact Or.inl (by simp [lines, ends])
      | cons d rest =>
          obtain ⟨line, others, split⟩ :=
            List.exists_cons_of_ne_nil (lines_cons_ne_nil d rest)
          rw [split] at later
          by_cases ends : isLineEnd c = true
          · have feed : c = '\n' := feeds c (by simp) ends
            have whole : lines (c :: d :: rest) = [] :: line :: others := by
              rw [lines, if_pos ends, if_neg (by simp [feed]), split]
            rw [whole, unlines_cons_cons, feed]
            rcases later with same | same
            · exact Or.inl (by rw [same]; rfl)
            · exact Or.inr (by rw [same]; rfl)
          · have whole : lines (c :: d :: rest) = (c :: line) :: others := by
              simp [lines, ends, split, consFirst]
            have joined : unlines ((c :: line) :: others) = c :: unlines (line :: others) := by
              cases others <;> simp
            rw [whole, joined]
            rcases later with same | same
            · exact Or.inl (by rw [same])
            · exact Or.inr (by rw [same]; rfl)

theorem exists_eq_unlines {text : Text} (feeds : FeedsOnly text) :
    ∃ last, (last = [] ∨ last = [[]]) ∧ text = unlines (lines text ++ last) := by
  rcases eq_unlines_lines feeds with same | same
  · exact ⟨[], Or.inl rfl, by simpa using same⟩
  · refine ⟨[[]], Or.inr rfl, ?_⟩
    have nonempty : lines text ≠ [] := by
      intro none
      rw [none] at same
      rw [same] at none
      exact absurd none (by decide)
    rw [unlines_append _ _ nonempty (by simp)]
    exact same

theorem mem_consFirst {c : Char} {lines : List Text} {line : Text} {d : Char}
    (member : line ∈ consFirst c lines) (inside : d ∈ line) :
    d = c ∨ ∃ other ∈ lines, d ∈ other := by
  cases lines with
  | nil =>
      obtain rfl := List.mem_singleton.mp member
      exact Or.inl (List.mem_singleton.mp inside)
  | cons first rest =>
      rcases List.mem_cons.mp member with rfl | later
      · rcases List.mem_cons.mp inside with same | inFirst
        · exact Or.inl same
        · exact Or.inr ⟨first, by simp, inFirst⟩
      · exact Or.inr ⟨line, by simp [later], inside⟩

theorem not_isLineEnd_of_mem_lines (text : Text) :
    ∀ line ∈ lines text, ∀ c ∈ line, isLineEnd c = false := by
  fun_induction lines text with
  | case1 => simp
  | case2 => simp
  | case3 c solid => simpa using solid
  | case4 _ _ _ _ _ ih => simpa using ih
  | case5 _ _ _ _ _ ih => simpa using ih
  | case6 c d rest solid ih =>
      intro line member e inside
      rcases mem_consFirst member inside with rfl | ⟨other, within, here⟩
      · simpa using solid
      · exact ih other within e here

theorem noFeed_lines {text line : Text} (member : line ∈ lines text) : '\n' ∉ line := by
  intro feed
  exact absurd (not_isLineEnd_of_mem_lines text line member '\n' feed) (by decide)

theorem splitOn_unlines {lines : List Text} (nonempty : lines ≠ [])
    (noFeed : ∀ line ∈ lines, '\n' ∉ line) : splitOn (· == '\n') (unlines lines) = lines :=
  splitOn_join nonempty noFeed

theorem unlines_splitOn (text : Text) : unlines (splitOn (· == '\n') text) = text :=
  join_splitOn '\n' text

theorem map_unlines {f : Char → Char} (feed : f '\n' = '\n') (lines : List Text) :
    (unlines lines).map f = unlines (lines.map (List.map f)) := by
  induction lines with
  | nil => rfl
  | cons line lines ih =>
      cases lines with
      | nil => simp
      | cons next lines => simp [feed, ih]

theorem takeWhile_noFeed {text : Text} (noFeed : '\n' ∉ text) :
    text.takeWhile (· ≠ '\n') = text := by
  apply List.takeWhile_eq_self_iff.mpr
  intro c member
  rw [decide_eq_true_eq]
  rintro rfl
  exact noFeed member

theorem takeWhile_feed {front : Text} (noFeed : '\n' ∉ front) (back : Text) :
    (front ++ '\n' :: back).takeWhile (· ≠ '\n') = front := by
  rw [List.takeWhile_append_of_pos (List.takeWhile_eq_self_iff.mp (takeWhile_noFeed noFeed))]
  simp

theorem takeWhile_reverse_feed (front back : Text) :
    (front ++ '\n' :: back).reverse.takeWhile (· ≠ '\n') =
      back.reverse.takeWhile (· ≠ '\n') := by
  rw [List.reverse_append, List.reverse_cons, List.append_assoc]
  by_cases feed : '\n' ∈ back.reverse
  · obtain ⟨before, after, split, noFeed⟩ := List.eq_append_cons_of_mem feed
    rw [split, List.append_assoc, List.cons_append, takeWhile_feed noFeed, takeWhile_feed noFeed]
  · rw [List.singleton_append, takeWhile_feed feed, takeWhile_noFeed feed]

theorem count_take_line {line : Text} (noFeed : '\n' ∉ line) (offset : Nat) :
    (line.take offset).count '\n' = 0 := by
  apply List.count_eq_zero.mpr
  intro member
  exact noFeed (List.mem_of_mem_take member)

theorem takeWhile_unlines {line : Text} (noFeed : '\n' ∉ line) (lines : List Text) :
    (unlines (line :: lines)).takeWhile (· ≠ '\n') = line := by
  cases lines with
  | nil => rw [unlines_singleton, takeWhile_noFeed noFeed]
  | cons next lines => rw [unlines_cons_cons, takeWhile_feed noFeed]

theorem takeWhile_reverse_unlines (lines : List Text) {last : Text} (noFeed : '\n' ∉ last) :
    (unlines (lines ++ [last])).reverse.takeWhile (· ≠ '\n') = last.reverse := by
  cases lines with
  | nil => rw [List.nil_append, unlines_singleton, takeWhile_noFeed (by simpa using noFeed)]
  | cons line lines =>
      rw [unlines_append _ _ (by simp) (by simp), takeWhile_reverse_feed, unlines_singleton,
        takeWhile_noFeed (by simpa using noFeed)]

theorem count_unlines {lines : List Text} (noFeed : ∀ line ∈ lines, '\n' ∉ line) {last : Text}
    (lastFeed : '\n' ∉ last) : (unlines (lines ++ [last])).count '\n' = lines.length := by
  induction lines with
  | nil => rw [List.nil_append, unlines_singleton, List.count_eq_zero.mpr lastFeed, List.length_nil]
  | cons line lines ih =>
      rw [List.forall_mem_cons] at noFeed
      rw [List.cons_append, ← List.singleton_append, unlines_append _ _ (by simp) (by simp),
        List.count_append, List.count_cons_self, ih noFeed.2, unlines_singleton,
        List.count_eq_zero.mpr noFeed.1, List.length_cons, Nat.zero_add]

/-- An offset of joined lines cuts one of them, and with it the lines before from those after. -/
theorem split_unlines {lines : List Text} (nonempty : lines ≠ []) :
    ∀ offset, offset ≤ (unlines lines).length →
      ∃ before gap rest after, lines = before ++ (gap ++ rest) :: after ∧
        (unlines lines).take offset = unlines (before ++ [gap]) ∧
        (unlines lines).drop offset = unlines (rest :: after) := by
  induction lines with
  | nil => exact absurd rfl nonempty
  | cons line lines ih =>
      intro offset bound
      rcases Nat.lt_or_ge line.length offset with beyond | within
      · cases lines with
        | nil =>
            rw [unlines_singleton] at bound
            omega
        | cons next lines =>
            -- the offset lies past the first line feed, so the later lines decide
            obtain ⟨count, rfl⟩ : ∃ count, offset = line.length + (count + 1) :=
              ⟨offset - line.length - 1, by omega⟩
            rw [unlines_cons_cons, List.length_append, List.length_cons] at bound
            obtain ⟨before, gap, rest, after, split, taken, dropped⟩ :=
              ih (by simp) count (by omega)
            have joined := unlines_append [line] (before ++ [gap]) (by simp) (by simp)
            rw [unlines_singleton] at joined
            refine ⟨line :: before, gap, rest, after, by rw [split]; rfl, ?_, ?_⟩
            · rw [unlines_cons_cons, List.take_length_add_append, List.take_succ_cons, taken]
              exact joined.symm
            · rw [unlines_cons_cons, List.drop_length_add_append, List.drop_succ_cons, dropped]
      · refine ⟨[], line.take offset, line.drop offset, lines, by simp, ?_, ?_⟩
        · cases lines with
          | nil => simp
          | cons next lines =>
              rw [unlines_cons_cons, List.take_append_of_le_length within]
              simp
        · cases lines with
          | nil => simp
          | cons next lines =>
              rw [unlines_cons_cons, unlines_cons_cons, List.drop_append_of_le_length within]

/-- The characters of joined lines from an offset on to the end of the line are those of one of the
lines: the line feeds before the offset tell which, the characters after the last of them where. -/
theorem drop_unlines {lines : List Text} (nonempty : lines ≠ [])
    (noFeed : ∀ line ∈ lines, '\n' ∉ line) (offset : Nat)
    (bound : offset ≤ (unlines lines).length) :
    ∃ line, lines[((unlines lines).take offset).count '\n']? = some line ∧
      line.drop (((unlines lines).take offset).reverse.takeWhile (· ≠ '\n')).length =
        ((unlines lines).drop offset).takeWhile (· ≠ '\n') := by
  obtain ⟨before, gap, rest, after, rfl, taken, dropped⟩ := split_unlines nonempty offset bound
  rw [List.forall_mem_append, List.forall_mem_cons] at noFeed
  obtain ⟨beforeFeed, lineFeed, -⟩ := noFeed
  rw [List.mem_append, not_or] at lineFeed
  rw [taken, dropped, count_unlines beforeFeed lineFeed.1,
    takeWhile_reverse_unlines before lineFeed.1, takeWhile_unlines lineFeed.2, List.length_reverse]
  exact ⟨gap ++ rest, by simp, List.drop_left⟩

/-- An offset of joined lines is on one of these lines. -/
theorem count_take_unlines_lt {lines : List Text} (nonempty : lines ≠ [])
    (noFeed : ∀ line ∈ lines, '\n' ∉ line) (offset : Nat) :
    ((unlines lines).take offset).count '\n' < lines.length := by
  obtain ⟨line, found, -⟩ := drop_unlines nonempty noFeed _ (Nat.le_refl _)
  rw [List.take_length] at found
  have whole := (List.getElem?_eq_some_iff.mp found).1
  have part := (List.take_sublist offset (unlines lines)).count_le '\n'
  omega

theorem drop_length_takeWhile {α : Type} (keep : α → Bool) (list : List α) :
    list.drop (list.takeWhile keep).length = list.dropWhile keep := by
  have split := List.takeWhile_append_dropWhile (p := keep) (l := list)
  calc list.drop (list.takeWhile keep).length
      = (list.takeWhile keep ++ list.dropWhile keep).drop (list.takeWhile keep).length := by
        rw [split]
    _ = list.dropWhile keep := List.drop_left

end MdxCheck.Text
