import MdxCheck.Proofs.Text.Lines

/-!
The lines of a text with the characters that end them. Everything about the lines of a text follows
from where its first line stops.
-/

namespace MdxCheck.Text

/-- The lines of a text, each with what ends it. -/
def linesWithEnds : Text → List Text
  | [] => []
  | [c] => [[c]]
  | c :: d :: rest =>
    if isLineEnd c then
      if c = '\r' ∧ d = '\n' then [c, d] :: linesWithEnds rest else [c] :: linesWithEnds (d :: rest)
    else consFirst c (linesWithEnds (d :: rest))

/-- What may end a line before `rest`: nothing at the end of the text, or an end of line, which
takes a line feed after a carriage return with it. -/
inductive StopsLine : Text → Text → Prop
  | last : StopsLine [] []
  | pair {rest} : StopsLine ['\r', '\n'] rest
  | single {c rest} : isLineEnd c = true → (c = '\r' → rest.head? ≠ some '\n') →
      StopsLine [c] rest

theorem StopsLine.isLineEnd {stop rest : Text} (stops : StopsLine stop rest) :
    ∀ c ∈ stop, isLineEnd c = true := by
  cases stops with
  | last => simp
  | pair => simp [Text.isLineEnd]
  | single ends => simpa using ends

theorem StopsLine.rest_eq_nil {stop rest : Text} (stops : StopsLine stop rest) (none : stop = []) :
    rest = [] := by
  cases stops with
  | last => rfl
  | pair => simp at none
  | single => simp at none

theorem linesWithEnds_append {line stop rest : Text} (solid : ∀ c ∈ line, isLineEnd c = false)
    (stops : StopsLine stop rest) (nonempty : line ++ stop ≠ []) :
    linesWithEnds (line ++ (stop ++ rest)) = (line ++ stop) :: linesWithEnds rest := by
  induction line with
  | nil =>
      cases stops with
      | last => exact absurd rfl nonempty
      | pair => simp [linesWithEnds, Text.isLineEnd]
      | @single c rest ends alone =>
          cases rest with
          | nil => rfl
          | cons d rest =>
              have single : ¬(c = '\r' ∧ d = '\n') := by simpa using alone
              simp [linesWithEnds, ends, single]
  | cons c line ih =>
      obtain ⟨first, others⟩ := List.forall_mem_cons.mp solid
      by_cases short : line ++ stop = []
      · obtain ⟨rfl, rfl⟩ := List.append_eq_nil_iff.mp short
        cases stops
        rfl
      · have later := ih others short
        have more : line ++ (stop ++ rest) ≠ [] := by
          rw [← List.append_assoc]
          exact List.append_ne_nil_of_left_ne_nil short rest
        obtain ⟨d, tail, split⟩ := List.exists_cons_of_ne_nil more
        rw [split] at later
        simp [split, linesWithEnds, first, later, consFirst]

theorem exists_line (text : Text) (nonempty : text ≠ []) :
    ∃ line stop rest, text = line ++ (stop ++ rest) ∧ (∀ c ∈ line, isLineEnd c = false) ∧
      StopsLine stop rest ∧ line ++ stop ≠ [] := by
  have split := List.takeWhile_append_dropWhile (p := fun c => !isLineEnd c) (l := text)
  have solid : ∀ c ∈ text.takeWhile fun c => !isLineEnd c, isLineEnd c = false := by
    intro c member
    simpa using List.mem_takeWhile_imp member
  have closing := List.head?_dropWhile_not (fun c => !isLineEnd c) text
  cases after : text.dropWhile fun c => !isLineEnd c with
  | nil =>
      rw [after, List.append_nil] at split
      exact ⟨text, [], [], by simp, split ▸ solid, .last, by simpa using nonempty⟩
  | cons c rest =>
      rw [after] at split closing
      have ends : isLineEnd c = true := by simpa using closing
      by_cases feed : c = '\r' ∧ rest.head? = some '\n'
      · obtain ⟨rfl, head⟩ := feed
        obtain ⟨tail, rfl⟩ := List.head?_eq_some_iff.mp head
        exact ⟨_, ['\r', '\n'], tail, split.symm, solid, .pair, by simp⟩
      · exact ⟨_, [c], rest, split.symm, solid,
          .single ends fun same head => feed ⟨same, head⟩, by simp⟩

/-- The lines of a text are those with their ends, without them. -/
theorem lines_eq_map_linesWithEnds (text : Text) :
    lines text = (linesWithEnds text).map (List.takeWhile fun c => !isLineEnd c) := by
  fun_induction lines text with
  | case1 => rfl
  | case2 c ends => simp [linesWithEnds, ends]
  | case3 c solid => simp [linesWithEnds, solid]
  | case4 c d rest ends pair ih =>
      obtain ⟨rfl, rfl⟩ := pair
      simp [linesWithEnds, ends, ih]
  | case5 c d rest ends pair ih => simp [linesWithEnds, ends, pair, ih]
  | case6 c d rest solid ih =>
      rw [linesWithEnds, if_neg solid, ih]
      cases linesWithEnds (d :: rest) <;> simp [consFirst, solid]

theorem lines_append {line stop rest : Text} (solid : ∀ c ∈ line, isLineEnd c = false)
    (stops : StopsLine stop rest) (nonempty : line ++ stop ≠ []) :
    lines (line ++ (stop ++ rest)) = line :: lines rest := by
  have shown : ∀ c ∈ line, (!isLineEnd c) = true := by simpa using solid
  have stopped : stop.takeWhile (fun c => !isLineEnd c) = [] := by
    cases stops with
    | last => rfl
    | pair => rfl
    | single ends => simp [ends]
  rw [lines_eq_map_linesWithEnds, linesWithEnds_append solid stops nonempty, List.map_cons,
    ← lines_eq_map_linesWithEnds, List.takeWhile_append_of_pos shown, stopped, List.append_nil]

theorem lines_append_feed {line : Text} (solid : ∀ c ∈ line, isLineEnd c = false) (rest : Text) :
    lines (line ++ '\n' :: rest) = line :: lines rest :=
  lines_append solid (.single (by decide) fun same => absurd same (by decide)) (by simp)

theorem lines_unlines_feed {inside : List Text} (nonempty : inside ≠ [])
    (solid : ∀ line ∈ inside, ∀ c ∈ line, isLineEnd c = false) (rest : Text) :
    lines (unlines inside ++ '\n' :: rest) = inside ++ lines rest := by
  induction inside with
  | nil => exact absurd rfl nonempty
  | cons line inside ih =>
      obtain ⟨first, others⟩ := List.forall_mem_cons.mp solid
      cases inside with
      | nil => rw [unlines_singleton, lines_append_feed first, List.singleton_append]
      | cons next inside =>
          rw [unlines_cons_cons, List.append_assoc, List.cons_append, lines_append_feed first,
            ih (by simp) others]
          rfl

/-- Behind a line feed a new line starts, whatever comes before it. -/
theorem lines_append_of_feed {front : Text} (feed : front.getLast? = some '\n') (rest : Text) :
    lines (front ++ rest) = lines front ++ lines rest := by
  fun_induction lines front with
  | case1 => simp at feed
  | case2 c ends =>
      obtain rfl : c = '\n' := by simpa using feed
      exact @lines_append_feed [] (by simp) rest
  | case3 c solid =>
      obtain rfl : c = '\n' := by simpa using feed
      exact absurd (by decide) solid
  | case4 c d more ends pair ih =>
      rw [List.cons_append, List.cons_append, lines, if_pos ends, if_pos pair, List.cons_append]
      cases more with
      | nil => rfl
      | cons e more => rw [ih (by simpa using feed)]
  | case5 c d more ends pair ih =>
      rw [List.cons_append, List.cons_append, lines, if_pos ends, if_neg pair, List.cons_append,
        ← List.cons_append, ih (by simpa using feed)]
  | case6 c d more solid ih =>
      rw [List.cons_append, List.cons_append, lines, if_neg solid, ← List.cons_append,
        ih (by simpa using feed)]
      obtain ⟨line, others, split⟩ := List.exists_cons_of_ne_nil (lines_cons_ne_nil d more)
      rw [split]
      rfl

end MdxCheck.Text
