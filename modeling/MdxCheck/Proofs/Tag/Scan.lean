import MdxCheck.Proofs.Text.Word
import MdxCheck.Tag.Scan
import Mathlib.Data.List.TakeWhile

/-!
Facts about reading tags: what the opening of a tag is made of, what does not change when text
follows, and the scan as one step for each tag.
-/

namespace MdxCheck.Tag

theorem isNameRest_of_isBlank {c : Char} (blank : Text.isBlank c = true) :
    isNameRest c = false := by
  have notDot : (c == '.') = false := by
    rw [beq_eq_false_iff_ne]
    rintro rfl
    exact absurd blank (by decide)
  have notHyphen : (c == '-') = false := by
    rw [beq_eq_false_iff_ne]
    rintro rfl
    exact absurd blank (by decide)
  simp [isNameRest, Text.isWordChar_of_isBlank blank, notDot, notHyphen]

/-- The names of tags: an ASCII letter, then word characters, periods and hyphens. -/
def IsName (name : Text) : Prop :=
  ∃ first rest, name = first :: rest ∧ first.isAlpha = true ∧ ∀ c ∈ rest, isNameRest c = true

theorem takeWhile_isNameRest {name rest : Text} (letters : ∀ c ∈ name, isNameRest c = true)
    (ends : endsName rest = true) :
    (name ++ rest).takeWhile isNameRest = name ∧ (name ++ rest).dropWhile isNameRest = rest := by
  have stops : ∀ c tail, rest = c :: tail → isNameRest c = false := by
    rintro c tail rfl
    simp only [endsName, Bool.or_eq_true, beq_iff_eq] at ends
    rcases ends with (blank | rfl) | rfl
    · exact isNameRest_of_isBlank blank
    · decide
    · decide
  rw [List.takeWhile_append_of_pos letters, List.dropWhile_append_of_pos letters]
  cases rest with
  | nil => simp
  | cons c tail => simp [stops c tail rfl]

theorem name?_of_isName {name rest : Text} (isName : IsName name) (ends : endsName rest = true) :
    name? (name ++ rest) = some (name, rest) := by
  obtain ⟨first, letters, rfl, alpha, all⟩ := isName
  obtain ⟨taken, dropped⟩ := takeWhile_isNameRest all ends
  simp [name?, taken, dropped, alpha, ends]

theorem name?_eq_some {text name rest : Text} (found : name? text = some (name, rest)) :
    text = name ++ rest ∧ IsName name ∧ endsName rest = true := by
  cases text with
  | nil => simp [name?] at found
  | cons c text =>
      simp only [name?] at found
      split at found
      next fine =>
        simp only [Bool.and_eq_true] at fine
        simp only [Option.some.injEq, Prod.mk.injEq] at found
        obtain ⟨rfl, rfl⟩ := found
        refine ⟨by simp, ⟨c, _, rfl, fine.1, ?_⟩, fine.2⟩
        intro d member
        exact List.mem_takeWhile_imp member
      next => simp at found

def openingSource (closing : Bool) (name : Text) : Text :=
  (if closing then ['<', '/'] else ['<']) ++ name

theorem openingSource_length (opening : Opening) :
    (openingSource opening.closing opening.name).length = opening.length := by
  simp only [openingSource, Opening.length]
  cases opening.closing <;> simp

theorem opening?_eq_some {text : Text} {opening : Opening}
    (found : opening? text = some opening) :
    text = openingSource opening.closing opening.name ++ opening.rest ∧ IsName opening.name ∧
      endsName opening.rest = true := by
  unfold opening? at found
  split at found
  · simp only [Option.map_eq_some_iff] at found
    obtain ⟨⟨name, rest⟩, named, rfl⟩ := found
    obtain ⟨rfl, isName, ends⟩ := name?_eq_some named
    exact ⟨by simp [openingSource], isName, ends⟩
  · simp only [Option.map_eq_some_iff] at found
    obtain ⟨⟨name, rest⟩, named, rfl⟩ := found
    obtain ⟨rfl, isName, ends⟩ := name?_eq_some named
    exact ⟨by simp [openingSource], isName, ends⟩
  · simp at found

theorem opening?_source (closing : Bool) {name rest : Text} (isName : IsName name)
    (ends : endsName rest = true) :
    opening? (openingSource closing name ++ rest) = some ⟨closing, name, rest⟩ := by
  cases closing with
  | true => simp [openingSource, opening?, name?_of_isName isName ends]
  | false =>
      have named := name?_of_isName isName ends
      obtain ⟨first, letters, rfl, alpha, all⟩ := isName
      have notSlash : first ≠ '/' := by
        rintro rfl
        exact absurd alpha (by decide)
      simp only [openingSource, Bool.false_eq_true, ↓reduceIte, List.cons_append,
        List.nil_append] at named ⊢
      rw [opening?]
      · simp [named]
      · intro rest same
        simp only [List.cons.injEq] at same
        exact notSlash same.1

/-- The opening of a tag stays the same when text follows, if something ended its name already. -/
theorem opening?_append {text : Text} {opening : Opening} (found : opening? text = some opening)
    (more : Text) (ends : endsName (opening.rest ++ more) = true) :
    opening? (text ++ more) = some ⟨opening.closing, opening.name, opening.rest ++ more⟩ := by
  obtain ⟨rfl, isName, -⟩ := opening?_eq_some found
  rw [List.append_assoc]
  exact opening?_source _ isName ends

theorem endsName_append_line {rest : Text} (ends : endsName rest = true) (more : Text) :
    endsName (rest ++ '\n' :: more) = true := by
  cases rest with
  | nil => rfl
  | cons c tail => exact ends

theorem openingSource_no_line {closing : Bool} {name : Text} (isName : IsName name) :
    '\n' ∉ openingSource closing name := by
  obtain ⟨first, letters, rfl, alpha, all⟩ := isName
  intro member
  simp only [openingSource, List.mem_append, List.mem_cons] at member
  rcases member with start | rfl | inLetters
  · split at start <;> simp at start
  · exact absurd alpha (by decide)
  · exact absurd (all _ inLetters) (by decide)

theorem exists_append_openingSource {text more rest name : Text} {closing : Bool}
    (isName : IsName name) (split : text ++ '\n' :: more = openingSource closing name ++ rest) :
    ∃ tail, text = openingSource closing name ++ tail := by
  rcases List.append_eq_append_iff.mp split with ⟨between, source, later⟩ | ⟨between, whole, later⟩
  · cases between with
    | nil => exact ⟨[], by simpa using source.symm⟩
    | cons c between =>
        obtain ⟨rfl, -⟩ := List.cons.inj later
        have member : '\n' ∈ openingSource closing name := by
          rw [source]
          simp
        exact absurd member (openingSource_no_line isName)
  · exact ⟨between, whole⟩

theorem opening?_append_line (text more : Text) :
    opening? (text ++ '\n' :: more) =
      (opening? text).map fun opening =>
        ⟨opening.closing, opening.name, opening.rest ++ '\n' :: more⟩ := by
  cases found : opening? text with
  | some opening =>
      obtain ⟨-, -, ends⟩ := opening?_eq_some found
      exact opening?_append found _ (endsName_append_line ends more)
  | none =>
      cases longer : opening? (text ++ '\n' :: more) with
      | none => rfl
      | some opening =>
          exfalso
          obtain ⟨closing, name, rest⟩ := opening
          obtain ⟨split, isName, ends⟩ := opening?_eq_some longer
          -- the opening has no line feed, so it lies within the text before the line
          obtain ⟨tail, rfl⟩ := exists_append_openingSource isName split
          rw [List.append_assoc, List.append_cancel_left_eq] at split
          simp only at split
          have kept : endsName tail = true := by
            cases tail with
            | nil => rfl
            | cons c tail =>
                rw [← split] at ends
                exact ends
          rw [opening?_source closing isName kept] at found
          simp at found

/-! Where an expression and a tag end. -/

/-- So many characters more before an end that further text leaves as it is. -/
theorem end_add {count : Nat} {inner longer : Option Nat} {length : Nat} {rest : Text}
    (found : inner.map (· + count) = some length)
    (kept : ∀ {shorter}, inner = some shorter →
      longer = some shorter ∧ 0 < shorter ∧ shorter ≤ rest.length) :
    longer.map (· + count) = some length ∧ 0 < length ∧ length ≤ rest.length + count := by
  obtain ⟨shorter, here, rfl⟩ := Option.map_eq_some_iff.mp found
  obtain ⟨same, positive, bound⟩ := kept here
  rw [same]
  exact ⟨rfl, by omega, by omega⟩

theorem braceTail?_append {opened : Nat} {quote : Option Char} {text : Text} {length : Nat}
    (found : braceTail? opened quote text = some length) (more : Text) :
    braceTail? opened quote (text ++ more) = some length ∧ 0 < length ∧ length ≤ text.length := by
  fun_induction braceTail? opened quote text generalizing length with
  | case1 => simp at found
  | case2 => simp at found
  | case3 opened q c rest ih =>
      obtain ⟨same, bounds⟩ := end_add found ih
      exact ⟨by simpa [braceTail?] using same, bounds⟩
  | case4 opened c rest q notEscape ih =>
      obtain ⟨same, bounds⟩ := end_add found ih
      refine ⟨?_, bounds⟩
      rw [List.cons_append, braceTail?.eq_def]
      simpa [notEscape] using same
  | case5 opened c rest isQuote ih =>
      obtain ⟨same, bounds⟩ := end_add found ih
      exact ⟨by simpa [braceTail?, isQuote] using same, bounds⟩
  | case6 opened rest notQuote ih =>
      obtain ⟨same, bounds⟩ := end_add found ih
      exact ⟨by simpa [braceTail?, notQuote] using same, bounds⟩
  | case7 =>
      simp only [Option.some.injEq] at found
      subst found
      simp_all [braceTail?]
  | case8 opened rest notQuote notOpen notLast ih =>
      obtain ⟨same, bounds⟩ := end_add found ih
      exact ⟨by simpa [braceTail?, notQuote, notOpen, notLast] using same, bounds⟩
  | case9 opened c rest notQuote notOpen notClose ih =>
      obtain ⟨same, bounds⟩ := end_add found ih
      exact ⟨by simpa [braceTail?, notQuote, notOpen, notClose] using same, bounds⟩

theorem expressionLength?_append {text : Text} {length : Nat}
    (found : expressionLength? text = some length) (more : Text) :
    expressionLength? (text ++ more) = some length ∧ 0 < length ∧ length ≤ text.length :=
  braceTail?_append found more

theorem tail?_append {skipped : Nat} {quote : Option Char} {text : Text} {length : Nat}
    (found : tail? skipped quote text = some length) (more : Text) :
    tail? skipped quote (text ++ more) = some length ∧ 0 < length ∧ length ≤ text.length := by
  fun_induction tail? skipped quote text generalizing length with
  | case1 => simp at found
  | case2 quote c rest skipped ih =>
      obtain ⟨same, bounds⟩ := end_add found ih
      exact ⟨by simpa [tail?] using same, bounds⟩
  | case3 c rest q ih =>
      obtain ⟨same, bounds⟩ := end_add found ih
      exact ⟨by simpa [tail?] using same, bounds⟩
  | case4 c rest isQuote ih =>
      obtain ⟨same, bounds⟩ := end_add found ih
      exact ⟨by simpa [tail?, isQuote] using same, bounds⟩
  | case5 => simp at found
  | case6 rest inner notQuote expression ih =>
      have longer := (expressionLength?_append expression more).1
      rw [List.cons_append] at longer
      obtain ⟨same, bounds⟩ := end_add found ih
      exact ⟨by simpa [tail?, longer] using same, bounds⟩
  | case7 =>
      simp only [Option.some.injEq] at found
      subst found
      simp_all [tail?]
  | case8 c rest notQuote notOpen notEnd ih =>
      obtain ⟨same, bounds⟩ := end_add found ih
      exact ⟨by simpa [tail?, notQuote, notOpen, notEnd] using same, bounds⟩

/-! The scan, one tag at a time. -/

theorem scanFrom_skip (skipped : Nat) (text : Text) :
    ∀ offset, scanFrom skipped offset text = scanFrom 0 (offset + skipped) (text.drop skipped) := by
  induction text generalizing skipped with
  | nil => intro offset; simp [scanFrom]
  | cons c rest ih =>
      intro offset
      cases skipped with
      | zero => rfl
      | succ skipped =>
          rw [scanFrom, ih]
          simp only [List.drop_succ_cons]
          congr 1
          omega

theorem scanFrom_of_not_opening {c : Char} {rest : Text} (closed : opening? (c :: rest) = none)
    (offset : Nat) : scanFrom 0 offset (c :: rest) = scanFrom 0 (offset + 1) rest := by
  rw [scanFrom, closed]

theorem scanFrom_of_open {text : Text} {opening : Opening} (found : opening? text = some opening)
    (noEnd : tail? 0 none opening.rest = none) (offset : Nat) :
    scanFrom 0 offset text = ⟨[], some offset⟩ := by
  cases text with
  | nil => simp [opening?] at found
  | cons c rest => rw [scanFrom, found]; simp [noEnd]

theorem scanFrom_of_tag {text : Text} {opening : Opening} {length : Nat}
    (found : opening? text = some opening) (ends : tail? 0 none opening.rest = some length)
    (offset : Nat) :
    scanFrom 0 offset text =
      let found := scanFrom 0 (offset + opening.length + length)
        (text.drop (opening.length + length))
      ⟨ofOpening offset opening length :: found.tags, found.unterminated⟩ := by
  have positive : 0 < length := (tail?_append ends []).2.1
  cases text with
  | nil => simp [opening?] at found
  | cons c rest =>
      obtain ⟨count, total⟩ : ∃ count, opening.length + length = count + 1 :=
        ⟨opening.length + length - 1, by omega⟩
      rw [scanFrom, found]
      simp only [ends]
      rw [scanFrom_skip, total, List.drop_succ_cons, Nat.add_sub_cancel,
        show offset + 1 + count = offset + opening.length + length by omega]

/-- What a scan finds at first, and what it finds from there on. -/
def Found.andThen (found later : Found) : Found :=
  ⟨found.tags ++ later.tags, later.unterminated⟩

/-- A tag starts at an offset of a text and does not end in it. -/
structure OpenAt (text : Text) (offset : Nat) (opening : Opening) : Prop where
  opens : opening? (text.drop offset) = some opening
  noEnd : tail? 0 none opening.rest = none

/-- The steps of a scan of a text that starts at an offset. -/
inductive Scans : Nat → Text → Found → Prop
  | done (offset) : Scans offset [] ⟨[], none⟩
  | skip {offset c rest found} : opening? (c :: rest) = none → Scans (offset + 1) rest found →
      Scans offset (c :: rest) found
  | unterminated {offset text opening} : OpenAt text 0 opening → Scans offset text ⟨[], some offset⟩
  | tag {offset text opening length found} : opening? text = some opening →
      tail? 0 none opening.rest = some length →
      Scans (offset + opening.length + length) (text.drop (opening.length + length)) found →
      Scans offset text (Found.andThen ⟨[ofOpening offset opening length], none⟩ found)

theorem scans_scanFrom_within (count : Nat) :
    ∀ offset text, text.length ≤ count → Scans offset text (scanFrom 0 offset text) := by
  -- a tag takes many characters at once, so the induction is on a bound of their number
  induction count with
  | zero =>
      intro offset text bound
      obtain rfl : text = [] := List.eq_nil_of_length_eq_zero (by omega)
      exact .done offset
  | succ count ih =>
      intro offset text bound
      cases text with
      | nil => exact .done offset
      | cons c rest =>
          cases found : opening? (c :: rest) with
          | none =>
              rw [scanFrom_of_not_opening found]
              exact .skip found (ih _ rest (by simpa using bound))
          | some opening =>
              cases ends : tail? 0 none opening.rest with
              | none =>
                  rw [scanFrom_of_open found ends]
                  exact .unterminated ⟨found, ends⟩
              | some length =>
                  have positive := (tail?_append ends []).2.1
                  rw [scanFrom_of_tag found ends]
                  exact .tag found ends (ih _ _ (by rw [List.length_drop]; omega))

theorem scans_scanFrom (offset : Nat) (text : Text) :
    Scans offset text (scanFrom 0 offset text) :=
  scans_scanFrom_within text.length offset text (Nat.le_refl _)

theorem scans_scan (source : Text) : Scans 0 source (scan source) :=
  scans_scanFrom 0 source

theorem Scans.offset_le {offset : Nat} {text : Text} {found : Found}
    (scans : Scans offset text found) :
    (∀ tag ∈ found.tags, offset ≤ tag.start) ∧ ∀ start ∈ found.unterminated, offset ≤ start := by
  induction scans with
  | done => simp
  | skip _ _ ih =>
      obtain ⟨tags, pending⟩ := ih
      exact ⟨fun tag member => Nat.le_of_succ_le (tags tag member),
        fun start same => Nat.le_of_succ_le (pending start same)⟩
  | unterminated => simp
  | @tag offset text opening length found opens ends _ ih =>
      obtain ⟨tags, pending⟩ := ih
      simp only [Found.andThen, List.cons_append, List.nil_append, List.forall_mem_cons]
      refine ⟨⟨Nat.le_refl offset, fun tag member => ?_⟩, fun start same => ?_⟩
      · have later := tags tag member
        omega
      · have later := pending start same
        omega

/-- Tags of a source, one behind the other from `cursor` on, each with its own opening. -/
inductive Chain (source : Text) : Nat → List Tag → Prop
  | nil {cursor} : cursor ≤ source.length → Chain source cursor []
  | cons {cursor tag tags rest} : cursor ≤ tag.start → tag.start < tag.stop → IsName tag.name →
      source.drop tag.start = openingSource tag.closing tag.name ++ rest →
      Chain source tag.stop tags → Chain source cursor (tag :: tags)

theorem Chain.length {source : Text} {cursor : Nat} {tags : List Tag}
    (chain : Chain source cursor tags) : cursor ≤ source.length := by
  induction chain with
  | nil bound => exact bound
  | cons before inside _ _ _ ih => omega

theorem Scans.chain {offset : Nat} {text : Text} {found : Found} (scans : Scans offset text found)
    {source : Text} (inside : text = source.drop offset) (bound : offset ≤ source.length)
    {cursor : Nat} (before : cursor ≤ offset) : Chain source cursor found.tags := by
  induction scans generalizing cursor with
  | done => exact .nil (by omega)
  | @skip offset c rest _ _ _ ih =>
      have length := congrArg List.length inside
      rw [List.length_cons, List.length_drop] at length
      have later : rest = source.drop (offset + 1) := by
        rw [← List.drop_drop, ← inside]
        rfl
      exact ih later (by omega) (by omega)
  | unterminated => exact .nil (by omega)
  | @tag offset text opening length _ opens ends _ ih =>
      obtain ⟨split, isName, -⟩ := opening?_eq_some opens
      obtain ⟨-, positive, short⟩ := tail?_append ends []
      have whole := congrArg List.length split
      rw [List.length_append, openingSource_length, inside, List.length_drop] at whole
      have later : text.drop (opening.length + length) =
          source.drop (offset + opening.length + length) := by
        rw [inside, List.drop_drop, Nat.add_assoc]
      rw [inside] at split
      exact .cons before (by simp only [ofOpening]; omega) isName split
        (ih later (by omega) (Nat.le_refl _))

theorem chain_scan (source : Text) : Chain source 0 (scan source).tags :=
  (scans_scan source).chain rfl (Nat.zero_le _) (Nat.le_refl 0)

end MdxCheck.Tag
