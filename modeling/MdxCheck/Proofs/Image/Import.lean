import MdxCheck.Image.Import
import MdxCheck.Proofs.Text.LineEnds
import MdxCheck.Proofs.Text.Word

/-!
How a statement that imports an image is spelled, and what follows for its lines: a statement on one
line stays one whatever comes after the line, and one that takes several lines has no other inside.
-/

namespace MdxCheck.Image

open Text

theorem foldLetter_of_isBlank {c : Char} (blank : isBlank c = true) : foldLetter c = c := by
  simp only [isBlank, Bool.or_eq_true, Bool.and_eq_true, decide_eq_true_eq, beq_iff_eq] at blank
  have noUpper : ¬(c.toNat ≥ 65 ∧ c.toNat ≤ 90) := by omega
  have lower : c.toLower = c := by
    unfold Char.toLower
    rw [dif_neg]
    rintro ⟨low, high⟩
    exact noUpper ⟨low, high⟩
  simp only [foldLetter, lower, beq_iff_eq, Bool.or_eq_true]
  rw [if_neg (by omega), if_neg (by omega), if_neg (by omega)]

theorem isAlpha_of_isBlank {c : Char} (blank : isBlank c = true) : c.isAlpha = false := by
  by_contra alpha
  rw [Bool.not_eq_false] at alpha
  rw [isBlank_of_isAlpha alpha] at blank
  contradiction

theorem startsName_of_isBlank {c : Char} (blank : isBlank c = true) : startsName c = false := by
  have noLine : c ≠ '_' := by
    rintro rfl
    exact absurd blank (by decide)
  have noDollar : c ≠ '$' := by
    rintro rfl
    exact absurd blank (by decide)
  simp [startsName, foldLetter_of_isBlank blank, isAlpha_of_isBlank blank, noLine, noDollar]

theorem isNameChar_of_isBlank {c : Char} (blank : isBlank c = true) : isNameChar c = false := by
  have noDollar : c ≠ '$' := by
    rintro rfl
    exact absurd blank (by decide)
  simp [isNameChar, isWordChar_of_isBlank blank, noDollar]

/-- A run of white space that is not empty. -/
structure IsGap (gap : Text) : Prop where
  nonempty : gap ≠ []
  blank : ∀ c ∈ gap, isBlank c = true

structure IsName (name : Text) : Prop where
  first : name.head?.any startsName = true
  all : ∀ c ∈ name, isNameChar c = true

def isQuote (c : Char) : Bool :=
  c == '\'' || c == '"'

theorem isBlank_of_isQuote {c : Char} (quote : isQuote c = true) : isBlank c = false := by
  simp only [isQuote, Bool.or_eq_true, beq_iff_eq] at quote
  rcases quote with rfl | rfl
  · decide
  · decide

/-- A text that opens with an import of an image, with the name and the source in it, and the text behind
the closing quote. -/
inductive Opens : Text → Text → Text → Text → Prop
  | intro {word first name second joint third source rest : Text} {quote : Char} :
      word.map foldLetter = "import" → IsGap first → IsName name → IsGap second →
      joint.map foldLetter = "from" → IsGap third → isQuote quote = true →
      (∀ c ∈ source, isQuote c = false) → isImageSource source = true → endsStatement rest = true →
      Opens (word ++ (first ++ (name ++ (second ++ (joint ++ (third ++
        quote :: (source ++ quote :: rest))))))) name source rest

theorem afterWord?_eq_some_iff {word text rest : Text} :
    afterWord? word text = some rest ↔
      ∃ spelled, spelled.map foldLetter = word ∧ text = spelled ++ rest := by
  induction word generalizing text with
  | nil => simp [afterWord?]
  | cons w word ih =>
      cases text with
      | nil =>
          simp only [afterWord?, false_iff, reduceCtorEq]
          rintro ⟨spelled, spells, none⟩
          obtain ⟨rfl, -⟩ := List.append_eq_nil_iff.mp none.symm
          simp at spells
      | cons c text =>
          constructor
          · intro found
            simp only [afterWord?] at found
            split at found
            · next same =>
                obtain ⟨spelled, rfl, rfl⟩ := ih.mp found
                exact ⟨c :: spelled, by simp [same], rfl⟩
            · simp at found
          · rintro ⟨spelled, spells, split⟩
            cases spelled with
            | nil => simp at spells
            | cons d spelled =>
                simp only [List.map_cons, List.cons.injEq] at spells
                simp only [List.cons_append, List.cons.injEq] at split
                rw [afterWord?, split.1, if_pos spells.1]
                exact ih.mpr ⟨spelled, spells.2, split.2⟩

def StartsSolid (text : Text) : Prop :=
  ∀ c, text.head? = some c → isBlank c = false

theorem StartsSolid.append {front back : Text} (solid : ∀ c ∈ front, isBlank c = false)
    (nonempty : front ≠ []) : StartsSolid (front ++ back) := by
  intro c found
  cases front with
  | nil => exact absurd rfl nonempty
  | cons d front =>
      obtain rfl := Option.some.inj found
      exact solid d (by simp)

theorem dropWhile_of_startsSolid {text : Text} (solid : StartsSolid text) :
    text.dropWhile isBlank = text := by
  cases text with
  | nil => rfl
  | cons c text => rw [List.dropWhile_cons_of_neg (by simp [solid c rfl])]

theorem afterBlanks?_eq_some_iff {text rest : Text} :
    afterBlanks? text = some rest ↔
      StartsSolid rest ∧ ∃ gap, IsGap gap ∧ text = gap ++ rest := by
  constructor
  · intro found
    cases text with
    | nil => simp [afterBlanks?] at found
    | cons c text =>
        simp only [afterBlanks?] at found
        split at found
        · next blank =>
            obtain rfl := Option.some.inj found
            refine ⟨?_, c :: text.takeWhile isBlank, ⟨by simp, ?_⟩, ?_⟩
            · intro d first
              have stops := List.head?_dropWhile_not isBlank text
              rw [first] at stops
              simpa using stops
            · intro d member
              rcases List.mem_cons.mp member with rfl | later
              · exact blank
              · exact List.mem_takeWhile_imp later
            · rw [List.cons_append, List.takeWhile_append_dropWhile]
        · simp at found
  · rintro ⟨solid, gap, isGap, rfl⟩
    obtain ⟨c, gap, rfl⟩ := List.exists_cons_of_ne_nil isGap.nonempty
    obtain ⟨first, others⟩ := List.forall_mem_cons.mp isGap.blank
    rw [List.cons_append, afterBlanks?, if_pos first, List.dropWhile_append_of_pos others,
      dropWhile_of_startsSolid solid]

/-- A word without white space and quotes. -/
def IsPlain (word : Text) : Prop :=
  ∀ c ∈ word, isBlank c = false ∧ isQuote c = false

theorem IsPlain.of_all {word : Text}
    (all : (word.all fun c => !isBlank c && !isQuote c) = true) : IsPlain word := by
  intro c member
  simpa using List.all_eq_true.mp all c member

theorem isPlain_import : IsPlain "import" :=
  .of_all (by decide)

theorem isPlain_from : IsPlain "from" :=
  .of_all (by decide)

theorem isBlank_of_spelled {word spelled : Text} (spells : spelled.map foldLetter = word)
    (plain : IsPlain word) : ∀ c ∈ spelled, isBlank c = false := by
  intro c member
  by_contra blank
  rw [Bool.not_eq_false] at blank
  have inWord : c ∈ word := by
    rw [← spells, ← foldLetter_of_isBlank blank]
    exact List.mem_map_of_mem member
  rw [(plain c inWord).1] at blank
  simp at blank

theorem IsGap.head {gap rest : Text} (isGap : IsGap gap) :
    ∀ c, (gap ++ rest).head? = some c → (!isBlank c) = false := by
  intro c found
  obtain ⟨d, gap, rfl⟩ := List.exists_cons_of_ne_nil isGap.nonempty
  obtain rfl := Option.some.inj found
  simpa using isGap.blank d (by simp)

theorem solid_of_isName {name : Text} (isName : IsName name) : ∀ c ∈ name, (!isBlank c) = true := by
  intro c member
  by_contra blank
  have inName := isName.all c member
  rw [isNameChar_of_isBlank (by simpa using blank)] at inName
  simp at inName

theorem takeWhile_isNameChar {name second rest : Text} (isName : IsName name) (gap : IsGap second) :
    (name ++ (second ++ rest)).takeWhile isNameChar = name := by
  obtain ⟨c, second, rfl⟩ := List.exists_cons_of_ne_nil gap.nonempty
  have stops := isNameChar_of_isBlank (gap.blank c (by simp))
  rw [List.takeWhile_append_of_pos isName.all, List.cons_append,
    List.takeWhile_cons_of_neg (by simp [stops]), List.append_nil]

theorem startsSolid_of_isName {name rest : Text} (isName : IsName name) :
    StartsSolid (name ++ rest) := by
  intro c found
  cases name with
  | nil => exact absurd isName.first (by simp)
  | cons d name =>
      obtain rfl := Option.some.inj found
      by_contra blank
      rw [Bool.not_eq_false] at blank
      have first : startsName d = true := isName.first
      rw [startsName_of_isBlank blank] at first
      simp at first

theorem startsSolid_of_spelled {word spelled rest : Text} (spells : spelled.map foldLetter = word)
    (nonempty : word ≠ []) (plain : IsPlain word) : StartsSolid (spelled ++ rest) := by
  refine .append (isBlank_of_spelled spells plain) ?_
  rintro rfl
  exact nonempty spells.symm

theorem startsSolid_of_isQuote {quote : Char} (isQuote : isQuote quote = true) (rest : Text) :
    StartsSolid (quote :: rest) := by
  intro c found
  obtain rfl := Option.some.inj found
  exact isBlank_of_isQuote isQuote

theorem takeWhile_source {source : Text} (plain : ∀ c ∈ source, isQuote c = false) {quote : Char}
    (stops : isQuote quote = true) (rest : Text) :
    (source ++ quote :: rest).takeWhile (fun c => c != '\'' && c != '"') = source := by
  have same : (fun c => c != '\'' && c != '"') = fun c => !isQuote c := by
    funext c
    rw [isQuote, Bool.not_or]
    rfl
  rw [same, List.takeWhile_append_of_pos (by simpa using plain),
    List.takeWhile_cons_of_neg (by simp [stops]), List.append_nil]

theorem afterWord?_append {word spelled : Text} (spells : spelled.map foldLetter = word)
    (rest : Text) : afterWord? word (spelled ++ rest) = some rest :=
  afterWord?_eq_some_iff.mpr ⟨spelled, spells, rfl⟩

theorem afterBlanks?_append {gap rest : Text} (isGap : IsGap gap) (solid : StartsSolid rest) :
    afterBlanks? (gap ++ rest) = some rest :=
  afterBlanks?_eq_some_iff.mpr ⟨solid, gap, isGap, rfl⟩

theorem statement?_of_opens {text name source rest : Text} (opens : Opens text name source rest) :
    statement? text = some (name, source, rest) := by
  obtain @⟨word, first, _, second, joint, third, _, _, quote, spellsImport, gap, isName, gapAfter,
    spellsFrom, gapBefore, stops, plain, isImage, ends⟩ := opens
  have solidFrom (tail : Text) : StartsSolid (joint ++ tail) :=
    startsSolid_of_spelled spellsFrom (by simp) isPlain_from
  simp only [statement?, bind, Option.bind, afterWord?_append spellsImport,
    afterBlanks?_append gap (startsSolid_of_isName isName), takeWhile_isNameChar isName gapAfter,
    isName.first, List.drop_left, afterBlanks?_append gapAfter (solidFrom _),
    afterWord?_append spellsFrom, afterBlanks?_append gapBefore (startsSolid_of_isQuote stops _),
    takeWhile_source plain stops]
  have isEither : quote = '\'' ∨ quote = '"' := by simpa [isQuote] using stops
  simp [isEither, isImage, ends]

theorem opens_of_statement? {text name source rest : Text}
    (found : statement? text = some (name, source, rest)) : Opens text name source rest := by
  simp only [statement?, Option.bind_eq_bind, Option.bind_eq_some_iff] at found
  obtain ⟨afterImport, isImport, named, isGap, found⟩ := found
  obtain ⟨word, spellsImport, rfl⟩ := afterWord?_eq_some_iff.mp isImport
  obtain ⟨-, first, gap, rfl⟩ := afterBlanks?_eq_some_iff.mp isGap
  split at found
  · simp at found
  next isName =>
  simp only [Option.bind_eq_some_iff, drop_length_takeWhile] at found
  obtain ⟨beforeFrom, isSecond, afterFrom, isFrom, quoted, isThird, found⟩ := found
  obtain ⟨-, second, gapAfter, split⟩ := afterBlanks?_eq_some_iff.mp isSecond
  obtain ⟨joint, spellsFrom, rfl⟩ := afterWord?_eq_some_iff.mp isFrom
  obtain ⟨-, third, gapBefore, rfl⟩ := afterBlanks?_eq_some_iff.mp isThird
  have whole := List.takeWhile_append_dropWhile (p := isNameChar) (l := named)
  rw [split] at whole
  cases quoted with
  | nil => simp at found
  | cons quote others =>
      simp only at found
      have parts := List.takeWhile_append_dropWhile (p := fun c => c != '\'' && c != '"')
        (l := others)
      split at found
      · simp at found
      next stop tail after =>
      rw [after] at parts
      split at found
      · next all =>
          obtain ⟨isEither, rfl, isImage, ends⟩ := all
          obtain ⟨isNamed, isSource, rfl⟩ : named.takeWhile isNameChar = name ∧
              others.takeWhile (fun c => c != '\'' && c != '"') = source ∧ tail = rest := by
            simpa using found
          have inName : ∀ c ∈ name, isNameChar c = true := by
            rw [← isNamed]
            exact fun c => List.mem_takeWhile_imp
          have plain : ∀ c ∈ source, isQuote c = false := by
            rw [← isSource]
            intro c member
            simpa [isQuote] using List.mem_takeWhile_imp member
          rw [isNamed] at whole isName
          rw [isSource] at parts isImage
          rw [← whole, ← parts]
          exact .intro spellsImport gap ⟨by simpa using isName, inName⟩ gapAfter spellsFrom gapBefore
            (by simpa [isQuote] using isEither) plain isImage ends
      · simp at found

/-- What is left of the line behind a statement: its semicolon does not count. -/
def trailing (rest : Text) : Text :=
  if rest.head? = some ';' then rest.drop 1 else rest

theorem trailing_append_feed (rest more : Text) :
    trailing (rest ++ '\n' :: more) = trailing rest ++ '\n' :: more := by
  cases rest with
  | nil => rfl
  | cons c rest =>
      by_cases semicolon : c = ';'
      · simp [trailing, semicolon]
      · simp [trailing, semicolon]

theorem mem_of_mem_trailing {rest : Text} {c : Char} (member : c ∈ trailing rest) : c ∈ rest := by
  unfold trailing at member
  split at member
  · exact List.mem_of_mem_drop member
  · exact member

/-- A statement ends where only blanks are left of its line. -/
theorem endsStatement_iff {rest : Text} :
    endsStatement rest = true ↔
      ∀ c, ((trailing rest).dropWhile fun c => c == ' ' || c == '\t').head? = some c → c = '\n' := by
  unfold endsStatement trailing
  simp only
  split
  · next none =>
      rw [none]
      simp
  · next found =>
      rw [found]
      simp

theorem endsStatement_append_feed {rest : Text} (noFeed : '\n' ∉ rest)
    (ends : endsStatement rest = true) (more : Text) :
    endsStatement (rest ++ '\n' :: more) = true := by
  rw [endsStatement_iff] at ends ⊢
  have blanks : (trailing rest).dropWhile (fun c => c == ' ' || c == '\t') = [] := by
    apply List.head?_eq_none_iff.mp
    by_contra some
    obtain ⟨c, found⟩ := Option.ne_none_iff_exists'.mp some
    obtain rfl := ends c found
    have member := (List.dropWhile_sublist _).subset (List.mem_of_head? found)
    exact noFeed (mem_of_mem_trailing member)
  intro c first
  rw [trailing_append_feed, List.dropWhile_append_of_pos (List.dropWhile_eq_nil_iff.mp blanks)]
    at first
  exact (Option.some.inj first).symm

/-- A statement on one line stays one whatever follows the line. -/
theorem Opens.append_feed {line name source rest : Text} (opens : Opens line name source rest)
    (noFeed : '\n' ∉ line) (more : Text) :
    Opens (line ++ '\n' :: more) name source (rest ++ '\n' :: more) := by
  obtain @⟨word, first, _, second, joint, third, _, _, quote, spellsImport, gap, isName, gapAfter,
    spellsFrom, gapBefore, stops, plain, isImage, ends⟩ := opens
  have noFeedAfter : '\n' ∉ rest := by
    intro member
    exact noFeed (by simp [member])
  have longer := Opens.intro spellsImport gap isName gapAfter spellsFrom gapBefore stops plain isImage
    (endsStatement_append_feed noFeedAfter ends more)
  simpa using longer

theorem cases_of_feed {piece tail front back : Text} (split : piece ++ tail = front ++ '\n' :: back) :
    (∃ left, piece = front ++ '\n' :: left ∧ back = left ++ tail) ∨
      ∃ right, front = piece ++ right ∧ tail = right ++ '\n' :: back := by
  rcases List.append_eq_append_iff.mp split with ⟨right, before, after⟩ | ⟨left, before, after⟩
  · exact .inr ⟨right, before, after⟩
  · cases left with
    | nil =>
        refine .inr ⟨[], ?_, after.symm⟩
        simpa using before.symm
    | cons c left =>
        simp only [List.cons_append, List.cons.injEq] at after
        obtain ⟨rfl, rfl⟩ := after
        exact .inl ⟨left, before, rfl⟩

/-- A piece of a text that holds no line feed comes before the first one. -/
theorem past_of_noFeed {piece tail front back : Text} (noFeed : '\n' ∉ piece)
    (split : piece ++ tail = front ++ '\n' :: back) :
    ∃ right, front = piece ++ right ∧ tail = right ++ '\n' :: back := by
  rcases cases_of_feed split with ⟨left, rfl, -⟩ | later
  · exact absurd noFeed (by simp)
  · exact later

theorem takeWhile_append_stop {keep : Char → Bool} {front back : Text}
    (kept : ∀ c ∈ front, keep c = true) (stops : ∀ c, back.head? = some c → keep c = false) :
    (front ++ back).takeWhile keep = front := by
  rw [List.takeWhile_append_of_pos kept]
  cases back with
  | nil => simp
  | cons c back => simp [stops c rfl]

/-- Where a run of characters of one class ends is settled by the text. -/
theorem run_append_inj (keep : Char → Bool) {first second restFirst restSecond : Text}
    (keptFirst : ∀ c ∈ first, keep c = true) (keptSecond : ∀ c ∈ second, keep c = true)
    (stopsFirst : ∀ c, restFirst.head? = some c → keep c = false)
    (stopsSecond : ∀ c, restSecond.head? = some c → keep c = false)
    (same : first ++ restFirst = second ++ restSecond) : first = second ∧ restFirst = restSecond := by
  have runs := congrArg (List.takeWhile keep) same
  rw [takeWhile_append_stop keptFirst stopsFirst, takeWhile_append_stop keptSecond stopsSecond] at runs
  subst runs
  exact ⟨rfl, List.append_cancel_left same⟩

theorem not_isBlank_getLast {source : Text} {c : Char} (isImage : isImageSource (source ++ [c]) = true) :
    isBlank c = false := by
  by_contra blank
  rw [Bool.not_eq_false] at blank
  have noStop : (c != '.') = true := by
    rw [bne_iff_ne]
    rintro rfl
    exact absurd blank (by decide)
  simp only [isImageSource, Bool.and_eq_true, List.contains_iff_mem] at isImage
  have listed := isImage.2
  rw [List.reverse_append, List.reverse_singleton, List.singleton_append,
    List.takeWhile_cons, if_pos noStop, List.reverse_cons, List.map_append] at listed
  have solid : (extensions.all fun suffix => suffix.all fun d => !isBlank d) = true := by decide
  have last := List.all_eq_true.mp (List.all_eq_true.mp solid _ listed) (foldLetter c) (by simp)
  rw [foldLetter_of_isBlank blank, blank] at last
  simp at last

theorem noFeed_of_spelled {word spelled : Text} (spells : spelled.map foldLetter = word)
    (plain : IsPlain word) : '\n' ∉ spelled := by
  intro feed
  have isSolid := isBlank_of_spelled spells plain '\n' feed
  exact absurd isSolid (by decide)

theorem noFeed_of_isName {name : Text} (isName : IsName name) : '\n' ∉ name := by
  intro feed
  have inName := isName.all '\n' feed
  rw [isNameChar_of_isBlank (by decide)] at inName
  simp at inName

theorem isQuote_of_isBlank {c : Char} (blank : isBlank c = true) : isQuote c = false := by
  by_contra quote
  rw [Bool.not_eq_false] at quote
  rw [isBlank_of_isQuote quote] at blank
  simp at blank

theorem foldLetter_of_isQuote {c : Char} (quote : isQuote c = true) : foldLetter c = c := by
  simp only [isQuote, Bool.or_eq_true, beq_iff_eq] at quote
  rcases quote with rfl | rfl
  · decide
  · decide

theorem isQuote_of_spelled {word spelled : Text} (spells : spelled.map foldLetter = word)
    (plain : IsPlain word) : ∀ c ∈ spelled, isQuote c = false := by
  intro c member
  by_contra quote
  rw [Bool.not_eq_false] at quote
  have inWord : c ∈ word := by
    rw [← spells, ← foldLetter_of_isQuote quote]
    exact List.mem_map_of_mem member
  rw [(plain c inWord).2] at quote
  simp at quote

theorem isQuote_of_isNameChar {c : Char} (inName : isNameChar c = true) : isQuote c = false := by
  by_contra quote
  simp only [Bool.not_eq_false, isQuote, Bool.or_eq_true, beq_iff_eq] at quote
  rcases quote with rfl | rfl
  · exact absurd inName (by decide)
  · exact absurd inName (by decide)

section

variable {line after name source rest : Text} (opens : Opens line name source rest)

include opens

/-- A line that starts with a statement starts with an i, in either case. -/
theorem Opens.head : ∃ c more, line = c :: more ∧ foldLetter c = 'i' := by
  obtain @⟨word, first, _, second, joint, third, _, _, quote, spellsImport, -⟩ := opens
  cases word with
  | nil => simp at spellsImport
  | cons c word =>
      have fold := (List.cons.inj spellsImport).1
      exact ⟨c, _, rfl, fold⟩

/-- A statement does not open with white space. -/
theorem Opens.eq_of_gap {gap tail : Text} (blank : ∀ c ∈ gap, isBlank c = true)
    (same : line ++ after = gap ++ tail) : line ++ after = tail := by
  obtain ⟨c, more, rfl, first⟩ := opens.head
  cases gap with
  | nil => exact same
  | cons d gap =>
      obtain rfl : c = d := (List.cons.inj same).1
      rw [foldLetter_of_isBlank (blank c (by simp))] at first
      subst first
      exact absurd (blank 'i' (by simp)) (by decide)

theorem Opens.ne_of_head {d : Char} {tail : Text} (other : foldLetter d ≠ 'i') :
    line ++ after ≠ d :: tail := by
  intro same
  obtain ⟨c, more, rfl, first⟩ := opens.head
  obtain rfl : c = d := (List.cons.inj same).1
  exact other first

/-- The rest of a statement from its name on starts with no statement: the name may be the word that
opens one, but its own name would be the word before the source, and the source is no name. -/
theorem Opens.ne_of_name {otherName second joint third tail : Text} {quote : Char}
    (isName : IsName otherName) (gapAfter : IsGap second) (spellsFrom : joint.map foldLetter = "from")
    (gapBefore : IsGap third) (stops : isQuote quote = true) :
    line ++ after ≠ otherName ++ (second ++ (joint ++ (third ++ quote :: tail))) := by
  apply Ne.symm
  intro same
  obtain @⟨word, first, _, lineSecond, lineJoint, lineThird, _, _, lineQuote, spellsImport, gap,
    isLineName, lineGap, spellsJoint, -⟩ := opens
  simp only [List.append_assoc, List.cons_append] at same
  obtain ⟨-, same⟩ := run_append_inj (!isBlank ·) (solid_of_isName isName)
    (by simpa using isBlank_of_spelled spellsImport isPlain_import) gapAfter.head gap.head same
  obtain ⟨-, same⟩ := run_append_inj isBlank gapAfter.blank gap.blank
    (startsSolid_of_spelled spellsFrom (by simp) isPlain_from) (startsSolid_of_isName isLineName) same
  obtain ⟨-, same⟩ := run_append_inj (!isBlank ·)
    (by simpa using isBlank_of_spelled spellsFrom isPlain_from) (solid_of_isName isLineName)
    gapBefore.head lineGap.head same
  obtain ⟨-, same⟩ := run_append_inj isBlank gapBefore.blank lineGap.blank
    (startsSolid_of_isQuote stops _) (startsSolid_of_spelled spellsJoint (by simp) isPlain_from) same
  cases lineJoint with
  | nil => simp at spellsJoint
  | cons c lineJoint =>
      have fold := (List.cons.inj spellsJoint).1
      obtain rfl : quote = c := (List.cons.inj same).1
      rw [foldLetter_of_isQuote stops] at fold
      subst fold
      exact absurd stops (by decide)

/-- The text before the first quote of a statement ends with white space. -/
theorem Opens.getLast_before_quote {before tail : Text} {quote : Char}
    (plain : ∀ c ∈ before, isQuote c = false) (stops : isQuote quote = true)
    (same : before ++ quote :: tail = line ++ after) :
    ∃ front c, before = front ++ [c] ∧ isBlank c = true := by
  obtain @⟨word, first, _, second, joint, third, _, _, lineQuote, spellsImport, gap, isName, gapAfter,
    spellsFrom, gapBefore, lineStops, -⟩ := opens
  have split : before ++ quote :: tail = (word ++ first ++ name ++ second ++ joint ++ third) ++
      lineQuote :: (source ++ lineQuote :: rest ++ after) := by
    rw [same]
    simp
  have plainLine : ∀ c ∈ word ++ first ++ name ++ second ++ joint ++ third, isQuote c = false := by
    simp only [List.forall_mem_append]
    exact ⟨⟨⟨⟨⟨isQuote_of_spelled spellsImport isPlain_import,
      fun c member => isQuote_of_isBlank (gap.blank c member)⟩,
      fun c member => isQuote_of_isNameChar (isName.all c member)⟩,
      fun c member => isQuote_of_isBlank (gapAfter.blank c member)⟩,
      isQuote_of_spelled spellsFrom isPlain_from⟩,
      fun c member => isQuote_of_isBlank (gapBefore.blank c member)⟩
  obtain ⟨rfl, -⟩ := run_append_inj (!isQuote ·) (by simpa using plain) (by simpa using plainLine)
    (by simpa using stops) (by simpa using lineStops) split
  obtain ⟨others, c, rfl⟩ := (List.eq_nil_or_concat third).resolve_left gapBefore.nonempty
  refine ⟨word ++ first ++ name ++ second ++ joint ++ others, c, by simp, ?_⟩
  exact gapBefore.blank c (by simp)

end

def firstLine (text : Text) : Text :=
  text.takeWhile (· ≠ '\n')

/-- No line that starts inside a statement starts with another. -/
theorem Opens.noStatement_within {text name source rest front back : Text}
    (opens : Opens text name source rest) (split : text = front ++ '\n' :: back)
    (within : front.length < text.length - rest.length) :
    statement? (firstLine back) = none := by
  obtain ⟨after, whole⟩ : ∃ after, back = firstLine back ++ after :=
    ⟨_, (List.takeWhile_append_dropWhile).symm⟩
  generalize firstLine back = line at whole ⊢
  cases found : statement? line with
  | none => rfl
  | some other =>
  have inside : Opens line other.1 other.2.1 other.2.2 := opens_of_statement? found
  exfalso
  obtain @⟨word, first, _, second, joint, third, _, _, quote, spellsImport, gap, isName, gapAfter,
    spellsFrom, gapBefore, stops, plain, isImage, ends⟩ := opens
  -- where the line feed stands decides what the line starts with
  obtain ⟨frontGap, rfl, fromGap⟩ :=
    past_of_noFeed (noFeed_of_spelled spellsImport isPlain_import) split
  rcases cases_of_feed fromGap with ⟨left, rfl, same⟩ | ⟨frontName, rfl, fromName⟩
  · rw [whole] at same
    have named := inside.eq_of_gap (fun c member => gap.blank c (by simp [member])) same
    exact inside.ne_of_name isName gapAfter spellsFrom gapBefore stops named
  obtain ⟨frontSecond, rfl, fromSecond⟩ := past_of_noFeed (noFeed_of_isName isName) fromName
  rcases cases_of_feed fromSecond with ⟨left, rfl, same⟩ | ⟨frontJoint, rfl, fromJoint⟩
  · rw [whole] at same
    have joined := inside.eq_of_gap (fun c member => gapAfter.blank c (by simp [member])) same
    cases joint with
    | nil => simp at spellsFrom
    | cons c joint =>
        have fold := (List.cons.inj spellsFrom).1
        exact inside.ne_of_head (by rw [fold]; decide) joined
  obtain ⟨frontThird, rfl, fromThird⟩ :=
    past_of_noFeed (noFeed_of_spelled spellsFrom isPlain_from) fromJoint
  rcases cases_of_feed fromThird with ⟨left, rfl, same⟩ | ⟨frontQuote, rfl, fromQuote⟩
  · rw [whole] at same
    have quoted := inside.eq_of_gap (fun c member => gapBefore.blank c (by simp [member])) same
    refine inside.ne_of_head ?_ quoted
    rw [foldLetter_of_isQuote stops]
    rintro rfl
    exact absurd stops (by decide)
  have noFeed : '\n' ∉ [quote] := by
    intro feed
    obtain rfl := List.mem_singleton.mp feed
    exact absurd stops (by decide)
  obtain ⟨frontSource, rfl, fromSource⟩ := past_of_noFeed noFeed fromQuote
  rcases cases_of_feed fromSource with ⟨left, rfl, same⟩ | ⟨frontRest, rfl, fromRest⟩
  · rw [whole] at same
    obtain ⟨before, c, rfl, blank⟩ :=
      inside.getLast_before_quote (fun c member => plain c (by simp [member])) stops same.symm
    have solid := @not_isBlank_getLast (frontSource ++ '\n' :: before) c (by simpa using isImage)
    rw [blank] at solid
    simp at solid
  · obtain ⟨behind, rfl, -⟩ := @past_of_noFeed [quote] _ _ _ noFeed fromRest
    simp only [List.length_append, List.length_cons, List.length_nil] at within
    omega

end MdxCheck.Image
