import MdxCheck.Document.Session
import Mathlib.Data.List.Induction

/-!
Sessions of several parses. What a parse returns is told from the steps before it: a key stands for
the tree of the first parse with that key that had one, until the session is cleared.
-/

namespace MdxCheck.Document.Session

inductive Step where
  | parse (text : Text) (key : Option Text)
  | clear

def take (session : Session) : Step → Session
  | .parse text key => (session.parse key text).2
  | .clear => session.clear

def after (history : List Step) : Session :=
  history.foldl take empty

/-- A tree as an object of a session: trees that different steps have built are different objects,
whatever their values. -/
structure TreeObject where
  step : Nat
  tree : Node

def returned (history : List Step) (key : Option Text) (text : Text) :
    Except ParseError TreeObject :=
  ((after history).parse key text).1.map fun result =>
    ⟨result.1.getD history.length, result.2⟩

/-- A new object for the tree of a text, built after some steps. -/
def built (history : List Step) (text : Text) : Except ParseError TreeObject :=
  (Document.parse text).map fun tree => ⟨history.length, tree⟩

/-- A parse with the key since the last clear: the steps before it, and what it returned. -/
def Since (history : List Step) (key : Text) (before : List Step)
    (result : Except ParseError TreeObject) : Prop :=
  ∃ text between, history = before ++ .parse text (some key) :: between ∧ .clear ∉ between ∧
    returned before (some key) text = result

/-- The earliest successful parse with the key since the last clear has returned this object. -/
def Earliest (history : List Step) (key : Text) (object : TreeObject) : Prop :=
  ∃ before, Since history key before (.ok object) ∧
    ∀ earlier other, Since history key earlier (.ok other) → before.length ≤ earlier.length

/-- No parse with the key has succeeded since the last clear. -/
def Never (history : List Step) (key : Text) : Prop :=
  ∀ before object, ¬Since history key before (.ok object)

/-- No key is used with two texts. -/
def OneText (steps : List Step) : Prop :=
  ∀ key ≠ [], ∀ text other, .parse text (some key) ∈ steps → .parse other (some key) ∈ steps →
    text = other

theorem OneText.of_subset {steps more : List Step} (oneText : OneText more)
    (within : ∀ step ∈ steps, step ∈ more) : OneText steps :=
  fun key nonempty text other first second =>
    oneText key nonempty text other (within _ first) (within _ second)

/-! What one parse does: it takes a kept tree, builds and keeps one, or fails. -/

theorem steps_keep (session : Session) (key : Option Text) (tree : Node) :
    (session.keep key tree).steps = session.steps := by
  simp only [keep]
  split <;> rfl

section

variable {session : Session} {key : Option Text}

theorem parse_of_found {entry : Kept} (found : session.find? key = some entry) (text : Text) :
    session.parse key text =
      (.ok (some entry.step, entry.tree), ⟨session.steps + 1, session.kept⟩) := by
  rw [Session.parse, found]

variable {text : Text} (missing : session.find? key = none)

include missing

theorem parse_of_ok {tree : Node} (parsed : Document.parse text = .ok tree) :
    session.parse key text =
      (.ok (none, tree), ⟨session.steps + 1, (session.keep key tree).kept⟩) := by
  simp only [Session.parse, missing, parsed, steps_keep]

theorem parse_of_error {error : ParseError} (failed : Document.parse text = .error error) :
    session.parse key text = (.error error, ⟨session.steps + 1, session.kept⟩) := by
  simp only [Session.parse, missing, failed]

end

theorem steps_take (session : Session) (step : Step) :
    (session.take step).steps = session.steps + 1 := by
  cases step with
  | clear => rfl
  | parse text key =>
      cases found : session.find? key with
      | some entry => rw [take, parse_of_found found]
      | none =>
          cases parsed : Document.parse text with
          | ok tree => rw [take, parse_of_ok found parsed]
          | error error => rw [take, parse_of_error found parsed]

theorem after_append (history : List Step) (step : Step) :
    after (history ++ [step]) = (after history).take step := by
  rw [after, List.foldl_append, after]
  rfl

theorem steps_after (history : List Step) : (after history).steps = history.length := by
  induction history using List.reverseRecOn with
  | nil => rfl
  | append_singleton history step ih => rw [after_append, steps_take, ih, List.length_append]; rfl

theorem returned_of_missing {history : List Step} {key : Option Text}
    (missing : (after history).find? key = none) (text : Text) :
    returned history key text = built history text := by
  rw [returned, built]
  cases parsed : Document.parse text with
  | ok tree => rw [parse_of_ok missing parsed]; rfl
  | error error => rw [parse_of_error missing parsed]; rfl

theorem returned_of_keyless {key : Option Text} (keyless : key = none ∨ key = some [])
    (history : List Step) (text : Text) :
    returned history key text = built history text ∧
      (after (history ++ [.parse text key])).kept = (after history).kept := by
  have missing : (after history).find? key = none := by
    rcases keyless with rfl | rfl <;> rfl
  refine ⟨returned_of_missing missing text, ?_⟩
  rw [after_append, take]
  cases parsed : Document.parse text with
  | ok tree =>
      rw [parse_of_ok missing parsed]
      rcases keyless with rfl | rfl <;> rfl
  | error error => rw [parse_of_error missing parsed]

theorem kept_of_failed {history : List Step} {key : Option Text} {text : Text} {error : ParseError}
    (failed : returned history key text = .error error) :
    Document.parse text = .error error ∧
      (after (history ++ [.parse text key])).kept = (after history).kept := by
  rw [after_append, take]
  rw [returned] at failed
  cases found : (after history).find? key with
  | some entry => simp [parse_of_found found, Except.map] at failed
  | none =>
      cases parsed : Document.parse text with
      | ok tree => simp [parse_of_ok found parsed, Except.map] at failed
      | error other =>
          rw [parse_of_error found parsed] at failed ⊢
          exact ⟨congrArg Except.error (Except.error.inj failed), rfl⟩

/-! What is kept for a key after each step. -/

def kept? (history : List Step) (key : Text) : Option TreeObject :=
  ((after history).find? (some key)).map fun entry => ⟨entry.step, entry.tree⟩

theorem kept?_append_clear (history : List Step) (key : Text) :
    kept? (history ++ [.clear]) key = none := by
  cases key <;> simp [kept?, after_append, take, clear, find?]

theorem find?_keep_of_ne (session : Session) {key other : Option Text} (different : other ≠ key)
    (tree : Node) : (session.keep other tree).find? key = session.find? key := by
  rcases other with _ | _ | ⟨c, rest⟩
  · rfl
  · rfl
  · rcases key with _ | _ | ⟨d, key⟩
    · rfl
    · rfl
    · have notSame : ¬(c :: rest == d :: key) = true := by simpa using different
      simp only [find?, keep]
      exact List.find?_cons_of_neg notSame

theorem kept?_append_parse_of_ne {other : Option Text} {key : Text} (different : other ≠ some key)
    (history : List Step) (text : Text) :
    kept? (history ++ [.parse text other]) key = kept? history key := by
  rw [kept?, after_append, take, kept?]
  cases found : (after history).find? other with
  | some entry => rw [parse_of_found found]; rfl
  | none =>
      cases parsed : Document.parse text with
      | ok tree =>
          rw [parse_of_ok found parsed, ← find?_keep_of_ne (after history) different tree]
          rfl
      | error error => rw [parse_of_error found parsed]; rfl

section

variable {key : Text} {history : List Step}

theorem returned_of_kept {object : TreeObject} (kept : kept? history key = some object)
    (text : Text) : returned history (some key) text = .ok object := by
  obtain ⟨entry, found, rfl⟩ := Option.map_eq_some_iff.mp kept
  rw [returned, parse_of_found found]
  rfl

theorem returned_of_not_kept (kept : kept? history key = none) (text : Text) :
    returned history (some key) text = built history text :=
  returned_of_missing (Option.map_eq_none_iff.mp kept) text

/-- After a parse with a key, what it has returned is kept. -/
theorem kept?_append_parse (nonempty : key ≠ []) (text : Text) :
    kept? (history ++ [.parse text (some key)]) key =
      (returned history (some key) text).toOption := by
  rw [kept?, after_append, take, returned]
  cases found : (after history).find? (some key) with
  | some entry =>
      rw [parse_of_found found]
      exact congrArg (Option.map fun entry => (⟨entry.step, entry.tree⟩ : TreeObject)) found
  | none =>
      cases parsed : Document.parse text with
      | ok tree =>
          rw [parse_of_ok found parsed]
          obtain ⟨c, rest, rfl⟩ := List.exists_cons_of_ne_nil nonempty
          simp [keep, find?, steps_after, Except.map, Except.toOption]
      | error error =>
          rw [parse_of_error found parsed]
          exact congrArg (Option.map fun entry => (⟨entry.step, entry.tree⟩ : TreeObject)) found

end

/-! What is kept over a whole session. -/

theorem since_append_iff {history before : List Step} {step : Step} {key : Text}
    {result : Except ParseError TreeObject} :
    Since (history ++ [step]) key before result ↔
      (step ≠ .clear ∧ Since history key before result) ∨
      (before = history ∧ ∃ text, step = .parse text (some key) ∧
        returned history (some key) text = result) := by
  constructor
  · rintro ⟨text, between, split, noClear, same⟩
    rcases List.eq_nil_or_concat between with rfl | ⟨more, last, rfl⟩
    · obtain ⟨rfl, rest⟩ := List.append_inj' split rfl
      exact Or.inr ⟨rfl, text, (List.cons.inj rest).1, same⟩
    · have parts : history ++ [step] = (before ++ .parse text (some key) :: more) ++ [last] := by
        rw [split, List.append_assoc, List.cons_append, List.concat_eq_append]
      obtain ⟨whole, rest⟩ := List.append_inj' parts rfl
      obtain rfl := (List.cons.inj rest).1
      simp only [List.concat_eq_append, List.mem_append, List.mem_singleton, not_or] at noClear
      exact Or.inl ⟨Ne.symm noClear.2, text, more, whole, noClear.1, same⟩
  · rintro (⟨notClear, text, between, rfl, noClear, same⟩ | ⟨rfl, text, rfl, same⟩)
    · refine ⟨text, between ++ [step], by simp, ?_, same⟩
      simp only [List.mem_append, List.mem_singleton, not_or]
      exact ⟨noClear, Ne.symm notClear⟩
    · exact ⟨text, [], rfl, by simp, same⟩

theorem Since.length_le {history before : List Step} {key : Text}
    {result : Except ParseError TreeObject} (since : Since history key before result) :
    before.length ≤ history.length := by
  obtain ⟨text, between, rfl, -, -⟩ := since
  simp

theorem Earliest.append {history : List Step} {step : Step} {key : Text} {object : TreeObject}
    (earliest : Earliest history key object) (notClear : step ≠ .clear) :
    Earliest (history ++ [step]) key object := by
  obtain ⟨before, since, least⟩ := earliest
  refine ⟨before, since_append_iff.mpr (Or.inl ⟨notClear, since⟩), ?_⟩
  intro earlier other found
  rcases since_append_iff.mp found with ⟨-, old⟩ | ⟨rfl, -⟩
  · exact least earlier other old
  · exact since.length_le

section

variable {history : List Step} {key : Text} (never : Never history key)

include never

theorem Never.append {step : Step} (fails : ∀ text object, step = .parse text (some key) →
    returned history (some key) text ≠ .ok object) : Never (history ++ [step]) key := by
  intro before object since
  rcases since_append_iff.mp since with ⟨-, old⟩ | ⟨-, text, same, new⟩
  · exact never before object old
  · exact fails text object same new

theorem Never.earliest {text : Text} {object : TreeObject}
    (new : returned history (some key) text = .ok object) :
    Earliest (history ++ [.parse text (some key)]) key object := by
  refine ⟨history, since_append_iff.mpr (Or.inr ⟨rfl, text, rfl, new⟩), ?_⟩
  intro earlier other found
  rcases since_append_iff.mp found with ⟨-, old⟩ | ⟨rfl, -⟩
  · exact absurd old (never earlier other)
  · exact Nat.le_refl _

end

theorem never_append_clear (history : List Step) (key : Text) :
    Never (history ++ [.clear]) key := by
  intro before object since
  rcases since_append_iff.mp since with ⟨notClear, -⟩ | ⟨-, text, same, -⟩
  · exact notClear rfl
  · cases same

/-- What is kept for a key is what the earliest successful parse with it has returned. -/
theorem kept?_spec {key : Text} (nonempty : key ≠ []) (history : List Step) :
    match kept? history key with
    | some object => Earliest history key object
    | none => Never history key := by
  -- what is kept changes with the last step, so the steps are taken off from the end
  induction history using List.reverseRecOn with
  | nil =>
      have nothing : kept? [] key = none := by cases key <;> rfl
      rw [nothing]
      rintro before object ⟨text, between, split, -⟩
      simp at split
  | append_singleton history step ih =>
      cases step with
      | clear =>
          rw [kept?_append_clear]
          exact never_append_clear history key
      | parse text other =>
          by_cases same : other = some key
          · subst same
            rw [kept?_append_parse nonempty]
            cases kept : kept? history key with
            | some object =>
                rw [kept] at ih
                rw [returned_of_kept kept]
                exact ih.append (by simp)
            | none =>
                rw [kept] at ih
                cases new : returned history (some key) text with
                | ok object => exact Never.earliest ih new
                | error error =>
                    refine Never.append ih fun another object step succeeded => ?_
                    obtain ⟨rfl, -⟩ := Step.parse.inj step
                    simp [new] at succeeded
          · rw [kept?_append_parse_of_ne same]
            cases kept : kept? history key with
            | some object =>
                rw [kept] at ih
                exact ih.append (by simp)
            | none =>
                rw [kept] at ih
                exact Never.append ih fun another object step =>
                  absurd (Step.parse.inj step).2 same

theorem Earliest.unique {history : List Step} {key : Text} {first second : TreeObject}
    (left : Earliest history key first) (right : Earliest history key second) : first = second := by
  obtain ⟨before, since, least⟩ := left
  obtain ⟨other, sinceToo, leastToo⟩ := right
  have lengths := Nat.le_antisymm (least _ _ sinceToo) (leastToo _ _ since)
  obtain ⟨text, between, split, -, same⟩ := since
  obtain ⟨another, rest, splitToo, -, sameToo⟩ := sinceToo
  obtain ⟨rfl, later⟩ := List.append_inj (split.symm.trans splitToo) lengths
  obtain ⟨rfl, -⟩ := Step.parse.inj (List.cons.inj later).1
  exact Except.ok.inj (same.symm.trans sameToo)

theorem kept?_of_earliest {key : Text} (nonempty : key ≠ []) {history : List Step}
    {object : TreeObject} (earliest : Earliest history key object) :
    kept? history key = some object := by
  have spec := kept?_spec nonempty history
  cases kept : kept? history key with
  | some other =>
      rw [kept] at spec
      rw [spec.unique earliest]
  | none =>
      rw [kept] at spec
      obtain ⟨before, since, -⟩ := earliest
      exact absurd since (spec before object)

theorem kept?_of_never {key : Text} (nonempty : key ≠ []) {history : List Step}
    (never : Never history key) : kept? history key = none := by
  have spec := kept?_spec nonempty history
  cases kept : kept? history key with
  | none => rfl
  | some object =>
      rw [kept] at spec
      obtain ⟨before, since, -⟩ := spec
      exact absurd since (never before object)

/-- What is kept for a key is the tree of one of the texts that the key was used with. -/
theorem parsed_of_kept {key : Text} (nonempty : key ≠ []) {history : List Step} :
    ∀ {object}, kept? history key = some object →
      ∃ text, .parse text (some key) ∈ history ∧ Document.parse text = .ok object.tree := by
  induction history using List.reverseRecOn with
  | nil =>
      intro object kept
      cases key <;> simp [kept?, after, empty, find?] at kept
  | append_singleton history step ih =>
      intro object kept
      cases step with
      | clear => simp [kept?_append_clear] at kept
      | parse text other =>
          by_cases same : other = some key
          · subst same
            rw [kept?_append_parse nonempty] at kept
            cases before : kept? history key with
            | some old =>
                rw [returned_of_kept before] at kept
                obtain rfl := Option.some.inj kept
                obtain ⟨first, member, parsed⟩ := ih before
                exact ⟨first, by simp [member], parsed⟩
            | none =>
                rw [returned_of_not_kept before, built] at kept
                cases parsed : Document.parse text with
                | error error => simp [parsed, Except.map, Except.toOption] at kept
                | ok tree =>
                    rw [parsed] at kept
                    obtain rfl := Option.some.inj kept
                    exact ⟨text, by simp, parsed⟩
          · rw [kept?_append_parse_of_ne same] at kept
            obtain ⟨first, member, parsed⟩ := ih kept
            exact ⟨first, by simp [member], parsed⟩

theorem tree_built (history : List Step) (text : Text) :
    (built history text).map TreeObject.tree = Document.parse text := by
  rw [built]
  cases Document.parse text <;> rfl

theorem tree_returned {history : List Step} {key : Option Text} {text : Text}
    (oneText : OneText (history ++ [.parse text key])) :
    (returned history key text).map TreeObject.tree = Document.parse text := by
  by_cases keyless : key = none ∨ key = some []
  · rw [(returned_of_keyless keyless history text).1, tree_built]
  · rw [not_or] at keyless
    obtain ⟨name, rfl⟩ := Option.ne_none_iff_exists'.mp keyless.1
    have nonempty : name ≠ [] := fun same => keyless.2 (congrArg some same)
    cases kept : kept? history name with
    | none => rw [returned_of_not_kept kept, tree_built]
    | some object =>
        obtain ⟨first, member, parsed⟩ := parsed_of_kept nonempty kept
        obtain rfl := oneText name nonempty text first (by simp) (by simp [member])
        rw [returned_of_kept kept, parsed]
        rfl

/-- What every parse of a session returns. With a key it is the object of the earliest successful
parse with that key since the last clear, whatever text is given; if there was none, or without a
key, it is a new tree of the text. Parses without a key and parses that fail keep nothing. So a
session that uses each key with one text returns what parsing each text afresh returns. -/
theorem returned_spec (history : List Step) (text : Text) :
    (∀ key ≠ [],
      (∀ object, Earliest history key object →
        returned history (some key) text = .ok object) ∧
      (Never history key → returned history (some key) text = built history text)) ∧
    (∀ key, key = none ∨ key = some [] →
      returned history key text = built history text ∧
      (after (history ++ [.parse text key])).kept = (after history).kept) ∧
    (∀ key error, returned history key text = .error error →
      Document.parse text = .error error ∧
      (after (history ++ [.parse text key])).kept = (after history).kept) ∧
    ∀ key later, OneText (history ++ .parse text key :: later) →
      (returned history key text).map TreeObject.tree =
        (returned [] key text).map TreeObject.tree := by
  refine ⟨?_, ?_, ?_, ?_⟩
  · intro key nonempty
    constructor
    · intro object earliest
      exact returned_of_kept (kept?_of_earliest nonempty earliest) text
    · intro never
      exact returned_of_not_kept (kept?_of_never nonempty never) text
  · intro key keyless
    exact returned_of_keyless keyless history text
  · intro key error failed
    exact kept_of_failed failed
  · intro key later oneText
    have sofar : OneText (history ++ [.parse text key]) :=
      oneText.of_subset fun step member => by
        rcases List.mem_append.mp member with old | last
        · simp [old]
        · simp [List.mem_singleton.mp last]
    have alone : OneText ([] ++ [.parse text key]) :=
      oneText.of_subset fun step member => by simp [List.mem_singleton.mp member]
    rw [tree_returned sofar, tree_returned alone]

theorem returned_spec_after_failure :
    returned [.clear, .parse "</A>" (some "page"), .parse "<B/>" (some "page")] (some "page")
        "<C/>" =
      .ok ⟨2, .root [.component "B" [] [] (some ⟨1, 1⟩)] (some ⟨1, 1⟩)⟩ ∧
    (returned [.parse "<B/>" (some "page")] (some "page") "<B/>").map TreeObject.tree =
      (returned [] (some "page") "<B/>").map TreeObject.tree := by
  have earliest : Earliest [.clear, .parse "</A>" (some "page"), .parse "<B/>" (some "page")] "page"
      ⟨2, .root [.component "B" [] [] (some ⟨1, 1⟩)] (some ⟨1, 1⟩)⟩ := by
    refine ⟨[.clear, .parse "</A>" (some "page")], ⟨"<B/>", [], rfl, by simp, rfl⟩, ?_⟩
    rintro earlier other ⟨text, between, split, -, same⟩
    rcases earlier with _ | ⟨step, _ | ⟨next, rest⟩⟩
    · simp at split
    · simp only [List.cons_append, List.nil_append, List.cons.injEq] at split
      obtain ⟨rfl, parsed, -⟩ := split
      obtain ⟨rfl, -⟩ := Step.parse.inj parsed
      cases same
    · simp
  have oneText : OneText [.parse "<B/>" (some "page"), .parse "<B/>" (some "page")] := by
    intro key _ text other first second
    simp only [List.mem_cons, List.not_mem_nil, or_false, or_self, Step.parse.injEq] at first second
    rw [first.1, second.1]
  exact ⟨((returned_spec _ _).1 "page" (by decide)).1 _ earliest,
    (returned_spec [.parse "<B/>" (some "page")] "<B/>").2.2.2 (some "page") [] oneText⟩

end MdxCheck.Document.Session
