import MdxCheck.Proofs.Tag.Scan

/-!
Source that holds tags and white space only. Such source may be put together and cut at line feeds
between tags, and its tags are those of the pieces.
-/

namespace MdxCheck.Tag

def bare (tag : Tag) : Tag :=
  { tag with start := 0, stop := 0 }

theorem bare_ofOpening (offset : Nat) (opening : Opening) (length : Nat) :
    (ofOpening offset opening length).bare = (ofOpening 0 opening length).bare := by
  rfl

/-- Source of these tags, their places apart, with white space between them. -/
inductive Spaced : Text → List Tag → Prop
  | done : Spaced [] []
  | blank {c rest tags} : Text.isBlank c = true → Spaced rest tags → Spaced (c :: rest) tags
  | tag {text opening length tags} : opening? text = some opening →
      tail? 0 none opening.rest = some length →
      Spaced (text.drop (opening.length + length)) tags →
      Spaced text ((ofOpening 0 opening length).bare :: tags)

theorem ofOpening_append {opening : Opening} {length : Nat}
    (ends : tail? 0 none opening.rest = some length) (offset : Nat) (more : Text) :
    ofOpening offset ⟨opening.closing, opening.name, opening.rest ++ more⟩ length =
      ofOpening offset opening length := by
  have bound := (tail?_append ends []).2.2
  simp only [ofOpening, Opening.length]
  rw [List.take_append_of_le_length (by omega)]

theorem drop_tag_append {text : Text} {opening : Opening} {length : Nat}
    (found : opening? text = some opening) (ends : tail? 0 none opening.rest = some length)
    (more : Text) :
    (text ++ more).drop (opening.length + length) =
      text.drop (opening.length + length) ++ more := by
  have bound := (tail?_append ends []).2.2
  obtain ⟨rfl, -, -⟩ := opening?_eq_some found
  refine List.drop_append_of_le_length ?_
  rw [List.length_append, openingSource_length]
  omega

theorem Spaced.append {first second : Text} {tags others : List Tag} (left : Spaced first tags)
    (right : Spaced second others) : Spaced (first ++ second) (tags ++ others) := by
  induction left with
  | done => exact right
  | blank isBlank _ ih => exact .blank isBlank ih
  | @tag text opening length tags found ends _ ih =>
      obtain ⟨longer, positive, bound⟩ := tail?_append ends second
      -- the tag has an end, so something other than `second` follows its name
      have named : endsName (opening.rest ++ second) = true := by
        have kept := (opening?_eq_some found).2.2
        cases rest : opening.rest with
        | nil => simp [rest] at bound; omega
        | cons c tail =>
            rw [rest] at kept
            exact kept
      have whole := opening?_append found second named
      have spaced := @Spaced.tag _ _ _ (tags ++ others) whole longer
      simp only [ofOpening_append ends] at spaced
      refine spaced ?_
      have dropped := drop_tag_append found ends second
      simp only [Opening.length] at dropped ih ⊢
      rw [dropped]
      exact ih

theorem Spaced.of_blank {gap : Text} (blank : ∀ c ∈ gap, Text.isBlank c = true) :
    Spaced gap [] := by
  induction gap with
  | nil => exact .done
  | cons c rest ih =>
      exact .blank (blank c (by simp)) (ih fun d member => blank d (by simp [member]))

theorem opening?_of_isBlank {c : Char} (blank : Text.isBlank c = true) (rest : Text) :
    opening? (c :: rest) = none := by
  unfold opening?
  split
  · rename_i same
    obtain ⟨rfl, -⟩ := List.cons.inj same
    exact absurd blank (by decide)
  · rename_i same
    obtain ⟨rfl, -⟩ := List.cons.inj same
    exact absurd blank (by decide)
  · rfl

theorem Spaced.scan {text : Text} {tags : List Tag} (spaced : Spaced text tags) (offset : Nat) :
    (scanFrom 0 offset text).unterminated = none ∧
      (scanFrom 0 offset text).tags.map bare = tags := by
  induction spaced generalizing offset with
  | done => simp [scanFrom]
  | blank isBlank _ ih =>
      rw [scanFrom_of_not_opening (opening?_of_isBlank isBlank _)]
      exact ih (offset + 1)
  | tag found ends _ ih =>
      rw [scanFrom_of_tag found ends]
      obtain ⟨complete, same⟩ := ih (offset + _ + _)
      exact ⟨complete, by simp [same, bare_ofOpening]⟩

/-- Where the tags of a first line all end, the lines after it are read on their own. -/
theorem Spaced.split_line {text : Text} {tags : List Tag} (spaced : Spaced text tags) :
    ∀ first second offset, text = first ++ '\n' :: second →
      (scanFrom 0 offset first).unterminated = none →
      ∃ before after, tags = before ++ after ∧ Spaced first before ∧ Spaced second after := by
  induction spaced with
  | done => intro first second offset split; simp at split
  | @blank c rest tags isBlank spaced ih =>
      intro first second offset split complete
      cases first with
      | nil =>
          obtain ⟨rfl, rfl⟩ := List.cons.inj split
          exact ⟨[], tags, rfl, .done, spaced⟩
      | cons d first =>
          simp only [List.cons_append, List.cons.injEq] at split
          obtain ⟨rfl, rest⟩ := split
          rw [scanFrom_of_not_opening (opening?_of_isBlank isBlank _)] at complete
          obtain ⟨before, after, same, left, right⟩ := ih first second _ rest complete
          exact ⟨before, after, same, .blank isBlank left, right⟩
  | @tag text opening length tags found ends spaced ih =>
      intro first second offset split complete
      subst split
      rw [opening?_append_line] at found
      obtain ⟨inner, opens, rfl⟩ := Option.map_eq_some_iff.mp found
      simp only at ends
      cases tail : tail? 0 none inner.rest with
      | none => simp [scanFrom_of_open opens tail] at complete
      | some count =>
          have same : count = length := by
            rw [(tail?_append tail _).1] at ends
            simpa using ends
          subst same
          rw [scanFrom_of_tag opens tail] at complete
          have dropped := drop_tag_append opens tail ('\n' :: second)
          obtain ⟨before, after, rfl, left, right⟩ := ih _ second _ dropped complete
          refine ⟨(ofOpening 0 inner count).bare :: before, after, ?_, .tag opens tail left, right⟩
          rw [ofOpening_append tail]
          rfl

end MdxCheck.Tag
