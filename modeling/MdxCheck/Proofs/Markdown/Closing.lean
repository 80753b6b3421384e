import MdxCheck.Markdown.Inline
import MdxCheck.Proofs.Text.Cut

/-!
Raw HTML, addresses in angle brackets and character references end with the character that closes
them.
-/

namespace MdxCheck.Markdown

/-- What is left of a text behind a character that closes something in it. -/
def LeftBehind (stop : Char) (text rest : Text) : Prop :=
  ∃ inside, text = inside ++ stop :: rest

namespace LeftBehind

variable {stop : Char} {text inner rest : Text}

theorem of_suffix (inside : inner <:+ text) (left : LeftBehind stop inner rest) :
    LeftBehind stop text rest := by
  obtain ⟨front, rfl⟩ := inside
  obtain ⟨middle, rfl⟩ := left
  exact ⟨front ++ middle, (List.append_assoc _ _ _).symm⟩

theorem of_dropWhile {p : Char → Bool} (left : LeftBehind stop (text.dropWhile p) rest) :
    LeftBehind stop text rest :=
  left.of_suffix (List.dropWhile_suffix p)

theorem of_cons {c : Char} (left : LeftBehind stop text rest) : LeftBehind stop (c :: text) rest :=
  left.of_suffix (List.suffix_cons c text)

theorem of_dropStart {start : Text} (dropped : Text.dropStart? start text = some inner)
    (left : LeftBehind stop inner rest) : LeftBehind stop text rest :=
  left.of_suffix ⟨start, (Text.dropStart?_eq_some_iff.mp dropped).symm⟩

end LeftBehind

namespace Html

theorem leftBehind_dropPast (front : Text) {stop : Char} {text rest : Text}
    (dropped : dropPast? (front ++ [stop]) text = some rest) : LeftBehind stop text rest := by
  induction text with
  | nil => simp [dropPast?] at dropped
  | cons c text ih =>
      rw [dropPast?] at dropped
      split at dropped
      · next found =>
          obtain rfl := Option.some.inj dropped
          rw [Text.dropStart?_eq_some_iff, List.append_assoc] at found
          exact ⟨front, found⟩
      · exact (ih dropped).of_cons

theorem leftBehind_dropCommentBody {text rest : Text}
    (dropped : dropCommentBody? text = some rest) : LeftBehind '>' text rest := by
  fun_induction dropCommentBody? text with
  | case1 => simp at dropped
  | case2 others =>
      obtain rfl := Option.some.inj dropped
      exact ⟨['-', '-'], rfl⟩
  | case3 c others notClosed ih => exact (ih dropped).of_cons.of_cons.of_cons
  | case4 => simp at dropped
  | case5 c others _ _ _ ih => exact (ih dropped).of_cons.of_cons
  | case6 => simp at dropped
  | case7 c others _ _ _ _ _ ih => exact (ih dropped).of_cons

theorem suffix_of_bareValueRests {text rest : Text} (found : rest ∈ bareValueRests text) :
    rest <:+ text := by
  induction text with
  | nil => simp [bareValueRests] at found
  | cons c text ih =>
      have here : text <:+ c :: text := List.suffix_cons c text
      rw [bareValueRests] at found
      split at found
      · split at found
        · obtain rfl := List.mem_singleton.mp found
          exact here
        · next rests _ =>
            split at found
            · split at found
              · rcases List.mem_append.mp found with later | last
                · exact (ih later).trans here
                · obtain rfl := List.mem_singleton.mp last
                  exact here
              · exact (ih found).trans here
            · exact (ih found).trans here
      · simp at found

theorem suffix_of_valueRests {text rest : Text} (found : rest ∈ valueRests text) :
    rest <:+ text := by
  rcases List.mem_append.mp found with bare | quoted
  · exact suffix_of_bareValueRests bare
  · split at quoted
    · next c inside =>
        split at quoted
        · obtain ⟨⟨value, after⟩, cut, rfl⟩ :=
            Option.map_eq_some_iff.mp (Option.mem_toList.mp quoted)
          refine List.IsSuffix.trans ⟨value ++ [c], ?_⟩ (List.suffix_cons c inside)
          rw [Text.eq_of_cut cut, List.append_assoc]
          rfl
        · simp at quoted
    · simp at quoted

theorem suffix_of_spacedValueRests {text rest : Text} (found : rest ∈ spacedValueRests text) :
    rest <:+ text := by
  induction text with
  | nil => simp [spacedValueRests] at found
  | cons c text ih =>
      rw [spacedValueRests] at found
      split at found
      · rcases List.mem_append.mp found with later | bare
        · exact (ih later).trans (List.suffix_cons c text)
        · exact suffix_of_bareValueRests bare
      · exact suffix_of_valueRests found

theorem suffix_of_attributeRests {text rest : Text} (found : rest ∈ attributeRests text) :
    rest <:+ text := by
  unfold attributeRests at found
  split at found
  · simp at found
  · next blank others =>
      split at found
      · split at found
        · simp at found
        · next c named spaced =>
            have inside : named <:+ blank :: others :=
              (List.suffix_cons c named).trans (spaced ▸ List.dropWhile_suffix _)
            split at found
            · have name := (List.dropWhile_suffix (l := named) fun c =>
                c.isAlphanum || c == ':' || c == '.' || c == '_' || c == '-').trans inside
              dsimp only at found
              split at found
              · next value equals =>
                  rcases List.mem_append.mp found with valued | bare
                  · refine (suffix_of_spacedValueRests valued).trans ?_
                    refine (List.suffix_cons '=' value).trans ?_
                    exact (equals ▸ List.dropWhile_suffix _).trans name
                  · obtain rfl := List.mem_singleton.mp bare
                    exact name
              · obtain rfl := List.mem_singleton.mp found
                exact name
            · simp at found
      · simp at found

theorem leftBehind_dropTagEnd {text rest : Text} (dropped : dropTagEnd? text = some rest) :
    LeftBehind '>' text rest := by
  unfold dropTagEnd? at dropped
  split at dropped
  · next others closed =>
      obtain rfl := Option.some.inj dropped
      exact LeftBehind.of_dropWhile ⟨[], closed⟩
  · next others closed =>
      obtain rfl := Option.some.inj dropped
      exact LeftBehind.of_dropWhile ⟨['/'], closed⟩
  · simp at dropped

theorem leftBehind_dropAttributes {accept : Text → Bool} {fuel : Nat} {text rest : Text}
    (dropped : dropAttributes? accept fuel text = some rest) : LeftBehind '>' text rest := by
  induction fuel generalizing text with
  | zero => simp [dropAttributes?] at dropped
  | succ fuel ih =>
      rw [dropAttributes?] at dropped
      split at dropped
      · next found =>
          obtain rfl := Option.some.inj dropped
          obtain ⟨inner, member, later⟩ := List.exists_of_findSome?_eq_some found
          exact (ih later).of_suffix (suffix_of_attributeRests member)
      · exact leftBehind_dropTagEnd (Option.filter_eq_some_iff.mp dropped).1

theorem suffix_of_dropTagName {text rest : Text} (dropped : dropTagName? text = some rest) :
    rest <:+ text := by
  unfold dropTagName? at dropped
  split at dropped
  · simp at dropped
  · next c others =>
      split at dropped
      · obtain rfl := Option.some.inj dropped
        exact (List.dropWhile_suffix _).trans (List.suffix_cons c others)
      · simp at dropped

theorem leftBehind_dropTag {accept : Text → Bool} {text rest : Text}
    (dropped : dropTag? accept text = some rest) : LeftBehind '>' text rest := by
  unfold dropTag? at dropped
  split at dropped
  · next inside =>
      obtain ⟨inner, named, closed⟩ :=
        Option.bind_eq_some_iff.mp (Option.filter_eq_some_iff.mp dropped).1
      split at closed
      · next others found =>
          obtain rfl := Option.some.inj closed
          have left : LeftBehind '>' inner others := LeftBehind.of_dropWhile ⟨[], found⟩
          exact (left.of_suffix (suffix_of_dropTagName named)).of_cons.of_cons
      · simp at closed
  · next inside _ =>
      obtain ⟨inner, named, closed⟩ := Option.bind_eq_some_iff.mp dropped
      exact ((leftBehind_dropAttributes closed).of_suffix (suffix_of_dropTagName named)).of_cons
  · simp at dropped

theorem leftBehind_dropComment {text rest : Text} (dropped : dropComment? text = some rest) :
    LeftBehind '>' text rest := by
  simp only [dropComment?, Option.or_eq_some_iff, Option.bind_eq_some_iff] at dropped
  rcases dropped with shortest | ⟨-, short | ⟨-, inner, opened, closed⟩⟩
  · have whole : text = "<!-->".toList ++ rest := Text.dropStart?_eq_some_iff.mp shortest
    exact ⟨['<', '!', '-', '-'], whole⟩
  · have whole : text = "<!--->".toList ++ rest := Text.dropStart?_eq_some_iff.mp short
    exact ⟨['<', '!', '-', '-', '-'], whole⟩
  · exact (leftBehind_dropCommentBody closed).of_dropStart opened

theorem leftBehind_dropDeclaration {text rest : Text}
    (dropped : dropDeclaration? text = some rest) : LeftBehind '>' text rest := by
  unfold dropDeclaration? at dropped
  split at dropped
  · split at dropped
    · exact (leftBehind_dropPast [] dropped).of_cons.of_cons.of_cons
    · simp at dropped
  · simp at dropped

theorem leftBehind_dropInline {text rest : Text} (dropped : dropInline? text = some rest) :
    LeftBehind '>' text rest := by
  simp only [dropInline?, Option.or_eq_some_iff, Option.bind_eq_some_iff] at dropped
  rcases dropped with tag | ⟨-, comment | ⟨-, ⟨inner, opened, closed⟩ | ⟨-, declaration |
    ⟨-, inner, opened, closed⟩⟩⟩⟩
  · exact leftBehind_dropTag tag
  · exact leftBehind_dropComment comment
  · exact (leftBehind_dropPast ['?'] closed).of_dropStart opened
  · exact leftBehind_dropDeclaration declaration
  · exact (leftBehind_dropPast [']', ']'] closed).of_dropStart opened

end Html

theorem inside_of_address {text address : Text} (found : Autolink.address? text = some address) :
    ∃ rest, text = '<' :: (address ++ '>' :: rest) := by
  have closed : ∀ {text inside : Text}, Autolink.inside? text = some inside →
      ∃ rest, text = inside ++ '>' :: rest := by
    intro text
    induction text with
    | nil => simp [Autolink.inside?]
    | cons c text ih =>
        intro inside found
        rw [Autolink.inside?] at found
        split at found
        · simp at found
        split at found
        · next same =>
            obtain rfl := Option.some.inj found
            exact ⟨text, by rw [same, List.nil_append]⟩
        · obtain ⟨inner, later, rfl⟩ := Option.map_eq_some_iff.mp found
          obtain ⟨rest, same⟩ := ih later
          exact ⟨rest, by rw [same, List.cons_append]⟩
  unfold Autolink.address? at found
  split at found
  · obtain ⟨rest, same⟩ := closed (Option.filter_eq_some_iff.mp found).1
    exact ⟨rest, by rw [same]⟩
  · simp at found

theorem leftBehind_entityAt {text form rest : Text} (found : entityAt? text = some (form, rest)) :
    LeftBehind ';' text rest := by
  unfold entityAt? at found
  split at found
  · next inner =>
      simp only [Option.bind_eq_bind, Option.bind_eq_some_iff] at found
      obtain ⟨⟨number, after⟩, cut, code, -, same⟩ := found
      obtain ⟨-, rfl⟩ := Prod.mk.inj (Option.some.inj same)
      exact LeftBehind.of_cons (LeftBehind.of_cons ⟨number, Text.eq_of_cut cut⟩)
  · next inner _ =>
      simp only [Option.bind_eq_bind, Option.bind_eq_some_iff] at found
      obtain ⟨⟨name, after⟩, cut, value, -, same⟩ := found
      obtain ⟨-, rfl⟩ := Prod.mk.inj (Option.some.inj same)
      exact LeftBehind.of_cons ⟨name, Text.eq_of_cut cut⟩
  · simp at found

end MdxCheck.Markdown
