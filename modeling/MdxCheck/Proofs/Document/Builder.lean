import MdxCheck.Document.Builder
import MdxCheck.Proofs.Data.Result

/-!
The steps of building a tree: adding nodes, taking or refusing a tag, and adding parts.
-/

namespace MdxCheck.Document.Builder

@[simp] theorem add_nil (builder : Builder) : builder.add [] = builder := by
  cases builder with
  | mk nodes opened => cases opened <;> simp [add]

theorem add_add (builder : Builder) (first second : List Node) :
    (builder.add first).add second = builder.add (first ++ second) := by
  cases builder with
  | mk nodes opened => cases opened <;> simp [add]

/-- What a builder becomes with a tag that it takes: a closing tag puts the innermost open
component among the nodes around it, and other tags add a component or leave one open. -/
inductive Takes (tag : Tag) (place : Position) : Builder → Builder → Prop
  | closing {nodes inner outer} : tag.closing = true → inner.name = tag.name →
      Takes tag place ⟨nodes, inner :: outer⟩
        (add ⟨nodes, outer⟩
          [.component inner.name inner.attributes inner.children (some inner.position)])
  | selfClosing {builder} : tag.closing = false → tag.selfClosing = true →
      Takes tag place builder
        (builder.add [.component tag.name (Tag.parseAttributes tag.attributes) [] (some place)])
  | opening {nodes opened} : tag.closing = false → tag.selfClosing = false →
      Takes tag place ⟨nodes, opened⟩
        ⟨nodes, ⟨tag.name, Tag.parseAttributes tag.attributes, place, []⟩ :: opened⟩

inductive Refuses (tag : Tag) (place : Position) : Builder → ParseError → Prop
  | stray {nodes} : tag.closing = true →
      Refuses tag place ⟨nodes, []⟩ (.strayClosing tag.name place)
  | wrong {nodes inner outer} : tag.closing = true → inner.name ≠ tag.name →
      Refuses tag place ⟨nodes, inner :: outer⟩
        (.wrongClosing tag.name place inner.name inner.position)

theorem handle_spec (builder : Builder) (tag : Tag) (place : Position) :
    match builder.handle tag place with
    | .ok next => Takes tag place builder next
    | .error error => Refuses tag place builder error := by
  cases builder with
  | mk nodes opened =>
      cases closing : tag.closing with
      | true =>
          cases opened with
          | nil =>
              simp only [handle, closing, ↓reduceIte]
              exact .stray closing
          | cons inner outer =>
              by_cases same : inner.name = tag.name
              · simp only [handle, closing, same, ↓reduceIte]
                rw [← same]
                exact .closing closing same
              · simp only [handle, closing, same, ↓reduceIte]
                exact .wrong closing same
      | false =>
          cases self : tag.selfClosing with
          | true =>
              simp only [handle, closing, self, Bool.false_eq_true, ↓reduceIte]
              exact .selfClosing closing self
          | false =>
              simp only [handle, closing, self, Bool.false_eq_true, ↓reduceIte]
              exact .opening closing self

theorem takes_of_handle {builder next : Builder} {tag : Tag} {place : Position}
    (handled : builder.handle tag place = .ok next) : Takes tag place builder next := by
  have spec := handle_spec builder tag place
  rw [handled] at spec
  exact spec

theorem refuses_of_handle {builder : Builder} {tag : Tag} {place : Position} {error : ParseError}
    (refused : builder.handle tag place = .error error) : Refuses tag place builder error := by
  have spec := handle_spec builder tag place
  rw [refused] at spec
  exact spec

theorem Takes.handle {builder next : Builder} {tag : Tag} {place : Position}
    (takes : Takes tag place builder next) : builder.handle tag place = .ok next := by
  cases takes with
  | closing closing same => simp [Builder.handle, closing, same]
  | selfClosing notClosing self => simp [Builder.handle, notClosing, self]
  | opening notClosing notSelf => simp [Builder.handle, notClosing, notSelf]

theorem addParts_prose (builder : Builder) (number : Nat) (prose : List Text) (parts : List Part) :
    builder.addParts (proseBefore number prose ++ parts) =
      (builder.add (proseNodes (number - prose.length) prose.reverse)).addParts parts := by
  cases prose with
  | nil => simp [proseBefore, proseNodes]
  | cons line prose => simp [proseBefore, addParts, addPart, bind, Except.bind]

theorem addParts_append (builder : Builder) (front back : List Part) :
    builder.addParts (front ++ back) =
      (builder.addParts front >>= fun next => next.addParts back) := by
  induction front generalizing builder with
  | nil => rfl
  | cons part front ih =>
      simp only [List.cons_append, Builder.addParts, bind_assoc]
      cases builder.addPart part with
      | error error => rfl
      | ok next => exact ih next

theorem addParts_cons_ok {builder next : Builder} {part : Part} {parts : List Part}
    (added : builder.addParts (part :: parts) = .ok next) :
    ∃ after, builder.addPart part = .ok after ∧ after.addParts parts = .ok next :=
  exists_of_bind_ok added

end MdxCheck.Document.Builder
