import MdxCheck.Tag.Expression
import MdxCheck.Tree.Basic

/-!
The attributes of a component tag: bare names, names with a quoted value, names with an
expression, and spread expressions, which name nothing.
-/

namespace MdxCheck.Tag

def isAttributeChar (c : Char) : Bool :=
  !(Text.isBlank c || c == '=' || c == '<' || c == '>' || c == '/' || c == '"' || c == '\'' ||
    c == '{' || c == '}')

/-- The value that the text opens with, and the length of its source. What is neither quoted nor
an expression is no value. -/
def attributeValue (text : Text) : Option Text × Nat :=
  match text with
  | [] => (none, 0)
  | c :: inside =>
    if c = '"' ∨ c = '\'' then
      match Text.cut? c inside with
      | some (value, _) => (some value, value.length + 2)
      | none => (some inside, text.length)
    else if c = '{' then
      match expressionLength? text with
      | some length => (some (expressionValue (inside.take (length - 2))), length)
      | none => (some (expressionValue inside), text.length)
    else (none, 0)

/-- The attribute whose name the text opens with, and the length of its source. An equals sign
that nothing follows is no part of it. -/
def attributeAt (text : Text) : Attribute × Nat :=
  let name := text.takeWhile isAttributeChar
  let afterName := text.drop name.length
  match afterName.dropWhile Text.isBlank with
  | '=' :: afterEquals =>
    match afterEquals.dropWhile Text.isBlank with
    | [] => (⟨name, none⟩, name.length)
    | c :: rest =>
      let (value, length) := attributeValue (c :: rest)
      (⟨name, value⟩,
        name.length + Text.indentWidth afterName + 1 + Text.indentWidth afterEquals + length)
  | _ => (⟨name, none⟩, name.length)

/-- The attributes of a text whose first `skipped` characters belong to an attribute. -/
def attributesFrom (skipped : Nat) : Text → List Attribute
  | [] => []
  | c :: rest =>
    match skipped with
    | skipped + 1 => attributesFrom skipped rest
    | 0 =>
      if Text.isBlank c then attributesFrom 0 rest
      else if c = '{' then
        match expressionLength? (c :: rest) with
        | some length => attributesFrom (length - 1) rest
        | none => []
      else if isAttributeChar c then
        let (found, length) := attributeAt (c :: rest)
        found :: attributesFrom (length - 1) rest
      else attributesFrom 0 rest

def parseAttributes (source : Text) : List Attribute :=
  attributesFrom 0 source

end MdxCheck.Tag
