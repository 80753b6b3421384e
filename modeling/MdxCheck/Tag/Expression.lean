import MdxCheck.Text.Basic

/-!
Brace expressions in component tags. Braces nest, and those in string literals do not count; a
backslash in a literal takes the next character with it.
-/

namespace MdxCheck.Tag

def isLiteralQuote (c : Char) : Bool :=
  c == '"' || c == '\'' || c == '`'

/-- The number of characters until the outermost of `opened` open braces is closed, the closing
brace included; `quote` is the quote of the literal that the text starts in, if any. -/
def braceTail? (opened : Nat) (quote : Option Char) : Text → Option Nat
  | [] => none
  | c :: rest =>
    match quote with
    | some q =>
      if c = '\\' then
        match rest with
        | [] => none
        | _ :: rest => (braceTail? opened (some q) rest).map (· + 2)
      else (braceTail? opened (if c = q then none else some q) rest).map (· + 1)
    | none =>
      if isLiteralQuote c then (braceTail? opened (some c) rest).map (· + 1)
      else if c = '{' then (braceTail? (opened + 1) none rest).map (· + 1)
      else if c = '}' then
        if opened = 1 then some 1 else (braceTail? (opened - 1) none rest).map (· + 1)
      else (braceTail? opened none rest).map (· + 1)

/-- The length of the expression that the text opens with; the text starts at its brace. -/
def expressionLength? (text : Text) : Option Nat :=
  braceTail? 0 none text

/-- The value that the inside of an expression gives to an attribute: a text in quotes of one kind
loses them, anything else stays source without the white space around it. -/
def expressionValue (inside : Text) : Text :=
  match Text.trim inside with
  | [] => []
  | c :: rest =>
    if rest.getLast? = some c ∧ isLiteralQuote c then rest.dropLast else c :: rest

end MdxCheck.Tag
