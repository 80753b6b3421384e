import MdxCheck.Markdown.Entity
import MdxCheck.Text.CaseFold
import MdxCheck.Text.Punctuation
import MdxCheck.Url.Address

/-!
The parts of links: destinations, titles and labels.
-/

namespace MdxCheck.Markdown

/-- The text without escaping backslashes and with its character references resolved; the first
`skipped` characters are done. -/
def unescapeFrom (skipped : Nat) : Text → Text
  | [] => []
  | c :: rest =>
    match skipped with
    | skipped + 1 => unescapeFrom skipped rest
    | 0 =>
      match c, rest with
      | '\\', d :: _ =>
        if Text.isAsciiPunctuation d then d :: unescapeFrom 1 rest else '\\' :: unescapeFrom 0 rest
      | '&', _ =>
        match Text.cut? ';' rest with
        | some (name, _) =>
          match entityValue? name with
          | some form => form ++ unescapeFrom (name.length + 1) rest
          | none => '&' :: unescapeFrom 0 rest
        | none => '&' :: unescapeFrom 0 rest
      | c, _ => c :: unescapeFrom 0 rest

def unescape (text : Text) : Text :=
  unescapeFrom 0 text

/-- The number of characters of a destination in angle brackets that follow the opening bracket,
the closing one included. -/
def bracketedTail? : Text → Option Nat
  | [] => none
  | '\\' :: _ :: rest => (bracketedTail? rest).map (· + 2)
  | c :: rest =>
    if c = '\n' ∨ c = '<' then none
    else if c = '>' then some 1
    else (bracketedTail? rest).map (· + 1)

/-- The number of characters of a destination without brackets, inside `depth` parentheses that
are open; these have to balance, and no more than 32 may be open at once. -/
def bareDestination? (depth : Nat) : Text → Option Nat
  | [] => if depth = 0 then some 0 else none
  | '\\' :: d :: rest =>
    if d = ' ' then (if depth = 0 then some 0 else none)
    else (bareDestination? depth rest).map (· + 2)
  | c :: rest =>
    if c.toNat ≤ 32 ∨ c.toNat = 127 then (if depth = 0 then some 0 else none)
    else if c = '(' then
      if depth < 32 then (bareDestination? (depth + 1) rest).map (· + 1) else none
    else if c = ')' then
      if depth = 0 then some 0 else (bareDestination? (depth - 1) rest).map (· + 1)
    else (bareDestination? depth rest).map (· + 1)

def destination? (text : Text) : Option (Text × Nat) :=
  match text with
  | '<' :: rest =>
    (bracketedTail? rest).map fun length => (unescape (rest.take (length - 1)), length + 1)
  | text =>
    match bareDestination? 0 text with
    | some (length + 1) => some (unescape (text.take (length + 1)), length + 1)
    | _ => none

/-- How reading a title ends: at its closing mark after so many characters, without one at the end
of the text, or at a character that no title holds. -/
inductive TitleEnd where
  | closed (length : Nat)
  | unclosed
  | broken
deriving DecidableEq, Repr

def TitleEnd.later (count : Nat) : TitleEnd → TitleEnd
  | closed length => closed (length + count)
  | other => other

def titleTail (mark : Char) : Text → TitleEnd
  | [] => .unclosed
  | '\\' :: _ :: rest => (titleTail mark rest).later 2
  | c :: rest =>
    if c = mark then .closed 1
    else if c = '(' ∧ mark = ')' then .broken
    else (titleTail mark rest).later 1

def titleMark? (c : Char) : Option Char :=
  if c = '"' ∨ c = '\'' then some c else if c = '(' then some ')' else none

def titleLength? : Text → Option Nat
  | [] => none
  | c :: rest =>
    match titleMark? c with
    | none => none
    | some mark =>
      match titleTail mark rest with
      | .closed length => some (length + 1)
      | _ => none

def collapseBlanks : Text → Text
  | [] => []
  | c :: rest =>
    if Text.isBlank c then
      match collapseBlanks rest with
      | ' ' :: rest => ' ' :: rest
      | rest => ' ' :: rest
    else c :: collapseBlanks rest

/-- The form of a label under which its definition is looked up: white space and letter case do
not matter. -/
def labelKey (label : Text) : Text :=
  Text.foldCase (collapseBlanks (Text.trim label))

end MdxCheck.Markdown
