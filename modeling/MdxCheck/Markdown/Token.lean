import MdxCheck.Text.Basic

/-!
The structure of a Markdown text as a list of tokens: containers open and close, inline content
and leaves stand between.

Tokens are handed on by the names of their types. There are more of these than Markdown by itself has
tokens for, since tables and the like can be added to it.
-/

namespace MdxCheck.Markdown

inductive ContainerKind where
  | blockquote
  | bulletList
  | orderedList
  | listItem
  | heading
  | paragraph
deriving DecidableEq, Repr

inductive LeafKind where
  | thematicBreak
  | fencedCode
  | indentedCode
  | html
deriving DecidableEq, Repr

/-- A token; the line is the number of its first line, the first of the text being zero, and `past`
that of the line after its last one. -/
inductive Token where
  | opening (kind : ContainerKind) (line : Nat)
  | closing
  | inline (source : Text) (line : Nat)
  | leaf (kind : LeafKind) (content : Text) (line past : Nat)
deriving DecidableEq, Repr

/-- A token by its type. One that closes has a type too, but the one that opened settles what it is. The
line is the number of its first line, if it is known. -/
inductive TypedToken where
  | opening (type : Text) (line : Option Nat)
  | closing
  | single (type content : Text) (line : Option Nat)
deriving DecidableEq, Repr

def ContainerKind.type : ContainerKind → Text
  | blockquote => "blockquote_open"
  | bulletList => "bullet_list_open"
  | orderedList => "ordered_list_open"
  | listItem => "list_item_open"
  | heading => "heading_open"
  | paragraph => "paragraph_open"

def LeafKind.type : LeafKind → Text
  | thematicBreak => "hr"
  | fencedCode => "fence"
  | indentedCode => "code_block"
  | html => "html_block"

def Token.typed : Token → TypedToken
  | opening kind line => .opening kind.type line
  | closing => .closing
  | inline source line => .single "inline" source line
  | leaf kind content line _ => .single kind.type content line

def Token.wrap (kind : ContainerKind) (line : Nat) (tokens : List Token) : List Token :=
  .opening kind line :: (tokens ++ [.closing])

end MdxCheck.Markdown
