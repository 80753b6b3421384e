import MdxCheck.Tree.Basic
import MdxCheck.Text.Lines

/-!
Problems found in documents, and how they are shown.
-/

namespace MdxCheck

inductive Category where
  | mdx
  | frontmatter
  | frontmatterField
  | validation
  | imageImport
deriving DecidableEq, Repr

namespace Category

def all : List Category := [mdx, frontmatter, frontmatterField, validation, imageImport]

def label : Category → Text
  | mdx => "MDX_ERROR"
  | frontmatter => "FRONTMATTER_ERROR"
  | frontmatterField => "FRONTMATTER_FIELD_ERROR"
  | validation => "VALIDATION_ERROR"
  | imageImport => "IMAGE_IMPORT_ERROR"

def ofLabel? (label : Text) : Option Category :=
  all.find? fun category => category.label == label

end Category

/-- One problem. The line and the column are missing where the problem is about a document as a
whole, the file until it is known. -/
structure Diagnostic where
  reason : Text
  category : Category
  line : Option Int := none
  column : Option Int := none
  file : Option Text := none
  snippet : Option Text := none
deriving DecidableEq, Repr

namespace Diagnostic

def atPosition (position : Position) (reason : Text) (category : Category := .validation) :
    Diagnostic :=
  { reason := reason
    category := category
    line := some position.line
    column := some position.column }

def withFile (diagnostic : Diagnostic) (file : Text) : Diagnostic :=
  { diagnostic with file := some file }

def location (diagnostic : Diagnostic) : Text :=
  let file := match diagnostic.file with
    | none | some [] => "<document>".toList
    | some file => file
  match diagnostic.line, diagnostic.column with
  | none, _ => file
  | some line, none => file ++ ":" ++ Text.decimalInt line
  | some line, some column => file ++ ":" ++ Text.decimalInt line ++ ":" ++ Text.decimalInt column

def snippetLines (diagnostic : Diagnostic) : List Text :=
  match diagnostic.snippet with
  | none | some [] => []
  | some snippet => "  Snippet:".toList :: (Text.lines snippet).map ("    ".toList ++ ·)

def format (diagnostic : Diagnostic) : Text :=
  Text.unlines <|
    ("[" ++ diagnostic.category.label ++ "] " ++ diagnostic.location) ::
    ("  " ++ diagnostic.reason) :: diagnostic.snippetLines

end Diagnostic

end MdxCheck
