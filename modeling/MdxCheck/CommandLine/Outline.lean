import MdxCheck.Document.Parse
import MdxCheck.Files.Store
import MdxCheck.Tree.Walk
import MdxCheck.Verification.Report

/-!
The tree of one document in print: a line for each node, indented by its depth.
-/

namespace MdxCheck.CommandLine

open Verification (Printed)

/-- The start of the text of a paragraph or of a text; other nodes show none. -/
def excerpt (node : Node) : Text :=
  if node.kind = "paragraph".toList ∨ node.kind = "text".toList then
    (node.content.map fun c => if c = '\n' then ' ' else c).take 40
  else []

def nodeLine (depth : Nat) (node : Node) : Text :=
  let label := match node.name? with
    | none | some [] => node.kind
    | some name => name
  let place : Text := match node.position with
    | some position => Text.decimalInt position.line ++ ":" ++ Text.decimalInt position.column
    | none => "-"
  Text.trimEnd (List.replicate (2 * depth) ' ' ++ label ++ " [" ++ place ++ "] " ++ excerpt node)

def outline (tree : Node) : Printed :=
  .ofOutput ((tree.outline 0).map fun (depth, node) => nodeLine depth node)

def outlineUsage : Printed :=
  .ofOutput
    ["Usage: mdx_parser.py <mdx_file>", "",
      "Parses an MDX file and prints its document tree."]

inductive OutlineFailure where
  | file (fault : Files.Fault)
  | notText (error : Text.Utf8Error)
deriving DecidableEq, Repr

/-- The text of a file; its bytes have to be UTF-8. -/
def strictText (files : Files) (path : Text) : Except OutlineFailure Text :=
  let place := Path.ofText path
  match files.read place with
  | .error error => .error (.file error.fault)
  | .ok bytes => do
    return Files.plainBreaks (← (Text.decodeUtf8 bytes).mapError .notText)

/-- Prints the tree of the document that the first argument names; the result tells whether there is
one. -/
def showTree (files : Files) : List Text → Except OutlineFailure (Bool × Printed)
  | [] => .ok (false, outlineUsage)
  | path :: _ => do
    match Document.parse (← strictText files path) with
    | .ok tree => return (true, outline tree)
    | .error error =>
      let position := error.position
      return (false, .ofErrors ["Parse error at " ++ Text.decimalInt position.line ++ ":" ++
        Text.decimalInt position.column ++ ": " ++ error.reason])

end MdxCheck.CommandLine
