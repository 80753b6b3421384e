import MdxCheck.Document.Builder

/-!
From the text of a document to its tree.
-/

namespace MdxCheck.Document

def endPosition (lines : List Text) : Position :=
  ⟨lines.length, ((lines.getLast?.map List.length).getD 0) + 1⟩

def dataNode (lines : List Text) : Node :=
  .element "yaml" [] (some (Text.unlines lines)) (some ⟨1, 1⟩)

/-- The nodes of the body of a document, which starts with line `number`. -/
def parseBody (number : Nat) (nodes : List Node) (body lines : List Text) :
    Except ParseError (List Node) := do
  let builder ← (Builder.empty.add nodes).addParts (partsFrom .plain 0 number [] body)
  builder.finish (endPosition lines)

def parse (text : Text) : Except ParseError Node := do
  let lines := Text.lines text
  let nodes ← match splitData? lines with
    | some (inside, body) => parseBody (inside.length + 3) [dataNode inside] body lines
    | none => parseBody 1 [] lines lines
  return .root nodes (some ⟨1, 1⟩)

end MdxCheck.Document
