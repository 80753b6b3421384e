import MdxCheck.Text.Quoted
import MdxCheck.Yaml.Token

/-!
What can be wrong with a YAML text, and how that is said.
-/

namespace MdxCheck.Yaml

inductive Context where
  | nextToken
  | simpleKey
  | directive
  | directivePrefix
  | anchor
  | aliasName
  | tag
  | tagSuffix
  | blockScalar
  | quotedScalar
  | escapedScalar
  | node
  | blockNode
  | flowNode
  | blockCollection
  | blockMapping
  | flowSequence
  | flowMapping
  | singleDocument
  | firstAnchor (name : Text)
  | mapping
  | orderedMap
  | pairs
deriving DecidableEq, Repr

def Context.message : Context → Text
  | nextToken => "while scanning for the next token"
  | simpleKey => "while scanning a simple key"
  | directive => "while scanning a directive"
  | directivePrefix => "while parsing a directive"
  | anchor => "while scanning an anchor"
  | aliasName => "while scanning an alias"
  | tag => "while scanning a tag"
  | tagSuffix => "while parsing a tag"
  | blockScalar => "while scanning a block scalar"
  | quotedScalar => "while scanning a quoted scalar"
  | escapedScalar => "while scanning a double-quoted scalar"
  | node => "while parsing a node"
  | blockNode => "while parsing a block node"
  | flowNode => "while parsing a flow node"
  | blockCollection => "while parsing a block collection"
  | blockMapping => "while parsing a block mapping"
  | flowSequence => "while parsing a flow sequence"
  | flowMapping => "while parsing a flow mapping"
  | singleDocument => "expected a single document in the stream"
  | firstAnchor name => "found duplicate anchor " ++ Text.quoted name ++ "; first occurrence"
  | mapping => "while constructing a mapping"
  | orderedMap => "while constructing an ordered map"
  | pairs => "while constructing pairs"

/-- What is wrong at a place. A missing character is the end of the text. -/
inductive Fault where
  | noTokenStart (found : Option Char)
  | noColon
  | strayEntry
  | strayKey
  | strayValue
  | noName (found : Option Char)
  | noDigit (found : Option Char)
  | noDigitOrPeriod (found : Option Char)
  | noDigitOrSpace (found : Option Char)
  | noSpace (found : Option Char)
  | noLineEnd (found : Option Char)
  | noHandle (found : Option Char)
  | noUri (found : Option Char)
  | noUriEscape (found : Option Char)
  | badUriBytes (reason : Text)
  | noTagEnd (found : Option Char)
  | noIndentDigit
  | noBlockIndicator (found : Option Char)
  | noHexDigits (count : Nat) (found : Option Char)
  | unknownEscape (found : Option Char)
  | unfinishedQuote
  | documentInQuote
  | noDocumentStart (found : Text)
  | twoVersions
  | badVersion
  | twoHandles (handle : Text)
  | unknownHandle (handle : Text)
  | noContent (found : Text)
  | noBlockEnd (found : Text)
  | noFlowEnd (closing : Char) (found : Text)
  | unknownAlias (name : Text)
  | secondAnchor
  | secondDocument
  | unknownTag (tag : Text)
  | noKind (expected found : Text)
  | badMerge (found : Text)
  | badMergeItem (found : Text)
  | unhashableKey
  | noSequence (found : Text)
  | noSinglePair (found : Text)
  | badPairCount (count : Nat)
  | badAscii (reason : Text)
  | badBase64 (reason : Text)
deriving DecidableEq, Repr

namespace Fault

/-- A character in quotes; the end of the text counts as the character zero. -/
def shown (found : Option Char) : Text :=
  Text.quoted [found.getD '\x00']

def message : Fault → Text
  | noTokenStart found => "found character " ++ shown found ++ " that cannot start any token"
  | noColon => "could not find expected ':'"
  | strayEntry => "sequence entries are not allowed here"
  | strayKey => "mapping keys are not allowed here"
  | strayValue => "mapping values are not allowed here"
  | noName found => "expected alphabetic or numeric character, but found " ++ shown found
  | noDigit found => "expected a digit, but found " ++ shown found
  | noDigitOrPeriod found => "expected a digit or '.', but found " ++ shown found
  | noDigitOrSpace found => "expected a digit or ' ', but found " ++ shown found
  | noSpace found => "expected ' ', but found " ++ shown found
  | noLineEnd found => "expected a comment or a line break, but found " ++ shown found
  | noHandle found => "expected '!', but found " ++ shown found
  | noUri found => "expected URI, but found " ++ shown found
  | noUriEscape found =>
    "expected URI escape sequence of 2 hexadecimal numbers, but found " ++ shown found
  | badUriBytes reason => reason
  | noTagEnd found => "expected '>', but found " ++ shown found
  | noIndentDigit => "expected indentation indicator in the range 1-9, but found 0"
  | noBlockIndicator found =>
    "expected chomping or indentation indicators, but found " ++ shown found
  | noHexDigits count found =>
    "expected escape sequence of " ++ Text.decimal count ++ " hexadecimal numbers, but found " ++
      shown found
  | unknownEscape found => "found unknown escape character " ++ shown found
  | unfinishedQuote => "found unexpected end of stream"
  | documentInQuote => "found unexpected document separator"
  | noDocumentStart found => "expected '<document start>', but found " ++ Text.quoted found
  | twoVersions => "found duplicate YAML directive"
  | badVersion => "found incompatible YAML document (version 1.* is required)"
  | twoHandles handle => "duplicate tag handle " ++ Text.quoted handle
  | unknownHandle handle => "found undefined tag handle " ++ Text.quoted handle
  | noContent found => "expected the node content, but found " ++ Text.quoted found
  | noBlockEnd found => "expected <block end>, but found " ++ Text.quoted found
  | noFlowEnd closing found =>
    "expected ',' or '" ++ [closing] ++ "', but got " ++ Text.quoted found
  | unknownAlias name => "found undefined alias " ++ Text.quoted name
  | secondAnchor => "second occurrence"
  | secondDocument => "but found another document"
  | unknownTag tag => "could not determine a constructor for the tag " ++ Text.quoted tag
  | noKind expected found => "expected a " ++ expected ++ " node, but found " ++ found
  | badMerge found =>
    "expected a mapping or list of mappings for merging, but found " ++ found
  | badMergeItem found => "expected a mapping for merging, but found " ++ found
  | unhashableKey => "found unhashable key"
  | noSequence found => "expected a sequence, but found " ++ found
  | noSinglePair found => "expected a mapping of length 1, but found " ++ found
  | badPairCount count =>
    "expected a single mapping item, but found " ++ Text.decimal count ++ " items"
  | badAscii reason => "failed to convert base64 data into ascii: " ++ reason
  | badBase64 reason => "failed to decode base64 data: " ++ reason

end Fault

structure Error where
  context : Option (Context × Mark)
  fault : Fault
  mark : Mark
deriving DecidableEq, Repr

namespace Error

def bare (fault : Fault) (mark : Mark) : Error := ⟨none, fault, mark⟩

/-- A fault found while reading something from `start` on. -/
def within (context : Context) (start : Mark) (fault : Fault) (mark : Mark) : Error :=
  ⟨some (context, start), fault, mark⟩

def noToken (found : Option Char) (mark : Mark) : Error :=
  ⟨some (.nextToken, mark), .noTokenStart found, mark⟩

/-- The whole report: the context and its place, unless that is the place of the fault, then the
fault and its place, each with the line around it. -/
def describe (source : Text) (error : Error) : Text :=
  let place (mark : Mark) : Text := mark.describe source
  let context := match error.context with
    | none => []
    | some (context, start) =>
      context.message ::
        if start.line = error.mark.line ∧ start.column = error.mark.column then []
        else [place start]
  Text.join ['\n'] (context ++ [error.fault.message, place error.mark])

end Error

end MdxCheck.Yaml
