import MdxCheck.Yaml.Mark

/-!
The tokens of a YAML text.
-/

namespace MdxCheck.Yaml

inductive Style where
  | plain
  | quoted
  | block
deriving DecidableEq, Repr

structure TagSource where
  handle : Option Text
  suffix : Text
deriving DecidableEq, Repr

inductive Directive where
  | version (major minor : Nat)
  | tagHandle (handle replacement : Text)
  | other
deriving DecidableEq, Repr

inductive Lexeme where
  | directive (content : Directive)
  | documentStart
  | documentEnd
  | streamEnd
  | blockSequenceStart
  | blockMappingStart
  | blockEnd
  | flowSequenceStart
  | flowSequenceEnd
  | flowMappingStart
  | flowMappingEnd
  | key
  | value
  | blockEntry
  | flowEntry
  | aliasName (name : Text)
  | anchor (name : Text)
  | tag (source : TagSource)
  | scalar (value : Text) (style : Style)
deriving DecidableEq, Repr

def Lexeme.name : Lexeme → Text
  | directive _ => "<directive>"
  | documentStart => "<document start>"
  | documentEnd => "<document end>"
  | streamEnd => "<stream end>"
  | blockSequenceStart => "<block sequence start>"
  | blockMappingStart => "<block mapping start>"
  | blockEnd => "<block end>"
  | flowSequenceStart => "["
  | flowSequenceEnd => "]"
  | flowMappingStart => "\x7b"
  | flowMappingEnd => "\x7d"
  | key => "?"
  | value => ":"
  | blockEntry => "-"
  | flowEntry => ","
  | aliasName _ => "<alias>"
  | anchor _ => "<anchor>"
  | tag _ => "<tag>"
  | scalar _ _ => "<scalar>"

structure Token where
  lexeme : Lexeme
  start : Mark
  stop : Mark
deriving DecidableEq, Repr

end MdxCheck.Yaml
