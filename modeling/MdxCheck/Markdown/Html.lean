import MdxCheck.Text.CaseFold

/-!
Raw HTML in Markdown: the tags, comments, instructions, declarations and character data that stand
inside text, and the lines that open and close a block of HTML.
-/

namespace MdxCheck.Markdown.Html

/-- What follows the text `start` where case does not matter, if the text opens with it; `start`
is in lower case. -/
def dropCaseless? : Text → Text → Option Text
  | [], text => some text
  | _ :: _, [] => none
  | s :: start, c :: text => if Text.foldLetter c = s then dropCaseless? start text else none

def dropTagName? : Text → Option Text
  | [] => none
  | c :: text =>
    if c.isAlpha then some (text.dropWhile fun c => c.isAlphanum || c == '-') else none

def isBareValueChar (c : Char) : Bool :=
  32 < c.toNat && !(c == '"' || c == '\'' || c == '=' || c == '<' || c == '>' || c == '`')

/-- What may follow a value without quotes: it reaches as far as it can, or ends before a blank. -/
def bareValueRests : Text → List Text
  | [] => []
  | c :: rest =>
    if isBareValueChar c then
      match bareValueRests rest with
      | [] => [rest]
      | rests =>
        match rest with
        | d :: _ => if Text.isBlank d then rests ++ [rest] else rests
        | [] => rests
    else []

def valueRests (text : Text) : List Text :=
  bareValueRests text ++
    match text with
    | c :: inside =>
      if c = '\'' ∨ c = '"' then ((Text.cut? c inside).map Prod.snd).toList else []
    | [] => []

/-- What may follow a value after some blanks, of which the value may take the last. -/
def spacedValueRests : Text → List Text
  | [] => []
  | c :: rest =>
    if Text.isBlank c then spacedValueRests rest ++ bareValueRests (c :: rest)
    else valueRests (c :: rest)

def attributeRests (text : Text) : List Text :=
  match text with
  | [] => []
  | blank :: _ =>
    if Text.isBlank blank then
      match text.dropWhile Text.isBlank with
      | [] => []
      | c :: named =>
        if c.isAlpha || c == '_' || c == ':' then
          let rest := named.dropWhile fun c =>
            c.isAlphanum || c == ':' || c == '.' || c == '_' || c == '-'
          match rest.dropWhile Text.isBlank with
          | '=' :: value => spacedValueRests value ++ [rest]
          | _ => [rest]
        else []
    else []

def dropTagEnd? (text : Text) : Option Text :=
  match text.dropWhile Text.isBlank with
  | '>' :: rest => some rest
  | '/' :: '>' :: rest => some rest
  | _ => none

/-- What follows attributes and the end of their tag, if `accept` allows it; `fuel` bounds the
number of attributes. -/
def dropAttributes? (accept : Text → Bool) : Nat → Text → Option Text
  | 0, _ => none
  | fuel + 1, text =>
    match (attributeRests text).findSome? (dropAttributes? accept fuel) with
    | some rest => some rest
    | none => (dropTagEnd? text).filter accept

/-- What follows an opening or a closing tag, if `accept` allows it. -/
def dropTag? (accept : Text → Bool) : Text → Option Text
  | '<' :: '/' :: text =>
    ((dropTagName? text).bind fun rest =>
      match rest.dropWhile Text.isBlank with
      | '>' :: rest => some rest
      | _ => none).filter accept
  | '<' :: text =>
    (dropTagName? text).bind fun rest => dropAttributes? accept (rest.length + 1) rest
  | _ => none

/-- What follows the first `stop` in the text. -/
def dropPast? (stop : Text) : Text → Option Text
  | [] => none
  | c :: rest =>
    match Text.dropStart? stop (c :: rest) with
    | some rest => some rest
    | none => dropPast? stop rest

/-- What follows the body of a comment and its end. Hyphens are read with the characters after
them, so that a comment ends at two hyphens and a bracket only where these stand by themselves. -/
def dropCommentBody? : Text → Option Text
  | [] => none
  | '-' :: '-' :: '>' :: rest => some rest
  | '-' :: '-' :: _ :: rest => dropCommentBody? rest
  | ['-', '-'] => none
  | '-' :: _ :: rest => dropCommentBody? rest
  | ['-'] => none
  | _ :: rest => dropCommentBody? rest

/-- What follows a comment; the two shortest comments have no body. -/
def dropComment? (text : Text) : Option Text :=
  (Text.dropStart? "<!-->" text).or <|
    (Text.dropStart? "<!--->" text).or <|
      (Text.dropStart? "<!--" text).bind dropCommentBody?

def dropDeclaration? : Text → Option Text
  | '<' :: '!' :: c :: text => if c.isAlpha then dropPast? ">" text else none
  | _ => none

def dropInline? (text : Text) : Option Text :=
  (dropTag? (fun _ => true) text).or <|
    (dropComment? text).or <|
      ((Text.dropStart? "<?" text).bind (dropPast? "?>")).or <|
        (dropDeclaration? text).or <|
          (Text.dropStart? "<![CDATA[" text).bind (dropPast? "]]>")

def literalTags : List Text :=
  (["script", "pre", "style", "textarea"] : List String).map String.toList

def blockTags : List Text :=
  (["address", "article", "aside", "base", "basefont", "blockquote", "body", "caption", "center",
    "col", "colgroup", "dd", "details", "dialog", "dir", "div", "dl", "dt", "fieldset",
    "figcaption", "figure", "footer", "form", "frame", "frameset", "h1", "h2", "h3", "h4", "h5",
    "h6", "head", "header", "hr", "html", "iframe", "legend", "li", "link", "main", "menu",
    "menuitem", "nav", "noframes", "ol", "optgroup", "option", "p", "param", "search", "section",
    "summary", "table", "tbody", "td", "tfoot", "th", "thead", "title", "tr", "track",
    "ul"] : List String).map String.toList

/-- How a block of HTML ends: after the line that holds one of some marks, or before an empty
line. -/
inductive BlockEnd where
  | literalTag
  | mark (stop : Text)
  | emptyLine
deriving DecidableEq, Repr

def endsName (slash : Bool) : Text → Bool
  | [] => true
  | '/' :: '>' :: _ => slash
  | c :: _ => Text.isBlank c || c == '>'

def startsWithTag (names : List Text) (slash : Bool) (text : Text) : Bool :=
  names.any fun name =>
    match dropCaseless? name text with
    | some rest => endsName slash rest
    | none => false

/-- How the block of HTML ends that a line with this content opens, and whether it can interrupt a
paragraph. -/
def blockEnd? (content : Text) : Option (BlockEnd × Bool) :=
  match content with
  | '<' :: text =>
    if startsWithTag literalTags false text then some (.literalTag, true)
    else if Text.startsWith "!--" text then some (.mark "-->", true)
    else if Text.startsWith "?" text then some (.mark "?>", true)
    else
      match text with
      | '!' :: c :: rest =>
        if c.isAlpha then some (.mark ">", true)
        else if Text.startsWith "[CDATA[" (c :: rest) then some (.mark "]]>", true)
        else none
      | _ =>
        let named := match text with
          | '/' :: rest => rest
          | _ => text
        if startsWithTag blockTags true named then some (.emptyLine, true)
        else if (dropTag? (fun rest => Text.isBlankText rest) content).isSome then
          some (.emptyLine, false)
        else none
  | _ => none

def closesLiteral : Text → Bool
  | [] => false
  | c :: rest =>
    (match Text.dropStart? "</" (c :: rest) with
      | some named => literalTags.any fun tag =>
          match dropCaseless? tag named with
          | some ('>' :: _) => true
          | _ => false
      | none => false) || closesLiteral rest

def BlockEnd.holdsOn (content : Text) : BlockEnd → Bool
  | literalTag => closesLiteral content
  | mark stop => Text.contains stop content
  | emptyLine => content.isEmpty

end MdxCheck.Markdown.Html
