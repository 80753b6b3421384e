import MdxCheck.Text.Utf8
import MdxCheck.Yaml.Scalar

/-!
From a YAML text to its tokens.

Indentation opens and closes block collections. A token that may turn out to start a key waits
until that is decided: a colon after it puts the key token before it, and the end of the line
settles that it is no key.
-/

namespace MdxCheck.Yaml

inductive ScanFailure where
  | error (error : Error)
  | badCode (code : Nat)
deriving DecidableEq, Repr

structure KeyStart where
  number : Nat
  required : Bool
  mark : Mark
deriving DecidableEq, Repr

/-- The state of a scan: the cursor, the number of open flow collections, the columns of the open
block collections, whether a key may start here, the possible keys by flow level, the tokens that
wait, and the number of those that have left. -/
structure Scanner where
  cursor : Cursor
  flow : Nat
  indent : Int
  outer : List Int
  mayStartKey : Bool
  keys : List (Nat × KeyStart)
  waiting : List Token
  taken : Nat
  finished : Bool

namespace Scanner

/-- The start of a text. A byte order mark before it does not count. -/
def start (text : Text) : Scanner :=
  let cursor := Cursor.start text
  { cursor := if cursor.peek? = some '\uFEFF' then cursor.skip 1 else cursor
    flow := 0
    indent := -1
    outer := []
    mayStartKey := true
    keys := []
    waiting := []
    taken := 0
    finished := false }

def mark (scanner : Scanner) : Mark := scanner.cursor.mark

def emit (scanner : Scanner) (lexeme : Lexeme) : Scanner :=
  { scanner with waiting := scanner.waiting ++ [⟨lexeme, scanner.mark, scanner.mark⟩] }

def emitTo (scanner : Scanner) (lexeme : Lexeme) (cursor : Cursor) : Scanner :=
  { scanner with
    waiting := scanner.waiting ++ [⟨lexeme, scanner.mark, cursor.mark⟩]
    cursor := cursor }

def emitNext (scanner : Scanner) (lexeme : Lexeme) (count : Nat) : Scanner :=
  scanner.emitTo lexeme (scanner.cursor.skip count)

def allowKey (scanner : Scanner) (allowed : Bool) : Scanner :=
  { scanner with mayStartKey := allowed }

def missingColon (scanner : Scanner) (key : KeyStart) : Error :=
  .within .simpleKey key.mark .noColon scanner.mark

/-- Forgets the possible keys that are too far back: on an earlier line, or more than 1024
characters away. -/
def dropStale (scanner : Scanner) : Except Error Scanner :=
  let isStale (key : KeyStart) : Bool :=
    key.mark.line != scanner.mark.line || key.mark.index + 1024 < scanner.mark.index
  match scanner.keys.find? fun (_, key) => isStale key && key.required with
  | some (_, key) => .error (scanner.missingColon key)
  | none => .ok { scanner with keys := scanner.keys.filter fun (_, key) => !isStale key }

def dropKey (scanner : Scanner) : Except Error Scanner :=
  match scanner.keys.lookup scanner.flow with
  | some key =>
    if key.required then .error (scanner.missingColon key)
    else .ok { scanner with keys := scanner.keys.filter fun (level, _) => level != scanner.flow }
  | none => .ok scanner

/-- Remembers that the next token may start a key. It has to be one if it stands at the column of
the block collection around it. -/
def saveKey (scanner : Scanner) : Except Error Scanner :=
  if scanner.mayStartKey then do
    let required := scanner.flow == 0 && scanner.indent == (scanner.cursor.column : Int)
    let scanner ← scanner.dropKey
    let key : KeyStart := ⟨scanner.taken + scanner.waiting.length, required, scanner.mark⟩
    return { scanner with keys := scanner.keys ++ [(scanner.flow, key)] }
  else return scanner

/-- Closes the block collections that lie right of a column. -/
def closeBlocks (column : Int) : List Int → Scanner → Scanner
  | [], scanner => scanner
  | indent :: outer, scanner =>
    if column < scanner.indent then
      closeBlocks column outer ({ scanner with indent := indent, outer := outer }.emit .blockEnd)
    else scanner

/-- Closes the block collections that lie right of a column; inside flow collections columns do not
matter. -/
def unwind (scanner : Scanner) (column : Int) : Scanner :=
  if scanner.flow = 0 then closeBlocks column scanner.outer scanner else scanner

/-- Opens a block collection at a column, if it lies right of those that are open. -/
def openBlock (scanner : Scanner) (column : Int) : Option Scanner :=
  if scanner.indent < column then
    some { scanner with indent := column, outer := scanner.indent :: scanner.outer }
  else none

def openHere (scanner : Scanner) (lexeme : Lexeme) : Scanner :=
  match scanner.openBlock scanner.cursor.column with
  | some scanner => scanner.emit lexeme
  | none => scanner

/-- Skips spaces, comments and line breaks; `fuel` bounds the number of lines. After a line break a
key may start, unless a flow collection is open. -/
def skipBlanks : Nat → Scanner → Scanner
  | 0, scanner => scanner
  | fuel + 1, scanner =>
    let cursor := scanner.cursor.skipSpaces.skipComment
    match cursor.lineBreak? with
    | some (_, cursor) =>
      skipBlanks fuel { scanner with
        cursor := cursor, mayStartKey := scanner.mayStartKey || scanner.flow == 0 }
    | none => { scanner with cursor := cursor }

def isNameChar (c : Char) : Bool :=
  c.isAlphanum || c == '-' || c == '_'

def anchorName (context : Context) (cursor : Cursor) : Except Error (Text × Cursor) :=
  let (name, stop) := (cursor.skip 1).takeWhile isNameChar
  let mayEnd := atBlank stop.rest ||
    ((stop.peek?.map fun c => "?:,]\x7d%@`".toList.contains c).getD false)
  if name.isEmpty || !mayEnd then
    .error (.within context cursor.mark (.noName stop.peek?) stop.mark)
  else .ok (name, stop)

def isUriChar (c : Char) : Bool :=
  c.isAlphanum || "-;/?:@&=+$,_.!~*'()[]".toList.contains c

def uriBytes (context : Context) (start : Mark) :
    Nat → Cursor → Except Error (List Nat × Cursor)
  | 0, cursor => .ok ([], cursor)
  | fuel + 1, cursor =>
    match cursor.rest with
    | '%' :: rest =>
      let digits := (rest.take 2).takeWhile isHexDigit
      if digits.length < 2 then
        .error (.within context start (.noUriEscape (rest[digits.length]?)) (cursor.skip 1).mark)
      else do
        let (bytes, cursor) ← uriBytes context start fuel (cursor.skip 3)
        return (Text.toNat 16 digits :: bytes, cursor)
    | _ => .ok ([], cursor)

def uriFrom (context : Context) (start : Mark) : Nat → Cursor → Except Error (Text × Cursor)
  | 0, cursor => .ok ([], cursor)
  | fuel + 1, cursor => do
    let (piece, cursor) := cursor.takeWhile isUriChar
    if cursor.peek? = some '%' then
      let (bytes, next) ← uriBytes context start (cursor.rest.length + 1) cursor
      match Text.decodeUtf8 bytes with
      | .ok text =>
        let (further, next) ← uriFrom context start fuel next
        return (piece ++ text ++ further, next)
      | .error error => .error (.within context start (.badUriBytes error.message) cursor.mark)
    else return (piece, cursor)

def uri (context missing : Context) (start : Mark) (cursor : Cursor) :
    Except Error (Text × Cursor) := do
  let (text, stop) ← uriFrom context start (cursor.rest.length + 1) cursor
  if stop.mark.index = cursor.mark.index then
    .error (.within missing start (.noUri stop.peek?) stop.mark)
  else return (text, stop)

/-- Reads the handle of a tag: an exclamation mark by itself or a name between two of them. -/
def tagHandle (context : Context) (start : Mark) (cursor : Cursor) :
    Except Error (Text × Cursor) :=
  match cursor.rest with
  | '!' :: rest =>
    if rest.head? = some ' ' then .ok (['!'], cursor.skip 1)
    else
      let (name, stop) := (cursor.skip 1).takeWhile isNameChar
      if stop.peek? = some '!' then .ok ('!' :: (name ++ ['!']), stop.skip 1)
      else .error (.within context start (.noHandle stop.peek?) stop.mark)
  | _ => .error (.within context start (.noHandle cursor.peek?) cursor.mark)

def hasHandle : Text → Bool
  | [] => false
  | c :: rest =>
    if c == '!' then true else if c == ' ' || isBreak c then false else hasHandle rest

def tagSource (cursor : Cursor) : Except Error (TagSource × Cursor) := do
  let start := cursor.mark
  let (source, stop) : TagSource × Cursor ← match cursor.rest.drop 1 with
    | '<' :: _ => do
      let (suffix, stop) ← uri .tag .tagSuffix start (cursor.skip 2)
      if stop.peek? = some '>' then pure (⟨none, suffix⟩, stop.skip 1)
      else .error (.within .tagSuffix start (.noTagEnd stop.peek?) stop.mark)
    | rest => do
      if atBlank rest then pure (⟨none, ['!']⟩, cursor.skip 1)
      else
        let (handle, stop) ←
          if hasHandle rest then tagHandle .tag start cursor else pure (['!'], cursor.skip 1)
        let (suffix, stop) ← uri .tag .tagSuffix start stop
        pure (⟨some handle, suffix⟩, stop)
  if atSpace stop.rest then return (source, stop)
  else .error (.within .tag start (.noSpace stop.peek?) stop.mark)

def directiveNumber (start : Mark) (cursor : Cursor) : Except Error (Nat × Cursor) :=
  let (digits, stop) := cursor.takeWhile Char.isDigit
  if digits.isEmpty then .error (.within .directive start (.noDigit stop.peek?) stop.mark)
  else .ok (Text.toNat 10 digits, stop)

def directiveContent (start : Mark) (name : Text) (cursor : Cursor) :
    Except Error (Directive × Cursor) :=
  if name = "YAML".toList then do
    let (major, cursor) ← directiveNumber start cursor.skipSpaces
    if cursor.peek? ≠ some '.' then
      .error (.within .directive start (.noDigitOrPeriod cursor.peek?) cursor.mark)
    let (minor, cursor) ← directiveNumber start (cursor.skip 1)
    if atSpace cursor.rest then return (.version major minor, cursor)
    else .error (.within .directive start (.noDigitOrSpace cursor.peek?) cursor.mark)
  else if name = "TAG".toList then do
    let (handle, cursor) ← tagHandle .directive start cursor.skipSpaces
    if cursor.peek? ≠ some ' ' then
      .error (.within .directive start (.noSpace cursor.peek?) cursor.mark)
    let (replacement, cursor) ← uri .directive .directivePrefix start cursor.skipSpaces
    if atSpace cursor.rest then return (.tagHandle handle replacement, cursor)
    else .error (.within .directive start (.noSpace cursor.peek?) cursor.mark)
  else .ok (.other, cursor.skipWhile fun c => !isBreak c)

def directiveAt (cursor : Cursor) : Except Error (Directive × Mark × Cursor) := do
  let start := cursor.mark
  let (name, stop) := (cursor.skip 1).takeWhile isNameChar
  if name.isEmpty || !atSpace stop.rest then
    .error (.within .directive start (.noName stop.peek?) stop.mark)
  let (content, stop) ← directiveContent start name stop
  let next ← skipLineEnd .directive start stop
  return (content, stop.mark, next)

def fetchDirective (scanner : Scanner) : Except Error Scanner := do
  let scanner := scanner.unwind (-1)
  let scanner ← scanner.dropKey
  let (content, stop, next) ← directiveAt scanner.cursor
  return { scanner with
    mayStartKey := false
    cursor := next
    waiting := scanner.waiting ++ [⟨.directive content, scanner.mark, stop⟩] }

def fetchDocumentMark (scanner : Scanner) (lexeme : Lexeme) : Except Error Scanner := do
  let scanner ← (scanner.unwind (-1)).dropKey
  return (scanner.allowKey false).emitNext lexeme 3

def fetchEnd (scanner : Scanner) : Except Error Scanner := do
  let scanner ← (scanner.unwind (-1)).dropKey
  return { (scanner.emit .streamEnd) with mayStartKey := false, keys := [], finished := true }

def fetchFlowStart (scanner : Scanner) (lexeme : Lexeme) : Except Error Scanner := do
  let scanner ← scanner.saveKey
  return ({ scanner with flow := scanner.flow + 1 }.allowKey true).emitNext lexeme 1

def fetchFlowEnd (scanner : Scanner) (lexeme : Lexeme) : Except Error Scanner := do
  let scanner ← scanner.dropKey
  return ({ scanner with flow := scanner.flow - 1 }.allowKey false).emitNext lexeme 1

def fetchFlowEntry (scanner : Scanner) : Except Error Scanner := do
  let scanner ← scanner.dropKey
  return (scanner.allowKey true).emitNext .flowEntry 1

def fetchEntry (scanner : Scanner) : Except Error Scanner := do
  if scanner.flow = 0 ∧ !scanner.mayStartKey then
    .error (.bare .strayEntry scanner.mark)
  let scanner := if scanner.flow = 0 then scanner.openHere .blockSequenceStart else scanner
  let scanner ← scanner.dropKey
  return (scanner.allowKey true).emitNext .blockEntry 1

def fetchKey (scanner : Scanner) : Except Error Scanner := do
  if scanner.flow = 0 ∧ !scanner.mayStartKey then
    .error (.bare .strayKey scanner.mark)
  let scanner := if scanner.flow = 0 then scanner.openHere .blockMappingStart else scanner
  let scanner ← scanner.dropKey
  return (scanner.allowKey (scanner.flow == 0)).emitNext .key 1

/-- Puts a token before the waiting token of a possible key. -/
def insertBefore (scanner : Scanner) (key : KeyStart) (lexeme : Lexeme) : Scanner :=
  let place := key.number - scanner.taken
  { scanner with
    waiting := scanner.waiting.take place ++ ⟨lexeme, key.mark, key.mark⟩ ::
      scanner.waiting.drop place }

/-- Reads the colon before a value, which makes a key of the token that may be one. -/
def fetchValue (scanner : Scanner) : Except Error Scanner := do
  match scanner.keys.lookup scanner.flow with
  | some key =>
    let scanner := { scanner with
      keys := scanner.keys.filter fun (level, _) => level != scanner.flow }
    let scanner := scanner.insertBefore key .key
    let opened := if scanner.flow = 0 then scanner.openBlock key.mark.column else none
    let scanner := match opened with
      | some scanner => scanner.insertBefore key .blockMappingStart
      | none => scanner
    return (scanner.allowKey false).emitNext .value 1
  | none =>
    if scanner.flow = 0 ∧ !scanner.mayStartKey then
      .error (.bare .strayValue scanner.mark)
    let scanner := if scanner.flow = 0 then scanner.openHere .blockMappingStart else scanner
    let scanner ← (scanner.allowKey (scanner.flow == 0)).dropKey
    return scanner.emitNext .value 1

def fetchKeyLike (scanner : Scanner) (read : Cursor → Except ScanFailure (Lexeme × Cursor)) :
    Except ScanFailure Scanner := do
  let scanner ← scanner.saveKey.mapError .error
  let (lexeme, cursor) ← read scanner.cursor
  return (scanner.allowKey false).emitTo lexeme cursor

def readProperty (c : Char) (cursor : Cursor) : Except Error (Lexeme × Cursor) :=
  if c = '*' then (anchorName .aliasName cursor).map fun (name, cursor) => (.aliasName name, cursor)
  else if c = '&' then (anchorName .anchor cursor).map fun (name, cursor) => (.anchor name, cursor)
  else (tagSource cursor).map fun (source, cursor) => (.tag source, cursor)

def readQuoted (quote : Char) (cursor : Cursor) : Except ScanFailure (Lexeme × Cursor) :=
  match quotedScalar quote cursor with
  | .ok (value, cursor) => .ok (.scalar value .quoted, cursor)
  | .error (.error error) => .error (.error error)
  | .error (.badCode code) => .error (.badCode code)

def fetchBlock (scanner : Scanner) (folded : Bool) : Except Error Scanner := do
  let scanner ← (scanner.allowKey true).dropKey
  let (value, cursor) ← blockScalar folded scanner.indent scanner.cursor
  return scanner.emitTo (.scalar value .block) cursor

def fetchPlain (scanner : Scanner) : Except Error Scanner := do
  let scanner ← scanner.saveKey
  let scalar := plainScalar (scanner.flow != 0) (scanner.indent + 1) scanner.cursor
  return { scanner with
    mayStartKey := scalar.atLineStart
    cursor := scalar.cursor
    waiting := scanner.waiting ++ [⟨.scalar scalar.value .plain, scanner.mark, scalar.stop⟩] }

def startsPlain (scanner : Scanner) (c : Char) (rest : Text) : Bool :=
  !(c == ' ' || c == '\t' || isBreak c || "-?:,[]\x7b\x7d#&*!|>'\"%@`".toList.contains c) ||
    (!atBlank rest && (c == '-' || (scanner.flow == 0 && (c == '?' || c == ':'))))

def fetch (scanner : Scanner) : Except ScanFailure Scanner := do
  let scanner := skipBlanks (scanner.cursor.rest.length + 1) scanner
  let scanner ← scanner.dropStale.mapError .error
  let scanner := scanner.unwind scanner.cursor.column
  let inBlock := scanner.flow == 0
  match scanner.cursor.rest with
  | [] => scanner.fetchEnd.mapError .error
  | c :: rest =>
    let atLineStart := scanner.cursor.column == 0
    if c = '%' ∧ atLineStart then scanner.fetchDirective.mapError .error
    else if atLineStart ∧ scanner.cursor.atDocumentMark then
      (scanner.fetchDocumentMark
        (if c = '-' then .documentStart else .documentEnd)).mapError .error
    else if c = '[' then (scanner.fetchFlowStart .flowSequenceStart).mapError .error
    else if c = '\x7b' then (scanner.fetchFlowStart .flowMappingStart).mapError .error
    else if c = ']' then (scanner.fetchFlowEnd .flowSequenceEnd).mapError .error
    else if c = '\x7d' then (scanner.fetchFlowEnd .flowMappingEnd).mapError .error
    else if c = ',' then scanner.fetchFlowEntry.mapError .error
    else if c = '-' ∧ atBlank rest then scanner.fetchEntry.mapError .error
    else if c = '?' ∧ (!inBlock ∨ atBlank rest) then scanner.fetchKey.mapError .error
    else if c = ':' ∧ (!inBlock ∨ atBlank rest) then scanner.fetchValue.mapError .error
    else if c = '*' ∨ c = '&' ∨ c = '!' then
      scanner.fetchKeyLike fun cursor => (readProperty c cursor).mapError .error
    else if (c = '|' ∨ c = '>') ∧ inBlock then (scanner.fetchBlock (c == '>')).mapError .error
    else if c = '\'' ∨ c = '"' then scanner.fetchKeyLike (readQuoted c)
    else if scanner.startsPlain c rest then scanner.fetchPlain.mapError .error
    else .error (.error (.noToken (some c) scanner.mark))

/-- Whether the first waiting token may still turn out to start a key. -/
def isOpen (scanner : Scanner) : Bool :=
  scanner.keys.any fun (_, key) => key.number == scanner.taken

/-- The tokens of a text in order, and why there are no more of them, if something is wrong. -/
def run : Nat → Scanner → List Token × Option ScanFailure
  | 0, _ => ([], none)
  | fuel + 1, scanner =>
    match scanner.waiting with
    | [] =>
      if scanner.finished then ([], none)
      else
        match scanner.fetch with
        | .ok scanner => run fuel scanner
        | .error failure => ([], some failure)
    | token :: waiting =>
      if scanner.finished then (token :: waiting, none)
      else
        match scanner.dropStale with
        | .error error => ([], some (.error error))
        | .ok scanner =>
          if scanner.isOpen then
            match scanner.fetch with
            | .ok scanner => run fuel scanner
            | .error failure => ([], some failure)
          else
            let (tokens, failure) :=
              run fuel { scanner with waiting := waiting, taken := scanner.taken + 1 }
            (token :: tokens, failure)

end Scanner

def tokens (text : Text) : List Token × Option ScanFailure :=
  Scanner.run (8 * text.length + 32) (.start text)

end MdxCheck.Yaml
