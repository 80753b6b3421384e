import MdxCheck.Pattern.Reader

/-!
From the text of a pattern to the pattern.

The recursion follows the nesting of groups; a count that no text exhausts bounds it.
-/

namespace MdxCheck.Pattern

/-- The number from which on a repetition cannot be counted. -/
def countLimit : Nat := 4294967295

/-- The longest way back that can be written down. -/
def codeLimit : Nat := 4294967295

def Greed.operator : Greed → Text
  | .most => "MAX_REPEAT"
  | .least => "MIN_REPEAT"
  | .possessive => "POSSESSIVE_REPEAT"

def Width.lookBehindFault? (width : Width) : Option Fault :=
  if codeLimit < width.least then some .farLookBehind
  else if width.isFixed then none
  else some .looseLookBehind

/-- The first fault of a pattern that shows only once its groups and flags are known. -/
def compileFault? (groups : List (Nat × Width)) (isTemplate : Bool) : Pattern → Option Fault
  | empty | edge _ | one _ | reference _ _ => none
  | sequence first second | either first second | ifGroup _ first second =>
    (first.compileFault? groups isTemplate).or (second.compileFault? groups isTemplate)
  | repeated _ _ greed body =>
    if isTemplate then some (.templateOperator greed.operator)
    else body.compileFault? groups isTemplate
  | group _ body | enclosed body | atomic body | ahead _ body => body.compileFault? groups isTemplate
  | behind _ body =>
    (body.width groups).lookBehindFault?.or (body.compileFault? groups isTemplate)

namespace Read

def isDigitOf (base : Nat) (c : Char) : Bool :=
  (Text.digitValue? base c).isSome

def controlCode? : Char → Option Nat
  | 'a' => some 7
  | 'b' => some 8
  | 'f' => some 12
  | 'n' => some 10
  | 'r' => some 13
  | 't' => some 9
  | 'v' => some 11
  | '\\' => some 92
  | _ => none

def kindOf? (flags : Flags) : Char → Option Member
  | 'd' => some (.ofKind .digit flags.ascii false)
  | 'D' => some (.ofKind .digit flags.ascii true)
  | 's' => some (.ofKind .blank flags.ascii false)
  | 'S' => some (.ofKind .blank flags.ascii true)
  | 'w' => some (.ofKind .word flags.ascii false)
  | 'W' => some (.ofKind .word flags.ascii true)
  | _ => none

def edgeOf? (flags : Flags) : Char → Option Edge
  | 'A' => some .textStart
  | 'Z' => some .textStop
  | 'b' => some (.word flags.ascii false)
  | 'B' => some (.word flags.ascii true)
  | _ => none

/-- The rest of an escape with exactly `count` digits of base 16. -/
def hexCode (escape : Text) (count : Nat) : Read Nat := do
  let digits ← takeUpTo (isDigitOf 16) count
  let whole := escape ++ digits
  let code := Text.toNat 16 digits
  if digits.length ≠ count then fail (.shortEscape whole) whole.length
  else if 0x10FFFF < code then fail (.badEscape whole) whole.length
  else return code

/-- The rest of an escape with the name of a character. -/
def namedCode : Read Nat := do
  if ← takeIf '\x7b' then
    let name ← takeName '\x7d' "character name"
    match (← get).naming name with
    | some c => return c.toNat
    | none => fail (.unknownCharacter name) (name.length + 4)
  else fail (.missing ['\x7b'])

def commonCode (escape : Text) (c : Char) : Read Nat :=
  match c with
  | 'x' => hexCode escape 2
  | 'u' => hexCode escape 4
  | 'U' => hexCode escape 8
  | 'N' => namedCode
  | c => if c.isAlphanum then fail (.badEscape escape) escape.length else return c.toNat

def octalCode (escape : Text) : Read Nat := do
  let code := Text.toNat 8 (escape.drop 1)
  if 0o377 < code then fail (.octalEscape escape) escape.length else return code

def setEscape (flags : Flags) (escape : Text) : Read Member := do
  let c := (escape.drop 1).headD ' '
  let single (code : Nat) : Member := .range code code
  match controlCode? c, kindOf? flags c with
  | some code, _ => return single code
  | _, some kind => return kind
  | none, none =>
    if isDigitOf 8 c then
      return single (← octalCode (escape ++ (← takeUpTo (isDigitOf 8) 2)))
    else return single (← commonCode escape c)

def codePattern (flags : Flags) (code : Nat) : Pattern :=
  .one { members := [.range code code], letterCase := flags.letterCase }

/-- The rest of an escape that starts with a digit from one on: a character by three octal digits, or
else a reference to a group. -/
def numberEscape (flags : Flags) (escape : Text) : Read Pattern := do
  let more ← takeUpTo Char.isDigit 1
  let escape := escape ++ more
  let isOctal := escape.length = 3 && (escape.drop 1).all (isDigitOf 8)
  let last ← if isOctal then takeUpTo (isDigitOf 8) 1 else pure []
  if last.isEmpty then
    let number := Text.toNat 10 (escape.drop 1)
    if number ≤ (← get).opened then referTo number escape.length flags
    else fail (.unknownGroup number) (escape.length - 1)
  else return codePattern flags (← octalCode (escape ++ last))

def escaped (flags : Flags) (escape : Text) : Read Pattern := do
  let c := (escape.drop 1).headD ' '
  match edgeOf? flags c, kindOf? flags c, controlCode? c with
  | some place, _, _ => return .edge place
  | _, some kind, _ => return .one { members := [kind], letterCase := flags.letterCase }
  | _, _, some code => return codePattern flags code
  | none, none, none =>
    if c = '0' then
      let escape := escape ++ (← takeUpTo (isDigitOf 8) 2)
      return codePattern flags (Text.toNat 8 (escape.drop 1))
    else if c.isDigit then numberEscape flags escape
    else return codePattern flags (← commonCode escape c)

def setToken (flags : Flags) (token : Text) : Read Member :=
  match token with
  | '\\' :: _ => setEscape flags token
  | c :: _ => return .range c.toNat c.toNat
  | [] => return .range 0 0

def rangeOf (firstToken lastToken : Text) (first last : Member) : Read Member :=
  match first, last with
  | .range low _, .range high _ =>
    if high < low then bad else return .range low high
  | _, _ => bad
where
  bad : Read Member :=
    fail (.badRange firstToken lastToken) (firstToken.length + 1 + lastToken.length)

/-- The members of a set from the next token on; `start` is the offset of the set. -/
def members (flags : Flags) (start : Nat) : Nat → List Member → Read (List Member)
  | 0, found => return found
  | fuel + 1, found => do
    let token ← take
    if token.isEmpty then failAt .openSet start
    else if token = [']'] ∧ !found.isEmpty then return found
    else
      let member ← setToken flags token
      if ← takeIf '-' then
        let last ← take
        if last.isEmpty then failAt .openSet start
        else if last = [']'] then return found ++ [member, .range 45 45]
        else
          let range ← rangeOf token last member (← setToken flags last)
          members flags start fuel (found ++ [range])
      else members flags start fuel (found ++ [member])

def letters (flags : Flags) : Read Pattern := do
  let start := (← place) - 1
  let negated ← takeIf '^'
  let found ← members flags start ((← get).rest.length + 1) []
  return .one { members := found, negated := negated, letterCase := flags.letterCase }

def countOf? (digits : Text) : Read (Option Nat) := do
  if digits.isEmpty then return none
  else if Decimal.digitLimit < digits.length then throw (.longCount digits.length)
  else if countLimit ≤ Text.toNat 10 digits then throw .hugeCount
  else return some (Text.toNat 10 digits)

/-- The counts in braces, behind the opening brace; without them the brace is an ordinary character,
and nothing is taken. -/
def bracedCounts? : Read (Option (Nat × Option Nat)) := do
  if (← peek) = ['\x7d'] then return none
  else
    let reader ← get
    let digits := takeUpTo Char.isDigit (reader.rest.length + 1)
    let least ← digits
    let most ← if ← takeIf ',' then digits else pure least
    if ← takeIf '\x7d' then
      let least := (← countOf? least).getD 0
      let most ← countOf? most
      match most with
      | some count => if count < least then failAt .reversedCounts reader.position
      | none => pure ()
      return some (least, most)
    else
      set reader
      return none

/-- The counts that a sign of repetition stands for; a brace may be an ordinary character. -/
def counts? (sign : Char) : Read (Option (Nat × Option Nat)) :=
  match sign with
  | '?' => return some (0, some 1)
  | '*' => return some (0, none)
  | '+' => return some (1, none)
  | _ => bracedCounts?

def greed : Read Greed := do
  if ← takeIf '?' then return .least
  else if ← takeIf '+' then return .possessive
  else return .most

/-- The repetition of the last of some patterns, the last first; its sign is at `start`. -/
def repeatLast (start : Nat) (least : Nat) (most : Option Nat) :
    List Pattern → Read (List Pattern)
  | [] | .edge _ :: _ => failAt .nothingToRepeat start
  | .repeated _ _ _ _ :: _ => failAt .repeatedTwice start
  | last :: before => return .repeated least most (← greed) last :: before

def isFlag (c : Char) : Bool :=
  "iLmsxatu".toList.contains c

/-- The letters of flags of which only one can be on. -/
def isTypeFlag (c : Char) : Bool :=
  "aLu".toList.contains c

def withFlag (value : Bool) (flags : Flags) : Char → Flags
  | 'i' => { flags with ignoresCase := value }
  | 'm' => { flags with multiline := value }
  | 's' => { flags with dotAll := value }
  | 'x' => { flags with spaced := value }
  | 'a' => { flags with ascii := value }
  | 'u' => { flags with ascii := !value }
  | _ => flags

/-- Takes the letter of a flag that has to come next; `missing` says what else might come. -/
def takeFlag (missing : Text) : Read Char := do
  match ← take with
  | [c] =>
    if isFlag c then return c
    else if Text.isLetter c then fail .unknownFlag 1
    else fail (.missing missing) 1
  | token => fail (.missing missing) token.length

/-- The letters of the flags to turn on, from `c` on, and the mark behind them. -/
def flagsOn : Nat → Text → Char → Read (Text × Char)
  | 0, found, c => return (found, c)
  | fuel + 1, found, c => do
    if c = 'L' then fail .localeFlag
    else
      let found := found ++ [c]
      if isTypeFlag c ∧ found.any fun flag => isTypeFlag flag && flag != c then fail .clashingFlags
      else
        match ← peek with
        | [mark] =>
          if mark = ')' ∨ mark = '-' ∨ mark = ':' then
            let _ ← take
            return (found, mark)
          else flagsOn fuel found (← takeFlag "-, : or )")
        | _ => flagsOn fuel found (← takeFlag "-, : or )")

def flagsOff : Nat → Text → Char → Read Text
  | 0, found, _ => return found
  | fuel + 1, found, c => do
    if isTypeFlag c then fail .typeFlagOff
    else
      let found := found ++ [c]
      if ← takeIf ':' then return found
      else flagsOff fuel found (← takeFlag ":")

/-- The flags of a group, from the letter or hyphen `c` on: those to turn on and those to turn off
inside of it. Flags without a group are to be on everywhere; then there is no result. -/
def groupFlags (c : Char) : Read (Option (Text × Text)) := do
  let fuel := (← get).rest.length + 1
  let (on, mark) ← if c = '-' then pure ([], '-') else flagsOn fuel [] c
  if mark = ')' then
    modify fun reader =>
      { reader with
        flags := on.foldl (withFlag true) reader.flags
        everywhere := reader.everywhere ++ on }
    return none
  else if on.any (· == 't') then fail .globalFlagOn 1
  else
    let off ← if mark = '-' then flagsOff fuel [] (← takeFlag "flag") else pure []
    if off.any (· == 't') then fail .globalFlagOff 1
    else if on.any fun flag => off.any (· == flag) then fail .flagOnAndOff 1
    else return some (on, off)

/-- Skips a comment of a pattern; the group with it starts at `start`. -/
def skipComment (start : Nat) : Nat → Read Unit
  | 0 => return
  | fuel + 1 => do
    let token ← peek
    if token.isEmpty then failAt .openComment start
    else
      let _ ← take
      if token = [')'] then return else skipComment start fuel

/-- Opens a group, perhaps with a name; the result is its number. -/
def openGroup (name : Option Text) : Read Nat := do
  let reader ← get
  let number := reader.opened + 1
  match name with
  | none =>
    set { reader with opened := number }
    return number
  | some name =>
    match reader.names.lookup name with
    | some first => fail (.takenName name number first) (name.length + 1)
    | none =>
      set { reader with opened := number, names := (name, number) :: reader.names }
      return number

def closeGroup (number : Nat) (body : Pattern) : Read Unit :=
  modify fun reader =>
    { reader with closed := (number, body.width reader.closed) :: reader.closed }

/-- Takes the closing bracket of a group that starts at `start`. -/
def closeBracket (start : Nat) : Read Unit := do
  if ← takeIf ')' then return else failAt .unclosedGroup start

def groupLimit : Nat := 1073741823

/-- The number that stands for a group: in the digits of any script, perhaps with a sign, with blanks
around them and with single underscores between them. -/
def groupNumber? (name : Text) : Option Nat :=
  let text := Decimal.normalized name
  let runs := Text.splitOn (· == '_') (Decimal.unsigned text)
  let digits := runs.flatten
  if runs.all (Decimal.isRun Char.isDigit) && digits.length ≤ Decimal.digitLimit then
    let number := Text.toNat 10 digits
    if text.head? = some '-' ∧ number ≠ 0 then none else some number
  else none

def conditionGroup : Read Nat := do
  let name ← takeName ')' "group name"
  let back := name.length + 1
  if Text.isIdentifier name then
    match (← get).names.lookup name with
    | some number => return number
    | none => fail (.unknownName name) back
  else
    match groupNumber? name with
    | none => fail (.badName name) back
    | some number =>
      if number = 0 then fail .groupZero back
      else if groupLimit ≤ number then fail (.unknownGroup number) back
      else
        let reader ← get
        if (reader.conditions.lookup number).isNone then
          set { reader with
            conditions := reader.conditions ++ [(number, reader.position - back)] }
        return number

abbrev Part := Flags → Read Pattern

def capturing (alternatives : Part) (flags : Flags) (start : Nat) (name : Option Text) :
    Read Pattern := do
  let number ← openGroup name
  let body ← alternatives flags
  closeBracket start
  closeGroup number body
  return .group number body

def enclosing (alternatives : Part) (flags : Flags) (start : Nat) (make : Pattern → Pattern) :
    Read Pattern := do
  let body ← alternatives flags
  closeBracket start
  return make body

def lookingBehind (alternatives : Part) (flags : Flags) (start : Nat) (negated : Bool) :
    Read Pattern := do
  let limit := (← get).behind
  modify fun reader => { reader with behind := limit.or (some reader.opened) }
  let body ← alternatives flags
  modify fun reader => { reader with behind := limit }
  closeBracket start
  return .behind negated body

def conditional (branch : Part) (flags : Flags) (start : Nat) : Read Pattern := do
  let number ← conditionGroup
  checkLookBehind number
  let yes ← branch flags
  let no ← if ← takeIf '|' then
      let no ← branch flags
      if (← peek) = ['|'] then fail .thirdBranch else pure no
    else pure .empty
  closeBracket start
  return .ifGroup number yes no

def namedGroup (alternatives : Part) (flags : Flags) (start : Nat) : Read Pattern := do
  if ← takeIf '<' then
    let name ← takeGroupName '>'
    capturing alternatives flags start (some name)
  else if ← takeIf '=' then
    let name ← takeGroupName ')'
    match (← get).names.lookup name with
    | some number => referTo number (name.length + 1) flags
    | none => fail (.unknownName name) (name.length + 1)
  else
    let token ← take
    if token.isEmpty then fail .unexpectedEnd
    else fail (.unknownExtension ('P' :: token)) (token.length + 2)

/-- A group with a mark behind its opening bracket. What stands for no pattern at all, such as a
comment, has no result. -/
def markedGroup (alternatives branch : Part) (flags : Flags) (start : Nat) (isFirst : Bool) :
    Read (Option Pattern) := do
  let token ← take
  match token with
  | [] => fail .unexpectedEnd
  | ['P'] => return some (← namedGroup alternatives flags start)
  | [':'] => return some (← enclosing alternatives flags start .enclosed)
  | ['>'] => return some (← enclosing alternatives flags start .atomic)
  | ['='] => return some (← enclosing alternatives flags start (.ahead false))
  | ['!'] => return some (← enclosing alternatives flags start (.ahead true))
  | ['('] => return some (← conditional branch flags start)
  | ['#'] =>
    skipComment start ((← get).rest.length + 1)
    return none
  | ['<'] =>
    match ← take with
    | [] => fail .unexpectedEnd
    | ['='] => return some (← lookingBehind alternatives flags start false)
    | ['!'] => return some (← lookingBehind alternatives flags start true)
    | token => fail (.unknownExtension ('<' :: token)) (token.length + 2)
  | [c] =>
    if isFlag c ∨ c = '-' then
      match ← groupFlags c with
      | none => if isFirst then return none else failAt .lateFlags start
      | some (on, off) =>
        let inner := off.foldl (withFlag false) (on.foldl (withFlag true) flags)
        return some (← enclosing alternatives inner start .enclosed)
    else fail (.unknownExtension token) 2
  | token => fail (.unknownExtension token) (token.length + 1)

def skipLine : Nat → Read Unit
  | 0 => return
  | fuel + 1 => do
    let token ← take
    if token.isEmpty ∨ token = ['\n'] then return else skipLine fuel

def plain (flags : Flags) (token : Text) : Read Pattern :=
  match token with
  | '\\' :: _ => escaped flags token
  | ['.'] => return .one (.all flags.dotAll)
  | ['^'] => return .edge (if flags.multiline then .lineStart else .textStart)
  | ['$'] => return .edge (if flags.multiline then .lineStop else .lastLineStop)
  | ['['] => letters flags
  | c :: _ => return codePattern flags c.toNat
  | [] => return .empty

def isSpace (token : Text) : Bool :=
  (" \t\n\r\x0b\x0c".toList.map ([·])).contains token

mutual

/-- Reads a row of patterns up to a bar or a closing bracket; `found` holds those before, the last
first, and `isFirst` tells whether the whole pattern starts with it. -/
def branch : Nat → Bool → List Pattern → Part
  | 0, _, found, _ => return row found.reverse
  | fuel + 1, isFirst, found, flags => do
    let token ← peek
    if token.isEmpty ∨ token = ['|'] ∨ token = [')'] then return row found.reverse
    else
      let start ← place
      let _ ← take
      match token with
      | ['('] =>
        if ← takeIf '?' then
          let inner := alternatives fuel false
          let made ← markedGroup inner (branch fuel false []) flags start
            (isFirst && found.isEmpty)
          match made with
          | some made => branch fuel isFirst (made :: found) flags
          | none =>
            let reader ← get
            let flags := if isFirst ∧ found.isEmpty then reader.flags else flags
            branch fuel isFirst found flags
        else
          let made ← capturing (alternatives fuel false) flags start none
          branch fuel isFirst (made :: found) flags
      | [c] =>
        if flags.spaced ∧ isSpace token then branch fuel isFirst found flags
        else if flags.spaced ∧ c = '#' then
          skipLine ((← get).rest.length + 1)
          branch fuel isFirst found flags
        else if c = '?' ∨ c = '*' ∨ c = '+' ∨ c = '\x7b' then
          match ← counts? c with
          | some (least, most) =>
            branch fuel isFirst (← repeatLast start least most found) flags
          | none => branch fuel isFirst (codePattern flags c.toNat :: found) flags
        else branch fuel isFirst ((← plain flags token) :: found) flags
      | token => branch fuel isFirst ((← plain flags token) :: found) flags

def alternatives : Nat → Bool → Part
  | 0, _, _ => return .empty
  | fuel + 1, isFirst, flags => do
    let first ← branch fuel isFirst [] flags
    if ← takeIf '|' then
      let reader ← get
      let flags := if isFirst then reader.flags else flags
      return .either first (← alternatives fuel false flags)
    else return first

end

def whole : Read Pattern := do
  set (← (← get).checked)
  let found ← alternatives (2 * (← get).rest.length + 2) true {}
  let reader ← get
  let isOn (flag : Char) : Bool := reader.everywhere.any (· == flag)
  if isOn 'a' && isOn 'u' then throw .opposedFlags
  else if !reader.rest.isEmpty then fail .unopenedGroup
  else
    match reader.conditions.find? fun (number, _) => reader.opened < number with
    | some (number, position) => failAt (.unknownGroup number) position
    | none =>
      match found.compileFault? reader.closed (isOn 't') with
      | some fault => throw (.fault fault none)
      | none => return found

end Read

/-- The pattern that a text spells, given the characters that have names. -/
def ofText (source : Text) (naming : Naming := .none) : Except Failure Pattern :=
  (Read.whole.run { rest := source, naming := naming }).map Prod.fst

end MdxCheck.Pattern
