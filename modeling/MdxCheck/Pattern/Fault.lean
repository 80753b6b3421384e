import MdxCheck.Decimal.Read

/-!
What can be wrong with the text of a pattern, and how that is said.
-/

namespace MdxCheck.Pattern

inductive Fault where
  | endEscape
  | badEscape (escape : Text)
  | shortEscape (escape : Text)
  | octalEscape (escape : Text)
  | missing (what : Text)
  | missingEnd (mark : Char)
  | unknownCharacter (name : Text)
  | openSet
  | badRange (first last : Text)
  | reversedCounts
  | nothingToRepeat
  | repeatedTwice
  | unexpectedEnd
  | badName (name : Text)
  | unknownName (name : Text)
  | takenName (name : Text) (group first : Nat)
  | openGroup
  | groupInLookBehind
  | unknownGroup (number : Nat)
  | groupZero
  | unknownExtension (mark : Text)
  | openComment
  | unclosedGroup
  | thirdBranch
  | lateFlags
  | localeFlag
  | clashingFlags
  | globalFlagOn
  | globalFlagOff
  | typeFlagOff
  | flagOnAndOff
  | unknownFlag
  | unopenedGroup
  | looseLookBehind
  | farLookBehind
  | templateOperator (name : Text)
deriving DecidableEq, Repr

def Fault.message : Fault → Text
  | endEscape => "bad escape (end of pattern)"
  | badEscape escape => "bad escape " ++ escape
  | shortEscape escape => "incomplete escape " ++ escape
  | octalEscape escape => "octal escape value " ++ escape ++ " outside of range 0-0o377"
  | missing what => "missing " ++ what
  | missingEnd mark => "missing " ++ [mark] ++ ", unterminated name"
  | unknownCharacter name => "undefined character name " ++ Text.quoted name
  | openSet => "unterminated character set"
  | badRange first last => "bad character range " ++ first ++ "-" ++ last
  | reversedCounts => "min repeat greater than max repeat"
  | nothingToRepeat => "nothing to repeat"
  | repeatedTwice => "multiple repeat"
  | unexpectedEnd => "unexpected end of pattern"
  | badName name => "bad character in group name " ++ Text.quoted name
  | unknownName name => "unknown group name " ++ Text.quoted name
  | takenName name group first =>
    "redefinition of group name " ++ Text.quoted name ++ " as group " ++ Text.decimal group ++
      "; was group " ++ Text.decimal first
  | openGroup => "cannot refer to an open group"
  | groupInLookBehind => "cannot refer to group defined in the same lookbehind subpattern"
  | unknownGroup number => "invalid group reference " ++ Text.decimal number
  | groupZero => "bad group number"
  | unknownExtension mark => "unknown extension ?" ++ mark
  | openComment => "missing ), unterminated comment"
  | unclosedGroup => "missing ), unterminated subpattern"
  | thirdBranch => "conditional backref with more than two branches"
  | lateFlags => "global flags not at the start of the expression"
  | localeFlag => "bad inline flags: cannot use 'L' flag with a str pattern"
  | clashingFlags => "bad inline flags: flags 'a', 'u' and 'L' are incompatible"
  | globalFlagOn => "bad inline flags: cannot turn on global flag"
  | globalFlagOff => "bad inline flags: cannot turn off global flag"
  | typeFlagOff => "bad inline flags: cannot turn off flags 'a', 'u' and 'L'"
  | flagOnAndOff => "bad inline flags: flag turned on and off"
  | unknownFlag => "unknown flag"
  | unopenedGroup => "unbalanced parenthesis"
  | looseLookBehind => "look-behind requires fixed-width pattern"
  | farLookBehind => "looks too much behind"
  | templateOperator name => "internal: unsupported template operator " ++ name

/-- Why a text is no pattern: a fault, mostly at a place, a count of repetitions that is too high or has
too many digits, or flags for ASCII and for all scripts at once. -/
inductive Failure where
  | fault (fault : Fault) (position : Option Nat)
  | hugeCount
  | longCount (digits : Nat)
  | opposedFlags
deriving DecidableEq, Repr

def Failure.isFault : Failure → Bool
  | fault _ _ => true
  | _ => false

/-- The place of a fault in words: the offset in the text, and if the text has several lines the
line and the column as well. -/
def describePosition (source : Text) (position : Nat) : Text :=
  let before := source.take position
  let place : Text := " at position " ++ Text.decimal position
  if source.any (· == '\n') then
    place ++ " (line " ++ Text.decimal (before.count '\n' + 1) ++ ", column " ++
      Text.decimal ((before.reverse.takeWhile (· != '\n')).length + 1) ++ ")"
  else place

def Failure.message (source : Text) : Failure → Text
  | fault cause none => cause.message
  | fault cause (some position) => cause.message ++ describePosition source position
  | hugeCount => "the repetition number is too large"
  | longCount digits => (Decimal.Fault.tooLong digits).message
  | opposedFlags => "ASCII and UNICODE flags are incompatible"

end MdxCheck.Pattern
