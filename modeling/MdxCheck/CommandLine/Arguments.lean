import MdxCheck.Decimal.Read

/-!
The arguments of a run: its options, and the paths of documents.

An option with a long name may be shortened as long as only one option is meant. Behind two hyphens all
arguments are paths. All paths have to stand together; those that come later are not understood.
-/

namespace MdxCheck.CommandLine

inductive Switch where
  | help
  | config
  | skipImages
  | jobs
  | verbose
deriving DecidableEq, Repr

namespace Switch

def names : List (Text × Switch) :=
  (([("-h", help), ("--help", help), ("--config", config), ("--skip-images", skipImages),
    ("--jobs", jobs), ("-v", verbose), ("--verbose", verbose)] : List (String × Switch))).map
      fun (name, switch) => (name.toList, switch)

def ofName? (name : Text) : Option Switch :=
  names.lookup name

def takesValue : Switch → Bool
  | config | jobs => true
  | help | skipImages | verbose => false

def title (switch : Switch) : Text :=
  Text.join ['/'] ((names.filter fun (_, other) => other = switch).map Prod.fst)

end Switch

inductive Fault where
  | ambiguous (given : Text) (names : List Text)
  | noValue (switch : Switch)
  | ignoredValue (switch : Switch) (value : Text)
  | notNumber (value : Text)
  | notUnderstood (arguments : List Text)
deriving DecidableEq, Repr

def Fault.message : Fault → Text
  | ambiguous given names =>
    "ambiguous option: " ++ given ++ " could match " ++ Text.join ", ".toList names
  | noValue switch => "argument " ++ switch.title ++ ": expected one argument"
  | ignoredValue switch value =>
    "argument " ++ switch.title ++ ": ignored explicit argument " ++ Text.quoted value
  | notNumber value =>
    "argument " ++ Switch.jobs.title ++ ": invalid int value: " ++ Text.quoted value
  | notUnderstood arguments => "unrecognized arguments: " ++ Text.join [' '] arguments

structure Options where
  paths : List Text := [['.']]
  config : Option Text := none
  skipsImages : Bool := false
  jobs : Int := 1
  isVerbose : Bool := false
deriving DecidableEq, Repr

/-- A value that is written into the same argument as its option: behind an equals sign or directly
behind the letter of the option. -/
inductive Joined where
  | none
  | direct (value : Text)
  | equals (value : Text)
deriving DecidableEq, Repr

/-- What an argument looks like: a path or a value, the two hyphens, an option, or an option that is
not known. -/
inductive Shape where
  | plain
  | separator
  | option (switch : Switch) (isLong : Bool) (joined : Joined)
  | unknown
deriving DecidableEq, Repr

namespace Shape

def isNegative : Text → Bool
  | '-' :: rest =>
    match Text.cut? '.' rest with
    | none => !rest.isEmpty && rest.all Text.isDecimalDigit
    | some (whole, part) =>
      whole.all Text.isDecimalDigit && !part.isEmpty && part.all Text.isDecimalDigit
  | _ => false

def longMatches (given : Text) : List (Text × Shape) :=
  let (start, joined) := match Text.cut? '=' given with
    | some (start, value) => (start, Joined.equals value)
    | none => (given, Joined.none)
  (Switch.names.filter fun (name, _) => Text.startsWith start name).map
    fun (name, switch) => (name, .option switch true joined)

def shortMatches (given : Text) : List (Text × Shape) :=
  (Switch.names.filter fun (name, _) => name = given.take 2).map
    fun (name, switch) => (name, .option switch false (.direct (given.drop 2)))

def ofInexact (given : Text) (candidates : List (Text × Shape)) : Except Fault Shape :=
  match candidates with
  | [(_, shape)] => .ok shape
  | [] =>
    if isNegative given ∨ given.any (· == ' ') then .ok .plain else .ok .unknown
  | candidates => .error (.ambiguous given (candidates.map Prod.fst))

def withEquals? (given : Text) : Option Shape := do
  let (name, value) ← Text.cut? '=' given
  let switch ← Switch.ofName? name
  return .option switch (Text.startsWith ['-', '-'] name) (.equals value)

def ofText (given : Text) : Except Fault Shape :=
  match given, Switch.ofName? given with
  | ['-', '-'], _ => .ok .separator
  | '-' :: '-' :: _, some switch => .ok (.option switch true .none)
  | '-' :: _ :: _, some switch => .ok (.option switch false .none)
  | '-' :: c :: _, none =>
    match withEquals? given with
    | some shape => .ok shape
    | none => ofInexact given (if c = '-' then longMatches given else shortMatches given)
  | _, _ => .ok .plain

/-- The shapes of some arguments; behind two hyphens all are plain. -/
def ofTexts : List Text → Except Fault (List (Text × Shape))
  | [] => .ok []
  | given :: rest => do
    let shape ← ofText given
    if shape = .separator then return (given, shape) :: rest.map (·, .plain)
    else return (given, shape) :: (← ofTexts rest)

def isOperand : Shape → Bool
  | plain | separator => true
  | _ => false

end Shape

/-- What the arguments so far ask for: the options, whether help is asked for, whether there are paths
already, and what is not understood. -/
structure Progress where
  options : Options := {}
  hasPaths : Bool := false
  extras : List Text := []

inductive Stop where
  | fault (fault : Fault)
  | help
deriving DecidableEq, Repr

namespace Progress

/-- The integer that a text spells; underscores may stand between its digits. -/
def integer? (text : Text) : Option Int :=
  let isJoint (before after : Option Char) : Bool :=
    before.any Text.isDecimalDigit && after.any Text.isDecimalDigit
  let rec joined (before : Option Char) : Text → Bool
    | [] => true
    | c :: rest => (c != '_' || isJoint before rest.head?) && joined (some c) rest
  if joined none text then (Decimal.readInteger 10 (text.filter (· != '_'))).toOption else none

def turnOn (progress : Progress) : Switch → Except Stop Progress
  | .help => .error .help
  | .skipImages => .ok { progress with options := { progress.options with skipsImages := true } }
  | .verbose => .ok { progress with options := { progress.options with isVerbose := true } }
  | .config | .jobs => .ok progress

def put (progress : Progress) (switch : Switch) (value : Text) : Except Stop Progress :=
  match switch with
  | .config => .ok { progress with options := { progress.options with config := some value } }
  | .jobs =>
    match integer? value with
    | some jobs => .ok { progress with options := { progress.options with jobs := jobs } }
    | none => .error (.fault (.notNumber value))
  | switch => progress.turnOn switch

/-- The progress with some options named by letters behind one hyphen, the first of which is given, and
the rest of the letters. No option with a single letter takes a value. Letters that name no option are
not understood. -/
def putLetters (progress : Progress) (switch : Switch) (later : List Switch) :
    Text → Except Stop Progress
  | [] => turnOnAll
  | c :: rest =>
    if c = '-' then .error (.fault (.ignoredValue current (c :: rest)))
    else
      match Switch.ofName? ['-', c], rest with
      | some next, '=' :: value => .error (.fault (.ignoredValue next value))
      | some next, rest => putLetters progress switch (later ++ [next]) rest
      | none, rest => do
        let progress ← turnOnAll
        return { progress with extras := progress.extras ++ ['-' :: c :: rest] }
where
  current : Switch := later.getLast?.getD switch
  turnOnAll : Except Stop Progress := (switch :: later).foldlM turnOn progress

/-- The progress with an option, and the arguments that are left; the value may be the next one. -/
def putOption (progress : Progress) (switch : Switch) (isLong : Bool) (joined : Joined)
    (rest : List (Text × Shape)) : Except Stop (Progress × List (Text × Shape)) :=
  match joined, rest with
  | .none, (value, .plain) :: later =>
    if switch.takesValue then do return (← progress.put switch value, later)
    else do return (← progress.turnOn switch, rest)
  | .none, _ =>
    if switch.takesValue then .error (.fault (.noValue switch))
    else do return (← progress.turnOn switch, rest)
  | .equals value, _ =>
    if switch.takesValue then do return (← progress.put switch value, rest)
    else .error (.fault (.ignoredValue switch value))
  | .direct value, _ =>
    if switch.takesValue then do return (← progress.put switch value, rest)
    else if isLong ∨ value.isEmpty then .error (.fault (.ignoredValue switch value))
    else do return (← progress.putLetters switch [] value, rest)

/-- The progress with some arguments that are no options; the first two hyphens among them only set
paths off. -/
def putOperands (progress : Progress) (operands : List (Text × Shape)) : Progress :=
  if operands.isEmpty then progress
  else if progress.hasPaths then
    { progress with extras := progress.extras ++ operands.map Prod.fst }
  else
    let paths := (operands.filter fun (_, shape) => shape ≠ .separator).map Prod.fst
    { progress with
      hasPaths := true
      options := { progress.options with paths := if paths.isEmpty then [['.']] else paths } }

/-- Reads arguments, at most `count` options of them. -/
def read : Nat → Progress → List (Text × Shape) → Except Stop Progress
  | 0, progress, _ => .ok progress
  | count + 1, progress, given =>
    let operands := given.takeWhile fun (_, shape) => shape.isOperand
    let progress := progress.putOperands operands
    match given.drop operands.length with
    | [] => .ok progress
    | (_, .option switch isLong joined) :: rest => do
      let (progress, rest) ← progress.putOption switch isLong joined rest
      read count progress rest
    | (argument, _) :: rest =>
      read count { progress with extras := progress.extras ++ [argument] } rest

end Progress

def Options.ofArguments (given : List Text) : Except Stop Options := do
  let shapes ← (Shape.ofTexts given).mapError .fault
  let progress ← Progress.read (given.length + 1) {} shapes
  if progress.extras.isEmpty then return progress.options
  else .error (.fault (.notUnderstood progress.extras))

end MdxCheck.CommandLine
