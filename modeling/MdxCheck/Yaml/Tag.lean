import MdxCheck.Yaml.Timestamp

/-!
The types of YAML nodes, and the type that a plain scalar has by its form.
-/

namespace MdxCheck.Yaml

inductive Tag where
  | null
  | boolean
  | integer
  | float
  | binary
  | timestamp
  | orderedMap
  | pairs
  | set
  | text
  | sequence
  | mapping
  | merge
  | value
  | other (name : Text)
deriving DecidableEq, Repr

namespace Tag

def schema : Text := "tag:yaml.org,2002:"

def known : List (Tag × String) :=
  [(null, "null"), (boolean, "bool"), (integer, "int"), (float, "float"), (binary, "binary"),
    (timestamp, "timestamp"), (orderedMap, "omap"), (pairs, "pairs"), (set, "set"), (text, "str"),
    (sequence, "seq"), (mapping, "map"), (merge, "merge"), (value, "value")]

def ofName (name : Text) : Tag :=
  match known.find? fun (_, word) => schema ++ word.toList == name with
  | some (tag, _) => tag
  | none => other name

def name : Tag → Text
  | other given => given
  | tag =>
    match known.find? fun (candidate, _) => candidate = tag with
    | some (_, word) => schema ++ word.toList
    | none => []

def truthWords : List (Text × Bool) :=
  (([("yes", true), ("no", false), ("true", true), ("false", false), ("on", true),
    ("off", false)] : List (String × Bool))).map fun (word, truth) => (word.toList, truth)

def capitalized : Text → Text
  | [] => []
  | c :: rest => c.toUpper :: rest

/-- Whether a plain scalar is a truth value: a word in lower case, in upper case, or with an upper
case first letter. -/
def isBoolean (text : Text) : Bool :=
  truthWords.any fun (word, _) =>
    text == word || text == capitalized word || text == word.map Char.toUpper

def isNull (text : Text) : Bool :=
  (["", "~", "null", "Null", "NULL"] : List String).any fun word => word.toList == text

/-- Whether a plain scalar is a timestamp; a date by itself has two digits for month and day. -/
def isTimestamp (text : Text) : Bool :=
  match Timestamp.ofText? text with
  | some found => found.isPadded || found.time.isSome
  | none => false

/-- The type of a plain scalar by its form; a line feed at its end does not count. -/
def ofPlain (value : Text) : Tag :=
  let text := if value.length ≠ 1 ∧ value.getLast? = some '\n' then value.dropLast else value
  if isBoolean text then boolean
  else if isFloat text then float
  else if isInteger text then integer
  else if text = ['<', '<'] then merge
  else if isNull text then null
  else if isTimestamp text then timestamp
  else if text = ['='] then .value
  else .text

end Tag

end MdxCheck.Yaml
