import MdxCheck.Text.Basic

/-!
Lists of identifiers: sorted without repetition, compared with one another, and searched for
those that occur twice.
-/

namespace MdxCheck.Rule

def insertId (id : Text) : List Text → List Text
  | [] => [id]
  | other :: ids =>
    if id = other then other :: ids
    else if Text.before id other then id :: other :: ids
    else other :: insertId id ids

def distinctIds (ids : List Text) : List Text :=
  ids.foldr insertId []

def missingIds (ids others : List Text) : List Text :=
  distinctIds (ids.filter fun id => !others.contains id)

def duplicateIds (ids : List Text) : List Text :=
  distinctIds (ids.filter fun id => 1 < ids.count id)

end MdxCheck.Rule
