import MdxCheck.Document.Parse

/-!
Parsing several documents in one session, which keeps the trees of those that have a key.
-/

namespace MdxCheck.Document

structure Kept where
  key : Text
  tree : Node
  step : Nat

structure Session where
  steps : Nat
  kept : List Kept

namespace Session

def empty : Session := ⟨0, []⟩

/-- The tree that is kept for a key; nothing is kept for the empty key. -/
def find? (session : Session) (key : Option Text) : Option Kept :=
  match key with
  | none | some [] => none
  | some key => session.kept.find? fun entry => entry.key == key

def keep (session : Session) (key : Option Text) (tree : Node) : Session :=
  match key with
  | none | some [] => session
  | some key => { session with kept := ⟨key, tree, session.steps⟩ :: session.kept }

/-- Takes the tree that is kept for the key, or else parses the text and keeps its tree. The result
names the step that parsed a kept tree. -/
def parse (session : Session) (key : Option Text) (text : Text) :
    Except ParseError (Option Nat × Node) × Session :=
  match session.find? key with
  | some entry => (.ok (some entry.step, entry.tree), { session with steps := session.steps + 1 })
  | none =>
    match Document.parse text with
    | .ok tree =>
      let session := session.keep key tree
      (.ok (none, tree), { session with steps := session.steps + 1 })
    | .error error => (.error error, { session with steps := session.steps + 1 })

def clear (session : Session) : Session :=
  ⟨session.steps + 1, []⟩

end Session

end MdxCheck.Document
