import MdxCheck.Diagnostic
import MdxCheck.Files.Store
import MdxCheck.Image.Import

/-!
The check of image imports: the image exists, and the document uses it.
-/

namespace MdxCheck.Image

/-- The names on the way from the root to an image, with each pair of periods taken back together with
the name before it, if there is one. -/
def settle (done : List Text) : List Text → List Text
  | [] => done.reverse
  | name :: names =>
    if name = ['.', '.'] then settle done.tail names else settle (name :: done) names

/-- The path of an image, which starts at the root. -/
def Import.target (files : Files) (document : Path) (image : Import) : Path :=
  { slashes := 1
    names := settle [] (files.placeOf (document.parent.append (.ofText image.source))) }

def Import.exists (files : Files) (document : Path) (image : Import) : Bool :=
  files.isFile (image.target files document)

def Import.problem (document : Path) (image : Import) (reason : Text) : Diagnostic :=
  (Diagnostic.atPosition ⟨image.line, 1⟩ reason .imageImport).withFile document.toText

def Import.check (files : Files) (path : Path) (document : Text) (image : Import) :
    List Diagnostic :=
  let name : Text := "Image `" ++ image.name ++ "` "
  let missing := image.problem path
    (name ++ "imports `" ++ image.source ++ "`, which does not exist")
  let unused := image.problem path (name ++ "is imported but never used")
  (if image.exists files path then [] else [missing]) ++
    (if image.isUsedIn document then [] else [unused])

/-- The problems with the imports of a document. No file is looked for by a name with a zero
character. -/
def check (files : Files) (path : Path) : Except Files.Error (List Diagnostic) := do
  let document ← files.readText path
  let found := imports document
  match found.find? fun image => image.source.any (· == '\x00') with
  | some image => throw ⟨.zeroCharacter, .ofText image.source⟩
  | none => return found.flatMap (·.check files path document)

def checkAll (files : Files) (paths : List Path) : Except Files.Error (List Diagnostic) := do
  return (← paths.mapM (check files)).flatten

end MdxCheck.Image
