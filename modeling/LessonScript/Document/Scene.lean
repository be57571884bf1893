import LessonScript.Document.Element
import LessonScript.Document.Metadata
import LessonScript.Text.LowerCase

/-!
# Scenes and documents

A document is its metadata and its scenes in order. A named scene goes by the slug of its name;
the scene that a title opens before any named one goes by "title".
-/

namespace LessonScript

/-- Whether a scene was opened by a name or by a title. -/
inductive SceneKind where
  | title
  | scene
deriving DecidableEq, Repr

def SceneKind.name : SceneKind → String
  | .title => "title"
  | .scene => "scene"

structure Scene where
  id : String
  name : Option String
  kind : SceneKind
  elements : List Element
deriving Repr

structure Document where
  metadata : Metadata
  scenes : List Scene

/-- A name in lower case with a hyphen for every run of white space. -/
def slugChars : List Char → List Char
  | [] => []
  | [c] => if Text.isBlank c then ['-'] else Text.lowerChar c
  | c :: d :: cs =>
    if Text.isBlank c then
      if Text.isBlank d then slugChars (d :: cs) else '-' :: slugChars (d :: cs)
    else Text.lowerChar c ++ slugChars (d :: cs)

def slug (name : String) : String := String.ofList (slugChars name.toList)

namespace Scene

/-- The scene that holds a title standing before every named scene. -/
def titleScene : Scene := ⟨"title", none, .title, []⟩

def named (name : String) : Scene := ⟨slug name, some name, .scene, []⟩

def heading (scene : Scene) : String := scene.name.getD scene.id

def push (scene : Scene) (element : Element) : Scene :=
  { scene with elements := scene.elements ++ [element] }

end Scene

namespace Document

instance : Inhabited Document := ⟨⟨Table.empty, []⟩⟩

def elementCount (doc : Document) : Nat := (doc.scenes.flatMap (·.elements)).length

/-- The scene at the position that a key spells, or else the first scene with the key as its
identifier. -/
def findScene (doc : Document) (key : String) : Option Scene :=
  let byIndex := (Text.readSignedUpTo (Text.wordMax 64) key.toList).bind (doc.scenes[·]?)
  byIndex.or (doc.scenes.find? (·.id == key))

end Document
end LessonScript
