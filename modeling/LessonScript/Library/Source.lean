import LessonScript.Library.FileTree
import LessonScript.Table

/-!
# Sources of scripts

A source holds scripts under keys: in memory, or as files of a directory that are named by
their key and a common extension.
-/

namespace LessonScript

/-- Where scripts come from. Fetching a key that is not held gives no script; it can also fail. -/
structure Source where
  fetch : String → Except FileError (Option String)
  contains : String → Bool
  keys : Except FileError (List String)

namespace Source

/-- Whether fetching a key gives a script. -/
def provides (fetch : String → Except FileError (Option String)) (key : String) : Bool :=
  match fetch key with
  | .ok (some _) => true
  | _ => false

/-- A source that is asked for a script whenever it is asked whether it holds one. -/
def ofFetch (fetch : String → Except FileError (Option String))
    (keys : Except FileError (List String)) : Source :=
  ⟨fetch, provides fetch, keys⟩

/-- Scripts held in memory. -/
def ofScripts (scripts : Table String String) : Source where
  fetch key := .ok (scripts.get? key)
  contains := scripts.contains
  keys := .ok scripts.keys

end Source

/-- A directory whose scripts have a common extension. -/
structure ScriptDirectory where
  dir : String
  extension : String

namespace ScriptDirectory

/-- The directory of an extension that may be given with dots in front. -/
def of (dir extension : String) : ScriptDirectory :=
  ⟨dir, String.ofList (extension.toList.dropWhile (· = '.'))⟩

def pathFor (d : ScriptDirectory) (key : String) : String :=
  Path.join d.dir (key ++ "." ++ d.extension)

/-- The keys of the scripts among the names in the directory. -/
def keysAmong (d : ScriptDirectory) (names : List String) : List String :=
  names.filterMap fun name =>
    match Path.splitExtension name with
    | (stem, some extension) => if extension = d.extension then some stem else none
    | (_, none) => none

/-- The keys in the directory, given what listing it came to: a missing directory holds none. -/
def keysOf (d : ScriptDirectory) : Except FileError (List String) → Except FileError (List String)
  | .ok names => .ok (d.keysAmong names)
  | .error .notFound => .ok []
  | .error e => .error e

/-- The script of a file, given what reading it came to: a missing file is no script. -/
def scriptOf : Except FileError String → Except FileError (Option String)
  | .ok text => .ok (some text)
  | .error .notFound => .ok none
  | .error e => .error e

def source (d : ScriptDirectory) (root : FileNode) : Source where
  fetch key := scriptOf (root.read (d.pathFor key))
  contains key := root.contains (d.pathFor key)
  keys := d.keysOf (root.list d.dir)

end ScriptDirectory
end LessonScript
