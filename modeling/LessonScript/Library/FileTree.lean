import LessonScript.Text.Search

/-!
# Files

A tree of files and directories, and what becomes of a path in it. A path is taken part by part
from the root; a part that is a single dot stays where it is, and two dots lead back to the
directory above. What lies outside the root is not found.
-/

namespace LessonScript

inductive FileError where
  | notFound
  | notDirectory
  | isDirectory
  | nameTooLong
  | nulInPath
  | notText
  | other (message : String)
deriving DecidableEq, Repr

def FileError.message : FileError → String
  | .notFound => "No such file or directory (os error 2)"
  | .notDirectory => "Not a directory (os error 20)"
  | .isDirectory => "Is a directory (os error 21)"
  | .nameTooLong => "File name too long (os error 36)"
  | .nulInPath => "file name contained an unexpected NUL byte"
  | .notText => "stream did not contain valid UTF-8"
  | .other message => message

/-- A file with its bytes, or a directory with its entries. -/
inductive FileNode where
  | file (content : ByteArray)
  | directory (entries : List (String × FileNode))

namespace Path

def parts (path : String) : List String :=
  (Text.splitOn '/' path.toList).map String.ofList

/-- The path of a name in a directory. An absolute name is a path already. -/
def join (dir name : String) : String :=
  if name.startsWith "/" then name
  else if dir.isEmpty || dir.endsWith "/" then dir ++ name
  else dir ++ "/" ++ name

/-- The part of a file name before its last dot, and the part behind it. A dot at the very
start does not count. -/
def splitExtension (name : String) : String × Option String :=
  let behind := name.toList.reverse.takeWhile (· ≠ '.')
  match (name.toList.reverse.drop behind.length) with
  | _ :: before =>
    if before.isEmpty then (name, none)
    else (String.ofList before.reverse, some (String.ofList behind.reverse))
  | [] => (name, none)

end Path

namespace FileNode

/-- The longest name of a file and the longest path, in bytes. -/
def nameLimit : Nat := 255

def pathLimit : Nat := 4095

def follow : List FileNode → List String → Except FileError FileNode
  | [], _ => .error .notFound
  | here :: _, [] => .ok here
  | .file _ :: _, _ :: _ => .error .notDirectory
  | .directory entries :: above, part :: rest =>
    if part = "" ∨ part = "." then follow (.directory entries :: above) rest
    else if part = ".." then follow above rest
    else if nameLimit < part.utf8ByteSize then .error .nameTooLong
    else match entries.lookup part with
      | none => .error .notFound
      | some child => follow (child :: .directory entries :: above) rest

def find (root : FileNode) (path : String) : Except FileError FileNode :=
  if path.toList.any (·.toNat = 0) then .error .nulInPath
  else if pathLimit < path.utf8ByteSize then .error .nameTooLong
  else if path.isEmpty || path.startsWith "/" then .error .notFound
  else follow [root] (Path.parts path)

def contains (root : FileNode) (path : String) : Bool := (root.find path).toOption.isSome

def read (root : FileNode) (path : String) : Except FileError String :=
  match root.find path with
  | .error e => .error e
  | .ok (.directory _) => .error .isDirectory
  | .ok (.file content) =>
    match String.fromUTF8? content with
    | some text => .ok text
    | none => .error .notText

def list (root : FileNode) (path : String) : Except FileError (List String) :=
  match root.find path with
  | .error e => .error e
  | .ok (.directory entries) => .ok (entries.map Prod.fst)
  | .ok (.file _) => .error .notDirectory

/-- A list of entries in which one is changed or added. -/
def setEntry (name : String) (change : Option FileNode → FileNode) :
    List (String × FileNode) → List (String × FileNode)
  | [] => [(name, change none)]
  | (n, node) :: rest =>
    if n = name then (n, change (some node)) :: rest
    else (n, node) :: setEntry name change rest

/-- The tree with something put at the end of a path, directories being made on the way. A file
on the way is left as it is. -/
def put : List String → FileNode → FileNode → FileNode
  | [], new, _ => new
  | part :: rest, new, .directory entries =>
    .directory (setEntry part (fun old => put rest new (old.getD (.directory []))) entries)
  | _ :: _, _, .file content => .file content

end FileNode
end LessonScript
