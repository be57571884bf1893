import LessonScript.CommandLine.Options
import LessonScript.CommandLine.Terminal
import LessonScript.Command.Builtin
import LessonScript.Library.Loader
import LessonScript.Settings.Basic
import LessonScript.Timeline

/-!
# Running tasks

A task reads files and says what to print, with waits in between where a scene is played, or
why it failed. Where the files are is left open: they are read through a disk.
-/

namespace LessonScript.CommandLine

structure Disk (m : Type → Type) where
  read : String → m (Except FileError String)
  list : String → m (Except FileError (List String))

def Disk.ofTree (root : FileNode) : Disk Id := ⟨root.read, root.list⟩

/-- A part of the output: a text to print, or a wait. -/
inductive Chunk where
  | print (text : String)
  | wait (time : Millis)

/-- What a task comes to: what it prints, or what is said about its failure. -/
abbrev Report := Except String (List Chunk)

def line (text : String) : Chunk := .print (text ++ "\n")

def column (width : Nat) (text : String) : String :=
  text ++ String.ofList (List.replicate (width - text.length) ' ')

/-- The parts of a path that lead somewhere. -/
def leadingParts (path : String) : List String :=
  (Path.parts path).filter fun part => !part.isEmpty && part != "."

def reported (path : String) : String := "/".intercalate (leadingParts path)

/-- The path of a file of settings that was named without its extension. What names only a way
through directories names no file. -/
def withExtension? (name : String) : Option String :=
  let isStay (part : String) := part.isEmpty || part == "."
  let parts := ((Path.parts name).reverse.dropWhile isStay).reverse
  match parts.getLast? with
  | none | some ".." => none
  | some _ => some ("/".intercalate parts ++ ".toml")

section

variable {m : Type → Type} [Monad m] (disk : Disk m)

/-- The file of settings with a name; it may be named without its extension. -/
def findSettings (name : String) : m SettingsFile := do
  let found (path : String) (text : Except FileError String) : Option SettingsFile :=
    match text with
    | .ok _ | .error .notText => some ⟨reported path, text, true⟩
    | .error _ => none
  let missing : SettingsFile := ⟨name, .error .notFound, true⟩
  match found name (← disk.read name), withExtension? name with
  | some file, _ => return file
  | none, none => return missing
  | none, some path => return (found path (← disk.read path)).getD missing

/-- The settings, with a file laid over the defaults if one is named. -/
def loadSettings (config : Option String) : m (Except String Settings) := do
  let files ← match config with
    | none => pure []
    | some name => do pure [← findSettings disk name]
  match Settings.load files [] with
  | .ok settings => return .ok settings
  | .error e => return .error s!"Error loading configuration: {e.message}"

def readDocument (path : String) : m (Except String Document) := do
  match ← disk.read path with
  | .ok script => return .ok (Registry.builtin.commandSet.parse script)
  | .error e => return .error s!"Error reading file: {e.message}"

/-- The text of a document in a format, with a line ending. -/
def parseReport (format : Format) (doc : Document) : List Chunk :=
  let text := format.render doc
  [.print text] ++ if text.endsWith "\n" then [] else [.print "\n"]

def playReport (timing : Timing) (scene : Scene) : List Chunk :=
  let shown (entry : Entry) : List Chunk :=
    .wait entry.wait :: (elementLines "" entry.element).map line
  [line (bold s!"== {scene.heading} ==")] ++
    (Timeline.build timing scene.elements).flatMap shown ++ [line (dim "(end of scene)")]

def listReport (dir : String) (numbers : List Nat) : List Chunk :=
  if numbers.isEmpty then [line s!"No lessons found in {dir}"]
  else line s!"Lessons in {dir}:\n" :: numbers.map fun n => line s!"  {n}"

/-- The built-in commands with their hints and, if asked for, their patterns. -/
def commandsReport (patterns : Bool) : List Chunk :=
  let row (entry : String × Command) : List Chunk :=
    let (name, command) := entry
    let hint := (command.render.map RenderHint.shown).getD "-"
    let cells := [column 10 name, column 7 command.kind, column 36 hint, command.timing.shown]
    line ("  " ++ " ".intercalate cells) ::
      if patterns then [line ("             " ++ dim command.pattern)] else []
  line "Built-in commands:\n" :: Registry.builtin.commands.entries.flatMap row

def versionReport : List Chunk := [line "lesson 0.1.0"]

def runTask (settings : Settings) : Task → m Report
  | .parse path format => do
    return (← readDocument disk path).map (parseReport format)
  | .play path key speed => do
    match ← readDocument disk path with
    | .error e => return .error e
    | .ok doc =>
      match doc.findScene key with
      | none => return .error s!"Error: no scene '{key}' in {path}"
      | some scene => return .ok (playReport (settings.timing.withSpeed speed) scene)
  | .list dir => do
    let directory := ScriptDirectory.of (dir.getD settings.library.dir) settings.library.extension
    match directory.keysOf (← disk.list directory.dir) with
    | .ok keys => return .ok (listReport directory.dir (Source.lessonNumbers keys))
    | .error e =>
      return .error s!"Error listing {directory.dir}: {(LoadError.file e).message}"
  | .commands patterns => return .ok (commandsReport patterns)
  | .version => return .ok versionReport

def run (invocation : Invocation) : m Report := do
  match ← loadSettings disk invocation.config with
  | .error e => return .error e
  | .ok settings => runTask disk settings invocation.task

end

end LessonScript.CommandLine
