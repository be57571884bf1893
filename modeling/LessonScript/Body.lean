import LessonScript.Command.Builtin
import LessonScript.Inline

/-!
# The body of a script

The body is walked line by line. A marker or a block header ends what came before it: the prose
gathered so far becomes elements, and an open block is decoded. While a block is open every
line is its own; otherwise a line is prose. Elements that stand before every scene are dropped.
-/

namespace LessonScript

open Text (Line)

namespace CommandSet

/-- The pause that a line consists of, when it consists of nothing else and the command bound
to "pause" reads it as one. -/
def standalonePause? (commands : CommandSet) (line : Line) : Option Millis := do
  let m ← Builtin.pauseAtHead line
  guard (m.length = line.length)
  let command ← commands.pause
  let occurrence ← (command.pattern.find line).head?
  (command.decode occurrence.capture).pause?

/-- The element of a line of prose that is trimmed and not empty. -/
def proseElement (commands : CommandSet) (line : Line) : Element :=
  match commands.standalonePause? line with
  | some duration => .pause duration
  | none => .text (scanSegments commands.inline line)

/-- The elements of lines of prose, one for each line that is not blank. -/
def proseElements (commands : CommandSet) (lines : List Line) : List Element :=
  ((lines.map Text.trim).filter (!·.isEmpty)).map commands.proseElement

/-- The first block command whose header a line is, with the modifier of the header. -/
def blockAt? (commands : CommandSet) (line : Line) :
    Option (BlockCommand × Option (List Char)) :=
  commands.block.findSome? fun command => (command.header line).map (command, ·)

end CommandSet

/-- A line that marks a title or a scene, whatever the commands. -/
def isMarker (line : Line) : Bool :=
  line = Builtin.titleMarker || (Builtin.sceneName line).isSome

/-- A block whose header has been read, with the lines below it so far. -/
structure OpenBlock where
  command : BlockCommand
  modifier : Option (List Char)
  lines : List Line

/-- How far a walk has come: the scenes so far, the open block, and the prose not yet read. -/
structure Walk where
  scenes : List Scene
  block : Option OpenBlock
  prose : List Line

def titleElement (metadata : Metadata) : Element :=
  .title ((metadata.get? "title_en").map MetaValue.shown)
    ((metadata.get? "title_zh").map MetaValue.shown)

/-- The scenes with elements added to the last one; without a scene the elements are dropped. -/
def appendToLast : List Scene → List Element → List Scene
  | [], _ => []
  | [scene], elements => [{ scene with elements := scene.elements ++ elements }]
  | scene :: next :: rest, elements => scene :: appendToLast (next :: rest) elements

namespace Walk

def start : Walk := ⟨[], none, []⟩

variable (commands : CommandSet) (metadata : Metadata)

def flushProse (w : Walk) : Walk :=
  { w with scenes := appendToLast w.scenes (commands.proseElements w.prose), prose := [] }

/-- The scenes with the content of a block added. A title takes its texts from the metadata. -/
def addContent (scenes : List Scene) : BlockContent → List Scene
  | .element (.title ..) => appendToLast scenes [titleElement metadata]
  | .element element => appendToLast scenes [element]
  | .container element lines =>
    appendToLast scenes [element.withChildren (commands.proseElements lines)]
  | .scene scene lines => appendToLast (scenes ++ [scene]) (commands.proseElements lines)

def flushBlock (w : Walk) : Walk :=
  match w.block with
  | none => w
  | some block =>
    { w with
      scenes :=
        if block.lines.isEmpty then w.scenes
        else addContent commands metadata w.scenes
          (block.command.decode block.lines block.modifier)
      block := none }

def flush (w : Walk) : Walk := (w.flushProse commands).flushBlock commands metadata

def step (w : Walk) (line : Line) : Walk :=
  if line = Builtin.titleMarker then
    let w := w.flush commands metadata
    let scenes := if w.scenes.isEmpty then [Scene.titleScene] else w.scenes
    { w with scenes := appendToLast scenes [titleElement metadata] }
  else match Builtin.sceneName line with
    | some name =>
      let w := w.flush commands metadata
      { w with scenes := w.scenes ++ [Builtin.sceneOf name] }
    | none => match commands.blockAt? line with
      | some (command, modifier) =>
        { w.flush commands metadata with block := some ⟨command, modifier, []⟩ }
      | none => match w.block with
        | some block => { w with block := some { block with lines := block.lines ++ [line] } }
        | none =>
          if w.prose.isEmpty && Text.allBlank line then w
          else { w with prose := w.prose ++ [line] }

def scenesOf (lines : List Line) : List Scene :=
  ((lines.foldl (step commands metadata) start).flush commands metadata).scenes

end Walk

@[simp] theorem appendToLast_nil : (scenes : List Scene) → appendToLast scenes [] = scenes
  | [] => rfl
  | [scene] => by simp [appendToLast]
  | scene :: next :: rest => by rw [appendToLast, appendToLast_nil (next :: rest)]

theorem appendToLast_append_singleton (scenes : List Scene) (last : Scene)
    (elements : List Element) :
    appendToLast (scenes ++ [last]) elements =
      scenes ++ [{ last with elements := last.elements ++ elements }] := by
  induction scenes with
  | nil => rfl
  | cons scene rest ih => cases rest <;> simp_all [appendToLast]

/-- Adding elements in two goes is adding them in one. -/
theorem appendToLast_appendToLast (scenes : List Scene) (a b : List Element) :
    appendToLast (appendToLast scenes a) b = appendToLast scenes (a ++ b) := by
  rcases List.eq_nil_or_concat scenes with rfl | ⟨scenes, last, rfl⟩
  · rfl
  · simp [appendToLast_append_singleton]

end LessonScript
