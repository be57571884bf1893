import LessonScript.Command.Hint
import LessonScript.Command.Pattern
import LessonScript.Document.Scene
import LessonScript.Text.Quoted

/-!
# Commands

A command recognises one kind of directive and decodes it. An inline command turns each
occurrence of its pattern within a line into a segment. A block command recognises a header
line and decodes the lines between it and the next marker.
-/

namespace LessonScript

open Text (Line)

/-- A directive within a line of prose. -/
structure InlineCommand where
  name : String
  pattern : Pattern
  decode : Option (List Char) → Segment
  render : Option RenderHint := none
  timing : TimingHint := {}
  timingOf : Segment → TimingHint := fun _ => timing

/-- What the lines of a block amount to: an element, an element whose children are still to be
read from lines of prose, or a new scene whose elements are. -/
inductive BlockContent where
  | element (element : Element)
  | container (element : Element) (lines : List Line)
  | scene (scene : Scene) (lines : List Line)

structure BlockCommand where
  name : String
  pattern : String
  header : Line → Option (Option (List Char))
  decode : List Line → Option (List Char) → BlockContent
  render : Option RenderHint := none
  timing : TimingHint := {}
  timingOf : Element → TimingHint := fun _ => timing

inductive Command where
  | inline (command : InlineCommand)
  | block (command : BlockCommand)

namespace Command

def name : Command → String
  | .inline command => command.name
  | .block command => command.name

def kind : Command → String
  | .inline _ => "inline"
  | .block _ => "block"

def pattern : Command → String
  | .inline command => command.pattern.source
  | .block command => command.pattern

def render : Command → Option RenderHint
  | .inline command => command.render
  | .block command => command.render

/-- The timing suggested when no particular output is at hand. -/
def timing : Command → TimingHint
  | .inline command => command.timing
  | .block command => command.timing

def inline? : Command → Option InlineCommand
  | .inline command => some command
  | .block _ => none

def block? : Command → Option BlockCommand
  | .inline _ => none
  | .block command => some command

def shown (command : Command) : String :=
  let fields := [("kind", command.kind), ("name", command.name), ("pattern", command.pattern)]
  let words := fields.map fun (label, text) => s!"{label}: {Text.quoted text}"
  "Command \x7b " ++ ", ".intercalate words ++ " \x7d"

end Command
end LessonScript
