import LessonScript.Body
import LessonScript.Header

/-!
# Parsing scripts

A command set parses a script into a document. A parser owns a registry and takes its command
set once, when it is first needed; changing the registry drops the command set that was taken.
Markers are read without the commands, and blank lines of prose come to nothing without them.
-/

namespace LessonScript

namespace CommandSet

def parse (commands : CommandSet) (source : String) : Document :=
  let (metadata, body) := extractHeader source.toList
  ⟨metadata, Walk.scenesOf commands metadata (Text.bodyLines body)⟩

def parseInline (commands : CommandSet) (line : String) : List Segment :=
  scanSegments commands.inline line.toList

end CommandSet

/-- A registry with the command set taken from it, if one is taken. -/
structure Parser where
  registry : Registry
  taken : Option CommandSet

namespace Parser

/-- A parser that has not taken its commands yet. -/
def ofRegistry (registry : Registry) : Parser := ⟨registry, none⟩

def builtin : Parser := ofRegistry .builtin

/-- The command set that the parser works with. -/
def commands (p : Parser) : CommandSet := p.taken.getD p.registry.commandSet

def init (p : Parser) : Parser := { p with taken := some p.commands }

/-- The parser after something that may have needed the commands. -/
def initIf (p : Parser) (needed : Bool) : Parser := if needed then p.init else p

def isInitialized (p : Parser) : Bool := p.taken.isSome

/-- Changes the registry; the command set will be taken anew. -/
def modifyRegistry (p : Parser) (change : Registry → Registry) : Parser :=
  ⟨change p.registry, none⟩

def register (p : Parser) (name : String) (command : Command) : Parser :=
  p.modifyRegistry (·.register name command)

def clear (p : Parser) : Parser := p.modifyRegistry fun _ => .empty

/-- The document of a script. The first line that is no marker needs the commands. -/
def parse (p : Parser) (source : String) : Document × Parser :=
  let body := (extractHeader source.toList).2
  (p.commands.parse source, p.initIf ((Text.bodyLines body).any (!isMarker ·)))

/-- The segments of a line, and the parser with its command set taken. -/
def parseInline (p : Parser) (line : String) : List Segment × Parser :=
  (p.commands.parseInline line, p.init)

/-- The elements of lines of prose. The first line that is not blank needs the commands. -/
def parseLines (p : Parser) (lines : List String) : List Element × Parser :=
  let lines := lines.map String.toList
  (p.commands.proseElements lines, p.initIf (lines.any (!Text.allBlank ·)))

@[simp] theorem commands_ofRegistry (registry : Registry) :
    (ofRegistry registry).commands = registry.commandSet := rfl

@[simp] theorem registry_initIf (p : Parser) (needed : Bool) :
    (p.initIf needed).registry = p.registry := by
  cases needed <;> rfl

end Parser
end LessonScript
