import LessonScript.Command.Registry

/-!
# Decoding a line

The occurrences of all inline commands are taken in order of their start, those with one start
in the order of their commands. An occurrence that starts inside text already taken is dropped,
and its markup stays raw text. What lies between the kept occurrences is raw text too.
-/

namespace LessonScript

/-- An occurrence of a command's pattern, with the command. -/
structure Candidate where
  command : InlineCommand
  occurrence : Occurrence

namespace Candidate

def segment (c : Candidate) : Segment := c.command.decode c.occurrence.capture

end Candidate

/-- The occurrences of all commands in a line, by start and then by command. -/
def candidates (commands : List InlineCommand) (line : List Char) : List Candidate :=
  let found := commands.flatMap fun command => (command.pattern.find line).map (⟨command, ·⟩)
  found.mergeSort fun a b => a.occurrence.start ≤ b.occurrence.start

/-- The candidates that do not start inside one that is kept before them; `offset` is where the
text not yet taken begins. -/
def keepDisjoint : Nat → List Candidate → List Candidate
  | _, [] => []
  | offset, c :: rest =>
    if c.occurrence.start < offset then keepDisjoint offset rest
    else c :: keepDisjoint c.occurrence.stop rest

def rawSegments (cs : List Char) : List Segment :=
  if cs.isEmpty then [] else [.raw (String.ofList cs)]

/-- The segments of the text from an offset on, given the candidates kept in it. -/
def assemble : Nat → List Char → List Candidate → List Segment
  | _, rest, [] => rawSegments rest
  | offset, rest, c :: kept =>
    let before := c.occurrence.start - offset
    rawSegments (rest.take before) ++ c.segment ::
      assemble c.occurrence.stop (rest.drop (before + c.occurrence.covered.length)) kept

/-- The segments of a line: never none, since a line without directives is one raw segment. -/
def scanSegments (commands : List InlineCommand) (line : List Char) : List Segment :=
  match assemble 0 line (keepDisjoint 0 (candidates commands line)) with
  | [] => [.raw (String.ofList line)]
  | segments => segments

theorem scanSegments_ne_nil (commands : List InlineCommand) (line : List Char) :
    scanSegments commands line ≠ [] := by
  unfold scanSegments
  split
  · simp
  · assumption

end LessonScript
