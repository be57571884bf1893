import LessonScript.Text.Search

/-!
# Lines

A text is cut at line feeds. A carriage return right before a line feed belongs to the line
ending and not to the line.
-/

namespace LessonScript.Text

abbrev Line := List Char

/-- A line without one carriage return at its end. -/
def dropReturn (line : Line) : Line :=
  if line.getLast? = some '\r' then line.dropLast else line

/-- The lines of a text that is cut at every line feed, each without a final carriage return.
The text after the last line feed is a line too. -/
def bodyLines (cs : List Char) : List Line := (splitOn '\n' cs).map dropReturn

/-- The lines of a text whose last line feed ends a line rather than starting one. Only a
carriage return before a line feed is dropped, so an unfinished last line keeps its own. -/
def textLines (cs : List Char) : List Line :=
  let pieces := splitOn '\n' cs
  let last := pieces.getLast?.getD []
  pieces.dropLast.map dropReturn ++ if last = [] then [] else [last]

theorem newline_notMem_dropReturn {line : Line} (h : '\n' ∉ line) : '\n' ∉ dropReturn line := by
  unfold dropReturn
  split
  · exact fun hm => h (List.dropLast_subset line hm)
  · exact h

/-- A line of a body holds no line feed. -/
theorem newline_notMem_of_mem_bodyLines {cs : List Char} {line : Line}
    (h : line ∈ bodyLines cs) : '\n' ∉ line := by
  obtain ⟨piece, hp, rfl⟩ := List.mem_map.1 h
  exact newline_notMem_dropReturn (notMem_of_mem_splitOn hp)

end LessonScript.Text
