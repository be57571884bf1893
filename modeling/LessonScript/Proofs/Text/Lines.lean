import LessonScript.Text.Lines
import Mathlib.Tactic.Common

/-!
# Cutting a text into lines

The two ways to cut a text into lines go along the text character by character, and both take a
carriage return before a line feed as part of the line ending. They part only at the end: a body
has a line behind its last line feed even if there is nothing in it.
-/

namespace LessonScript.Text

lemma splitOn_eq (sep : Char) (cs : List Char) : splitOn sep cs = cs.splitOn sep := by
  induction cs with
  | nil => rfl
  | cons c cs ih =>
    have hne := splitOn_ne_nil sep cs
    rw [splitOn, List.splitOn_cons_eq_if_modifyHead, ← ih]
    by_cases hc : c = sep
    · simp [hc]
    · simp only [hc, if_false, beq_iff_eq]
      cases hp : splitOn sep cs with
      | nil => exact absurd hp hne
      | cons part rest => rfl

/-- Lines with a character put at the head of the first one. -/
def onFirst (c : Char) : List Line → List Line
  | [] => [[c]]
  | line :: rest => (c :: line) :: rest

lemma splitOn_cons_of_ne {c sep : Char} (hc : c ≠ sep) (cs : List Char) :
    splitOn sep (c :: cs) = onFirst c (splitOn sep cs) := by
  rw [splitOn, if_neg hc]
  cases splitOn sep cs <;> rfl

lemma splitOn_return (cs : List Char) :
    splitOn '\n' ('\r' :: '\n' :: cs) = ['\r'] :: splitOn '\n' cs := by
  rw [splitOn_cons_of_ne (by decide), splitOn_cons_self]
  rfl

lemma dropReturn_cons {c : Char} (hc : c ≠ '\r') (line : Line) :
    dropReturn (c :: line) = c :: dropReturn line := by
  cases line with
  | nil => simp [dropReturn, hc]
  | cons d line =>
    rw [dropReturn, dropReturn, List.getLast?_cons_cons]
    split <;> rfl

/-- A way to cut a text into lines that knows both spellings of a line ending. -/
structure CutsLines (cut : List Char → List Line) : Prop where
  feed : ∀ cs, cut ('\n' :: cs) = [] :: cut cs
  returned : ∀ cs, cut ('\r' :: '\n' :: cs) = [] :: cut cs
  char : ∀ c cs, c ≠ '\n' → c ≠ '\r' → cut (c :: cs) = onFirst c (cut cs)

lemma cutsLines_bodyLines : CutsLines bodyLines where
  feed cs := by rw [bodyLines, splitOn_cons_self]; rfl
  returned cs := by rw [bodyLines, splitOn_return]; rfl
  char c cs hn hr := by
    obtain ⟨line, rest, hl⟩ := List.exists_cons_of_ne_nil (splitOn_ne_nil '\n' cs)
    simp only [bodyLines, splitOn_cons_of_ne hn, hl, onFirst, List.map_cons, dropReturn_cons hr]

/-- Lines from what stands between line feeds: the last piece is no line if it is empty, and
keeps a carriage return otherwise. -/
def ofPieces : List Line → List Line
  | [] => []
  | [last] => if last = [] then [] else [last]
  | piece :: next :: rest => dropReturn piece :: ofPieces (next :: rest)

lemma textLines_eq (cs : List Char) : textLines cs = ofPieces (splitOn '\n' cs) := by
  simp only [textLines]
  induction splitOn '\n' cs with
  | nil => rfl
  | cons piece rest ih =>
    cases rest with
    | nil => rfl
    | cons next rest =>
      rw [ofPieces, ← ih, List.dropLast_cons_cons, List.getLast?_cons_cons, List.map_cons,
        List.cons_append]

/-- A line of a text holds no line feed. -/
lemma newline_notMem_of_mem_textLines {cs : List Char} {line : Line} (h : line ∈ textLines cs) :
    '\n' ∉ line := by
  rcases List.mem_append.1 h with h | h
  · obtain ⟨piece, hpiece, rfl⟩ := List.mem_map.1 h
    exact newline_notMem_dropReturn (notMem_of_mem_splitOn (List.dropLast_subset _ hpiece))
  · split at h
    · cases h
    · obtain rfl := List.mem_singleton.1 h
      rw [List.getLast?_eq_some_getLast (splitOn_ne_nil '\n' cs)]
      exact notMem_of_mem_splitOn (List.getLast_mem _)

lemma ofPieces_onFirst {c : Char} (hr : c ≠ '\r') (piece : Line) (rest : List Line) :
    ofPieces (onFirst c (piece :: rest)) = onFirst c (ofPieces (piece :: rest)) := by
  cases rest with
  | nil => by_cases hp : piece = [] <;> simp [onFirst, ofPieces, hp]
  | cons next rest => rw [onFirst, ofPieces, dropReturn_cons hr, ofPieces, onFirst]

lemma cutsLines_textLines : CutsLines textLines where
  feed cs := by
    obtain ⟨piece, rest, hp⟩ := List.exists_cons_of_ne_nil (splitOn_ne_nil '\n' cs)
    rw [textLines_eq, textLines_eq, splitOn_cons_self, hp]
    rfl
  returned cs := by
    obtain ⟨piece, rest, hp⟩ := List.exists_cons_of_ne_nil (splitOn_ne_nil '\n' cs)
    rw [textLines_eq, textLines_eq, splitOn_return, hp]
    rfl
  char c cs hn hr := by
    obtain ⟨piece, rest, hp⟩ := List.exists_cons_of_ne_nil (splitOn_ne_nil '\n' cs)
    rw [textLines_eq, textLines_eq, splitOn_cons_of_ne hn, hp, ofPieces_onFirst hr]

end LessonScript.Text
