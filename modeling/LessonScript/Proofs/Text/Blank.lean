import LessonScript.Text.Blank
import Mathlib.Data.List.DropRight
import Mathlib.Tactic.Common

/-!
# Trimming

Trimming takes the white space off both ends of a text, and nothing is left of it exactly when it
is white space throughout.
-/

namespace LessonScript.Text

lemma trimEnd_eq (cs : List Char) : trimEnd cs = cs.rdropWhile isBlank := rfl

lemma trimEnd_subset (cs : List Char) : trimEnd cs ⊆ cs := (List.rdropWhile_prefix ..).subset

lemma trim_subset (cs : List Char) : trim cs ⊆ cs :=
  List.Subset.trans (trimEnd_subset _) (List.dropWhile_sublist _).subset

/-- There is nothing left to trim once a text is trimmed. -/
lemma trim_trim (cs : List Char) : trim (trim cs) = trim cs := by
  have hstart : trimStart (trim cs) = trim cs := by
    obtain ⟨rest, hrest⟩ : trim cs <+: cs.dropWhile isBlank := List.rdropWhile_prefix ..
    cases hcs : trim cs with
    | nil => rfl
    | cons c more =>
      have hhead := List.head?_dropWhile_not isBlank cs
      rw [← hrest, hcs] at hhead
      exact List.dropWhile_cons_of_neg (by simpa using hhead)
  rw [trim, hstart, trim, trimEnd_eq, trimEnd_eq, List.rdropWhile_idempotent]

lemma trimEnd_eq_nil_iff {cs : List Char} : trimEnd cs = [] ↔ allBlank cs = true := by
  rw [trimEnd_eq, List.rdropWhile_eq_nil_iff, allBlank, List.all_eq_true]

lemma trim_eq_nil_iff {cs : List Char} : trim cs = [] ↔ allBlank cs = true := by
  constructor
  · intro h
    have hbehind : (cs.dropWhile isBlank).all isBlank = true := trimEnd_eq_nil_iff.1 h
    rw [allBlank, ← List.takeWhile_append_dropWhile (p := isBlank) (l := cs), List.all_append,
      List.all_takeWhile, hbehind, Bool.and_true]
  · intro h
    rw [trim, trimStart_eq_nil_iff.2 h]
    rfl

/-- The lines that are not white space throughout. -/
def solidLines (lines : List (List Char)) : List (List Char) := lines.filter (!allBlank ·)

lemma solidLines_cons_of_blank {line : List Char} (h : allBlank line = true)
    (lines : List (List Char)) : solidLines (line :: lines) = solidLines lines :=
  List.filter_cons_of_neg (by simp [h])

lemma solidLines_cons_of_solid {line : List Char} (h : allBlank line = false)
    (lines : List (List Char)) : solidLines (line :: lines) = line :: solidLines lines :=
  List.filter_cons_of_pos (by simp [h])

lemma solidLines_cons_congr {a b : List (List Char)} (h : solidLines a = solidLines b)
    (line : List Char) : solidLines (line :: a) = solidLines (line :: b) := by
  rw [solidLines, solidLines, List.filter_cons, List.filter_cons, ← solidLines, h, solidLines]

lemma filter_map_trim (lines : List (List Char)) :
    (lines.map trim).filter (!·.isEmpty) = (solidLines lines).map trim := by
  have hsolid : ∀ line : List Char, (!(trim line).isEmpty) = !allBlank line := by
    intro line
    rw [Bool.eq_iff_iff]
    simp [trim_eq_nil_iff]
  rw [List.filter_map, solidLines]
  simp only [Function.comp_def, hsolid]

/-- Text that ends in no white space is not touched when more text is put behind it. -/
lemma trimEnd_append {front : List Char} (h : trimEnd front = front) (cs : List Char) :
    trimEnd (front ++ cs) = front ++ trimEnd cs := by
  rw [trimEnd, List.reverse_append, List.dropWhile_append]
  split
  · rename_i hnil
    have hblank : trimEnd cs = [] := by
      rw [trimEnd, List.isEmpty_iff.1 hnil, List.reverse_nil]
    rw [hblank, List.append_nil]
    exact h
  · rw [List.reverse_append, List.reverse_reverse, trimEnd]

end LessonScript.Text
