import LessonScript.Text.Blank
import LessonScript.Text.Lines

/-!
# Patterns

A pattern finds its occurrences in a text: left to right, without overlap. `Pattern.atHead`
makes a pattern from a recogniser that looks at the head of a text only; it tries every
position in turn and goes on behind each occurrence it finds.
-/

namespace LessonScript

/-- A place where a pattern occurs: its offset, the text it covers, and the part captured. -/
structure Occurrence where
  start : Nat
  covered : List Char
  capture : Option (List Char)
deriving Repr

def Occurrence.stop (m : Occurrence) : Nat := m.start + m.covered.length

/-- The occurrences stand in the text from an offset on, one behind the other. -/
def InOrder (text : List Char) : Nat → List Occurrence → Prop
  | _, [] => True
  | offset, m :: ms =>
    offset ≤ m.start ∧ m.covered <+: text.drop m.start ∧ InOrder text m.stop ms

theorem InOrder.mono {text : List Char} {ms : List Occurrence} {p q : Nat}
    (h : InOrder text p ms) (hq : q ≤ p) : InOrder text q ms := by
  cases ms with
  | nil => trivial
  | cons m ms => exact ⟨Nat.le_trans hq h.1, h.2⟩

/-- What a recogniser found at the head of a text: how many characters, and the part captured. -/
structure HeadMatch where
  length : Nat
  capture : Option (List Char)

/-- The occurrences at or behind an offset of the text that is left, the next `skip`
characters being taken already. -/
def occurrencesFrom (recognise : List Char → Option HeadMatch) :
    Nat → Nat → List Char → List Occurrence
  | _, _, [] => []
  | offset, skip + 1, _ :: cs => occurrencesFrom recognise (offset + 1) skip cs
  | offset, 0, c :: cs =>
    match recognise (c :: cs) with
    | none => occurrencesFrom recognise (offset + 1) 0 cs
    | some m =>
      ⟨offset, (c :: cs).take m.length, m.capture⟩ ::
        occurrencesFrom recognise (offset + 1) (m.length - 1) cs

theorem inOrder_occurrencesFrom (recognise : List Char → Option HeadMatch) (text : List Char) :
    ∀ (cs : List Char) (offset skip : Nat), text.drop offset = cs →
      InOrder text (offset + skip) (occurrencesFrom recognise offset skip cs)
  | [], _, _, _ => by simp [occurrencesFrom, InOrder]
  | _ :: cs, offset, skip + 1, h => by
    have ih := inOrder_occurrencesFrom recognise text cs (offset + 1) skip
      (by rw [← List.tail_drop, h, List.tail_cons])
    rw [occurrencesFrom]
    exact ih.mono (by omega)
  | c :: cs, offset, 0, h => by
    have hcs : text.drop (offset + 1) = cs := by rw [← List.tail_drop, h, List.tail_cons]
    rw [occurrencesFrom]
    split
    · exact (inOrder_occurrencesFrom recognise text cs (offset + 1) 0 hcs).mono (by omega)
    · rename_i m _
      refine ⟨Nat.le_refl _, ?_, ?_⟩
      · simpa [h] using List.take_prefix m.length (c :: cs)
      · refine (inOrder_occurrencesFrom recognise text cs (offset + 1) (m.length - 1) hcs).mono ?_
        simp only [Occurrence.stop, List.length_take]
        omega

structure Pattern where
  source : String
  find : List Char → List Occurrence
  inOrder : ∀ text, InOrder text 0 (find text)

namespace Pattern

/-- The pattern that occurs wherever a recogniser accepts the head of the text that is left. -/
def atHead (source : String) (recognise : List Char → Option HeadMatch) : Pattern where
  source := source
  find := occurrencesFrom recognise 0 0
  inOrder text := inOrder_occurrencesFrom recognise text text 0 0 rfl

end Pattern

/-- A letter, digit or underscore of ASCII. -/
def isWordChar (c : Char) : Bool := c.isAlphanum || c == '_'

/-- A span between an opening and the nearest closing mark; the text between them is captured
and holds only characters that satisfy `allowed`. -/
def spanAtHead (opening closing : List Char) (allowed : Char → Bool) (cs : List Char) :
    Option HeadMatch := do
  let rest ← Text.after? opening cs
  let (inner, _) ← Text.cutAt? closing rest
  if inner.all allowed then
    some ⟨opening.length + inner.length + closing.length, some inner⟩
  else none

/-- A name behind a marker: the text without its leading white space, which must not be empty
and holds no line feed. Where there is white space only, its last character is the name. -/
def nameAfter (marker line : List Char) : Option (List Char) := do
  let rest ← Text.after? marker line
  match Text.trimStart rest with
  | [] => rest.getLast?.bind fun c => if c = '\n' then none else some [c]
  | name => if '\n' ∈ name then none else some name

/-- A marker, alone or with a colon and a word of letters, digits and underscores behind it. -/
def wordAfter (marker line : List Char) : Option (Option (List Char)) := do
  match ← Text.after? marker line with
  | [] => some none
  | ':' :: word => if !word.isEmpty && word.all isWordChar then some (some word) else none
  | _ => none

end LessonScript
