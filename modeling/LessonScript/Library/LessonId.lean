import LessonScript.Document.Metadata
import LessonScript.Text.Search

/-!
# Lesson identifiers

A lesson goes by a number or by a name. Its storage key is the identifier padded on the left
with zeros to three characters, so lesson 7 is stored as "lesson007".
-/

namespace LessonScript

inductive LessonId where
  | number (n : UInt32)
  | name (s : String)
deriving DecidableEq, Repr

namespace LessonId

/-- The identifier that a text spells: a number if it is a numeral that fits 32 bits. -/
def ofText (s : String) : LessonId :=
  match Text.readUpTo (Text.wordMax 32) s.toList with
  | some n => .number (UInt32.ofNat n)
  | none => .name s

def shown : LessonId → String
  | .number n => String.ofList (Text.digits n.toNat)
  | .name s => s

def keyHead : List Char := "lesson".toList

def key (id : LessonId) : String := String.ofList (keyHead ++ Text.padZeros 3 id.shown.toList)

def toMeta : LessonId → MetaValue
  | .number n => .int (Int64.ofNat n.toNat)
  | .name s => .str s

/-- The number of the lesson that a key names with digits. -/
def numberOfKey? (key : String) : Option Nat := do
  let rest ← Text.after? keyHead key.toList
  Text.readUpTo (Text.wordMax 32) rest

end LessonId
end LessonScript
