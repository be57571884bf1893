import LessonScript.Decimal.Basic

/-!
# Structured data

The data that structured text formats write: scalars, lists and records. A record may name a
field twice; what reads it decides what that means.
-/

namespace LessonScript

/-- Structured data. `unreadable` stands for data that is written well but denotes nothing, such
as a text with half of a surrogate pair: it can be skipped, but not used. -/
inductive Data where
  | null
  | bool (b : Bool)
  | int (n : Int)
  | real (d : Decimal)
  | text (s : String)
  | list (items : List Data)
  | record (fields : List (String × Data))
  | unreadable
deriving Repr

namespace Data

instance : Inhabited Data := ⟨.null⟩

mutual

/-- Whether all of some data can be used and its lists and records nest at most `depth` deep. -/
def usable (depth : Nat) : Data → Bool
  | .unreadable => false
  | .list items => 0 < depth && usableItems (depth - 1) items
  | .record fields => 0 < depth && usableFields (depth - 1) fields
  | _ => true

def usableItems (depth : Nat) : List Data → Bool
  | [] => true
  | item :: rest => usable depth item && usableItems depth rest

def usableFields (depth : Nat) : List (String × Data) → Bool
  | [] => true
  | (_, value) :: rest => usable depth value && usableFields depth rest

end

def text? : Data → Option String
  | .text s => some s
  | _ => none

def bool? : Data → Option Bool
  | .bool b => some b
  | _ => none

def int? : Data → Option Int
  | .int n => some n
  | _ => none

def list? : Data → Option (List Data)
  | .list items => some items
  | _ => none

def record? : Data → Option (List (String × Data))
  | .record fields => some fields
  | _ => none

/-- The value of a field: nothing is certain when the record names the field twice, and the
field may be missing. -/
def field? (fields : List (String × Data)) (name : String) : Option (Option Data) :=
  match fields.filter (·.1 == name) with
  | [] => some none
  | [(_, value)] => some (some value)
  | _ => none

/-- The fields of a structure with the given field names. A structure is a record, or a list of
the first so many fields. Other fields of a record are passed over. -/
def structure? (names : List String) : Data → Option (List (Option Data))
  | .record fields => names.mapM (field? fields)
  | .list items =>
    if items.length ≤ names.length then
      some (items.map some ++ List.replicate (names.length - items.length) none)
    else none
  | _ => none

/-- The tag of tagged data and the data without its tag: the tag is the field of that name in a
record, or the first item of a list. -/
def tagged? (name : String) : Data → Option (Data × Data)
  | .record fields => do
    let tag ← (← field? fields name)
    some (tag, .record (fields.filter (·.1 != name)))
  | .list (tag :: rest) => some (tag, .list rest)
  | _ => none

def optionalText : Option Data → Option (Option String)
  | none | some .null => some none
  | some (.text s) => some (some s)
  | some _ => none

/-- A field that is left out of a record when there is no text for it. -/
def optionalField (name : String) (text : Option String) : List (String × Data) :=
  match text with
  | none => []
  | some s => [(name, .text s)]

end Data
end LessonScript
