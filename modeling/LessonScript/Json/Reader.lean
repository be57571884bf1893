import LessonScript.Json.Token

/-!
# Reading JSON

Data is put together token by token. The reader keeps the lists and records that are still open,
the innermost first, and knows what may come next.
-/

namespace LessonScript.Json

/-- A list or record that is still open, what it holds so far being kept in reverse. A record
also knows the key whose value comes next; a key that denotes no text makes the whole record
unreadable. -/
inductive Frame where
  | list (items : List Data)
  | record (fields : List (Option String × Data)) (key : Option String)

inductive Expected where
  | value
  | firstItem
  | itemEnd
  | firstKey
  | key
  | colon
  | fieldEnd
  | nothing
deriving DecidableEq

/-- The state of reading: the open frames, what may come next, and the data last completed. -/
structure Reader where
  frames : List Frame
  expected : Expected
  result : Data

namespace Reader

def start : Reader := ⟨[], .value, .null⟩

def give (r : Reader) (value : Data) : Reader :=
  match r.frames with
  | [] => ⟨[], .nothing, value⟩
  | .list items :: outer => ⟨.list (value :: items) :: outer, .itemEnd, r.result⟩
  | .record fields key :: outer =>
    ⟨.record ((key, value) :: fields) none :: outer, .fieldEnd, r.result⟩

def recordData (fields : List (Option String × Data)) : Data :=
  match fields.mapM fun (key, value) => key.map (·, value) with
  | some fields => .record fields
  | none => .unreadable

def close (r : Reader) : Option Reader :=
  match r.frames with
  | [] => none
  | .list items :: outer => some ({ r with frames := outer }.give (.list items.reverse))
  | .record fields _ :: outer =>
    some ({ r with frames := outer }.give (recordData fields.reverse))

def setKey (r : Reader) (key : Option String) : Option Reader :=
  match r.frames with
  | .record fields _ :: outer => some ⟨.record fields key :: outer, .colon, r.result⟩
  | _ => none

def begin? (r : Reader) : Token → Option Reader
  | .openList => some { r with frames := .list [] :: r.frames, expected := .firstItem }
  | .openRecord => some { r with frames := .record [] none :: r.frames, expected := .firstKey }
  | .text s => some (r.give ((s.map Data.text).getD .unreadable))
  | .scalar value => some (r.give value)
  | _ => none

/-- Takes the next token, if it may come next. -/
def feed (r : Reader) (token : Token) : Option Reader :=
  match r.expected, token with
  | .firstItem, .closeList | .itemEnd, .closeList => r.close
  | .firstKey, .closeRecord | .fieldEnd, .closeRecord => r.close
  | .itemEnd, .comma => some { r with expected := .value }
  | .fieldEnd, .comma => some { r with expected := .key }
  | .firstKey, .text s | .key, .text s => r.setKey s
  | .colon, .colon => some { r with expected := .value }
  | .value, token | .firstItem, token => r.begin? token
  | _, _ => none

end Reader

def ofTokens? (tokens : List Token) : Option Data := do
  let r ← tokens.foldlM Reader.feed .start
  if r.expected = .nothing then some r.result else none

def read? (text : String) : Option Data := (tokens text.toList).bind ofTokens?

end LessonScript.Json
