import LessonScript.Document.Metadata
import LessonScript.Text.Lines

/-!
# The metadata header

A script may open with a header: a line of three hyphens, the header's lines, and a second line
of three hyphens. A header line binds the text before its first colon to the text behind it.
-/

namespace LessonScript

open Text (Line)

/-- The key and value of a header line. A line without a colon, or with nothing before it, has
none. -/
def headerField (line : Line) : Option (String × MetaValue) :=
  let key := line.takeWhile (· ≠ ':')
  match line.drop key.length with
  | [] => none
  | _ :: value =>
    if key.isEmpty then none
    else some (String.ofList (Text.trim key), .ofText (Text.trim value))

/-- The metadata of a header; a later line with the same key gives the value. -/
def parseHeader (header : List Char) : Metadata :=
  .ofList ((Text.textLines header).filterMap headerField)

/-- What follows a line ending at the head of a text. -/
def afterBreak? : List Char → Option (List Char)
  | '\r' :: '\n' :: rest => some rest
  | '\n' :: rest => some rest
  | _ => none

/-- What follows a line of three hyphens at the head of a text, its line ending included. -/
def afterFence? (cs : List Char) : Option (List Char) :=
  (Text.after? "---".toList cs).bind afterBreak?

/-- The text up to the first line ending that a line of three hyphens follows, and what stands
behind that line. -/
def cutAtFence? : List Char → Option (List Char × List Char)
  | [] => none
  | c :: cs =>
    match (afterBreak? (c :: cs)).bind afterFence? with
    | some body => some ([], body)
    | none => (cutAtFence? cs).map fun (header, body) => (c :: header, body)

/-- The metadata of a script and the body behind its header. A script without a complete header
has no metadata and is all body. -/
def extractHeader (source : List Char) : Metadata × List Char :=
  match (afterFence? source).bind cutAtFence? with
  | some (header, body) => (parseHeader header, body)
  | none => (.empty, source)

theorem afterBreak?_eq_some {cs rest : List Char} (h : afterBreak? cs = some rest) :
    cs = '\n' :: rest ∨ cs = '\r' :: '\n' :: rest := by
  unfold afterBreak? at h
  split at h <;> simp_all

end LessonScript
