import LessonScript.Document.Segment

/-!
# Elements

Elements are what a scene presents one after another. Focus words and closings hold elements
of their own; the other kinds hold none.
-/

namespace LessonScript

structure Bilingual where
  en : String
  zh : String
deriving DecidableEq, Repr

def Bilingual.isEmpty (pair : Bilingual) : Bool := pair.en.isEmpty && pair.zh.isEmpty

inductive Element where
  | title (en zh : Option String)
  | text (content : List Segment)
  | quote (emphasis : Bool) (quotes : List Bilingual)
  | practice (practices : List Bilingual)
  | word (focus : String) (elements : List Element)
  | closing (elements : List Element)
  | pause (duration : Millis)
deriving Repr

inductive ElementKind where
  | title | text | quote | practice | word | closing | pause
deriving DecidableEq, Repr

def ElementKind.name : ElementKind → String
  | .title => "title"
  | .text => "text"
  | .quote => "quote"
  | .practice => "practice"
  | .word => "word"
  | .closing => "closing"
  | .pause => "pause"

namespace Element

def kind : Element → ElementKind
  | .title .. => .title
  | .text _ => .text
  | .quote .. => .quote
  | .practice _ => .practice
  | .word .. => .word
  | .closing _ => .closing
  | .pause _ => .pause

/-- A pause only delays what comes after it and is never presented. -/
def isPause : Element → Bool
  | .pause _ => true
  | _ => false

def children : Element → List Element
  | .word _ elements | .closing elements => elements
  | _ => []

/-- The element with other children; a kind without children stays as it is. -/
def withChildren (elements : List Element) : Element → Element
  | .word focus _ => .word focus elements
  | .closing _ => .closing elements
  | other => other

def textLength? : Element → Option Nat
  | .text content => some ((content.filterMap Segment.text?).flatMap String.toList).length
  | _ => none

/-- The delay of a text that opens with a pause. A pause further on delays nothing. -/
def leadingPause : Element → Millis
  | .text (.pause duration :: _) => duration
  | _ => 0

end Element
end LessonScript
