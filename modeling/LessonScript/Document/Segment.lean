import LessonScript.Millis

/-!
# Segments

A line of prose decodes to segments: raw text, pauses, styled text, and the output of inline
commands beyond the built-in ones.
-/

namespace LessonScript

/-- A piece of a decoded line. -/
inductive Segment where
  | raw (text : String)
  | pause (duration : Millis)
  | ego (text : String)
  | bold (text : String)
  | directive (name : String) (text : Option String)
deriving DecidableEq, Repr

namespace Segment

def kind : Segment → String
  | .raw _ => "raw"
  | .pause _ => "pause"
  | .ego _ => "ego"
  | .bold _ => "bold"
  | .directive name _ => name

def text? : Segment → Option String
  | .raw text | .ego text | .bold text => some text
  | .directive _ text => text
  | .pause _ => none

def pause? : Segment → Option Millis
  | .pause duration => some duration
  | _ => none

end Segment
end LessonScript
