import LessonScript.Millis

/-!
# Hints

A command may suggest how its output is presented and how long its animation takes.
-/

namespace LessonScript

/-- The tag and class that a view wraps a command's output in. -/
structure RenderHint where
  tag : String
  cls : String
deriving DecidableEq, Repr

structure TimingHint where
  delay : Option Millis := none
  duration : Option Millis := none
  stagger : Option Millis := none
deriving DecidableEq, Repr

namespace RenderHint

def shown (hint : RenderHint) : String := s!"<{hint.tag} class=\"{hint.cls}\">"

end RenderHint

namespace TimingHint

def isEmpty (hint : TimingHint) : Bool :=
  hint.delay.isNone && hint.duration.isNone && hint.stagger.isNone

/-- The suggested times by name, or a hyphen when there are none. -/
def shown (hint : TimingHint) : String :=
  let parts := [("delay", hint.delay), ("duration", hint.duration), ("stagger", hint.stagger)]
  let words := parts.filterMap fun (label, time) => time.map fun m => s!"{label}={m.count}ms"
  if words.isEmpty then "-" else " ".intercalate words

end TimingHint
end LessonScript
