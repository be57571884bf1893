import LessonScript.Command.Registry

/-!
# Notices

Some events are no errors, but their user should hear of them: a command that displaces another
one, and a lesson that could not be loaded ahead of time.
-/

namespace LessonScript

inductive Notice where
  | overwriting (command : String)
  | notPreloaded (lesson : String) (error : String)
deriving DecidableEq, Repr

/-- The named parts of a notice, in the order of their names. -/
def Notice.parts : Notice → List (String × String)
  | .overwriting command =>
    [("command", command), ("message", "command is already registered, overwriting")]
  | .notPreloaded lesson error =>
    [("error", error), ("lesson", lesson), ("message", "could not preload lesson")]

def Notice.shown (notice : Notice) : String :=
  " ".intercalate (notice.parts.map fun (label, text) => s!"{label}={text}")

/-- What the user hears of when a name is bound: that it was bound before, if it was. -/
def Registry.noticesOf (r : Registry) (name : String) : List Notice :=
  if r.has name then [.overwriting name] else []

end LessonScript
