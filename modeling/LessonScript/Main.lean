import LessonScript.CommandLine.Run

/-!
# The program

Reads the command line, runs its task on the files at hand, and prints what it comes to.
-/

namespace LessonScript.CommandLine

def fileErrorOf : IO.Error → FileError
  | .noFileOrDirectory .. => .notFound
  | .noSuchThing .. => .notFound
  | .inappropriateType .. => .notDirectory
  | e => .other (toString e)

def actualDisk : Disk IO where
  read path := do
    try
      let bytes ← IO.FS.readBinFile path
      return match String.fromUTF8? bytes with
        | some text => .ok text
        | none => .error .notText
    catch e => return .error (fileErrorOf e)
  list path := do
    try
      let dir ← IO.FS.realPath path
      return .ok ((← dir.readDir).toList.map (·.fileName))
    catch e => return .error (fileErrorOf e)

/-- Waits for a duration, in naps of at most a second. -/
def nap (time : Millis) : IO Unit := do
  for _ in [0 : time.count / 1000] do IO.sleep 1000
  IO.sleep (UInt32.ofNat (time.count % 1000))

def emit : Chunk → IO Unit
  | .print text => do
    let out ← IO.getStdout
    out.putStr text
    out.flush
  | .wait time => nap time

end LessonScript.CommandLine

open LessonScript.CommandLine in
def main (args : List String) : IO UInt32 := do
  match read args with
  | none =>
    IO.eprintln usage
    return 2
  | some invocation =>
    match ← run actualDisk invocation with
    | .ok chunks =>
      chunks.forM emit
      return 0
    | .error message =>
      IO.eprintln message
      return 1
