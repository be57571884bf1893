import LessonScript.Decimal.Basic
import LessonScript.Format

/-!
# Command line options

A command line names one of four tasks and gives it options and at most one path. Options are
written "--name value", "--name=value", "-n value", "-nvalue" or "-n=value", each at most once;
behind "--" everything is a path. A file of settings may be named before the task or behind it.
Where a task could stand, "--version" or "-V" asks for the version and ends the command line.
-/

namespace LessonScript.CommandLine

inductive Task where
  | parse (path : String) (format : Format)
  | play (path : String) (scene : String) (speed : Float)
  | list (dir : Option String)
  | commands (patterns : Bool)
  | version

structure Invocation where
  config : Option String
  task : Task

/-- An option: its long name, its letter, and whether it takes a value. -/
structure OptionSpec where
  long : String
  letter : Option Char
  takesValue : Bool

def configOption : OptionSpec := ⟨"config", some 'c', true⟩

/-- The options of each task by the task's name, and whether it takes a path. -/
def taskOptions : List (String × List OptionSpec × Bool) :=
  [("parse", [configOption, ⟨"format", some 'f', true⟩], true),
    ("play", [configOption, ⟨"scene", some 's', true⟩, ⟨"speed", none, true⟩], true),
    ("list", [configOption, ⟨"dir", some 'd', true⟩], false),
    ("commands", [configOption, ⟨"patterns", none, false⟩], false)]

/-- The options given, with their values, and the paths. -/
structure Given where
  options : List (String × String)
  paths : List String

namespace Given

def add (g : Given) (name value : String) : Option Given :=
  if (g.options.lookup name).isSome then none
  else some { g with options := (name, value) :: g.options }

end Given

/-- An argument that looks like an option. A single hyphen does not. -/
def isOption (arg : String) : Bool := arg.startsWith "-" && arg != "-"

/-- The option that an argument names, and the value attached to it. -/
def optionOf? (specs : List OptionSpec) (arg : String) : Option (OptionSpec × Option String) :=
  match arg.toList with
  | '-' :: '-' :: rest =>
    let name := String.ofList (rest.takeWhile (· ≠ '='))
    let value := match rest.dropWhile (· ≠ '=') with
      | [] => none
      | _ :: value => some (String.ofList value)
    (specs.find? (·.long == name)).map (·, value)
  | '-' :: letter :: rest =>
    let value := match rest with
      | [] => none
      | '=' :: value => some (String.ofList value)
      | value => some (String.ofList value)
    (specs.find? (·.letter == some letter)).map (·, value)
  | _ => none

def readArgs (specs : List OptionSpec) : Given → List String → Option Given
  | g, [] => some g
  | g, "--" :: rest => some { g with paths := g.paths ++ rest }
  | g, arg :: rest =>
    if !isOption arg then readArgs specs { g with paths := g.paths ++ [arg] } rest
    else match optionOf? specs arg, rest with
      | none, _ => none
      | some (spec, some value), rest =>
        if spec.takesValue then (g.add spec.long value).bind (readArgs specs · rest) else none
      | some (spec, none), rest =>
        if !spec.takesValue then (g.add spec.long "").bind (readArgs specs · rest)
        else match rest with
          | [] => none
          | value :: rest =>
            if isOption value then none
            else (g.add spec.long value).bind (readArgs specs · rest)

def versionOption : String := "--version"

/-- Whether an argument asks for the version. What follows the letter does not matter. -/
def asksVersion (arg : String) : Bool := arg == versionOption || arg.startsWith "-V"

/-- Splits a command line into the options before the task, the task's name, and the rest. The
option for the version stands for the name of a task. -/
def readTask : Given → List String → Option (Given × String × List String)
  | _, [] => none
  | g, arg :: rest =>
    if asksVersion arg then some (g, versionOption, [])
    else if !isOption arg then some (g, arg, rest)
    else match optionOf? [configOption] arg, rest with
      | some (spec, some value), rest => (g.add spec.long value).bind (readTask · rest)
      | some (spec, none), value :: rest =>
        if isOption value then none else (g.add spec.long value).bind (readTask · rest)
      | _, _ => none

def read (args : List String) : Option Invocation := do
  let (before, name, rest) ← readTask ⟨[], []⟩ args
  if name = versionOption then return ⟨none, .version⟩
  let (specs, takesPath) ← taskOptions.lookup name
  let given ← readArgs specs ⟨[], []⟩ rest
  let value (name : String) := given.options.lookup name
  let path? ← match given.paths, takesPath with
    | [], false => some none
    | [path], true => some (some path)
    | _, _ => none
  let config := (value "config").or (before.options.lookup "config")
  match name, path? with
  | "parse", some path =>
    let format ← match value "format" with
      | none => some Format.usual
      | some text => Format.ofName? text
    some ⟨config, .parse path format⟩
  | "play", some path =>
    let speed ← Decimal.readFloat? ((value "speed").getD "1.0").toList
    some ⟨config, .play path ((value "scene").getD "0") speed⟩
  | "list", _ => some ⟨config, .list (value "dir")⟩
  | "commands", _ => some ⟨config, .commands (value "patterns").isSome⟩
  | _, _ => none

def usage : String :=
  "\n".intercalate [
    "usage: lesson parse PATH [--format FORMAT]",
    "       lesson play PATH [--scene SCENE] [--speed SPEED]",
    "       lesson list [--dir DIR]",
    "       lesson commands [--patterns]",
    "       lesson --version",
    "Each takes --config FILE for a file of settings."]

end LessonScript.CommandLine
