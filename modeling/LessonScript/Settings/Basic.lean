import LessonScript.Library.FileTree
import LessonScript.Settings.Layer
import LessonScript.Timing
import LessonScript.Toml.Statement

/-!
# Settings

The settings of the program are the timing of playback and the place of the script library.
They start from defaults; files are laid over these in order, and single settings over all files.
What results has to have the right types and to be usable.
-/

namespace LessonScript

structure LibrarySettings where
  dir : String
  extension : String
deriving DecidableEq, Repr

structure Settings where
  timing : Timing
  library : LibrarySettings
deriving DecidableEq, Repr

inductive SettingsError where
  /-- The text is not a path to a setting. -/
  | badPath (text : String)
  | missingFile (path : String)
  | notText
  | badFile (path : String)
  /-- A setting, perhaps from a file, has the wrong type. -/
  | wrongType (found wanted : String) (steps : List PathStep) (origin : Option String)
  /-- A group of settings is no table, or lacks a setting. -/
  | badGroup (reason : String)
  | invalid (key reason : String)
deriving DecidableEq, Repr

namespace SettingsError

def message : SettingsError → String
  | .badPath text => s!"{text} is not a path to a setting"
  | .missingFile path => s!"configuration file \"{path}\" not found"
  | .notText => FileError.notText.message
  | .badFile path => s!"{path} is not well-formed"
  | .wrongType found wanted steps origin =>
    s!"invalid type: {found}, expected {wanted} for key \x60{PathStep.shown steps}\x60" ++
      match origin with
      | some file => s!" in {file}"
      | none => ""
  | .badGroup reason => reason
  | .invalid key reason => s!"invalid {key}: {reason}"

/-- An error about a setting, seen from the group that the setting is in. -/
def within (step : PathStep) : SettingsError → SettingsError
  | .wrongType found wanted steps origin => .wrongType found wanted (step :: steps) origin
  | other => other

end SettingsError

/-- A file of settings: its path, and its text if it can be read. A file that is not required is
passed over if it cannot. -/
structure SettingsFile where
  path : String
  text : Except FileError String
  required : Bool

/-- A field of a group of settings: its name, and how its value is put into the group. -/
structure SettingField (σ : Type) where
  name : String
  put : Setting → σ → Except SettingsError σ

/-- The field that is read in some way and kept in some place. -/
def SettingField.of {α σ : Type} (name : String) (read : Setting → Except SettingsError α)
    (keep : α → σ → σ) : SettingField σ :=
  ⟨name, fun v s => (read v).map fun a => keep a s⟩

/-- A group with the value of a field that stands one step away. -/
def SettingField.putAt {σ : Type} (field : SettingField σ) (step : PathStep) (v : Setting) (s : σ) :
    Except SettingsError σ :=
  (field.put v s).mapError (·.within step)

namespace Setting

/-- A group of settings: a table with its fields, or a list with the fields in order. Of a table,
the fields that are there are read before one that is missing is looked for. -/
def readGroup {σ : Type} (group : String) (fields : List (SettingField σ)) (start : σ) :
    Setting → Except SettingsError σ
  | .table _ entries => do
    let result ← fields.foldlM (fun s field => match entries.lookup field.name with
      | some v => field.putAt (.key field.name) v s
      | none => .ok s) start
    match fields.find? fun field => (entries.lookup field.name).isNone with
    | some field => throw (.badGroup s!"missing field \x60{field.name}\x60")
    | none => return result
  | .list _ items => do
    let result ← (fields.zip items.zipIdx).foldlM
      (fun s (field, v, n) => field.putAt (.item n) v s) start
    if items.length < fields.length then
      throw (.badGroup
        s!"invalid length {items.length}, expected struct {group} with {fields.length} elements")
    return result
  | .scalar _ value =>
    .error (.badGroup s!"invalid type: {value.describedAlone}, expected struct {group}")

/-- What is said about a setting of the wrong type. -/
def mistyped (v : Setting) (wanted : String) : SettingsError :=
  .wrongType v.described wanted [] v.origin

/-- A duration: a whole number, or something that can stand for one. A number with a fraction is
rounded, truth values are one and zero, and so are the usual words for them. -/
def readMillis (v : Setting) : Except SettingsError Millis :=
  match v with
  | .scalar _ (.int n) =>
    if 0 ≤ n then .ok (.ofNat n.toNat)
    else .error (v.mistyped "an unsigned 64 bit or less integer")
  | .scalar _ (.bool b) => .ok (if b then 1 else 0)
  | .scalar _ (.real x) => .ok (.ofNat x.round.toUInt64.toNat)
  | .scalar _ (.text s) =>
    let word := String.ofList (Text.lower s.toList)
    if ["true", "on", "yes"].contains word then .ok 1
    else if ["false", "off", "no"].contains word then .ok 0
    else match Text.readSignedUpTo Millis.limit s.toList with
      | some n => .ok (.ofNat n)
      | none => .error (v.mistyped "an integer")
  | other => .error (other.mistyped "an integer")

def readText (v : Setting) : Except SettingsError String :=
  match v with
  | .scalar _ (.text s) => .ok s
  | .scalar _ (.int n) => .ok (toString n)
  | .scalar _ (.bool b) => .ok (toString b)
  | .scalar _ (.real x) => .ok (floatText x)
  | other => .error (other.mistyped "a string")

def readPacing : Setting → Except SettingsError Pacing :=
  readGroup "Pacing" [
    .of "duration" readMillis fun duration p => { p with duration },
    .of "gap" readMillis fun gap p => { p with gap }] ⟨0, 0⟩

def readTextPacing : Setting → Except SettingsError TextPacing :=
  readGroup "TextPacing" [
    .of "per_char" readMillis fun perChar p => { p with perChar },
    .of "min" readMillis fun min p => { p with min },
    .of "max" readMillis fun max p => { p with max },
    .of "gap" readMillis fun gap p => { p with gap }] ⟨0, 0, 0, 0⟩

def readTiming : Setting → Except SettingsError Timing :=
  readGroup "TimingConfig" [
    .of "title" readPacing fun title t => { t with title },
    .of "quote" readPacing fun quote t => { t with quote },
    .of "practice" readPacing fun practice t => { t with practice },
    .of "word" readPacing fun word t => { t with word },
    .of "closing" readPacing fun closing t => { t with closing },
    .of "text" readTextPacing fun text t => { t with text }] {}

def readLibrary : Setting → Except SettingsError LibrarySettings :=
  readGroup "LibraryConfig" [
    .of "dir" readText fun dir l => { l with dir },
    .of "extension" readText fun extension l => { l with extension }] ⟨"", ""⟩

def readSettings : Setting → Except SettingsError Settings :=
  readGroup "EngineConfig" [
    .of "timing" readTiming fun timing s => { s with timing },
    .of "library" readLibrary fun library s => { s with library }] ⟨{}, ⟨"", ""⟩⟩

def ofMillis (m : Millis) : Setting := .ofInt m.count

def ofPacing (p : Pacing) : Setting :=
  .ofEntries [("duration", ofMillis p.duration), ("gap", ofMillis p.gap)]

/-- Settings as a table of settings. -/
def ofSettings (s : Settings) : Setting :=
  let t := s.timing
  .ofEntries [("timing", .ofEntries [("title", ofPacing t.title), ("quote", ofPacing t.quote),
      ("practice", ofPacing t.practice), ("word", ofPacing t.word),
      ("closing", ofPacing t.closing),
      ("text", .ofEntries [("per_char", ofMillis t.text.perChar), ("min", ofMillis t.text.min),
        ("max", ofMillis t.text.max), ("gap", ofMillis t.text.gap)])]),
    ("library", .ofEntries [("dir", .ofText s.library.dir),
      ("extension", .ofText s.library.extension)])]

end Setting

namespace Settings

/-- The settings that hold where nothing else is said. -/
def defaults : Settings := ⟨{}, ⟨"lessons", "md"⟩⟩

def dropDot (s : Settings) : Settings :=
  match s.library.extension.toList with
  | '.' :: bare => { s with library := { s.library with extension := String.ofList bare } }
  | _ => s

/-- The settings, if they are usable: texts take time, the bounds of their duration do not
cross, and there is an extension. -/
def validate (s : Settings) : Except SettingsError Settings :=
  let text := s.timing.text
  if text.perChar.count = 0 then
    .error (.invalid "timing.text.per_char" "must be greater than zero")
  else if text.max.count < text.min.count then
    .error (.invalid "timing.text.min"
      s!"{text.min.count} is above timing.text.max ({text.max.count})")
  else if s.library.extension.isEmpty then
    .error (.invalid "library.extension" "must not be empty")
  else .ok s

/-- Settings with a file laid over them. -/
def overlayFile (root : Setting) (file : SettingsFile) : Except SettingsError Setting :=
  match file.text with
  | .error e =>
    if !file.required then .ok root
    else .error (if e = .notText then .notText else .missingFile file.path)
  | .ok text =>
    match Toml.read? text with
    | some entries => .ok (root.overlayFile (Setting.readEntriesFrom file.path entries))
    | none => .error (.badFile file.path)

def load (files : List SettingsFile) (single : List (String × Setting)) :
    Except SettingsError Settings := do
  let single ← single.mapM fun (text, v) =>
    match SettingPath.ofText? text with
    | some path => .ok (path, v)
    | none => .error (.badPath text)
  let root ← files.foldlM overlayFile (Setting.ofSettings defaults)
  let root := single.foldl (fun root (path, v) => root.placeAt path v) root
  (← root.readSettings).dropDot.validate

end Settings
end LessonScript
