import LessonScript.Library.LessonId
import LessonScript.Library.Source
import LessonScript.Notice
import LessonScript.Parser

/-!
# Loading lessons

A loader fetches scripts, parses them, and keeps every lesson that it has loaded. A lesson that
is kept is not fetched again until it is reloaded or all are dropped. The identifier that a
lesson was asked for becomes its metadata value "id".
-/

namespace LessonScript

inductive LoadError where
  | notFound (id : LessonId)
  | file (error : FileError)
deriving DecidableEq, Repr

def LoadError.message : LoadError → String
  | .notFound id => s!"Lesson {id.shown} not found: no script named {id.key}"
  | .file error => s!"IO error: {error.message}"

/-- The parser of a loader, once there is one, and the lessons kept by their identifiers. -/
structure Loader where
  parser : Option Parser
  cache : Table LessonId Document

/-- What an operation of a loader comes to: its result, the loader afterwards, the keys it
fetched, and what the user should hear of. -/
structure Loading (α : Type) where
  result : α
  loader : Loader
  fetched : List String
  notices : List Notice

namespace Loader

/-- A loader that makes a parser of the built-in commands when it first needs one. -/
def empty : Loader := ⟨none, .empty⟩

/-- A loader with a parser of its own. -/
def withParser (parser : Parser) : Loader := ⟨some parser.init, .empty⟩

def isInitialized (l : Loader) : Bool := l.parser.isSome

def engine (l : Loader) : Parser := l.parser.getD Parser.builtin.init

def init (l : Loader) : Loader := { l with parser := some l.engine }

def isCached (l : Loader) (id : LessonId) : Bool := l.cache.contains id

def clear (l : Loader) : Loader := { l with cache := .empty }

def evict (l : Loader) (id : LessonId) : Loader := { l with cache := l.cache.erase id }

/-- The document of a lesson, given its script. -/
def documentOf (l : Loader) (id : LessonId) (script : String) : Document :=
  let doc := l.engine.commands.parse script
  { doc with metadata := doc.metadata.insert "id" id.toMeta }

def load (l : Loader) (source : Source) (id : LessonId) : Loading (Except LoadError Document) :=
  match l.cache.get? id with
  | some doc => ⟨.ok doc, l, [], []⟩
  | none =>
    match source.fetch id.key with
    | .error e => ⟨.error (.file e), l.init, [id.key], []⟩
    | .ok none => ⟨.error (.notFound id), l.init, [id.key], []⟩
    | .ok (some script) =>
      let doc := l.documentOf id script
      ⟨.ok doc, { l.init with cache := l.cache.insert id doc }, [id.key], []⟩

def reload (l : Loader) (source : Source) (id : LessonId) : Loading (Except LoadError Document) :=
  (l.evict id).load source id

/-- Loads lessons one after another. Those that load are returned in the order they were first
asked for; the user hears of the others. -/
def preload (l : Loader) (source : Source) (ids : List LessonId) :
    Loading (Table LessonId Document) :=
  ids.foldl (fun done id =>
    let next := done.loader.load source id
    let fetched := done.fetched ++ next.fetched
    match next.result with
    | .ok doc => ⟨done.result.insert id doc, next.loader, fetched, done.notices⟩
    | .error e =>
      ⟨done.result, next.loader, fetched, done.notices ++ [.notPreloaded id.shown e.message]⟩)
    ⟨.empty, l, [], []⟩

def shown (l : Loader) : String :=
  "LessonLoader \x7b initialized: " ++ toString l.isInitialized ++ ", cached: " ++
    toString l.cache.size ++ " \x7d"

end Loader

namespace Source

/-- Whether a source holds the script of a lesson. -/
def hasLesson (source : Source) (id : LessonId) : Bool := source.contains id.key

def lessonNumbers (keys : List String) : List Nat :=
  ((keys.filterMap LessonId.numberOfKey?).mergeSort (· ≤ ·)).eraseReps

def lessons (source : Source) : Except LoadError (List Nat) :=
  match source.keys with
  | .ok keys => .ok (lessonNumbers keys)
  | .error e => .error (.file e)

end Source
end LessonScript
