import LessonScript.Proofs.Library.Loading

/-!
# Asking for a lesson and loading it

A source says that it holds a lesson without reading the script. For scripts in memory, and for a
source that fetches when it is asked, this is so exactly when the lesson loads. A directory only
looks whether there is something at the path of the script: it also answers yes where a directory
of this name stands, or a file whose bytes are no text.
-/

namespace LessonScript
namespace FileNode

lemma follow_error {nodes : List FileNode} {parts : List String} {e : FileError}
    (h : follow nodes parts = .error e) :
    e = .notFound ∨ e = .notDirectory ∨ e = .nameTooLong := by
  fun_induction follow nodes parts with
  | case1 | case7 => exact .inl (Except.error.inj h).symm
  | case2 => cases h
  | case3 => exact .inr (.inl (Except.error.inj h).symm)
  | case6 => exact .inr (.inr (Except.error.inj h).symm)
  | case4 entries above part rest hstays ih => exact ih h
  | case5 entries above rest hpart ih => exact ih h
  | case8 entries above part rest hpart hup hshort child hchild ih => exact ih h

/-- What looking for a path fails on is neither a directory nor a text. -/
lemma find_error {root : FileNode} {path : String} {e : FileError}
    (h : root.find path = .error e) : e ≠ .isDirectory ∧ e ≠ .notText := by
  rw [find] at h
  split_ifs at h with hnul hlong hrooted
  · obtain rfl := Except.error.inj h
    exact ⟨by decide, by decide⟩
  · obtain rfl := Except.error.inj h
    exact ⟨by decide, by decide⟩
  · obtain rfl := Except.error.inj h
    exact ⟨by decide, by decide⟩
  · obtain rfl | rfl | rfl := follow_error h <;> exact ⟨by decide, by decide⟩

lemma contains_iff_read {root : FileNode} {path : String} :
    root.contains path = true ↔ (∃ text, root.read path = .ok text) ∨
      root.read path = .error .isDirectory ∨ root.read path = .error .notText := by
  rw [contains, read]
  cases hfind : root.find path with
  | error e =>
    obtain ⟨hdirectory, htext⟩ := find_error hfind
    simp [Except.toOption, hdirectory, htext]
  | ok node =>
    cases node with
    | directory entries => simp [Except.toOption]
    | file content =>
      simp only [Except.toOption, Option.isSome_some, true_iff]
      cases String.fromUTF8? content with
      | none => exact .inr (.inr rfl)
      | some text => exact .inl ⟨text, rfl⟩

end FileNode

namespace Source

lemma provides_iff {fetch : String → Except FileError (Option String)} {key : String} :
    provides fetch key = true ↔ ∃ script, fetch key = .ok (some script) := by
  rw [provides]
  cases fetch key with
  | error e => simp
  | ok script? => cases script? <;> simp

lemma contains_ofScripts (scripts : Table String String) (key : String) :
    (ofScripts scripts).contains key = provides (ofScripts scripts).fetch key := by
  rw [Bool.eq_iff_iff, provides_iff]
  simp only [ofScripts, Table.contains_eq, Option.isSome_iff_exists, Except.ok.injEq]

end Source

namespace ScriptDirectory

lemma contains_source (d : ScriptDirectory) (root : FileNode) (key : String) :
    (d.source root).contains key = true ↔
      Source.provides (d.source root).fetch key = true ∨
      (d.source root).fetch key = .error .isDirectory ∨
      (d.source root).fetch key = .error .notText := by
  rw [Source.provides_iff]
  simp only [source]
  rw [FileNode.contains_iff_read]
  cases root.read (d.pathFor key) with
  | ok text => simp [scriptOf]
  | error e => cases e <;> simp [scriptOf]

end ScriptDirectory

/-- A lesson that is not kept loads if and only if its script can be fetched. -/
lemma Loader.load_ok_iff {l : Loader} {id : LessonId} (h : l.cache.get? id = none)
    (source : Source) :
    (∃ doc, (l.load source id).result = .ok doc) ↔
      Source.provides source.fetch id.key = true := by
  rw [Source.provides_iff]
  have hfetched := fetched_load source h
  constructor
  · rintro ⟨doc, hdoc⟩
    obtain ⟨-, script, hscript, -⟩ | ⟨e, he, -⟩ := hfetched.kept_or_error
    · exact ⟨script, hscript⟩
    · cases hdoc.symm.trans he
  · rintro ⟨script, hscript⟩
    obtain ⟨doc, -, hdoc, -⟩ := hfetched.loaded script hscript
    exact ⟨doc, hdoc⟩

/-- A lesson that is not kept is said to be there if and only if it loads, except that a directory
also counts what it cannot read as a text. -/
theorem Loader.hasLesson_iff_load (l : Loader) (id : LessonId) (h : l.isCached id = false) :
    (∀ scripts, (Source.ofScripts scripts).hasLesson id = true ↔
      ∃ doc, (l.load (.ofScripts scripts) id).result = .ok doc) ∧
    (∀ fetch keys, (Source.ofFetch fetch keys).hasLesson id = true ↔
      ∃ doc, (l.load (.ofFetch fetch keys) id).result = .ok doc) ∧
    ∀ (d : ScriptDirectory) (root : FileNode), (d.source root).hasLesson id = true ↔
      (∃ doc, (l.load (d.source root) id).result = .ok doc) ∨
      (l.load (d.source root) id).result = .error (.file .isDirectory) ∨
      (l.load (d.source root) id).result = .error (.file .notText) := by
  rw [isCached_eq_false_iff] at h
  refine ⟨?_, ?_, ?_⟩
  · intro scripts
    rw [load_ok_iff h, Source.hasLesson, Source.contains_ofScripts]
  · intro fetch keys
    rw [load_ok_iff h]
    rfl
  · intro d root
    rw [load_ok_iff h, (fetched_load _ h).file, (fetched_load _ h).file]
    exact d.contains_source root id.key

theorem Loader.hasLesson_iff_load_of_bytes :
    let source := (ScriptDirectory.of "." "md").source
      (.directory [("lesson001.md", .file ⟨#[0xff, 0xfe, 0x41]⟩)])
    Loader.empty.isCached (.number 1) = false ∧
    ((∃ doc, (Loader.empty.load source (.number 1)).result = .ok doc) ∨
      (Loader.empty.load source (.number 1)).result = .error (.file .isDirectory) ∨
      (Loader.empty.load source (.number 1)).result = .error (.file .notText)) :=
  ⟨rfl, ((Loader.empty.hasLesson_iff_load (.number 1) rfl).2.2 _ _).1 (by decide +kernel)⟩

/-- A directory that goes by the name of a script is taken for it, and does not load. -/
theorem Source.hasLesson_directory :
    let source := (ScriptDirectory.of "." "md").source
      (.directory [("lesson001.md", .directory [])])
    source.hasLesson (.number 1) = true ∧ Loader.empty.isCached (.number 1) = false ∧
      ¬∃ doc, (Loader.empty.load source (.number 1)).result = .ok doc := by
  intro source
  refine ⟨by decide +kernel, rfl, ?_⟩
  rintro ⟨doc, hdoc⟩
  have hfetch : source.fetch (LessonId.number 1).key = .error .isDirectory := by decide +kernel
  cases hdoc.symm.trans (((Loader.fetched_load source rfl).file .isDirectory).2 hfetch)

end LessonScript
