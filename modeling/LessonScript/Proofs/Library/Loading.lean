import LessonScript.Library.Loader
import LessonScript.Proofs.Table
import Mathlib.Data.List.Induction

/-!
# One load at a time

What loading one lesson comes to: a lesson that is kept is returned as it is, and another one is
fetched once and kept if it could be read. Reloading drops the lesson first, and loading several is
loading them one after another. No load touches the lessons kept under other identifiers.
-/

namespace LessonScript

/-- The document of a script that has its identifier as the metadata value "id", in the place of
such a value or behind all others, and is the parsed script otherwise. -/
structure Stamped (commands : CommandSet) (id : LessonId) (script : String) (doc : Document) :
    Prop where
  scenes : doc.scenes = (commands.parse script).scenes
  keys : doc.metadata.keys = (commands.parse script).metadata.keys ++
    if "id" ∈ (commands.parse script).metadata.keys then [] else ["id"]
  own : doc.metadata.get? "id" = some id.toMeta
  others : ∀ key, key ≠ "id" →
    doc.metadata.get? key = (commands.parse script).metadata.get? key

/-- An answer to a request for a lesson that had to be fetched. -/
structure Fetched (commands : CommandSet) (source : Source) (id : LessonId) (before : Loader)
    (answer : Loading (Except LoadError Document)) : Prop where
  once : answer.fetched = [id.key]
  loaded : ∀ script, source.fetch id.key = .ok (some script) → ∃ doc,
    Stamped commands id script doc ∧ answer.result = .ok doc ∧
      answer.loader.cache.get? id = some doc
  notFound : answer.result = .error (.notFound id) ↔ source.fetch id.key = .ok none
  file : ∀ e, answer.result = .error (.file e) ↔ source.fetch id.key = .error e
  failed : ∀ e, answer.result = .error e → answer.loader.isCached id = false ∧
    answer.loader.cache.entries = before.cache.entries.filter (·.1 ≠ id)
  others : ∀ other, other ≠ id → answer.loader.cache.get? other = before.cache.get? other

lemma Loader.isCached_eq (l : Loader) (id : LessonId) :
    l.isCached id = (l.cache.get? id).isSome := Table.contains_eq ..

lemma Loader.isCached_eq_false_iff {l : Loader} {id : LessonId} :
    l.isCached id = false ↔ l.cache.get? id = none := by
  rw [isCached_eq, Option.isSome_eq_false_iff, Option.isNone_iff_eq_none]

namespace Fetched

variable {commands : CommandSet} {source : Source} {id : LessonId} {before : Loader}
  {answer : Loading (Except LoadError Document)} (h : Fetched commands source id before answer)

include h

lemma uncached_of_error {e : LoadError} (he : answer.result = .error e) :
    answer.loader.cache.get? id = none :=
  Loader.isCached_eq_false_iff.1 (h.failed e he).1

/-- A lesson is kept afterwards if the answer gives it, and then its script was there. -/
lemma kept_or_error :
    (∃ doc script, source.fetch id.key = .ok (some script) ∧ Stamped commands id script doc ∧
      answer.result = .ok doc ∧ answer.loader.cache.get? id = some doc) ∨
    ∃ e, answer.result = .error e ∧ answer.loader.cache.get? id = none := by
  cases hfetch : source.fetch id.key with
  | error e =>
    have he := (h.file e).2 hfetch
    exact .inr ⟨_, he, h.uncached_of_error he⟩
  | ok script? =>
    cases script? with
    | none =>
      have he := h.notFound.2 hfetch
      exact .inr ⟨_, he, h.uncached_of_error he⟩
    | some script =>
      obtain ⟨doc, hdoc, hresult, hkept⟩ := h.loaded script hfetch
      exact .inl ⟨doc, script, rfl, hdoc, hresult, hkept⟩

end Fetched

namespace Loader

variable (l : Loader) (source : Source) (id : LessonId)

lemma stamped_documentOf (script : String) :
    Stamped l.engine.commands id script (l.documentOf id script) where
  scenes := rfl
  keys := Table.keys_insert ..
  own := by rw [documentOf, Table.get?_insert, if_pos rfl]
  others key hkey := by rw [documentOf, Table.get?_insert, if_neg (Ne.symm hkey)]

variable {l id}

lemma load_of_cached {doc : Document} (h : l.cache.get? id = some doc) :
    l.load source id = ⟨.ok doc, l, [], []⟩ := by
  rw [load, h]

section Uncached

variable (h : l.cache.get? id = none)

include h

lemma filter_entries_of_uncached : l.cache.entries.filter (·.1 ≠ id) = l.cache.entries := by
  apply List.filter_eq_self.2
  intro entry he
  have hne : entry.1 ≠ id := by
    rintro rfl
    rw [Table.get?_eq_some_iff.2 he] at h
    cases h
  exact decide_eq_true hne

lemma failed_init : l.init.isCached id = false ∧
    l.init.cache.entries = l.cache.entries.filter (·.1 ≠ id) :=
  ⟨isCached_eq_false_iff.2 h, (filter_entries_of_uncached h).symm⟩

lemma fetched_load : Fetched l.engine.commands source id l (l.load source id) := by
  cases hfetch : source.fetch id.key with
  | error e =>
    have hload : l.load source id = ⟨.error (.file e), l.init, [id.key], []⟩ := by
      rw [load, h, hfetch]
    rw [hload]
    exact ⟨rfl, by simp [hfetch], by simp [hfetch], by simp [hfetch], fun _ _ => failed_init h,
      fun _ _ => rfl⟩
  | ok script? =>
    cases script? with
    | none =>
      have hload : l.load source id = ⟨.error (.notFound id), l.init, [id.key], []⟩ := by
        rw [load, h, hfetch]
      rw [hload]
      exact ⟨rfl, by simp [hfetch], by simp [hfetch], by simp [hfetch], fun _ _ => failed_init h,
        fun _ _ => rfl⟩
    | some script =>
      have hload : l.load source id = ⟨.ok (l.documentOf id script),
          { l.init with cache := l.cache.insert id (l.documentOf id script) }, [id.key], []⟩ := by
        rw [load, h, hfetch]
      rw [hload]
      refine ⟨rfl, ?_, by simp [hfetch], by simp [hfetch], by simp, ?_⟩
      · intro other hother
        obtain rfl : script = other := by simpa [hfetch] using hother
        exact ⟨_, l.stamped_documentOf id script, rfl, by rw [Table.get?_insert, if_pos rfl]⟩
      · intro other hne
        rw [Table.get?_insert, if_neg (Ne.symm hne)]

end Uncached

variable (l id)

lemma engine_load : (l.load source id).loader.engine = l.engine := by
  rw [load]
  split
  · rfl
  · split <;> rfl

/-- Reloading fetches what loading would fetch if the lesson were not kept. -/
lemma fetched_reload : Fetched l.engine.commands source id l (l.reload source id) := by
  have hdropped : (l.evict id).cache.get? id = none := by
    rw [evict, Table.get?_erase, if_pos rfl]
  have hfetched : Fetched l.engine.commands source id (l.evict id) (l.reload source id) :=
    fetched_load source hdropped
  refine ⟨hfetched.once, hfetched.loaded, hfetched.notFound, hfetched.file, ?_, ?_⟩
  · intro e he
    obtain ⟨hcached, hentries⟩ := hfetched.failed e he
    exact ⟨hcached, hentries.trans (filter_entries_of_uncached hdropped)⟩
  · intro other hne
    rw [hfetched.others other hne, evict, Table.get?_erase, if_neg (Ne.symm hne)]

lemma engine_reload : (l.reload source id).loader.engine = l.engine :=
  (l.evict id).engine_load source id

/-- The answers to loading lessons one after another. -/
def loads (l : Loader) (source : Source) :
    List LessonId → List (Loading (Except LoadError Document))
  | [] => []
  | id :: rest => l.load source id :: (l.load source id).loader.loads source rest

def afterLoads (l : Loader) (source : Source) (ids : List LessonId) : Loader :=
  ids.foldl (fun l id => (l.load source id).loader) l

/-- A lesson is kept after a load if and only if the load gave it. -/
lemma get?_load (l : Loader) (source : Source) (id : LessonId) :
    (l.load source id).loader.cache.get? id = (l.load source id).result.toOption := by
  cases h : l.cache.get? id with
  | some doc =>
    rw [load_of_cached source h, h]
    rfl
  | none =>
    obtain ⟨doc, -, -, -, hresult, hkept⟩ | ⟨e, hresult, hkept⟩ :=
      (fetched_load source h).kept_or_error
    · rw [hresult, hkept]
      rfl
    · rw [hresult, hkept]
      rfl

lemma uncached_of_error {l : Loader} {source : Source} {id : LessonId} {e : LoadError}
    (h : (l.load source id).result = .error e) : l.cache.get? id = none := by
  cases hbefore : l.cache.get? id with
  | none => rfl
  | some doc =>
    rw [load_of_cached source hbefore] at h
    cases h

lemma get?_load_of_ne (l : Loader) (source : Source) {id other : LessonId} (hne : other ≠ id) :
    (l.load source id).loader.cache.get? other = l.cache.get? other := by
  cases h : l.cache.get? id with
  | some doc => rw [load_of_cached source h]
  | none => exact (fetched_load source h).others other hne

end Loader

/-! ## Several loads -/

/-- One loader has the lessons of another and, of some that the other lacks, the stamped scripts. -/
structure Grown (source : Source) (ids : List LessonId) (before l : Loader) : Prop where
  engine : l.engine = before.engine
  kept : ∀ id doc, before.cache.get? id = some doc → l.cache.get? id = some doc
  new : ∀ id doc, l.cache.get? id = some doc → before.cache.get? id = none →
    id ∈ ids ∧ ∃ script, source.fetch id.key = .ok (some script) ∧
      Stamped before.engine.commands id script doc

namespace Grown

variable {source : Source} {ids ids' : List LessonId} {before l l' : Loader}

lemma refl (l : Loader) : Grown source [] l l where
  engine := rfl
  kept _ _ h := h
  new id doc h hnone := by
    rw [h] at hnone
    cases hnone

lemma trans (h : Grown source ids before l) (h' : Grown source ids' l l') :
    Grown source (ids ++ ids') before l' where
  engine := h'.engine.trans h.engine
  kept id doc hdoc := h'.kept id doc (h.kept id doc hdoc)
  new id doc hdoc hnone := by
    cases hl : l.cache.get? id with
    | none =>
      obtain ⟨hid, hscript⟩ := h'.new id doc hdoc hl
      rw [h.engine] at hscript
      exact ⟨List.mem_append_right ids hid, hscript⟩
    | some kept =>
      obtain rfl : kept = doc := Option.some.inj ((h'.kept id kept hl).symm.trans hdoc)
      obtain ⟨hid, hscript⟩ := h.new id kept hl hnone
      exact ⟨List.mem_append_left ids' hid, hscript⟩

end Grown

/-- An answer to a request for several lessons, which were loaded one after another. -/
structure Preloaded (source : Source) (ids : List LessonId) (before : Loader)
    (answer : Loading (Table LessonId Document)) : Prop where
  loader : answer.loader = before.afterLoads source ids
  fetched : answer.fetched = (before.loads source ids).flatMap (·.fetched)
  result : ∀ id, answer.result.get? id =
    if id ∈ ids then answer.loader.cache.get? id else none

namespace Loader

variable (l : Loader) (source : Source)

lemma grown_load (id : LessonId) : Grown source [id] l (l.load source id).loader where
  engine := l.engine_load source id
  kept other doc hdoc := by
    by_cases hother : other = id
    · subst hother
      rw [load_of_cached source hdoc, hdoc]
    · rw [l.get?_load_of_ne source hother, hdoc]
  new other doc hdoc hnone := by
    by_cases hother : other = id
    · subst hother
      obtain ⟨doc', script, hfetch, hstamped, -, hkept⟩ | ⟨e, -, hkept⟩ :=
        (fetched_load source hnone).kept_or_error
      · obtain rfl : doc' = doc := Option.some.inj (hkept.symm.trans hdoc)
        exact ⟨List.mem_singleton_self other, script, hfetch, hstamped⟩
      · rw [hkept] at hdoc
        cases hdoc
    · rw [l.get?_load_of_ne source hother, hnone] at hdoc
      cases hdoc

lemma grown_afterLoads (ids : List LessonId) : Grown source ids l (l.afterLoads source ids) := by
  induction ids generalizing l with
  | nil => exact .refl l
  | cons id rest ih => exact (l.grown_load source id).trans (ih (l.load source id).loader)

lemma afterLoads_concat (ids : List LessonId) (id : LessonId) :
    l.afterLoads source (ids ++ [id]) = ((l.afterLoads source ids).load source id).loader :=
  List.foldl_append

lemma loads_concat (ids : List LessonId) (id : LessonId) :
    l.loads source (ids ++ [id]) =
      l.loads source ids ++ [(l.afterLoads source ids).load source id] := by
  induction ids generalizing l with
  | nil => rfl
  | cons first rest ih => exact congrArg (l.load source first :: ·) (ih _)

lemma preload_concat (ids : List LessonId) (id : LessonId) :
    (l.preload source (ids ++ [id])).loader =
      ((l.preload source ids).loader.load source id).loader ∧
    (l.preload source (ids ++ [id])).fetched = (l.preload source ids).fetched ++
      ((l.preload source ids).loader.load source id).fetched ∧
    (l.preload source (ids ++ [id])).result =
      ((l.preload source ids).loader.load source id).result.toOption.elim
        (l.preload source ids).result ((l.preload source ids).result.insert id) := by
  rw [preload, List.foldl_append, List.foldl_cons, List.foldl_nil, ← preload]
  generalize (l.preload source ids).loader.load source id = next
  obtain ⟨result, -, -, -⟩ := next
  cases result with
  | ok doc => exact ⟨rfl, rfl, rfl⟩
  | error e => exact ⟨rfl, rfl, rfl⟩

/-- Preloading is loading one lesson after another, and returns those that are kept then. -/
lemma preloaded (ids : List LessonId) : Preloaded source ids l (l.preload source ids) := by
  induction ids using List.reverseRecOn with
  | nil => exact ⟨rfl, rfl, fun _ => rfl⟩
  | append_singleton ids id ih =>
    obtain ⟨hloader, hfetched, hresult⟩ := l.preload_concat source ids id
    refine ⟨?_, ?_, ?_⟩
    · rw [hloader, ih.loader, afterLoads_concat]
    · rw [hfetched, ih.fetched, ih.loader, loads_concat, List.flatMap_append,
        List.flatMap_singleton]
    · intro other
      have hkept := (l.preload source ids).loader.get?_load source id
      rw [hresult, hloader]
      by_cases hother : other = id
      · subst hother
        rw [if_pos (by simp), hkept]
        cases hnext : ((l.preload source ids).loader.load source other).result with
        | ok doc => exact (Table.get?_insert ..).trans (if_pos rfl)
        | error e =>
          -- a lesson that fails now was not kept before, and is not in the result so far
          refine (ih.result other).trans ?_
          rw [uncached_of_error hnext, ite_self]
          rfl
      · rw [get?_load_of_ne _ source hother]
        refine Eq.trans ?_ ((ih.result other).trans (if_congr (by simp [hother]) rfl rfl))
        cases ((l.preload source ids).loader.load source id).result with
        | ok doc => exact (Table.get?_insert ..).trans (if_neg (Ne.symm hother))
        | error e => rfl

lemma engine_preload (ids : List LessonId) :
    (l.preload source ids).loader.engine = l.engine := by
  rw [(l.preloaded source ids).loader, (l.grown_afterLoads source ids).engine]

end Loader
end LessonScript
