import LessonScript.Proofs.Library.Loading

/-!
# Loading many lessons at once

Loading one lesson changes nothing about how another one loads. So what preloading comes to can be
told without its order: it returns the lessons that load, each once, and keeps those that were not
kept before. The order of the requests is only that of the answer, and asking twice is asking once.
-/

namespace LessonScript
namespace Loader

variable (l : Loader) (source : Source)

/-- A lesson that loads is kept, and one that fails leaves what is kept as it is. -/
lemma cache_load (id : LessonId) : (l.load source id).loader.cache =
    (l.load source id).result.toOption.elim l.cache (l.cache.insert id) := by
  cases hkept : l.cache.get? id with
  | some doc =>
    rw [load_of_cached source hkept]
    exact (Table.insert_of_get? hkept).symm
  | none =>
    rw [load, hkept]
    cases source.fetch id.key with
    | error e => rfl
    | ok script? => cases script? <;> rfl

lemma result_load_congr {l l' : Loader} {id : LessonId} (hengine : l'.engine = l.engine)
    (hkept : l'.cache.get? id = l.cache.get? id) :
    (l'.load source id).result = (l.load source id).result := by
  rw [load, load, hkept]
  cases l.cache.get? id with
  | some doc => rfl
  | none =>
    cases source.fetch id.key with
    | error e => rfl
    | ok script? =>
      cases script? with
      | none => rfl
      | some script => simp only [documentOf, hengine]

/-- How a lesson loads does not depend on a lesson that was loaded before. -/
lemma result_load_load (first id : LessonId) :
    ((l.load source first).loader.load source id).result = (l.load source id).result := by
  by_cases hid : id = first
  · subst hid
    cases hresult : (l.load source id).result with
    | ok doc =>
      have hkept := l.get?_load source id
      rw [hresult] at hkept
      rw [load_of_cached source hkept]
    | error e =>
      rw [← hresult]
      refine result_load_congr source (l.engine_load source id) ?_
      rw [cache_load, hresult]
      rfl
  · exact result_load_congr source (l.engine_load source first) (l.get?_load_of_ne source hid)

lemma result_load_afterLoads (ids : List LessonId) (id : LessonId) :
    ((l.afterLoads source ids).load source id).result = (l.load source id).result := by
  induction ids generalizing l with
  | nil => rfl
  | cons first rest ih => exact (ih _).trans (l.result_load_load source first id)

/-- After several loads a lesson is kept if one of them gave it, or if it was kept before. -/
lemma get?_afterLoads (ids : List LessonId) (id : LessonId) :
    (l.afterLoads source ids).cache.get? id =
      if id ∈ ids then (l.load source id).result.toOption else l.cache.get? id := by
  induction ids generalizing l with
  | nil => rfl
  | cons first rest ih =>
    refine (ih _).trans ?_
    rw [result_load_load]
    by_cases hrest : id ∈ rest
    · rw [if_pos hrest, if_pos (List.mem_cons_of_mem first hrest)]
    · rw [if_neg hrest]
      obtain rfl | hid := eq_or_ne id first
      · rw [if_pos List.mem_cons_self, get?_load]
      · rw [if_neg (List.not_mem_cons_of_ne_of_not_mem hid hrest), get?_load_of_ne l source hid]

/-! ## The lessons that load -/

def canLoad (id : LessonId) : Bool := (l.load source id).result.toOption.isSome

/-- The lessons that load among those asked for, each with its document, once and in the order in
which they were first asked for. -/
def loaded (ids : List LessonId) : List (LessonId × Document) :=
  ids.eraseDups.filterMap fun id => (l.load source id).result.toOption.map fun doc => (id, doc)

variable {source}

lemma mem_loaded {ids : List LessonId} {id : LessonId} {doc : Document} :
    (id, doc) ∈ l.loaded source ids ↔ id ∈ ids ∧ (l.load source id).result = .ok doc := by
  have hdoc : ∀ result : Except LoadError Document, result.toOption = some doc ↔
      result = .ok doc := by
    rintro (e | doc) <;> simp [Except.toOption]
  simp [loaded, hdoc]

variable (source)

lemma map_fst_loaded (ids : List LessonId) :
    (l.loaded source ids).map Prod.fst = ids.eraseDups.filter (l.canLoad source) := by
  have hkey : ∀ id, ((l.load source id).result.toOption.map fun doc => (id, doc)).map Prod.fst =
      Option.guard (l.canLoad source) id := by
    intro id
    cases h : (l.load source id).result.toOption <;> simp [canLoad, Option.guard, h]
  rw [loaded, List.map_filterMap, funext hkey, List.filterMap_eq_filter]

lemma loaded_concat (ids : List LessonId) (id : LessonId) :
    l.loaded source (ids ++ [id]) = l.loaded source ids ++
      if id ∈ ids then [] else
        ((l.load source id).result.toOption.map fun doc => (id, doc)).toList := by
  rw [loaded, List.eraseDups_append, List.filterMap_append, ← loaded]
  congr 1
  by_cases hid : id ∈ ids
  · simp [List.removeAll, hid]
  · cases h : (l.load source id).result.toOption <;>
      simp [List.removeAll, List.eraseDups_cons, hid, h]

/-- Those that fail can as well be left out. -/
lemma loaded_filter (ids : List LessonId) :
    l.loaded source (ids.filter (l.canLoad source)) = l.loaded source ids := by
  induction ids using List.reverseRecOn with
  | nil => rfl
  | append_singleton ids id ih =>
    rw [List.filter_append, loaded_concat, ← ih]
    cases hid : l.canLoad source id with
    | true =>
      rw [List.filter_cons_of_pos hid, List.filter_nil, loaded_concat]
      simp [hid]
    | false =>
      have hnone : (l.load source id).result.toOption = none := by simpa [canLoad] using hid
      simp [hid, hnone]

lemma entries_preload (ids : List LessonId) :
    (l.preload source ids).result.entries = l.loaded source ids := by
  induction ids using List.reverseRecOn with
  | nil => rfl
  | append_singleton ids id ih =>
    obtain ⟨-, -, hresult⟩ := l.preload_concat source ids id
    rw [(l.preloaded source ids).loader, result_load_afterLoads] at hresult
    rw [hresult, loaded_concat, ← ih]
    cases hload : (l.load source id).result with
    | error e => simp [Except.toOption, ih]
    | ok doc =>
      by_cases hid : id ∈ ids
      · have hsame : (l.preload source ids).result.get? id = some doc := by
          rw [Table.get?_eq_some_iff, ih]
          exact l.mem_loaded.2 ⟨hid, hload⟩
        simp [Except.toOption, hid, Table.insert_of_get? hsame]
      · have hnew : id ∉ (l.preload source ids).result.keys := by
          rw [← Table.get?_eq_none_iff, (l.preloaded source ids).result, if_neg hid]
        rw [if_neg hid]
        exact Table.entries_insert_of_notMem hnew doc

lemma nodup_loaded (ids : List LessonId) : (l.loaded source ids).Nodup := by
  rw [← entries_preload]
  exact (l.preload source ids).result.nodup_entries

/-- Of the requests it only matters which lessons they are for. -/
lemma loaded_perm {ids others : List LessonId} (h : ∀ id, id ∈ others ↔ id ∈ ids) :
    (l.loaded source others).Perm (l.loaded source ids) := by
  rw [List.perm_ext_iff_of_nodup (l.nodup_loaded source others) (l.nodup_loaded source ids)]
  rintro ⟨id, doc⟩
  rw [mem_loaded, mem_loaded, h]

/-- What is kept afterwards is what was kept before, and behind it the lessons that load anew. -/
lemma entries_afterLoads (ids : List LessonId) :
    (l.afterLoads source ids).cache.entries =
      l.cache.entries ++ (l.loaded source ids).filter (!l.isCached ·.1) := by
  induction ids using List.reverseRecOn with
  | nil => exact (List.append_nil _).symm
  | append_singleton ids id ih =>
    rw [afterLoads_concat, cache_load, result_load_afterLoads, loaded_concat]
    have hkept := l.get?_afterLoads source ids id
    cases hload : (l.load source id).result with
    | error e => simp [Except.toOption, ih]
    | ok doc =>
      rw [hload] at hkept
      by_cases hid : id ∈ ids
      · rw [if_pos hid] at hkept
        simp [Except.toOption, hid, Table.insert_of_get? hkept, ih]
      rw [if_neg hid] at hkept ⊢
      cases hbefore : l.cache.get? id with
      | some doc' =>
        -- it was kept from the start, and is not new
        rw [load_of_cached source hbefore] at hload
        cases hload
        have hcached : l.isCached id = true := by rw [isCached_eq, hbefore, Option.isSome_some]
        simp [Except.toOption, Table.insert_of_get? (hkept.trans hbefore), ih, hcached]
      | none =>
        have hcached : l.isCached id = false := isCached_eq_false_iff.2 hbefore
        have hnew := Table.get?_eq_none_iff.1 (hkept.trans hbefore)
        rw [List.filter_append, ← List.append_assoc, ← ih]
        simpa [Except.toOption, hcached] using Table.entries_insert_of_notMem hnew doc

lemma entries_cache_preload (ids : List LessonId) :
    (l.preload source ids).loader.cache.entries =
      l.cache.entries ++ (l.loaded source ids).filter (!l.isCached ·.1) := by
  rw [(l.preloaded source ids).loader, entries_afterLoads]

/-- What the user hears of a lesson that does not load. -/
def failure? (id : LessonId) : Option Notice :=
  match (l.load source id).result with
  | .ok _ => none
  | .error e => some (.notPreloaded id.shown e.message)

lemma notices_preload (ids : List LessonId) :
    (l.preload source ids).notices = ids.filterMap (l.failure? source) := by
  induction ids using List.reverseRecOn with
  | nil => rfl
  | append_singleton ids id ih =>
    have hsame : (l.preload source ids).loader.failure? source id = l.failure? source id := by
      rw [failure?, (l.preloaded source ids).loader, result_load_afterLoads, failure?]
    have hlast : (l.preload source (ids ++ [id])).notices = (l.preload source ids).notices ++
        ((l.preload source ids).loader.failure? source id).toList := by
      rw [preload, List.foldl_append, List.foldl_cons, List.foldl_nil, ← preload, failure?]
      generalize (l.preload source ids).loader.load source id = next
      obtain ⟨result, -, -, -⟩ := next
      cases result with
      | ok doc => exact (List.append_nil _).symm
      | error e => rfl
    rw [hlast, hsame, ih, List.filterMap_append]
    cases h : l.failure? source id <;> simp [h]

end Loader

/-- What several lessons come to when they are asked for at once, told without the order in which
they are loaded. -/
structure Gathered (source : Source) (ids : List LessonId) (before : Loader)
    (answer : Loading (Table LessonId Document)) : Prop where
  /-- The answer has the lessons that load, once each and in the order of the first requests. -/
  keys : answer.result.keys = ids.eraseDups.filter (before.canLoad source)
  documents : ∀ id doc, answer.result.get? id = some doc ↔
    id ∈ ids ∧ (before.load source id).result = .ok doc
  /-- Afterwards these documents are kept, and given out without a fetch. -/
  served : ∀ id doc, answer.result.get? id = some doc →
    answer.loader.load source id = ⟨.ok doc, answer.loader, [], []⟩
  /-- What was kept before is kept, and behind it the lessons of the answer that are new. -/
  kept : answer.loader.cache.entries =
    before.cache.entries ++ answer.result.entries.filter (!before.isCached ·.1)
  engine : answer.loader.engine = before.engine
  /-- The user hears of a lesson that fails as often as it was asked for. -/
  notices : answer.notices = ids.filterMap (before.failure? source)
  /-- Leaving out the lessons that fail changes neither the answer nor what is kept. -/
  failing : (before.preload source (ids.filter (before.canLoad source))).result = answer.result ∧
    (before.preload source (ids.filter (before.canLoad source))).loader.cache =
      answer.loader.cache
  /-- Neither does another order, or another number of requests for the same lesson, but for the
  order of both. -/
  reordered : ∀ others, (∀ id, id ∈ others ↔ id ∈ ids) →
    (before.preload source others).result.entries.Perm answer.result.entries ∧
    (before.preload source others).loader.cache.entries.Perm answer.loader.cache.entries

namespace Loader

variable (l : Loader) (source : Source)

/-- Preloading loses nothing, and its order does not matter. -/
theorem preload_gathered (ids : List LessonId) :
    Gathered source ids l (l.preload source ids) where
  keys := by rw [Table.keys, entries_preload, map_fst_loaded]
  documents id doc := by rw [Table.get?_eq_some_iff, entries_preload, mem_loaded]
  served id doc hdoc := by
    rw [(l.preloaded source ids).result] at hdoc
    split at hdoc
    · exact load_of_cached source hdoc
    · cases hdoc
  kept := by rw [entries_cache_preload, entries_preload]
  engine := l.engine_preload source ids
  notices := l.notices_preload source ids
  failing := by
    constructor
    · ext1
      rw [entries_preload, entries_preload, loaded_filter]
    · ext1
      rw [entries_cache_preload, entries_cache_preload, loaded_filter]
  reordered others hothers := by
    have hperm := l.loaded_perm source hothers
    constructor
    · rw [entries_preload, entries_preload]
      exact hperm
    · rw [entries_cache_preload, entries_cache_preload]
      exact (hperm.filter _).append_left _

end Loader
end LessonScript
