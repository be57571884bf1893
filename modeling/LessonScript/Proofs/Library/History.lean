import LessonScript.Proofs.Library.Loading

/-!
# The lessons kept over a history

A loader is asked for lessons, reloads and drops them, while the scripts of its source change and
fetches fail or succeed again. A lesson that it keeps is at all times the stamped script that was
fetched for this very lesson at a moment of the history, and has been kept since then.
-/

namespace LessonScript

inductive LibraryEvent where
  | load (id : LessonId)
  | reload (id : LessonId)
  | preload (ids : List LessonId)
  | clear
  | isCached (id : LessonId)
  | change (source : Source)

namespace LibraryEvent

/-- The event asks for a lesson, so that its script may have to be fetched. -/
def Asks (id : LessonId) : LibraryEvent → Prop
  | .load other | .reload other => other = id
  | .preload ids => id ∈ ids
  | .clear | .isCached _ | .change _ => False

/-- The event drops a lesson that is kept. -/
def Drops (id : LessonId) : LibraryEvent → Prop
  | .reload other => other = id
  | .clear => True
  | .load _ | .preload _ | .isCached _ | .change _ => False

end LibraryEvent

/-- A loader, and the source as it is at the moment. -/
structure Library where
  loader : Loader
  source : Source

namespace Library

/-- A library in which nothing is kept yet, with a parser of its own or the built-in commands. -/
def opened (parser : Option Parser) (source : Source) : Library :=
  ⟨parser.elim .empty .withParser, source⟩

def kept? (lib : Library) (id : LessonId) : Option Document := lib.loader.cache.get? id

def commands (lib : Library) : CommandSet := lib.loader.engine.commands

def step (lib : Library) : LibraryEvent → Library
  | .load id => { lib with loader := (lib.loader.load lib.source id).loader }
  | .reload id => { lib with loader := (lib.loader.reload lib.source id).loader }
  | .preload ids => { lib with loader := (lib.loader.preload lib.source ids).loader }
  | .clear => { lib with loader := lib.loader.clear }
  | .isCached _ => lib
  | .change source => { lib with source }

def after (lib : Library) (history : List LibraryEvent) : Library := history.foldl step lib

lemma after_concat (lib : Library) (history : List LibraryEvent) (event : LibraryEvent) :
    lib.after (history ++ [event]) = (lib.after history).step event :=
  List.foldl_append

lemma step_preload (lib : Library) (ids : List LessonId) :
    lib.step (.preload ids) = lib.after (ids.map .load) := by
  rw [step, (lib.loader.preloaded lib.source ids).loader]
  induction ids generalizing lib with
  | nil => rfl
  | cons id rest ih => exact ih (lib.step (.load id))

/-! ## One event -/

section Step

variable (lib : Library) (event : LibraryEvent) {id : LessonId} {doc : Document}

lemma commands_step : (lib.step event).commands = lib.commands := by
  rw [commands, commands]
  congr 1
  cases event with
  | load id => exact lib.loader.engine_load lib.source id
  | reload id => exact lib.loader.engine_reload lib.source id
  | preload ids => exact lib.loader.engine_preload lib.source ids
  | clear | isCached | change => rfl

variable {lib event}

lemma kept?_step (h : lib.kept? id = some doc) (hdrops : ¬event.Drops id) :
    (lib.step event).kept? id = some doc := by
  cases event with
  | load other => exact (lib.loader.grown_load lib.source other).kept id doc h
  | reload other =>
    rw [← h]
    exact (lib.loader.fetched_reload lib.source other).others id (Ne.symm hdrops)
  | preload ids =>
    refine Eq.trans ?_ ((lib.loader.grown_afterLoads lib.source ids).kept id doc h)
    rw [kept?, step, (lib.loader.preloaded lib.source ids).loader]
  | clear => exact absurd trivial hdrops
  | isCached | change => exact h

/-- A lesson is kept after an event because it was kept before, or because the event fetched it. -/
lemma kept_or_fetched (h : (lib.step event).kept? id = some doc) :
    (lib.kept? id = some doc ∧ ¬event.Drops id) ∨
    (event.Asks id ∧ (lib.kept? id = none ∨ event = .reload id) ∧
      ∃ script, lib.source.fetch id.key = .ok (some script) ∧
        Stamped lib.commands id script doc) := by
  by_cases hdrops : event.Drops id
  · right
    cases event with
    | reload other =>
      obtain rfl : other = id := hdrops
      obtain ⟨doc', script, hfetch, hstamped, -, hkept⟩ | ⟨e, -, hkept⟩ :=
        (lib.loader.fetched_reload lib.source other).kept_or_error
      · obtain rfl : doc' = doc := Option.some.inj (hkept.symm.trans h)
        exact ⟨rfl, .inr rfl, script, hfetch, hstamped⟩
      · cases hkept.symm.trans h
    | clear => cases h
    | load | preload | isCached | change => exact hdrops.elim
  cases hbefore : lib.kept? id with
  | some doc' => exact .inl ⟨(kept?_step hbefore hdrops).symm.trans h, hdrops⟩
  | none =>
    right
    cases event with
    | load other =>
      obtain ⟨hid, hscript⟩ := (lib.loader.grown_load lib.source other).new id doc h hbefore
      exact ⟨(List.mem_singleton.1 hid).symm, .inl rfl, hscript⟩
    | preload ids =>
      rw [kept?, step, (lib.loader.preloaded lib.source ids).loader] at h
      obtain ⟨hid, hscript⟩ := (lib.loader.grown_afterLoads lib.source ids).new id doc h hbefore
      exact ⟨hid, .inl rfl, hscript⟩
    | reload other =>
      have hother := (lib.loader.fetched_reload lib.source other).others id (Ne.symm hdrops)
      cases (h.symm.trans hother).trans hbefore
    | clear => cases h
    | isCached | change => cases h.symm.trans hbefore

lemma kept?_step_of_not_asks (hasks : ¬event.Asks id) (hdrops : ¬event.Drops id) :
    (lib.step event).kept? id = lib.kept? id := by
  cases hbefore : lib.kept? id with
  | some doc => exact kept?_step hbefore hdrops
  | none =>
    rw [Option.eq_none_iff_forall_ne_some]
    intro doc hdoc
    obtain ⟨hkept, -⟩ | ⟨hid, -⟩ := kept_or_fetched hdoc
    · cases hkept.symm.trans hbefore
    · exact hasks hid

end Step

/-! ## A history -/

lemma commands_after (lib : Library) (history : List LibraryEvent) :
    (lib.after history).commands = lib.commands := by
  induction history generalizing lib with
  | nil => rfl
  | cons event rest ih => exact (ih (lib.step event)).trans (lib.commands_step event)

lemma kept?_opened (parser : Option Parser) (source : Source) (id : LessonId) :
    (opened parser source).kept? id = none := by
  cases parser <;> rfl

/-- A lesson was fetched by an event, between what came before and behind it, and is kept since. -/
structure KeptSince (start : Library) (before : List LibraryEvent) (event : LibraryEvent)
    (behind : List LibraryEvent) (id : LessonId) (doc : Document) : Prop where
  asked : event.Asks id
  missing : (start.after before).kept? id = none ∨ event = .reload id
  script : ∃ script, (start.after before).source.fetch id.key = .ok (some script) ∧
    Stamped start.commands id script doc
  undropped : ∀ later ∈ behind, ¬later.Drops id
  kept : ∀ later, later <+: behind → (start.after (before ++ event :: later)).kept? id = some doc

lemma KeptSince.concat {start : Library} {before behind : List LibraryEvent}
    {event next : LibraryEvent} {id : LessonId} {doc : Document}
    (h : KeptSince start before event behind id doc) (hnext : ¬next.Drops id) :
    KeptSince start before event (behind ++ [next]) id doc where
  asked := h.asked
  missing := h.missing
  script := h.script
  undropped := List.forall_mem_append.2 ⟨h.undropped, by simpa using hnext⟩
  kept later hlater := by
    obtain rfl | hlater := List.prefix_concat_iff.1 hlater
    · have hkept := h.kept behind (List.prefix_refl behind)
      rw [← List.cons_append, ← List.append_assoc, after_concat]
      exact kept?_step hkept hnext
    · exact h.kept later hlater

lemma exists_keptSince (parser : Option Parser) (source : Source) (history : List LibraryEvent)
    {id : LessonId} {doc : Document}
    (h : ((opened parser source).after history).kept? id = some doc) :
    ∃ before event behind, history = before ++ event :: behind ∧
      KeptSince (opened parser source) before event behind id doc := by
  induction history using List.reverseRecOn with
  | nil => cases (kept?_opened parser source id).symm.trans h
  | append_singleton history next ih =>
    rw [after_concat] at h
    -- the lesson was there before the last event, or this is the one that fetched it
    obtain ⟨hkept, hdrops⟩ | ⟨hasks, hmissing, hscript⟩ := kept_or_fetched h
    · obtain ⟨before, event, behind, rfl, hsince⟩ := ih hkept
      exact ⟨before, event, behind ++ [next], by simp, hsince.concat hdrops⟩
    · rw [commands_after] at hscript
      refine ⟨history, next, [], rfl, hasks, hmissing, hscript, by simp, ?_⟩
      intro later hlater
      rw [List.prefix_nil.1 hlater, after_concat]
      exact h

/-- What is known of a library that a history has led to. -/
structure Coherent (start : Library) (history : List LibraryEvent) (now : Library) : Prop where
  /-- A lesson that is kept is returned without a fetch. -/
  load_kept : ∀ id doc, now.kept? id = some doc →
    now.loader.load now.source id = ⟨.ok doc, now.loader, [], []⟩
  /-- Another lesson is fetched. -/
  load_missing : ∀ id, now.kept? id = none →
    Fetched start.commands now.source id now.loader (now.loader.load now.source id)
  reload : ∀ id,
    Fetched start.commands now.source id now.loader (now.loader.reload now.source id)
  preload : ∀ ids, Preloaded now.source ids now.loader (now.loader.preload now.source ids) ∧
    now.step (.preload ids) = now.after (ids.map .load)
  isCached : ∀ id, now.loader.isCached id = true ↔ ∃ doc, now.kept? id = some doc
  cleared : ∀ id, (now.step .clear).kept? id = none
  /-- An event that does not drop a lesson leaves it as it is kept. -/
  undropped : ∀ event id doc, ¬event.Drops id → now.kept? id = some doc →
    (now.step event).kept? id = some doc
  /-- Nothing becomes of a lesson that an event neither asks for nor drops. -/
  others : ∀ event id, ¬event.Asks id → ¬event.Drops id →
    (now.step event).kept? id = now.kept? id
  origin : ∀ id doc, now.kept? id = some doc →
    ∃ before event behind, history = before ++ event :: behind ∧
      KeptSince start before event behind id doc

/-- The lessons that a loader keeps are right over every history of it and its source. -/
theorem coherent_after (parser : Option Parser) (source : Source) (history : List LibraryEvent) :
    Coherent (opened parser source) history ((opened parser source).after history) where
  load_kept _ _ h := Loader.load_of_cached _ h
  load_missing id h := by
    rw [← commands_after _ history]
    exact Loader.fetched_load _ h
  reload id := by
    rw [← commands_after _ history]
    exact Loader.fetched_reload _ _ id
  preload ids := ⟨Loader.preloaded _ _ ids, step_preload _ ids⟩
  isCached id := by
    rw [Loader.isCached_eq, Option.isSome_iff_exists]
    rfl
  cleared _ := rfl
  undropped _ _ _ hdrops h := kept?_step h hdrops
  others _ _ hasks hdrops := kept?_step_of_not_asks hasks hdrops
  origin _ _ h := exists_keptSince parser source history h

end Library
end LessonScript
