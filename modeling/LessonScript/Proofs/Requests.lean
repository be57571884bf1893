import LessonScript.Parser
import LessonScript.Proofs.Table
import LessonScript.Proofs.Text.Blank

/-!
# A parser over its requests

A parser takes its command set once, when something needs it, and reads with it until its registry
is changed. Whatever it is asked for in the meantime, the commands that it holds are those of its
registry as it stands, so that no answer tells it from a parser that has just been made. An answer
for which it takes no commands would be the same with any others.
-/

namespace LessonScript

open Text (Line)

namespace Parser

/-- What may be asked of a parser. -/
inductive Request where
  | register (name : String) (command : Command)
  | clear
  | init
  | parse (source : String)
  | parseInline (line : String)
  | parseLines (lines : List String)

inductive Answer where
  | done
  | displaced (previous : Option Command)
  | document (doc : Document)
  | segments (segments : List Segment)
  | elements (elements : List Element)

/-- The answer to a request, and the parser after it. -/
def serve (p : Parser) : Request → Answer × Parser
  | .register name command => (.displaced (p.registry.get? name), p.register name command)
  | .clear => (.done, p.clear)
  | .init => (.done, p.init)
  | .parse source => ((p.parse source).map .document id)
  | .parseInline line => ((p.parseInline line).map .segments id)
  | .parseLines lines => ((p.parseLines lines).map .elements id)

/-- The parser after some requests, one after the other. -/
def after (p : Parser) (requests : List Request) : Parser :=
  requests.foldl (fun p request => (p.serve request).2) p

namespace Request

/-- What a request makes of a registry. -/
def change : Request → Registry → Registry
  | .register name command, r => r.register name command
  | .clear, _ => .empty
  | .init, r | .parse _, r | .parseInline _, r | .parseLines _, r => r

/-- What a name is bound to after a request, given what it was bound to before. -/
def rebind (name : String) (bound : Option Command) : Request → Option Command
  | .register other command => if other = name then some command else bound
  | .clear => none
  | .init | .parse _ | .parseInline _ | .parseLines _ => bound

lemma get?_change (request : Request) (r : Registry) (name : String) :
    (request.change r).get? name = rebind name (r.get? name) request := by
  cases request with
  | register other command => exact Registry.get?_register ..
  | clear => rfl
  | init | parse | parseInline | parseLines => rfl

end Request

/-- What some requests make of a registry, one after the other. -/
def changed (r : Registry) (requests : List Request) : Registry :=
  requests.foldl (fun r request => request.change r) r

/-- What a name is bound to after some requests to a parser of a registry: the command of its last
registration, unless the registry has been cleared since. -/
def bound? (r : Registry) (requests : List Request) (name : String) : Option Command :=
  requests.foldl (Request.rebind name) (r.get? name)

/-! ### The commands that are held -/

/-- The command set that a parser has taken, if it has, is that of its registry. -/
def Coherent (p : Parser) : Prop := ∀ held, p.taken = some held → held = p.registry.commandSet

lemma coherent_ofRegistry (r : Registry) : Coherent (ofRegistry r) := nofun

lemma Coherent.commands_eq {p : Parser} (h : Coherent p) : p.commands = p.registry.commandSet := by
  cases ht : p.taken with
  | none => rw [commands, ht, Option.getD_none]
  | some held =>
    rw [commands, ht, Option.getD_some]
    exact h held ht

lemma Coherent.init {p : Parser} (h : Coherent p) : Coherent p.init := by
  intro held ht
  obtain rfl : p.commands = held := Option.some.inj ht
  exact h.commands_eq

lemma Coherent.initIf {p : Parser} (h : Coherent p) (needed : Bool) :
    Coherent (p.initIf needed) := by
  cases needed
  · exact h
  · exact h.init

lemma Coherent.serve {p : Parser} (h : Coherent p) (request : Request) :
    Coherent (p.serve request).2 := by
  cases request with
  | register | clear => exact nofun
  | init | parseInline => exact h.init
  | parse | parseLines => exact h.initIf _

lemma Coherent.after {p : Parser} (h : Coherent p) (requests : List Request) :
    Coherent (p.after requests) := by
  induction requests generalizing p with
  | nil => exact h
  | cons request rest ih => exact ih (h.serve request)

lemma registry_serve (p : Parser) (request : Request) :
    (p.serve request).2.registry = request.change p.registry := by
  cases request with
  | register | clear | init | parseInline => rfl
  | parse | parseLines => exact registry_initIf ..

lemma registry_after (p : Parser) (requests : List Request) :
    (p.after requests).registry = changed p.registry requests := by
  induction requests generalizing p with
  | nil => rfl
  | cons request rest ih =>
    rw [changed, List.foldl_cons, ← registry_serve]
    exact ih _

lemma get?_changed (r : Registry) (requests : List Request) (name : String) :
    (changed r requests).get? name = bound? r requests name := by
  induction requests generalizing r with
  | nil => rfl
  | cons request rest ih =>
    rw [bound?, List.foldl_cons, ← Request.get?_change]
    exact ih _

end Parser

/-! ### Answers that need no commands -/

namespace Walk

variable (a b : CommandSet) (metadata : Metadata)

lemma flush_of_clear {w : Walk} (hblock : w.block = none) (hprose : w.prose = []) :
    w.flush a metadata = w := by
  obtain ⟨scenes, block, prose⟩ := w
  subst hblock hprose
  have hnone : a.proseElements [] = [] := by rfl
  simp only [flush, flushProse, flushBlock, hnone, appendToLast_nil]

/-- Where no prose is gathered and no block is open, a marker leaves it so. -/
lemma step_of_marker {w : Walk} (hblock : w.block = none) (hprose : w.prose = []) {line : Line}
    (hline : isMarker line = true) :
    w.step a metadata line = w.step b metadata line ∧
      (w.step b metadata line).block = none ∧ (w.step b metadata line).prose = [] := by
  rw [step, step, flush_of_clear a metadata hblock hprose, flush_of_clear b metadata hblock hprose]
  by_cases htitle : line = Builtin.titleMarker
  · rw [if_pos htitle, if_pos htitle]
    exact ⟨rfl, hblock, hprose⟩
  · obtain ⟨name, hname⟩ : ∃ name, Builtin.sceneName line = some name := by
      simpa [isMarker, htitle, Option.isSome_iff_exists] using hline
    rw [if_neg htitle, if_neg htitle, hname]
    exact ⟨rfl, hblock, hprose⟩

lemma scenesOf_of_markers {lines : List Line} (h : ∀ line ∈ lines, isMarker line = true) :
    scenesOf a metadata lines = scenesOf b metadata lines := by
  suffices hwalk : ∀ w : Walk, w.block = none → w.prose = [] →
      (lines.foldl (step a metadata) w).flush a metadata =
        (lines.foldl (step b metadata) w).flush b metadata from
    congrArg scenes (hwalk start rfl rfl)
  induction lines with
  | nil =>
    intro w hblock hprose
    rw [List.foldl_nil, List.foldl_nil, flush_of_clear a metadata hblock hprose,
      flush_of_clear b metadata hblock hprose]
  | cons line rest ih =>
    intro w hblock hprose
    obtain ⟨hline, hrest⟩ := List.forall_mem_cons.1 h
    obtain ⟨hstep, hblock', hprose'⟩ := step_of_marker a b metadata hblock hprose hline
    rw [List.foldl_cons, List.foldl_cons, hstep]
    exact ih hrest _ hblock' hprose'

end Walk

namespace Parser

variable {p : Parser}

lemma forall_of_untaken {exempt : Line → Bool} {lines : List Line}
    (h : (p.initIf (lines.any (!exempt ·))).isInitialized = false) :
    ∀ line ∈ lines, exempt line = true := by
  cases hn : lines.any (!exempt ·) with
  | true =>
    rw [hn] at h
    cases h
  | false => simpa using hn

/-- A script for which a parser takes no commands reads the same whatever the commands are. -/
theorem document_of_untaken {source : String} (h : (p.parse source).2.isInitialized = false)
    (q : Parser) : (q.parse source).1 = (p.parse source).1 :=
  congrArg (Document.mk _) (Walk.scenesOf_of_markers _ _ _ (forall_of_untaken h))

/-- Lines of prose for which a parser takes no commands come to nothing. -/
theorem elements_of_untaken {lines : List String}
    (h : (p.parseLines lines).2.isInitialized = false) : (p.parseLines lines).1 = [] := by
  have hblank := forall_of_untaken h
  have hsolid : Text.solidLines (lines.map String.toList) = [] :=
    List.filter_eq_nil_iff.2 fun line hline => by simp [hblank line hline]
  rw [parseLines, CommandSet.proseElements, Text.filter_map_trim, hsolid]
  rfl

end Parser

/-! ### The commands of a registry -/

namespace Registry

variable {r : Registry}

lemma mem_values_iff {command : Command} :
    command ∈ r.commands.values ↔ ∃ name, r.get? name = some command := by
  simp only [get?, Table.get?_eq_some_iff, Table.values, List.mem_map, Prod.exists,
    exists_eq_right]

lemma mem_inlineCommands_iff {command : InlineCommand} :
    command ∈ r.inlineCommands ↔ ∃ name, r.get? name = some (.inline command) := by
  rw [← mem_values_iff, inlineCommands, List.mem_filterMap]
  constructor
  · rintro ⟨bound, hbound, hinline⟩
    cases bound with
    | inline c =>
      obtain rfl : c = command := Option.some.inj hinline
      exact hbound
    | block c => cases hinline
  · exact fun hbound => ⟨_, hbound, rfl⟩

lemma mem_blockCommands_iff {command : BlockCommand} :
    command ∈ r.blockCommands ↔ ∃ name, r.get? name = some (.block command) := by
  rw [← mem_values_iff, blockCommands, List.mem_filterMap]
  constructor
  · rintro ⟨bound, hbound, hblock⟩
    cases bound with
    | block c =>
      obtain rfl : c = command := Option.some.inj hblock
      exact hbound
    | inline c => cases hblock
  · exact fun hbound => ⟨_, hbound, rfl⟩

end Registry

namespace Parser

lemma Coherent.answer {p : Parser} (h : Coherent p) (request : Request) :
    (p.serve request).1 = ((ofRegistry p.registry).serve request).1 := by
  have hcommands : p.commands = (ofRegistry p.registry).commands := h.commands_eq
  cases request with
  | register | clear | init => rfl
  | parse source =>
    show Answer.document (p.commands.parse source) = _
    rw [hcommands]
    rfl
  | parseInline line =>
    show Answer.segments (p.commands.parseInline line) = _
    rw [hcommands]
    rfl
  | parseLines lines =>
    show Answer.elements (p.commands.proseElements (lines.map String.toList)) = _
    rw [hcommands]
    rfl

/-- After any requests a parser answers the next one as a new parser of its registry would, and when
it holds a command set, this is the one of the registry: it has the inline and the block commands to
which names are bound now, and the inline command that is bound to "pause" now. -/
theorem answers_as_new (r : Registry) (requests : List Request) :
    let p := (ofRegistry r).after requests
    p.registry = changed r requests ∧
      (∀ request, (p.serve request).1 = ((ofRegistry (changed r requests)).serve request).1) ∧
      ∀ held, p.taken = some held →
        held.inline = (changed r requests).inlineCommands ∧
          held.block = (changed r requests).blockCommands ∧
          (∀ command, command ∈ held.inline ↔
            ∃ name, bound? r requests name = some (.inline command)) ∧
          (∀ command, command ∈ held.block ↔
            ∃ name, bound? r requests name = some (.block command)) ∧
          held.pause = (bound? r requests "pause").bind Command.inline? := by
  intro p
  have hregistry : p.registry = changed r requests := registry_after ..
  have hp : Coherent p := (coherent_ofRegistry r).after requests
  refine ⟨hregistry, fun request => ?_, fun held ht => ?_⟩
  · rw [← hregistry]
    exact hp.answer request
  · obtain rfl : held = (changed r requests).commandSet := hregistry ▸ hp held ht
    simp only [← get?_changed]
    exact ⟨rfl, rfl, fun _ => Registry.mem_inlineCommands_iff,
      fun _ => Registry.mem_blockCommands_iff, rfl⟩

end Parser
end LessonScript
