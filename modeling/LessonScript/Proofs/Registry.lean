import LessonScript.Command.Builtin
import LessonScript.Notice
import LessonScript.Proofs.Table
import Mathlib.Data.List.Basic

/-!
# A registry over its history

What a registry holds is told by the registrations since it was last cleared. The first one under a
name says where the name stands, the last one what it is bound to. The inline commands and the block
commands each keep the order of the names, so a name that is bound to a command of the other kind
goes over to the other list and keeps its place among the names.
-/

namespace LessonScript

namespace Command

/-- Every command is of one of the two kinds. -/
lemma perm_kinds (commands : List Command) :
    commands.Perm ((commands.filterMap inline?).map .inline ++
      (commands.filterMap block?).map .block) := by
  induction commands with
  | nil => exact .nil
  | cons command rest ih =>
    cases command with
    | inline command => exact ih.cons _
    | block command => exact (ih.cons _).trans List.perm_middle.symm

end Command

namespace Registry

lemma commands_ofList (pairs : List (String × Command)) :
    (ofList pairs).commands = Table.ofList pairs := by
  have hfold : ∀ r : Registry, (pairs.foldl (fun r p => r.register p.1 p.2) r).commands =
      pairs.foldl (fun t p => t.insert p.1 p.2) r.commands := by
    induction pairs with
    | nil => exact fun _ => rfl
    | cons pair rest ih => exact fun r => ih (r.register pair.1 pair.2)
  exact hfold .empty

/-- What may be done to a registry. -/
inductive Change where
  | register (name : String) (command : Command)
  | clear

/-- What comes back from a change: the command that it displaces, and what the user hears of it. -/
structure Response where
  displaced : Option Command
  notices : List Notice

namespace Change

/-- The registry after a change. -/
def apply (r : Registry) : Change → Registry
  | .register name command => r.register name command
  | .clear => .empty

def response (r : Registry) : Change → Response
  | .register name _ => ⟨r.get? name, r.noticesOf name⟩
  | .clear => ⟨none, []⟩

/-- The registrations that count after a change, given those that counted before it. -/
def count (registered : List (String × Command)) : Change → List (String × Command)
  | .register name command => registered ++ [(name, command)]
  | .clear => []

end Change

/-- The registry that changes make of the empty one, one after the other. -/
def after (changes : List Change) : Registry := changes.foldl Change.apply .empty

/-- The responses to changes, one after the other. -/
def responses (r : Registry) : List Change → List Response
  | [] => []
  | change :: rest => change.response r :: responses (change.apply r) rest

/-- The registrations since the last clear, in their order. -/
def registered (changes : List Change) : List (String × Command) := changes.foldl Change.count []

/-- The command of the last of some registrations under a name. -/
def last? (pairs : List (String × Command)) (name : String) : Option Command :=
  pairs.reverse.lookup name

/-- The response to a change that comes after some registrations: a command is displaced if one was
registered under the name, and then there is one notice. -/
def Change.responseAfter (pairs : List (String × Command)) : Change → Response
  | .register name _ =>
    ⟨last? pairs name, if (last? pairs name).isSome then [.overwriting name] else []⟩
  | .clear => ⟨none, []⟩

/-! ## The registry of a history -/

lemma after_concat (changes : List Change) (change : Change) :
    after (changes ++ [change]) = change.apply (after changes) := by
  rw [after, List.foldl_append]
  rfl

lemma registered_concat (changes : List Change) (change : Change) :
    registered (changes ++ [change]) = change.count (registered changes) := by
  rw [registered, List.foldl_append]
  rfl

lemma commands_after (changes : List Change) :
    (after changes).commands = Table.ofList (registered changes) := by
  induction changes using List.reverseRecOn with
  | nil => rfl
  | append_singleton changes change ih =>
    rw [after_concat, registered_concat]
    cases change with
    | register name command =>
      rw [Change.count, Table.ofList_concat, ← ih]
      rfl
    | clear => rfl

section Views

variable (r : Registry)

def inlineAt? (name : String) : Option InlineCommand := (r.get? name).bind Command.inline?

def blockAt? (name : String) : Option BlockCommand := (r.get? name).bind Command.block?

variable {γ : Type} (kind? : Command → Option γ)

/-- A view of the commands of one kind goes along the names. -/
lemma filterMap_values : r.commands.values.filterMap kind? =
    r.names.filterMap fun name => (r.get? name).bind kind? := by
  rw [Table.values, names, Table.keys, List.filterMap_map, List.filterMap_map]
  refine List.filterMap_congr fun pair hpair => ?_
  have hbound : r.get? pair.1 = some pair.2 := Table.get?_eq_some_iff.2 hpair
  rw [Function.comp_apply, Function.comp_apply, hbound, Option.bind_some]

variable {r}

lemma names_register_of_mem {name : String} (h : name ∈ r.names) (command : Command) :
    (r.register name command).names = r.names := by
  rw [names_register, if_pos h, List.append_nil]

/-- A view after a name has been bound again has the new command, or none, where the old one was. -/
lemma filterMap_values_register {above below : List String} {name : String}
    (h : r.names = above ++ name :: below) (command : Command) :
    (r.register name command).commands.values.filterMap kind? =
      above.filterMap (fun other => (r.get? other).bind kind?) ++ (kind? command).toList ++
        below.filterMap fun other => (r.get? other).bind kind? := by
  have hnodup : (above ++ name :: below).Nodup := h ▸ r.commands.keys_nodup
  have hname : name ∉ above ++ below := (List.nodup_cons.1 (List.perm_middle.nodup_iff.1 hnodup)).1
  have hkept : ∀ names ⊆ above ++ below,
      names.filterMap (fun other => ((r.register name command).get? other).bind kind?) =
        names.filterMap fun other => (r.get? other).bind kind? := by
    refine fun names hsub => List.filterMap_congr fun other hother => ?_
    rw [get?_register, if_neg]
    rintro rfl
    exact hname (hsub hother)
  have hhere : (name :: below).filterMap
        (fun other => ((r.register name command).get? other).bind kind?) =
      (kind? command).toList ++ below.filterMap fun other => (r.get? other).bind kind? := by
    rw [List.filterMap_cons, hkept below (List.subset_append_right ..), get?_register, if_pos rfl,
      Option.bind_some]
    cases kind? command <;> rfl
  rw [filterMap_values, names_register_of_mem (h ▸ List.mem_append_right above List.mem_cons_self),
    h, List.filterMap_append, hhere, hkept above (List.subset_append_left ..), List.append_assoc]

end Views

/-- What a registry is after some registrations. -/
structure BuiltBy (pairs : List (String × Command)) (r : Registry) : Prop where
  /-- The names come in the order of their first registration. -/
  names_eq : r.names = (pairs.map Prod.fst).eraseDups
  nodup : r.names.Nodup
  size_eq : r.size = (pairs.map Prod.fst).eraseDups.length
  get?_eq : ∀ name, r.get? name = last? pairs name
  has_iff : ∀ name, r.has name = true ↔ ∃ command, (name, command) ∈ pairs
  /-- The commands of either kind come in the order of their names. -/
  inline_eq : r.inlineCommands = r.names.filterMap r.inlineAt?
  block_eq : r.blockCommands = r.names.filterMap r.blockAt?
  /-- None of the commands is lost between the two kinds, and there is one for each name. -/
  perm : (r.names.filterMap r.get?).Perm
    (r.inlineCommands.map .inline ++ r.blockCommands.map .block)
  length_add : r.inlineCommands.length + r.blockCommands.length = r.size
  /-- A name that is bound again stays where it is, and so does what the others are bound to. -/
  rebound : ∀ above name below, r.names = above ++ name :: below → ∀ command,
    let changed := r.register name command
    changed.names = r.names ∧
      changed.inlineCommands = above.filterMap r.inlineAt? ++ command.inline?.toList ++
        below.filterMap r.inlineAt? ∧
      changed.blockCommands = above.filterMap r.blockAt? ++ command.block?.toList ++
        below.filterMap r.blockAt?

lemma builtBy_of_commands {r : Registry} {pairs : List (String × Command)}
    (h : r.commands = Table.ofList pairs) : BuiltBy pairs r := by
  have hnames : r.names = (pairs.map Prod.fst).eraseDups := by rw [names, h, Table.keys_ofList]
  have hsize : r.size = r.names.length := (List.length_map _).symm
  have hvalues : r.names.filterMap r.get? = r.commands.values := by
    simpa using (r.filterMap_values some).symm
  have hperm := Command.perm_kinds r.commands.values
  refine ⟨hnames, r.commands.keys_nodup, hnames ▸ hsize, ?_, ?_, r.filterMap_values _,
    r.filterMap_values _, hvalues ▸ hperm, ?_, ?_⟩
  · intro name
    rw [get?, h, Table.get?_ofList, last?]
  · intro name
    have hmem : r.has name = true ↔ name ∈ r.names := Table.contains_iff
    rw [hmem, hnames, List.mem_eraseDups, List.mem_map]
    exact ⟨fun ⟨⟨_, command⟩, hpair, hname⟩ => ⟨command, hname ▸ hpair⟩,
      fun ⟨command, hpair⟩ => ⟨_, hpair, rfl⟩⟩
  · have hlength := hperm.length_eq
    rw [List.length_append, List.length_map, List.length_map, Table.values, List.length_map]
      at hlength
    exact hlength.symm
  · intro above name below hparted command
    exact ⟨names_register_of_mem (hparted ▸ List.mem_append_right above List.mem_cons_self) command,
      filterMap_values_register Command.inline? hparted command,
      filterMap_values_register Command.block? hparted command⟩

lemma BuiltBy.response_eq {pairs : List (String × Command)} {r : Registry} (h : BuiltBy pairs r)
    (change : Change) : change.response r = change.responseAfter pairs := by
  cases change with
  | clear => rfl
  | register name command =>
    have hhas : r.has name = (last? pairs name).isSome := by
      rw [← h.get?_eq]
      exact Table.contains_eq ..
    rw [Change.response, Change.responseAfter, noticesOf, hhas, h.get?_eq]

lemma responses_eq_mapIdx (r : Registry) (changes : List Change) :
    responses r changes =
      changes.mapIdx fun i change => change.response ((changes.take i).foldl Change.apply r) := by
  induction changes generalizing r with
  | nil => rfl
  | cons change rest ih =>
    rw [responses, ih, List.mapIdx_cons]
    rfl

/-- A registry after any history is that of the registrations since the last clear, and each change
was answered according to the registrations before it. -/
theorem builtBy_after (changes : List Change) :
    BuiltBy (registered changes) (after changes) ∧
      responses .empty changes =
        changes.mapIdx fun i change => change.responseAfter (registered (changes.take i)) := by
  have hbuilt : ∀ changes, BuiltBy (registered changes) (after changes) :=
    fun changes => builtBy_of_commands (commands_after changes)
  refine ⟨hbuilt changes, ?_⟩
  rw [responses_eq_mapIdx]
  congr 1
  funext i change
  exact (hbuilt (changes.take i)).response_eq change

/-- A pause that is bound to a block command stands before the quote, as it did before. -/
example :
    let r := after [.register "QUOTE" (.block Builtin.quote), .clear,
      .register "pause" (.inline Builtin.pause), .register "QUOTE" (.block Builtin.quote),
      .register "pause" (.block Builtin.closing)]
    r.names = ["pause", "QUOTE"] ∧ r.inlineCommands.map (·.name) = [] ∧
      r.blockCommands.map (·.name) = ["CLOSING", "QUOTE"] := by
  decide

end Registry
end LessonScript
