import LessonScript.Parser
import LessonScript.Proofs.Inline.Order
import LessonScript.Proofs.Registry

/-!
# The order of registration

A line goes to the first registered block command that accepts it, and of inline candidates that
start together the one of the earlier command comes first. With the built-in commands neither rule
is ever needed, so a script reads the same whatever their order. The two markers need no commands:
the walk over a body knows them by itself.
-/

namespace LessonScript

open Text (Line)

/-! ## What a body depends on -/

lemma CommandSet.proseElements_congr {a b : CommandSet} (hpause : a.pause = b.pause)
    (hscan : ∀ line, scanSegments a.inline line = scanSegments b.inline line) :
    a.proseElements = b.proseElements := by
  have helement : a.proseElement = b.proseElement := by
    funext line
    have hstandalone : a.standalonePause? line = b.standalonePause? line := by
      rw [standalonePause?, standalonePause?, hpause]
    rw [proseElement, proseElement, hstandalone, hscan]
  funext lines
  rw [proseElements, proseElements, helement]

namespace Walk

variable {a b : CommandSet} (metadata : Metadata)

lemma flush_congr (hprose : a.proseElements = b.proseElements) (w : Walk) :
    w.flush a metadata = w.flush b metadata := by
  have hcontent : addContent a metadata = addContent b metadata := by
    funext scenes content
    cases content with
    | element element => cases element <;> rfl
    | container element lines => simp only [addContent, hprose]
    | scene scene lines => simp only [addContent, hprose]
  simp only [flush, flushProse, flushBlock, hprose, hcontent]

lemma step_congr (hprose : a.proseElements = b.proseElements)
    (hblock : ∀ line, line ≠ Builtin.titleMarker → Builtin.sceneName line = none →
      a.blockAt? line = b.blockAt? line) (w : Walk) (line : Line) :
    w.step a metadata line = w.step b metadata line := by
  rw [step, step, flush_congr metadata hprose]
  by_cases htitle : line = Builtin.titleMarker
  · rw [if_pos htitle, if_pos htitle]
  · rw [if_neg htitle, if_neg htitle]
    cases hscene : Builtin.sceneName line with
    | some name => rfl
    | none => rw [hblock line htitle hscene]

/-- Command sets that read prose alike, and also the lines that are no markers, give the same
scenes. -/
lemma scenesOf_congr (hprose : a.proseElements = b.proseElements)
    (hblock : ∀ line, line ≠ Builtin.titleMarker → Builtin.sceneName line = none →
      a.blockAt? line = b.blockAt? line) (lines : List Line) :
    scenesOf a metadata lines = scenesOf b metadata lines := by
  have hstep : step a metadata = step b metadata := by
    funext w line
    exact step_congr metadata hprose hblock w line
  rw [scenesOf, scenesOf, hstep, flush_congr metadata hprose]

end Walk

/-- When at most one member of a list gives a value, the first value is the value of any member. -/
lemma findSome?_eq_some_iff_of_pairwise {α β : Type} {f : α → Option β} {xs : List α}
    (h : xs.Pairwise fun x y => f x = none ∨ f y = none) {v : β} :
    xs.findSome? f = some v ↔ ∃ x ∈ xs, f x = some v := by
  constructor
  · exact List.exists_of_findSome?_eq_some
  · rintro ⟨x, hx, hv⟩
    obtain ⟨before, behind, rfl⟩ := List.append_of_mem hx
    refine List.findSome?_eq_some_iff.2 ⟨before, x, behind, rfl, hv, fun y hy => ?_⟩
    have hone := (List.pairwise_append.1 h).2.2 y hy x List.mem_cons_self
    rw [hv] at hone
    exact hone.resolve_right (Option.some_ne_none v)

/-! ## The built-in commands -/

namespace Builtin

def blockCommands : List BlockCommand := commands.filterMap Command.block?

/-- Where only built-in commands are bound, under whatever names, the command set has no others. -/
lemma mem_of_values {registry : Registry}
    (h : ∀ command ∈ registry.commands.values, command ∈ commands) :
    (∀ command ∈ registry.commandSet.inline, command ∈ inlineCommands) ∧
      ∀ command ∈ registry.commandSet.block, command ∈ blockCommands := by
  constructor
  · intro command hc
    obtain ⟨bound, hbound, hinline⟩ := List.mem_filterMap.1 hc
    exact List.mem_filterMap.2 ⟨bound, h bound hbound, hinline⟩
  · intro command hc
    obtain ⟨bound, hbound, hblock⟩ := List.mem_filterMap.1 hc
    exact List.mem_filterMap.2 ⟨bound, h bound hbound, hblock⟩

/-- The commands that are no markers. -/
def directives : List Command :=
  [.inline pause, .inline ego, .inline bold, .block quote, .block practice, .block word,
    .block closing]

/-- The commands of the markers. -/
def markers : List Command := [.block scene, .block title]

section Headers

variable {marker line : Line}

lemma prefix_of_wordAfter {modifier : Option (List Char)}
    (h : wordAfter marker line = some modifier) : marker <+: line := by
  obtain ⟨rest, hrest, -⟩ := Option.bind_eq_some_iff.1 h
  exact ⟨rest, (Text.after?_eq_some_iff.1 hrest).symm⟩

lemma prefix_of_nameAfter {name : List Char} (h : nameAfter marker line = some name) :
    marker <+: line := by
  obtain ⟨rest, hrest, -⟩ := Option.bind_eq_some_iff.1 h
  exact ⟨rest, (Text.after?_eq_some_iff.1 hrest).symm⟩

lemma prefix_of_exact {modifier : Option (List Char)}
    (h : (if line = marker then some none else none) = some modifier) : marker <+: line := by
  split at h
  · rename_i heq
    exact heq ▸ List.prefix_rfl
  · cases h

end Headers

/-- The hash signs and the space that every header begins with are followed by the name of the
command. -/
lemma name_of_header {command : BlockCommand} (hc : command ∈ blockCommands) {line : Line}
    {modifier : Option (List Char)} (h : command.header line = some modifier) :
    command.name.toList <+: (line.dropWhile (· = '#')).drop 1 := by
  have hlist : blockCommands = [quote, practice, word, closing, scene, title] := rfl
  rw [hlist] at hc
  simp only [List.mem_cons, List.not_mem_nil, or_false] at hc
  rcases hc with rfl | rfl | rfl | rfl | rfl | rfl
  · obtain ⟨rest, rfl⟩ := prefix_of_wordAfter h
    exact ⟨rest, rfl⟩
  · obtain ⟨rest, rfl⟩ := prefix_of_exact h
    exact ⟨rest, rfl⟩
  · obtain ⟨name, hname, -⟩ := Option.map_eq_some_iff.1 h
    obtain ⟨rest, rfl⟩ := prefix_of_nameAfter hname
    exact ⟨':' :: rest, rfl⟩
  · obtain ⟨rest, rfl⟩ := prefix_of_exact h
    exact ⟨rest, rfl⟩
  · obtain ⟨name, hname, -⟩ := Option.map_eq_some_iff.1 h
    obtain ⟨rest, rfl⟩ := prefix_of_nameAfter hname
    exact ⟨':' :: rest, rfl⟩
  · obtain ⟨rest, rfl⟩ := prefix_of_exact h
    exact ⟨rest, rfl⟩

/-- At most one built-in command accepts a line as its header. -/
lemma pairwise_header (line : Line) :
    blockCommands.Pairwise fun a b => a.header line = none ∨ b.header line = none := by
  have hnames : blockCommands.Pairwise fun a b => Apart a.name.toList b.name.toList := by decide
  refine hnames.imp_of_mem fun ha hb hab => ?_
  rename_i a b
  cases hma : a.header line with
  | none => exact .inl rfl
  | some modifier =>
    right
    cases hmb : b.header line with
    | none => rfl
    | some modifier => exact (hab.not_both (name_of_header ha hma) (name_of_header hb hmb)).elim

/-- The markers' own commands accept nothing but the markers. -/
lemma header_eq_none_of_marker {command : BlockCommand} (hc : .block command ∈ markers)
    {line : Line} (htitle : line ≠ titleMarker) (hscene : sceneName line = none) :
    command.header line = none := by
  simp only [markers, List.mem_cons, List.not_mem_nil, or_false, Command.block.injEq] at hc
  rcases hc with rfl | rfl
  · simp only [scene, hscene, Option.map_none]
  · exact if_neg htitle

end Builtin

lemma Command.block?_eq_some_iff {command : Command} {block : BlockCommand} :
    command.block? = some block ↔ command = .block block := by
  cases command <;> simp [block?]

/-- The registry of some commands, each registered under its own name. -/
def Registry.ofCommands (order : List Command) : Registry :=
  .ofList (order.map fun command => (command.name, command))

namespace Builtin

/-- The built-in commands in some order, the markers' own commands left out or not. -/
def Arranged (order : List Command) : Prop :=
  ∃ chosen : List Command, chosen.Sublist markers ∧ order.Perm (directives ++ chosen)

namespace Arranged

lemma commands : Arranged Builtin.commands := ⟨markers, .refl _, .refl _⟩

variable {order : List Command} (h : Arranged order)

include h

lemma subperm : order.Subperm Builtin.commands := by
  obtain ⟨chosen, hchosen, horder⟩ := h
  exact ⟨directives ++ chosen, horder.symm, hchosen.append_left directives⟩

lemma entries_ofCommands :
    (Registry.ofCommands order).commands.entries = order.map fun c => (c.name, c) := by
  have hnames : (Builtin.commands.map Command.name).Nodup := by decide
  have hdistinct : (order.map Command.name).Nodup := by
    obtain ⟨listed, hperm, hsub⟩ := h.subperm
    exact (hperm.map _).nodup_iff.1 ((hsub.map _).nodup hnames)
  rw [Registry.ofCommands, Registry.commands_ofList]
  apply Table.entries_ofList
  rwa [List.map_map]

lemma values_ofCommands : (Registry.ofCommands order).commands.values = order := by
  rw [Table.values, h.entries_ofCommands, List.map_map]
  exact List.map_id order

lemma inline_perm : (Registry.ofCommands order).commandSet.inline.Perm inlineCommands := by
  obtain ⟨chosen, hchosen, horder⟩ := id h
  have hnone : chosen.filterMap Command.inline? = [] :=
    List.sublist_nil.1 (hchosen.filterMap Command.inline?)
  have hperm := horder.filterMap Command.inline?
  rw [List.filterMap_append, hnone, List.append_nil] at hperm
  rwa [Registry.commandSet, Registry.inlineCommands, h.values_ofCommands]

lemma pause_eq : (Registry.ofCommands order).commandSet.pause = some pause := by
  obtain ⟨chosen, hchosen, horder⟩ := id h
  have hget : (Registry.ofCommands order).get? "pause" = some (.inline pause) := by
    have hmem : .inline pause ∈ order :=
      horder.mem_iff.2 (List.mem_append_left chosen List.mem_cons_self)
    rw [Registry.get?, Table.get?_eq_some_iff, h.entries_ofCommands]
    exact List.mem_map.2 ⟨_, hmem, rfl⟩
  rw [Registry.commandSet, hget]
  rfl

lemma proseElements_eq :
    (Registry.ofCommands order).commandSet.proseElements =
      CommandSet.proseElements ⟨inlineCommands, [], some pause⟩ := by
  apply CommandSet.proseElements_congr h.pause_eq
  intro line
  rw [scanSegments, Candidate.candidates_eq_of_perm h.inline_perm (pairwise_start_all line)]
  rfl

/-- A line that is no marker goes to the directive that accepts it. -/
lemma blockAt?_eq_some_iff {line : Line} (htitle : line ≠ titleMarker)
    (hscene : sceneName line = none) {found : BlockCommand × Option (List Char)} :
    (Registry.ofCommands order).commandSet.blockAt? line = some found ↔
      .block found.1 ∈ directives ∧ found.1.header line = some found.2 := by
  obtain ⟨chosen, hchosen, horder⟩ := id h
  have hblock : (Registry.ofCommands order).commandSet.block = order.filterMap Command.block? := by
    rw [Registry.commandSet, Registry.blockCommands, h.values_ofCommands]
  have hone : (order.filterMap Command.block?).Pairwise fun a b =>
      (a.header line).map (a, ·) = none ∨ (b.header line).map (b, ·) = none := by
    obtain ⟨listed, hperm, hsub⟩ := h.subperm
    have hlisted := (pairwise_header line).sublist (hsub.filterMap Command.block?)
    refine ((hperm.filterMap Command.block?).pairwise hlisted Or.symm).imp fun h => ?_
    simpa using h
  have hmem : ∀ command, command ∈ order.filterMap Command.block? ↔
      .block command ∈ directives ∨ .block command ∈ chosen := by
    intro command
    simp only [List.mem_filterMap, Command.block?_eq_some_iff, exists_eq_right, horder.mem_iff,
      List.mem_append]
  obtain ⟨command, modifier⟩ := found
  rw [CommandSet.blockAt?, hblock, findSome?_eq_some_iff_of_pairwise hone]
  constructor
  · rintro ⟨other, hother, hheader⟩
    obtain ⟨modifier, hm, he⟩ := Option.map_eq_some_iff.1 hheader
    cases he
    refine ⟨((hmem _).1 hother).resolve_right fun hc => ?_, hm⟩
    rw [header_eq_none_of_marker (hchosen.subset hc) htitle hscene] at hm
    cases hm
  · rintro ⟨hd, hm⟩
    exact ⟨command, (hmem _).2 (.inl hd), by rw [hm]; rfl⟩

/-- Two arrangements read every body alike. -/
lemma scenesOf_eq {other : List Command} (h' : Arranged other) (metadata : Metadata)
    (lines : List Line) :
    Walk.scenesOf (Registry.ofCommands order).commandSet metadata lines =
      Walk.scenesOf (Registry.ofCommands other).commandSet metadata lines := by
  apply Walk.scenesOf_congr
  · rw [h.proseElements_eq, h'.proseElements_eq]
  · intro line htitle hscene
    apply Option.ext
    intro found
    rw [h.blockAt?_eq_some_iff htitle hscene, h'.blockAt?_eq_some_iff htitle hscene]

end Arranged
end Builtin

/-- Whatever the order in which the built-in commands are registered, and with the markers' own
commands or without them, a script parses to the same document. For at most one of these commands
accepts a line as its header, no two of their occurrences start together, and the lines that the
markers' commands accept are markers to the walk anyway. -/
theorem parse_of_arranged {order : List Command} (h : Builtin.Arranged order) :
    (∀ source, ((Parser.ofRegistry (.ofCommands order)).parse source).1 =
        (Parser.builtin.parse source).1) ∧
      (∀ line, Builtin.blockCommands.Pairwise fun a b =>
        a.header line = none ∨ b.header line = none) ∧
      (∀ line, (Candidate.all Builtin.inlineCommands line).Pairwise fun a b =>
        a.start ≠ b.start) ∧
      ∀ command line, .block command ∈ Builtin.markers → (command.header line).isSome →
        line = Builtin.titleMarker ∨ (Builtin.sceneName line).isSome := by
  refine ⟨?_, Builtin.pairwise_header, Builtin.pairwise_start_all, ?_⟩
  · intro source
    have hscenes := h.scenesOf_eq Builtin.Arranged.commands
    simp only [Parser.parse, Parser.builtin, CommandSet.parse, Parser.commands_ofRegistry]
    rw [hscenes]
    rfl
  · intro command line hc hheader
    by_contra hmarker
    rw [not_or, Bool.not_eq_true, Option.isSome_eq_false_iff, Option.isNone_iff_eq_none] at hmarker
    rw [Builtin.header_eq_none_of_marker hc hmarker.1 hmarker.2] at hheader
    cases hheader

/-- The title keeps its command and the scene does not. -/
theorem parse_of_arranged_reversed :
    let order := [.block Builtin.title, .block Builtin.closing, .block Builtin.word,
      .block Builtin.practice, .block Builtin.quote, .inline Builtin.bold, .inline Builtin.ego,
      .inline Builtin.pause]
    let source := "# TITLE\n# SCENE: a\n## WORD: b\n[ego]c [pause][/ego]\n## QUOTE\n> d"
    Builtin.Arranged order ∧
      ((Parser.ofRegistry (.ofCommands order)).parse source).1 =
        (Parser.builtin.parse source).1 := by
  intro order source
  have h : Builtin.Arranged order := by
    refine ⟨[.block Builtin.title], List.sublist_cons_self .., ?_⟩
    exact List.reverse_perm (Builtin.directives ++ [Command.block Builtin.title])
  exact ⟨h, (parse_of_arranged h).1 source⟩

end LessonScript
