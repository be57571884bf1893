import LessonScript.Proofs.Body.WellFormed
import Mathlib.Data.Option.Basic

/-!
# Commands that never match

What is made of a body depends on its command set only through its own lines: which block command
accepts a line, and what the line is as prose. A block has some of its lines read again as prose,
and as long as these are lines of the body too, a command that matches none of the lines makes no
difference. A newly registered command is such an addition to the command set.
-/

namespace LessonScript

open Text (Line)

/-- The command has no lines read as prose but those of its own block. -/
def BlockCommand.NestsOwnLines (command : BlockCommand) : Prop :=
  ∀ lines modifier, (command.decode lines modifier).nestedLines ⊆ lines

/-- The command does not match a line: an inline command does not occur in it once it is trimmed,
and a block command does not take it for its header. -/
def Command.PassesOver (line : Line) : Command → Prop
  | .inline command => command.pattern.find (Text.trim line) = []
  | .block command => command.header line = none

/-! ## Command sets that agree on the lines of a body -/

/-- Two command sets take a line for the same header and make the same of it as prose. -/
structure CommandSet.AgreeOn (a b : CommandSet) (line : Line) : Prop where
  header : a.blockAt? line = b.blockAt? line
  prose : a.proseElement (Text.trim line) = b.proseElement (Text.trim line)

section Agreement

variable {a b : CommandSet} {lines : List Line}

lemma CommandSet.proseElements_congr_of_agree (h : ∀ line ∈ lines, a.AgreeOn b line) :
    a.proseElements lines = b.proseElements lines := by
  rw [proseElements_eq_map, proseElements_eq_map]
  exact List.map_congr_left fun line hline => (h line (List.mem_of_mem_filter hline)).prose

namespace Chunk

lemma cut_congr (h : ∀ line ∈ lines, a.AgreeOn b line) : cut a lines = cut b lines := by
  induction lines with
  | nil => rfl
  | cons line rest ih =>
    obtain ⟨hline, hrest⟩ := List.forall_mem_cons.1 h
    have hheading : Heading.ofLine? a line = Heading.ofLine? b line := by
      rw [Heading.ofLine?_eq, Heading.ofLine?_eq, hline.header]
    rw [cut, cut, hheading, ih hrest]

variable (metadata : Metadata)

lemma contribution_congr {content : BlockContent}
    (h : ∀ line ∈ content.nestedLines, a.AgreeOn b line) :
    contribution a metadata content = contribution b metadata content := by
  cases content with
  | element element => cases element <;> rfl
  | container element lines =>
    have hprose : a.proseElements lines = b.proseElements lines :=
      CommandSet.proseElements_congr_of_agree h
    rw [contribution, contribution, hprose]
  | scene scene lines =>
    have hprose : a.proseElements lines = b.proseElements lines :=
      CommandSet.proseElements_congr_of_agree h
    rw [contribution, contribution, hprose]

lemma contributes_congr_of_agree (hnested : ∀ command ∈ a.block, command.NestsOwnLines)
    (h : ∀ line ∈ lines, a.AgreeOn b line) {chunk : Chunk} (hchunk : chunk.CutFrom a lines)
    (first : Bool) :
    chunk.contributes a metadata first = chunk.contributes b metadata first := by
  obtain ⟨heading, content⟩ := chunk
  obtain ⟨⟨line, -, hl⟩, hsub⟩ := hchunk
  have hcontent : ∀ line ∈ content, a.AgreeOn b line := fun line hline => h line (hsub hline)
  have hprose : a.proseElements content = b.proseElements content :=
    CommandSet.proseElements_congr_of_agree hcontent
  cases heading with
  | title => simp only [contributes, hprose]
  | scene name => simp only [contributes, hprose]
  | block command modifier =>
    have hown : (command.decode content modifier).nestedLines ⊆ content :=
      hnested command (Heading.of_block hl).1 content modifier
    have hdecoded := contribution_congr metadata fun line hline => hcontent line (hown hline)
    simp only [contributes, hdecoded]

end Chunk

lemma Walk.scenesOf_congr_of_agree (metadata : Metadata)
    (hnested : ∀ command ∈ a.block, command.NestsOwnLines)
    (h : ∀ line ∈ lines, a.AgreeOn b line) :
    scenesOf a metadata lines = scenesOf b metadata lines := by
  obtain ⟨hsub, hchunks⟩ := Chunk.cutFrom_cut a lines
  have hprose : a.proseElements (Chunk.cut a lines).1 = b.proseElements (Chunk.cut a lines).1 :=
    CommandSet.proseElements_congr_of_agree fun line hline => h line (hsub hline)
  -- Both sets cut the lines into the same chunks, so only the reading of each chunk is left.
  rw [scenesOf_eq, scenesOf_eq, Chunk.scenesOf, Chunk.scenesOf, ← Chunk.cut_congr h]
  simp only [hprose]
  refine List.foldl_ext _ _ _ fun scenes chunk hchunk => ?_
  rw [Chunk.read, Chunk.read,
    Chunk.contributes_congr_of_agree metadata hnested h (hchunks chunk hchunk)]

end Agreement

/-! ## One more command -/

namespace CommandSet

variable (commands : CommandSet) (command : Command)

/-- A command put behind all others. The one that is bound to "pause" is told separately. -/
def extend (pause : Option InlineCommand) : CommandSet where
  inline := commands.inline ++ command.inline?.toList
  block := commands.block ++ command.block?.toList
  pause := pause

variable {commands command} {line : Line}

lemma candidates_append_of_find {commands : List InlineCommand} {command : InlineCommand}
    {text : List Char} (h : command.pattern.find text = []) :
    candidates (commands ++ [command]) text = candidates commands text := by
  rw [candidates, candidates, List.flatMap_append, List.flatMap_singleton, h, List.map_nil,
    List.append_nil]

lemma scanSegments_extend (h : command.PassesOver line) (pause : Option InlineCommand) :
    scanSegments (commands.extend command pause).inline (Text.trim line) =
      scanSegments commands.inline (Text.trim line) := by
  cases command with
  | inline command =>
    rw [extend, Command.inline?, Option.toList_some, scanSegments, candidates_append_of_find h]
    rfl
  | block command =>
    rw [extend, Command.inline?, Option.toList_none, List.append_nil]

lemma blockAt?_extend (h : command.PassesOver line) (pause : Option InlineCommand) :
    (commands.extend command pause).blockAt? line = commands.blockAt? line := by
  cases command with
  | inline command =>
    rw [blockAt?, extend, Command.block?, Option.toList_none, List.append_nil, blockAt?]
  | block command =>
    have hnone : command.header line = none := h
    rw [blockAt?, extend, Command.block?, Option.toList_some, List.findSome?_append, blockAt?,
      List.findSome?_singleton, hnone, Option.map_none, Option.or_none]

/-- Without an occurrence of the command bound to "pause" a line is no pause. -/
lemma standalonePause?_eq_none {text : List Char}
    (h : ∀ command ∈ commands.pause, command.pattern.find text = []) :
    commands.standalonePause? text = none := by
  simp only [standalonePause?, Option.bind_eq_bind, Option.bind_eq_none_iff]
  intro _ _ _ _ command hc occurrence hfound
  rw [h command hc] at hfound
  cases hfound

lemma standalonePause?_extend (hline : command.PassesOver line) {pause : Option InlineCommand}
    (hpause : pause = commands.pause ∨ commands.pause = none ∧ pause = command.inline?) :
    (commands.extend command pause).standalonePause? (Text.trim line) =
      commands.standalonePause? (Text.trim line) := by
  rcases hpause with rfl | ⟨hnone, rfl⟩
  · rfl
  · rw [standalonePause?_eq_none, standalonePause?_eq_none]
    · simp [hnone]
    · rintro bound hbound
      cases command with
      | inline command =>
        obtain rfl : command = bound := Option.some.inj hbound
        exact hline
      | block command => cases hbound

lemma agreeOn_extend (hline : command.PassesOver line) {pause : Option InlineCommand}
    (hpause : pause = commands.pause ∨ commands.pause = none ∧ pause = command.inline?) :
    commands.AgreeOn (commands.extend command pause) line where
  header := (blockAt?_extend hline pause).symm
  prose := by
    rw [proseElement, proseElement, standalonePause?_extend hline hpause,
      scanSegments_extend hline pause]

end CommandSet

namespace Registry

variable {r : Registry} {name : String}

/-- Under a new name a command comes last, and it is only bound to "pause" if nothing was. -/
lemma commandSet_register_of_notMem (h : name ∉ r.names) (command : Command) :
    ∃ pause, (r.register name command).commandSet = r.commandSet.extend command pause ∧
      (pause = r.commandSet.pause ∨ r.commandSet.pause = none ∧ pause = command.inline?) := by
  have hvalues : (r.register name command).commands.values = r.commands.values ++ [command] := by
    rw [Table.values, register, Table.entries_insert_of_notMem h, List.map_append]
    rfl
  refine ⟨(r.register name command).commandSet.pause, ?_, ?_⟩
  · simp only [commandSet, CommandSet.extend, inlineCommands, blockCommands, hvalues,
      List.filterMap_append, List.filterMap_cons, List.filterMap_nil]
    cases command <;> rfl
  · simp only [commandSet, get?_register]
    by_cases hname : name = "pause"
    · right
      have hunbound : r.get? "pause" = none := Table.get?_eq_none_iff.2 (hname ▸ h)
      rw [if_pos hname, hunbound]
      exact ⟨rfl, rfl⟩
    · left
      rw [if_neg hname]

end Registry

namespace Builtin

lemma nestsOwnLines : ∀ command ∈ Registry.builtin.blockCommands, command.NestsOwnLines := by
  intro command hc lines modifier
  have hlist : Registry.builtin.blockCommands = _ := block_builtin
  rw [hlist] at hc
  simp only [List.mem_cons, List.not_mem_nil, or_false] at hc
  rcases hc with rfl | rfl | rfl | rfl | rfl | rfl
  · exact List.nil_subset lines
  · exact List.nil_subset lines
  · exact List.Subset.refl lines
  · exact List.Subset.refl lines
  · exact List.Subset.refl lines
  · exact List.nil_subset lines

end Builtin

/-- A command registered under a new name that passes over every line of a body makes no
difference to the document. The other block commands must have nothing read again but their own
lines, as the built-in ones do. -/
theorem parse_register_of_passesOver :
    (∀ command ∈ Registry.builtin.blockCommands, command.NestsOwnLines) ∧
      ∀ (r : Registry) (name : String) (command : Command) (source : String),
        (∀ c ∈ r.blockCommands, c.NestsOwnLines) → name ∉ r.names →
        (∀ line ∈ Text.bodyLines (extractHeader source.toList).2, command.PassesOver line) →
        ((Parser.ofRegistry (r.register name command)).parse source).1 =
          ((Parser.ofRegistry r).parse source).1 := by
  refine ⟨Builtin.nestsOwnLines, fun r name command source hnested hname hover => ?_⟩
  obtain ⟨pause, hset, hpause⟩ := Registry.commandSet_register_of_notMem hname command
  have hscenes := Walk.scenesOf_congr_of_agree (extractHeader source.toList).1 hnested
    fun line hline => CommandSet.agreeOn_extend (hover line hline) hpause
  simp only [Parser.parse, CommandSet.parse, Parser.commands_ofRegistry, hset, hscenes]

/-- Nothing was bound to "pause", and the command that is bound to it now occurs in no line: one
line has its opening mark alone. -/
theorem parse_register_unclosed_span :
    let r := Registry.ofCommands [.inline Builtin.bold, .block Builtin.quote, .block Builtin.word]
    let command := Command.inline Builtin.ego
    let source := "# SCENE: a\n[pause]\n## WORD: b\n [bold]c[/bold] [ego]d"
    (∀ c ∈ r.blockCommands, c.NestsOwnLines) ∧ "pause" ∉ r.names ∧
      (∀ line ∈ Text.bodyLines (extractHeader source.toList).2, command.PassesOver line) ∧
      ((Parser.ofRegistry (r.register "pause" command)).parse source).1 =
        ((Parser.ofRegistry r).parse source).1 := by
  intro r command source
  have hnested : ∀ c ∈ r.blockCommands, c.NestsOwnLines := by
    intro c hc
    have hlist : r.blockCommands = [Builtin.quote, Builtin.word] := rfl
    have hbuiltin : Registry.builtin.blockCommands = _ := Builtin.block_builtin
    apply Builtin.nestsOwnLines
    rw [hbuiltin]
    rw [hlist] at hc
    rcases List.mem_pair.1 hc with rfl | rfl <;> simp
  have hname : "pause" ∉ r.names := by decide
  have hover : ∀ line ∈ Text.bodyLines (extractHeader source.toList).2,
      command.PassesOver line := by
    have hbody : Text.bodyLines (extractHeader source.toList).2 = ["# SCENE: a".toList,
        "[pause]".toList, "## WORD: b".toList, " [bold]c[/bold] [ego]d".toList] := by
      decide
    rw [hbody]
    simp only [List.forall_mem_cons]
    exact ⟨rfl, rfl, rfl, rfl, nofun⟩
  exact ⟨hnested, hname, hover,
    parse_register_of_passesOver.2 r "pause" command source hnested hname hover⟩

end LessonScript
