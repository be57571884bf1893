import LessonScript.Proofs.Body.Chunks
import LessonScript.Proofs.Inline.Written
import LessonScript.Proofs.Registration
import Mathlib.Data.List.Forall2
import Mathlib.Data.List.TakeWhile
import Mathlib.Data.Option.Basic

/-!
# Pauses in lines of prose

A line that opens with a pause directive decodes to the pause and to what the text behind it decodes
to alone, and no other line decodes to a pause first. So a line of prose becomes a pause of its own
exactly when it decodes to one pause and nothing else.
-/

namespace LessonScript

open Text (Line)

/-! ## Text behind a directive -/

/-- The same occurrence some characters further on. -/
def Occurrence.moved (n : Nat) (m : Occurrence) : Occurrence := { m with start := m.start + n }

/-- The same candidate some characters further on. -/
def Candidate.moved (n : Nat) (c : Candidate) : Candidate :=
  { c with occurrence := c.occurrence.moved n }

section Moved

variable (n : Nat)

lemma Candidate.start_moved (c : Candidate) :
    (c.moved n).occurrence.start = c.occurrence.start + n := rfl

lemma Candidate.stop_moved (c : Candidate) :
    (c.moved n).occurrence.stop = c.occurrence.stop + n := by
  simp only [Occurrence.stop, moved, Occurrence.moved]
  omega

lemma occurrencesFrom_moved (recognise : List Char → Option HeadMatch) (offset skip : Nat)
    (cs : List Char) :
    occurrencesFrom recognise (offset + n) skip cs =
      (occurrencesFrom recognise offset skip cs).map (Occurrence.moved n) := by
  induction cs generalizing offset skip with
  | nil => cases skip <;> rfl
  | cons c cs ih =>
    cases skip with
    | succ skip =>
      rw [occurrencesFrom, occurrencesFrom, Nat.add_right_comm, ih]
    | zero =>
      rw [occurrencesFrom, occurrencesFrom, Nat.add_right_comm]
      cases recognise (c :: cs) with
      | none => exact ih _ _
      | some m => exact congrArg _ (ih _ _)

/-- What is found behind a text in which nothing starts is found further on. -/
lemma Passes.find_append {recognise : List Char → Option HeadMatch} {cs : List Char}
    (h : Passes recognise cs) (rest : List Char) :
    occurrencesFrom recognise 0 0 (cs ++ rest) =
      (occurrencesFrom recognise 0 0 rest).map (Occurrence.moved cs.length) := by
  rw [h, occurrencesFrom_moved]

lemma keepDisjoint_moved (offset : Nat) (cs : List Candidate) :
    keepDisjoint (offset + n) (cs.map (Candidate.moved n)) =
      (keepDisjoint offset cs).map (Candidate.moved n) := by
  induction cs generalizing offset with
  | nil => rfl
  | cons c cs ih =>
    rw [List.map_cons, keepDisjoint, keepDisjoint, c.start_moved, c.stop_moved, ih, ih]
    by_cases hlt : c.occurrence.start < offset
    · rw [if_pos hlt, if_pos (Nat.add_lt_add_right hlt n)]
    · rw [if_neg hlt, if_neg fun h => hlt (Nat.lt_of_add_lt_add_right h), List.map_cons]

lemma assemble_moved (offset : Nat) (rest : List Char) (kept : List Candidate) :
    assemble (offset + n) rest (kept.map (Candidate.moved n)) = assemble offset rest kept := by
  induction kept generalizing offset rest with
  | nil => rfl
  | cons c kept ih =>
    rw [List.map_cons, assemble, assemble, c.start_moved, c.stop_moved, Nat.add_sub_add_right, ih]
    rfl

end Moved

lemma scanSegments_of_ne_nil (commands : List InlineCommand) {line : List Char} (hne : line ≠ []) :
    scanSegments commands line = assemble 0 line (keepDisjoint 0 (candidates commands line)) := by
  rw [scanSegments]
  split
  · rename_i h
    cases hk : keepDisjoint 0 (candidates commands line) with
    | nil =>
      rw [hk, assemble, rawSegments, if_neg (by simpa using hne)] at h
      cases h
    | cons c kept =>
      rw [hk, assemble] at h
      simp at h
  · rfl

lemma keepDisjoint_sublist (offset : Nat) (cs : List Candidate) :
    (keepDisjoint offset cs).Sublist cs := by
  induction cs generalizing offset with
  | nil => exact .slnil
  | cons c cs ih =>
    rw [keepDisjoint]
    split
    · exact (ih _).cons c
    · exact (ih _).cons_cons c

lemma pause_notMem_rawSegments {duration : Millis} {cs : List Char} :
    .pause duration ∉ rawSegments cs := by
  unfold rawSegments
  split <;> simp

namespace Builtin

/-- The two ways to write a pause: with a modifier and without one. -/
inductive PauseDirective : Option (List Char) → List Char → Prop
  | plain : PauseDirective none "[pause]".toList
  | modified {word : List Char} (hne : word ≠ []) (hword : ∀ c ∈ word, isWordChar c = true) :
      PauseDirective (some word) ("[pause:".toList ++ word ++ "]".toList)

variable {modifier : Option (List Char)} {directive line : List Char}

namespace PauseDirective

lemma ne_nil (h : PauseDirective modifier directive) : directive ≠ [] := by
  cases h <;> simp

lemma pauseAtHead_append (h : PauseDirective modifier directive) (rest : List Char) :
    pauseAtHead (directive ++ rest) = some ⟨directive.length, modifier⟩ := by
  cases h with
  | plain => rfl
  | modified hne hword => exact pauseAtHead_word hne hword rest

/-- A command that looks for other marks finds nothing in the directive. -/
lemma passes {recognise : List Char → Option HeadMatch} {name : List Char}
    (hopens : LooksFor recognise name) (hplain : OtherMark name "[pause]".toList)
    (hmodified : OtherMark name "[pause:".toList) (h : PauseDirective modifier directive) :
    Passes recognise directive := by
  cases h with
  | plain => exact hopens.passes_mark hplain
  | modified hne hword =>
    have hfree : '[' ∉ _ := fun hm => absurd (hword _ hm) (by decide)
    exact ((hopens.passes_mark hmodified).append (hopens.passes hfree)).append
      (hopens.passes (by decide))

end PauseDirective

lemma exists_directive_of_pauseAtHead {m : HeadMatch} (h : pauseAtHead line = some m) :
    ∃ modifier directive rest, PauseDirective modifier directive ∧ line = directive ++ rest := by
  obtain ⟨behind, hbehind, hm⟩ := Option.bind_eq_some_iff.1 h
  obtain rfl := Text.after?_eq_some_iff.1 hbehind
  split at hm
  · rename_i rest
    exact ⟨none, _, rest, .plain, rfl⟩
  · rename_i behind
    simp only at hm
    split at hm
    · rename_i c cs rest hword hrest
      have hall : ∀ d ∈ c :: cs, isWordChar d = true := by
        rw [← hword]
        exact fun d hd => List.mem_takeWhile_imp hd
      have hline : behind = (c :: cs) ++ ']' :: rest := by
        rw [← hrest, hword, ← hword, List.prefix_iff_eq_append.1 (List.takeWhile_prefix _)]
      refine ⟨_, _, rest, .modified (List.cons_ne_nil c cs) hall, ?_⟩
      rw [hline]
      simp
    · cases hm
  · cases hm

/-! ## Decoding a line that opens with a pause -/

lemma candidates_nil : candidates inlineCommands [] = [] :=
  Candidate.candidates_eq (.refl []) .nil

/-- Behind a directive the built-in commands find what they find in the text alone. -/
lemma candidates_directive (h : PauseDirective modifier directive) (rest : List Char) :
    candidates inlineCommands (directive ++ rest) =
      ⟨pause, ⟨0, directive, modifier⟩⟩ ::
        (candidates inlineCommands rest).map (Candidate.moved directive.length) := by
  have hpause : pause.pattern.find (directive ++ rest) =
      ⟨0, directive, modifier⟩ ::
        (pause.pattern.find rest).map (Occurrence.moved directive.length) := by
    have hfound := occurrencesFrom_accepted h.ne_nil (h.pauseAtHead_append rest) 0
    rw [occurrencesFrom_moved] at hfound
    exact hfound
  have hego : ego.pattern.find (directive ++ rest) =
      (ego.pattern.find rest).map (Occurrence.moved directive.length) := by
    have hopens : '[' :: "ego".toList <+: "[ego]".toList := by decide
    exact (h.passes (looksFor_spanAtHead hopens) (by decide) (by decide)).find_append rest
  have hbold : bold.pattern.find (directive ++ rest) =
      (bold.pattern.find rest).map (Occurrence.moved directive.length) := by
    have hopens : '[' :: "bold".toList <+: "[bold]".toList := by decide
    exact (h.passes (looksFor_spanAtHead hopens) (by decide) (by decide)).find_append rest
  have hall : Candidate.all inlineCommands (directive ++ rest) =
      ⟨pause, ⟨0, directive, modifier⟩⟩ ::
        (Candidate.all inlineCommands rest).map (Candidate.moved directive.length) := by
    have hlist : inlineCommands = [pause, ego, bold] := rfl
    simp only [Candidate.all, hlist, List.flatMap_cons, List.flatMap_nil, hpause, hego, hbold,
      List.map_cons, List.map_append, List.map_map, List.cons_append]
    rfl
  -- The candidates are sorted by start: the pause stands first, and moving keeps the order of those
  -- behind it.
  apply Candidate.candidates_eq
  · rw [hall]
    exact ((Candidate.candidates_perm inlineCommands rest).map _).cons _
  · have hlater := Candidate.pairwise_candidates (pairwise_start_all rest)
    refine List.pairwise_cons.2 ⟨fun c hc => ?_, List.pairwise_map.2 (hlater.imp ?_)⟩
    · obtain ⟨found, -, rfl⟩ := List.mem_map.1 hc
      have hpos := List.length_pos_iff.2 h.ne_nil
      exact Nat.lt_of_lt_of_le hpos (Nat.le_add_left ..)
    · intro a b hab
      exact Nat.add_lt_add_right hab _

/-- A directive does not disturb the text behind it: the line decodes to the pause, and then to what
the text decodes to alone. -/
lemma scanSegments_directive (h : PauseDirective modifier directive) (rest : List Char) :
    scanSegments inlineCommands (directive ++ rest) =
      .pause (pauseLength modifier) ::
        if rest = [] then [] else scanSegments inlineCommands rest := by
  -- Once the directive is taken the text behind it is scanned at an offset, which comes to the same
  -- as scanning it at the start of a line.
  have hbehind : assemble directive.length rest (keepDisjoint directive.length
      ((candidates inlineCommands rest).map (Candidate.moved directive.length))) =
        assemble 0 rest (keepDisjoint 0 (candidates inlineCommands rest)) := by
    have hkept := keepDisjoint_moved directive.length 0 (candidates inlineCommands rest)
    have hpieces := assemble_moved directive.length 0 rest
      (keepDisjoint 0 (candidates inlineCommands rest))
    rw [Nat.zero_add] at hkept hpieces
    rw [hkept, hpieces]
  have hstop : (⟨0, directive, modifier⟩ : Occurrence).stop = directive.length := Nat.zero_add _
  have hopen : assemble 0 (directive ++ rest) (keepDisjoint 0 (⟨pause, ⟨0, directive, modifier⟩⟩ ::
      (candidates inlineCommands rest).map (Candidate.moved directive.length))) =
        .pause (pauseLength modifier) ::
          assemble 0 rest (keepDisjoint 0 (candidates inlineCommands rest)) := by
    rw [keepDisjoint, if_neg (Nat.lt_irrefl 0), assemble, hstop]
    simp only [Nat.sub_self, List.take_zero, Nat.zero_add, List.drop_left, hbehind]
    rfl
  rw [scanSegments_of_ne_nil _ (by simp [h.ne_nil]), candidates_directive h, hopen]
  by_cases hnil : rest = []
  · rw [if_pos hnil, hnil, candidates_nil]
    rfl
  · rw [if_neg hnil, scanSegments_of_ne_nil _ hnil]

lemma eq_pause_of_decode {command : InlineCommand} (hc : command ∈ inlineCommands)
    {capture : Option (List Char)} {duration : Millis}
    (h : command.decode capture = .pause duration) : command = pause := by
  rcases mem_inlineCommands.1 hc with rfl | rfl | rfl
  · rfl
  · cases h
  · cases h

/-- Only a candidate that starts with the line can give it a pause first. -/
lemma exists_candidate_of_assemble {duration : Millis} {kept : List Candidate}
    (h : (assemble 0 line kept).head? = some (.pause duration)) :
    ∃ c ∈ kept, line.take c.occurrence.start = [] ∧ c.segment = .pause duration := by
  cases kept with
  | nil => exact absurd (List.mem_of_head? h) pause_notMem_rawSegments
  | cons c rest =>
    rw [assemble, Nat.sub_zero] at h
    cases hbefore : line.take c.occurrence.start with
    | nil =>
      rw [hbefore] at h
      exact ⟨c, List.mem_cons_self, hbefore, Option.some.inj h⟩
    | cons d before =>
      rw [hbefore, rawSegments] at h
      cases h

lemma exists_pauseAtHead_of_scan {duration : Millis}
    (h : (scanSegments inlineCommands line).head? = some (.pause duration)) :
    ∃ m, pauseAtHead line = some m := by
  have hne : line ≠ [] := by
    rintro rfl
    rw [scanSegments, candidates_nil] at h
    cases h
  rw [scanSegments_of_ne_nil _ hne] at h
  obtain ⟨c, hkept, hbefore, hsegment⟩ := exists_candidate_of_assemble h
  have hc : c ∈ Candidate.all inlineCommands line :=
    (Candidate.candidates_perm _ _).mem_iff.1 ((keepDisjoint_sublist 0 _).subset hkept)
  obtain ⟨command, hcommand, hfound⟩ := List.mem_flatMap.1 hc
  obtain ⟨m, hm, rfl⟩ := List.mem_map.1 hfound
  obtain rfl := eq_pause_of_decode hcommand hsegment
  obtain ⟨n, found, hstart, haccepted, -⟩ := accepted_of_mem_occurrencesFrom hm
  have hn : 0 + n = m.start := by omega
  have hwhole : line.drop m.start = line := by
    conv_rhs => rw [← List.take_append_drop m.start line, hbefore, List.nil_append]
  rw [hn, hwhole] at haccepted
  exact ⟨found, haccepted⟩

/-- The lines that decode to a pause first are those that open with a directive. -/
lemma exists_directive_of_scan {duration : Millis}
    (h : (scanSegments inlineCommands line).head? = some (.pause duration)) :
    ∃ modifier directive rest, PauseDirective modifier directive ∧ line = directive ++ rest ∧
      pauseLength modifier = duration := by
  obtain ⟨m, hm⟩ := exists_pauseAtHead_of_scan h
  obtain ⟨modifier, directive, rest, hd, rfl⟩ := exists_directive_of_pauseAtHead hm
  rw [scanSegments_directive hd] at h
  exact ⟨modifier, directive, rest, hd, rfl, Segment.pause.inj (Option.some.inj h)⟩

lemma scanSegments_eq_pause_iff {duration : Millis} :
    scanSegments inlineCommands line = [.pause duration] ↔
      ∃ modifier, PauseDirective modifier line ∧ pauseLength modifier = duration := by
  constructor
  · intro h
    have hhead : (scanSegments inlineCommands line).head? = some (.pause duration) := by
      rw [h]
      rfl
    obtain ⟨modifier, directive, rest, hd, rfl, hlength⟩ := exists_directive_of_scan hhead
    rw [scanSegments_directive hd, List.cons.injEq] at h
    by_cases hnil : rest = []
    · rw [hnil, List.append_nil]
      exact ⟨modifier, hd, hlength⟩
    · rw [if_neg hnil] at h
      exact absurd h.2 (scanSegments_ne_nil _ _)
  · rintro ⟨modifier, hd, rfl⟩
    have hscan := scanSegments_directive hd []
    rwa [List.append_nil, if_pos rfl] at hscan

/-! ## Lines that become pauses -/

lemma inline_builtin : Registry.builtin.commandSet.inline = inlineCommands := rfl

lemma pause_builtin : Registry.builtin.commandSet.pause = some pause :=
  Arranged.commands.pause_eq

lemma standalonePause?_directive (h : PauseDirective modifier directive) :
    Registry.builtin.commandSet.standalonePause? directive = some (pauseLength modifier) := by
  have hhead := h.pauseAtHead_append []
  rw [List.append_nil] at hhead
  have hfound : pause.pattern.find directive = [⟨0, directive, modifier⟩] := by
    have hfound := occurrencesFrom_accepted h.ne_nil (h.pauseAtHead_append []) 0
    rw [List.append_nil] at hfound
    exact hfound
  simp only [CommandSet.standalonePause?, hhead, pause_builtin, Option.bind_eq_bind,
    Option.bind_some, guard_true, hfound, List.head?_cons]
  rfl

lemma standalonePause?_eq_some_iff {duration : Millis} :
    Registry.builtin.commandSet.standalonePause? line = some duration ↔
      ∃ modifier, PauseDirective modifier line ∧ pauseLength modifier = duration := by
  constructor
  · intro h
    obtain ⟨m, hm, hrest⟩ := Option.bind_eq_some_iff.1 h
    obtain ⟨modifier, directive, rest, hd, rfl⟩ := exists_directive_of_pauseAtHead hm
    rw [hd.pauseAtHead_append] at hm
    obtain rfl := Option.some.inj hm
    obtain ⟨_, hwhole, -⟩ := Option.bind_eq_some_iff.1 hrest
    have hlength : directive.length = (directive ++ rest).length :=
      (Option.guard_eq_some' _).1 hwhole
    have hnil : rest = [] := by simpa using hlength
    rw [hnil, List.append_nil] at h ⊢
    rw [standalonePause?_directive hd] at h
    exact ⟨modifier, hd, Option.some.inj h⟩
  · rintro ⟨modifier, hd, rfl⟩
    exact standalonePause?_directive hd

lemma proseElement_builtin (line : List Char) :
    (∃ duration, scanSegments inlineCommands line = [.pause duration] ∧
        Registry.builtin.commandSet.proseElement line = .pause duration) ∨
      (∀ duration, scanSegments inlineCommands line ≠ [.pause duration]) ∧
        Registry.builtin.commandSet.proseElement line =
          .text (scanSegments inlineCommands line) := by
  rw [CommandSet.proseElement, inline_builtin]
  cases hs : Registry.builtin.commandSet.standalonePause? line with
  | some duration =>
    left
    exact ⟨duration, scanSegments_eq_pause_iff.2 (standalonePause?_eq_some_iff.1 hs), rfl⟩
  | none =>
    right
    refine ⟨fun duration hscan => ?_, rfl⟩
    rw [standalonePause?_eq_some_iff.2 (scanSegments_eq_pause_iff.1 hscan)] at hs
    cases hs

end Builtin

/-- The lines that are not blank, without the white space at their ends. -/
def trimmedLines (lines : List String) : List String :=
  (lines.filter fun line => !Text.allBlank line.toList).map fun line =>
    String.ofList (Text.trim line.toList)

/-- What the element of a line is, given the segments that the line decodes to. -/
structure Builtin.ElementOfLine (line : String) (segments : List Segment) (element : Element) :
    Prop where
  pause_iff : ∀ duration, element = .pause duration ↔ segments = [.pause duration]
  text : (∀ duration, segments ≠ [.pause duration]) → element = .text segments
  directive : ∀ duration, element = .pause duration →
    ∃ modifier, PauseDirective modifier line.toList ∧ pauseLength modifier = duration

lemma Builtin.elementOfLine (line : String) :
    ElementOfLine line (Parser.builtin.parseInline line).1
      (Registry.builtin.commandSet.proseElement line.toList) := by
  have hsegments : (Parser.builtin.parseInline line).1 =
      scanSegments inlineCommands line.toList := rfl
  rw [hsegments]
  obtain ⟨duration, hscan, helement⟩ | ⟨hscan, helement⟩ := proseElement_builtin line.toList
  · rw [helement, hscan]
    refine ⟨fun other => by simp, fun hne => absurd rfl (hne duration), ?_⟩
    rintro other ⟨⟩
    exact scanSegments_eq_pause_iff.1 hscan
  · rw [helement]
    refine ⟨fun duration => ?_, fun _ => rfl, nofun⟩
    exact iff_of_false nofun (hscan duration)

/-- Lines of prose give one element each, blank lines aside. It is a pause exactly when the line
decodes to that pause and nothing else, and the line is a directive then; otherwise it is a text of
the segments that the line decodes to. -/
theorem parseLines_by_segments (lines : List String) :
    List.Forall₂
        (fun line element =>
          Builtin.ElementOfLine line (Parser.builtin.parseInline line).1 element)
        (trimmedLines lines) (Parser.builtin.parseLines lines).1 ∧
      ∀ duration, .text [.pause duration] ∉ (Parser.builtin.parseLines lines).1 := by
  have hread : (Parser.builtin.parseLines lines).1 = (trimmedLines lines).map fun line =>
      Registry.builtin.commandSet.proseElement line.toList := by
    have hlines : (Parser.builtin.parseLines lines).1 =
        Registry.builtin.commandSet.proseElements (lines.map String.toList) := rfl
    rw [hlines, CommandSet.proseElements_eq_map, Text.solidLines, trimmedLines, List.filter_map,
      List.map_map, List.map_map]
    simp only [Function.comp_def, String.toList_ofList]
  rw [hread]
  refine ⟨?_, ?_⟩
  · rw [List.forall₂_map_right_iff, List.forall₂_same]
    intro line _
    exact Builtin.elementOfLine line
  · intro duration hmem
    obtain ⟨line, -, htext⟩ := List.mem_map.1 hmem
    have helement := Builtin.elementOfLine line
    rw [htext] at helement
    have hno : ∀ other, (Parser.builtin.parseInline line).1 ≠ [.pause other] :=
      fun other h => Element.noConfusion ((helement.pause_iff other).2 h)
    exact hno duration (Element.text.inj (helement.text hno)).symm

end LessonScript
