import LessonScript.Proofs.Inline.Pauses
import LessonScript.Proofs.Timeline

/-!
# Two ways to write a delay

A pause directive can stand in front of a text on its line or on a line of its own above it. The two
scripts have one element more or less, and their timelines show the same at the same times.
-/

namespace LessonScript

open Text (Line)

/-! ## One element in the place of two -/

/-- The same entry one place further on. -/
def Entry.shifted (entry : Entry) : Entry := { entry with index := entry.index + 1 }

namespace Timeline

lemma entriesFrom_succ (timing : Timing) (index : Nat) (due offset : Millis)
    (elements : List Element) :
    entriesFrom timing (index + 1) due offset elements =
      (entriesFrom timing index due offset elements).map Entry.shifted := by
  induction elements generalizing index due offset with
  | nil => rfl
  | cons element rest ih =>
    obtain ⟨duration, rfl⟩ | h := pause_or_shown element
    · exact ih ..
    · rw [entriesFrom_shown _ _ _ _ h, entriesFrom_shown _ _ _ _ h, ih, List.map_cons]
      rfl

/-- The elements above leave their mark on those below by a wait and an offset only. -/
lemma exists_entriesFrom_append (timing : Timing) (index : Nat) (due offset : Millis)
    (above : List Element) :
    ∃ due' offset' : Millis, ∀ below,
      entriesFrom timing index due offset (above ++ below) =
        entriesFrom timing index due offset above ++
          entriesFrom timing (index + above.length) due' offset' below := by
  induction above generalizing index due offset with
  | nil => exact ⟨due, offset, fun _ => rfl⟩
  | cons element rest ih =>
    have hlength : index + (element :: rest).length = index + 1 + rest.length := by
      rw [List.length_cons]
      omega
    obtain ⟨duration, rfl⟩ | h := pause_or_shown element
    · obtain ⟨due', offset', hbelow⟩ := ih (index + 1) (due + duration) offset
      refine ⟨due', offset', fun below => ?_⟩
      rw [List.cons_append, entriesFrom_pause, entriesFrom_pause, hbelow, hlength]
    · obtain ⟨due', offset', hbelow⟩ := ih (index + 1) (timing.gapAfter element)
        (offset + (due + element.leadingPause))
      refine ⟨due', offset', fun below => ?_⟩
      rw [List.cons_append, entriesFrom_shown _ _ _ _ h, entriesFrom_shown _ _ _ _ h, hbelow,
        hlength, List.cons_append]

lemma length_build (timing : Timing) (elements : List Element) :
    (build timing elements).length = (elements.filter (!·.isPause)).length := by
  rw [← map_element_build timing, List.length_map]

/-- Two timelines that show the same number of things at the same times, with places that are one
higher in the second from some entry on. That entry stands for the element at place `place` of the
first. -/
structure SameTimes (shown place : Nat) (first second : Timeline) : Prop where
  length_eq : first.length = second.length
  waits : first.map (·.wait) = second.map (·.wait)
  offsets : first.map (·.offset) = second.map (·.offset)
  places : second.map (·.index) =
    (first.take shown).map (·.index) ++ (first.drop shown).map (·.index + 1)
  place_eq : (first[shown]?).map (·.index) = some place

lemma leadingPause_text {segments : List Segment}
    (h : ∀ duration, segments.head? ≠ some (.pause duration)) :
    (Element.text segments).leadingPause = 0 := by
  cases segments with
  | nil => rfl
  | cons segment rest =>
    cases segment with
    | pause duration => exact absurd rfl (h duration)
    | raw | ego | bold | directive => rfl

/-- An element that opens with a pause gives way to the pause and an element that opens with none
but leaves the same gap. -/
lemma sameTimes_of_pause (timing : Timing) (held plain : Element) (hheld : held.isPause = false)
    (hplain : plain.isPause = false) (hopen : plain.leadingPause = 0)
    (hgap : timing.gapAfter plain = timing.gapAfter held) (before after : List Element) :
    SameTimes (before.filter (!·.isPause)).length before.length
      (build timing (before ++ held :: after))
      (build timing (before ++ .pause held.leadingPause :: plain :: after)) := by
  obtain ⟨due, offset, hbelow⟩ := exists_entriesFrom_append timing 0 0 0 before
  -- Both ways the pause is added to what has come up above, so a sum that stops at the longest
  -- duration stops for both.
  have hwait : due + held.leadingPause + plain.leadingPause = due + held.leadingPause := by
    have hle := (due + held.leadingPause).count_le_limit
    apply Millis.ext
    rw [hopen, Millis.count_add]
    show min ((due + held.leadingPause).count + 0) _ = _
    omega
  have hfirst : build timing (before ++ held :: after) = build timing before ++
      ⟨before.length, held, due + held.leadingPause, offset + (due + held.leadingPause),
          timing.durationOf held⟩ ::
        entriesFrom timing (before.length + 1) (timing.gapAfter held)
          (offset + (due + held.leadingPause)) after := by
    rw [build, hbelow, entriesFrom_shown _ _ _ _ hheld, Nat.zero_add]
    rfl
  have hsecond : build timing (before ++ .pause held.leadingPause :: plain :: after) =
      build timing before ++
        ⟨before.length + 1, plain, due + held.leadingPause, offset + (due + held.leadingPause),
            timing.durationOf plain⟩ ::
          (entriesFrom timing (before.length + 1) (timing.gapAfter held)
            (offset + (due + held.leadingPause)) after).map Entry.shifted := by
    rw [build, hbelow, entriesFrom_pause, entriesFrom_shown _ _ _ _ hplain, hwait, hgap,
      entriesFrom_succ, Nat.zero_add]
    rfl
  rw [hfirst, hsecond, ← length_build timing before]
  constructor
  · simp
  · simp [Entry.shifted]
  · simp [Entry.shifted]
  · simp [Entry.shifted, Function.comp_def]
  · simp

end Timeline

/-! ## A directive in front of a text and above it -/

namespace Builtin

variable {modifier : Option (List Char)} {directive text : Line}

/-- A directive neither opens nor ends with white space. -/
lemma PauseDirective.trim_append (h : PauseDirective modifier directive) (text : Line) :
    Text.trim (directive ++ text) = directive ++ Text.trimEnd text := by
  have hstart : Text.trimStart (directive ++ text) = directive ++ text := by
    cases h <;> rfl
  have hend : Text.trimEnd directive = directive := by
    cases h with
    | plain => decide
    | modified hne hword =>
      rw [Text.trimEnd_eq]
      exact List.rdropWhile_concat_neg _ _ _ (by decide)
  rw [Text.trim, hstart, Text.trimEnd_append hend]

lemma PauseDirective.allBlank_append (h : PauseDirective modifier directive) (text : Line) :
    Text.allBlank (directive ++ text) = false := by
  rw [Bool.eq_false_iff, Ne, ← Text.trim_eq_nil_iff, h.trim_append]
  simp [h.ne_nil]

lemma proseElements_joined (h : PauseDirective modifier directive)
    (hsolid : Text.allBlank text = false) :
    Registry.builtin.commandSet.proseElements [directive ++ text] =
      [.text (.pause (pauseLength modifier) ::
        scanSegments inlineCommands (Text.trimEnd text))] := by
  have hrest : Text.trimEnd text ≠ [] := by
    rw [Ne, Text.trimEnd_eq_nil_iff, hsolid]
    exact Bool.false_ne_true
  have hscan := scanSegments_directive h (Text.trimEnd text)
  rw [if_neg hrest] at hscan
  rw [CommandSet.proseElements_cons_of_solid _ (h.allBlank_append text), h.trim_append]
  obtain ⟨duration, hpause, -⟩ | ⟨-, helement⟩ :=
    proseElement_builtin (directive ++ Text.trimEnd text)
  · rw [hscan, List.cons.injEq] at hpause
    exact absurd hpause.2 (scanSegments_ne_nil _ _)
  · rw [helement, hscan]
    rfl

lemma proseElements_apart (h : PauseDirective modifier directive)
    (hsolid : Text.allBlank text = false)
    (hopen : ∀ duration, (scanSegments inlineCommands (Text.trim text)).head? ≠
      some (.pause duration)) :
    Registry.builtin.commandSet.proseElements [directive, text] =
      [.pause (pauseLength modifier), .text (scanSegments inlineCommands (Text.trim text))] := by
  have hdirective : Registry.builtin.commandSet.proseElement directive =
      .pause (pauseLength modifier) := by
    rw [CommandSet.proseElement, standalonePause?_directive h]
  have htext : Registry.builtin.commandSet.proseElement (Text.trim text) =
      .text (scanSegments inlineCommands (Text.trim text)) := by
    obtain ⟨duration, hpause, -⟩ | ⟨-, helement⟩ := proseElement_builtin (Text.trim text)
    · rw [hpause] at hopen
      exact absurd rfl (hopen duration)
    · exact helement
  have halone : Text.trim directive = directive ∧ Text.allBlank directive = false := by
    rw [← List.append_nil directive]
    exact ⟨h.trim_append [], h.allBlank_append []⟩
  rw [CommandSet.proseElements_cons_of_solid _ halone.2, halone.1, hdirective,
    CommandSet.proseElements_cons_of_solid _ hsolid, htext]
  rfl

end Builtin

/-- A pause directive delays a text just as much in front of it as on a line of its own above it,
whatever stands before and after and however pauses and gaps add up. -/
theorem Timeline.sameTimes_of_directive {modifier : Option (List Char)} {directive text : String}
    (hdirective : Builtin.PauseDirective modifier directive.toList)
    (hsolid : Text.allBlank text.toList = false)
    (hopen : ∀ duration,
      (Parser.builtin.parseInline (String.ofList (Text.trim text.toList))).1.head? ≠
        some (.pause duration))
    (timing : Timing) (before after : List Element) :
    SameTimes (before.filter (!·.isPause)).length before.length
      (build timing (before ++ (Parser.builtin.parseLines [directive ++ text]).1 ++ after))
      (build timing (before ++ (Parser.builtin.parseLines [directive, text]).1 ++ after)) := by
  have hjoined : (Parser.builtin.parseLines [directive ++ text]).1 =
      [.text (.pause (Builtin.pauseLength modifier) ::
        scanSegments Builtin.inlineCommands (Text.trimEnd text.toList))] := by
    rw [← Builtin.proseElements_joined hdirective hsolid, ← String.toList_append]
    rfl
  have hopen : ∀ duration,
      (scanSegments Builtin.inlineCommands (Text.trim text.toList)).head? ≠
        some (.pause duration) := by
    rw [← String.toList_ofList (l := Text.trim text.toList)]
    exact hopen
  have hapart : (Parser.builtin.parseLines [directive, text]).1 =
      [.pause (Builtin.pauseLength modifier),
        .text (scanSegments Builtin.inlineCommands (Text.trim text.toList))] :=
    Builtin.proseElements_apart hdirective hsolid hopen
  rw [hjoined, hapart, List.append_assoc, List.append_assoc]
  exact sameTimes_of_pause timing (.text (.pause _ :: _)) (.text _) rfl rfl
    (leadingPause_text hopen) rfl before after

/-- The text has a pause further on and white space at both ends. -/
theorem Timeline.sameTimes_of_long_pause :
    let text := " Now [pause]look. "
    let before := [.pause (.ofNat Millis.limit), .closing []]
    let after := [.pause 5, .title none none]
    Builtin.PauseDirective (some "long".toList) "[pause:long]".toList ∧
      Text.allBlank text.toList = false ∧
      (∀ duration, (Parser.builtin.parseInline (String.ofList (Text.trim text.toList))).1.head? ≠
        some (.pause duration)) ∧
      SameTimes (before.filter (!·.isPause)).length before.length
        (build {} (before ++ (Parser.builtin.parseLines ["[pause:long]" ++ text]).1 ++ after))
        (build {} (before ++ (Parser.builtin.parseLines ["[pause:long]", text]).1 ++ after)) := by
  intro text before after
  have hword : ∀ c ∈ "long".toList, isWordChar c = true := List.all_eq_true.1 (by decide)
  have hdirective : Builtin.PauseDirective (some "long".toList) "[pause:long]".toList :=
    .modified (by decide) hword
  have hsolid : Text.allBlank text.toList = false := by decide
  have hhead : (Parser.builtin.parseInline (String.ofList (Text.trim text.toList))).1.head? =
      some (.raw "Now ") := by
    decide +kernel
  have hopen : ∀ duration,
      (Parser.builtin.parseInline (String.ofList (Text.trim text.toList))).1.head? ≠
        some (.pause duration) := by
    rw [hhead]
    simp
  exact ⟨hdirective, hsolid, hopen,
    sameTimes_of_directive hdirective hsolid hopen {} before after⟩

end LessonScript
