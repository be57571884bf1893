import LessonScript.Inline
import Mathlib.Data.List.FinRange
import Mathlib.Tactic.Common

/-!
# The pieces of a line

A scan parts a line into pieces: the matches that are kept, and the stretches of raw text before,
between and behind them. A match that is not kept starts within a kept one that comes before it.
-/

namespace LessonScript

namespace InOrder

variable {text : List Char} {offset : Nat} {ms : List Occurrence}

lemma le_start (h : InOrder text offset ms) : ∀ m ∈ ms, offset ≤ m.start := by
  induction ms generalizing offset with
  | nil => simp
  | cons m ms ih =>
    obtain ⟨hle, -, hms⟩ := h
    intro n hn
    rcases List.mem_cons.1 hn with rfl | hn
    · exact hle
    · have hstop : m.start ≤ m.stop := Nat.le_add_right ..
      exact (hle.trans hstop).trans (ih hms n hn)

lemma pairwise (h : InOrder text offset ms) : ms.Pairwise fun m n => m.stop ≤ n.start := by
  induction ms generalizing offset with
  | nil => exact .nil
  | cons m ms ih => exact List.pairwise_cons.2 ⟨h.2.2.le_start, ih h.2.2⟩

lemma covered_at (h : InOrder text offset ms) : ∀ m ∈ ms, m.covered <+: text.drop m.start := by
  induction ms generalizing offset with
  | nil => simp
  | cons m ms ih => exact List.forall_mem_cons.2 ⟨h.2.1, ih h.2.2⟩

end InOrder

/-- A stable sort keeps the order of those that are equal in rank. -/
lemma pairwise_mergeSort_of_pairwise {α : Type} {r : α → α → Prop} (le : α → α → Bool)
    (htrans : ∀ a b c, le a b = true → le b c = true → le a c = true)
    (htotal : ∀ a b, (le a b || le b a) = true) {xs : List α} (hr : xs.Pairwise r) :
    (xs.mergeSort le).Pairwise fun a b => le a b = true ∧ (le b a = true → r a b) := by
  induction xs with
  | nil => simp
  | cons x xs ih =>
    obtain ⟨hx, hxs⟩ := List.pairwise_cons.1 hr
    obtain ⟨above, below, hcons, htail, habove⟩ := List.mergeSort_cons htrans htotal x xs
    have hsorted := List.pairwise_mergeSort htrans htotal (x :: xs)
    have hih := ih hxs
    rw [hcons] at hsorted ⊢
    rw [htail] at hih
    obtain ⟨hia, hib, hab⟩ := List.pairwise_append.1 hih
    obtain ⟨hsa, hsb, hsab⟩ := List.pairwise_append.1 hsorted
    refine List.pairwise_append.2 ⟨hia, List.pairwise_cons.2 ⟨?_, hib⟩, ?_⟩
    · intro b hb
      have hmem : b ∈ xs := by
        rw [← (List.mergeSort_perm xs le).mem_iff, htail]
        exact List.mem_append_right above hb
      exact ⟨(List.pairwise_cons.1 hsb).1 b hb, fun _ => hx b hmem⟩
    · intro a ha b hb
      rcases List.mem_cons.1 hb with rfl | hb
      · refine ⟨hsab a ha b List.mem_cons_self, fun h => ?_⟩
        have := habove a ha
        simp [h] at this
      · exact hab a ha b hb

/-- An occurrence of a command's pattern, with the place of the command in the list. -/
structure Match (commands : List InlineCommand) where
  place : Fin commands.length
  occurrence : Occurrence

variable {commands : List InlineCommand} {line : List Char}

namespace Match

def start (m : Match commands) : Nat := m.occurrence.start

def stop (m : Match commands) : Nat := m.occurrence.stop

def candidate (m : Match commands) : Candidate := ⟨commands[m.place], m.occurrence⟩

/-- The matches of all commands, command by command. -/
def all (commands : List InlineCommand) (line : List Char) : List (Match commands) :=
  (List.finRange commands.length).flatMap fun place =>
    (commands[place].pattern.find line).map (⟨place, ·⟩)

/-- A match takes the place of another that starts within it: it starts earlier, or it starts at
the same offset and its command comes first. -/
def Shadows (k d : Match commands) : Prop :=
  d.start < k.stop ∧ (k.start < d.start ∨ k.start = d.start ∧ k.place < d.place)

def Precedes (a b : Match commands) : Prop :=
  a.place < b.place ∨ a.place = b.place ∧ a.stop ≤ b.start

lemma map_candidate_all (commands : List InlineCommand) (line : List Char) :
    (all commands line).map candidate =
      commands.flatMap fun command => (command.pattern.find line).map (⟨command, ·⟩) := by
  have hget : (List.finRange commands.length).map (commands[·]) = commands :=
    List.map_get_finRange commands
  conv_rhs => rw [← hget]
  simp only [all, List.map_flatMap, List.flatMap_map, List.map_map]
  rfl

lemma pairwise_precedes_all (commands : List InlineCommand) (line : List Char) :
    (all commands line).Pairwise Precedes := by
  refine List.pairwise_flatMap.2 ⟨?_, ?_⟩
  · intro place _
    refine List.pairwise_map.2 ((commands[place].pattern.inOrder line).pairwise.imp ?_)
    intro m n h
    exact .inr ⟨rfl, h⟩
  · refine (List.pairwise_lt_finRange _).imp ?_
    intro i j hij a ha b hb
    obtain ⟨m, -, rfl⟩ := List.mem_map.1 ha
    obtain ⟨n, -, rfl⟩ := List.mem_map.1 hb
    exact .inl hij

lemma covered_at {m : Match commands} (hm : m ∈ all commands line) :
    m.occurrence.covered <+: line.drop m.start := by
  obtain ⟨place, -, hm⟩ := List.mem_flatMap.1 hm
  obtain ⟨n, hn, rfl⟩ := List.mem_map.1 hm
  exact (commands[place].pattern.inOrder line).covered_at n hn

/-- The matches in the order of the scan. -/
def sorted (commands : List InlineCommand) (line : List Char) : List (Match commands) :=
  (all commands line).mergeSort fun a b => a.start ≤ b.start

/-- The order of the scan: by start, and then as found. -/
def Before (a b : Match commands) : Prop :=
  a.start ≤ b.start ∧ (b.start ≤ a.start → Precedes a b)

lemma map_candidate_sorted (commands : List InlineCommand) (line : List Char) :
    (sorted commands line).map candidate = candidates commands line := by
  have hsort := List.map_mergeSort (l := all commands line) (f := candidate)
    (r := fun a b => a.start ≤ b.start) (s := fun a b => a.occurrence.start ≤ b.occurrence.start)
    fun _ _ _ _ => rfl
  rw [sorted, hsort, map_candidate_all]
  rfl

lemma pairwise_before_sorted (commands : List InlineCommand) (line : List Char) :
    (sorted commands line).Pairwise Before := by
  have h := pairwise_mergeSort_of_pairwise (fun a b : Match commands => a.start ≤ b.start)
    (by simpa using fun a b c => Nat.le_trans) (by simpa using fun a b => Nat.le_total _ _)
    (pairwise_precedes_all commands line)
  refine h.imp fun hab => ?_
  simpa [Before] using hab

/-- A match that starts within one before it in the scan is shadowed by it. -/
lemma Before.shadows {k d : Match commands} (h : Before k d) (hd : d.start < k.stop) :
    k.Shadows d := by
  refine ⟨hd, ?_⟩
  rcases Nat.lt_or_ge k.start d.start with hlt | hge
  · exact .inl hlt
  · refine .inr ⟨Nat.le_antisymm h.1 hge, ?_⟩
    rcases h.2 hge with hp | ⟨-, hp⟩
    · exact hp
    · exact absurd hd (Nat.not_lt.2 hp)

/-- What a scan keeps stands in order from the offset on, and what it drops starts before the
offset or within a kept match. -/
lemma exists_keepDisjoint {ms : List (Match commands)} (hms : ms.Pairwise Before)
    (hline : ∀ m ∈ ms, m.occurrence.covered <+: line.drop m.start) (offset : Nat) :
    ∃ kept dropped : List (Match commands),
      keepDisjoint offset (ms.map candidate) = kept.map candidate ∧
      (kept ++ dropped).Perm ms ∧ InOrder line offset (kept.map occurrence) ∧
      ∀ d ∈ dropped, d.start < offset ∨ ∃ k ∈ kept, k.Shadows d := by
  -- The offset moves behind every match that is kept, so a match dropped later on either starts
  -- within this one or falls to one kept behind it.
  induction ms generalizing offset with
  | nil => exact ⟨[], [], rfl, .refl [], trivial, by simp⟩
  | cons m ms ih =>
    obtain ⟨hm, hms⟩ := List.pairwise_cons.1 hms
    obtain ⟨hcovered, hline⟩ := List.forall_mem_cons.1 hline
    by_cases hlt : m.start < offset
    · obtain ⟨kept, dropped, hkeep, hperm, horder, hdropped⟩ := ih hms hline offset
      refine ⟨kept, m :: dropped, ?_, ?_, horder, ?_⟩
      · exact (if_pos hlt).trans hkeep
      · exact List.perm_middle.trans (hperm.cons m)
      · exact List.forall_mem_cons.2 ⟨.inl hlt, hdropped⟩
    · obtain ⟨kept, dropped, hkeep, hperm, horder, hdropped⟩ := ih hms hline m.stop
      refine ⟨m :: kept, dropped, ?_, hperm.cons m, ⟨Nat.le_of_not_lt hlt, hcovered, horder⟩, ?_⟩
      · exact (if_neg hlt).trans (congrArg (m.candidate :: ·) hkeep)
      · intro d hd
        right
        rcases hdropped d hd with hin | ⟨k, hk, hs⟩
        · have hbefore := hm d (hperm.mem_iff.1 (List.mem_append_right kept hd))
          exact ⟨m, List.mem_cons_self, hbefore.shadows hin⟩
        · exact ⟨k, List.mem_cons_of_mem m hk, hs⟩

end Match

/-- A piece of a line: raw text, or a match that is decoded. -/
inductive Piece (commands : List InlineCommand) where
  | raw (text : List Char)
  | decoded (m : Match commands)

namespace Piece

def segment : Piece commands → Segment
  | raw text => .raw (String.ofList text)
  | decoded m => commands[m.place].decode m.occurrence.capture

def source : Piece commands → List Char
  | raw text => text
  | decoded m => m.occurrence.covered

/-- The raw text of a line between two offsets, if there is any. -/
def stretch (line : List Char) (a b : Nat) : List (Piece commands) :=
  let text := (line.drop a).take (b - a)
  if text = [] then [] else [raw text]

/-- The pieces of a line from an offset on, given the matches kept in it. -/
def around (line : List Char) : Nat → List (Match commands) → List (Piece commands)
  | offset, [] => stretch line offset line.length
  | offset, m :: kept =>
    stretch line offset m.start ++ decoded m :: around line m.stop kept

lemma map_segment_stretch (line : List Char) (a b : Nat) :
    (stretch line a b : List (Piece commands)).map segment =
      rawSegments ((line.drop a).take (b - a)) := by
  unfold stretch rawSegments
  cases (line.drop a).take (b - a) <;> rfl

lemma flatMap_source_stretch (line : List Char) (a b : Nat) :
    (stretch line a b : List (Piece commands)).flatMap source = (line.drop a).take (b - a) := by
  unfold stretch
  cases (line.drop a).take (b - a) <;> simp [source]

lemma ne_nil_of_raw_mem_stretch {text : List Char} {a b : Nat}
    (h : (raw text : Piece commands) ∈ stretch line a b) : text ≠ [] := by
  simp only [stretch] at h
  split at h
  · cases h
  · rename_i hne
    cases List.mem_singleton.1 h
    exact hne

lemma ne_nil_of_raw_mem_around {text : List Char} {kept : List (Match commands)} {offset : Nat}
    (h : raw text ∈ around line offset kept) : text ≠ [] := by
  induction kept generalizing offset with
  | nil => exact ne_nil_of_raw_mem_stretch h
  | cons m kept ih =>
    rcases List.mem_append.1 h with h | h
    · exact ne_nil_of_raw_mem_stretch h
    · rcases List.mem_cons.1 h with h | h
      · cases h
      · exact ih h

lemma map_segment_around {kept : List (Match commands)} {offset : Nat}
    (h : InOrder line offset (kept.map Match.occurrence)) :
    (around line offset kept).map segment =
      assemble offset (line.drop offset) (kept.map Match.candidate) := by
  induction kept generalizing offset with
  | nil =>
    rw [around, map_segment_stretch, List.take_of_length_le (by simp)]
    rfl
  | cons m kept ih =>
    obtain ⟨hle, -, hkept⟩ := h
    have hbelow : (around line m.stop kept).map segment =
        assemble m.stop (line.drop m.stop) (kept.map Match.candidate) := ih hkept
    have hrest : (line.drop offset).drop (m.start - offset + m.occurrence.covered.length) =
        line.drop m.stop := by
      rw [List.drop_drop]
      congr 1
      simp only [Match.start, Match.stop, Occurrence.stop]
      omega
    rw [around, List.map_append, List.map_cons, map_segment_stretch, hbelow, ← hrest]
    rfl

lemma flatMap_source_around {kept : List (Match commands)} {offset : Nat}
    (h : InOrder line offset (kept.map Match.occurrence)) :
    (around line offset kept).flatMap source = line.drop offset := by
  induction kept generalizing offset with
  | nil =>
    rw [around, flatMap_source_stretch, List.take_of_length_le (by simp)]
  | cons m kept ih =>
    obtain ⟨hle, hcovered, hkept⟩ := h
    have hbelow : (around line m.stop kept).flatMap source = line.drop m.stop := ih hkept
    have hmatch : m.occurrence.covered ++ line.drop m.stop = line.drop m.start := by
      obtain ⟨rest, hrest⟩ := hcovered
      have hstop : line.drop m.stop = rest := by
        rw [Match.stop, Occurrence.stop, ← List.drop_drop, ← hrest, List.drop_left]
      rw [hstop]
      exact hrest
    have hbefore : line.drop m.start = (line.drop offset).drop (m.start - offset) := by
      rw [List.drop_drop]
      congr 1
      exact (Nat.add_sub_cancel' hle).symm
    rw [around, List.flatMap_append, List.flatMap_cons, flatMap_source_stretch, hbelow, source,
      hmatch, hbefore, List.take_append_drop]

lemma around_eq_nil_iff {kept : List (Match commands)} :
    around line 0 kept = [] ↔ line = [] ∧ kept = [] := by
  cases kept with
  | nil => simp [around, stretch]
  | cons m kept => simp [around]

/-- The pieces of a line: those around its kept matches, and one raw piece for a line without
any. -/
def ofLine (line : List Char) (kept : List (Match commands)) : List (Piece commands) :=
  if line = [] ∧ kept = [] then [raw []] else around line 0 kept

lemma flatMap_source_ofLine {kept : List (Match commands)}
    (h : InOrder line 0 (kept.map Match.occurrence)) :
    (ofLine line kept).flatMap source = line := by
  unfold ofLine
  split
  · rename_i hnil
    rw [hnil.1]
    rfl
  · exact flatMap_source_around h

lemma eq_nil_of_raw_nil_mem_ofLine {kept : List (Match commands)}
    (h : raw [] ∈ ofLine line kept) : line = [] := by
  unfold ofLine at h
  split at h
  · rename_i hnil
    exact hnil.1
  · exact absurd rfl (ne_nil_of_raw_mem_around h)

lemma scanSegments_eq {kept : List (Match commands)}
    (hkeep : keepDisjoint 0 (candidates commands line) = kept.map Match.candidate)
    (h : InOrder line 0 (kept.map Match.occurrence)) :
    scanSegments commands line = (ofLine line kept).map segment := by
  have hpieces := map_segment_around h
  rw [List.drop_zero] at hpieces
  rw [scanSegments, hkeep, ← hpieces, ofLine]
  split
  · rename_i hnil
    have hboth := around_eq_nil_iff.1 (List.map_eq_nil_iff.1 hnil)
    rw [if_pos hboth, hboth.1]
    rfl
  · rename_i hne
    rw [if_neg fun hboth => hne (List.map_eq_nil_iff.2 (around_eq_nil_iff.2 hboth))]

end Piece

/-- A scan decodes the matches that it keeps, in order and apart from each other, and leaves every
stretch of text around them raw, so that no text is lost. Every other match starts within a kept
one that starts earlier, or at the same offset with an earlier command. -/
theorem scanSegments_partition (commands : List InlineCommand) (line : List Char) :
    ∃ kept dropped : List (Match commands),
      (kept ++ dropped).Perm (Match.all commands line) ∧
      kept.IsChain (fun m n => m.stop ≤ n.start) ∧
      (∀ d ∈ dropped, ∃ k ∈ kept, k.Shadows d) ∧
      scanSegments commands line = (Piece.ofLine line kept).map Piece.segment ∧
      (Piece.ofLine line kept).flatMap Piece.source = line ∧
      scanSegments commands line ≠ [] ∧
      (Piece.raw [] ∈ Piece.ofLine line kept → line = []) := by
  have hcovered : ∀ m ∈ Match.sorted commands line, m.occurrence.covered <+: line.drop m.start := by
    intro m hm
    exact Match.covered_at (List.mem_mergeSort.1 hm)
  obtain ⟨kept, dropped, hkeep, hperm, horder, hdropped⟩ :=
    Match.exists_keepDisjoint (Match.pairwise_before_sorted commands line) hcovered 0
  rw [Match.map_candidate_sorted] at hkeep
  refine ⟨kept, dropped, hperm.trans (List.mergeSort_perm ..), ?_, ?_,
    Piece.scanSegments_eq hkeep horder, Piece.flatMap_source_ofLine horder,
    scanSegments_ne_nil commands line, Piece.eq_nil_of_raw_nil_mem_ofLine⟩
  · exact (List.pairwise_map.1 horder.pairwise).isChain
  · intro d hd
    exact (hdropped d hd).resolve_left (Nat.not_lt_zero _)

end LessonScript
