import LessonScript.Proofs.Playback.Conduct

/-!
# Every entry once and in order

However many plays there are and however they are stopped, paused and taken over, what they
deliver together from one rewind to the next are the entries of the timeline from the first one
on, each once: the cursor counts them.
-/

namespace LessonScript
namespace History

variable {timing : Timing} {h : History} {e : Event}

/-- The entry that has been delivered and that the cursor has not left behind. -/
def ahead (h : History) : List Entry :=
  match answering? h with
  | some (n, entry) => if takenOver n h then [] else [entry]
  | none => []

/-- What has been delivered since the last rewind are the entries before the cursor and those
ahead of it; after a skip there is nothing left to deliver. -/
def Told (timing : Timing) (h : History) (ahead : List Entry) : Prop :=
  match lastRewind? h with
  | some (.skip _) => (player timing h).cursor = (player timing h).timeline.length ∧
      deliveries (sinceRewind h) = [] ∧ ahead = []
  | _ => (deliveries (sinceRewind h)).map Prod.fst =
      (player timing h).timeline.take (player timing h).cursor ++ ahead

lemma ahead_of_answering_none (ha : answering? h = none) : ahead h = [] := by
  rw [ahead, ha]

lemma Told.cons {rest : List Entry} (ht : Told timing h rest) (hr : e.rewind? = none)
    (hd : e.delivery? = none) (hc : (e.apply (player timing h)).cursor = (player timing h).cursor)
    (htl : (e.apply (player timing h)).timeline = (player timing h).timeline) :
    Told timing (e :: h) rest := by
  have hl : lastRewind? (e :: h) = lastRewind? h := by simp [lastRewind?, hr]
  have hs : deliveries (sinceRewind (e :: h)) = deliveries (sinceRewind h) := by
    simp [sinceRewind, deliveries, hr, hd]
  rw [Told] at ht ⊢
  rw [hl, hs, player_cons, hc, htl]
  exact ht

lemma Told.rewind {c : Control} (hc : c.rewinds = true) (t : Nat) :
    Told timing (.controlled c t :: h) [] := by
  have hs : sinceRewind (.controlled c t :: h) = [] := by simp [sinceRewind, Event.rewind?, hc]
  have hl : lastRewind? (.controlled c t :: h) = some c := by
    simp [lastRewind?, Event.rewind?, hc]
  rw [Told, hl, hs]
  cases c with
  | load | reset => simp [deliveries, Event.apply, Control.apply, Player.load, Player.reset,
      Player.supersede]
  | skip => exact ⟨rfl, rfl, rfl⟩
  | pause | resume | stop => cases hc

lemma Told.shown {entry : Entry} (ht : Told timing h [])
    (he : (player timing h).timeline[(player timing h).cursor]? = some entry) (n t : Nat) :
    Told timing (.shown (.play n) entry t :: h) [entry] := by
  have hl : lastRewind? (.shown (.play n) entry t :: h) = lastRewind? h := rfl
  have hs : deliveries (sinceRewind (.shown (.play n) entry t :: h)) =
      deliveries (sinceRewind h) ++ [(entry, t)] := by
    simp [sinceRewind, deliveries, Event.rewind?, Event.delivery?]
  rw [Told] at ht ⊢
  rw [hl, hs, player_cons]
  split at ht
  · obtain ⟨hlt, -⟩ := List.getElem?_eq_some_iff.1 he
    exact absurd ht.1 (Nat.ne_of_lt hlt)
  · rw [List.map_append, ht, List.append_nil]
    rfl

/-- Once the cursor has left it behind, the entry ahead is one of those before the cursor. -/
lemma Told.moved {entry : Entry} (ht : Told timing h [entry])
    (he : (player timing h).timeline[(player timing h).cursor]? = some entry) (n t : Nat) :
    Told timing (.moved n ((player timing h).cursor + 1) t :: h) [] := by
  have hl : lastRewind? (.moved n ((player timing h).cursor + 1) t :: h) = lastRewind? h := rfl
  have hs : deliveries (sinceRewind (.moved n ((player timing h).cursor + 1) t :: h)) =
      deliveries (sinceRewind h) := rfl
  rw [Told] at ht ⊢
  rw [hl, hs, player_cons]
  split at ht
  · exact absurd ht.2.2 (List.cons_ne_nil _ _)
  · obtain ⟨hlt, rfl⟩ := List.getElem?_eq_some_iff.1 he
    rw [ht, List.append_nil]
    exact (List.take_succ_eq_append_getElem hlt).symm

/-- The rules of playback tell every entry once and in order. -/
theorem Lawful.told (hl : Lawful timing h) : Told timing h (ahead h) := by
  induction hl with
  | nil => simp [Told, lastRewind?, sinceRewind, deliveries, ahead, answering?, Player.idle]
  | @cons h e hl hf ih =>
    cases hf with
    | controlled c t =>
      by_cases hc : c.rewinds = true
      · have ha : ahead (.controlled c t :: h) = [] := by
          simp only [ahead, answering?]
          split
          · rw [takenOver_cons rfl]
            simp [Event.takesOver, hc]
          · rfl
        rw [ha]
        exact .rewind hc t
      · rw [Bool.not_eq_true] at hc
        have ha : ahead (.controlled c t :: h) = ahead h := by
          simp only [ahead, answering?]
          split
          · rw [takenOver_cons rfl]
            simp [Event.takesOver, hc]
          · rfl
        rw [ha]
        exact ih.cons (by simp [Event.rewind?, hc]) rfl
          (Event.cursor_apply (by simp [Event.rewind?, hc]) (by simp) _)
          (Event.timeline_apply (by simp [Event.rewind?, hc]) _)
    | skipping entry t => exact ih.cons rfl rfl rfl rfl
    | skipped t => exact ih.cons rfl rfl rfl rfl
    | began t ha =>
      rw [ahead_of_answering_none ha] at ih
      exact ih.cons rfl rfl rfl rfl
    | shown n entry t hr ha ht hs he =>
      rw [ahead_of_answering_none ha] at ih
      have hahead : ahead (.shown (.play n) entry t :: h) = [entry] := by
        simp only [ahead, answering?]
        rw [takenOver_cons rfl, ht]
        rfl
      rw [hahead]
      exact ih.shown he n t
    | moved n entry t ha ht =>
      rw [ahead, ha] at ih
      simp only [ht] at ih
      exact ih.moved (hl.entry_of_answering ha ht) n t
    | ended n t hr ha =>
      have hahead : ahead h = [] := by
        rw [ahead]
        split
        case h_1 m entry hans =>
          obtain ⟨rfl, ht⟩ := ha _ hans
          exact if_pos ht
        case h_2 => rfl
      rw [hahead] at ih
      cases hv : verdict n h with
      | _ => exact ih.cons rfl rfl rfl rfl

/-- As long as nothing of a loaded scene has been delivered, all of its timeline lies ahead. -/
lemma Lawful.drop_cursor_of_load {elements : List Element} (hl : Lawful timing h)
    (ha : answering? h = none) (hload : lastRewind? h = some (.load elements))
    (hd : deliveries (sinceRewind h) = []) :
    (player timing h).timeline.drop (player timing h).cursor = Timeline.build timing elements := by
  have ht := hl.told
  rw [Told, hload, hd, ahead_of_answering_none ha, List.append_nil] at ht
  have hsplit := List.take_append_drop (player timing h).cursor (player timing h).timeline
  rw [← ht, List.map_nil, List.nil_append] at hsplit
  rw [hsplit, timeline_of_load timing hload]

end History

namespace Session
open History

/-- At every moment at which no listener is answering, what plays have delivered since the last
rewind are the entries before the cursor, in their order. A skip leaves nothing to deliver. -/
theorem deliveries_since_rewind (timing : Timing) (clock : Clock) (steps : List SessionStep) :
    (after timing clock steps).player = History.player timing (after timing clock steps).history ∧
    ∀ past : History, past <:+ (after timing clock steps).history → answering? past = none →
      (History.player timing past).cursor ≤ (History.player timing past).timeline.length ∧
      match lastRewind? past with
      | some (.skip _) =>
        (History.player timing past).cursor = (History.player timing past).timeline.length ∧
          deliveries (sinceRewind past) = []
      | _ => (deliveries (sinceRewind past)).map Prod.fst =
          (History.player timing past).timeline.take (History.player timing past).cursor := by
  have hc := (settled_after timing clock steps).1.during.1
  refine ⟨hc.player, ?_⟩
  rintro past ⟨later, heq⟩ ha
  have hl : Lawful timing past := by
    have := hc.lawful
    rw [← heq] at this
    exact this.tail
  have htold := hl.told
  rw [ahead_of_answering_none ha, Told] at htold
  refine ⟨hl.placed.cursor_le, ?_⟩
  split at htold
  · exact ⟨htold.1, htold.2.1⟩
  · simpa using htold

end Session
end LessonScript
