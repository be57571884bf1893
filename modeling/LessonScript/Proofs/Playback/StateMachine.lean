import LessonScript.Proofs.Playback.Conduct
import Mathlib.Algebra.Order.Field.Basic
import Mathlib.Algebra.Order.Field.Rat

/-!
# The state machine of playback

After every step the state of the player, its cursor, the plays that are under way and what each
of them waits for fit together: playback is active exactly while one play has not ended, and that
play waits before the entry at the cursor. Only a skip can leave the player completed anywhere but
at the end of its timeline, and only when its listener has taken the player back to the start.
-/

namespace LessonScript

lemma Player.progress_mem (p : Player) : 0 ≤ p.progress ∧ p.progress ≤ 1 := by
  unfold Player.progress
  split
  · exact ⟨zero_le_one, le_refl 1⟩
  · constructor
    · exact div_nonneg (Nat.cast_nonneg _) (Nat.cast_nonneg _)
    · exact div_le_one_of_le₀ (Nat.cast_le.2 (Nat.min_le_right ..)) (Nat.cast_nonneg _)

lemma PlaybackState.isActive_iff (state : PlaybackState) :
    state.isActive = true ↔ state = .playing ∨ state = .paused := by
  cases state <;> simp [isActive]

namespace Session
open History

/-- What a play waits for before the entry at the cursor: the end of a pause, or a timer that was
set for the wait of this entry and has not run out. -/
inductive Waits (s : Session) (w : Suspended) : Prop
  | parked (hw : w.hold = .parked) (hs : s.player.state = .paused)
  | timer (began : Nat) (hb : began ≤ s.clock.now)
      (hw : w.hold = .waiting (began + s.clock.lasting w.next.wait))
      (hn : s.clock.now ≤ began + s.clock.lasting w.next.wait)

/-- A session at rest: no play can go on before the clock moves or a control is given. The plays
that have begun and have not ended are those that are suspended. -/
structure AtRest (s : Session) : Prop where
  cursor_le : s.player.cursor ≤ s.player.timeline.length
  progress_mem : 0 ≤ s.player.progress ∧ s.player.progress ≤ 1
  idle : s.player.state = .idle → s.player.cursor = 0
  /-- A skip completes playback even if its listener has rewound it, and then the cursor stands at
  the start. -/
  completed : s.player.state = .completed →
    s.player.cursor = if rewoundInSkip s.history then 0 else s.player.timeline.length
  running_iff : ∀ n, running n s.history = true ↔ ∃ w ∈ s.suspended, w.play.number = n
  active_iff : s.player.state = .playing ∨ s.player.state = .paused ↔ ∃ w, s.suspended = [w]
  suspended : ∀ w ∈ s.suspended, w.play.generation = s.player.generation ∧
    w.play.timeline = s.player.timeline ∧ w.place = s.player.cursor ∧
    s.player.timeline[s.player.cursor]? = some w.next ∧ Waits s w
  inactive : s.player.state = .idle ∨ s.player.state = .stopped ∨ s.player.state = .completed →
    ∀ n, running n s.history = false

variable {timing : Timing} {s : Session}

lemma Timed.waits {w : Suspended} (hw : Timed s.clock w)
    (hp : w.hold = .parked → s.player.state = .paused) : Waits s w := by
  cases hh : w.hold with
  | parked => exact .parked hh (hp hh)
  | waiting due =>
    obtain ⟨hn, began, hb, rfl⟩ := hw due hh
    exact .timer began hb hh hn

lemma Settled.atRest (hs : Settled timing s) : AtRest s := by
  have hc := hs.during.1
  have hlive : ∀ w ∈ s.suspended, Live w.play.number s.history := fun w hw =>
    hs.during.live (List.mem_map_of_mem hw) (hs.standing w hw)
  have hrun : ∀ n, running n s.history = true ↔ ∃ w ∈ s.suspended, w.play.number = n := by
    intro n
    constructor
    · intro hn
      obtain ⟨t, ht, hn⟩ := hc.all n hn
      obtain ⟨w, hw, rfl⟩ := List.mem_map.1 ht
      exact ⟨w, hw, hn⟩
    · rintro ⟨w, hw, rfl⟩
      exact (hlive w hw).1
  have hactive : s.player.state.isActive = true ↔ s.suspended ≠ [] := by
    rw [hc.player]
    constructor
    · intro ha hnil
      obtain ⟨n, hn⟩ := hc.lawful.exists_live ha
      obtain ⟨w, hw, -⟩ := (hrun n).1 hn.1
      simp [hnil] at hw
    · intro hne
      obtain ⟨w, hw⟩ := List.exists_mem_of_ne_nil _ hne
      rw [(hc.lawful.state_of_live (hlive w hw)).1,
        (verdict_eq_completed.1 (hs.standing w hw).verdict).2]
      rfl
  have hplaced := hc.lawful.placed
  rw [← hc.player] at hplaced
  refine ⟨hplaced.cursor_le, s.player.progress_mem, hplaced.idle, hplaced.completed, hrun,
    ?_, ?_, ?_⟩
  · rw [← PlaybackState.isActive_iff, hactive]
    have := hs.length_le
    constructor
    · intro hne
      obtain ⟨w, rest, hw⟩ := List.exists_cons_of_ne_nil hne
      exact ⟨w, by simpa [hw] using this⟩
    · rintro ⟨w, hw⟩
      simp [hw]
  · intro w hw
    have ha := hc.agrees _ (List.mem_map_of_mem hw)
    have ht := (hlive w hw).2
    have htl : w.play.timeline = s.player.timeline := by
      rw [hc.player]
      exact ha.timeline_eq ht
    have hpl : w.place.val = s.player.cursor := by
      rw [hc.player]
      exact ha.place ht
    refine ⟨?_, htl, hpl, ?_, (hs.standing w hw).timed.waits (hs.standing w hw).parked⟩
    · have hto := ha.takenOver_iff
      rw [← hc.player] at hto
      simpa [ht, eq_comm, Suspended.task] using hto
    · rw [← htl, ← hpl]
      exact List.getElem?_eq_getElem w.place.isLt
  · intro hst n
    rw [← Bool.not_eq_true, hrun]
    rintro ⟨w, hw, -⟩
    have := hactive.2 (List.ne_nil_of_mem hw)
    rcases hst with hst | hst | hst <;> simp [hst, PlaybackState.isActive] at this

/-- Whatever is asked of a session, it is at rest after every step. -/
theorem atRest_after (timing : Timing) (clock : Clock) (steps : List SessionStep) :
    AtRest (after timing clock steps) :=
  (settled_after timing clock steps).1.atRest

/-- A skip whose listener resets the player leaves it completed at the start of its timeline. -/
theorem skip_answered_by_reset :
    let s := after {} .exact
      [.act [.control (.load [.text []]), .control (.skip fun _ => [.reset])]]
    s.player.state = .completed ∧ s.player.cursor = 0 ∧ s.player.timeline.length = 1 := by
  decide

end Session
end LessonScript
