import LessonScript.Proofs.Playback.Conduct

/-!
# The passing of time

It does not matter in how many steps the clock is moved. On its way to a time a session stops
wherever a wait ends, and where it has stopped it goes on as if the clock had never been read: so a
long way is the same as two short ones, wherever they meet.
-/

namespace LessonScript
namespace Session

variable {s : Session} {target : Nat}

/-! ### The clock on its way -/

@[simp] lemma clock_run (play : Play) (place : Nat) (s : Session) :
    (run play place s).clock = s.clock := by
  fun_induction run play place s with
  | case4 place s h hi hp hw hg ih => exact ih.trans (clock_present ..)
  | case5 place s h hi hp hw hg => exact clock_present ..
  | _ => rfl

@[simp] lemma clock_wake (w : Suspended) (s : Session) : (wake w s).clock = s.clock := by
  unfold wake
  split
  · rfl
  · simp only
    split
    · exact (clock_run ..).trans (clock_present ..)
    · exact clock_present ..

/-- The time that the clock shows before it is moved does not matter. -/
lemma advanceTo_moveTo (target time : Nat) (s : Session) :
    advanceTo target { s with clock := s.clock.moveTo time } = advanceTo target s := by
  rw [advanceTo, advanceTo]
  rfl

lemma advanceTo_wake {due : Nat} {w : Suspended} {after : List Suspended}
    (hdue : s.nextDue? = some due) (hle : due ≤ target)
    (hcons : s.suspended.dropWhile (·.due? ≠ some due) = w :: after) :
    advanceTo target s = advanceTo target (wake w { s with
      clock := s.clock.moveTo due
      suspended := s.suspended.takeWhile (·.due? ≠ some due) ++ after }) := by
  rw [advanceTo, hdue]
  simp only [Nat.not_lt.2 hle, if_false]
  split
  case h_1 hnil =>
    rw [hcons] at hnil
    cases hnil
  case h_2 w' after' hcons' =>
    rw [hcons] at hcons'
    cases hcons'
    rfl

@[simp] lemma clock_advanceTo (target : Nat) (s : Session) :
    (advanceTo target s).clock = s.clock.moveTo target := by
  fun_induction advanceTo target s with
  | case1 | case2 | case3 => rfl
  | case4 s due hdue hlt w after hcons others ih =>
    rw [clock_wake] at ih
    exact ih

/-- A stop on the way changes nothing. -/
theorem advanceTo_advanceTo {time : Nat} (h : time ≤ target) (s : Session) :
    advanceTo target (advanceTo time s) = advanceTo target s := by
  fun_induction advanceTo time s with
  | case1 | case2 | case3 => exact advanceTo_moveTo ..
  | case4 s due hdue hlt w after hcons others ih =>
    have hle : due ≤ target := Nat.le_trans (Nat.le_of_not_lt hlt) h
    rw [advanceTo_wake hdue hle hcons]
    exact ih

lemma advance_advance (s : Session) (a b : Nat) : (s.advance a).advance b = s.advance (a + b) := by
  have hnow : (advanceTo (s.clock.now + a) s).clock.now = s.clock.now + a := by
    rw [clock_advanceTo]
    rfl
  rw [advance, advance, hnow, Nat.add_assoc, advanceTo_advanceTo (by omega)]
  rfl

/-! ### The turns behind it -/

variable {timing : Timing}

/-- Where every play waits with good reason, another turn moves none of them. -/
lemma Settled.settle_eq (hs : Settled timing s) : s.settle = s := by
  obtain hw | ⟨w, hw⟩ := hs.suspended_cases
  · rw [settle, hw]
    simp only [List.foldl_nil]
    rw [← hw]
  · have hst := hs.standing w (by simp [hw])
    have hi := hs.interruption? hw
    have hback : ({ s with suspended := [] } : Session).suspend w = s := by
      rw [suspend, List.nil_append, ← hw]
    rw [settle, hw, List.foldl_cons, List.foldl_nil, turn, hi]
    cases hh : w.hold with
    | waiting due => exact hback
    | parked =>
      have hpark : (⟨w.play, w.place, .parked⟩ : Suspended) = w := by rw [← hh]
      simp only
      rw [run, dif_pos w.place.isLt]
      simp only [hi, hst.parked hh, if_true]
      rw [hpark]
      exact hback

/-- To move the clock by a time and then by another is to move it by both at once: the history with
all deliveries and ends and their times, the player and the plays that wait are the same, and so is
all that follows. -/
theorem advance_in_two_steps (timing : Timing) (clock : Clock) (before after' : List SessionStep)
    (a b : Nat) :
    after timing clock (before ++ .advance a :: .advance b :: after') =
      after timing clock (before ++ .advance (a + b) :: after') := by
  obtain ⟨hset, -⟩ := settled_after timing clock before
  have hfirst : ((after timing clock before).advance a).settle =
      (after timing clock before).advance a :=
    (hset.advanceTo (Nat.le_add_right ..)).1.settle_eq
  rw [after_append, after_append, List.foldl_cons, List.foldl_cons, List.foldl_cons]
  simp only [step]
  rw [hfirst, advance_advance]

end Session
end LessonScript
