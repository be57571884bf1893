import LessonScript.Proofs.Playback.Advance

/-!
# Sessions do not look back

What a session does depends on the player, the clock and the plays that wait, and not on what has
happened before: with another past behind it it goes on in the same way.
-/

namespace LessonScript
namespace Session

/-- A session with a past behind its history. -/
def onTop (past : History) (s : Session) : Session := { s with history := s.history ++ past }

variable (past : History)

@[simp] lemma player_onTop (s : Session) : (s.onTop past).player = s.player := rfl

/-- What every member of a list does in the same way, the list does. -/
lemma onTop_foldl {α : Type} {f : Session → α → Session}
    (hf : ∀ s a, f (onTop past s) a = onTop past (f s a)) (l : List α) (s : Session) :
    l.foldl f (s.onTop past) = (l.foldl f s).onTop past := by
  induction l generalizing s with
  | nil => rfl
  | cons a l ih => rw [List.foldl_cons, List.foldl_cons, hf, ih]

mutual

theorem onTop_control : (c : Control) → ∀ s : Session,
    (s.onTop past).control c = (s.control c).onTop past
  | .skip answers, s => by
    have hloop := onTop_foldl past
      (f := fun s entry =>
        (s.record (.shown .skip entry s.clock.now)).controls (answers entry.index))
      (fun s entry => onTop_controls (answers entry.index) (s.record (.shown .skip entry _)))
      s.player.timeline (s.record (.controlled (.skip answers) s.clock.now))
    exact congrArg (fun t : Session => t.record (.skipped t.clock.now)) hloop
  | .load _, _ | .pause, _ | .resume, _ | .stop, _ | .reset, _ => rfl

theorem onTop_controls : (cs : List Control) → ∀ s : Session,
    (s.onTop past).controls cs = (s.controls cs).onTop past
  | [], _ => rfl
  | c :: cs, s => by
    rw [controls, controls, onTop_control c, onTop_controls cs]

end

lemma onTop_deliver (s : Session) (play : Play) (entry : Entry) :
    (s.onTop past).deliver play entry = (s.deliver play entry).onTop past :=
  onTop_controls past _ (s.record (.shown (.play play.number) entry s.clock.now))

lemma onTop_present (s : Session) (play : Play) (place : Fin play.timeline.length) :
    (s.onTop past).present play place = (s.present play place).onTop past := by
  simp only [present, onTop_deliver, player_onTop]
  split <;> rfl

lemma onTop_run (play : Play) (place : Nat) (s : Session) :
    run play place (s.onTop past) = (run play place s).onTop past := by
  fun_induction run play place s with
  | case1 place s h o hi =>
    rw [run, dif_pos h]
    simp only [player_onTop, hi]
    rfl
  | case2 place s h hi hp =>
    rw [run, dif_pos h]
    simp only [player_onTop, hi, hp, if_true]
    rfl
  | case3 place s h hi hp hw =>
    rw [run, dif_pos h]
    simp only [player_onTop, hi, hp, hw, if_false, if_true]
    rfl
  | case4 place s h hi hp hw hg ih =>
    rw [run, dif_pos h]
    simp only [player_onTop, hi, hp, hw, if_false, onTop_present, dif_pos hg]
    exact ih
  | case5 place s h hi hp hw hg =>
    rw [run, dif_pos h]
    simp only [player_onTop, hi, hp, hw, if_false, onTop_present, dif_neg hg]
    rfl
  | case6 place s h =>
    rw [run, dif_neg h]
    rfl

lemma onTop_wake (w : Suspended) (s : Session) :
    wake w (s.onTop past) = (wake w s).onTop past := by
  simp only [wake, player_onTop, onTop_present]
  split
  · rfl
  · split
    · exact onTop_run ..
    · rfl

lemma onTop_turn (s : Session) (w : Suspended) :
    (s.onTop past).turn w = (s.turn w).onTop past := by
  simp only [turn, player_onTop]
  split
  · rfl
  · exact onTop_run ..
  · rfl

lemma onTop_settle (s : Session) : (s.onTop past).settle = s.settle.onTop past :=
  onTop_foldl past (onTop_turn past) _ { s with suspended := [] }

lemma onTop_act (s : Session) (a : Action) : (s.onTop past).act a = (s.act a).onTop past := by
  cases a with
  | control c => exact onTop_control past c s
  | play answers =>
    exact onTop_run past _ _ { s.record (.began s.plays s.clock.now) with plays := s.plays + 1 }

lemma onTop_advanceTo (target : Nat) (s : Session) :
    advanceTo target (s.onTop past) = (advanceTo target s).onTop past := by
  fun_induction advanceTo target s with
  | case1 s hdue =>
    rw [advanceTo, show (s.onTop past).nextDue? = none from hdue]
    rfl
  | case2 s due hdue hlt =>
    rw [advanceTo, show (s.onTop past).nextDue? = some due from hdue]
    exact if_pos hlt
  | case3 s due hdue hlt hcons =>
    rw [advanceTo, show (s.onTop past).nextDue? = some due from hdue]
    simp only [hlt, if_false]
    split
    case h_1 => rfl
    case h_2 w after hcons' => exact absurd (hcons.symm.trans hcons') (by simp)
  | case4 s due hdue hlt w after hcons others ih =>
    rw [advanceTo_wake (s := s.onTop past) hdue (Nat.le_of_not_lt hlt) hcons, ← ih]
    exact congrArg (advanceTo target) (onTop_wake past w
      { s with clock := s.clock.moveTo due, suspended := others })

lemma onTop_step (s : Session) (st : SessionStep) :
    (s.onTop past).step st = (s.step st).onTop past := by
  cases st with
  | act actions =>
    exact (congrArg settle (onTop_foldl past (onTop_act past) actions s)).trans (onTop_settle ..)
  | advance duration =>
    exact (congrArg settle (onTop_advanceTo past _ s)).trans (onTop_settle ..)

/-- The past makes no difference to what comes. -/
theorem onTop_steps (steps : List SessionStep) (s : Session) :
    steps.foldl step (s.onTop past) = (steps.foldl step s).onTop past :=
  onTop_foldl past (onTop_step past) steps s

end Session
end LessonScript
