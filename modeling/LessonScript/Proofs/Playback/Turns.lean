import LessonScript.Proofs.Playback.Schedule
import Mathlib.Order.Bounds.Basic

/-!
# When a wait begins

A play has a turn when it begins, when it has moved on behind a delivery, and at the end of every
step. Its wait for the next delivery begins at the first turn since it last acted at which playback
is not paused, and the delivery comes when the wait is over, whatever the state is by then. As long
as there is no such turn the play is parked.
-/

namespace LessonScript

namespace Event

def time : Event → Nat
  | .controlled _ time | .skipped time | .began _ time | .shown _ _ time | .moved _ _ time
  | .ended _ _ time => time

/-- The play that has a turn right after an event: it has begun, or is done with a delivery. -/
def turn? : Event → Option Nat
  | .began n _ | .moved n _ _ => some n
  | _ => none

lemma play?_of_turn? {e : Event} {n : Nat} (he : e.turn? = some n) : e.play? = some n := by
  cases e <;> cases he <;> rfl

end Event

/-- What had happened by some time. -/
structure Moment where
  past : History
  time : Nat

/-- A moment comes before another if everything had happened by the other one too. -/
instance : Preorder Moment where
  le m m' := m.past <:+ m'.past ∧ m.time ≤ m'.time
  le_refl m := ⟨List.suffix_rfl, Nat.le_refl _⟩
  le_trans _ _ _ h h' := ⟨h.1.trans h'.1, Nat.le_trans h.2 h'.2⟩

namespace History

/-- The turns of a play. The ends of steps, at which all suspended plays get theirs, are given. -/
inductive Turn (rounds : List Moment) (n : Nat) (h : History) : Moment → Prop
  | acted {e : Event} {past : History} (he : e.turn? = some n) (hs : e :: past <:+ h) :
      Turn rounds n h ⟨e :: past, e.time⟩
  | round {m : Moment} (hm : m ∈ rounds) : Turn rounds n h m

/-- The turns at which a play had done what is given, and at which playback was not paused. -/
def openTurns (timing : Timing) (rounds : List Moment) (n : Nat) (h acts : History) :
    Set Moment :=
  {m | Turn rounds n h m ∧ own n m.past = acts ∧ (player timing m.past).state ≠ .paused}

variable {timing : Timing} {rounds : List Moment} {n : Nat} {h acts : History} {e : Event}
  {m : Moment}

lemma Turn.mono {h' : History} (ht : Turn rounds n h m) (hs : h <:+ h') : Turn rounds n h' m := by
  cases ht with
  | acted he hp => exact .acted he (hp.trans hs)
  | round hm => exact .round hm

lemma Turn.of_cons (ht : Turn rounds n (e :: h) m) :
    Turn rounds n h m ∨ m = ⟨e :: h, e.time⟩ ∧ e.play? = some n := by
  cases ht with
  | acted he hs =>
    rcases List.suffix_cons_iff.1 hs with heq | hs
    · obtain ⟨rfl, rfl⟩ := List.cons.inj heq
      exact .inr ⟨rfl, Event.play?_of_turn? he⟩
    · exact .inl (.acted he hs)
  | round hm => exact .inl (.round hm)

lemma Turn.round_mono (ht : Turn rounds n h m) (m₀ : Moment) : Turn (rounds ++ [m₀]) n h m := by
  cases ht with
  | acted he hs => exact .acted he hs
  | round hm => exact .round (List.mem_append_left _ hm)

lemma Turn.of_round {m₀ : Moment} (ht : Turn (rounds ++ [m₀]) n h m) :
    Turn rounds n h m ∨ m = m₀ := by
  cases ht with
  | acted he hs => exact .inl (.acted he hs)
  | round hm => exact (List.mem_append.1 hm).imp .round List.mem_singleton.1

/-- The turns of a play are its own. -/
lemma openTurns_append {later : History} (hown : own n later = []) :
    openTurns timing rounds n (later ++ h) acts = openTurns timing rounds n h acts := by
  induction later with
  | nil => rfl
  | cons e later ih =>
    have hp : e.play? ≠ some n := fun hp => by simp [own_cons, hp] at hown
    rw [own_cons, if_neg hp] at hown
    rw [← ih hown, List.cons_append]
    ext m
    refine and_congr_left fun _ => ⟨fun ht => ?_, fun ht => ht.mono (List.suffix_cons ..)⟩
    exact ht.of_cons.resolve_right fun hm => hp hm.2

lemma own_suffix {past : History} (hs : past <:+ h) : own n past <:+ own n h := hs.filter _

end History

namespace Session
open History

def moment (s : Session) : Moment := ⟨s.history, s.clock.now⟩

/-- Carries out a step without the turns behind it. -/
def proceed (s : Session) : SessionStep → Session
  | .act actions => actions.foldl act s
  | .advance duration => s.advance duration

lemma settle_proceed (s : Session) (st : SessionStep) : (s.proceed st).settle = s.step st := by
  cases st <;> rfl

/-- The ends of steps, at which all suspended plays get their turn. -/
def rounds (s : Session) : List SessionStep → List Moment
  | [] => []
  | st :: steps => (s.proceed st).moment :: rounds (s.step st) steps

lemma rounds_append (s : Session) (steps steps' : List SessionStep) :
    rounds s (steps ++ steps') = rounds s steps ++ rounds (steps.foldl step s) steps' := by
  induction steps generalizing s with
  | nil => rfl
  | cons st steps ih => exact congrArg _ (ih _)

/-! ### What a play leaves alone -/

/-- Between two sessions a play does nothing. -/
def Apart (n : Nat) (s s' : Session) : Prop :=
  ∃ later, s'.history = later ++ s.history ∧ own n later = []

variable {n : Nat} {s s' : Session} {e : Event}

lemma Apart.refl (n : Nat) (s : Session) : Apart n s s := ⟨[], rfl, rfl⟩

lemma Apart.record (ha : Apart n s s') (he : e.play? ≠ some n) : Apart n s (s'.record e) := by
  obtain ⟨later, heq, hown⟩ := ha
  exact ⟨e :: later, congrArg (e :: ·) heq, by rw [own_cons, if_neg he, hown]⟩

lemma Apart.own_eq (ha : Apart n s s') : own n s'.history = own n s.history := by
  obtain ⟨later, heq, hown⟩ := ha
  rw [heq, own_append, hown, List.nil_append]

/-- What every event of no play keeps, controls keep. -/
lemma controlInvariant_of_play {P : Session → Prop}
    (hP : ∀ s e, e.play? = none → e.time = s.clock.now → P s → P (s.record e)) :
    ControlInvariant fun _ => P :=
  ⟨fun _ s _ => hP s _ rfl rfl, fun _ s _ => hP s _ rfl rfl, fun _ s => hP s _ rfl rfl⟩

lemma Apart.controls (ha : Apart n s s') (cs : List Control) : Apart n s (s'.controls cs) :=
  (controlInvariant_of_play fun _ _ he _ ha => ha.record (by simp [he])).controls cs (k := 0) ha

lemma Apart.control (ha : Apart n s s') (c : Control) : Apart n s (s'.control c) :=
  ha.controls [c]

section Others

variable {play : Play} (hn : play.number ≠ n)
include hn

lemma Apart.finish (ha : Apart n s s') (o : Outcome) : Apart n s (s'.finish play o) :=
  ha.record (by simpa [Event.play?] using hn)

lemma Apart.present (ha : Apart n s s') (place : Fin play.timeline.length) :
    Apart n s (s'.present play place) := by
  have hd : Apart n s (s'.deliver play play.timeline[place]) :=
    (ha.record (by simpa [Event.play?] using hn)).controls _
  simp only [Session.present]
  split
  · exact hd.record (by simpa [Event.play?] using hn)
  · exact hd

lemma Apart.run (ha : Apart n s s') (place : Nat) : Apart n s (Session.run play place s') := by
  induction place, s' using run.induct play with
  | case1 place s' h o hi =>
    rw [Session.run, dif_pos h, hi]
    exact ha.finish hn o
  | case2 place s' h hi hp =>
    rw [Session.run, dif_pos h, hi]
    simp only [hp, if_true]
    exact ha
  | case3 place s' h hi hp hw =>
    rw [Session.run, dif_pos h, hi]
    simp only [hp, hw, if_false, if_true]
    exact ha
  | case4 place s' h hi hp hw hg ih =>
    rw [Session.run, dif_pos h, hi]
    simp only [hp, hw, if_false, dif_pos hg]
    exact ih (ha.present hn _)
  | case5 place s' h hi hp hw hg =>
    rw [Session.run, dif_pos h, hi]
    simp only [hp, hw, if_false, dif_neg hg]
    exact (ha.present hn _).finish hn _
  | case6 place s' h =>
    rw [Session.run, dif_neg h]
    exact ha.finish hn _

end Others

/-! ### Paced sessions -/

/-- So far every delivery has come when its wait was over. -/
structure Paced (timing : Timing) (rounds : List Moment) (s : Session) : Prop where
  player : s.player = History.player timing s.history
  sorted : s.history.Pairwise fun e e' => e'.time ≤ e.time
  past : ∀ e ∈ s.history, e.time ≤ s.clock.now
  rounds_le : ∀ m ∈ rounds, m ≤ s.moment ∧ ∀ e ∈ m.past, e.time ≤ m.time
  delivered : ∀ n entry t past, .shown (.play n) entry t :: past <:+ s.history →
    ∃ m, IsLeast (openTurns timing rounds n s.history (own n past)) m ∧
      t = m.time + s.clock.lasting entry.wait

/-- A play that has not delivered the entry it waits for: it has had no turn without a pause, or
its wait has begun at the first such turn and is not over. -/
inductive Held (timing : Timing) (rounds : List Moment) (s : Session) (w : Suspended) : Prop
  | parked (hw : w.hold = .parked)
      (hno : openTurns timing rounds w.play.number s.history (own w.play.number s.history) = ∅)
  | waiting (m : Moment)
      (hm : IsLeast
        (openTurns timing rounds w.play.number s.history (own w.play.number s.history)) m)
      (hw : w.hold = .waiting (m.time + s.clock.lasting w.next.wait))
      (hn : s.clock.now < m.time + s.clock.lasting w.next.wait ∨ s.clock.lasting w.next.wait = 0)

/-- A play has a turn now, and every other turn since it last acted fell into a pause. -/
structure AtTurn (timing : Timing) (rounds : List Moment) (s : Session) (n : Nat) (m : Moment) :
    Prop where
  turn : Turn rounds n s.history m
  since : own n m.past = own n s.history
  now : m.time = s.clock.now
  state : (History.player timing m.past).state = s.player.state
  only : ∀ m' ∈ openTurns timing rounds n s.history (own n s.history), m' = m

/-- The wait for a delivery is over now. -/
def Due (timing : Timing) (rounds : List Moment) (s : Session) (n : Nat) (entry : Entry) : Prop :=
  ∃ m, IsLeast (openTurns timing rounds n s.history (own n s.history)) m ∧
    s.clock.now = m.time + s.clock.lasting entry.wait

variable {timing : Timing} {rounds : List Moment} {m : Moment}

namespace Paced

/-- The plays set aside do not matter, and time may pass. -/
lemma frame (hp : Paced timing rounds s) (hh : s'.history = s.history)
    (hpl : s'.player = s.player) (hw : s'.clock.longestWait = s.clock.longestWait)
    (hn : s.clock.now ≤ s'.clock.now) : Paced timing rounds s' where
  player := by rw [hpl, hh, hp.player]
  sorted := hh ▸ hp.sorted
  past e he := Nat.le_trans (hp.past e (hh ▸ he)) hn
  rounds_le m hm := by
    obtain ⟨hle, htime⟩ := hp.rounds_le m hm
    exact ⟨⟨by rw [moment, hh]; exact hle.1, Nat.le_trans hle.2 hn⟩, htime⟩
  delivered n entry t past hs := by
    have hlasting : s'.clock.lasting entry.wait = s.clock.lasting entry.wait := by
      rw [Clock.lasting, Clock.lasting, hw]
    rw [hh] at hs ⊢
    rw [hlasting]
    exact hp.delivered n entry t past hs

/-- Every turn lies in the past. -/
lemma le_moment (hp : Paced timing rounds s) (ht : Turn rounds n s.history m) :
    m ≤ s.moment ∧ ∀ e ∈ m.past, e.time ≤ m.time := by
  cases ht with
  | @acted e past _ hs =>
    refine ⟨⟨hs, hp.past e (hs.subset List.mem_cons_self)⟩, fun e' he' => ?_⟩
    rcases List.mem_cons.1 he' with rfl | he'
    · exact Nat.le_refl _
    · exact (List.pairwise_cons.1 (hp.sorted.sublist hs.sublist)).1 e' he'
  | round hm => exact hp.rounds_le m hm

/-- The turn that an event brings comes after all others. -/
lemma isLeast_cons {acts : History} (hp : Paced timing rounds s) (he : e.time = s.clock.now)
    (hm : IsLeast (openTurns timing rounds n s.history acts) m) :
    IsLeast (openTurns timing rounds n (e :: s.history) acts) m := by
  refine ⟨⟨hm.1.1.mono (List.suffix_cons ..), hm.1.2⟩, fun m' hm' => ?_⟩
  rcases hm'.1.of_cons with ht | ⟨rfl, -⟩
  · exact hm.2 ⟨ht, hm'.2⟩
  · have hle := (hp.le_moment hm.1.1).1
    exact ⟨hle.1.trans (List.suffix_cons ..), he ▸ hle.2⟩

lemma record (hp : Paced timing rounds s) (he : e.time = s.clock.now)
    (hd : ∀ n entry t, e = .shown (.play n) entry t → Due timing rounds s n entry) :
    Paced timing rounds (s.record e) where
  player := congrArg e.apply hp.player
  sorted := List.pairwise_cons.2 ⟨fun e' he' => he ▸ hp.past e' he', hp.sorted⟩
  past e' he' := by
    rcases List.mem_cons.1 he' with rfl | he'
    · exact Nat.le_of_eq he
    · exact hp.past e' he'
  rounds_le m hm := by
    obtain ⟨hle, htime⟩ := hp.rounds_le m hm
    exact ⟨⟨hle.1.trans (List.suffix_cons ..), hle.2⟩, htime⟩
  delivered n entry t past hs := by
    rcases List.suffix_cons_iff.1 hs with heq | hs
    · obtain ⟨rfl, rfl⟩ := List.cons.inj heq
      obtain ⟨m, hm, hnow⟩ := hd n entry t rfl
      exact ⟨m, hp.isLeast_cons he hm, he.trans hnow⟩
    · obtain ⟨m, hm, ht⟩ := hp.delivered n entry t past hs
      exact ⟨m, hp.isLeast_cons he hm, ht⟩

lemma record_of_none (hp : Paced timing rounds s) (he : e.time = s.clock.now)
    (hd : e.delivery? = none) : Paced timing rounds (s.record e) :=
  hp.record he fun n entry t heq => by rw [heq] at hd; cases hd

lemma controls (hp : Paced timing rounds s) (cs : List Control) :
    Paced timing rounds (s.controls cs) := by
  refine (controlInvariant_of_play fun s e he ht hp => hp.record_of_none ht ?_).controls cs
    (k := 0) hp
  cases e with
  | shown deliverer => cases deliverer <;> cases he; rfl
  | _ => rfl

lemma control (hp : Paced timing rounds s) (c : Control) : Paced timing rounds (s.control c) :=
  hp.controls [c]

lemma finish (hp : Paced timing rounds s) (play : Play) (o : Outcome) :
    Paced timing rounds (s.finish play o) :=
  hp.record_of_none rfl rfl

/-- A play that has just acted has a turn. -/
lemma atTurn_record (hp : Paced timing rounds s) (he : e.time = s.clock.now)
    (ht : e.turn? = some n) : AtTurn timing rounds (s.record e) n ⟨e :: s.history, e.time⟩ where
  turn := .acted ht List.suffix_rfl
  since := rfl
  now := he
  state := by rw [player_record, hp.player]; rfl
  only m hm := by
    refine (hm.1.of_cons.resolve_left fun hold => ?_).1
    have hlen := (own_suffix (n := n) (hp.le_moment hold).1.1).length_le
    rw [hm.2.1, history_record, own_cons, if_pos (Event.play?_of_turn? ht),
      List.length_cons] at hlen
    exact Nat.not_succ_le_self _ hlen

lemma present {play : Play} (place : Fin play.timeline.length) (hp : Paced timing rounds s)
    (hd : Due timing rounds s play.number (getElem play.timeline place place.isLt)) :
    Paced timing rounds (s.present play place) ∧
      ((s.present play place).player.generation = play.generation →
        ∃ m, AtTurn timing rounds (s.present play place) play.number m) := by
  have hshown : Paced timing rounds
      (s.record (.shown (.play play.number) play.timeline[place] s.clock.now)) := by
    refine hp.record rfl fun n entry t heq => ?_
    cases heq
    exact hd
  have hdel : Paced timing rounds (s.deliver play play.timeline[place]) := hshown.controls _
  by_cases hg : (s.deliver play play.timeline[place]).player.generation = play.generation
  · have hmoved : s.present play place = (s.deliver play play.timeline[place]).record
        (.moved play.number (place + 1) (s.deliver play play.timeline[place]).clock.now) :=
      if_pos hg
    rw [hmoved]
    exact ⟨hdel.record_of_none rfl rfl, fun _ => ⟨_, hdel.atTurn_record rfl rfl⟩⟩
  · have hlost : s.present play place = s.deliver play play.timeline[place] := if_neg hg
    rw [hlost]
    exact ⟨hdel, fun h => absurd h hg⟩

end Paced

/-! ### Turns of a play -/

lemma AtTurn.eq_empty (ha : AtTurn timing rounds s n m) (hs : s.player.state = .paused) :
    openTurns timing rounds n s.history (own n s.history) = ∅ := by
  rw [Set.eq_empty_iff_forall_notMem]
  intro m' hm'
  obtain rfl := ha.only m' hm'
  exact hm'.2.2 (ha.state.trans hs)

lemma AtTurn.isLeast (ha : AtTurn timing rounds s n m) (hs : s.player.state ≠ .paused) :
    IsLeast (openTurns timing rounds n s.history (own n s.history)) m :=
  ⟨⟨ha.turn, ha.since, ha.state ▸ hs⟩, fun m' hm' => ha.only m' hm' ▸ le_refl _⟩

/-- An entry without a wait is due at once. -/
lemma AtTurn.due {entry : Entry} (ha : AtTurn timing rounds s n m)
    (hs : s.player.state ≠ .paused) (hw : ¬0 < entry.wait.count) :
    Due timing rounds s n entry := by
  have hlasting := s.clock.lasting_le entry.wait
  have hnow := ha.now
  exact ⟨m, ha.isLeast hs, by omega⟩

/-- Once a play has had its turn, everything so far has come on time, and what is left is held
back. -/
theorem Paced.run (play : Play) (place : Nat) (hp : Paced timing rounds s)
    (ha : AtTurn timing rounds s play.number m) :
    Paced timing rounds (Session.run play place s) ∧
      ∀ w ∈ (Session.run play place s).suspended,
        w ∈ s.suspended ∨ Held timing rounds (Session.run play place s) w := by
  induction place, s using run.induct play generalizing m with
  | case1 place s h o hi =>
    rw [Session.run, dif_pos h, hi]
    exact ⟨hp.finish play o, fun w hw => .inl hw⟩
  | case2 place s h hi hpaused =>
    rw [Session.run, dif_pos h, hi]
    simp only [hpaused, if_true]
    refine ⟨hp.frame rfl rfl rfl (Nat.le_refl _), fun w hw => ?_⟩
    refine (List.mem_append.1 hw).imp id fun hw => ?_
    obtain rfl := List.mem_singleton.1 hw
    exact .parked rfl (ha.eq_empty hpaused)
  | case3 place s h hi hpaused hw =>
    rw [Session.run, dif_pos h, hi]
    simp only [hpaused, hw, if_false, if_true]
    refine ⟨hp.frame rfl rfl rfl (Nat.le_refl _), fun w hw => ?_⟩
    refine (List.mem_append.1 hw).imp id fun hw => ?_
    obtain rfl := List.mem_singleton.1 hw
    refine .waiting m (ha.isLeast hpaused) ?_ ?_ <;> rw [ha.now]
    · rfl
    · change s.clock.now < s.clock.now + s.clock.lasting _ ∨ s.clock.lasting _ = 0
      omega
  | case4 place s h hi hpaused hw hg ih =>
    have hdue := ha.due hpaused hw
    obtain ⟨hp', hturn⟩ := hp.present ⟨place, h⟩ hdue
    obtain ⟨m', ha'⟩ := hturn hg
    rw [Session.run, dif_pos h, hi]
    simp only [hpaused, hw, if_false, dif_pos hg]
    rw [← suspended_present s play ⟨place, h⟩]
    exact ih hp' ha'
  | case5 place s h hi hpaused hw hg =>
    have hdue := ha.due hpaused hw
    rw [Session.run, dif_pos h, hi]
    simp only [hpaused, hw, if_false, dif_neg hg]
    refine ⟨(hp.present ⟨place, h⟩ hdue).1.finish play _, fun w hw => .inl ?_⟩
    rwa [suspended_finish, suspended_present] at hw
  | case6 place s h =>
    rw [Session.run, dif_neg h]
    exact ⟨hp.finish play _, fun w hw => .inl hw⟩

theorem Paced.wake {w : Suspended} (hp : Paced timing rounds s)
    (hd : Due timing rounds s w.play.number w.next) :
    Paced timing rounds (Session.wake w s) ∧
      ∀ w' ∈ (Session.wake w s).suspended,
        w' ∈ s.suspended ∨ Held timing rounds (Session.wake w s) w' := by
  obtain ⟨hp', hturn⟩ := hp.present w.place hd
  unfold Session.wake
  split
  case h_1 o hi => exact ⟨hp.finish w.play o, fun w' hw => .inl hw⟩
  case h_2 hi =>
    simp only
    split
    case isTrue hg =>
      obtain ⟨m, ha⟩ := hturn hg
      rw [← suspended_present s w.play w.place]
      exact hp'.run _ _ ha
    case isFalse hg =>
      refine ⟨hp'.finish w.play _, fun w' hw => .inl ?_⟩
      rwa [suspended_finish, suspended_present] at hw

/-! ### The turns of the others -/

lemma Held.apart {w : Suspended} (hh : Held timing rounds s w) (ha : Apart w.play.number s s')
    (hc : s'.clock = s.clock) : Held timing rounds s' w := by
  have hown := ha.own_eq
  obtain ⟨later, heq, hlater⟩ := ha
  have hopen : openTurns timing rounds w.play.number s'.history (own w.play.number s'.history) =
      openTurns timing rounds w.play.number s.history (own w.play.number s.history) := by
    rw [hown, heq, openTurns_append hlater]
  cases hh with
  | parked hw hno => exact .parked hw (hopen.trans hno)
  | waiting m hm hw hn =>
    rw [← hc] at hw hn
    exact .waiting m (hopen ▸ hm) hw hn

lemma AtTurn.apart (ha : AtTurn timing rounds s n m) (hap : Apart n s s') (hc : s'.clock = s.clock)
    (hst : s'.player.state = s.player.state) : AtTurn timing rounds s' n m := by
  have hown := hap.own_eq
  obtain ⟨later, heq, hlater⟩ := hap
  refine ⟨?_, ?_, ?_, ?_, ?_⟩
  · rw [heq]
    exact ha.turn.mono (List.suffix_append ..)
  · rw [hown, ha.since]
  · rw [hc, ha.now]
  · rw [hst, ha.state]
  · rw [hown, heq, openTurns_append hlater]
    exact ha.only

end Session
end LessonScript
