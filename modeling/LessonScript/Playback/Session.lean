import LessonScript.Playback.Clock
import LessonScript.Playback.Player

/-!
# Sessions

A session drives one player on a clock that only moves when it is told to. A play takes the
timeline as it stands when the play begins, and delivers its entries from the cursor on. It waits
before each for as long as the entry says and the clock can time. It gives way when it has to wait
for the clock or for the end of a pause. A listener may answer the delivery of an element with
controls, which take effect before the play goes on. So may the listener of a skip, with skips of
their own among the controls: a skip goes on with its timeline whatever the answer was.

Everything that happens is kept in a history, the latest event first, and the player changes by
what happens alone.
-/

namespace LessonScript

/-- Who delivers an entry: a play by its number, or a skip. -/
inductive Deliverer where
  | play (number : Nat)
  | skip
deriving DecidableEq, Repr

/-- Something that happened in a session. -/
inductive Event where
  | controlled (control : Control) (time : Nat)
  /-- A skip has delivered the whole timeline. -/
  | skipped (time : Nat)
  | began (play : Nat) (time : Nat)
  | shown (deliverer : Deliverer) (entry : Entry) (time : Nat)
  /-- A play has moved the cursor behind the entry that it delivered. -/
  | moved (play : Nat) (cursor : Nat) (time : Nat)
  | ended (play : Nat) (outcome : Outcome) (time : Nat)

def Event.apply : Event → Player → Player
  | .controlled control _, p => control.apply p
  | .skipped _, p => p.complete
  | .began _ _, p => p.begin
  | .shown _ _ _, p => p
  | .moved _ cursor _, p => p.moveTo cursor
  | .ended _ .completed _, p => p.complete
  | .ended _ .stopped _, p => p
  | .ended _ .superseded _, p => p

/-- What has happened so far, the latest event first. -/
abbrev History := List Event

/-- A play: its number, its generation, the timeline it delivers, and how its listener answers
the delivery of the element at a place. -/
structure Play where
  number : Nat
  generation : Nat
  timeline : Timeline
  answers : Nat → List Control

/-- What a play waits for. -/
inductive Hold where
  | parked
  | waiting (due : Nat)
deriving DecidableEq, Repr

/-- A play that waits before the entry at a place of its timeline. -/
structure Suspended where
  play : Play
  place : Fin play.timeline.length
  hold : Hold

namespace Suspended

def next (w : Suspended) : Entry := w.play.timeline[w.place]

def due? (w : Suspended) : Option Nat :=
  match w.hold with
  | .parked => none
  | .waiting due => some due

/-- The number of entries that suspended plays have not delivered. -/
def pending (suspended : List Suspended) : Nat :=
  (suspended.flatMap fun w => w.play.timeline.drop w.place).length

end Suspended

/-- A player, its clock, the number of plays started, those that are suspended in the order of
their numbers, and the history. -/
structure Session where
  player : Player
  clock : Clock
  plays : Nat
  suspended : List Suspended
  history : History

namespace Session

def start (timing : Timing) (clock : Clock) : Session := ⟨.idle timing, clock, 0, [], []⟩

def record (s : Session) (event : Event) : Session :=
  { s with player := event.apply s.player, history := event :: s.history }

mutual

/-- Carries out a control. A skip delivers the timeline that it finds, all at once, and its listener
answers each delivery; then playback is complete. -/
def control (s : Session) : Control → Session
  | .skip answers =>
    let s := s.record (.controlled (.skip answers) s.clock.now)
    let s := s.player.timeline.foldl (fun s entry =>
      controls (s.record (.shown .skip entry s.clock.now)) (answers entry.index)) s
    s.record (.skipped s.clock.now)
  | c => s.record (.controlled c s.clock.now)

/-- Carries out controls, one after the other. -/
def controls (s : Session) : List Control → Session
  | [] => s
  | c :: rest => controls (control s c) rest

end

def finish (s : Session) (play : Play) (outcome : Outcome) : Session :=
  s.record (.ended play.number outcome s.clock.now)

/-- Delivers an entry and carries out the listener's answer. -/
def deliver (s : Session) (play : Play) (entry : Entry) : Session :=
  (s.record (.shown (.play play.number) entry s.clock.now)).controls (play.answers entry.index)

/-- Delivers the entry at a place and moves the cursor behind it, unless the listener's answer has
taken playback over. -/
def present (s : Session) (play : Play) (place : Fin play.timeline.length) : Session :=
  let s := s.deliver play play.timeline[place]
  if s.player.generation = play.generation then
    s.record (.moved play.number (place + 1) s.clock.now)
  else s

def suspend (s : Session) (w : Suspended) : Session := { s with suspended := s.suspended ++ [w] }

@[simp] theorem player_record (s : Session) (event : Event) :
    (s.record event).player = event.apply s.player := rfl

@[simp] theorem history_record (s : Session) (event : Event) :
    (s.record event).history = event :: s.history := rfl

@[simp] theorem suspended_finish (s : Session) (play : Play) (outcome : Outcome) :
    (s.finish play outcome).suspended = s.suspended := rfl

/-- A property that every event of a control keeps. How many skips are under way is counted: within
a skip there may be others, and each comes to its end. -/
structure ControlInvariant (P : Nat → Session → Prop) : Prop where
  controlled : ∀ k s c, P k s → P (k + c.skips) (s.record (.controlled c s.clock.now))
  shown : ∀ k s entry, P (k + 1) s → P (k + 1) (s.record (.shown .skip entry s.clock.now))
  skipped : ∀ k s, P (k + 1) s → P k (s.record (.skipped s.clock.now))

namespace ControlInvariant

variable {P : Nat → Session → Prop}

mutual

theorem control (hP : ControlInvariant P) : (c : Control) → ∀ {k s}, P k s → P k (s.control c)
  | .skip answers, k, s, hs => by
    rw [Session.control]
    refine hP.skipped k _ (List.foldlRecOn _ _ (hP.controlled k s (.skip answers) hs) ?_)
    exact fun s hs entry _ => controls hP (answers entry.index) (hP.shown k s entry hs)
  | .load elements, k, s, hs => hP.controlled k s (.load elements) hs
  | .pause, k, s, hs => hP.controlled k s .pause hs
  | .resume, k, s, hs => hP.controlled k s .resume hs
  | .stop, k, s, hs => hP.controlled k s .stop hs
  | .reset, k, s, hs => hP.controlled k s .reset hs

theorem controls (hP : ControlInvariant P) :
    (cs : List Control) → ∀ {k s}, P k s → P k (s.controls cs)
  | [], _, _, hs => hs
  | c :: cs, _, _, hs => controls hP cs (control hP c hs)

end

/-- A property that events of all kinds keep. -/
theorem of_record {P : Session → Prop} (h : ∀ s event, P s → P (s.record event)) :
    ControlInvariant fun _ => P :=
  ⟨fun _ s _ => h s _, fun _ s _ => h s _, fun _ s => h s _⟩

end ControlInvariant

section Frame

variable {α : Type} {f : Session → α}

/-- What no event changes, no control changes. -/
theorem frame_controls (hf : ∀ s event, f (record s event) = f s) (s : Session)
    (cs : List Control) : f (s.controls cs) = f s :=
  (ControlInvariant.of_record (P := (f · = f s)) fun _ _ h => (hf ..).trans h).controls cs
    (k := 0) rfl

theorem frame_deliver (hf : ∀ s event, f (record s event) = f s) (s : Session) (play : Play)
    (entry : Entry) : f (s.deliver play entry) = f s :=
  (frame_controls hf ..).trans (hf ..)

theorem frame_present (hf : ∀ s event, f (record s event) = f s) (s : Session) (play : Play)
    (place : Fin play.timeline.length) : f (s.present play place) = f s := by
  simp only [present]
  split
  · exact (hf ..).trans (frame_deliver hf ..)
  · exact frame_deliver hf ..

end Frame

@[simp] theorem suspended_control (s : Session) (c : Control) :
    (s.control c).suspended = s.suspended :=
  frame_controls (fun _ _ => rfl) s [c]

@[simp] theorem clock_control (s : Session) (c : Control) : (s.control c).clock = s.clock :=
  frame_controls (fun _ _ => rfl) s [c]

@[simp] theorem suspended_present (s : Session) (play : Play) (place : Fin play.timeline.length) :
    (s.present play place).suspended = s.suspended :=
  frame_present (fun _ _ => rfl) s play place

@[simp] theorem clock_present (s : Session) (play : Play) (place : Fin play.timeline.length) :
    (s.present play place).clock = s.clock :=
  frame_present (fun _ _ => rfl) s play place

/-- A play that is still in control after a delivery has moved the cursor behind its entry. -/
theorem cursor_present {s : Session} {play : Play} {place : Fin play.timeline.length}
    (h : (s.present play place).player.generation = play.generation) :
    (s.present play place).player.cursor = place + 1 := by
  simp only [present] at h ⊢
  split at h
  case isTrue hg => rw [if_pos hg]; rfl
  case isFalse hg => exact absurd h hg

/-- Lets a play go on with the entry at a place until it has to wait or ends. A stop in the last
delivery still counts. -/
def run (play : Play) (place : Nat) (s : Session) : Session :=
  if h : place < play.timeline.length then
    match s.player.interruption? play.generation with
    | some outcome => s.finish play outcome
    | none =>
      if s.player.state = .paused then s.suspend ⟨play, ⟨place, h⟩, .parked⟩
      else if 0 < play.timeline[place].wait.count then
        s.suspend ⟨play, ⟨place, h⟩, .waiting (s.clock.due play.timeline[place].wait)⟩
      else if _hg : (s.present play ⟨place, h⟩).player.generation = play.generation then
        run play (s.present play ⟨place, h⟩).player.cursor (s.present play ⟨place, h⟩)
      else (s.present play ⟨place, h⟩).finish play .superseded
  else s.finish play ((s.player.interruption? play.generation).getD .completed)
termination_by play.timeline.length - place
decreasing_by
  rw [cursor_present _hg]
  exact Nat.sub_succ_lt_self _ _ h

/-- Lets a play go on whose wait is over: a pause does not hold an entry once its wait began. -/
def wake (w : Suspended) (s : Session) : Session :=
  match s.player.interruption? w.play.generation with
  | some outcome => s.finish w.play outcome
  | none =>
    let s := s.present w.play w.place
    if s.player.generation = w.play.generation then run w.play s.player.cursor s
    else s.finish w.play .superseded

def play (s : Session) (answers : Nat → List Control) : Session :=
  let number := s.plays
  let s := { s.record (.began number s.clock.now) with plays := number + 1 }
  run ⟨number, s.player.generation, s.player.timeline, answers⟩ s.player.cursor s

/-- Gives a suspended play its turn after controls: it ends when it may not go on, and leaves
its place when the pause that held it is over. -/
def turn (s : Session) (w : Suspended) : Session :=
  match s.player.interruption? w.play.generation, w.hold with
  | some outcome, _ => s.finish w.play outcome
  | none, .parked => run w.play w.place s
  | none, .waiting _ => s.suspend w

/-- Gives every suspended play its turn, in the order of their numbers. -/
def settle (s : Session) : Session := s.suspended.foldl turn { s with suspended := [] }

/-- A run sets at most one play aside, and that play has no more entries left than the run. -/
theorem pending_run (play : Play) (place : Nat) (s : Session) :
    Suspended.pending (run play place s).suspended ≤
      Suspended.pending s.suspended + (play.timeline.length - place) := by
  induction place, s using run.induct play with
  | case1 place s h outcome hi => rw [run, dif_pos h, hi]; simp
  | case2 place s h hi hp => rw [run, dif_pos h, hi]; simp [hp, suspend, Suspended.pending]
  | case3 place s h hi hp hw =>
    rw [run, dif_pos h, hi]
    simp [hp, hw, suspend, Suspended.pending]
  | case4 place s h hi hp hw hg ih =>
    rw [run, dif_pos h, hi]
    simp only [hp, hw, hg, if_false, dif_pos]
    rw [cursor_present hg] at ih ⊢
    simp only [suspended_present] at ih ⊢
    omega
  | case5 place s h hi hp hw hg =>
    rw [run, dif_pos h, hi]
    simp [hp, hw, hg]
  | case6 place s h => rw [run, dif_neg h]; simp

theorem pending_wake (w : Suspended) (s : Session) :
    Suspended.pending (wake w s).suspended <
      Suspended.pending s.suspended + (w.play.timeline.length - w.place) := by
  have hw := w.place.isLt
  unfold wake
  split
  · simp only [suspended_finish]
    omega
  · simp only
    split
    case isTrue hg =>
      have hr := pending_run w.play (s.present w.play w.place).player.cursor
        (s.present w.play w.place)
      rw [cursor_present hg] at hr ⊢
      simp only [suspended_present] at hr
      omega
    case isFalse =>
      simp only [suspended_finish, suspended_present]
      omega

def nextDue? (s : Session) : Option Nat := (s.suspended.filterMap Suspended.due?).min?

/-- Moves the clock to a time, stopping on the way wherever a play's wait ends. -/
def advanceTo (target : Nat) (s : Session) : Session :=
  match s.nextDue? with
  | none => { s with clock := s.clock.moveTo target }
  | some due =>
    if target < due then { s with clock := s.clock.moveTo target }
    else
      match _h : s.suspended.dropWhile (·.due? ≠ some due) with
      | [] => { s with clock := s.clock.moveTo target }
      | w :: after =>
        let others := s.suspended.takeWhile (·.due? ≠ some due) ++ after
        advanceTo target (wake w { s with clock := s.clock.moveTo due, suspended := others })
termination_by Suspended.pending s.suspended
decreasing_by
  have hs : s.suspended = s.suspended.takeWhile (·.due? ≠ some due) ++ w :: after := by
    rw [← _h, List.takeWhile_append_dropWhile]
  have hp := congrArg Suspended.pending hs
  have hw := pending_wake w { s with clock := s.clock.moveTo due, suspended := others }
  simp only [Suspended.pending, List.flatMap_append, List.flatMap_cons, List.length_append,
    List.length_drop, others] at hp hw ⊢
  omega

def advance (s : Session) (duration : Nat) : Session := advanceTo (s.clock.now + duration) s

end Session

/-- What is done at one moment of a session: a control, or the start of a play. -/
inductive Action where
  | control (control : Control)
  | play (answers : Nat → List Control)

/-- A step of a session: actions in one moment, or the passing of time. -/
inductive SessionStep where
  | act (actions : List Action)
  | advance (duration : Nat)

namespace Session

/-- Carries out an action; the suspended plays do not get a turn yet. -/
def act (s : Session) : Action → Session
  | .control c => s.control c
  | .play answers => s.play answers

/-- Carries out a step and gives every suspended play its turn. -/
def step (s : Session) : SessionStep → Session
  | .act actions => (actions.foldl act s).settle
  | .advance duration => (s.advance duration).settle

end Session
end LessonScript
