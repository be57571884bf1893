import LessonScript.Decimal.Shortest
import LessonScript.Timeline

/-!
# The player

A player holds a timeline, a cursor that counts the entries delivered, and the state of its
playback. Its generation number tells plays apart: whatever takes playback over raises it, and
only a play of the current generation may go on.
-/

namespace LessonScript

inductive PlaybackState where
  | idle | playing | paused | completed | stopped
deriving DecidableEq, Repr

def PlaybackState.name : PlaybackState → String
  | .idle => "Idle"
  | .playing => "Playing"
  | .paused => "Paused"
  | .completed => "Completed"
  | .stopped => "Stopped"

/-- Whether playback goes on in a state, or will when a pause ends. -/
def PlaybackState.isActive : PlaybackState → Bool
  | .playing | .paused => true
  | .idle | .completed | .stopped => false

/-- How a play ended. -/
inductive Outcome where
  /-- Every entry that was left has been delivered. -/
  | completed
  /-- The player was stopped. -/
  | stopped
  /-- A newer play, a load, a reset or a skip took over. -/
  | superseded
deriving DecidableEq, Repr

def Outcome.name : Outcome → String
  | .completed => "Completed"
  | .stopped => "Stopped"
  | .superseded => "Superseded"

/-- A timeline and how far its playback has come. -/
structure Player where
  timing : Timing
  timeline : Timeline
  cursor : Nat
  generation : Nat
  state : PlaybackState

namespace Player

def idle (timing : Timing) : Player := ⟨timing, [], 0, 0, .idle⟩

/-- Takes playback over from every play, at a given cursor and state. -/
def supersede (p : Player) (state : PlaybackState) (cursor : Nat) : Player :=
  { p with generation := p.generation + 1, state := state, cursor := cursor }

/-- Loads the elements of a scene and rewinds. -/
def load (p : Player) (elements : List Element) : Player :=
  { p with timeline := .build p.timing elements }.supersede .idle 0

def reset (p : Player) : Player := p.supersede .idle 0

/-- Takes playback to the end of the timeline, where it stands until all is delivered. -/
def skip (p : Player) : Player := p.supersede .stopped p.timeline.length

def pause (p : Player) : Player :=
  if p.state = .playing then { p with state := .paused } else p

def resume (p : Player) : Player :=
  if p.state = .paused then { p with state := .playing } else p

/-- Stops playback, whatever its state. -/
def stop (p : Player) : Player := { p with state := .stopped }

def begin (p : Player) : Player :=
  { p with generation := p.generation + 1, state := .playing }

def moveTo (p : Player) (cursor : Nat) : Player := { p with cursor := cursor }

/-- The end of playback once all has been delivered. -/
def complete (p : Player) : Player := { p with state := .completed }

/-- Why a play of a generation may not go on, if it may not. -/
def interruption? (p : Player) (generation : Nat) : Option Outcome :=
  if p.generation ≠ generation then some .superseded
  else if p.state = .stopped then some .stopped
  else none

/-- The fraction of the timeline that has been delivered. An empty timeline is all delivered. -/
def progress (p : Player) : Rat :=
  if p.timeline.isEmpty then 1
  else (Nat.min p.cursor p.timeline.length : Rat) / (p.timeline.length : Rat)

def progressText (p : Player) : String :=
  let q := p.progress
  fixedText 6 (Float.ofInt q.num / Float.ofNat q.den)

@[simp] theorem isActive_pause (p : Player) : p.pause.state.isActive = p.state.isActive := by
  unfold pause
  split <;> simp_all [PlaybackState.isActive]

@[simp] theorem isActive_resume (p : Player) : p.resume.state.isActive = p.state.isActive := by
  unfold resume
  split <;> simp_all [PlaybackState.isActive]

theorem pause_eq_self {p : Player} (h : p.state.isActive = false) : p.pause = p :=
  if_neg fun hp => by simp [hp, PlaybackState.isActive] at h

theorem resume_eq_self {p : Player} (h : p.state.isActive = false) : p.resume = p :=
  if_neg fun hp => by simp [hp, PlaybackState.isActive] at h

end Player

/-- What a listener or a user may ask of a player. A skip has a listener of its own, which answers
the delivery of the element at a place with controls. -/
inductive Control where
  | load (elements : List Element)
  | pause
  | resume
  | stop
  | reset
  | skip (answers : Nat → List Control)

namespace Control

def apply : Control → Player → Player
  | .load elements, p => p.load elements
  | .pause, p => p.pause
  | .resume, p => p.resume
  | .stop, p => p.stop
  | .reset, p => p.reset
  | .skip _, p => p.skip

/-- Whether a control moves the cursor to an end of the timeline. -/
def rewinds : Control → Bool
  | .load _ | .reset | .skip _ => true
  | _ => false

/-- The number of skips that a control starts. -/
def skips : Control → Nat
  | .skip _ => 1
  | _ => 0

/-- A control takes playback over exactly when it moves the cursor to an end. -/
theorem generation_apply (control : Control) (p : Player) :
    (control.apply p).generation = p.generation + if control.rewinds then 1 else 0 := by
  cases control with
  | load | reset | skip | stop => rfl
  | pause => simp only [apply, Player.pause]; split <;> rfl
  | resume => simp only [apply, Player.resume]; split <;> rfl

end Control
end LessonScript
