import LessonScript.Proofs.Playback.Oblivious
import LessonScript.Proofs.Playback.Pacing
import LessonScript.Proofs.Playback.StateMachine

/-!
# Pauses

A pause holds deliveries back and leaves waits as they are. The wait of an entry begins when the
play has a turn without a pause, and the entry comes when the wait is over, also if playback has
been paused meanwhile. So a pause lets at most one more entry through, a play that it has caught
before a wait delivers nothing, and a pause that is over before the wait makes no difference.
-/

namespace LessonScript

namespace Player

lemma pause_eq (p : Player) : p.pause = { p with state := p.pause.state } := by
  unfold pause
  split <;> rfl

lemma resume_eq (p : Player) : p.resume = { p with state := p.resume.state } := by
  unfold resume
  split <;> rfl

lemma interruption?_pause (p : Player) (generation : Nat) :
    p.pause.interruption? generation = p.interruption? generation := by
  unfold pause
  split <;> simp [interruption?, *]

lemma interruption?_resume (p : Player) (generation : Nat) :
    p.resume.interruption? generation = p.interruption? generation := by
  unfold resume
  split <;> simp [interruption?, *]

end Player

namespace History

variable {timing : Timing} {n : Nat} {later mid past : History}

/-- Only a resume or a new play sets playback going. -/
lemma playing_of_apply {e : Event} {p : Player} (he : (e.apply p).state = .playing) :
    p.state = .playing ∨ (∃ t, e = .controlled .resume t) ∨ e.takesOver = true := by
  cases e with
  | controlled c t =>
    cases c with
    | load | reset | skip | stop => cases he
    | pause =>
      refine .inl ?_
      simp only [Event.apply, Control.apply, Player.pause] at he
      split at he
      · cases he
      · exact he
    | resume => exact .inr (.inl ⟨t, rfl⟩)
  | began => exact .inr (.inr rfl)
  | skipped => cases he
  | shown => exact .inl he
  | moved => exact .inl he
  | ended m o =>
    cases o with
    | completed => cases he
    | stopped | superseded => exact .inl he

/-- A pause lasts until it is ended, as long as nothing stops the play or takes it over. -/
lemma Lawful.paused_of_append (hl : Lawful timing (mid ++ past))
    (hp : (player timing past).state = .paused) (hb : past.any (·.begins n) = true)
    (hno : ∀ t, .controlled .resume t ∉ mid) (hr : running n (mid ++ past) = true)
    (hv : verdict n (mid ++ past) = .completed) :
    (player timing (mid ++ past)).state = .paused := by
  induction mid with
  | nil => exact hp
  | cons e mid ih =>
    obtain ⟨hr', hv'⟩ := @running_of_append timing n [e] (mid ++ past) hl (by simp [hb]) hr hv
    obtain ⟨hto, hs⟩ := verdict_eq_completed.1 hv
    have hst := (hl.state_of_live ⟨hr, hto⟩).1
    rw [hs, Bool.not_false, PlaybackState.isActive_iff] at hst
    have hpaused := ih hl.uncons.1 (fun t ht => hno t (List.mem_cons_of_mem _ ht)) hr' hv'
    refine hst.resolve_left fun hplaying => ?_
    rcases playing_of_apply hplaying with hplay | ⟨t, rfl⟩ | htake
    · exact absurd (hpaused.symm.trans hplay) (by nofun)
    · exact hno t List.mem_cons_self
    · have hbe := hl.uncons.1.not_begins hl.uncons.2 (begun_of_running hr')
      rw [List.cons_append, takenOver_cons hbe, htake] at hto
      cases hto

/-- If a play does nothing before a delivery, it delivers at most once. -/
lemma length_deliveries_own_le
    (h : ∀ mid₁ entry t mid₂, mid = mid₁ ++ .shown (.play n) entry t :: mid₂ → own n mid₂ = []) :
    (deliveries (own n mid)).length ≤ 1 := by
  induction mid with
  | nil => exact Nat.zero_le _
  | cons e mid ih =>
    have ih := ih fun mid₁ entry t mid₂ heq => h (e :: mid₁) entry t mid₂ (by rw [heq]; rfl)
    by_cases hp : e.play? = some n
    · rw [own_cons, if_pos hp, deliveries_cons]
      cases e with
      | shown deliverer entry t =>
        cases deliverer with
        | skip => cases hp
        | play m =>
          cases hp
          rw [h [] entry t mid rfl]
          exact Nat.le_refl _
      | _ => simpa [Event.delivery?] using ih
    · rwa [own_cons, if_neg hp]

end History

namespace Session
open History

variable {timing : Timing} {rounds : List Moment} {s : Session} {w : Suspended} {n : Nat}

/-! ### What a pause lets through -/

/-- What comes during a pause has been waited for since before the pause. -/
lemma Paced.before_pause {entry : Entry} {t : Nat} {mid past : History}
    (hp : Paced timing rounds s) (hl : Lawful timing s.history)
    (hs : .shown (.play n) entry t :: (mid ++ past) <:+ s.history)
    (hst : (History.player timing past).state = .paused) (hr : running n past = true)
    (hno : ∀ t, .controlled .resume t ∉ mid) :
    own n mid = [] ∧ ∃ m, IsLeast (openTurns timing rounds n s.history (own n past)) m ∧
      m.past <:+ past ∧ t = m.time + s.clock.lasting entry.wait := by
  obtain ⟨m, hm, ht⟩ := hp.delivered n entry t _ hs
  have hle : m.past <:+ s.history := (hp.le_moment hm.1.1).1.1
  have hmid : m.past <:+ mid ++ past := by
    have hlate : ¬.shown (.play n) entry t :: (mid ++ past) <:+ m.past := fun hs => by
      have := (own_suffix (n := n) hs).length_le
      simp [hm.1.2.1, own_cons, Event.play?] at this
    rcases List.suffix_cons_iff.1 ((List.suffix_or_suffix_of_suffix hle hs).resolve_right hlate)
      with heq | hmid
    · exact absurd (heq ▸ List.suffix_rfl) hlate
    · exact hmid
  have hpast : m.past <:+ past := by
    -- a turn between the pause and the delivery falls into the pause
    by_contra hnot
    obtain ⟨b, hb⟩ := (List.suffix_or_suffix_of_suffix hmid
      (List.suffix_append ..)).resolve_left hnot
    obtain ⟨a, ha⟩ := hmid
    obtain ⟨later, hlater⟩ := hs
    rw [← hlater] at hl
    obtain ⟨hl, hf⟩ := hl.tail.uncons
    cases hf with
    | shown _ _ _ hrun _ hto hstop =>
      have hbegun : past.any (·.begins n) = true := begun_of_running hr
      rw [← hb, ← List.append_assoc] at ha
      obtain rfl : a ++ b = mid := List.append_cancel_right ha
      rw [List.append_assoc] at hl hrun hto hstop
      obtain ⟨hrun, hv⟩ := hl.running_of_append (by simp [hbegun]) hrun
        (verdict_eq_completed.2 ⟨hto, hstop⟩)
      refine hm.1.2.2 (hb ▸ hl.tail.paused_of_append hst hbegun ?_ hrun hv)
      exact fun t ht => hno t (List.mem_append_right _ ht)
  have hown : own n mid = [] := by
    have := (own_suffix (n := n) hpast).length_le
    rw [hm.1.2.1, own_append, List.length_append] at this
    exact List.eq_nil_of_length_eq_zero (by omega)
  rw [own_append, hown, List.nil_append] at hm
  exact ⟨hown, m, hm, hpast, ht⟩

/-! ### Pauses inside a wait -/

lemma control_of_pause {c : Control} (hc : c = .pause ∨ c = .resume) (s : Session) :
    ∃ state, s.control c = { s with
        player := { s.player with state := state }
        history := .controlled c s.clock.now :: s.history } ∧
      ∀ g, (s.control c).player.interruption? g = s.player.interruption? g := by
  rcases hc with rfl | rfl
  · exact ⟨_, by rw [← Player.pause_eq]; rfl, s.player.interruption?_pause⟩
  · exact ⟨_, by rw [← Player.resume_eq]; rfl, s.player.interruption?_resume⟩

/-- A session has gone on to a time with nothing but pauses and resumes. -/
def Idled (time : Nat) (s s' : Session) : Prop :=
  ∃ state pauses, (∀ e ∈ pauses, e.play? = none ∧ e.delivery? = none) ∧
    s' = { s with
      player := { s.player with state := state }
      clock := s.clock.moveTo time
      history := pauses ++ s.history }

variable {s' s'' : Session} {time time' : Nat}

lemma Idled.trans (h : Idled time s s') (h' : Idled time' s' s'') : Idled time' s s'' := by
  obtain ⟨state, pauses, hp, rfl⟩ := h
  obtain ⟨state', pauses', hp', rfl⟩ := h'
  refine ⟨state', pauses' ++ pauses, fun e he => ?_, by rw [List.append_assoc]; rfl⟩
  exact (List.mem_append.1 he).elim (hp' e) (hp e)

lemma idled_controls {cs : List Control} (hc : ∀ c ∈ cs, c = .pause ∨ c = .resume)
    (s : Session) : Idled s.clock.now s (s.controls cs) ∧
      ∀ g, (s.controls cs).player.interruption? g = s.player.interruption? g := by
  induction cs generalizing s with
  | nil => exact ⟨⟨s.player.state, [], by simp, rfl⟩, fun _ => rfl⟩
  | cons c cs ih =>
    obtain ⟨state, heq, hi⟩ := control_of_pause (hc c List.mem_cons_self) s
    obtain ⟨hid, hi'⟩ := ih (fun c' hc' => hc c' (List.mem_cons_of_mem _ hc')) (s.control c)
    have hfirst : Idled s.clock.now s (s.control c) :=
      ⟨state, [.controlled c s.clock.now], by simp [Event.play?, Event.delivery?], heq⟩
    rw [clock_control] at hid
    exact ⟨hfirst.trans hid, fun g => (hi' g).trans (hi g)⟩

lemma foldl_act_control (s : Session) (cs : List Control) :
    (cs.map Action.control).foldl act s = s.controls cs := by
  induction cs generalizing s with
  | nil => rfl
  | cons c cs ih => exact ih (s.control c)

end Session

/-- A step in which nothing is done but to pause and to resume. -/
inductive SessionStep.Idle : SessionStep → Prop
  | act (controls : List Control) (hc : ∀ c ∈ controls, c = .pause ∨ c = .resume) :
      Idle (.act (controls.map .control))
  | advance (duration : Nat) : Idle (.advance duration)

namespace Session
open History

variable {timing : Timing} {rounds : List Moment} {s : Session} {w : Suspended} {n due : Nat}

lemma advanceTo_of_late {target : Nat}
    (hlate : ∀ w ∈ s.suspended, ∀ due, w.hold = .waiting due → target < due) :
    advanceTo target s = { s with clock := s.clock.moveTo target } := by
  rw [advanceTo]
  split
  case h_1 => rfl
  case h_2 due hdue =>
    obtain ⟨w, hw, hwait⟩ := List.mem_filterMap.1 (List.min?_mem hdue)
    have hhold : w.hold = .waiting due := by
      cases hh : w.hold with
      | parked => simp [Suspended.due?, hh] at hwait
      | waiting due' => simpa [Suspended.due?, hh] using hwait
    exact if_pos (hlate w hw due hhold)

/-- Where no wait ends, only the clock moves. -/
lemma Settled.step_advance (duration : Nat) (hs : Settled timing s)
    (hlate : ∀ w ∈ s.suspended, ∀ due, w.hold = .waiting due → s.clock.now + duration < due) :
    s.step (.advance duration) =
      { s with clock := s.clock.moveTo (s.clock.now + duration) } := by
  rw [Session.step, advance, advanceTo_of_late hlate,
    (hs.moveTo (Nat.le_add_right ..) hlate).settle_eq]

lemma Settled.step_advance_waiting (duration : Nat) (hs : Settled timing s)
    (hw : s.suspended = [w]) (hh : w.hold = .waiting due) (hlt : s.clock.now + duration < due) :
    s.step (.advance duration) =
      { s with clock := s.clock.moveTo (s.clock.now + duration) } :=
  hs.step_advance duration (by simp [hw, hh, hlt])

/-- A step that is over before the wait leaves the play waiting. -/
lemma Settled.idle_step {st : SessionStep} (hs : Settled timing s) (hw : s.suspended = [w])
    (hh : w.hold = .waiting due) (hst : st.Idle) (hlt : s.clock.now + st.duration < due) :
    Idled (s.clock.now + st.duration) s (s.step st) := by
  cases hst with
  | advance duration =>
    rw [hs.step_advance_waiting duration hw hh hlt]
    exact ⟨s.player.state, [], by simp, rfl⟩
  | act cs hc =>
    obtain ⟨hid, hi⟩ := idled_controls hc s
    have hsound := (hs.sound.acts (cs.map .control)).1
    rw [foldl_act_control] at hsound
    have hsusp : (s.controls cs).suspended = [w] := by
      obtain ⟨_, _, _, heq⟩ := hid
      rw [heq]
      exact hw
    have hd : During timing [w.task] none (s.controls cs) := by
      have := hsound.during
      rwa [hsusp] at this
    have hset : Settled timing (s.controls cs) := by
      refine ⟨hsound.during, fun v hv => ⟨?_, ?_, hsound.timed v hv⟩⟩ <;>
        rw [hsusp, List.mem_singleton] at hv <;> subst hv
      · exact hd.verdict ((hi _).trans (hs.interruption? hw))
      · intro hpark
        rw [hh] at hpark
        cases hpark
    rw [Session.step, foldl_act_control, hset.settle_eq]
    exact hid

lemma Settled.idle_steps {steps : List SessionStep} (hs : Settled timing s)
    (hw : s.suspended = [w]) (hh : w.hold = .waiting due) (hsteps : ∀ st ∈ steps, st.Idle)
    (hlt : s.clock.now + (steps.map SessionStep.duration).sum < due) :
    Idled (s.clock.now + (steps.map SessionStep.duration).sum) s (steps.foldl Session.step s) := by
  induction steps generalizing s with
  | nil => exact ⟨s.player.state, [], by simp, rfl⟩
  | cons st steps ih =>
    rw [List.map_cons, List.sum_cons, ← Nat.add_assoc] at hlt ⊢
    have hid := hs.idle_step hw hh (hsteps st List.mem_cons_self) (by omega)
    obtain ⟨hset, hclock⟩ := hs.step st
    have hsusp : (s.step st).suspended = [w] := by
      obtain ⟨_, _, _, heq⟩ := hid
      rw [heq]
      exact hw
    have hnow : (s.step st).clock.now = s.clock.now + st.duration := by
      rw [hclock]
      rfl
    rw [← hnow] at hlt ⊢
    exact hid.trans (ih hset hsusp (fun st' hst => hsteps st' (List.mem_cons_of_mem _ hst)) hlt)

/-- Two sessions that have come to the same: each play has done the same at the same times. -/
structure SameCourse (t t' : Session) : Prop where
  rest : t = { t' with history := t.history }
  acts : ∀ n, own n t.history = own n t'.history
  delivered : deliveries t.history = deliveries t'.history

/-- Pauses that are over again before the wait have no consequences. -/
lemma Idled.sameCourse {s' s'' : Session} {time : Nat} (h : Idled time s s') (h' : Idled time s s'')
    (hst : s'.player.state = s''.player.state) (steps : List SessionStep) :
    SameCourse (steps.foldl step s') (steps.foldl step s'') := by
  obtain ⟨state, pauses, hp, rfl⟩ := h
  obtain ⟨_, pauses', hp', rfl⟩ := h'
  obtain rfl : state = _ := hst
  have silent : ∀ {pauses : History} (past : History),
      (∀ e ∈ pauses, e.play? = none ∧ e.delivery? = none) →
      (∀ n, own n (pauses ++ past) = own n past) ∧
        deliveries (pauses ++ past) = deliveries past := by
    intro pauses past hp
    have hown : ∀ n, own n pauses = [] := fun n =>
      List.filter_eq_nil_iff.2 fun e he => by simp [(hp e he).1]
    have hdel : deliveries pauses = [] := by
      rw [deliveries, List.filterMap_eq_nil_iff.2 fun e he => (hp e he).2, List.reverse_nil]
    refine ⟨fun n => ?_, ?_⟩
    · rw [own_append, hown, List.nil_append]
    · rw [deliveries_append, hdel, List.append_nil]
  obtain ⟨hown, hdel⟩ := silent s.history hp
  obtain ⟨hown', hdel'⟩ := silent s.history hp'
  have resume : ∀ past : History, { s with
      player := { s.player with state := state }
      clock := s.clock.moveTo time
      history := past } = onTop past { s with
        player := { s.player with state := state }
        clock := s.clock.moveTo time
        history := [] } := fun _ => rfl
  rw [resume (pauses ++ s.history), resume (pauses' ++ s.history), onTop_steps, onTop_steps]
  refine ⟨rfl, fun n => ?_, ?_⟩
  · simp only [onTop, own_append _ (pauses ++ s.history), own_append _ (pauses' ++ s.history),
      hown, hown']
  · simp only [onTop, deliveries_append _ (pauses ++ s.history),
      deliveries_append _ (pauses' ++ s.history), hdel, hdel']

/-! ### Punctual sessions -/

/-- The times at which plays deliver, and what pauses do to them. -/
structure Punctual (timing : Timing) (rounds : List Moment) (s : Session) : Prop where
  /-- The wait of an entry begins at the first turn since the play last acted at which playback is
  not paused, and the entry comes when the wait is over. -/
  delivered : ∀ n entry t past, .shown (.play n) entry t :: past <:+ s.history →
    ∃ m, IsLeast (openTurns timing rounds n s.history (own n past)) m ∧
      (∀ e ∈ own n past, e.time ≤ m.time) ∧ t = m.time + entry.wait.count
  /-- A play under way waits for the entry at the cursor: all its turns since it last acted fell
  into pauses, or the wait began at the first that did not, and is not over. -/
  awaited : ∀ n, running n s.history = true →
    ∃ entry, s.player.timeline[s.player.cursor]? = some entry ∧
      (openTurns timing rounds n s.history (own n s.history) = ∅ ∨
        ∃ m, IsLeast (openTurns timing rounds n s.history (own n s.history)) m ∧
          s.clock.now ≤ m.time + entry.wait.count ∧
          (0 < entry.wait.count → s.clock.now < m.time + entry.wait.count))
  /-- Until a pause is ended a play delivers at most one entry, whose wait had begun before. -/
  paused : ∀ n later mid past, s.history = later ++ (mid ++ past) →
    (History.player timing past).state = .paused → running n past = true →
    (∀ t, .controlled .resume t ∉ mid) →
      (deliveries (own n mid)).length ≤ 1 ∧
        ∀ mid₁ entry t mid₂, mid = mid₁ ++ .shown (.play n) entry t :: mid₂ →
          ∃ m, IsLeast (openTurns timing rounds n s.history (own n past)) m ∧
            m.past <:+ past ∧ t = m.time + entry.wait.count
  /-- However far the clock moves, nothing happens while the play is parked. -/
  parked : ∀ n (durations : List Nat), running n s.history = true →
    openTurns timing rounds n s.history (own n s.history) = ∅ →
      (durations.map SessionStep.advance).foldl step s =
        { s with clock := s.clock.moveTo (s.clock.now + durations.sum) }
  /-- Pauses that are over again before the wait make no difference to what comes. -/
  undisturbed : ∀ n m entry (inside steps : List SessionStep), running n s.history = true →
    IsLeast (openTurns timing rounds n s.history (own n s.history)) m →
    s.player.timeline[s.player.cursor]? = some entry → (∀ st ∈ inside, st.Idle) →
    s.clock.now + (inside.map SessionStep.duration).sum <
      m.time + entry.wait.count →
    (inside.foldl step s).player.state = s.player.state →
      SameCourse ((inside ++ steps).foldl step s)
        ((.advance (inside.map SessionStep.duration).sum :: steps).foldl step s)

/-- The one play under way is the one that is suspended. -/
lemma Settled.exists_suspended (hs : Settled timing s) (hn : running n s.history = true) :
    ∃ w, s.suspended = [w] ∧ w.play.number = n := by
  obtain ⟨w, hw, hnum⟩ := (hs.atRest.running_iff n).1 hn
  obtain hnil | ⟨v, hsusp⟩ := hs.suspended_cases
  · simp [hnil] at hw
  · rw [hsusp, List.mem_singleton] at hw
    exact ⟨v, hsusp, hw ▸ hnum⟩

lemma Settled.advances_parked (hs : Settled timing s) (hw : s.suspended = [w])
    (hp : w.hold = .parked) (durations : List Nat) :
    (durations.map SessionStep.advance).foldl Session.step s =
      { s with clock := s.clock.moveTo (s.clock.now + durations.sum) } := by
  induction durations generalizing s with
  | nil => rfl
  | cons duration durations ih =>
    have hlate : ∀ v ∈ s.suspended, ∀ due, v.hold = .waiting due →
        s.clock.now + duration < due := by simp [hw, hp]
    have hset := hs.moveTo (Nat.le_add_right ..) hlate
    have hstep := hs.step_advance duration hlate
    rw [List.map_cons, List.foldl_cons, hstep, ih hset hw, List.sum_cons, ← Nat.add_assoc]
    rfl

/-- On a clock that times every wait to its end, deliveries are on time. -/
theorem Holding.punctual (hs : Settled timing s) (hh : Holding timing rounds s)
    (hx : s.clock.longestWait = none) : Punctual timing rounds s where
  delivered n entry t past hsh := by
    obtain ⟨m, hm, ht⟩ := hh.paced.delivered n entry t past hsh
    rw [Clock.lasting_of_unbounded hx] at ht
    refine ⟨m, hm, fun e he => (hh.paced.le_moment hm.1.1).2 e ?_, ht⟩
    rw [← hm.1.2.1] at he
    exact (List.mem_filter.1 he).1
  awaited n hn := by
    obtain ⟨w, hw, rfl⟩ := hs.exists_suspended hn
    have hmem : w ∈ s.suspended := by simp [hw]
    obtain ⟨-, -, -, hnext, -⟩ := hs.atRest.suspended w hmem
    refine ⟨w.next, hnext, ?_⟩
    cases hh.held w hmem with
    | parked _ hno => exact .inl hno
    | waiting m hm hwait hlt =>
      have hle := ((hs.standing w hmem).timed _ hwait).1
      rw [Clock.lasting_of_unbounded hx] at hlt hle
      exact .inr ⟨m, hm, hle, by omega⟩
  paused n later mid past h hst hr hno := by
    have hlaw := hs.during.1.lawful
    have before : ∀ mid₁ entry t mid₂, mid = mid₁ ++ .shown (.play n) entry t :: mid₂ →
        own n mid₂ = [] ∧ ∃ m, IsLeast (openTurns timing rounds n s.history (own n past)) m ∧
          m.past <:+ past ∧ t = m.time + entry.wait.count := by
      rintro mid₁ entry t mid₂ rfl
      rw [← Clock.lasting_of_unbounded hx entry.wait]
      refine hh.paced.before_pause hlaw ⟨later ++ mid₁, by simp [h]⟩ hst hr fun t ht => ?_
      exact hno t (List.mem_append_right _ (List.mem_cons_of_mem _ ht))
    exact ⟨length_deliveries_own_le fun mid₁ entry t mid₂ heq => (before _ _ _ _ heq).1,
      fun mid₁ entry t mid₂ heq => (before _ _ _ _ heq).2⟩
  parked n durations hn hno := by
    obtain ⟨w, hw, rfl⟩ := hs.exists_suspended hn
    cases hh.held w (by simp [hw]) with
    | parked hp _ => exact hs.advances_parked hw hp durations
    | waiting m hm => exact absurd hm.1 (by simp [hno])
  undisturbed n m entry inside steps hn hm he hidle hlt hst := by
    obtain ⟨w, hw, rfl⟩ := hs.exists_suspended hn
    have hmem : w ∈ s.suspended := by simp [hw]
    obtain ⟨-, -, -, hnext, -⟩ := hs.atRest.suspended w hmem
    obtain rfl : w.next = entry := by simpa [hnext] using he
    cases hh.held w hmem with
    | parked _ hno => exact absurd hm.1 (by simp [hno])
    | waiting m' hm' hwait =>
      have htime : m.time ≤ m'.time := (hm.2 hm'.1).2
      rw [Clock.lasting_of_unbounded hx] at hwait
      have hin := hs.idle_steps hw hwait hidle (by omega)
      have hone := hs.step_advance_waiting (inside.map SessionStep.duration).sum hw hwait
        (by omega)
      rw [List.foldl_append, List.foldl_cons, hone]
      exact hin.sameCourse ⟨s.player.state, [], by simp, rfl⟩ hst steps

/-- However a session goes, its deliveries are on time, and pauses hold them back without
distorting their waits. -/
theorem punctual_after (timing : Timing) (steps : List SessionStep) :
    Punctual timing (Session.rounds (start timing .exact) steps) (after timing .exact steps) := by
  obtain ⟨hset, hclock⟩ := settled_after timing .exact steps
  exact (holding_after timing .exact steps).punctual hset (by rw [hclock]; rfl)

/-- A pause lets the entry through whose wait had begun. The next one waits from the resume on. -/
example : (deliveries (after {} .exact [
    .act [.control (.load [.text [], .text [], .text []])],
    .act [.play fun _ => []],
    .act [.control .pause],
    .advance 10000,
    .act [.control .resume],
    .advance 10000]).history).map Prod.snd = [0, 500, 10500] := by cbv

end Session
end LessonScript
