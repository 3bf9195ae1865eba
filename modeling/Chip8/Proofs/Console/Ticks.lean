import Chip8.Proofs.Console.Ending
import Chip8.Proofs.Console.Independence
import Chip8.Proofs.Console.Tone
import Chip8.Proofs.Machine.Countdown

/-!
# The clock of the timers

A frame lets the timers tick once, after its steps and before it shows anything.  So a frame that
quits or fails on its way to the display has not ticked, and one that completes, or fails at the
display or the buzzer, has ticked once.  What a timer shows is then told by the countdown: the value
to which it was last set, less the ticks since.
-/

namespace Chip8

/-- A list of requests that ends in a tick is refused before it comes to the tick. -/
theorem Session.tick_not_mem_served {s : Session} {init : List Request} {fault : Fault}
    (hinit : .tick ∉ init) (h : (s.performAll (init ++ [.tick])).1 = some fault) :
    .tick ∉ s.machine.served (init ++ [.tick]) := by
  rw [performAll_append] at h
  cases hwork : s.performAll init with
  | mk refusal s' =>
    cases refusal with
    | none =>
      rw [hwork] at h
      cases h
    | some cause =>
      rw [served_append_of_refused (congrArg Prod.fst hwork)]
      exact fun hmem => hinit ((s.machine.served_prefix init).mem hmem)

namespace Console

variable {κ δ β : Type}

/-- How often the timers tick in a frame that ends like this. -/
def ticks : EStateM.Result Failure (Console κ δ β) Verdict → Nat
  | .ok .proceed _ | .error (.display _) _ | .error (.buzzer _) _ => 1
  | .ok .quit _ | .error (.keyboard _) _ | .error (.fault _) _ => 0

/-- The requests of a whole frame, if none is refused. -/
def wholeFrame (speed : Nat) (events : List KeyEvent) : List Request :=
  frameRequests speed events ++
    match KeyEvent.verdict events with
    | .quit => []
    | .proceed => [.takeRedraw]

/-- The requests that the next frame makes.  Its steps are counted out, since those of a waiting
machine do nothing. -/
def requestsMade [Keyboard κ] (c : Console κ δ β) : List Request :=
  match (Keyboard.read c.keyboard).events with
  | .error _ => []
  | .ok events => c.machine.served (wholeFrame c.speed events)

theorem turn_eq_performAll (s : Session) (speed : Nat) (events : List KeyEvent)
    (unmapped : List Char) :
    s.turn speed (.ok events) unmapped =
      ((s.hear unmapped).performAll (wholeFrame speed events)).2 := by
  rw [Session.turn, wholeFrame, Session.performAll_append]
  cases (s.hear unmapped).performAll (frameRequests speed events) with
  | mk refusal s' =>
    cases KeyEvent.verdict events with
    | quit | proceed => cases refusal <;> rfl

theorem machine_after_frame [Keyboard κ] [Display δ] [Buzzer β] (c : Console κ δ β) :
    (c.after frame).machine = c.machine.run c.requestsMade := by
  rw [machine, session_after_frame, requestsMade]
  cases (Keyboard.read c.keyboard).events with
  | error why => exact Session.machine_hear _ _
  | ok events =>
    rw [turn_eq_performAll, Session.machine_performAll, Session.machine_hear]
    rfl

/-! ## Counting the ticks -/

theorem tick_not_mem_requests (events : List KeyEvent) : .tick ∉ KeyEvent.requests events := by
  intro hkey
  obtain ⟨code, h | h | h⟩ := KeyEvent.exists_code_of_mem_requests hkey <;> cases h

theorem tick_not_mem_of_quit {speed : Nat} {events : List KeyEvent}
    (h : KeyEvent.verdict events = .quit) : .tick ∉ frameRequests speed events := by
  rw [frameRequests, h]
  simpa using tick_not_mem_requests events

/-- A frame that proceeds comes to its tick last. -/
theorem frameRequests_of_proceed (speed : Nat) {events : List KeyEvent}
    (h : KeyEvent.verdict events = .proceed) :
    ∃ init, .tick ∉ init ∧ frameRequests speed events = init ++ [.tick] := by
  refine ⟨KeyEvent.requests events ++ List.replicate speed .step, ?_, ?_⟩
  · simpa using tick_not_mem_requests events
  · rw [frameRequests, h, List.append_assoc]

/-- Requests of a frame that are refused are refused before the tick. -/
theorem tick_not_mem_of_refused {s : Session} {speed : Nat} {events : List KeyEvent}
    {fault : Fault} (h : (s.performAll (frameRequests speed events)).1 = some fault) :
    .tick ∉ s.machine.served (frameRequests speed events) := by
  cases hverdict : KeyEvent.verdict events with
  | quit =>
    exact fun hmem => tick_not_mem_of_quit hverdict ((s.machine.served_prefix _).mem hmem)
  | proceed =>
    obtain ⟨init, hinit, hrequests⟩ := frameRequests_of_proceed speed hverdict
    rw [hrequests] at h ⊢
    exact Session.tick_not_mem_served hinit h

theorem count_wholeFrame (speed : Nat) (events : List KeyEvent) :
    (wholeFrame speed events).count .tick =
      match KeyEvent.verdict events with
      | .quit => 0
      | .proceed => 1 := by
  rw [wholeFrame]
  cases hverdict : KeyEvent.verdict events with
  | quit => simpa using List.count_eq_zero.mpr (tick_not_mem_of_quit hverdict)
  | proceed =>
    obtain ⟨init, hinit, hrequests⟩ := frameRequests_of_proceed speed hverdict
    simp [hrequests, List.count_eq_zero.mpr hinit]

/-- Once a frame has come to the display, it can fail at its devices only. -/
theorem ticks_render [Display δ] [Buzzer β] (c : Console κ δ β) : ticks (render.run c) = 1 := by
  have htone (c : Console κ δ β) :
      ticks ((do followTone; pure .proceed : Action κ δ β Verdict).run c) = 1 := by
    rw [EStateM.run_bind, followTone, EStateM.run_bind, EStateM.run_get]
    dsimp only
    rw [run_setTone]
    obtain ⟨answer, buzzer⟩ := Buzzer.follow c.buzzer c.machine.toneOn
    cases answer <;> rfl
  rw [render, EStateM.run_bind, run_present]
  cases c.machine.redraw with
  | false => exact htone _
  | true =>
    rw [if_pos rfl, run_draw]
    obtain ⟨answer, display⟩ := Display.draw c.display _
    cases answer with
    | error why => rfl
    | ok => exact htone _

/-- A frame has made a tick if it came to the display, and none if it did not. -/
theorem count_requestsMade [Keyboard κ] [Display δ] [Buzzer β] (c : Console κ δ β) :
    c.requestsMade.count .tick = ticks (frame.run c) := by
  rw [requestsMade, run_frame, run_approach]
  cases (Keyboard.read c.keyboard).events with
  | error why => rfl
  | ok events =>
    have hlook : c.look.session.machine = c.machine := Session.machine_hear _ _
    dsimp only
    rw [← hlook]
    -- What the way to the display comes to decides both sides: how the frame ends and what it asks.
    cases hwork : c.look.session.performAll (frameRequests c.speed events) with
    | mk refusal session =>
      cases refusal with
      | some cause =>
        have hrefused := congrArg Prod.fst hwork
        rw [wholeFrame, Session.served_append_of_refused hrefused]
        exact List.count_eq_zero.mpr (tick_not_mem_of_refused hrefused)
      | none =>
        have hserved : c.look.session.machine.served (wholeFrame c.speed events) =
            wholeFrame c.speed events := by
          refine Session.served_of_performAll ?_
          rw [wholeFrame, Session.performAll_append, hwork]
          cases KeyEvent.verdict events <;> rfl
        rw [hserved, count_wholeFrame]
        cases KeyEvent.verdict events with
        | quit => rfl
        | proceed => exact (ticks_render _).symm

/-! ## The law of the timers -/

/-- At every point of a run a timer shows the value to which it was last set, less the ticks since
then; the tone is on for as long as the sound timer runs; and a frame ticks once, unless it quits or
fails before it comes to the display. -/
theorem timers_count_down [Keyboard κ] [Display δ] [Buzzer β] {program : List UInt8}
    {config : Config} {chance : RandomSource} {m : Machine}
    (hstart : Machine.start program config chance = .ok m) (requests : List Request) :
    let now := m.run requests
    (∀ timer, ∃ v t, m.LastSet timer requests v t) ∧
      (∀ timer v t, m.LastSet timer requests v t → now.timer timer = v - t) ∧
      (now.toneOn = true ↔ 0 < now.timer .sound) ∧
      (∀ w, now.state = .running → now.fetch = .ok w → w.Fits "FX07" →
        (now.perform .step).1 = .done ∧
          ((now.perform .step).2.get w.x).toNat = now.timer .delay) ∧
      ∀ c : Console κ δ β,
        (c.after frame).machine = c.machine.run c.requestsMade ∧
          c.requestsMade.count .tick = ticks (frame.run c) := by
  intro now
  refine ⟨fun timer => m.exists_lastSet timer requests, fun timer v t hset => ?_, ?_,
    fun w hstate hfetch hfits => Machine.get_after_loadDelay hstate hfetch hfits,
    fun c => ⟨machine_after_frame c, count_requestsMade c⟩⟩
  · exact Machine.timer_of_lastSet (Machine.timer_start hstart timer) hset
  · rw [Machine.toneOn_iff, UInt8.lt_iff_toNat_lt]
    rfl

/-- The session of a program that sets the delay timer to three and then reads it. -/
def timing : Session :=
  ⟨.loaded [0x60, 0x03, 0xF0, 0x15, 0xF1, 0x07] .standard (.ofSeed 1), #[.loaded 6]⟩

/-- Two ticks after it was set to three the delay timer shows one, which is what is read; the sound
timer, never set, is silent; and a frame without events ticks once. -/
theorem delay_read_after_two_ticks :
    let m := timing.machine
    let requests : List Request := [.step, .step, .tick, .tick]
    let c : Console Script Recorder Mute := ⟨timing, ⟨[]⟩, .fresh, .fresh, 1⟩
    m.LastSet .delay requests 3 2 ∧ m.LastSet .sound requests 0 2 ∧
      (m.run requests).timer .delay = 3 - 2 ∧ (m.run requests).timer .sound = 0 - 2 ∧
      ((m.run requests).toneOn = true ↔ 0 < (m.run requests).timer .sound) ∧
      (((m.run requests).perform .step).2.get 1).toNat = 1 ∧
      c.requestsMade.count .tick = 1 := by
  intro m requests c
  have hstart : Machine.start [0x60, 0x03, 0xF0, 0x15, 0xF1, 0x07] .standard (.ofSeed 1) = .ok m :=
    Machine.start_loaded (by decide) (by decide)
  obtain ⟨e, he⟩ : ∃ e, (m.run [.step]).executed .step = some e :=
    Option.isSome_iff_exists.mp (by decide +kernel)
  have hfound : e.machine = m.run [.step] := (Machine.perform_of_executed he).1
  have hset : e.Sets .delay := by
    rw [Execution.Sets, hfound]
    decide +kernel
  have hvalue : (e.machine.get e.machine.opcode.x).toNat = 3 := by
    rw [hfound]
    decide +kernel
  have hdelay : m.LastSet .delay requests 3 2 :=
    hvalue ▸ .set [.step] [.tick, .tick] e rfl he hset fun e' he' => nomatch he'
  have hsound : m.LastSet .sound requests 0 2 := by
    refine .never (show ∀ e ∈ m.executions requests, ¬ e.machine.opcode.Fits "FX18" from ?_)
    decide +kernel
  obtain ⟨-, hcounted, htone, hread, hframe⟩ :=
    timers_count_down hstart requests (κ := Script) (δ := Recorder) (β := Mute)
  have hnow := hcounted .delay 3 2 hdelay
  refine ⟨hdelay, hsound, hnow, hcounted .sound 0 2 hsound, htone, ?_, ?_⟩
  · have hread := hread 0xF107 (by decide +kernel) (by decide +kernel) (by decide)
    exact hread.2.trans hnow
  · rw [(hframe c).2]
    decide +kernel

end Console

end Chip8
