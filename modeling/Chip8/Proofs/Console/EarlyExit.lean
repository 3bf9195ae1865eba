import Chip8.Proofs.Console.Buzzer
import Chip8.Proofs.Console.KeyEvents
import Chip8.Proofs.Console.Shown
import Chip8.Proofs.Machine.Halting

/-!
# Leaving the steps of a frame early

A frame that finds its machine waiting takes no more steps.  It would make no difference if it did:
a frame that always takes all of them has the same result and leaves the same console.  A step that
is refused ends either frame, before the tick, and neither the display nor the buzzer is called.
-/

namespace Chip8

namespace Machine

variable {m : Machine}

theorem reply_step_of_ok (h : m.step.1 = .ok ()) : (m.perform .step).1 = .done := by
  have hstep : m.step = (.ok (), m.step.2) := Prod.ext h rfl
  rw [perform, hstep]

theorem perform_step_of_refused {fault : Fault} (h : m.step.1 = .error fault) :
    m.perform .step = (.refused fault, { m with state := .halted }) := by
  rw [perform, step_of_refused h]

end Machine

namespace Session

variable {s : Session} {r : Request} {fault : Fault}

theorem performAll_cons_of_done (h : (s.machine.perform r).1 = .done) (rs : List Request) :
    s.performAll (r :: rs) = (s.perform r).2.performAll rs := by
  have hperform : s.perform r = (.done, (s.perform r).2) := Prod.ext h rfl
  rw [performAll, hperform]

theorem performAll_cons_of_refused (h : (s.machine.perform r).1 = .refused fault)
    (rs : List Request) : s.performAll (r :: rs) = (some fault, (s.perform r).2) := by
  have hperform : s.perform r = (.refused fault, (s.perform r).2) := Prod.ext h rfl
  rw [performAll, hperform]

/-- Steps are taken until one of them is refused, and that one halts the machine. -/
theorem performAll_steps_of_refused {speed k : Nat} (hk : k < speed)
    (htaken : ∀ j < k, (s.machine.run (List.replicate j .step)).step.1 = .ok ())
    (hrefused : (s.machine.run (List.replicate k .step)).step.1 = .error fault) :
    ∃ session, s.performAll (List.replicate speed .step) = (some fault, session) ∧
      session.machine =
        { s.machine.run (List.replicate k .step) with state := .halted } := by
  induction speed generalizing s k with
  | zero => cases hk
  | succ speed ih =>
    rw [List.replicate_succ]
    cases k with
    | zero =>
      have hperform := Machine.perform_step_of_refused hrefused
      refine ⟨(s.perform .step).2, ?_, ?_⟩
      · exact performAll_cons_of_refused (congrArg Prod.fst hperform) _
      · exact congrArg Prod.snd hperform
    | succ k =>
      have hfirst := Machine.reply_step_of_ok (htaken 0 (Nat.succ_pos k))
      rw [performAll_cons_of_done hfirst]
      -- the steps that are left start from the machine after the first
      exact ih (s := (s.perform .step).2) (Nat.lt_of_succ_lt_succ hk)
        (fun j hj => htaken (j + 1) (Nat.succ_lt_succ hj)) hrefused

end Session

namespace Console

variable {κ δ β : Type}

/-- The part of a frame that follows the events, with all the steps that the speed allows. -/
def emulateAll [Display δ] [Buzzer β] : Action κ δ β Unit := do
  requestAll (List.replicate (← get).speed .step)
  let _ ← request .tick
  present
  followTone

/-- A frame that does not look whether the machine waits. -/
def fullFrame [Keyboard κ] [Display δ] [Buzzer β] : Action κ δ β Verdict := do
  let events ← readEvents
  match ← handle events with
  | .quit => pure .quit
  | .proceed =>
    emulateAll
    pure .proceed

/-! ## The same frame -/

theorem takeSteps_eq (n : Nat) :
    (takeSteps n : Action κ δ β Unit) = requestAll (List.replicate n .step) := by
  funext c
  exact run_takeSteps n c

theorem emulate_eq [Display δ] [Buzzer β] : (emulate : Action κ δ β Unit) = emulateAll := by
  simp only [emulate, emulateAll, takeSteps_eq]

theorem frame_eq_fullFrame [Keyboard κ] [Display δ] [Buzzer β] :
    (frame : Action κ δ β Verdict) = fullFrame := by
  unfold frame fullFrame
  apply bind_congr
  intro events
  apply bind_congr
  intro verdict
  cases verdict with
  | quit => rfl
  | proceed =>
    dsimp only
    rw [emulate_eq]

/-! ## A refused step -/

theorem frame_eq_listen [Keyboard κ] [Display δ] [Buzzer β] :
    (frame : Action κ δ β Verdict) =
      (do match ← listen with
          | .quit => pure .quit
          | .proceed =>
            emulate
            pure .proceed) := by
  rw [listen, bind_assoc]
  rfl

/-- The events change nothing besides the session and the keyboard. -/
theorem run_listen_ok [Keyboard κ] {c c₁ : Console κ δ β} {verdict : Verdict}
    (h : listen.run c = .ok verdict c₁) :
    ∃ session, c₁ =
      { c with session, keyboard := (Keyboard.read c.keyboard).keyboard } := by
  rw [listen, EStateM.run_bind, run_readEvents] at h
  cases hevents : (Keyboard.read c.keyboard).events with
  | error why =>
    rw [hevents] at h
    cases h
  | ok events =>
    rw [hevents] at h
    dsimp only at h
    rw [handle_eq, EStateM.run_bind, run_requestAll] at h
    cases hwork : c.look.session.performAll (KeyEvent.requests events) with
    | mk fault session =>
      rw [hwork] at h
      cases fault with
      | some cause => cases h
      | none =>
        cases h
        exact ⟨session, rfl⟩

theorem run_emulate_of_refused [Display δ] [Buzzer β] {c : Console κ δ β} {fault : Fault}
    {session : Session}
    (h : c.session.performAll (List.replicate c.speed .step) = (some fault, session)) :
    emulate.run c = .error (.fault fault) { c with session } := by
  rw [emulate, EStateM.run_bind, EStateM.run_get]
  dsimp only
  rw [EStateM.run_bind, run_takeSteps, run_requestAll, h]
  rfl

/-- A frame is the same, with the same console after it, as one that takes all its steps.  If one
of the steps is refused, the frame fails there: the machine is as the steps before have left it, but
halted, and whatever display and buzzer there are, they stay as they are. -/
theorem early_exit_unobservable [Keyboard κ] (c : Console κ δ β) :
    (∀ [Display δ] [Buzzer β], frame.run c = fullFrame.run c) ∧
      ∀ c₁ k fault, listen.run c = .ok .proceed c₁ → k < c.speed →
        (∀ j < k, (c₁.machine.run (List.replicate j .step)).step.1 = .ok ()) →
        (c₁.machine.run (List.replicate k .step)).step.1 = .error fault →
        ∃ session,
          session.machine =
              { c₁.machine.run (List.replicate k .step) with state := .halted } ∧
            ∀ [Display δ] [Buzzer β], frame.run c = .error (.fault fault)
              { c with session, keyboard := (Keyboard.read c.keyboard).keyboard } := by
  constructor
  · intro _ _
    rw [frame_eq_fullFrame]
  · intro c₁ k fault hlisten hk htaken hrefused
    obtain ⟨_, rfl⟩ := run_listen_ok hlisten
    obtain ⟨session, hsteps, hmachine⟩ :=
      Session.performAll_steps_of_refused hk htaken hrefused
    refine ⟨session, hmachine, ?_⟩
    intro _ _
    rw [frame_eq_listen, EStateM.run_bind, hlisten]
    dsimp only
    rw [EStateM.run_bind, run_emulate_of_refused hsteps]

/-- A jump to a return from no call: the second step faults, and a frame of three steps calls
neither the display, for which there is a first picture, nor the buzzer. -/
theorem second_step_ends_frame :
    let c : Console Script (Logged Recorder) (Metered Mute) :=
      ⟨⟨.loaded [0x12, 0x02, 0x00, 0xEE] .standard (.ofSeed 1), #[.loaded 4]⟩, ⟨[]⟩,
        ⟨.fresh, []⟩, ⟨.fresh, []⟩, 3⟩
    c.machine.redraw = true ∧
      ∃ c', frame.run c = .error (.fault (.stackUnderflow 0x202)) c' ∧
        c'.machine.state = .halted ∧ c'.machine.pc = 0x202 ∧
          c'.display.given = [] ∧ c'.buzzer.calls = [] := by
  intro c
  obtain ⟨-, hfault⟩ := early_exit_unobservable c
  have hlisten : listen.run c = .ok .proceed c.look := rfl
  obtain ⟨hfirst, hpc, hsecond⟩ : c.machine.step.1 = .ok () ∧
      (c.machine.run [.step]).pc = 0x202 ∧
        (c.machine.run [.step]).step.1 = .error (.stackUnderflow 0x202) := by decide +kernel
  have htaken : ∀ j < 1, (c.machine.run (List.replicate j .step)).step.1 = .ok () := by
    intro j hj
    obtain rfl := Nat.lt_one_iff.mp hj
    exact hfirst
  obtain ⟨session, hmachine, hframe⟩ :=
    hfault c.look 1 (.stackUnderflow 0x202) hlisten (by decide) htaken hsecond
  refine ⟨rfl, _, hframe, ?_, ?_, rfl, rfl⟩
  · exact congrArg Machine.state hmachine
  · exact (congrArg Machine.pc hmachine).trans hpc

end Console

end Chip8
