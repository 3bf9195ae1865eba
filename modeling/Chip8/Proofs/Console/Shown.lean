import Chip8.Console.Mute
import Chip8.Console.Rehearsal
import Chip8.Proofs.Console.Calls
import Chip8.Proofs.Machine.Redraw

/-!
# What a display shows

A redraw is taken back before the display is asked to draw.  So a picture that was given to the
display is current until a redraw is asked for, whether or not the display could draw it: a display
that never fails is never behind, and one that fails once stays behind until something else is
drawn.
-/

namespace Chip8

/-- A display with a record of what it was given and how it answered, newest first. -/
structure Logged (δ : Type) where
  device : δ
  given : List (Picture × Except String Unit)

namespace Logged

variable {δ : Type}

instance [Display δ] : Display (Logged δ) where
  draw display picture :=
    let (answer, device) := Display.draw display.device picture
    (answer, ⟨device, (picture, answer) :: display.given⟩)

theorem draw_eq [Display δ] (display : Logged δ) (picture : Picture) :
    Display.draw display picture =
      let (answer, device) := Display.draw display.device picture
      (answer, ⟨device, (picture, answer) :: display.given⟩) := rfl

/-- The last picture that was drawn without a failure. -/
def lastDrawn : List (Picture × Except String Unit) → Option Picture
  | [] => none
  | (picture, .ok ()) :: _ => some picture
  | (_, .error _) :: earlier => lastDrawn earlier

def shown (display : Logged δ) : Option Picture :=
  lastDrawn display.given

end Logged

namespace Console

variable {κ δ β : Type}

/-! ## The record only watches -/

/-- The console whose display keeps no record. -/
def plain (c : Console κ (Logged δ) β) : Console κ δ β :=
  { c with display := c.display.device }

def plainResult {α : Type} :
    EStateM.Result Failure (Console κ (Logged δ) β) α → EStateM.Result Failure (Console κ δ β) α
  | .ok a c => .ok a c.plain
  | .error failure c => .error failure c.plain

theorem run_draw_plain [Display δ] (c : Console κ (Logged δ) β) :
    draw.run c.plain = plainResult (draw.run c) := by
  have hmachine : c.plain.machine = c.machine := rfl
  rw [run_draw, run_draw, hmachine, Logged.draw_eq, plain]
  obtain ⟨answer, device⟩ := Display.draw c.display.device c.machine.picture
  cases answer <;> rfl

theorem run_followTone_plain [Buzzer β] (c : Console κ (Logged δ) β) :
    followTone.run c.plain = plainResult (followTone.run c) := by
  have hplain : followTone.run c.plain = (setTone c.machine.toneOn).run c.plain := rfl
  have hlogged : followTone.run c = (setTone c.machine.toneOn).run c := rfl
  rw [hplain, hlogged, run_setTone, run_setTone, plain]
  obtain ⟨answer, buzzer⟩ := Buzzer.follow c.buzzer c.machine.toneOn
  cases answer <;> rfl

theorem run_present_plain [Display δ] (c : Console κ (Logged δ) β) :
    present.run c.plain = plainResult (present.run c) := by
  have hmachine : c.plain.machine = c.machine := rfl
  rw [run_present, run_present, hmachine]
  split
  · exact run_draw_plain { c with session := (c.session.perform .takeRedraw).2 }
  · rfl

theorem run_render_plain [Display δ] [Buzzer β] (c : Console κ (Logged δ) β) :
    render.run c.plain = plainResult (render.run c) := by
  rw [render, render, EStateM.run_bind, EStateM.run_bind, run_present_plain]
  cases present.run c with
  | error failure c' => rfl
  | ok a c' =>
    simp only [plainResult]
    rw [EStateM.run_bind, EStateM.run_bind, run_followTone_plain]
    cases followTone.run c' <;> rfl

theorem run_approach_plain [Keyboard κ] (c : Console κ (Logged δ) β) :
    approach.run c.plain = plainResult (approach.run c) := by
  have hkeyboard : c.plain.keyboard = c.keyboard := rfl
  rw [run_approach, run_approach, hkeyboard]
  cases (Keyboard.read c.keyboard).events with
  | error why => rfl
  | ok events =>
    have hlook : c.plain.look = c.look.plain := rfl
    have hspeed : c.plain.speed = c.speed := rfl
    have hsession : c.look.plain.session = c.look.session := rfl
    dsimp only
    rw [hlook, hspeed, hsession]
    obtain ⟨fault, session⟩ := c.look.session.performAll (frameRequests c.speed events)
    cases fault <;> rfl

/-- A frame goes as if no record were kept. -/
theorem run_frame_plain [Keyboard κ] [Display δ] [Buzzer β] (c : Console κ (Logged δ) β) :
    frame.run c.plain = plainResult (frame.run c) := by
  rw [run_frame, run_frame, run_approach_plain]
  cases approach.run c with
  | error failure c₁ => rfl
  | ok verdict c₁ =>
    cases verdict with
    | quit => rfl
    | proceed => exact run_render_plain c₁

/-! ## Keeping up -/

/-- The last picture given to the display is the machine's. -/
def Current (c : Console κ (Logged δ) β) : Prop :=
  c.display.given.head?.map Prod.fst = some c.machine.picture

/-- The last picture given is the machine's unless a redraw is asked for.  The stack is sound, or a
call might write to the display. -/
structure Followed (c : Console κ (Logged δ) β) : Prop where
  stack : c.machine.stack.Sound
  current : c.machine.redraw ≠ true → c.Current

theorem followed_approach [Keyboard κ] {c : Console κ (Logged δ) β} (h : c.Followed) :
    (c.after approach).Followed := by
  obtain ⟨requests, session, hquiet, hmachine, happroach⟩ := after_approach c
  have hrun : (c.after approach).machine = c.machine.run requests := by
    rw [happroach]
    exact hmachine
  refine ⟨hrun ▸ Machine.sound_run h.stack requests, fun hnone => ?_⟩
  -- No redraw is asked for now, so none was before, and the picture has not changed since.
  rw [hrun] at hnone
  obtain ⟨hbefore, hpicture⟩ := Machine.picture_run_of_not_redraw h.stack hquiet hnone
  have hcurrent := h.current hbefore
  rw [Current] at hcurrent ⊢
  rw [hrun, hpicture, ← hcurrent, happroach]

theorem current_render [Display δ] [Buzzer β] {c : Console κ (Logged δ) β} (h : c.Followed) :
    (c.after render).Followed ∧ (c.after render).Current := by
  obtain ⟨buzzer, hrender⟩ := after_render c
  have hcurrent : (c.after render).Current := by
    rw [hrender, Current]
    -- A picture is drawn from the machine as it is, or the last one is current still.
    split
    · rfl
    · next hnone => exact h.current hnone
  refine ⟨⟨?_, fun _ => hcurrent⟩, hcurrent⟩
  rw [hrender]
  exact h.stack

theorem followed_frame [Keyboard κ] [Display δ] [Buzzer β] {c : Console κ (Logged δ) β}
    (h : c.Followed) : (c.after frame).Followed := by
  have hready := followed_approach h
  rw [after_frame]
  split
  · next c₁ hrun =>
    rw [after_of_ok hrun] at hready
    exact (current_render hready).1
  · exact hready

/-- A frame draws once or not at all, and only what is asked for when it comes to its display. -/
theorem given_after_frame [Keyboard κ] [Display δ] [Buzzer β] (c : Console κ (Logged δ) β) :
    (c.after frame).display.given = c.display.given ∨
      ∃ c₁, approach.run c = .ok .proceed c₁ ∧ c₁.machine.redraw = true ∧
        (c.after frame).display.given =
          (c₁.machine.picture, (Display.draw c₁.display c₁.machine.picture).1) ::
            c.display.given := by
  obtain ⟨requests, session, -, -, happroach⟩ := after_approach c
  have hdisplay : (c.after approach).display = c.display := by rw [happroach]
  rw [after_frame]
  cases hrun : approach.run c with
  | error failure c₁ => exact .inl (by rw [hdisplay])
  | ok verdict c₁ =>
    cases verdict with
    | quit => exact .inl (by rw [hdisplay])
    | proceed =>
      rw [after_of_ok hrun] at hdisplay
      obtain ⟨buzzer, hrender⟩ := after_render c₁
      cases hredraw : c₁.machine.redraw with
      | false =>
        refine .inl ?_
        simp [hrender, hredraw, hdisplay]
      | true =>
        refine .inr ⟨c₁, rfl, hredraw, ?_⟩
        simp [hrender, hredraw, Logged.draw_eq, hdisplay]

theorem draw_ok_of_render [Display δ] [Buzzer β] {c c' : Console κ δ β}
    (hredraw : c.machine.redraw = true) (h : render.run c = .ok .proceed c') :
    (Display.draw c.display c.machine.picture).1 = .ok () := by
  let taken : Console κ δ β := { c with session := (c.session.perform .takeRedraw).2 }
  cases hdraw : Display.draw c.display c.machine.picture with
  | mk answer display =>
    cases answer with
    | ok => rfl
    | error why =>
      have htaken : Display.draw taken.display taken.machine.picture = (.error why, display) :=
        hdraw
      have hfailed : present.run c = .error (.display why) { taken with display } := by
        rw [run_present, if_pos hredraw, run_draw, htaken]
      rw [render, EStateM.run_bind, hfailed] at h
      cases h

theorem followed_finish [Buzzer β] (ending : Ending) {c : Console κ (Logged δ) β}
    (h : c.Followed) : (c.after (finish ending)).Followed := by
  obtain ⟨session, buzzer, hmachine, hfinish⟩ := after_finish ending c
  have hsame : (c.after (finish ending)).machine = c.machine := by
    rw [hfinish]
    exact hmachine
  refine ⟨hsame ▸ h.stack, fun hnone => ?_⟩
  rw [hsame] at hnone
  have hcurrent := h.current hnone
  rw [Current] at hcurrent ⊢
  rw [hsame, hfinish]
  exact hcurrent

theorem current_of_completed [Keyboard κ] [Display δ] [Buzzer β]
    {c c' : Console κ (Logged δ) β} (h : c.Followed)
    (hframe : frame.run c = .ok .proceed c' ∨ ∃ why, frame.run c = .error (.buzzer why) c') :
    c'.Current := by
  obtain ⟨c₁, hrun, rfl⟩ := comes_to_render hframe
  have hready := followed_approach h
  rw [after_of_ok hrun] at hready
  exact (current_render hready).2

/-- The console of a session just started, with nothing shown yet. -/
def opened (session : Session) (keyboard : κ) (display : δ) (buzzer : β) (speed : Nat) :
    Console κ (Logged δ) β :=
  { session, keyboard, display := ⟨display, []⟩, buzzer, speed }

theorem followed_opened {program : List UInt8} {config : Config} {chance : RandomSource}
    {s : Session} (hstart : Session.start program config chance = .ok s) (keyboard : κ)
    (display : δ) (buzzer : β) (speed : Nat) :
    (opened s keyboard display buzzer speed).Followed := by
  obtain ⟨m, hm, rfl⟩ := map_eq_ok_iff.mp hstart
  refine ⟨Machine.sound_start hm, fun hnone => ?_⟩
  obtain ⟨-, -, rfl⟩ := Machine.start_eq_ok_iff.mp hm
  exact absurd rfl hnone

theorem followed_of_frameStarts [Keyboard κ] [Display δ] [Buzzer β]
    {c c' : Console κ (Logged δ) β} {calls : List Call} (h : c.Followed)
    (hc' : c' ∈ c.frameStarts calls) : c'.Followed :=
  forall_frameStarts (P := Followed) (fun _ => followed_frame)
    (fun ending _ => followed_finish ending) calls h c' hc'

/-- Every frame that is not cut short leaves the machine's picture on a display that did not fail,
and a frame draws only if it comes to its display with a redraw asked for. -/
theorem picture_never_stale [Keyboard κ] [Display δ] [Buzzer β] {program : List UInt8}
    {config : Config} {chance : RandomSource} {s : Session}
    (hstart : Session.start program config chance = .ok s) (keyboard : κ) (display : δ)
    (buzzer : β) (speed : Nat) (calls : List Call) :
    ∀ c ∈ (opened s keyboard display buzzer speed).frameStarts calls,
      (∀ c', (frame.run c = .ok .proceed c' ∨ ∃ why, frame.run c = .error (.buzzer why) c') →
        (∀ drawing ∈ c'.display.given, drawing.2 = .ok ()) →
          c'.display.given.head? = some (c'.machine.picture, .ok ())) ∧
      ((c.after frame).display.given ≠ c.display.given →
        ∃ c₁ answer, approach.run c = .ok .proceed c₁ ∧ c₁.machine.redraw = true ∧
          (c.after frame).display.given = (c₁.machine.picture, answer) :: c.display.given) := by
  intro c hc
  have hfollowed : c.Followed :=
    followed_of_frameStarts (followed_opened hstart keyboard display buzzer speed) hc
  constructor
  · intro c' hframe hdrawn
    have hcurrent : c'.Current := current_of_completed hfollowed hframe
    cases hgiven : c'.display.given with
    | nil => simp [Current, hgiven] at hcurrent
    | cons drawing earlier =>
      have hpicture : drawing.1 = c'.machine.picture := by simpa [Current, hgiven] using hcurrent
      have hok : drawing.2 = .ok () := hdrawn drawing (by simp [hgiven])
      rw [List.head?_cons, ← hpicture, ← hok]
  · intro hdrawn
    obtain ⟨c₁, hrun, hredraw, hgiven⟩ := (given_after_frame c).resolve_left hdrawn
    exact ⟨c₁, _, hrun, hredraw, hgiven⟩

/-- The session of a jump to itself. -/
def spinning : Session :=
  ⟨.loaded [0x12, 0x00] .standard (.ofSeed 1), #[.loaded 2]⟩

theorem start_spinning : Session.start [0x12, 0x00] .standard (.ofSeed 1) = .ok spinning := by
  rw [Session.start, Machine.start_loaded (by decide) (by decide)]
  rfl

theorem first_frame_draws :
    let c : Console Script (Logged Recorder) Mute := opened spinning ⟨[]⟩ .fresh .fresh 1
    frame.run c = .ok .proceed (c.after frame) ∧
      (c.after frame).display.given.head? = some ((c.after frame).machine.picture, .ok ()) := by
  intro c
  have hframe : frame.run c = .ok .proceed (c.after frame) := run_eq_ok (by decide +kernel)
  have hall : (c.after frame).display.given.all (·.2.isOk) = true := by decide +kernel
  have hdrawn : ∀ drawing ∈ (c.after frame).display.given, drawing.2 = .ok () := by
    intro drawing hdrawing
    have hok := List.all_eq_true.mp hall drawing hdrawing
    cases hanswer : drawing.2 with
    | ok => rfl
    | error why => simp [hanswer, Except.isOk, Except.toBool] at hok
  have hstarts : c ∈ c.frameStarts [.frame] := by simp [frameStarts, framesOf]
  exact ⟨hframe, (picture_never_stale start_spinning (Script.mk []) Recorder.fresh Mute.fresh 1
    [.frame] c hstarts).1 _ (.inl hframe) hdrawn⟩

/-- A display shows the machine's picture after a frame unless its last drawing failed, and then not
in this frame. -/
theorem shown_iff_drawn [Keyboard κ] [Display δ] [Buzzer β] {program : List UInt8}
    {config : Config} {chance : RandomSource} {s : Session}
    (hstart : Session.start program config chance = .ok s) (keyboard : κ) (display : δ)
    (buzzer : β) (speed : Nat) (calls : List Call) :
    ∀ c ∈ (opened s keyboard display buzzer speed).frameStarts calls,
      ∀ c', frame.run c = .ok .proceed c' →
        ∃ answer earlier, c'.display.given = (c'.machine.picture, answer) :: earlier ∧
          (c'.display.given ≠ c.display.given → answer = .ok ()) ∧
          (c'.display.shown = some c'.machine.picture ↔
            answer = .ok () ∨ Logged.lastDrawn earlier = some c'.machine.picture) := by
  intro c hc c' hframe
  have hfollowed : c.Followed :=
    followed_of_frameStarts (followed_opened hstart keyboard display buzzer speed) hc
  have hcurrent : c'.Current := current_of_completed hfollowed (.inl hframe)
  cases hgiven : c'.display.given with
  | nil => simp [Current, hgiven] at hcurrent
  | cons drawing earlier =>
    obtain ⟨picture, answer⟩ := drawing
    have hpicture : picture = c'.machine.picture := by simpa [Current, hgiven] using hcurrent
    refine ⟨answer, earlier, by rw [hpicture], fun hdrawn => ?_, ?_⟩
    · rw [← hgiven, ← after_of_ok hframe] at hdrawn
      obtain ⟨c₁, hrun, hredraw, hlast⟩ := (given_after_frame c).resolve_left hdrawn
      rw [after_of_ok hframe, hgiven] at hlast
      rw [run_frame, hrun] at hframe
      rw [(Prod.mk.inj (List.cons.inj hlast).1).2]
      exact draw_ok_of_render hredraw hframe
    · rw [Logged.shown, hgiven, hpicture]
      cases answer <;> simp [Logged.lastDrawn]

def failingFirst : Flaky Recorder :=
  ⟨.fresh, 0, fun n => if n = 0 then some "display failed" else none⟩

/-- The jump to itself on a display that fails at its first drawing and at no other. -/
def failingOnce : Console Script (Logged (Flaky Recorder)) Mute :=
  opened spinning ⟨[]⟩ failingFirst .fresh 1

theorem second_frame_draws_nothing :
    let c := failingOnce.after frame
    frame.run c = .ok .proceed (c.after frame) ∧
      ∃ answer earlier,
        (c.after frame).display.given = ((c.after frame).machine.picture, answer) :: earlier ∧
          ((c.after frame).display.given ≠ c.display.given → answer = .ok ()) ∧
          ((c.after frame).display.shown = some (c.after frame).machine.picture ↔
            answer = .ok () ∨
              Logged.lastDrawn earlier = some (c.after frame).machine.picture) := by
  intro c
  have hframe : frame.run c = .ok .proceed (c.after frame) := run_eq_ok (by decide +kernel)
  exact ⟨hframe, shown_iff_drawn start_spinning (Script.mk []) failingFirst Mute.fresh 1
    [.frame, .frame] c (by simp [frameStarts, framesOf, serve, c, failingOnce]) _ hframe⟩

/-- A picture that could not be drawn at first is not drawn again. -/
theorem failed_drawing_forgotten :
    let first := failingOnce.after frame
    let second := first.after frame
    Session.start [0x12, 0x00] .standard (.ofSeed 1) = .ok failingOnce.session ∧
      frame.run failingOnce = .error (.display "display failed") first ∧
      frame.run first = .ok .proceed second ∧
      second.display.shown ≠ some second.machine.picture := by
  intro first second
  refine ⟨start_spinning, run_eq_error (by decide +kernel), run_eq_ok (by decide +kernel), ?_⟩
  have hnever : second.display.shown.isSome = false := by decide +kernel
  intro hshown
  rw [hshown] at hnever
  cases hnever

end Console

end Chip8
