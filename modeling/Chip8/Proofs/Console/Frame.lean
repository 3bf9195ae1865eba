import Chip8.Console.Loop
import Chip8.Proofs.Machine.KeyWait

/-!
# What a frame does

Between its look at the keyboard and its look at the display a frame works on the session alone: it
makes a list of requests, which the events and the speed determine, and stops at the first that is
refused.  That it stops taking steps when the machine waits for a key makes no difference.  So the
session after a frame is a function of the session before it, of the speed and of what the keyboard
gave; and the display is drawn on exactly if the frame comes to the drawing with a redraw asked for.
-/

namespace Chip8

namespace Machine

/-- The requests that are made out of a list: those up to the first that is refused, and that
one. -/
def served (m : Machine) : List Request → List Request
  | [] => []
  | r :: rs =>
    match m.perform r with
    | (.refused _, _) => [r]
    | (_, m') => r :: m'.served rs

theorem served_prefix (m : Machine) (rs : List Request) : m.served rs <+: rs := by
  induction rs generalizing m with
  | nil => exact List.nil_prefix
  | cons r rs ih =>
    rw [served]
    split
    · exact ⟨rs, rfl⟩
    · exact (List.prefix_cons_inj r).mpr (ih _)

end Machine

namespace Session

/-- The characters that mean nothing are told in the journal. -/
def hear (s : Session) (unmapped : List Char) : Session :=
  unmapped.foldl (fun s char => s.note (.unmapped char)) s

theorem machine_hear (s : Session) (unmapped : List Char) :
    (s.hear unmapped).machine = s.machine := by
  induction unmapped generalizing s with
  | nil => rfl
  | cons char unmapped ih => exact ih (s.note (.unmapped char))

theorem machine_perform (s : Session) (r : Request) :
    (s.perform r).2.machine = (s.machine.perform r).2 := rfl

/-- Makes requests in order, up to the first that is refused. -/
def performAll (s : Session) : List Request → Option Fault × Session
  | [] => (none, s)
  | r :: rs =>
    match s.perform r with
    | (.refused fault, s') => (some fault, s')
    | (_, s') => s'.performAll rs

theorem performAll_append (s : Session) (rs rs' : List Request) :
    s.performAll (rs ++ rs') =
      match s.performAll rs with
      | (none, s') => s'.performAll rs'
      | refused => refused := by
  induction rs generalizing s with
  | nil => rfl
  | cons r rs ih =>
    rw [List.cons_append, performAll, performAll]
    cases hperform : s.perform r with
    | mk reply s' => cases reply <;> simp [ih]

/-- A request is refused, and then it is the last one, or the others follow. -/
theorem performAll_cons (s : Session) (r : Request) (rs : List Request) :
    (∃ fault, s.performAll (r :: rs) = (some fault, (s.perform r).2) ∧
      ∀ rs', s.machine.served (r :: rs') = [r]) ∨
    s.performAll (r :: rs) = (s.perform r).2.performAll rs ∧
      ∀ rs', s.machine.served (r :: rs') = r :: (s.perform r).2.machine.served rs' := by
  simp only [performAll, Machine.served, perform]
  cases s.machine.perform r with
  | mk reply m' =>
    cases reply with
    | refused fault => exact .inl ⟨fault, rfl, fun _ => rfl⟩
    | done | flag => exact .inr ⟨rfl, fun _ => rfl⟩

/-- A refused request has still been met: it may have halted the machine. -/
theorem machine_performAll (s : Session) (rs : List Request) :
    (s.performAll rs).2.machine = s.machine.run (s.machine.served rs) := by
  induction rs generalizing s with
  | nil => rfl
  | cons r rs ih =>
    rcases s.performAll_cons r rs with ⟨fault, hperform, hserved⟩ | ⟨hperform, hserved⟩
    · rw [hperform, hserved]
      rfl
    · rw [hperform, hserved, ih]
      rfl

/-- Requests of which none is refused are all made. -/
theorem served_of_performAll {s : Session} {rs : List Request} (h : (s.performAll rs).1 = none) :
    s.machine.served rs = rs := by
  induction rs generalizing s with
  | nil => rfl
  | cons r rs ih =>
    rcases s.performAll_cons r rs with ⟨fault, hperform, -⟩ | ⟨hperform, hserved⟩
    · rw [hperform] at h
      cases h
    · rw [hperform] at h
      rw [hserved, ih h]

/-- What would come after a refused request is not made. -/
theorem served_append_of_refused {s : Session} {rs : List Request} {fault : Fault}
    (h : (s.performAll rs).1 = some fault) (rs' : List Request) :
    s.machine.served (rs ++ rs') = s.machine.served rs := by
  induction rs generalizing s with
  | nil => cases h
  | cons r rs ih =>
    rw [List.cons_append]
    rcases s.performAll_cons r rs with ⟨fault', -, hserved⟩ | ⟨hperform, hserved⟩
    · rw [hserved, hserved]
    · rw [hperform] at h
      rw [hserved, hserved, ih h]

/-- A waiting machine takes steps by doing nothing, and they are not worth telling. -/
theorem perform_step_of_waiting {s : Session} (h : s.machine.isWaiting = true) :
    s.perform .step = (.done, s) := by
  obtain ⟨machine, journal⟩ := s
  cases hstate : machine.state with
  | waiting x =>
    simp [perform, Machine.perform_step_of_waiting hstate, Machine.account,
      Machine.accountOfStep, hstate]
  | running | halted => simp [Machine.isWaiting, hstate] at h

theorem performAll_steps_of_waiting {s : Session} (h : s.machine.isWaiting = true) (n : Nat) :
    s.performAll (List.replicate n .step) = (none, s) := by
  induction n with
  | zero => rfl
  | succ n ih =>
    rw [List.replicate_succ, performAll, perform_step_of_waiting h]
    exact ih

end Session

/-- The requests that events amount to, up to one that asks to quit. -/
def KeyEvent.requests : List KeyEvent → List Request
  | [] | .quit :: _ => []
  | .up code :: rest => .keyUp code :: requests rest
  | .down code :: rest => .keyDown code :: .resolveKey code :: requests rest

def KeyEvent.verdict (events : List KeyEvent) : Verdict :=
  if .quit ∈ events then .quit else .proceed

/-- The requests of a frame before it comes to its display, if none is refused. -/
def Console.frameRequests (speed : Nat) (events : List KeyEvent) : List Request :=
  KeyEvent.requests events ++
    match KeyEvent.verdict events with
    | .quit => []
    | .proceed => List.replicate speed .step ++ [.tick]

/-- What a frame makes of a session, given what the keyboard brought. -/
def Session.turn (s : Session) (speed : Nat) (events : Except String (List KeyEvent))
    (unmapped : List Char) : Session :=
  match events with
  | .error _ => s.hear unmapped
  | .ok events =>
    match (s.hear unmapped).performAll (Console.frameRequests speed events),
      KeyEvent.verdict events with
    | (none, s'), .proceed => (s'.perform .takeRedraw).2
    | (_, s'), _ => s'

theorem KeyEvent.exists_code_of_mem_requests {events : List KeyEvent} {r : Request}
    (h : r ∈ requests events) :
    ∃ code, r = .keyUp code ∨ r = .keyDown code ∨ r = .resolveKey code := by
  fun_induction requests events <;> grind

theorem Console.takeRedraw_not_mem (speed : Nat) (events : List KeyEvent) :
    .takeRedraw ∉ frameRequests speed events := by
  rw [frameRequests, List.mem_append, not_or]
  refine ⟨fun hkey => ?_, by split <;> simp⟩
  obtain ⟨code, h | h | h⟩ := KeyEvent.exists_code_of_mem_requests hkey <;> cases h

namespace Console

variable {κ δ β α : Type}

/-- The console that a result leaves, be it a failure or not. -/
def left : EStateM.Result Failure (Console κ δ β) α → Console κ δ β
  | .ok _ c | .error _ c => c

def after (action : Action κ δ β α) (c : Console κ δ β) : Console κ δ β :=
  left (action.run c)

/-- The result of work on the session. -/
def conclude (c : Console κ δ β) (a : α) :
    Option Fault × Session → EStateM.Result Failure (Console κ δ β) α
  | (none, session) => .ok a { c with session }
  | (some fault, session) => .error (.fault fault) { c with session }

theorem after_of_ok {action : Action κ δ β α} {c c' : Console κ δ β} {a : α}
    (h : action.run c = .ok a c') : c.after action = c' := by
  rw [after, h, left]

theorem after_of_error {action : Action κ δ β α} {c c' : Console κ δ β} {failure : Failure}
    (h : action.run c = .error failure c') : c.after action = c' := by
  rw [after, h, left]

def answered : EStateM.Result Failure (Console κ δ β) α → Option α
  | .ok a _ => some a
  | .error _ _ => none

def failed : EStateM.Result Failure (Console κ δ β) α → Option Failure
  | .ok _ _ => none
  | .error failure _ => some failure

theorem run_eq_ok {action : Action κ δ β α} {c : Console κ δ β} {a : α}
    (h : answered (action.run c) = some a) : action.run c = .ok a (c.after action) := by
  cases hrun : action.run c with
  | ok a' c' =>
    rw [hrun] at h
    rw [after_of_ok hrun, Option.some.inj h]
  | error failure c' =>
    rw [hrun] at h
    cases h

theorem run_eq_error {action : Action κ δ β α} {c : Console κ δ β} {failure : Failure}
    (h : failed (action.run c) = some failure) :
    action.run c = .error failure (c.after action) := by
  cases hrun : action.run c with
  | ok a c' =>
    rw [hrun] at h
    cases h
  | error failure' c' =>
    rw [hrun] at h
    rw [after_of_error hrun, Option.some.inj h]

theorem after_bind {γ : Type} (action : Action κ δ β γ) (next : γ → Action κ δ β α)
    (c : Console κ δ β) :
    c.after (action >>= next) =
      match action.run c with
      | .ok a c' => c'.after (next a)
      | .error _ c' => c' := by
  rw [after, EStateM.run_bind]
  cases action.run c <;> rfl

theorem after_pure {γ : Type} (action : Action κ δ β γ) (a : α) (c : Console κ δ β) :
    c.after (do let _ ← action; pure a) = c.after action := by
  rw [after_bind, after]
  cases action.run c <;> rfl

theorem left_conclude (c : Console κ δ β) (a : α) (work : Option Fault × Session) :
    left (c.conclude a work) = { c with session := work.2 } := by
  obtain ⟨fault, session⟩ := work
  cases fault <;> rfl

/-- Makes requests in order, up to the first that is refused. -/
def requestAll : List Request → Action κ δ β Unit
  | [] => pure ()
  | r :: rs => do
    let _ ← request r
    requestAll rs

theorem run_request (r : Request) (c : Console κ δ β) :
    (request r).run c =
      match c.session.perform r with
      | (.refused cause, session) => .error (.fault cause) { c with session }
      | (reply, session) => .ok reply { c with session } := rfl

theorem run_requestAll (rs : List Request) (c : Console κ δ β) :
    (requestAll rs).run c = c.conclude () (c.session.performAll rs) := by
  induction rs generalizing c with
  | nil => rfl
  | cons r rs ih =>
    rw [requestAll, EStateM.run_bind, run_request, Session.performAll]
    cases c.session.perform r with
    | mk reply session =>
      cases reply with
      | refused fault => rfl
      | done | flag =>
        dsimp only
        rw [ih]
        cases session.performAll rs with
        | mk fault session => cases fault <;> rfl

theorem handle_eq (events : List KeyEvent) :
    (handle events : Action κ δ β Verdict) =
      (do requestAll (KeyEvent.requests events); pure (KeyEvent.verdict events)) := by
  induction events with
  | nil => rfl
  | cons event rest ih =>
    cases event with
    | quit => simp [handle, KeyEvent.requests, KeyEvent.verdict, requestAll]
    | up code | down code =>
      simp [handle, KeyEvent.requests, KeyEvent.verdict, requestAll, ih]

/-- Steps may be counted out, since the steps of a waiting machine do nothing. -/
theorem run_takeSteps (n : Nat) (c : Console κ δ β) :
    (takeSteps n).run c = (requestAll (List.replicate n .step)).run c := by
  induction n generalizing c with
  | zero => rfl
  | succ n ih =>
    rw [takeSteps, List.replicate_succ, requestAll, EStateM.run_bind, EStateM.run_bind]
    cases (request .step).run c with
    | error failure c' => rfl
    | ok reply c' =>
      dsimp only
      rw [EStateM.run_bind, EStateM.run_get]
      dsimp only
      -- A loop that stops early leaves out steps of a waiting machine only.
      split
      · next hwaiting =>
        rw [run_requestAll, Session.performAll_steps_of_waiting hwaiting]
        rfl
      · exact ih c'

/-! ## The way to the display -/

/-- The steps of a frame and its tick. -/
def spend : Action κ δ β Verdict := do
  takeSteps (← get).speed
  let _ ← request .tick
  pure .proceed

/-- All that a frame does before it comes to the display. -/
def approach [Keyboard κ] : Action κ δ β Verdict := do
  match ← handle (← readEvents) with
  | .quit => pure .quit
  | .proceed => spend

/-- What a frame does once it has come to the display. -/
def render [Display δ] [Buzzer β] : Action κ δ β Verdict := do
  present
  followTone
  pure .proceed

theorem frame_eq [Keyboard κ] [Display δ] [Buzzer β] :
    (frame : Action κ δ β Verdict) =
      (do match ← approach with
          | .quit => pure .quit
          | .proceed => render) := by
  simp only [frame, approach, spend, render, emulate, bind_assoc]
  congr 1
  funext events
  congr 1
  funext verdict
  cases verdict with
  | quit => simp
  | proceed => simp

/-- The console after its look at the keyboard. -/
def look [Keyboard κ] (c : Console κ δ β) : Console κ δ β :=
  let reading := Keyboard.read c.keyboard
  { c with session := c.session.hear reading.unmapped, keyboard := reading.keyboard }

theorem run_readEvents [Keyboard κ] (c : Console κ δ β) :
    readEvents.run c =
      match (Keyboard.read c.keyboard).events with
      | .ok events => .ok events c.look
      | .error why => .error (.keyboard why) c.look := rfl

theorem run_spend (c : Console κ δ β) :
    spend.run c =
      c.conclude .proceed (c.session.performAll (List.replicate c.speed .step ++ [.tick])) := by
  rw [spend, EStateM.run_bind, EStateM.run_get, Session.performAll_append]
  dsimp only
  rw [EStateM.run_bind, run_takeSteps, run_requestAll]
  cases c.session.performAll (List.replicate c.speed .step) with
  | mk fault session => cases fault <;> rfl

theorem run_approach [Keyboard κ] (c : Console κ δ β) :
    approach.run c =
      match (Keyboard.read c.keyboard).events with
      | .error why => .error (.keyboard why) c.look
      | .ok events =>
        c.look.conclude (KeyEvent.verdict events)
          (c.look.session.performAll (frameRequests c.speed events)) := by
  rw [approach, EStateM.run_bind, run_readEvents]
  cases (Keyboard.read c.keyboard).events with
  | error why => rfl
  | ok events =>
    dsimp only
    rw [EStateM.run_bind, handle_eq, EStateM.run_bind, run_requestAll, frameRequests,
      Session.performAll_append]
    cases hkeys : c.look.session.performAll (KeyEvent.requests events) with
    | mk fault session =>
      cases fault with
      | some cause => rfl
      | none =>
        cases KeyEvent.verdict events with
        | quit => rfl
        | proceed => exact run_spend { c.look with session }

/-- However the way to the display ends, it has touched neither display nor buzzer, and the machine
has met requests of which none took the redraw. -/
theorem after_approach [Keyboard κ] (c : Console κ δ β) :
    ∃ requests session, .takeRedraw ∉ requests ∧
      session.machine = c.machine.run requests ∧
      c.after approach =
        { c with session, keyboard := (Keyboard.read c.keyboard).keyboard } := by
  have hlook : c.look.session.machine = c.machine := Session.machine_hear _ _
  unfold after
  rw [run_approach]
  cases (Keyboard.read c.keyboard).events with
  | error why => exact ⟨[], c.look.session, List.not_mem_nil, hlook, rfl⟩
  | ok events =>
    have hmachine := c.look.session.machine_performAll (frameRequests c.speed events)
    rw [hlook] at hmachine
    have hfirst := c.machine.served_prefix (frameRequests c.speed events)
    exact ⟨_, _, fun h => takeRedraw_not_mem c.speed events (hfirst.mem h), hmachine,
      left_conclude _ _ _⟩

/-! ## The display and the buzzer -/

theorem run_draw [Display δ] (c : Console κ δ β) :
    draw.run c =
      match Display.draw c.display c.machine.picture with
      | (.ok (), display) => .ok () { c with display }
      | (.error why, display) => .error (.display why) { c with display } := rfl

theorem after_draw [Display δ] (c : Console κ δ β) :
    c.after draw = { c with display := (Display.draw c.display c.machine.picture).2 } := by
  rw [after, run_draw]
  obtain ⟨answer, display⟩ := Display.draw c.display c.machine.picture
  cases answer <;> rfl

theorem run_setTone [Buzzer β] (on : Bool) (c : Console κ δ β) :
    (setTone on).run c =
      match Buzzer.follow c.buzzer on with
      | (.ok (), buzzer) => .ok () { c with buzzer }
      | (.error why, buzzer) => .error (.buzzer why) { c with buzzer } := rfl

theorem after_setTone [Buzzer β] (on : Bool) (c : Console κ δ β) :
    c.after (setTone on) = { c with buzzer := (Buzzer.follow c.buzzer on).2 } := by
  rw [after, run_setTone]
  obtain ⟨answer, buzzer⟩ := Buzzer.follow c.buzzer on
  cases answer <;> rfl

theorem run_present [Display δ] (c : Console κ δ β) :
    present.run c =
      if c.machine.redraw then draw.run { c with session := (c.session.perform .takeRedraw).2 }
      else .ok () { c with session := (c.session.perform .takeRedraw).2 } := by
  have htaken : (request .takeRedraw).run c =
      .ok (.flag c.machine.redraw) { c with session := (c.session.perform .takeRedraw).2 } := rfl
  rw [present, EStateM.run_bind, htaken]
  cases hredraw : c.machine.redraw <;> simp

theorem after_present [Display δ] (c : Console κ δ β) :
    c.after present =
      { c with
        session := (c.session.perform .takeRedraw).2
        display := if c.machine.redraw then (Display.draw c.display c.machine.picture).2
          else c.display } := by
  rw [after, run_present]
  cases c.machine.redraw with
  | false => rfl
  | true => exact after_draw { c with session := (c.session.perform .takeRedraw).2 }

/-- A picture is drawn if a redraw was asked for, whatever becomes of the drawing and the tone. -/
theorem after_render [Display δ] [Buzzer β] (c : Console κ δ β) :
    ∃ buzzer, c.after render =
      { c with
        session := (c.session.perform .takeRedraw).2
        display := if c.machine.redraw then (Display.draw c.display c.machine.picture).2
          else c.display
        buzzer } := by
  have hpresent := after_present c
  rw [render, after_bind]
  cases hrun : present.run c with
  | error failure c' =>
    rw [after_of_error hrun] at hpresent
    exact ⟨c.buzzer, hpresent⟩
  | ok a c' =>
    rw [after_of_ok hrun] at hpresent
    subst hpresent
    exact ⟨_, (after_pure followTone _ _).trans (after_setTone _ _)⟩

/-! ## The whole frame -/

theorem run_frame [Keyboard κ] [Display δ] [Buzzer β] (c : Console κ δ β) :
    frame.run c =
      match approach.run c with
      | .ok .proceed c₁ => render.run c₁
      | ended => ended := by
  rw [frame_eq, EStateM.run_bind]
  cases approach.run c with
  | error failure c₁ => rfl
  | ok verdict c₁ => cases verdict <;> rfl

theorem after_frame [Keyboard κ] [Display δ] [Buzzer β] (c : Console κ δ β) :
    c.after frame =
      match approach.run c with
      | .ok .proceed c₁ => c₁.after render
      | _ => c.after approach := by
  rw [after, run_frame]
  unfold after
  cases approach.run c with
  | error failure c₁ => rfl
  | ok verdict c₁ => cases verdict <;> rfl

/-- On its way to the display a frame fails at the keyboard or by a fault. -/
theorem failure_of_approach [Keyboard κ] {c c₁ : Console κ δ β} {failure : Failure}
    (h : approach.run c = .error failure c₁) :
    (∃ why, failure = .keyboard why) ∨ ∃ cause, failure = .fault cause := by
  rw [run_approach] at h
  cases hevents : (Keyboard.read c.keyboard).events with
  | error why =>
    rw [hevents] at h
    cases h
    exact .inl ⟨why, rfl⟩
  | ok events =>
    rw [hevents] at h
    dsimp only at h
    cases hwork : c.look.session.performAll (frameRequests c.speed events) with
    | mk fault session =>
      rw [hwork] at h
      cases fault with
      | none => cases h
      | some cause =>
        cases h
        exact .inr ⟨cause, rfl⟩

/-- A frame that completes, or that fails at the buzzer, has come to the display. -/
theorem comes_to_render [Keyboard κ] [Display δ] [Buzzer β] {c c' : Console κ δ β}
    (h : frame.run c = .ok .proceed c' ∨ ∃ why, frame.run c = .error (.buzzer why) c') :
    ∃ c₁, approach.run c = .ok .proceed c₁ ∧ c₁.after render = c' := by
  cases happroach : approach.run c with
  | error failure c₁ =>
    rw [run_frame, happroach] at h
    rcases h with h | ⟨why, h⟩
    · cases h
    · cases h
      rcases failure_of_approach happroach with ⟨_, h⟩ | ⟨_, h⟩ <;> cases h
  | ok verdict c₁ =>
    rw [run_frame, happroach] at h
    cases verdict with
    | quit => rcases h with h | ⟨why, h⟩ <;> cases h
    | proceed =>
      dsimp only at h
      refine ⟨c₁, rfl, ?_⟩
      rcases h with h | ⟨why, h⟩
      · exact after_of_ok h
      · exact after_of_error h

/-- Neither the display nor the buzzer has a say in what becomes of the rest. -/
theorem after_frame_eq_turn [Keyboard κ] [Display δ] [Buzzer β] (c : Console κ δ β) :
    let reading := Keyboard.read c.keyboard
    ∃ display buzzer, c.after frame =
      { session := c.session.turn c.speed reading.events reading.unmapped
        keyboard := reading.keyboard
        display, buzzer
        speed := c.speed } := by
  dsimp only
  rw [after_frame, after, run_approach]
  unfold Session.turn
  cases (Keyboard.read c.keyboard).events with
  | error why => exact ⟨c.display, c.buzzer, rfl⟩
  | ok events =>
    have hlook : c.look.session = c.session.hear (Keyboard.read c.keyboard).unmapped := rfl
    dsimp only
    rw [hlook]
    cases (c.session.hear (Keyboard.read c.keyboard).unmapped).performAll
      (frameRequests c.speed events) with
    | mk fault session =>
      cases fault with
      | some cause => exact ⟨c.display, c.buzzer, rfl⟩
      | none =>
        cases KeyEvent.verdict events with
        | quit => exact ⟨c.display, c.buzzer, rfl⟩
        | proceed =>
          obtain ⟨buzzer, hrender⟩ := after_render { c.look with session }
          exact ⟨_, buzzer, hrender⟩

end Console

end Chip8
