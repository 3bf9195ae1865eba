import Chip8.Proofs.Console.Ticks
import Chip8.Proofs.Journal.Account
import Chip8.Proofs.Machine.Interleaving

/-!
# The key events of a frame

A frame hands its events to the machine before it takes a step.  All of them reach the keypad, and
the first press ends the wait of a waiting machine; the machine then runs, so that later presses end
nothing.  Steps, the tick and the look at the redraw request end no wait.  So a frame ends at most
the one wait that it finds, and a wait that its own steps begin outlasts it.
-/

namespace Chip8

namespace KeyEvent

/-- The code that is pressed, if the event is a press. -/
def pressed : KeyEvent → Option UInt8
  | .down code => some code
  | .up _ | .quit => none

/-- The code of the first press. -/
def firstPress (events : List KeyEvent) : Option UInt8 :=
  events.findSome? pressed

theorem exists_key_of_mem_requests {events : List KeyEvent} {r : Request}
    (hpad : ∀ e ∈ events, e.OnPad) (hmem : r ∈ requests events) :
    ∃ code : UInt8, code.toNat < 16 ∧
      (r = .keyUp code ∨ r = .keyDown code ∨ r = .resolveKey code) := by
  induction events with
  | nil => cases hmem
  | cons e events ih =>
    rw [List.forall_mem_cons] at hpad
    obtain ⟨hcode, hlater⟩ := hpad
    cases e with
    | quit => cases hmem
    | up code =>
      rcases List.mem_cons.mp hmem with rfl | hrest
      · exact ⟨code, hcode, .inl rfl⟩
      · exact ih hlater hrest
    | down code =>
      rw [requests, List.mem_cons, List.mem_cons] at hmem
      rcases hmem with rfl | rfl | hrest
      · exact ⟨code, hcode, .inr (.inl rfl)⟩
      · exact ⟨code, hcode, .inr (.inr rfl)⟩
      · exact ih hlater hrest

end KeyEvent

namespace Machine

variable {m m' : Machine} {request : Request} {requests : List Request} {events : List KeyEvent}
  {code : UInt8} {x : Register}

/-- The machine whose wait, if it has one, is ended by the first press. -/
def answered (m : Machine) (events : List KeyEvent) : Machine :=
  match m.state, KeyEvent.firstPress events with
  | .waiting x, some code => { m.put x code with state := .running }
  | _, _ => m

/-- How many requests of a run end a wait. -/
def waitsEnded (m : Machine) : List Request → Nat
  | [] => 0
  | request :: requests =>
    (if m.isWaiting ∧ ¬ (m.perform request).2.isWaiting then 1 else 0) +
      (m.perform request).2.waitsEnded requests

/-! ## Events of the pad -/

theorem not_refused_of_onPad (hpad : ∀ e ∈ events, e.OnPad) (m : Machine)
    (hmem : request ∈ KeyEvent.requests events) (fault : Fault) :
    (m.perform request).1 ≠ .refused fault := by
  obtain ⟨code, hcode, rfl | rfl | rfl⟩ :=
    KeyEvent.exists_key_of_mem_requests hpad hmem
  · simp [perform_keyUp_of_lt m hcode]
  · simp [perform_keyDown_of_lt m hcode]
  · rw [perform_resolveKey, Key.ofCode, dif_pos hcode]
    cases m.state <;> simp

theorem answered_eq_self (h : ∀ x, m.state ≠ .waiting x) (events : List KeyEvent) :
    m.answered events = m := by
  rw [answered]
  split
  · next x code hstate hpress => exact absurd hstate (h x)
  · rfl

theorem answered_with_keypad (m : Machine) (keypad : Keypad) (events : List KeyEvent) :
    answered { m with keypad } events = { m.answered events with keypad } := by
  simp only [answered]
  split <;> rfl

theorem answered_of_waiting (hstate : m.state = .waiting x)
    (hpress : KeyEvent.firstPress events = some code) :
    m.answered events = { m.put x code with state := .running } := by
  rw [answered, hstate, hpress]

theorem answered_of_no_press (m : Machine) (hpress : KeyEvent.firstPress events = none) :
    m.answered events = m := by
  rw [answered, hpress]
  split
  · next h => cases h
  · rfl

/-- Only the first press counts: it leaves no wait for the others. -/
theorem answered_cons (m : Machine) (e : KeyEvent) (events : List KeyEvent) :
    m.answered (e :: events) = (m.answered [e]).answered events := by
  cases e with
  | up code | quit => exact congrArg (answered · events) (answered_of_no_press m rfl).symm
  | down code =>
    by_cases hwaiting : ∃ x, m.state = .waiting x
    · obtain ⟨x, hstate⟩ := hwaiting
      rw [answered_of_waiting hstate rfl, answered_of_waiting hstate rfl,
        answered_eq_self fun y hy => by cases hy]
    · have hstate : ∀ x, m.state ≠ .waiting x := not_exists.mp hwaiting
      rw [answered_eq_self hstate, answered_eq_self hstate, answered_eq_self hstate]

theorem machine_perform_resolveKey (m : Machine) (hcode : code.toNat < 16) :
    (m.perform (.resolveKey code)).2 = m.answered [.down code] := by
  rw [perform_resolveKey, Key.ofCode, dif_pos hcode, answered]
  cases m.state <;> rfl

theorem run_requests_single {e : KeyEvent} (hquit : e ≠ .quit) (hpad : e.OnPad) (m : Machine) :
    m.run (KeyEvent.requests [e]) = { m.answered [e] with keypad := m.keypad.heed e } := by
  cases e with
  | quit => exact absurd rfl hquit
  | up code =>
    rw [answered_of_no_press m rfl]
    exact congrArg Prod.snd (perform_keyUp_of_lt m hpad)
  | down code =>
    change ((m.perform (.keyDown code)).2.perform (.resolveKey code)).2 = _
    rw [perform_keyDown_of_lt m hpad, machine_perform_resolveKey _ hpad, answered_with_keypad]

/-- Events without a request to quit reach the keypad, the first press ends a wait, and nothing else
happens. -/
theorem run_requests (hquit : .quit ∉ events) (hpad : ∀ e ∈ events, e.OnPad) (m : Machine) :
    m.run (KeyEvent.requests events) =
      { m.answered events with keypad := m.keypad.heedAll events } := by
  induction events generalizing m with
  | nil => rw [answered_of_no_press m rfl]; rfl
  | cons e events ih =>
    rw [List.mem_cons, not_or] at hquit
    rw [List.forall_mem_cons] at hpad
    have hsplit : KeyEvent.requests (e :: events) =
        KeyEvent.requests [e] ++ KeyEvent.requests events := by
      cases e with
      | quit => exact absurd rfl hquit.1
      | up code | down code => rfl
    rw [hsplit, run_append, run_requests_single (Ne.symm hquit.1) hpad.1, ih hquit.2 hpad.2,
      answered_with_keypad, ← answered_cons]
    rfl

/-! ## Waits that end -/

theorem waitsEnded_append (m : Machine) (before after : List Request) :
    m.waitsEnded (before ++ after) = m.waitsEnded before + (m.run before).waitsEnded after := by
  induction before generalizing m with
  | nil => simp [waitsEnded]
  | cons request before ih => simp [waitsEnded, ih, Nat.add_assoc]

/-- A request other than a step may end a wait, but begins none. -/
theorem waitsEnded_single (hstep : request ≠ .step) (m : Machine) :
    m.waitsEnded [request] + (m.perform request).2.waits ≤ m.waits := by
  have htold := m.perform_told request
  rw [waitsEnded, waitsEnded, Nat.add_zero]
  generalize (m.perform request).2 = m', m.account request = told at htold ⊢
  cases htold with
  | nothing _ state =>
    have hsame : m'.isWaiting = m.isWaiting := by rw [isWaiting, isWaiting, state]
    simp [waits, hsame]
  | resumed _ _ waiting state => simp [waits, isWaiting, waiting, state]
  | executed | passedOver | suspended | faulted | lost => exact absurd rfl hstep

/-- A run without steps begins no wait, and so ends none but the one it finds. -/
theorem waitsEnded_le_waits (hsteps : .step ∉ requests) (m : Machine) :
    m.waitsEnded requests ≤ m.waits := by
  induction requests generalizing m with
  | nil => exact Nat.zero_le _
  | cons request requests ih =>
    rw [List.mem_cons, not_or] at hsteps
    rw [← List.singleton_append, waitsEnded_append]
    calc m.waitsEnded [request] + (m.run [request]).waitsEnded requests
        ≤ m.waitsEnded [request] + (m.perform request).2.waits :=
          Nat.add_le_add_left (ih hsteps.2 _) _
      _ ≤ m.waits := waitsEnded_single (Ne.symm hsteps.1) m

theorem waitsEnded_of_patient (hpatient : ∀ r ∈ requests, r.Patient) (m : Machine) :
    m.waitsEnded requests = 0 := by
  induction requests generalizing m with
  | nil => rfl
  | cons request requests ih =>
    rw [List.forall_mem_cons] at hpatient
    rw [waitsEnded, ih hpatient.2, Nat.add_zero]
    refine if_neg fun hends => hends.2 ?_
    cases hstate : m.state with
    | waiting x => rw [isWaiting, state_perform_of_waiting hstate hpatient.1]
    | running | halted => simp [isWaiting, hstate] at hends

theorem patient_of_no_press (hpress : KeyEvent.firstPress events = none) :
    ∀ r ∈ KeyEvent.requests events, r.Patient := by
  induction events with
  | nil => exact fun r hmem => absurd hmem List.not_mem_nil
  | cons e events ih =>
    cases e with
    | quit => exact fun r hmem => absurd hmem List.not_mem_nil
    | up code => exact List.forall_mem_cons.mpr ⟨trivial, ih hpress⟩
    | down code => cases hpress

end Machine

namespace Session

variable {s : Session} {rs : List Request}

theorem performAll_of_not_refused
    (h : ∀ (m : Machine) (r : Request), r ∈ rs → ∀ fault, (m.perform r).1 ≠ .refused fault) :
    (s.performAll rs).1 = none := by
  induction rs generalizing s with
  | nil => rfl
  | cons r rs ih =>
    have hfirst := h s.machine r List.mem_cons_self
    rw [performAll]
    cases hperform : s.perform r with
    | mk reply s' =>
      have hreply : (s.machine.perform r).1 = reply := congrArg Prod.fst hperform
      cases reply with
      | refused fault => exact absurd hreply (hfirst fault)
      | done | flag => exact ih fun m r hmem => h m r (List.mem_cons_of_mem _ hmem)

/-- Once the first requests have been answered, the others are made until one is refused. -/
theorem served_append_of_answered (h : (s.performAll rs).1 = none) (rs' : List Request) :
    s.machine.served (rs ++ rs') = rs ++ (s.machine.run rs).served rs' := by
  induction rs generalizing s with
  | nil => rfl
  | cons r rs ih =>
    rcases s.performAll_cons r rs with ⟨fault, hperform, -⟩ | ⟨hperform, hserved⟩
    · rw [hperform] at h
      cases h
    · rw [hperform] at h
      rw [List.cons_append, hserved, ih h]
      rfl

/-- No event of the pad is refused. -/
theorem performAll_requests {events : List KeyEvent} (hpad : ∀ e ∈ events, e.OnPad) (s : Session) :
    (s.performAll (KeyEvent.requests events)).1 = none :=
  performAll_of_not_refused fun m _ hmem => Machine.not_refused_of_onPad hpad m hmem

end Session

namespace Console

variable {κ δ β : Type}

/-- The part of a frame that deals with its events. -/
def listen [Keyboard κ] : Action κ δ β Verdict := do
  handle (← readEvents)

/-- What the machine is asked after the events of a frame. -/
def ownRequests (speed : Nat) : List Request :=
  List.replicate speed .step ++ [.tick, .takeRedraw]

section

variable {events : List KeyEvent} (hquit : .quit ∉ events) (hpad : ∀ e ∈ events, e.OnPad)

include hquit hpad

theorem run_handle (c : Console κ δ β) :
    (handle events).run c =
      .ok .proceed { c with session := (c.session.performAll (KeyEvent.requests events)).2 } := by
  have hanswered := c.session.performAll_requests hpad
  rw [handle_eq, EStateM.run_bind, run_requestAll]
  cases hwork : c.session.performAll (KeyEvent.requests events) with
  | mk refusal session =>
    rw [hwork] at hanswered
    subst hanswered
    rw [KeyEvent.verdict, if_neg hquit]
    rfl

variable [Keyboard κ] {c : Console κ δ β} (hread : (Keyboard.read c.keyboard).events = .ok events)

include hread

/-- The events of a frame are all handed to the machine, and the frame goes on from there. -/
theorem run_listen :
    ∃ c₁, listen.run c = .ok .proceed c₁ ∧
      c₁.machine = c.machine.run (KeyEvent.requests events) ∧
      ∀ [Display δ] [Buzzer β],
        frame.run c = (do emulate; pure .proceed : Action κ δ β Verdict).run c₁ := by
  refine ⟨{ c.look with session := (c.look.session.performAll (KeyEvent.requests events)).2 },
    ?_, ?_, ?_⟩
  · rw [listen, EStateM.run_bind, run_readEvents, hread]
    exact run_handle hquit hpad c.look
  · have hlook : c.look.session.machine = c.machine := Session.machine_hear _ _
    have hserved := Session.served_of_performAll (c.look.session.performAll_requests hpad)
    rw [machine, Session.machine_performAll, hserved, hlook]
  · intro _ _
    rw [frame, EStateM.run_bind, run_readEvents, hread]
    dsimp only
    rw [EStateM.run_bind, run_handle hquit hpad]

theorem requestsMade_eq :
    c.requestsMade = KeyEvent.requests events ++
      (c.machine.run (KeyEvent.requests events)).served (ownRequests c.speed) := by
  have hwhole : wholeFrame c.speed events = KeyEvent.requests events ++ ownRequests c.speed := by
    simp [wholeFrame, frameRequests, KeyEvent.verdict, hquit, ownRequests]
  rw [requestsMade, hread]
  dsimp only
  rw [hwhole]
  exact Session.served_append_of_answered (c.session.performAll_requests hpad) _

end

theorem patient_ownRequests (speed : Nat) : ∀ r ∈ ownRequests speed, r.Patient := by
  intro r hmem
  obtain hstep | rfl | rfl : r ∈ List.replicate speed .step ∨ r = .tick ∨ r = .takeRedraw := by
    simpa [ownRequests] using hmem
  · rw [List.eq_of_mem_replicate hstep]
    trivial
  · trivial
  · trivial

/-- The events of a frame reach the keypad, and the first press among them ends the wait that the
frame finds; nothing else comes of them.  What the machine is asked after the events ends no wait, so
a waiting machine without a press waits on, and so does one that has begun to wait meanwhile. -/
theorem events_reach_machine [Keyboard κ] [Display δ] [Buzzer β] (c : Console κ δ β)
    {events : List KeyEvent} (hread : (Keyboard.read c.keyboard).events = .ok events)
    (hquit : .quit ∉ events) (hpad : ∀ e ∈ events, e.OnPad) :
    ∃ c₁ own, listen.run c = .ok .proceed c₁ ∧
      frame.run c = (do emulate; pure .proceed : Action κ δ β Verdict).run c₁ ∧
      (∀ code, c₁.machine.isHeld code =
        (KeyEvent.told code events).getLast?.getD (c.machine.isHeld code)) ∧
      (∀ x code, c.machine.state = .waiting x → KeyEvent.firstPress events = some code →
        c₁.machine.get x = code ∧
          c₁.machine =
            { c.machine.put x code with state := .running, keypad := c₁.machine.keypad }) ∧
      (∀ x, c.machine.state = .waiting x → KeyEvent.firstPress events = none →
        c₁.machine = { c.machine with keypad := c₁.machine.keypad } ∧
          ∃ timers keypad redraw,
            (c.after frame).machine = { c.machine with timers, keypad, redraw }) ∧
      ((∀ x, c.machine.state ≠ .waiting x) →
        c₁.machine = { c.machine with keypad := c₁.machine.keypad }) ∧
      c.requestsMade = KeyEvent.requests events ++ own ∧
      (c.after frame).machine = c₁.machine.run own ∧
      c.machine.waitsEnded c.requestsMade ≤ c.machine.waits ∧
      c₁.machine.waitsEnded own = 0 ∧
      ∀ before later x, own = before ++ later → (c₁.machine.run before).state = .waiting x →
        (c.after frame).machine.state = .waiting x := by
  obtain ⟨c₁, hlisten, hrun, hframe⟩ := run_listen hquit hpad hread
  have hmade := requestsMade_eq hquit hpad hread
  rw [← hrun] at hmade
  have hpatient : ∀ r ∈ c₁.machine.served (ownRequests c.speed), r.Patient := fun r hmem =>
    patient_ownRequests c.speed r ((c₁.machine.served_prefix _).mem hmem)
  have hown := Machine.waitsEnded_of_patient hpatient c₁.machine
  have hafter : (c.after frame).machine =
      c₁.machine.run (c₁.machine.served (ownRequests c.speed)) := by
    rw [machine_after_frame, hmade, Machine.run_append, hrun]
  have hmachine : c₁.machine =
      { c.machine.answered events with keypad := c.machine.keypad.heedAll events } :=
    hrun.trans (Machine.run_requests hquit hpad c.machine)
  refine ⟨c₁, _, hlisten, hframe, fun code => ?_, fun x code hstate hpress => ?_,
    fun x hstate hpress => ⟨?_, ?_⟩, fun hstate => ?_, hmade, hafter, ?_, hown,
    fun before later x hsplit hwaiting => ?_⟩
  · rw [hmachine]
    exact Keypad.isHeld_heedAll_of_onPad _ hpad code
  · rw [hmachine, Machine.answered_of_waiting hstate hpress]
    exact ⟨Machine.get_put_self _ x code, rfl⟩
  · rw [hmachine, Machine.answered_of_no_press _ hpress]
  · rw [machine_after_frame, hmade]
    refine Machine.run_of_waiting hstate fun r hmem => ?_
    rcases List.mem_append.mp hmem with hkey | hother
    · exact Machine.patient_of_no_press hpress r hkey
    · exact hpatient r hother
  · rw [hmachine, Machine.answered_eq_self hstate]
  · rw [hmade, Machine.waitsEnded_append, ← hrun, hown, Nat.add_zero]
    refine Machine.waitsEnded_le_waits (fun hstep => ?_) c.machine
    obtain ⟨code, h | h | h⟩ := KeyEvent.exists_code_of_mem_requests hstep <;> cases h
  · rw [hsplit] at hpatient hafter
    obtain ⟨timers, keypad, redraw, hlater⟩ := Machine.run_of_waiting hwaiting fun r hmem =>
      hpatient r (List.mem_append_right before hmem)
    rw [hafter, Machine.run_append, hlater, hwaiting]

/-- The session of a program that waits for a key in `V3`, after its first step. -/
def awaitingKey : Session :=
  ⟨((Machine.loaded [0xF3, 0x0A] .standard (.ofSeed 1)).perform .step).2, #[]⟩

/-- Two keys are pressed at once: the wait is over with the first, and both are held. -/
theorem first_of_two_keys_answers :
    let c : Console Script Recorder Mute :=
      ⟨awaitingKey, ⟨[[.up 3, .down 5, .down 6]]⟩, .fresh, .fresh, 1⟩
    c.machine.state = .waiting 3 ∧
      ∃ c₁, listen.run c = .ok .proceed c₁ ∧ c₁.machine.get 3 = 5 ∧
        c₁.machine.isHeld 6 = true := by
  intro c
  have hstate : c.machine.state = .waiting 3 := by decide +kernel
  have hread : (Keyboard.read c.keyboard).events = .ok [.up 3, .down 5, .down 6] := rfl
  have hpad : ∀ e ∈ [KeyEvent.up 3, .down 5, .down 6], e.OnPad := by simp [KeyEvent.OnPad]
  obtain ⟨c₁, own, hlisten, -, hheld, hanswered, -⟩ :=
    events_reach_machine c hread (by decide) hpad
  exact ⟨hstate, c₁, hlisten, (hanswered 3 5 hstate rfl).1, hheld 6⟩

end Console

end Chip8
