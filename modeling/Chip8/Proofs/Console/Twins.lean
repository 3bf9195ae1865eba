import Chip8.Proofs.Console.Tone

/-!
# Consoles that differ in their buzzers

Two consoles whose machines, keyboards, displays and speeds are the same, and whose buzzers go on
answering alike, answer alike: a frame and a main loop give the same on both, up to their journals.
So a record of the commands of a buzzer only watches.
-/

namespace Chip8

theorem Session.performAll_congr {s s' : Session} (h : s.machine = s'.machine)
    (rs : List Request) :
    (s.performAll rs).1 = (s'.performAll rs).1 ∧
      (s.performAll rs).2.machine = (s'.performAll rs).2.machine := by
  induction rs generalizing s s' with
  | nil => exact ⟨rfl, h⟩
  | cons r rs ih =>
    have hreply : (s.perform r).1 = (s'.perform r).1 := by simp only [perform, h]
    have hmachine : (s.perform r).2.machine = (s'.perform r).2.machine := by
      rw [machine_perform, machine_perform, h]
    have hnext := ih hmachine
    rw [performAll, performAll]
    cases hperform : s.perform r with
    | mk reply s₁ =>
      cases hperform' : s'.perform r with
      | mk reply' s₁' =>
        rw [hperform, hperform'] at hreply hmachine hnext
        obtain rfl : reply = reply' := hreply
        cases reply with
        | refused fault => exact ⟨rfl, hmachine⟩
        | done | flag => exact hnext

namespace Console

variable {κ δ β β' α γ : Type}

/-- Two consoles that differ in their journals and their buzzers only. -/
structure Twins (S : β → β' → Prop) (c : Console κ δ β) (c' : Console κ δ β') : Prop where
  machine : c.machine = c'.machine
  keyboard : c.keyboard = c'.keyboard
  display : c.display = c'.display
  speed : c.speed = c'.speed
  buzzer : S c.buzzer c'.buzzer

/-- Two results that say the same and leave twins behind. -/
inductive Same (S : β → β' → Prop) :
    EStateM.Result Failure (Console κ δ β) α → EStateM.Result Failure (Console κ δ β') α → Prop
  | ok (a : α) {c : Console κ δ β} {c' : Console κ δ β'} :
      Twins S c c' → Same S (.ok a c) (.ok a c')
  | error (failure : Failure) {c : Console κ δ β} {c' : Console κ δ β'} :
      Twins S c c' → Same S (.error failure c) (.error failure c')

variable {S : β → β' → Prop}

namespace Same

variable {r : EStateM.Result Failure (Console κ δ β) α}
variable {r' : EStateM.Result Failure (Console κ δ β') α}

theorem answered_eq (h : Same S r r') : answered r = answered r' := by
  cases h <;> rfl

theorem failed_eq (h : Same S r r') : failed r = failed r' := by
  cases h <;> rfl

theorem left (h : Same S r r') : Twins S (left r) (Console.left r') := by
  cases h with
  | ok a h => exact h
  | error failure h => exact h

end Same

/-- Two actions that do the same on twins. -/
def Parallel (S : β → β' → Prop) (x : Action κ δ β α) (x' : Action κ δ β' α) : Prop :=
  ∀ c c', Twins S c c' → Same S (x.run c) (x'.run c')

theorem Parallel.pure (a : α) :
    Parallel S (pure a : Action κ δ β α) (pure a : Action κ δ β' α) :=
  fun _ _ h => .ok a h

theorem Parallel.bind {x : Action κ δ β α} {x' : Action κ δ β' α} {f : α → Action κ δ β γ}
    {f' : α → Action κ δ β' γ} (hx : Parallel S x x') (hf : ∀ a, Parallel S (f a) (f' a)) :
    Parallel S (x >>= f) (x' >>= f') := by
  intro c c' h
  have hfirst := hx c c' h
  rw [EStateM.run_bind, EStateM.run_bind]
  generalize x.run c = r at hfirst ⊢
  generalize x'.run c' = r' at hfirst ⊢
  -- Of the four ways the first actions can end together, only the two agreeing ones are left.
  cases hfirst with
  | ok a h₁ => exact hf a _ _ h₁
  | error failure h₁ => exact .error failure h₁

/-! ## Up to the tone -/

theorem Twins.conclude {c : Console κ δ β} {c' : Console κ δ β'} (h : Twins S c c') (a : α)
    {work work' : Option Fault × Session} (hfault : work.1 = work'.1)
    (hmachine : work.2.machine = work'.2.machine) :
    Same S (c.conclude a work) (c'.conclude a work') := by
  obtain ⟨fault, session⟩ := work
  obtain ⟨fault', session'⟩ := work'
  obtain rfl : fault = fault' := hfault
  have htwins : Twins S { c with session } { c' with session := session' } :=
    ⟨hmachine, h.keyboard, h.display, h.speed, h.buzzer⟩
  cases fault with
  | none => exact .ok a htwins
  | some cause => exact .error (.fault cause) htwins

theorem Twins.look [Keyboard κ] {c : Console κ δ β} {c' : Console κ δ β'} (h : Twins S c c') :
    Twins S c.look c'.look where
  machine := by
    calc c.look.machine
        = c.machine := Session.machine_hear _ _
      _ = c'.machine := h.machine
      _ = c'.look.machine := (Session.machine_hear _ _).symm
  keyboard := congrArg (fun keyboard => (Keyboard.read keyboard).keyboard) h.keyboard
  display := h.display
  speed := h.speed
  buzzer := h.buzzer

theorem parallel_approach [Keyboard κ] :
    Parallel S (approach : Action κ δ β Verdict) (approach : Action κ δ β' Verdict) := by
  intro c c' h
  rw [run_approach, run_approach, ← h.keyboard, ← h.speed]
  cases (Keyboard.read c.keyboard).events with
  | error why => exact .error _ h.look
  | ok events =>
    obtain ⟨hfault, hmachine⟩ :=
      Session.performAll_congr h.look.machine (frameRequests c.speed events)
    exact h.look.conclude _ hfault hmachine

theorem parallel_draw [Display δ] :
    Parallel S (draw : Action κ δ β Unit) (draw : Action κ δ β' Unit) := by
  intro c c' h
  rw [run_draw, run_draw, ← h.display, ← h.machine]
  cases Display.draw c.display c.machine.picture with
  | mk answer display =>
    have htwins : Twins S { c with display } { c' with display } :=
      ⟨h.machine, h.keyboard, rfl, h.speed, h.buzzer⟩
    cases answer with
    | ok => exact .ok () htwins
    | error why => exact .error _ htwins

theorem parallel_present [Display δ] :
    Parallel S (present : Action κ δ β Unit) (present : Action κ δ β' Unit) := by
  intro c c' h
  have htaken : Twins S { c with session := (c.session.perform .takeRedraw).2 }
      { c' with session := (c'.session.perform .takeRedraw).2 } :=
    ⟨congrArg (fun m => m.takeRedraw.2) h.machine, h.keyboard, h.display, h.speed, h.buzzer⟩
  rw [run_present, run_present, ← h.machine]
  split
  · exact parallel_draw _ _ htaken
  · exact .ok () htaken

theorem parallel_sense :
    Parallel S (sense : Action κ δ β (Option Bool)) (sense : Action κ δ β' (Option Bool)) := by
  intro c c' h
  have hrun : sense.run c = .ok (some c.machine.toneOn) c := rfl
  have hrun' : sense.run c' = .ok (some c'.machine.toneOn) c' := rfl
  rw [hrun, hrun', ← h.machine]
  exact .ok _ h

theorem parallel_prepare [Keyboard κ] [Display δ] :
    Parallel S (prepare : Action κ δ β (Option Bool)) (prepare : Action κ δ β' (Option Bool)) := by
  refine parallel_approach.bind fun verdict => ?_
  cases verdict with
  | quit => exact Parallel.pure none
  | proceed =>
    exact parallel_present.bind fun _ => parallel_sense

theorem Twins.tone_eq [Keyboard κ] [Display δ] {c : Console κ δ β} {c' : Console κ δ β'}
    (h : Twins S c c') : c.tone = c'.tone := by
  rw [tone, tone, (parallel_prepare c c' h).answered_eq]

/-! ## With buzzers that answer alike -/

/-- Related buzzers answer alike when they are set, and stay related. -/
def FollowAlike [Buzzer β] [Buzzer β'] (S : β → β' → Prop) : Prop :=
  ∀ b b', S b b' → ∀ on, (Buzzer.follow b on).1 = (Buzzer.follow b' on).1 ∧
    S (Buzzer.follow b on).2 (Buzzer.follow b' on).2

section Follow

variable [Buzzer β] [Buzzer β']

theorem parallel_setTone (hS : FollowAlike S) (on : Bool) :
    Parallel S (setTone on : Action κ δ β Unit) (setTone on : Action κ δ β' Unit) := by
  intro c c' h
  have halike := hS c.buzzer c'.buzzer h.buzzer on
  rw [run_setTone, run_setTone]
  generalize Buzzer.follow c.buzzer on = outcome at halike ⊢
  generalize Buzzer.follow c'.buzzer on = outcome' at halike ⊢
  obtain ⟨answer, buzzer⟩ := outcome
  obtain ⟨answer', buzzer'⟩ := outcome'
  obtain ⟨rfl, hbuzzer⟩ : answer = answer' ∧ S buzzer buzzer' := halike
  have htwins : Twins S { c with buzzer } { c' with buzzer := buzzer' } :=
    ⟨h.machine, h.keyboard, h.display, h.speed, hbuzzer⟩
  cases answer with
  | ok => exact .ok () htwins
  | error why => exact .error _ htwins

variable [Keyboard κ] [Display δ]

theorem parallel_frame (hS : FollowAlike S) :
    Parallel S (frame : Action κ δ β Verdict) (frame : Action κ δ β' Verdict) := by
  rw [frame_eq_prepare, frame_eq_prepare]
  refine parallel_prepare.bind fun tone => ?_
  cases tone with
  | none => exact Parallel.pure Verdict.quit
  | some on => exact (parallel_setTone hS on).bind fun _ => Parallel.pure Verdict.proceed

theorem Twins.after_frame (hS : FollowAlike S) {c : Console κ δ β} {c' : Console κ δ β'}
    (h : Twins S c c') : Twins S (c.after frame) (c'.after frame) :=
  (parallel_frame hS c c' h).left

theorem Twins.completes_eq (hS : FollowAlike S) {c : Console κ δ β} {c' : Console κ δ β'}
    (h : Twins S c c') : c.completes = c'.completes := by
  rw [completes, completes, (parallel_frame hS c c' h).answered_eq]

/-- The counts of two loops that run alike differ by what they started from. -/
theorem Twins.runFrames (hS : FollowAlike S) {c : Console κ δ β} {c' : Console κ δ β'}
    (h : Twins S c c') (budget done done' : Nat) :
    (runFrames budget done c).1.failure = (runFrames budget done' c').1.failure ∧
      (runFrames budget done c).1.frames + done' = (runFrames budget done' c').1.frames + done ∧
      Twins S (runFrames budget done c).2 (runFrames budget done' c').2 := by
  induction budget generalizing done done' c c' with
  | zero => exact ⟨rfl, Nat.add_comm _ _, h⟩
  | succ budget ih =>
    have hnext := h.after_frame hS
    cases hcompletes : c.completes with
    | true =>
      rw [runFrames_of_completes hcompletes,
        runFrames_of_completes ((h.completes_eq hS).symm.trans hcompletes)]
      obtain ⟨hfailure, hframes, htwins⟩ := ih hnext (done + 1) (done' + 1)
      exact ⟨hfailure, by omega, htwins⟩
    | false =>
      rw [runFrames_of_not_completes hcompletes,
        runFrames_of_not_completes ((h.completes_eq hS).symm.trans hcompletes)]
      exact ⟨(parallel_frame hS c c' h).failed_eq, Nat.add_comm _ _, hnext⟩

theorem Twins.tones_loopFrames (hS : FollowAlike S) {c : Console κ δ β} {c' : Console κ δ β'}
    (h : Twins S c c') (budget : Nat) :
    (loopFrames budget c).filterMap tone = (loopFrames budget c').filterMap tone := by
  induction budget generalizing c c' with
  | zero => rfl
  | succ budget ih =>
    cases hcompletes : c.completes with
    | true =>
      rw [loopFrames_of_completes hcompletes,
        loopFrames_of_completes ((h.completes_eq hS).symm.trans hcompletes),
        filterMap_tone_cons, filterMap_tone_cons, h.tone_eq, ih (h.after_frame hS)]
    | false =>
      rw [loopFrames_of_not_completes hcompletes,
        loopFrames_of_not_completes ((h.completes_eq hS).symm.trans hcompletes),
        filterMap_tone_cons, filterMap_tone_cons, h.tone_eq]
      rfl

omit [Buzzer β] [Buzzer β'] [Keyboard κ] [Display δ] in
theorem parallel_note (r : Record) :
    Parallel S (note r : Action κ δ β Unit) (note r : Action κ δ β' Unit) :=
  fun _ _ h => .ok () ⟨h.machine, h.keyboard, h.display, h.speed, h.buzzer⟩

omit [Keyboard κ] [Display δ] in
theorem parallel_finish (hS : FollowAlike S) (ending : Ending) :
    Parallel S (finish ending : Action κ δ β Nat) (finish ending : Action κ δ β' Nat) := by
  refine (parallel_setTone hS false).bind fun _ => (parallel_note _).bind fun _ => ?_
  cases ending.failure with
  | none => exact Parallel.pure ending.frames
  | some failure => exact fun _ _ h => .error failure h

attribute [ext] Ending

theorem parallel_mainLoop (hS : FollowAlike S) (limit : Option Nat) :
    Parallel S (mainLoop limit : Action κ δ β Nat) (mainLoop limit : Action κ δ β' Nat) := by
  intro c c' h
  obtain ⟨hfailure, hframes, htwins⟩ := h.runFrames hS (budget limit) 0 0
  rw [run_mainLoop, run_mainLoop]
  have hending : (Console.runFrames (budget limit) 0 c).1 =
      (Console.runFrames (budget limit) 0 c').1 := Ending.ext hframes hfailure
  rw [hending]
  exact parallel_finish hS _ _ _ htwins

theorem Twins.serveAll (hS : FollowAlike S) {c : Console κ δ β} {c' : Console κ δ β'}
    (h : Twins S c c') (calls : List Call) : Twins S (c.serveAll calls) (c'.serveAll calls) := by
  induction calls generalizing c c' with
  | nil => exact h
  | cons call calls ih =>
    cases call with
    | frame => exact ih (h.after_frame hS)
    | mainLoop limit => exact ih (parallel_mainLoop hS limit c c' h).left

end Follow

theorem followAlike_metered [Buzzer β] :
    FollowAlike fun (m : Metered β) (b : β) => m.device = b := by
  rintro m _ rfl on
  exact Metered.follow_eq m on

/-- A record of the commands of its buzzer changes nothing for a console. -/
theorem metered_serveAll [Keyboard κ] [Display δ] [Buzzer β] (session : Session) (keyboard : κ)
    (display : δ) (buzzer : β) (speed : Nat) (calls : List Call) :
    let c : Console κ δ β := ⟨session, keyboard, display, buzzer, speed⟩
    Twins (fun (m : Metered β) (b : β) => m.device = b)
      (serveAll { c with buzzer := (⟨buzzer, []⟩ : Metered β) } calls) (c.serveAll calls) :=
  Twins.serveAll followAlike_metered ⟨rfl, rfl, rfl, rfl, rfl⟩ calls

end Console

end Chip8
