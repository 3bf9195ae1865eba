import Chip8.Proofs.Console.Buzzer
import Chip8.Proofs.Console.Ending

/-!
# The tone

A frame that comes to its end sets the tone to whether the sound timer runs, and a main loop sets it
to silence when it ends.  Nothing else touches the buzzer; so the buzzer after a run is the one that
has followed these values, and what it was told is settled by them.
-/

namespace Chip8

theorem Machine.toneOn_iff (m : Machine) : m.toneOn = true ↔ 0 < m.timers.sound := by
  rw [toneOn, Timers.toneOn, bne_iff_ne, UInt8.pos_iff_ne_zero]

namespace Console

variable {κ δ β : Type}

/-- Whether the sound timer runs. -/
def sense : Action κ δ β (Option Bool) := do
  return some (← get).machine.toneOn

/-- What a frame does at its display, and the tone that it then sets. -/
def presentForTone [Display δ] : Action κ δ β (Option Bool) := do
  present
  sense

/-- All that a frame does before it sets the tone, and the tone that it sets if it comes to that. -/
def prepare [Keyboard κ] [Display δ] : Action κ δ β (Option Bool) := do
  match ← approach with
  | .quit => pure none
  | .proceed => presentForTone

theorem run_presentForTone [Display δ] (c : Console κ δ β) :
    presentForTone.run c =
      match present.run c with
      | .ok () c' => .ok (some c'.machine.toneOn) c'
      | .error failure c' => .error failure c' := by
  rw [presentForTone, EStateM.run_bind]
  cases present.run c <;> rfl

theorem after_presentForTone [Display δ] (c : Console κ δ β) :
    c.after presentForTone = c.after present := by
  rw [after, run_presentForTone, after]
  cases present.run c <;> rfl

theorem buzzer_after_prepare [Keyboard κ] [Display δ] (c : Console κ δ β) :
    (c.after prepare).buzzer = c.buzzer := by
  obtain ⟨requests, session, -, -, happroach⟩ := after_approach c
  have hbuzzer : (c.after approach).buzzer = c.buzzer := by rw [happroach]
  rw [prepare, after_bind]
  cases hrun : approach.run c with
  | error failure c₁ =>
    rw [after_of_error hrun] at hbuzzer
    exact hbuzzer
  | ok verdict c₁ =>
    rw [after_of_ok hrun] at hbuzzer
    cases verdict with
    | quit => exact hbuzzer
    | proceed =>
      dsimp only
      rw [after_presentForTone, after_present]
      exact hbuzzer

/-- The tone that the next frame sets, if it comes to that. -/
def tone [Keyboard κ] [Display δ] (c : Console κ δ β) : Option Bool :=
  (answered (prepare.run c)).join

section Tone

variable [Keyboard κ] [Display δ] [Buzzer β]

/-- What is left of a frame once its tone is known. -/
def settle : Option Bool → Action κ δ β Verdict
  | none => pure .quit
  | some on => do
    setTone on
    pure .proceed

theorem frame_eq_prepare : (frame : Action κ δ β Verdict) = prepare >>= settle := by
  rw [frame_eq, prepare, bind_assoc]
  congr 1
  funext verdict
  cases verdict with
  | quit => simp [settle]
  | proceed => simp [render, followTone, presentForTone, sense, settle]

omit [Keyboard κ] [Display δ] in
theorem buzzer_after_settle (tone : Option Bool) (c : Console κ δ β) :
    (c.after (settle tone)).buzzer = Buzzer.followAll c.buzzer tone.toList := by
  cases tone with
  | none => rfl
  | some on =>
    rw [settle, after_pure, after_setTone]
    rfl

omit [Keyboard κ] [Display δ] in
theorem settle_completed {c c' : Console κ δ β} {tone : Option Bool}
    (h : (settle tone).run c = .ok .proceed c') :
    ∃ on, tone = some on ∧ (Buzzer.follow c.buzzer on).1 = .ok () ∧
      c' = { c with buzzer := (Buzzer.follow c.buzzer on).2 } := by
  cases tone with
  | none => cases h
  | some on =>
    refine ⟨on, rfl, ?_⟩
    rw [settle, EStateM.run_bind, run_setTone] at h
    cases hfollow : Buzzer.follow c.buzzer on with
    | mk answer buzzer =>
      rw [hfollow] at h
      cases answer with
      | error why => cases h
      | ok =>
        cases h
        exact ⟨rfl, rfl⟩

omit [Buzzer β] in
theorem eq_toneOn_of_prepare {c c₁ : Console κ δ β} {on : Bool}
    (h : prepare.run c = .ok (some on) c₁) : on = c₁.machine.toneOn := by
  rw [prepare, EStateM.run_bind] at h
  cases happroach : approach.run c with
  | error failure c₂ =>
    rw [happroach] at h
    cases h
  | ok verdict c₂ =>
    rw [happroach] at h
    cases verdict with
    | quit => cases h
    | proceed =>
      dsimp only at h
      rw [run_presentForTone] at h
      cases hpresent : present.run c₂ with
      | error failure c₃ =>
        rw [hpresent] at h
        cases h
      | ok a c₃ =>
        rw [hpresent] at h
        cases h
        rfl

theorem buzzer_after_frame (c : Console κ δ β) :
    (c.after frame).buzzer = Buzzer.followAll c.buzzer c.tone.toList := by
  have hbuzzer := buzzer_after_prepare c
  rw [frame_eq_prepare, after_bind, tone]
  cases hrun : prepare.run c with
  | error failure c₁ =>
    rw [after_of_error hrun] at hbuzzer
    exact hbuzzer
  | ok tone c₁ =>
    rw [after_of_ok hrun] at hbuzzer
    dsimp only
    rw [buzzer_after_settle, hbuzzer]
    rfl

/-- A frame that is completed leaves the buzzer as the sound timer wants it. -/
theorem sounding_of_completed [Buzzer.Lawful β] {c c' : Console κ δ β}
    (h : frame.run c = .ok .proceed c') :
    Buzzer.sounding c'.buzzer = c'.machine.toneOn := by
  rw [frame_eq_prepare, EStateM.run_bind] at h
  cases hprepare : prepare.run c with
  | error failure c₁ =>
    rw [hprepare] at h
    cases h
  | ok tone c₁ =>
    rw [hprepare] at h
    obtain ⟨on, rfl, hset, rfl⟩ := settle_completed h
    calc Buzzer.sounding (Buzzer.follow c₁.buzzer on).2
        = on := Buzzer.sounding_of_follow_ok hset
      _ = c₁.machine.toneOn := eq_toneOn_of_prepare hprepare

theorem after_mainLoop (limit : Option Nat) (c : Console κ δ β) :
    c.after (mainLoop limit) =
      (runFrames (budget limit) 0 c).2.after (finish (runFrames (budget limit) 0 c).1) := rfl

omit [Keyboard κ] [Display δ] in
theorem buzzer_after_finish (ending : Ending) (c : Console κ δ β) :
    (c.after (finish ending)).buzzer = (Buzzer.follow c.buzzer false).2 := by
  rw [after, run_finish]
  obtain ⟨answer, buzzer⟩ := Buzzer.follow c.buzzer false
  cases answer with
  | error why => rfl
  | ok => cases ending.failure <;> rfl

/-- The values the tone is set to while a call is served, in order. -/
def tonesOf (c : Console κ δ β) (call : Call) : List Bool :=
  (c.framesOf call).filterMap tone ++
    match call with
    | .frame => []
    | .mainLoop _ => [false]

omit [Buzzer β] in
theorem filterMap_tone_cons (c : Console κ δ β) (others : List (Console κ δ β)) :
    (c :: others).filterMap tone = c.tone.toList ++ others.filterMap tone := by
  rw [List.filterMap_cons]
  cases c.tone <;> rfl

theorem buzzer_after_runFrames (budget done : Nat) (c : Console κ δ β) :
    (runFrames budget done c).2.buzzer =
      Buzzer.followAll c.buzzer ((loopFrames budget c).filterMap tone) := by
  induction budget generalizing done c with
  | zero => rfl
  | succ budget ih =>
    have hframe := buzzer_after_frame c
    cases hcompletes : c.completes with
    | true =>
      rw [runFrames_of_completes hcompletes, loopFrames_of_completes hcompletes,
        filterMap_tone_cons, Buzzer.followAll_append, ← hframe]
      exact ih (done + 1) (c.after frame)
    | false =>
      rw [runFrames_of_not_completes hcompletes, loopFrames_of_not_completes hcompletes,
        filterMap_tone_cons, List.filterMap_nil, List.append_nil]
      exact hframe

theorem buzzer_after_serve (c : Console κ δ β) (call : Call) :
    (c.serve call).buzzer = Buzzer.followAll c.buzzer (c.tonesOf call) := by
  cases call with
  | frame =>
    rw [tonesOf, framesOf, filterMap_tone_cons, List.filterMap_nil, List.append_nil,
      List.append_nil]
    exact buzzer_after_frame c
  | mainLoop limit =>
    rw [serve, after_mainLoop, buzzer_after_finish, buzzer_after_runFrames, tonesOf,
      Buzzer.followAll_append]
    rfl

/-- The console after calls. -/
def serveAll (c : Console κ δ β) (calls : List Call) : Console κ δ β :=
  calls.foldl serve c

/-- The values the tone is set to while calls are served, in order. -/
def tones (c : Console κ δ β) : List Call → List Bool
  | [] => []
  | call :: calls => c.tonesOf call ++ (c.serve call).tones calls

/-- The buzzer follows the tones and meets with nothing else. -/
theorem buzzer_after_serveAll (c : Console κ δ β) (calls : List Call) :
    (c.serveAll calls).buzzer = Buzzer.followAll c.buzzer (c.tones calls) := by
  induction calls generalizing c with
  | nil => rfl
  | cons call calls ih =>
    rw [tones, Buzzer.followAll_append, ← buzzer_after_serve]
    exact ih (c.serve call)

/-- Every frame that is completed leaves the buzzer as the sound timer wants it, and every main loop
that can switch it off leaves it silent.  The commands it obeys alternate, a start first; and while
it fails at none, there is one for each change of the tone. -/
theorem tone_follows_timer [Buzzer.Lawful β] {c : Console κ δ (Metered β)}
    (hunused : c.buzzer.calls = []) (hsilent : Buzzer.sounding c.buzzer = false)
    (calls : List Call) :
    let left := (c.serveAll calls).buzzer
    (∀ c₁ ∈ c.frameStarts calls, ∀ c₂, frame.run c₁ = .ok .proceed c₂ →
        (Buzzer.sounding c₂.buzzer = true ↔ 0 < c₂.machine.timers.sound)) ∧
      (false :: left.obeyed).IsChain (· ≠ ·) ∧
      (∀ earlier limit later, calls = earlier ++ .mainLoop limit :: later →
        (c.serveAll earlier).closing limit = .ok () →
          Buzzer.sounding ((c.serveAll earlier).after (mainLoop limit)).buzzer = false) ∧
      ((∀ call ∈ left.calls, call.2 = .ok ()) →
        left.calls.length = Buzzer.changes false (c.tones calls)) := by
  intro left
  have hleft : left = Buzzer.followAll c.buzzer (c.tones calls) := buzzer_after_serveAll c calls
  refine ⟨fun c₁ _ c₂ hframe => ?_, ?_, fun earlier limit later _ hclosing => ?_, fun hok => ?_⟩
  · rw [sounding_of_completed hframe]
    exact c₂.machine.toneOn_iff
  · rw [hleft]
    exact (Metered.alternates_followAll (Metered.alternates_unused hunused hsilent) _).chain
  · rw [after_mainLoop, buzzer_after_finish]
    exact Buzzer.sounding_of_follow_ok hclosing
  · rw [hleft] at hok ⊢
    rw [Metered.length_calls_followAll (Metered.keepsUp_of_calls hok), hunused, hsilent,
      List.length_nil, Nat.zero_add]

/-- A buzzer that fails when it is first started is started in the next frame and silenced at the
end; one that does not fail is told once to start when the tone starts. -/
theorem missed_start_made_up :
    let buzzer : Flaky Mute := ⟨.fresh, 0, fun n => if n = 0 then some "sound failed" else none⟩
    let c : Console Script Recorder (Metered (Flaky Mute)) :=
      ⟨chiming, ⟨[]⟩, .fresh, ⟨buzzer, []⟩, 3⟩
    let c' : Console Script Recorder (Metered Mute) := ⟨chiming, ⟨[]⟩, .fresh, ⟨.fresh, []⟩, 3⟩
    failed (frame.run c) = some (.buzzer "sound failed") ∧
      (Buzzer.sounding ((c.after frame).after frame).buzzer = true ↔
        0 < ((c.after frame).after frame).machine.timers.sound) ∧
      Buzzer.sounding ((c.after frame).after (mainLoop (some 1))).buzzer = false ∧
      (c'.serveAll [.frame]).buzzer.calls.length = Buzzer.changes false (c'.tones [.frame]) := by
  intro buzzer c c'
  obtain ⟨hsounding, -, hsilenced, -⟩ :=
    tone_follows_timer (c := c) rfl rfl [.frame, .mainLoop (some 1)]
  obtain ⟨-, -, -, hcounted⟩ := tone_follows_timer (c := c') rfl rfl [.frame]
  have hsecond : frame.run (c.after frame) = .ok .proceed ((c.after frame).after frame) :=
    run_eq_ok (by decide +kernel)
  have hstart : c.after frame ∈ c.frameStarts [.frame, .mainLoop (some 1)] := by
    simp [frameStarts, framesOf, serve, budget, loopFrames]
  have hclosing : ((c.after frame).closing (some 1)) = .ok () :=
    Buzzer.eq_ok_of_isOk (by decide +kernel)
  have hcalls : ∀ call ∈ (c'.serveAll [.frame]).buzzer.calls, call.2 = .ok () := by
    have hall : (c'.serveAll [.frame]).buzzer.calls.all (·.2.isOk) = true := by decide +kernel
    exact fun call hcall => Buzzer.eq_ok_of_isOk (List.all_eq_true.mp hall call hcall)
  exact ⟨by decide +kernel, hsounding _ hstart _ hsecond,
    hsilenced [.frame] (some 1) [] rfl hclosing, hcounted hcalls⟩

end Tone

end Console

end Chip8
