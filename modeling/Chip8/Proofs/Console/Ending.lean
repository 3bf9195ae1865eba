import Chip8.Proofs.Console.Buzzer
import Chip8.Proofs.Console.Calls
import Chip8.Proofs.Machine.Reachable

/-!
# How a main loop ends

A loop goes on as long as its frames are completed.  So it is settled by the first frame that is
not: with one that quits it answers how many were completed, with one that fails it fails, and
without either it ends at its limit.  As the limit is looked at after a frame, no limit is below
one.  Whatever the end is, the tone is switched off before it is reported, and a buzzer that cannot
be switched off takes the place of what was to be reported.
-/

namespace Chip8.Console

variable {κ δ β : Type}

theorem run_finish [Buzzer β] (ending : Ending) (c : Console κ δ β) :
    (finish ending).run c =
      match Buzzer.follow c.buzzer false with
      | (.error why, buzzer) => .error (.buzzer why) { c with buzzer }
      | (.ok (), buzzer) =>
        let c' := { c with session := c.session.note (.stopped ending.frames), buzzer }
        match ending.failure with
        | none => .ok ending.frames c'
        | some failure => .error failure c' := by
  rw [finish, EStateM.run_bind, run_setTone]
  obtain ⟨answer, buzzer⟩ := Buzzer.follow c.buzzer false
  cases answer with
  | error why => rfl
  | ok => cases ending.failure <;> rfl

/-- A loop that could switch the tone off reports how it ended. -/
theorem finish_of_silenced [Buzzer β] {c : Console κ δ β}
    (h : (Buzzer.follow c.buzzer false).1 = .ok ()) (ending : Ending) :
    (∀ n, answered ((finish ending).run c) = some n ↔
        ending.failure = none ∧ ending.frames = n) ∧
      failed ((finish ending).run c) = ending.failure := by
  rw [run_finish]
  generalize Buzzer.follow c.buzzer false = outcome at h ⊢
  obtain ⟨answer, buzzer⟩ := outcome
  obtain rfl : answer = .ok () := h
  cases ending.failure <;> simp [answered, failed]

/-- A loop that could not reports that. -/
theorem failed_finish_of_stuck [Buzzer β] {c : Console κ δ β} {why : String}
    (h : (Buzzer.follow c.buzzer false).1 = .error why) (ending : Ending) :
    failed ((finish ending).run c) = some (.buzzer why) := by
  rw [run_finish]
  generalize Buzzer.follow c.buzzer false = outcome at h ⊢
  obtain ⟨answer, buzzer⟩ := outcome
  obtain rfl : answer = .error why := h
  rfl

section Loop

variable [Keyboard κ] [Display δ] [Buzzer β]

theorem run_mainLoop (limit : Option Nat) (c : Console κ δ β) :
    (mainLoop limit).run c =
      (finish (runFrames (budget limit) 0 c).1).run (runFrames (budget limit) 0 c).2 := rfl

/-- How the buzzer answers when a main loop has come to its end and switches the tone off. -/
def closing (limit : Option Nat) (c : Console κ δ β) : Except String Unit :=
  (Buzzer.follow (runFrames (budget limit) 0 c).2.buzzer false).1

theorem answered_mainLoop {limit : Option Nat} {c c' : Console κ δ β} {frames : Nat}
    (hclosing : c.closing limit = .ok ())
    (hloop : runFrames (budget limit) 0 c = (⟨frames, none⟩, c')) :
    answered ((mainLoop limit).run c) = some frames := by
  rw [closing, hloop] at hclosing
  rw [run_mainLoop, hloop]
  exact ((finish_of_silenced hclosing _).1 frames).mpr ⟨rfl, rfl⟩

/-! ## What a frame answers -/

/-- The next look at the keyboard brings a wish to quit. -/
def asksToQuit (c : Console κ δ β) : Bool :=
  match (Keyboard.read c.keyboard).events with
  | .ok events => .quit ∈ events
  | .error _ => false

/-- The next frame is completed. -/
def completes (c : Console κ δ β) : Bool :=
  answered (frame.run c) = some .proceed

omit [Keyboard κ] in
theorem answered_render {c : Console κ δ β} (h : failed (render.run c) = none) :
    answered (render.run c) = some .proceed := by
  rw [render, EStateM.run_bind] at h ⊢
  cases hpresent : present.run c with
  | error failure c' => simp [hpresent, failed] at h
  | ok a c' =>
    simp only [hpresent] at h ⊢
    rw [EStateM.run_bind] at h ⊢
    cases htone : followTone.run c' with
    | error failure c'' => simp [htone, failed] at h
    | ok a' c'' => rfl

omit [Display δ] [Buzzer β] in
theorem verdict_of_approach {c c₁ : Console κ δ β} {verdict : Verdict}
    (h : approach.run c = .ok verdict c₁) :
    ∃ events, (Keyboard.read c.keyboard).events = .ok events ∧
      KeyEvent.verdict events = verdict := by
  rw [run_approach] at h
  cases hevents : (Keyboard.read c.keyboard).events with
  | error why =>
    rw [hevents] at h
    cases h
  | ok events =>
    rw [hevents] at h
    dsimp only at h
    cases hwork : c.look.session.performAll (frameRequests c.speed events) with
    | mk fault session =>
      rw [hwork] at h
      cases fault with
      | some cause => cases h
      | none =>
        cases h
        exact ⟨events, rfl, rfl⟩

/-- A frame that does not fail does what the events say. -/
theorem answered_frame {c : Console κ δ β} (h : failed (frame.run c) = none) :
    ∃ events, (Keyboard.read c.keyboard).events = .ok events ∧
      answered (frame.run c) = some (KeyEvent.verdict events) := by
  rw [run_frame] at h ⊢
  cases happroach : approach.run c with
  | error failure c₁ =>
    rw [happroach] at h
    cases h
  | ok verdict c₁ =>
    rw [happroach] at h
    obtain ⟨events, hevents, rfl⟩ := verdict_of_approach happroach
    refine ⟨events, hevents, ?_⟩
    cases hverdict : KeyEvent.verdict events with
    | quit => rfl
    | proceed =>
      rw [hverdict] at h
      exact answered_render h

theorem completes_of_not_failed {c : Console κ δ β} (h : failed (frame.run c) = none) :
    c.completes = !c.asksToQuit := by
  obtain ⟨events, hevents, hanswered⟩ := answered_frame h
  rw [completes, hanswered, asksToQuit, hevents, KeyEvent.verdict]
  split <;> simp_all

/-! ## The frames of a loop -/

/-- The console after a number of frames, whatever becomes of each. -/
def afterFrames : Nat → Console κ δ β → Console κ δ β
  | 0, c => c
  | n + 1, c => afterFrames n (c.after frame)

theorem forall_afterFrames_succ {n : Nat} {c : Console κ δ β} :
    (∀ i < n + 1, (c.afterFrames i).completes = true) ↔
      c.completes = true ∧ ∀ i < n, ((c.after frame).afterFrames i).completes = true :=
  Nat.forall_lt_succ_left

section Completed

variable {c : Console κ δ β} (h : c.completes = true) (budget : Nat)

include h

theorem run_frame_of_completes : frame.run c = .ok .proceed (c.after frame) :=
  run_eq_ok (by simpa [completes] using h)

theorem runFrames_of_completes (done : Nat) :
    runFrames (budget + 1) done c = runFrames budget (done + 1) (c.after frame) := by
  rw [runFrames, advance, run_frame_of_completes h]

theorem loopFrames_of_completes :
    loopFrames (budget + 1) c = c :: loopFrames budget (c.after frame) := by
  rw [loopFrames, run_frame_of_completes h]

end Completed

section Last

variable {c : Console κ δ β} (h : c.completes = false) (budget : Nat)

include h

theorem runFrames_of_not_completes (done : Nat) :
    runFrames (budget + 1) done c = (⟨done, failed (frame.run c)⟩, c.after frame) := by
  rw [runFrames, advance, after]
  cases hrun : frame.run c with
  | error failure c' => rfl
  | ok verdict c' =>
    cases verdict with
    | quit => rfl
    | proceed => simp [completes, hrun, answered] at h

theorem loopFrames_of_not_completes : loopFrames (budget + 1) c = [c] := by
  rw [loopFrames]
  cases hrun : frame.run c with
  | error failure c' => rfl
  | ok verdict c' =>
    cases verdict with
    | quit => rfl
    | proceed => simp [completes, hrun, answered] at h

end Last

/-- Frames that are completed do not end a loop that has room for more. -/
theorem runFrames_add {n : Nat} {c : Console κ δ β}
    (h : ∀ i < n, (c.afterFrames i).completes = true) (budget done : Nat) :
    runFrames (n + budget) done c = runFrames budget (done + n) (c.afterFrames n) := by
  induction n generalizing c done with
  | zero => simp [afterFrames]
  | succ n ih =>
    obtain ⟨hfirst, hothers⟩ := forall_afterFrames_succ.mp h
    rw [Nat.succ_add, runFrames_of_completes hfirst, ih hothers, Nat.succ_add_eq_add_succ]
    rfl

theorem loopFrames_add {n : Nat} {c : Console κ δ β}
    (h : ∀ i < n, (c.afterFrames i).completes = true) (budget : Nat) :
    loopFrames (n + budget) c = loopFrames n c ++ loopFrames budget (c.afterFrames n) := by
  induction n generalizing c with
  | zero => simp [afterFrames, loopFrames]
  | succ n ih =>
    obtain ⟨hfirst, hothers⟩ := forall_afterFrames_succ.mp h
    rw [Nat.succ_add, loopFrames_of_completes hfirst, loopFrames_of_completes hfirst, ih hothers]
    rfl

theorem afterFrames_mem_loopFrames {n : Nat} {c : Console κ δ β}
    (h : ∀ i < n, (c.afterFrames i).completes = true) (budget : Nat) :
    c.afterFrames n ∈ loopFrames (n + (budget + 1)) c := by
  rw [loopFrames_add h, List.mem_append, loopFrames]
  exact .inr List.mem_cons_self

/-- Frames are counted as they are completed. -/
theorem frames_runFrames (budget done : Nat) (c : Console κ δ β) :
    (runFrames budget done c).1.frames = done + (loopFrames budget c).countP completes := by
  induction budget generalizing done c with
  | zero => rfl
  | succ budget ih =>
    cases hcompletes : c.completes with
    | true =>
      rw [runFrames_of_completes hcompletes, loopFrames_of_completes hcompletes, ih,
        List.countP_cons_of_pos hcompletes]
      omega
    | false =>
      rw [runFrames_of_not_completes hcompletes, loopFrames_of_not_completes hcompletes]
      simp [hcompletes]

theorem length_loopFrames_le (budget : Nat) (c : Console κ δ β) :
    (loopFrames budget c).length ≤ budget := by
  induction budget generalizing c with
  | zero => exact Nat.zero_le 0
  | succ budget ih =>
    cases hcompletes : c.completes with
    | true =>
      rw [loopFrames_of_completes hcompletes, List.length_cons]
      exact Nat.succ_le_succ (ih _)
    | false => simp [loopFrames_of_not_completes hcompletes]

theorem countP_loopFrames_le (budget : Nat) (c : Console κ δ β) :
    (loopFrames budget c).countP completes ≤ budget :=
  Nat.le_trans List.countP_le_length (length_loopFrames_le budget c)

/-- A loop that counted all the frames it had room for has completed them. -/
theorem completes_of_countP {n : Nat} {c : Console κ δ β}
    (h : (loopFrames n c).countP completes = n) :
    ∀ i < n, (c.afterFrames i).completes = true := by
  induction n generalizing c with
  | zero => simp
  | succ n ih =>
    cases hcompletes : c.completes with
    | true =>
      rw [loopFrames_of_completes hcompletes, List.countP_cons_of_pos hcompletes] at h
      exact forall_afterFrames_succ.mpr ⟨hcompletes, ih (Nat.succ.inj h)⟩
    | false => simp [loopFrames_of_not_completes hcompletes, hcompletes] at h

theorem runFrames_of_all_complete {n : Nat} {c : Console κ δ β}
    (h : ∀ i < n, (c.afterFrames i).completes = true) :
    runFrames n 0 c = (⟨n, none⟩, c.afterFrames n) := by
  simpa [runFrames] using runFrames_add h 0 0

theorem length_loopFrames {n : Nat} {c : Console κ δ β}
    (h : ∀ i < n, (c.afterFrames i).completes = true) : (loopFrames n c).length = n := by
  have hcounted : (loopFrames n c).countP completes = n := by
    simpa [runFrames_of_all_complete h] using (frames_runFrames n 0 c).symm
  refine Nat.le_antisymm (length_loopFrames_le n c) ?_
  calc n = (loopFrames n c).countP completes := hcounted.symm
    _ ≤ (loopFrames n c).length := List.countP_le_length

/-- The first frame that is not completed ends a loop that has room for it. -/
theorem runFrames_of_first {n k : Nat} {c : Console κ δ β} (hk : k < n)
    (hbefore : ∀ i < k, (c.afterFrames i).completes = true)
    (hlast : (c.afterFrames k).completes = false) :
    runFrames n 0 c =
      (⟨k, failed (frame.run (c.afterFrames k))⟩, (c.afterFrames k).after frame) := by
  obtain ⟨room, rfl⟩ := Nat.exists_eq_add_of_lt hk
  rw [Nat.add_assoc, runFrames_add hbefore, runFrames_of_not_completes hlast, Nat.zero_add]

/-- A frame that fails is the last one of its loop. -/
theorem runFrames_of_failed {budget : Nat} (done : Nat) {c c₁ c₂ : Console κ δ β}
    {failure : Failure} (hmem : c₁ ∈ loopFrames budget c)
    (hfailed : frame.run c₁ = .error failure c₂) :
    ∃ frames, runFrames budget done c = (⟨frames, some failure⟩, c₂) := by
  induction budget generalizing done c with
  | zero => cases hmem
  | succ budget ih =>
    cases hcompletes : c.completes with
    | true =>
      rw [loopFrames_of_completes hcompletes, List.mem_cons] at hmem
      rw [runFrames_of_completes hcompletes]
      rcases hmem with rfl | hmem
      · rw [completes, hfailed] at hcompletes
        cases hcompletes
      · exact ih (done + 1) hmem
    | false =>
      rw [loopFrames_of_not_completes hcompletes, List.mem_singleton] at hmem
      subst hmem
      refine ⟨done, ?_⟩
      rw [runFrames_of_not_completes hcompletes, after_of_error hfailed, hfailed, failed]

/-! ## Limits -/

/-- A main loop completes no more frames than its limit allows, a limit of zero allowing one.  It
answers the limit if no frame quits or fails before, and if one quits, the number of frames before
that one. -/
theorem mainLoop_runs_to_limit (limit : Nat) (c : Console κ δ β) :
    let cap := max limit 1
    let frames := loopFrames (budget (some limit)) c
    frames.countP completes ≤ cap ∧
      (c.closing (some limit) = .ok () →
        ((∀ i < cap, (c.afterFrames i).asksToQuit = false ∧
            failed (frame.run (c.afterFrames i)) = none) →
          answered ((mainLoop (some limit)).run c) = some cap ∧ frames.length = cap) ∧
        ∀ k < cap,
          (∀ i ≤ k, (c.afterFrames i).asksToQuit = decide (i = k) ∧
            failed (frame.run (c.afterFrames i)) = none) →
          answered ((mainLoop (some limit)).run c) = some k) := by
  intro cap frames
  refine ⟨countP_loopFrames_le cap c, fun hclosing => ⟨fun hquiet => ?_, fun k hk hfirst => ?_⟩⟩
  · have hall : ∀ i < cap, (c.afterFrames i).completes = true := by
      intro i hi
      obtain ⟨hstays, hunfailed⟩ := hquiet i hi
      rw [completes_of_not_failed hunfailed, hstays, Bool.not_false]
    have hloop : runFrames (budget (some limit)) 0 c = (⟨cap, none⟩, c.afterFrames cap) :=
      runFrames_of_all_complete hall
    exact ⟨answered_mainLoop hclosing hloop, length_loopFrames hall⟩
  · have hbefore : ∀ i < k, (c.afterFrames i).completes = true := by
      intro i hi
      obtain ⟨hstays, hunfailed⟩ := hfirst i (Nat.le_of_lt hi)
      rw [completes_of_not_failed hunfailed, hstays, decide_eq_false (Nat.ne_of_lt hi),
        Bool.not_false]
    obtain ⟨hquits, hunfailed⟩ := hfirst k (Nat.le_refl k)
    have hlast : (c.afterFrames k).completes = false := by
      rw [completes_of_not_failed hunfailed, hquits, decide_eq_true rfl, Bool.not_true]
    have hloop : runFrames (budget (some limit)) 0 c =
        (⟨k, none⟩, (c.afterFrames k).after frame) := by
      rw [budget, runFrames_of_first hk hbefore hlast, hunfailed]
    exact answered_mainLoop hclosing hloop

/-- The session of a program that sets the sound timer to three and then jumps to itself. -/
def chiming : Session :=
  ⟨.loaded [0x60, 0x03, 0xF0, 0x18, 0x12, 0x04] .standard (.ofSeed 1), #[.loaded 6]⟩

theorem start_chiming :
    Session.start [0x60, 0x03, 0xF0, 0x18, 0x12, 0x04] .standard (.ofSeed 1) = .ok chiming := by
  rw [Session.start, Machine.start_loaded (by decide) (by decide)]
  rfl

/-- With a wish to quit in the second frame, one frame is completed whether one is allowed or
five. -/
theorem quit_in_second_frame :
    let c : Console Script Recorder Mute := ⟨chiming, ⟨[[.down 5], [.quit]]⟩, .fresh, .fresh, 1⟩
    (answered ((mainLoop (some 1)).run c) = some 1 ∧
        (loopFrames (budget (some 1)) c).length = 1) ∧
      answered ((mainLoop (some 5)).run c) = some 1 := by
  intro c
  have hfirst : ∀ i ≤ 1, (c.afterFrames i).asksToQuit = decide (i = 1) ∧
      failed (frame.run (c.afterFrames i)) = none := by decide +kernel
  have hquiet : ∀ i < 1, (c.afterFrames i).asksToQuit = false ∧
      failed (frame.run (c.afterFrames i)) = none := by
    intro i hi
    obtain ⟨hasks, hunfailed⟩ := hfirst i (Nat.le_of_lt hi)
    exact ⟨hasks.trans (decide_eq_false (Nat.ne_of_lt hi)), hunfailed⟩
  exact ⟨((mainLoop_runs_to_limit 1 c).2 ((Mute.neverFails _).follow_ok false)).1 hquiet,
    ((mainLoop_runs_to_limit 5 c).2 ((Mute.neverFails _).follow_ok false)).2 1 (by decide) hfirst⟩

/-- A limit of zero lets a frame be completed. -/
theorem limit_zero_allows_frame :
    let c : Console Script Recorder Mute := ⟨chiming, ⟨[]⟩, .fresh, .fresh, 1⟩
    Session.start [0x60, 0x03, 0xF0, 0x18, 0x12, 0x04] .standard (.ofSeed 1) = .ok c.session ∧
      ¬ (loopFrames (budget (some 0)) c).countP completes ≤ 0 ∧
      answered ((mainLoop (some 0)).run c) = some 1 := by
  intro c
  exact ⟨start_chiming, by decide +kernel, by decide +kernel⟩

/-! ## Failures -/

/-- A main loop one of whose frames fails reports that failure, unless the tone is on and cannot be
switched off: then it reports that. -/
theorem mainLoop_reports_failure {limit : Option Nat} {c c₁ c₂ : Console κ δ β}
    {failure : Failure} (hmem : c₁ ∈ loopFrames (budget limit) c)
    (hfailed : frame.run c₁ = .error failure c₂) :
    ((Buzzer.follow c₂.buzzer false).1 = .ok () →
        failed ((mainLoop limit).run c) = some failure) ∧
      ∀ why, (Buzzer.follow c₂.buzzer false).1 = .error why →
        Buzzer.sounding c₂.buzzer = true ∧
          failed ((mainLoop limit).run c) = some (.buzzer why) := by
  obtain ⟨frames, hloop⟩ := runFrames_of_failed 0 hmem hfailed
  rw [run_mainLoop, hloop]
  refine ⟨fun hsilenced => (finish_of_silenced hsilenced _).2, fun why hstuck => ⟨?_, ?_⟩⟩
  · cases hsounding : Buzzer.sounding c₂.buzzer with
    | true => rfl
    | false =>
      rw [Buzzer.follow_of_eq hsounding] at hstuck
      cases hstuck
  · exact failed_finish_of_stuck hstuck _

/-- The session of a program that starts the sound timer and then returns from no call. -/
def stumbling : Session :=
  ⟨.loaded [0x60, 0xFF, 0xF0, 0x18, 0x00, 0xEE] .standard (.ofSeed 1), #[.loaded 6]⟩

theorem fault_reported_on_mute :
    let c : Console Script Recorder Mute := ⟨stumbling, ⟨[]⟩, .fresh, .fresh, 2⟩
    failed (frame.run (c.after frame)) = some (.fault (.stackUnderflow 0x204)) ∧
      failed ((mainLoop (some 10)).run c) = some (.fault (.stackUnderflow 0x204)) := by
  intro c
  have hfailed : failed (frame.run (c.after frame)) = some (.fault (.stackUnderflow 0x204)) := by
    decide +kernel
  have hmem : c.after frame ∈ loopFrames (budget (some 10)) c :=
    afterFrames_mem_loopFrames (n := 1) (by decide +kernel) 8
  exact ⟨hfailed, (mainLoop_reports_failure hmem (run_eq_error hfailed)).1 ((Mute.neverFails _).follow_ok false)⟩

/-- A buzzer that cannot be switched off hides the fault that ended the loop. -/
theorem fault_hidden_by_buzzer :
    let buzzer : Flaky Mute := ⟨.fresh, 0, fun n => if n = 1 then some "sound failed" else none⟩
    let c : Console Script Recorder (Flaky Mute) := ⟨stumbling, ⟨[]⟩, .fresh, buzzer, 2⟩
    Session.start [0x60, 0xFF, 0xF0, 0x18, 0x00, 0xEE] .standard (.ofSeed 1) = .ok c.session ∧
      c.after frame ∈ loopFrames (budget (some 10)) c ∧
      failed (frame.run (c.after frame)) = some (.fault (.stackUnderflow 0x204)) ∧
      failed ((mainLoop (some 10)).run c) ≠ some (.fault (.stackUnderflow 0x204)) := by
  intro buzzer c
  refine ⟨?_, ?_, by decide +kernel, by decide +kernel⟩
  · rw [Session.start, Machine.start_loaded (by decide) (by decide)]
    rfl
  · exact afterFrames_mem_loopFrames (n := 1) (by decide +kernel) 8

end Loop

end Chip8.Console
