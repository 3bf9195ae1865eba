import Chip8.Proofs.Console.Frame

/-!
# Calls of a host

A host makes frames one by one or lets the main loop make them.  Either way a frame starts from the
console that the frame before it left, or from one that a main loop left when it ended; so what
frames and the end of a loop keep is true wherever a frame starts.
-/

namespace Chip8.Console

variable {κ δ β : Type}

/-- What a host may call. -/
inductive Call where
  | frame
  | mainLoop (limit : Option Nat)

theorem after_finish [Buzzer β] (ending : Ending) (c : Console κ δ β) :
    ∃ session buzzer, session.machine = c.machine ∧
      c.after (finish ending) = { c with session, buzzer } := by
  have htone := after_setTone false c
  rw [finish, after_bind]
  cases hrun : (setTone false).run c with
  | error failure c' =>
    rw [after_of_error hrun] at htone
    exact ⟨c.session, _, rfl, htone⟩
  | ok a c' =>
    rw [after_of_ok hrun] at htone
    subst htone
    refine ⟨c.session.note (.stopped ending.frames), (Buzzer.follow c.buzzer false).2, rfl, ?_⟩
    cases ending.failure <;> rfl

section Calls

variable [Keyboard κ] [Display δ] [Buzzer β]

def serve (c : Console κ δ β) : Call → Console κ δ β
  | .frame => c.after frame
  | .mainLoop limit => c.after (mainLoop limit)

/-- The consoles from which a loop starts its frames. -/
def loopFrames : Nat → Console κ δ β → List (Console κ δ β)
  | 0, _ => []
  | budget + 1, c =>
    c :: match frame.run c with
      | .ok .proceed c' => loopFrames budget c'
      | _ => []

def framesOf (c : Console κ δ β) : Call → List (Console κ δ β)
  | .frame => [c]
  | .mainLoop limit => loopFrames (budget limit) c

/-- The consoles from which frames start while calls are served, those of a main loop included. -/
def frameStarts (c : Console κ δ β) : List Call → List (Console κ δ β)
  | [] => []
  | call :: calls => c.framesOf call ++ (c.serve call).frameStarts calls

/-- A loop leaves the console as its last frame does. -/
theorem runFrames_eq_last (budget done : Nat) (c : Console κ δ β) :
    (runFrames budget done c).2 = ((loopFrames budget c).getLast?.map (after frame)).getD c := by
  induction budget generalizing done c with
  | zero => rfl
  | succ budget ih =>
    rw [runFrames, advance, loopFrames]
    cases hrun : frame.run c with
    | error failure c' => simp [after_of_error hrun]
    | ok verdict c' =>
      cases verdict with
      | quit => simp [after_of_ok hrun]
      | proceed =>
        dsimp only
        rw [ih]
        cases hlast : loopFrames budget c' with
        | nil => simp [after_of_ok hrun]
        | cons first others => simp [List.getLast?_cons]

variable {P : Console κ δ β → Prop}

theorem forall_loopFrames (hframe : ∀ c, P c → P (c.after frame)) (budget : Nat)
    {c : Console κ δ β} (h : P c) : ∀ c' ∈ loopFrames budget c, P c' := by
  induction budget generalizing c with
  | zero => simp [loopFrames]
  | succ budget ih =>
    rw [loopFrames, List.forall_mem_cons]
    refine ⟨h, ?_⟩
    have hnext := hframe c h
    split
    · next c' hrun =>
      rw [after_of_ok hrun] at hnext
      exact ih hnext
    · simp

theorem mainLoop_keeps (hframe : ∀ c, P c → P (c.after frame))
    (hfinish : ∀ ending c, P c → P (c.after (finish ending))) (limit : Option Nat)
    {c : Console κ δ β} (h : P c) : P (c.after (mainLoop limit)) := by
  have hloop : P (runFrames (budget limit) 0 c).2 := by
    rw [runFrames_eq_last]
    cases hlast : (loopFrames (budget limit) c).getLast? with
    | none => exact h
    | some c' => exact hframe c' (forall_loopFrames hframe _ h c' (List.mem_of_getLast? hlast))
  exact hfinish (runFrames (budget limit) 0 c).1 _ hloop

/-- What frames and the end of a loop keep holds wherever a frame starts. -/
theorem forall_frameStarts (hframe : ∀ c, P c → P (c.after frame))
    (hfinish : ∀ ending c, P c → P (c.after (finish ending))) (calls : List Call)
    {c : Console κ δ β} (h : P c) : ∀ c' ∈ c.frameStarts calls, P c' := by
  induction calls generalizing c with
  | nil => simp [frameStarts]
  | cons call calls ih =>
    rw [frameStarts, List.forall_mem_append]
    cases call with
    | frame =>
      refine ⟨?_, ih (hframe c h)⟩
      simpa [framesOf] using h
    | mainLoop limit =>
      exact ⟨forall_loopFrames hframe _ h, ih (mainLoop_keeps hframe hfinish limit h)⟩

end Calls

end Chip8.Console
