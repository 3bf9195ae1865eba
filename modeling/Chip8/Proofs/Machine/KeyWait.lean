import Chip8.Proofs.Instruction.Catalogue
import Chip8.Proofs.Machine.Halting

/-!
# Waiting for a key

The one instruction that waits for a key suspends the machine, and only a key that is on the pad
lets it go on.  Until then steps do nothing, and all the rest that a host may ask touches the timers,
the keypad and the redraw request alone.  So it makes no difference how many steps are taken in the
meantime, and a wait ends with a key or not at all.
-/

namespace Chip8

/-- The request cannot end a wait: it offers no key, or one that is not on the pad. -/
def Request.Patient : Request → Prop
  | .resolveKey code => 15 < code.toNat
  | .step | .tick | .keyDown _ | .keyUp _ | .takeRedraw => True

theorem Request.exists_key_of_not_patient {request : Request} (h : ¬ request.Patient) :
    ∃ code, request = .resolveKey code ∧ code.toNat ≤ 15 := by
  cases request with
  | resolveKey code => exact ⟨code, rfl, Nat.le_of_not_lt h⟩
  | step | tick | keyDown _ | keyUp _ | takeRedraw => exact absurd trivial h

namespace Machine

variable {m m' : Machine} {request : Request} {requests : List Request} {x : Register}

/-! ## How a wait begins -/

/-- The machine two bytes further, waiting for a key for register `x`. -/
def suspend (m : Machine) (x : Register) : Machine :=
  { m with state := .waiting x }.next

/-- A request that executes nothing keeps the run state, halts the machine or sets it running. -/
theorem state_of_not_executed (h : m.executed request = none) :
    (m.perform request).2.state = m.state ∨ (m.perform request).2.state = .halted ∨
      (m.perform request).2.state = .running := by
  cases request with
  | step =>
    rcases perform_step_of_not_executed h with hsame | hhalted
    · exact .inl (congrArg state hsame)
    · exact .inr (.inl (congrArg state hhalted))
  | tick | takeRedraw => exact .inl rfl
  | keyDown code =>
    rw [perform_keyDown]
    cases m.keypad.press code <;> exact .inl rfl
  | keyUp code =>
    rw [perform_keyUp]
    cases m.keypad.release code <;> exact .inl rfl
  | resolveKey code =>
    rw [perform_resolveKey]
    cases Key.ofCode code with
    | error fault => exact .inl rfl
    | ok key =>
      cases hstate : m.state with
      | running | halted => exact .inl hstate
      | waiting x => exact .inr (.inr rfl)

theorem perform_step_of_waitKey {w : Opcode} (hstate : m.state = .running)
    (hfetch : m.fetch = .ok w) (hfits : w.Fits "FX0A") :
    m.perform .step = (.done, m.suspend w.x) := by
  have hdecode := Instruction.decode_eq_waitKey_iff.mpr ⟨hfits, Eq.refl w.x⟩
  apply perform_step_of_ok hstate
  rw [cycle_of_fetch hfetch, hdecode]
  rfl

theorem waitKey_of_suspended (hbefore : m.state ≠ .waiting x)
    (hafter : (m.perform request).2.state = .waiting x) :
    request = .step ∧ m.state = .running ∧
      ∃ w, m.fetch = .ok w ∧ w.Fits "FX0A" ∧ w.x = x := by
  cases hexecuted : m.executed request with
  | none =>
    obtain hstate | hstate | hstate := state_of_not_executed hexecuted
    · exact absurd (hstate.symm.trans hafter) hbefore
    · cases hstate.symm.trans hafter
    · cases hstate.symm.trans hafter
  | some e =>
    obtain ⟨rfl, rfl, hstate, w, m', hfetch, hdecode, -⟩ := executed_eq_some_iff.mp hexecuted
    obtain ⟨-, hexecute⟩ := perform_of_executed hexecuted
    refine ⟨rfl, hstate, w, hfetch, Instruction.decode_eq_waitKey_iff.mp ?_⟩
    rw [hdecode]
    cases hi : e.instruction with
    | waitKey y =>
      rw [hi] at hexecute
      rw [← Except.ok.inj hexecute] at hafter
      rw [RunState.waiting.inj hafter]
    | _ =>
      -- no other instruction touches the run state
      rw [hi] at hexecute
      rw [(control_execute hexecute).1] at hafter
      exact absurd hafter hbefore

/-! ## While it lasts -/

theorem perform_step_of_waiting (h : m.state = .waiting x) : m.perform .step = (.done, m) := by
  rw [perform, step_of_waiting h]

theorem perform_of_waiting (h : m.state = .waiting x) (hpatient : request.Patient) :
    ∃ timers keypad redraw, (m.perform request).2 = { m with timers, keypad, redraw } := by
  cases request with
  | step => exact ⟨m.timers, m.keypad, m.redraw, by rw [perform_step_of_waiting h]⟩
  | tick => exact ⟨m.timers.tick, m.keypad, m.redraw, rfl⟩
  | takeRedraw => exact ⟨m.timers, m.keypad, false, rfl⟩
  | keyDown code =>
    rw [perform_keyDown]
    cases m.keypad.press code <;> exact ⟨_, _, _, rfl⟩
  | keyUp code =>
    rw [perform_keyUp]
    cases m.keypad.release code <;> exact ⟨_, _, _, rfl⟩
  | resolveKey code =>
    rw [(m.perform_of_invalid_key hpatient).2.2]
    exact ⟨m.timers, m.keypad, m.redraw, rfl⟩

theorem state_perform_of_waiting (h : m.state = .waiting x) (hpatient : request.Patient) :
    (m.perform request).2.state = .waiting x := by
  obtain ⟨timers, keypad, redraw, hperform⟩ := perform_of_waiting h hpatient
  rw [hperform, h]

theorem run_of_waiting (h : m.state = .waiting x) (hpatient : ∀ r ∈ requests, r.Patient) :
    ∃ timers keypad redraw, m.run requests = { m with timers, keypad, redraw } := by
  induction requests generalizing m with
  | nil => exact ⟨m.timers, m.keypad, m.redraw, rfl⟩
  | cons request requests ih =>
    rw [List.forall_mem_cons] at hpatient
    obtain ⟨hfirst, hothers⟩ := hpatient
    obtain ⟨timers, keypad, redraw, hperform⟩ := perform_of_waiting h hfirst
    rw [run_cons, hperform]
    exact ih h hothers

/-- The two lists of requests differ only in how often a step is asked of the machine while it is
waiting. -/
inductive DifferInIdleSteps : Machine → List Request → List Request → Prop where
  | nil (m : Machine) : DifferInIdleSteps m [] []
  | both {m : Machine} {rs rs' : List Request} (request : Request)
      (rest : DifferInIdleSteps (m.perform request).2 rs rs') :
      DifferInIdleSteps m (request :: rs) (request :: rs')
  | left {m : Machine} {rs rs' : List Request} (idle : m.isWaiting = true)
      (rest : DifferInIdleSteps m rs rs') : DifferInIdleSteps m (.step :: rs) rs'
  | right {m : Machine} {rs rs' : List Request} (idle : m.isWaiting = true)
      (rest : DifferInIdleSteps m rs rs') : DifferInIdleSteps m rs (.step :: rs')

theorem perform_idle_step (h : m.isWaiting = true) : (m.perform .step).2 = m := by
  cases hstate : m.state with
  | waiting x => rw [perform_step_of_waiting hstate]
  | running | halted => simp [isWaiting, hstate] at h

theorem run_eq_of_differInIdleSteps {rs rs' : List Request} (h : m.DifferInIdleSteps rs rs') :
    m.run rs = m.run rs' := by
  induction h with
  | nil m => rfl
  | both request rest ih => rw [run_cons, run_cons, ih]
  | left idle rest ih => rw [run_cons, perform_idle_step idle, ih]
  | right idle rest ih => rw [run_cons, perform_idle_step idle, ih]

/-! ## How it ends -/

theorem perform_resolveKey_of_waiting {code : UInt8} (h : m.state = .waiting x)
    (hcode : code.toNat ≤ 15) :
    m.perform (.resolveKey code) = (.flag true, { m.put x code with state := .running }) := by
  rw [perform_resolveKey, Key.ofCode, dif_pos (Nat.lt_succ_of_le hcode), h]

theorem perform_resolveKey_of_not_waiting {code : UInt8} (h : ∀ x, m.state ≠ .waiting x)
    (hcode : code.toNat ≤ 15) : m.perform (.resolveKey code) = (.flag false, m) := by
  rw [perform_resolveKey, Key.ofCode, dif_pos (Nat.lt_succ_of_le hcode)]
  cases hstate : m.state with
  | waiting x => exact absurd hstate (h x)
  | running | halted => rfl

/-- A run that leads out of a wait has a key in it that ended the wait. -/
theorem exists_key_of_not_waiting (h : m.state = .waiting x)
    (hleft : (m.run requests).state ≠ .waiting x) :
    ∃ before code after, requests = before ++ .resolveKey code :: after ∧ code.toNat ≤ 15 ∧
      (m.run before).state = .waiting x := by
  induction requests generalizing m with
  | nil => exact absurd h hleft
  | cons request requests ih =>
    by_cases hpatient : request.Patient
    · have hstill := state_perform_of_waiting h hpatient
      obtain ⟨before, code, after, rfl, hcode, hwaiting⟩ := ih hstill hleft
      exact ⟨request :: before, code, after, rfl, hcode, hwaiting⟩
    · obtain ⟨code, rfl, hcode⟩ := Request.exists_key_of_not_patient hpatient
      exact ⟨[], code, requests, rfl, hcode, h⟩

/-- A wait begins with the one instruction that waits, which leaves all else but the program counter
as it was; it lasts, and steps do nothing, until a key ends it, which sets the register and nothing
else; and a key that ends no wait changes nothing.  So idle steps make no difference, and a waiting
machine does not halt before a key ended the wait. -/
theorem wait_ends_with_key (m : Machine) :
    (∀ request x, m.state ≠ .waiting x → (m.perform request).2.state = .waiting x →
      request = .step ∧ m.state = .running ∧
        (∃ w, m.fetch = .ok w ∧ w.Fits "FX0A" ∧ w.x = x) ∧
          m.perform .step = (.done, m.suspend x) ∧
            (m.suspend x).pc.toNat = m.pc.toNat + 2) ∧
    (∀ w, m.state = .running → m.fetch = .ok w → w.Fits "FX0A" →
      (m.perform .step).2.state = .waiting w.x) ∧
    (∀ x, m.state = .waiting x →
      (∀ requests, (∀ r ∈ requests, r.Patient) →
        (m.run requests).perform .step = (.done, m.run requests) ∧
          ∃ timers keypad redraw, m.run requests = { m with timers, keypad, redraw }) ∧
      (∀ request, (m.perform request).2.state ≠ .waiting x →
        ∃ code, request = .resolveKey code ∧ code.toNat ≤ 15) ∧
      (∀ code : UInt8, code.toNat ≤ 15 →
        m.perform (.resolveKey code) = (.flag true, { m.put x code with state := .running }) ∧
          ∀ y, (m.put x code).get y = if x = y then code else m.get y) ∧
      ∀ requests, (m.run requests).state = .halted →
        ∃ before code after, requests = before ++ .resolveKey code :: after ∧
          (m.run before).state = .waiting x ∧
            ((m.run before).perform (.resolveKey code)).1 = .flag true) ∧
    (∀ code : UInt8, code.toNat ≤ 15 → (∀ x, m.state ≠ .waiting x) →
      m.perform (.resolveKey code) = (.flag false, m)) ∧
    ∀ rs rs', m.DifferInIdleSteps rs rs' → m.run rs = m.run rs' := by
  refine ⟨fun request x hbefore hafter => ?_, fun w hstate hfetch hfits => ?_,
    fun x hwaiting => ⟨fun requests hpatient => ?_, fun request hleft => ?_,
      fun code hcode => ⟨perform_resolveKey_of_waiting hwaiting hcode, fun y => get_put ..⟩,
      fun requests hhalted => ?_⟩,
    fun code hcode hstate => perform_resolveKey_of_not_waiting hstate hcode,
    fun rs rs' => run_eq_of_differInIdleSteps⟩
  · obtain ⟨rfl, hstate, w, hfetch, hfits, rfl⟩ := waitKey_of_suspended hbefore hafter
    exact ⟨rfl, hstate, ⟨w, hfetch, hfits, rfl⟩, perform_step_of_waitKey hstate hfetch hfits,
      toNat_pc_add_two (fetch_eq_ok_iff.mp hfetch).1⟩
  · rw [perform_step_of_waitKey hstate hfetch hfits]
    rfl
  · obtain ⟨timers, keypad, redraw, hrun⟩ := run_of_waiting hwaiting hpatient
    refine ⟨perform_step_of_waiting (x := x) ?_, timers, keypad, redraw, hrun⟩
    rw [hrun, hwaiting]
  · exact Request.exists_key_of_not_patient fun hpatient =>
      hleft (state_perform_of_waiting hwaiting hpatient)
  · have hleft : (m.run requests).state ≠ .waiting x := fun h => by cases hhalted.symm.trans h
    obtain ⟨before, code, after, hsplit, hcode, hbefore⟩ :=
      exists_key_of_not_waiting hwaiting hleft
    refine ⟨before, code, after, hsplit, hbefore, ?_⟩
    rw [perform_resolveKey_of_waiting hbefore hcode]

/-- A program that waits for a key in `V3`: it is suspended by its first step, stays so for a step
more and a key that is not on the pad, and goes on with key 7. -/
theorem key_seven_resumes :
    let m := loaded [0xF3, 0x0A] .standard (.ofSeed 1)
    (m.perform .step).2.state = .waiting ⟨3, by decide⟩ ∧
      (((m.perform .step).2.run [.step, .tick, .resolveKey 16]).perform .step).1 = .done ∧
      ((m.perform .step).2.perform (.resolveKey 7)).1 = .flag true ∧
      m.perform (.resolveKey 7) = (.flag false, m) := by
  intro m
  have hfetch : m.fetch = .ok 0xF30A := fetch_eq_ok_iff.mpr ⟨by decide, by decide +kernel⟩
  obtain ⟨-, hsuspends, -, hignored, -⟩ := wait_ends_with_key m
  have hwaiting := hsuspends 0xF30A rfl hfetch (by decide)
  obtain ⟨-, -, hwait, -, -⟩ := wait_ends_with_key (m.perform .step).2
  obtain ⟨hlasts, -, hresolved, -⟩ := hwait _ hwaiting
  have hpatient : ∀ r ∈ [Request.step, .tick, .resolveKey 16], r.Patient := by
    simp [Request.Patient]
  exact ⟨hwaiting, congrArg Prod.fst (hlasts _ hpatient).1,
    congrArg Prod.fst (hresolved 7 (by decide)).1, hignored 7 (by decide) fun x hx => by cases hx⟩

end Machine

end Chip8
