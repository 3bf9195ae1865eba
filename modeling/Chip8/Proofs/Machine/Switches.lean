import Chip8.Proofs.Instruction.Catalogue
import Chip8.Proofs.Machine.Amendment
import Chip8.Proofs.Machine.Reachable

/-!
# What the switches decide

A configuration has two switches.  One says what becomes of an unknown opcode: a machine that is
strict does what one that ignores does, up to the first opcode that is passed over, and there it
halts.  The other selects the register that is shifted: where the two registers of every shift are
equal, it makes no difference.
-/

namespace Chip8

/-- If the execution is a shift, its two registers are equal. -/
def Execution.ShiftsEqual (e : Execution) : Prop :=
  let w := e.machine.opcode
  w.Fits "8XY6" ∨ w.Fits "8XYE" → e.machine.get w.x = e.machine.get w.y

theorem Instruction.fits_of_shifted {w : Opcode} {x y : Register}
    (h : (decode w).shifted = some (x, y)) :
    (w.Fits "8XY6" ∨ w.Fits "8XYE") ∧ w.x = x ∧ w.y = y := by
  cases hdecode : decode w with
  | combine operation x' y' =>
    rw [hdecode] at h
    cases operation with
    | shiftRight =>
      cases h
      obtain ⟨hfits, hregisters⟩ := decode_eq_combine_iff.mp hdecode
      exact ⟨.inl hfits, hregisters⟩
    | shiftLeft =>
      cases h
      obtain ⟨hfits, hregisters⟩ := decode_eq_combine_iff.mp hdecode
      exact ⟨.inr hfits, hregisters⟩
    | _ => cases h
  | _ =>
    rw [hdecode] at h
    cases h

namespace Machine

variable {m m' : Machine} {request : Request} {requests : List Request} {w : Opcode}

/-- The machine under another configuration. -/
def under (m : Machine) (config : Config) : Machine :=
  { m with config }

theorem start_under {program : List UInt8} {config config' : Config} {chance : RandomSource}
    (hseed : config'.seed = config.seed) (hstart : start program config chance = .ok m) :
    start program config' chance = .ok (m.under config') := by
  obtain ⟨hsome, hfits, rfl⟩ := start_eq_ok_iff.mp hstart
  refine start_eq_ok_iff.mpr ⟨hsome, hfits, ?_⟩
  rw [loaded, hseed]
  rfl

theorem config_perform (m : Machine) (request : Request) :
    (m.perform request).2.config = m.config := by
  cases hexecuted : m.executed request with
  | none => exact (idle_of_not_executed hexecuted).config
  | some e => exact config_execute (perform_of_executed hexecuted).2

theorem config_run (m : Machine) (requests : List Request) :
    (m.run requests).config = m.config :=
  run_keeps (P := fun m' => m'.config = m.config)
    (fun m' request h => (m'.config_perform request).trans h) rfl requests

/-- Under another configuration a run is the same if no step of it uses what is different. -/
theorem run_under {config : Config}
    (h : ∀ before, before ++ [.step] <+: requests →
      StepSpares { config := fun _ => config } (m.run before)) :
    (m.under config).replies requests = m.replies requests ∧
      (m.under config).run requests = (m.run requests).under config := by
  induction requests generalizing m with
  | nil => exact ⟨rfl, rfl⟩
  | cons request requests ih =>
    have hperform : (m.under config).perform request =
        ((m.perform request).1, (m.perform request).2.under config) := by
      refine perform_amend (a := { config := fun _ => config }) ?_ (fun _ => rfl) fun _ _ => rfl
      rintro rfl
      exact h [] ⟨requests, rfl⟩
    obtain ⟨hreplies, hrun⟩ := ih (m := (m.perform request).2) fun before hprefix =>
      h (request :: before) ((List.prefix_cons_inj request).mpr hprefix)
    rw [replies, replies, run_cons, run_cons, hperform]
    exact ⟨congrArg _ hreplies, hrun⟩

/-! ## Unknown opcodes -/

section Unlisted

variable (hstate : m.state = .running) (hfetch : m.fetch = .ok w) (hunlisted : ¬ w.Listed)

include hstate hfetch hunlisted

theorem perform_step_of_ignored (hpolicy : m.config.unknown = .ignore) :
    m.perform .step = (.done, { m with skipped := m.skipped + 1 }.next) := by
  refine perform_step_of_ok hstate ?_
  rw [cycle_of_fetch hfetch, Instruction.decode_of_not_listed hunlisted, execute, passOver, hpolicy]

theorem perform_step_of_strict (hpolicy : m.config.unknown = .strict) :
    m.perform .step = (.refused (.unknownOpcode w m.pc), { m with state := .halted }) := by
  refine perform_step_of_error hstate ?_
  rw [cycle_of_fetch hfetch, Instruction.decode_of_not_listed hunlisted, execute, passOver, hpolicy]

end Unlisted

theorem skipped_le_run (m : Machine) (requests : List Request) :
    m.skipped ≤ (m.run requests).skipped :=
  run_keeps (P := fun m' => m.skipped ≤ m'.skipped)
    (fun m' request h => Nat.le_trans h (m'.skipped_le_perform request)) (Nat.le_refl _) requests

/-- Opcodes are passed over where the machine runs into one that the catalogue does not have. -/
theorem skipped_perform_ne_iff (hpolicy : m.config.unknown = .ignore) :
    (m.perform request).2.skipped ≠ m.skipped ↔
      request = .step ∧ m.state = .running ∧ ∃ w, m.fetch = .ok w ∧ ¬ w.Listed := by
  constructor
  · intro hskipped
    cases hexecuted : m.executed request with
    | none => exact absurd (idle_of_not_executed hexecuted).skipped hskipped
    | some e =>
      obtain ⟨rfl, rfl, hstate, w, m', hfetch, hdecode, hexecute⟩ :=
        executed_eq_some_iff.mp hexecuted
      refine ⟨rfl, hstate, w, hfetch, ?_⟩
      rw [(control_execute (perform_of_executed hexecuted).2).2] at hskipped
      cases hi : e.instruction with
      | unknown v => exact (Instruction.decode_eq_unknown_iff.mp (hdecode.trans hi)).1
      | _ =>
        rw [hi] at hskipped
        exact absurd rfl hskipped
  · rintro ⟨rfl, hstate, w, hfetch, hunlisted⟩
    rw [perform_step_of_ignored hstate hfetch hunlisted hpolicy]
    exact Nat.succ_ne_self m.skipped

theorem stepSpares_of_not_skipped {config : Config} (hshift : config.shift = m.config.shift)
    (hpolicy : m.config.unknown = .ignore) (h : (m.perform .step).2.skipped = m.skipped) :
    StepSpares { config := fun _ => config } m := by
  intro hstate w hfetch
  refine ⟨fun _ => rfl, fun _ => rfl, fun _ => rfl, fun _ => rfl, fun x y _ => ?_, fun v hi => ?_⟩
  · rw [shiftOperand, shiftOperand, ← hshift]
    rfl
  · have hunlisted := (Instruction.decode_eq_unknown_iff.mp hi).1
    exact absurd h ((skipped_perform_ne_iff hpolicy).mpr ⟨rfl, hstate, w, hfetch, hunlisted⟩)

/-- A machine that has passed over nothing would have done the same under a strict policy. -/
theorem run_under_strict (config : Config) (hshift : config.shift = m.config.shift)
    (hpolicy : m.config.unknown = .ignore) (hskipped : (m.run requests).skipped = m.skipped) :
    (m.under config).replies requests = m.replies requests ∧
      (m.under config).run requests = (m.run requests).under config := by
  refine run_under fun before hbefore => ?_
  obtain ⟨after, rfl⟩ := hbefore
  have hconfig := m.config_run before
  -- The count never goes down, so it has not gone up at this step either.
  refine stepSpares_of_not_skipped (hconfig ▸ hshift) (hconfig ▸ hpolicy) (Nat.le_antisymm ?_ ?_)
  · calc ((m.run before).perform .step).2.skipped
        ≤ (((m.run before).perform .step).2.run after).skipped := skipped_le_run _ after
      _ = m.skipped := by rw [← hskipped, run_append, run_append]; rfl
      _ ≤ (m.run before).skipped := m.skipped_le_run before
  · exact skipped_le_perform _ _

/-! ## Shifts -/

theorem execute_of_shifted {i : Instruction} {x y : Register} (h : i.shifted = some (x, y)) :
    ∃ m', m.execute i = .ok m' := by
  cases i with
  | combine operation x' y' => exact ⟨_, rfl⟩
  | _ => cases h

theorem shiftOperand_of_equal {x y : Register} (h : m.get x = m.get y) :
    m.shiftOperand x y = m.get x := by
  rw [shiftOperand]
  split
  · rfl
  · exact h.symm

theorem stepSpares_of_shiftsEqual {config : Config} (hpolicy : config.unknown = m.config.unknown)
    (h : ∀ e, m.executed .step = some e → e.ShiftsEqual) :
    StepSpares { config := fun _ => config } m := by
  intro hstate w hfetch
  refine ⟨fun _ => rfl, fun _ => rfl, fun _ => rfl, fun _ => rfl, fun x y hshifted => ?_,
    fun _ _ => hpolicy⟩
  obtain ⟨m', hexecute⟩ := execute_of_shifted (m := m) hshifted
  obtain ⟨hfits, rfl, rfl⟩ := Instruction.fits_of_shifted hshifted
  have hequal : m.get w.x = m.get w.y := by
    have hshift := h ⟨m, Instruction.decode w⟩
      (executed_eq_some_iff.mpr ⟨rfl, rfl, hstate, w, m', hfetch, rfl, hexecute⟩)
    rw [Execution.ShiftsEqual, opcode_of_fetch hfetch] at hshift
    exact hshift hfits
  rw [shiftOperand_of_equal hequal]
  exact shiftOperand_of_equal (m := m.under config) hequal

/-- The switch for shifts makes no difference to a run whose shifts have equal registers. -/
theorem run_under_shift (config : Config) (hpolicy : config.unknown = m.config.unknown)
    (h : ∀ e ∈ m.executions requests, e.ShiftsEqual) :
    (m.under config).replies requests = m.replies requests ∧
      (m.under config).run requests = (m.run requests).under config := by
  refine run_under fun before hbefore => ?_
  obtain ⟨after, rfl⟩ := hbefore
  refine stepSpares_of_shiftsEqual (m.config_run before ▸ hpolicy) fun e he => h e ?_
  rw [executions_append, executions_append]
  exact List.mem_append_left _ (List.mem_append_right _ (mem_executions_cons.mpr (.inl he)))

/-! ## Both switches -/

/-- Machines that share their seed start alike.  One that ignores unknown opcodes and one that is
strict give the same replies and go through the same states until the first is about to pass over an
opcode: where it goes on, the second is refused and halts, and nothing else changes.  The switch for
shifts makes no difference as long as the registers of every shift that is executed are equal. -/
theorem switches_isolated {program : List UInt8} {config : Config} {chance : RandomSource}
    {m : Machine} (hstart : start program config chance = .ok m) (requests : List Request) :
    (∀ config', config'.seed = config.seed →
        start program config' chance = .ok (m.under config')) ∧
      (let ignoring := m.under { config with unknown := .ignore }
        let strict := m.under { config with unknown := .strict }
        let now := ignoring.run requests
        now.skipped = 0 →
          (strict.replies requests = ignoring.replies requests ∧
            strict.run requests = now.under strict.config) ∧
          (∀ request, (now.perform request).2.skipped ≠ 0 ↔
            request = .step ∧ now.state = .running ∧ ∃ w, now.fetch = .ok w ∧ ¬ w.Listed) ∧
          ∀ w, now.state = .running → now.fetch = .ok w → ¬ w.Listed →
            now.perform .step = (.done, { now with skipped := 1 }.next) ∧
              (strict.run requests).perform .step =
                (.refused (.unknownOpcode w now.pc),
                  { strict.run requests with state := .halted })) ∧
      ∀ shift shift',
        let one := m.under { config with shift }
        let other := m.under { config with shift := shift' }
        (∀ e ∈ one.executions requests, e.ShiftsEqual) →
          other.replies requests = one.replies requests ∧
            other.run requests = (one.run requests).under other.config := by
  refine ⟨fun config' hseed => start_under hseed hstart, ?_, ?_⟩
  · intro ignoring strict now hnone
    have hfresh : ignoring.skipped = 0 := by
      obtain ⟨-, -, rfl⟩ := start_eq_ok_iff.mp hstart
      rfl
    have hsame := run_under_strict (m := ignoring) strict.config rfl rfl
      (hnone.trans hfresh.symm)
    have hpolicy : now.config.unknown = .ignore := congrArg _ (ignoring.config_run requests)
    refine ⟨hsame, fun request => ?_, fun w hstate hfetch hunlisted => ⟨?_, ?_⟩⟩
    · rw [← hnone]
      exact skipped_perform_ne_iff hpolicy
    · rw [perform_step_of_ignored hstate hfetch hunlisted hpolicy, hnone]
    · have hrun : strict.run requests = now.under strict.config := hsame.2
      rw [hrun]
      exact perform_step_of_strict (m := now.under strict.config) hstate hfetch hunlisted rfl
  · intro shift shift' one other hequal
    exact run_under_shift (m := one) other.config rfl hequal

/-- A shift of two equal registers, and then an opcode that the catalogue does not have. -/
theorem unlisted_after_equal_shift :
    let m := loaded [0x60, 0x05, 0x61, 0x05, 0x80, 0x16, 0x00, 0x00] .standard (.ofSeed 1)
    let ignoring := m.under { Config.standard with unknown := .ignore }
    let strict := m.under { Config.standard with unknown := .strict }
    let inPlace := m.under { Config.standard with shift := .inPlace }
    let copying := m.under { Config.standard with shift := .copySecond }
    let requests : List Request := [.step, .step, .step]
    ((ignoring.run requests).skipped = 0 ∧
        strict.run requests = (ignoring.run requests).under strict.config) ∧
      (strict.run requests).perform .step =
        (.refused (.unknownOpcode 0x0000 0x206), { strict.run requests with state := .halted }) ∧
      copying.run requests = (inPlace.run requests).under copying.config := by
  intro m ignoring strict inPlace copying requests
  have hstart : start [0x60, 0x05, 0x61, 0x05, 0x80, 0x16, 0x00, 0x00] .standard (.ofSeed 1) =
      .ok m := start_loaded (by decide) (by decide)
  have hnone : (ignoring.run requests).skipped = 0 := by decide +kernel
  have hstate : (ignoring.run requests).state = .running := by decide +kernel
  have hpc : (ignoring.run requests).pc = 0x206 := by decide +kernel
  have hfetch : (ignoring.run requests).fetch = .ok 0x0000 :=
    fetch_eq_ok_iff.mpr (by decide +kernel)
  have hequal : ∀ e ∈ inPlace.executions requests, e.ShiftsEqual := by
    unfold Execution.ShiftsEqual
    decide +kernel
  obtain ⟨-, hpolicies, hshifts⟩ := switches_isolated hstart requests
  obtain ⟨⟨-, hsame⟩, -, hhalts⟩ := hpolicies hnone
  refine ⟨⟨hnone, hsame⟩, ?_, (hshifts .inPlace .copySecond hequal).2⟩
  rw [← hpc]
  exact (hhalts 0x0000 hstate hfetch (by decide)).2

end Machine

end Chip8
