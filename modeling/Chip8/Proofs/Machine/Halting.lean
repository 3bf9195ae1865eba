import Chip8.Proofs.Machine.Reachable

/-!
# Halting

A fault that a running machine meets is always fatal, so it halts the machine, and it halts it in
the state in which the faulting instruction was found.  A halted machine stays halted whatever is
asked of it: its clock and its keypad still answer, and nothing else does.
-/

namespace Chip8

namespace Memory

/-- Whatever is done with a range, what goes wrong with it is fatal. -/
theorem isFatal_of_range_error {α : Type} {addr : UInt16} {len : Nat} {f : Unit → α}
    {fault : Fault} (h : (checkRange addr len).map f = .error fault) : fault.isFatal = true := by
  obtain ⟨-, rfl⟩ := checkRange_eq_error_iff.mp (map_eq_error_iff.mp h)
  rfl

end Memory

namespace CallStack

theorem isFatal_of_push_error {s : CallStack} {m : Memory} {target pc : UInt16} {fault : Fault}
    (h : s.push m target pc = .error fault) : fault.isFatal = true := by
  unfold push at h
  split at h
  · cases h
    rfl
  · exact Memory.isFatal_of_range_error (map_eq_error_iff.mp h)

theorem isFatal_of_pop_error {s : CallStack} {m : Memory} {pc : UInt16} {fault : Fault}
    (h : s.pop m pc = .error fault) : fault.isFatal = true := by
  unfold pop at h
  split at h
  · cases h
    rfl
  · exact Memory.isFatal_of_range_error (map_eq_error_iff.mp h)

end CallStack

namespace Machine

theorem isFatal_of_store_error {m : Machine} {data : List UInt8} {fault : Fault}
    (h : m.store data = .error fault) : fault.isFatal = true :=
  Memory.isFatal_of_range_error (map_eq_error_iff.mp h)

theorem isFatal_of_execute_error {m : Machine} {i : Instruction} {fault : Fault}
    (h : m.execute i = .error fault) : fault.isFatal = true := by
  cases i with
  | ret => exact CallStack.isFatal_of_pop_error (map_eq_error_iff.mp h)
  | call nnn => exact CallStack.isFatal_of_push_error (map_eq_error_iff.mp h)
  | draw x y rows => exact Memory.isFatal_of_range_error (map_eq_error_iff.mp h)
  | storeDecimal x => exact isFatal_of_store_error (map_eq_error_iff.mp h)
  | storeRegisters x => exact isFatal_of_store_error (map_eq_error_iff.mp h)
  | loadRegisters x => exact Memory.isFatal_of_range_error (map_eq_error_iff.mp h)
  | unknown opcode =>
    simp only [execute, passOver] at h
    split at h
    · cases h
    · cases h
      rfl
  | _ => cases h

theorem isFatal_of_cycle_error {m : Machine} {fault : Fault} (h : m.cycle = .error fault) :
    fault.isFatal = true := by
  cases hfetch : m.fetch with
  | error reason =>
    rw [cycle_of_fetch_error hfetch] at h
    cases h
    exact Memory.isFatal_of_range_error hfetch
  | ok opcode =>
    rw [cycle_of_fetch hfetch] at h
    exact isFatal_of_execute_error h

/-- A fault halts the machine and changes nothing else. -/
theorem step_fault {m m' : Machine} {fault : Fault} (hstate : m.state = .running)
    (hstep : m.step = (.error fault, m')) :
    fault.isFatal = true ∧ m' = { m with state := .halted } := by
  cases hcycle : m.cycle with
  | ok next =>
    rw [step_of_cycle_ok hstate hcycle] at hstep
    cases hstep
  | error reason =>
    rw [step_of_cycle_error hstate hcycle] at hstep
    obtain ⟨hfault, hm'⟩ := Prod.mk.inj hstep
    obtain rfl := Except.error.inj hfault
    have hfatal := isFatal_of_cycle_error hcycle
    exact ⟨hfatal, by rw [← hm', halt, if_pos hfatal]⟩

/-- A step that is refused leaves the machine halted, and otherwise as it was before. -/
theorem step_of_refused {m : Machine} {fault : Fault} (h : m.step.1 = .error fault) :
    m.step = (.error fault, { m with state := .halted }) := by
  have hstep : m.step = (.error fault, m.step.2) := Prod.ext h rfl
  cases hstate : m.state with
  | running => rw [hstep, (step_fault hstate hstep).2]
  | waiting x =>
    rw [step_of_waiting hstate] at h
    cases h
  | halted =>
    rw [step_of_halted hstate] at h ⊢
    rw [← hstate, ← h]

/-- How a halted machine answers each request, and the little that may change. -/
structure Inert (m : Machine) : Prop where
  step : m.perform .step = (.refused .halted, m)
  tick : m.perform .tick = (.done, { m with timers := m.timers.tick })
  keyDown (code : UInt8) :
    (m.perform (.keyDown code)).2 =
      { m with keypad := (m.perform (.keyDown code)).2.keypad }
  keyUp (code : UInt8) :
    (m.perform (.keyUp code)).2 = { m with keypad := (m.perform (.keyUp code)).2.keypad }
  resolveKey (code : UInt8) :
    m.perform (.resolveKey code) = (.flag false, m) ∨
      m.perform (.resolveKey code) = (.refused (.invalidKey code), m)
  takeRedraw : (m.perform .takeRedraw).2 = { m with redraw := false }

theorem perform_of_invalid_key (m : Machine) {code : UInt8} (h : 15 < code.toNat) :
    m.perform (.keyDown code) = (.refused (.invalidKey code), m) ∧
      m.perform (.keyUp code) = (.refused (.invalidKey code), m) ∧
        m.perform (.resolveKey code) = (.refused (.invalidKey code), m) := by
  have hkey : Key.ofCode code = .error (.invalidKey code) := by
    rw [Key.ofCode, dif_neg (Nat.not_lt_of_le h)]
  have hpress : m.keypad.press code = .error (.invalidKey code) := map_eq_error_iff.mpr hkey
  have hrelease : m.keypad.release code = .error (.invalidKey code) := map_eq_error_iff.mpr hkey
  rw [perform_keyDown, perform_keyUp, perform_resolveKey, hpress, hrelease, hkey]
  exact ⟨rfl, rfl, rfl⟩

theorem inert_of_halted {m : Machine} (h : m.state = .halted) : m.Inert where
  step := by rw [perform, step_of_halted h]
  tick := rfl
  keyDown code := by
    rw [perform_keyDown]
    cases m.keypad.press code <;> rfl
  keyUp code := by
    rw [perform_keyUp]
    cases m.keypad.release code <;> rfl
  resolveKey code := by
    by_cases hcode : code.toNat < 16
    · left
      rw [perform_resolveKey, Key.ofCode, dif_pos hcode, h]
    · right
      exact (m.perform_of_invalid_key (Nat.le_of_not_lt hcode)).2.2
  takeRedraw := rfl

/-- A halted machine keeps all but its timers, its keypad and its redraw request. -/
theorem perform_of_halted {m : Machine} (h : m.state = .halted) (request : Request) :
    ∃ timers keypad redraw, (m.perform request).2 = { m with timers, keypad, redraw } := by
  have hinert := inert_of_halted h
  cases request with
  | step => exact ⟨_, _, _, congrArg Prod.snd hinert.step⟩
  | tick => exact ⟨_, _, _, congrArg Prod.snd hinert.tick⟩
  | keyDown code => exact ⟨_, _, _, hinert.keyDown code⟩
  | keyUp code => exact ⟨_, _, _, hinert.keyUp code⟩
  | resolveKey code =>
    refine ⟨m.timers, m.keypad, m.redraw, ?_⟩
    obtain hreply | hreply := hinert.resolveKey code <;> rw [hreply]
  | takeRedraw => exact ⟨_, _, _, hinert.takeRedraw⟩

theorem run_of_halted {m : Machine} (h : m.state = .halted) (requests : List Request) :
    ∃ timers keypad redraw, m.run requests = { m with timers, keypad, redraw } := by
  induction requests generalizing m with
  | nil => exact ⟨m.timers, m.keypad, m.redraw, rfl⟩
  | cons request requests ih =>
    obtain ⟨timers, keypad, redraw, hperform⟩ := perform_of_halted h request
    rw [run_cons, hperform]
    exact ih h

/-- Faults are atomic and halting is final, in every machine whether or not a run leads to it; and a
key that is not on the pad is refused and changes nothing. -/
theorem fault_halts_for_good (m : Machine) :
    (∀ fault m', m.state = .running → m.step = (.error fault, m') →
      fault.isFatal = true ∧ m' = { m with state := .halted } ∧
        ∀ requests : List Request, (m'.run requests).Inert ∧
          ∃ timers keypad redraw,
            m'.run requests = { m with state := .halted, timers, keypad, redraw }) ∧
      ∀ code : UInt8, 15 < code.toNat →
        m.perform (.keyDown code) = (.refused (.invalidKey code), m) ∧
          m.perform (.keyUp code) = (.refused (.invalidKey code), m) ∧
            m.perform (.resolveKey code) = (.refused (.invalidKey code), m) := by
  refine ⟨fun fault m' hstate hstep => ?_, fun code hcode => m.perform_of_invalid_key hcode⟩
  obtain ⟨hfatal, rfl⟩ := step_fault hstate hstep
  refine ⟨hfatal, rfl, fun requests => ?_⟩
  obtain ⟨timers, keypad, redraw, hrun⟩ :=
    run_of_halted (m := { m with state := .halted }) rfl requests
  refine ⟨inert_of_halted ?_, timers, keypad, redraw, hrun⟩
  rw [hrun]

/-- A return at the very beginning halts, also for the ticks and keys after it. -/
theorem return_first_halts :
    (loaded [0x00, 0xEE] .standard (.ofSeed 1)).step =
        (.error (.stackUnderflow 0x200),
          { loaded [0x00, 0xEE] .standard (.ofSeed 1) with state := .halted }) ∧
      Inert (({ loaded [0x00, 0xEE] .standard (.ofSeed 1) with state := .halted } : Machine).run
        [.tick, .keyDown 3, .step]) ∧
      (loaded [0x00, 0xEE] .standard (.ofSeed 1)).perform (.keyDown 16) =
        (.refused (.invalidKey 16), loaded [0x00, 0xEE] .standard (.ofSeed 1)) := by
  have hfetch : (loaded [0x00, 0xEE] .standard (.ofSeed 1)).fetch = .ok 0x00EE :=
    fetch_eq_ok_iff.mpr ⟨by decide, by decide +kernel⟩
  have hcycle : (loaded [0x00, 0xEE] .standard (.ofSeed 1)).cycle =
      .error (.stackUnderflow 0x200) :=
    (cycle_of_fetch hfetch).trans rfl
  have hstep := step_of_cycle_error rfl hcycle
  obtain ⟨hhalts, hkeys⟩ := fault_halts_for_good (loaded [0x00, 0xEE] .standard (.ofSeed 1))
  exact ⟨hstep, ((hhalts _ _ rfl hstep).2.2 [.tick, .keyDown 3, .step]).1,
    (hkeys 16 (by decide)).1⟩

end Machine

end Chip8
