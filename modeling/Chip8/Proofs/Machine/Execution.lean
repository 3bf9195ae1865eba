import Chip8.Proofs.Machine.Atomic

/-!
# Executions

A run asks for steps, ticks, keys and redraws in any order, and only some of its steps execute an
instruction: a waiting machine takes a step by doing nothing, a halted one refuses, and one that
faults executes nothing.  `Machine.executed` tells what a request executes and `Machine.executions`
all that a run executes, each instruction with the machine that it found.
-/

namespace Chip8

/-- How many bytes an instruction stores at the index. -/
def Instruction.storedLength : Instruction → Nat
  | .storeDecimal _ => 3
  | .storeRegisters x => x.val + 1
  | _ => 0

/-- An instruction carried out as a whole, and the machine that it found. -/
structure Execution where
  machine : Machine
  instruction : Instruction

/-- The instruction stores digits or registers, and one of the bytes goes to address `a`. -/
def Execution.Stores (e : Execution) (a : Nat) : Prop :=
  e.machine.registers.index.toNat ≤ a ∧
    a < e.machine.registers.index.toNat + e.instruction.storedLength

namespace Machine

/-- The word at the program counter, where a machine can fetch it. -/
def opcode (m : Machine) : Opcode :=
  m.memory.wordAt m.pc.toNat

/-- The instruction that a request executes with success, if it executes one. -/
def executed (m : Machine) : Request → Option Execution
  | .step =>
    match m.state, m.fetch, m.step.1 with
    | .running, .ok opcode, .ok () => some ⟨m, Instruction.decode opcode⟩
    | _, _, _ => none
  | .tick | .keyDown _ | .keyUp _ | .resolveKey _ | .takeRedraw => none

/-- All that a run executes, in order. -/
def executions (m : Machine) : List Request → List Execution
  | [] => []
  | request :: requests =>
    (m.executed request).toList ++ (m.perform request).2.executions requests

/-- The replies of a run, one for each request. -/
def replies (m : Machine) : List Request → List Reply
  | [] => []
  | request :: requests => (m.perform request).1 :: (m.perform request).2.replies requests

theorem mem_executions_cons {m : Machine} {request : Request} {requests : List Request}
    {e : Execution} :
    e ∈ m.executions (request :: requests) ↔
      m.executed request = some e ∨ e ∈ (m.perform request).2.executions requests := by
  rw [executions, List.mem_append, Option.mem_toList]

theorem executions_append (m : Machine) (before after : List Request) :
    m.executions (before ++ after) = m.executions before ++ (m.run before).executions after := by
  induction before generalizing m with
  | nil => rfl
  | cons request before ih => simp [executions, ih]

/-- What every request keeps, every run keeps. -/
theorem run_keeps {P : Machine → Prop} (hperform : ∀ m request, P m → P (m.perform request).2)
    {m : Machine} (h : P m) (requests : List Request) : P (m.run requests) := by
  induction requests generalizing m with
  | nil => exact h
  | cons request requests ih => exact ih (hperform m request h)

theorem get_put (m : Machine) (x y : Register) (b : UInt8) :
    (m.put x b).get y = if x = y then b else m.get y :=
  m.registers.get_set x y b

theorem get_put_self (m : Machine) (x : Register) (b : UInt8) : (m.put x b).get x = b := by
  rw [get_put, if_pos rfl]

theorem fetch_eq_ok_iff {m : Machine} {opcode : Opcode} :
    m.fetch = .ok opcode ↔ m.pc.toNat + 2 ≤ Memory.size ∧ m.memory.wordAt m.pc.toNat = opcode := by
  rw [fetch, Memory.readWord, map_eq_ok_iff]
  constructor
  · intro hchecked
    obtain ⟨_, hrange, hword⟩ := hchecked
    exact ⟨Memory.checkRange_eq_ok_iff.mp hrange, hword⟩
  · intro hread
    obtain ⟨hrange, hword⟩ := hread
    exact ⟨(), Memory.checkRange_eq_ok_iff.mpr hrange, hword⟩

theorem fetch_of_le {m : Machine} (h : m.pc.toNat ≤ 4094) : m.fetch = .ok m.opcode :=
  fetch_eq_ok_iff.mpr ⟨Nat.add_le_add_right h 2, rfl⟩

theorem opcode_of_fetch {m : Machine} {w : Opcode} (h : m.fetch = .ok w) : m.opcode = w :=
  (fetch_eq_ok_iff.mp h).2

/-- The addresses after an instruction that lies in memory do not wrap around. -/
theorem toNat_pc_add_two {pc : UInt16} (h : pc.toNat + 2 ≤ Memory.size) :
    (pc + 2).toNat = pc.toNat + 2 := by
  change pc.toNat + 2 ≤ 4096 at h
  simp only [UInt16.toNat_add, UInt16.reduceToNat]
  omega

theorem toNat_pc_add_four {pc : UInt16} (h : pc.toNat + 2 ≤ Memory.size) :
    (pc + 4).toNat = pc.toNat + 4 := by
  change pc.toNat + 2 ≤ 4096 at h
  simp only [UInt16.toNat_add, UInt16.reduceToNat]
  omega

theorem run_execute_of_ok {m m' : Machine} {i : Instruction} (h : m.execute i = .ok m') :
    (InPlace.execute i).run m = .ok () m' := by
  rw [InPlace.run_execute, h]
  rfl

theorem execute_of_step {m m' : Machine} {w : Opcode} (hstate : m.state = .running)
    (hfetch : m.fetch = .ok w) (h : m.step = (.ok (), m')) :
    m.execute (Instruction.decode w) = .ok m' := by
  rw [← cycle_of_fetch hfetch]
  cases hcycle : m.cycle with
  | ok next =>
    rw [step_of_cycle_ok hstate hcycle] at h
    rw [(Prod.mk.inj h).2]
  | error fault =>
    rw [step_of_cycle_error hstate hcycle] at h
    cases h

theorem perform_step_of_ok {m m' : Machine} (hstate : m.state = .running)
    (hcycle : m.cycle = .ok m') : m.perform .step = (.done, m') := by
  simp [perform, step_of_cycle_ok hstate hcycle]

theorem perform_step_of_error {m : Machine} {fault : Fault} (hstate : m.state = .running)
    (hcycle : m.cycle = .error fault) : m.perform .step = (.refused fault, m.halt fault) := by
  simp [perform, step_of_cycle_error hstate hcycle]

theorem executed_eq_some_iff {m : Machine} {request : Request} {e : Execution} :
    m.executed request = some e ↔
      request = .step ∧ e.machine = m ∧ m.state = .running ∧
        ∃ opcode m', m.fetch = .ok opcode ∧ Instruction.decode opcode = e.instruction ∧
          m.execute e.instruction = .ok m' := by
  constructor
  · intro h
    cases request with
    | step =>
      simp only [executed] at h
      split at h
      · next opcode hstate hfetch hstep =>
        cases h
        cases hexecute : m.execute (Instruction.decode opcode) with
        | error fault =>
          rw [step_of_cycle_error hstate ((cycle_of_fetch hfetch).trans hexecute)] at hstep
          cases hstep
        | ok m' => exact ⟨rfl, rfl, hstate, opcode, m', hfetch, rfl, rfl⟩
      · cases h
    | tick | keyDown _ | keyUp _ | resolveKey _ | takeRedraw => cases h
  · intro hexecuted
    obtain ⟨rfl, rfl, hstate, opcode, m', hfetch, hdecode, hexecute⟩ := hexecuted
    have hcycle : e.machine.cycle = .ok m' := by rw [cycle_of_fetch hfetch, hdecode, hexecute]
    simp only [executed, hstate, hfetch, step_of_cycle_ok hstate hcycle, hdecode]

theorem executed_step_of_fetch {m : Machine} {opcode : Opcode} {e : Execution}
    (hfetch : m.fetch = .ok opcode) (h : m.executed .step = some e) :
    e = ⟨m, Instruction.decode opcode⟩ := by
  obtain ⟨-, rfl, -, opcode', -, hfetch', hdecode, -⟩ := executed_eq_some_iff.mp h
  obtain rfl := Except.ok.inj (hfetch'.symm.trans hfetch)
  rw [hdecode]

theorem instruction_of_executed {m : Machine} {request : Request} {e : Execution}
    (h : m.executed request = some e) : e.instruction = Instruction.decode e.machine.opcode := by
  obtain ⟨-, rfl, -, w, -, hfetch, hdecode, -⟩ := executed_eq_some_iff.mp h
  rw [← hdecode, opcode_of_fetch hfetch]

theorem done_of_executed {m : Machine} {request : Request} {e : Execution}
    (h : m.executed request = some e) :
    request = .step ∧ m.state = .running ∧ (m.perform .step).1 = .done := by
  obtain ⟨rfl, rfl, hstate, w, m', hfetch, hdecode, hexecute⟩ := executed_eq_some_iff.mp h
  refine ⟨rfl, hstate, ?_⟩
  rw [perform_step_of_ok hstate (by rw [cycle_of_fetch hfetch, hdecode, hexecute])]

/-- A request that executes an instruction is a step, and does nothing besides. -/
theorem perform_of_executed {m : Machine} {request : Request} {e : Execution}
    (h : m.executed request = some e) :
    e.machine = m ∧ m.execute e.instruction = .ok (m.perform request).2 := by
  obtain ⟨rfl, hm, hstate, opcode, m', hfetch, hdecode, hexecute⟩ := executed_eq_some_iff.mp h
  refine ⟨hm, ?_⟩
  have hcycle : m.cycle = .ok m' := by rw [cycle_of_fetch hfetch, hdecode, hexecute]
  rw [perform_step_of_ok hstate hcycle, hexecute]

/-! ## Requests that are not steps -/

theorem perform_keyDown (m : Machine) (code : UInt8) :
    m.perform (.keyDown code) =
      match m.keypad.press code with
      | .ok keypad => (.done, { m with keypad })
      | .error fault => (.refused fault, m) := by
  rw [perform, keyDown]
  cases m.keypad.press code <;> rfl

theorem perform_keyUp (m : Machine) (code : UInt8) :
    m.perform (.keyUp code) =
      match m.keypad.release code with
      | .ok keypad => (.done, { m with keypad })
      | .error fault => (.refused fault, m) := by
  rw [perform, keyUp]
  cases m.keypad.release code <;> rfl

theorem perform_resolveKey (m : Machine) (code : UInt8) :
    m.perform (.resolveKey code) =
      match Key.ofCode code, m.state with
      | .error fault, _ => (.refused fault, m)
      | .ok _, .waiting x => (.flag true, { m.put x code with state := .running })
      | .ok _, _ => (.flag false, m) := by
  rw [perform, resolveKey]
  cases Key.ofCode code with
  | error fault => rfl
  | ok key => cases m.state <;> rfl

/-- What a request leaves alone if it executes nothing. -/
structure Idle (request : Request) (m m' : Machine) : Prop where
  memory : m'.memory = m.memory
  stack : m'.stack = m.stack
  config : m'.config = m.config
  random : m'.random = m.random
  skipped : m'.skipped = m.skipped
  redraw : request ≠ .takeRedraw → m'.redraw = m.redraw

theorem Idle.refl (request : Request) (m : Machine) : Idle request m m :=
  ⟨rfl, rfl, rfl, rfl, rfl, fun _ => rfl⟩

/-- A step that executes nothing does nothing or halts the machine. -/
theorem perform_step_of_not_executed {m : Machine} (h : m.executed .step = none) :
    (m.perform .step).2 = m ∨ (m.perform .step).2 = { m with state := .halted } := by
  cases hstate : m.state with
  | halted => exact .inl (by rw [perform, step_of_halted hstate])
  | waiting x => exact .inl (by rw [perform, step_of_waiting hstate])
  | running =>
    cases hcycle : m.cycle with
    | error fault =>
      rw [perform_step_of_error hstate hcycle, halt]
      split
      · exact .inr rfl
      · exact .inl rfl
    | ok m' =>
      cases hfetch : m.fetch with
      | error fault => simp [cycle_of_fetch_error hfetch] at hcycle
      | ok opcode => simp [executed, hstate, hfetch, step_of_cycle_ok hstate hcycle] at h

theorem idle_of_not_executed {m : Machine} {request : Request} (h : m.executed request = none) :
    Idle request m (m.perform request).2 := by
  cases request with
  | step =>
    rcases perform_step_of_not_executed h with hsame | hhalted
    · rw [hsame]
      exact Idle.refl _ m
    · rw [hhalted]
      exact ⟨rfl, rfl, rfl, rfl, rfl, fun _ => rfl⟩
  | tick => exact ⟨rfl, rfl, rfl, rfl, rfl, fun _ => rfl⟩
  | keyDown code =>
    rw [perform_keyDown]
    cases m.keypad.press code <;> exact ⟨rfl, rfl, rfl, rfl, rfl, fun _ => rfl⟩
  | keyUp code =>
    rw [perform_keyUp]
    cases m.keypad.release code <;> exact ⟨rfl, rfl, rfl, rfl, rfl, fun _ => rfl⟩
  | resolveKey code =>
    rw [perform_resolveKey]
    cases Key.ofCode code with
    | error fault => exact Idle.refl _ m
    | ok key => cases m.state <;> exact ⟨rfl, rfl, rfl, rfl, rfl, fun _ => rfl⟩
  | takeRedraw => exact ⟨rfl, rfl, rfl, rfl, rfl, fun h => absurd rfl h⟩

/-- What a request leaves alone if it executes nothing and is not there to change it. -/
structure Reserved (request : Request) (m m' : Machine) : Prop where
  timers : request ≠ .tick → m'.timers = m.timers
  keypad : (∀ code, request ≠ .keyDown code ∧ request ≠ .keyUp code) → m'.keypad = m.keypad
  pc : m'.pc = m.pc

theorem Reserved.refl (request : Request) (m : Machine) : Reserved request m m :=
  ⟨fun _ => rfl, fun _ => rfl, rfl⟩

theorem reserved_of_not_executed {m : Machine} {request : Request}
    (h : m.executed request = none) : Reserved request m (m.perform request).2 := by
  cases request with
  | step =>
    rcases perform_step_of_not_executed h with hsame | hhalted
    · rw [hsame]
      exact Reserved.refl _ m
    · rw [hhalted]
      exact ⟨fun _ => rfl, fun _ => rfl, rfl⟩
  | tick => exact ⟨fun hother => absurd rfl hother, fun _ => rfl, rfl⟩
  | keyDown code =>
    rw [perform_keyDown]
    cases m.keypad.press code with
    | error fault => exact Reserved.refl _ m
    | ok keypad => exact ⟨fun _ => rfl, fun hother => absurd rfl (hother code).1, rfl⟩
  | keyUp code =>
    rw [perform_keyUp]
    cases m.keypad.release code with
    | error fault => exact Reserved.refl _ m
    | ok keypad => exact ⟨fun _ => rfl, fun hother => absurd rfl (hother code).2, rfl⟩
  | resolveKey code =>
    rw [perform_resolveKey]
    cases Key.ofCode code with
    | error fault => exact Reserved.refl _ m
    | ok key => cases m.state <;> exact ⟨fun _ => rfl, fun _ => rfl, rfl⟩
  | takeRedraw => exact ⟨fun _ => rfl, fun _ => rfl, rfl⟩

end Machine

end Chip8
