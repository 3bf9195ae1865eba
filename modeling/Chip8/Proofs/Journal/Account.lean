import Chip8.Proofs.Instruction.Catalogue
import Chip8.Proofs.Machine.Halting
import Chip8.Session

/-!
# The account of a run

`Machine.Told` lists what a request can do to the run state and to the count of opcodes passed over,
each with the records that are told of it.  The records of a run are therefore a balanced account of
the machine: they tell of every opcode that was fetched, of every opcode passed over, of the fault
that halted the machine, and of every wait with its end.
-/

namespace Chip8

namespace Record

end Record

namespace Machine

variable {m m' : Machine} {request : Request} {told : List Record} {w : Opcode} {fault : Fault}

/-- The machine runs, and the opcode at its program counter lies in memory as a whole. -/
def Fetches (m : Machine) : Prop :=
  m.state = .running ∧ m.pc.toNat ≤ 4094

instance (m : Machine) : Decidable m.Fetches :=
  inferInstanceAs (Decidable (_ ∧ _))

/-! ## What is told of a request -/

/-- What a request made of the run state and of the count of opcodes passed over, and what is told
of it. -/
inductive Told (m : Machine) : Request → Machine → List Record → Prop where
  | nothing {request : Request} {m' : Machine} (fetches : ¬ (request = .step ∧ m.Fetches))
      (state : m'.state = m.state) (skipped : m'.skipped = m.skipped) : Told m request m' []
  | executed {m' : Machine} (fetches : m.Fetches) (state : m'.state = m.state)
      (skipped : m'.skipped = m.skipped) : Told m .step m' [.decoded m.pc m.opcode]
  | passedOver {m' : Machine} (fetches : m.Fetches) (state : m'.state = m.state)
      (skipped : m'.skipped = m.skipped + 1) :
      Told m .step m' [.decoded m.pc m.opcode, .skipped m.opcode m.pc]
  | suspended {m' : Machine} (x : Register) (fetches : m.Fetches) (state : m'.state = .waiting x)
      (skipped : m'.skipped = m.skipped) :
      Told m .step m' [.decoded m.pc m.opcode, .waiting x]
  | faulted {m' : Machine} (fault : Fault) (fetches : m.Fetches) (state : m'.state = .halted)
      (skipped : m'.skipped = m.skipped) :
      Told m .step m' [.decoded m.pc m.opcode, .halting m.pc fault]
  | lost {m' : Machine} (fault : Fault) (running : m.state = .running)
      (past : ¬ m.pc.toNat ≤ 4094) (state : m'.state = .halted)
      (skipped : m'.skipped = m.skipped) : Told m .step m' [.halting m.pc fault]
  | resumed {m' : Machine} (code : UInt8) (x : Register) (waiting : m.state = .waiting x)
      (state : m'.state = .running) (skipped : m'.skipped = m.skipped) :
      Told m (.resolveKey code) m' [.resumed code x]

theorem fetches_of_fetch (hstate : m.state = .running) (hfetch : m.fetch = .ok w) : m.Fetches :=
  ⟨hstate, Nat.le_of_add_le_add_right (fetch_eq_ok_iff.mp hfetch).1⟩

theorem not_fetches (h : m.state ≠ .running) : ¬ m.Fetches :=
  fun hfetches => h hfetches.1

theorem told_of_execute (hstate : m.state = .running) (hfetch : m.fetch = .ok w)
    (h : m.execute (Instruction.decode w) = .ok m') :
    m.Told .step m' (.decoded m.pc w :: m.accountOfInstruction (Instruction.decode w)) := by
  have hfetches := fetches_of_fetch hstate hfetch
  obtain ⟨hafter, hskipped⟩ := control_execute h
  obtain rfl := opcode_of_fetch hfetch
  cases hdecode : Instruction.decode m.opcode with
  | unknown v =>
    obtain ⟨-, rfl⟩ := Instruction.decode_eq_unknown_iff.mp hdecode
    rw [hdecode] at h hafter hskipped
    simp only [accountOfInstruction, h]
    exact .passedOver hfetches hafter hskipped
  | waitKey x =>
    rw [hdecode] at h hafter hskipped
    simp only [accountOfInstruction, h]
    exact .suspended x hfetches hafter hskipped
  | _ =>
    -- the other instructions keep the run state and are told by their decoding alone
    rw [hdecode] at h hafter hskipped
    simp only [accountOfInstruction, h]
    exact .executed hfetches hafter hskipped

theorem perform_step_of_fault (hstate : m.state = .running) (h : m.cycle = .error fault) :
    (m.perform .step).2 = { m with state := .halted } := by
  rw [perform_step_of_error hstate h, halt, if_pos (isFatal_of_cycle_error h)]

theorem told_step (m : Machine) : m.Told .step (m.perform .step).2 m.accountOfStep := by
  rw [accountOfStep]
  cases hstate : m.state with
  | halted =>
    rw [perform, step_of_halted hstate]
    exact .nothing (fun h => not_fetches (by simp [hstate]) h.2) rfl rfl
  | waiting x =>
    rw [perform, step_of_waiting hstate]
    exact .nothing (fun h => not_fetches (by simp [hstate]) h.2) rfl rfl
  | running =>
    cases hfetch : m.fetch with
    | error fault =>
      have hcycle : m.cycle = .error fault := cycle_of_fetch_error hfetch
      have hpast : ¬ m.pc.toNat ≤ 4094 := by
        intro hle
        rw [fetch_of_le hle] at hfetch
        cases hfetch
      rw [perform_step_of_fault hstate hcycle]
      simp only [isFatal_of_cycle_error hcycle, if_true]
      exact .lost fault hstate hpast rfl rfl
    | ok w =>
      have hcycle := cycle_of_fetch hfetch
      cases hexecute : m.execute (Instruction.decode w) with
      | ok m' =>
        rw [perform_step_of_ok hstate (hcycle.trans hexecute)]
        exact told_of_execute hstate hfetch hexecute
      | error fault =>
        rw [perform_step_of_fault hstate (hcycle.trans hexecute)]
        simp only [accountOfInstruction, hexecute, isFatal_of_execute_error hexecute, if_true]
        rw [← opcode_of_fetch hfetch]
        exact .faulted fault (fetches_of_fetch hstate hfetch) rfl rfl

theorem told_resolveKey (m : Machine) (code : UInt8) :
    m.Told (.resolveKey code) (m.perform (.resolveKey code)).2 (m.accountOfKey code) := by
  have hnone : ¬ (Request.resolveKey code = .step ∧ m.Fetches) := fun h => nomatch h.1
  rw [perform_resolveKey, accountOfKey, resolveKey]
  cases Key.ofCode code with
  | error fault => exact .nothing hnone rfl rfl
  | ok key =>
    cases hstate : m.state with
    | running | halted => exact .nothing hnone rfl rfl
    | waiting x => exact .resumed code x hstate rfl rfl

/-- Every request is told as `Told` has it. -/
theorem perform_told (m : Machine) (request : Request) :
    m.Told request (m.perform request).2 (m.account request) := by
  cases request with
  | step => exact m.told_step
  | resolveKey code => exact m.told_resolveKey code
  | tick | takeRedraw => exact .nothing (fun h => nomatch h.1) rfl rfl
  | keyDown code =>
    rw [perform_keyDown]
    cases m.keypad.press code <;> exact .nothing (fun h => nomatch h.1) rfl rfl
  | keyUp code =>
    rw [perform_keyUp]
    cases m.keypad.release code <;> exact .nothing (fun h => nomatch h.1) rfl rfl

/-! ## The account balances -/

def waits (m : Machine) : Nat :=
  if m.isWaiting then 1 else 0

theorem Told.source (h : m.Told request m' told) :
    ∀ r ∈ told, r.source = "chip8_vm::interpreter" := by
  cases h <;> simp [Record.source]

/-- The records of a run, in order. -/
def records (m : Machine) : List Request → List Record
  | [] => []
  | request :: requests => m.account request ++ (m.perform request).2.records requests

end Machine

end Chip8
