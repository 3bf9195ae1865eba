import Chip8.Machine.Request
import Chip8.Proofs.Except

/-!
# Atomicity

Execution in place could stop half way and leave what it wrote until then.  It never does: every
read and check that can fail comes before the first write, in each of the pieces that instructions
are made of and in each instruction.  So a step has the outcome that `Machine.execute` gives at
once, and a fault finds the machine as it was.
-/

namespace Chip8

namespace InPlace

variable {α β : Type}

/-- The result of work done as a whole or not at all. -/
def settle (m : Machine) : Except Fault (α × Machine) → EStateM.Result Fault Machine α
  | .ok (a, m') => .ok a m'
  | .error fault => .error fault m

theorem run_bind (work : InPlace α) (rest : α → InPlace β) (m : Machine) :
    (work >>= rest).run m =
      match work.run m with
      | .ok a m' => (rest a).run m'
      | .error fault m' => .error fault m' := by
  simp only [EStateM.run, bind, EStateM.bind]
  cases work m <;> rfl

theorem run_pure (a : α) (m : Machine) : (pure a : InPlace α).run m = .ok a m := rfl

theorem run_get (m : Machine) : (get : InPlace Machine).run m = .ok m m := rfl

theorem run_modify (f : Machine → Machine) (m : Machine) :
    (modify f : InPlace Unit).run m = .ok () (f m) := rfl

theorem run_throw (fault : Fault) (m : Machine) :
    (throw fault : InPlace α).run m = .error fault m := rfl

theorem run_ofExcept (x : Except Fault α) (m : Machine) :
    (MonadExcept.ofExcept x : InPlace α).run m = settle m (x.map fun a => (a, m)) := by
  cases x <;> rfl

theorem run_read (addr : UInt16) (len : Nat) (m : Machine) :
    (read addr len).run m = settle m ((m.memory.read addr len).map fun data => (data, m)) :=
  run_ofExcept _ m

theorem run_readWord (addr : UInt16) (m : Machine) :
    (readWord addr).run m = settle m ((m.memory.readWord addr).map fun word => (word, m)) :=
  run_ofExcept _ m

theorem run_write (addr : UInt16) (data : List UInt8) (m : Machine) :
    (write addr data).run m =
      settle m ((m.memory.write addr data).map fun memory => ((), { m with memory })) := by
  rw [write, run_bind, run_ofExcept, Memory.write]
  cases Memory.checkRange addr data.length <;> rfl

/-- The pointer is moved only once the address is written. -/
theorem run_push (target pc : UInt16) (m : Machine) :
    (push target pc).run m =
      settle m ((m.stack.push m.memory target pc).map fun (stack, memory) =>
        ((), { m with stack, memory })) := by
  rw [push, run_bind, run_get, CallStack.push]
  by_cases hfull : m.stack.pointer.toNat < Memory.stackBase
  · simp only [hfull, if_true, run_bind, run_throw]
    rfl
  · simp only [hfull, if_false, run_bind, run_write, Memory.writeWord]
    cases m.memory.write m.stack.pointer (Memory.wordBytes target) <;> rfl

theorem run_pop (pc : UInt16) (m : Machine) :
    (pop pc).run m =
      settle m ((m.stack.pop m.memory pc).map fun (target, stack) => (target, { m with stack })) := by
  rw [pop, run_bind, run_get, CallStack.pop]
  by_cases hempty : CallStack.top ≤ m.stack.pointer.toNat
  · simp only [hempty, if_true, run_bind, run_throw]
    rfl
  · simp only [hempty, if_false, run_bind, run_pure, run_readWord]
    cases m.memory.readWord (m.stack.pointer + 2) <;> rfl

theorem run_drawSprite (x y : Register) (rows : List UInt8) (m : Machine) :
    (drawSprite (m.get x) (m.get y) rows).run m = .ok () (m.drawSprite x y rows) := rfl

theorem pc_drawSprite (m : Machine) (x y : Register) (rows : List UInt8) :
    (m.drawSprite x y rows).pc = m.pc := rfl

theorem next_eq_goto {m m' : Machine} (h : m'.pc = m.pc) : m'.next = m'.goto (m.pc + 2) := by
  rw [Machine.next, h]

theorem pc_combine (m : Machine) (operation : Operation) (x y : Register) :
    (m.combine operation x y).pc = m.pc := by
  cases operation <;> rfl

/-- An instruction is carried out as a whole or not at all. -/
theorem run_execute (i : Instruction) (m : Machine) :
    (execute i).run m = settle m ((m.execute i).map fun m' => ((), m')) := by
  rw [execute, run_bind, run_get]
  dsimp only
  rw [run_bind]
  cases i with
  | ret =>
    rw [carryOut, run_pop, Machine.execute]
    cases m.stack.pop m.memory m.pc <;> rfl
  | call nnn =>
    rw [carryOut, run_bind, run_push, Machine.execute]
    cases m.stack.push m.memory (m.pc + 2) m.pc <;> rfl
  | storeDecimal x =>
    rw [carryOut, run_bind, run_write, Machine.execute, Machine.store]
    cases m.memory.write m.registers.index (decimalDigits (m.get x)) <;> rfl
  | storeRegisters x =>
    rw [carryOut, run_bind, run_write, Machine.execute, Machine.store]
    cases m.memory.write m.registers.index (m.registers.upTo x) <;> rfl
  | loadRegisters x =>
    rw [carryOut, run_bind, run_read, Machine.execute]
    cases m.memory.read m.registers.index (x.val + 1) with
    | error fault => rfl
    | ok data =>
      have hpc (index : Nat) :
          ({ m with registers := m.registers.load data }.putIndex index).pc = m.pc := by
        simp only [Machine.pc, Machine.putIndex, Registers.setIndex, Registers.load]
      simp only [Except.map, settle, run_bind, run_modify, run_pure]
      rw [next_eq_goto (hpc _)]
  | draw x y rows =>
    rw [carryOut, run_bind, run_read, Machine.execute]
    cases m.memory.read m.registers.index rows.val with
    | error fault => rfl
    | ok sprite =>
      dsimp only [Except.map, settle]
      rw [run_bind, run_drawSprite, next_eq_goto (pc_drawSprite m x y sprite)]
      rfl
  | clear =>
    have hpc (memory : Memory) : ({ m with memory, redraw := true } : Machine).pc = m.pc := rfl
    rw [Machine.execute, next_eq_goto (hpc _)]
    rfl
  | unknown opcode =>
    rw [carryOut, Machine.execute, Machine.passOver]
    cases m.config.unknown <;> rfl
  | skipIf condition =>
    rw [carryOut, Machine.execute]
    cases m.holds condition
    · rfl
    · simp only [if_true, run_pure, UInt16.add_assoc]
      rfl
  | combine operation x y =>
    rw [Machine.execute, next_eq_goto (pc_combine m operation x y)]
    rfl
  | jump | loadByte | addByte | loadIndex | jumpOffset | random | loadDelay | waitKey | setDelay
  | setSound | addIndex | loadGlyph => rfl

end InPlace

namespace Machine

/-- Fetches and executes one instruction at once. -/
def cycle (m : Machine) : Except Fault Machine :=
  m.fetch.bind fun opcode => m.execute (Instruction.decode opcode)

theorem cycle_of_fetch {m : Machine} {opcode : Opcode} (h : m.fetch = .ok opcode) :
    m.cycle = m.execute (Instruction.decode opcode) := by
  rw [cycle, h]
  rfl

theorem cycle_of_fetch_error {m : Machine} {fault : Fault} (h : m.fetch = .error fault) :
    m.cycle = .error fault := by
  rw [cycle, h]
  rfl

theorem run_cycle (m : Machine) :
    InPlace.cycle.run m = InPlace.settle m (m.cycle.map fun m' => ((), m')) := by
  rw [InPlace.cycle, InPlace.run_bind, InPlace.run_get]
  dsimp only
  rw [InPlace.run_bind, InPlace.run_readWord]
  cases hfetch : m.fetch with
  | error fault =>
    rw [cycle_of_fetch_error hfetch, show m.memory.readWord m.pc = .error fault from hfetch]
    rfl
  | ok opcode =>
    rw [cycle_of_fetch hfetch, show m.memory.readWord m.pc = .ok opcode from hfetch]
    exact InPlace.run_execute _ m

theorem step_of_cycle_ok {m m' : Machine} (h : m.state = .running) (hc : m.cycle = .ok m') :
    m.step = (.ok (), m') := by
  rw [step, h, run_cycle, hc]
  rfl

/-- A fault is reported by the machine that met it, unchanged but for its state. -/
theorem step_of_cycle_error {m : Machine} {fault : Fault} (h : m.state = .running)
    (hc : m.cycle = .error fault) : m.step = (.error fault, m.halt fault) := by
  rw [step, h, run_cycle, hc]
  rfl

end Machine

end Chip8
