import Chip8.Proofs.CallStack
import Chip8.Proofs.Machine.Execution

/-!
# Effects

What executing an instruction does outside the registers and the timers.  `Effect` tells it for the
memory, the call stack and the redraw request, all at once and by five cases: painting, calling,
returning, storing, and the many instructions that leave all three alone.  From it follow the
footprint of an instruction, which is where in memory it writes, and when it asks for a redraw.
-/

namespace Chip8

theorem Registers.length_upTo (r : Registers) (x : Register) : (r.upTo x).length = x.val + 1 := by
  have hx := x.isLt
  simp only [upTo, List.length_take, Vector.length_toList]
  omega

/-- A clear or a draw. -/
def Instruction.paints : Instruction → Bool
  | .clear | .draw .. => true
  | _ => false

namespace Machine

inductive Effect (m : Machine) : Instruction → Machine → Prop where
  | painted {i : Instruction} {m' : Machine} (picture : Bitmap) (paints : i.paints = true)
      (memory : m'.memory = m.memory.setDisplay picture) (stack : m'.stack = m.stack)
      (redraw : m'.redraw = true) : Effect m i m'
  | called {nnn : UInt16} {m' : Machine}
      (push : m.stack.push m.memory (m.pc + 2) m.pc = .ok (m'.stack, m'.memory))
      (redraw : m'.redraw = m.redraw) : Effect m (.call nnn) m'
  | returned {m' : Machine} (pop : m.stack.pop m.memory m.pc = .ok (m'.pc, m'.stack))
      (memory : m'.memory = m.memory) (redraw : m'.redraw = m.redraw) : Effect m .ret m'
  | stored {i : Instruction} {m' : Machine} (data : List UInt8)
      (length : data.length = i.storedLength) (positive : 0 < data.length)
      (range : m.registers.index.toNat + data.length ≤ Memory.size)
      (memory : m'.memory = m.memory.splice m.registers.index.toNat data)
      (stack : m'.stack = m.stack)
      (redraw : m'.redraw = (m.redraw ||
        decide (Memory.displayBase < m.registers.index.toNat + data.length))) :
      Effect m i m'
  | internal {i : Instruction} {m' : Machine} (paints : i.paints = false)
      (stores : i.storedLength = 0) (memory : m'.memory = m.memory) (stack : m'.stack = m.stack)
      (redraw : m'.redraw = m.redraw) : Effect m i m'

theorem get_next (m : Machine) (z : Register) : m.next.get z = m.get z := rfl

theorem memory_next (m : Machine) : m.next.memory = m.memory := rfl

theorem stack_next (m : Machine) : m.next.stack = m.stack := rfl

theorem redraw_next (m : Machine) : m.next.redraw = m.redraw := rfl

/-- Combining two registers touches nothing but registers. -/
theorem combine_frame (m : Machine) (operation : Operation) (x y : Register) :
    ∃ registers, m.combine operation x y = { m with registers } := by
  unfold combine
  split
  split
  · exact ⟨_, rfl⟩
  · exact ⟨_, rfl⟩

theorem store_eq_ok_iff {m m' : Machine} {data : List UInt8} :
    m.store data = .ok m' ↔
      m.registers.index.toNat + data.length ≤ Memory.size ∧
        { m with
          memory := m.memory.splice m.registers.index.toNat data
          redraw := m.redraw ||
            decide (Memory.displayBase < m.registers.index.toNat + data.length) } = m' := by
  unfold store
  rw [map_eq_ok_iff]
  simp only [Memory.write_eq_ok_iff]
  constructor
  · intro hwritten
    obtain ⟨memory, ⟨hrange, rfl⟩, rfl⟩ := hwritten
    exact ⟨hrange, rfl⟩
  · intro hstored
    obtain ⟨hrange, rfl⟩ := hstored
    exact ⟨_, ⟨hrange, rfl⟩, rfl⟩

theorem execute_effect {m m' : Machine} {i : Instruction} (h : m.execute i = .ok m') :
    m.Effect i m' := by
  cases i with
  | clear =>
    obtain rfl := Except.ok.inj h
    exact .painted m.memory.display.clear rfl (memory_next _) (stack_next _) (redraw_next _)
  | ret =>
    obtain ⟨⟨target, stack⟩, hpop, rfl⟩ := map_eq_ok_iff.mp h
    exact .returned hpop rfl rfl
  | call nnn =>
    obtain ⟨⟨stack, memory⟩, hpush, rfl⟩ := map_eq_ok_iff.mp h
    exact .called hpush rfl
  | draw x y rows =>
    obtain ⟨sprite, -, rfl⟩ := map_eq_ok_iff.mp h
    exact .painted _ rfl (memory_next _) (stack_next _) (redraw_next _)
  | storeDecimal x =>
    obtain ⟨stored, hstore, rfl⟩ := map_eq_ok_iff.mp h
    obtain ⟨hrange, rfl⟩ := store_eq_ok_iff.mp hstore
    exact .stored (decimalDigits (m.get x)) rfl (Nat.succ_pos 2) hrange (memory_next _)
      (stack_next _) (redraw_next _)
  | storeRegisters x =>
    obtain ⟨stored, hstore, rfl⟩ := map_eq_ok_iff.mp h
    obtain ⟨hrange, rfl⟩ := store_eq_ok_iff.mp hstore
    have hlength := m.registers.length_upTo x
    refine .stored _ hlength (by omega) hrange ?_ ?_ ?_ <;> simp only [next, goto, putIndex]
  | loadRegisters x =>
    obtain ⟨data, -, rfl⟩ := map_eq_ok_iff.mp h
    refine .internal rfl rfl ?_ ?_ ?_ <;> simp only [next, goto, putIndex]
  | combine operation x y =>
    obtain ⟨registers, hcombine⟩ := m.combine_frame operation x y
    simp only [execute, hcombine] at h
    cases h
    exact .internal rfl rfl rfl rfl rfl
  | unknown opcode =>
    simp only [execute, passOver] at h
    split at h
    · cases h
      exact .internal rfl rfl rfl rfl rfl
    · cases h
  | jump | skipIf | loadByte | addByte | loadIndex | jumpOffset | random | loadDelay | waitKey
  | setDelay | setSound | addIndex | loadGlyph =>
    cases h
    exact .internal rfl rfl rfl rfl rfl

end Machine

namespace Execution

/-- The address is in the footprint: only there may the execution change memory. -/
def Writes (e : Execution) (a : Nat) : Prop :=
  (e.instruction.paints = true ∧ Memory.displayBase ≤ a ∧ a < Memory.size) ∨
    ((∃ nnn, e.instruction = .call nnn) ∧
      e.machine.stack.pointer.toNat ≤ a ∧ a < e.machine.stack.pointer.toNat + 2) ∨
    e.Stores a

/-- The execution clears, draws, or stores a byte of the display. -/
def TouchesScreen (e : Execution) : Prop :=
  e.instruction.paints = true ∨
    ∃ a, e.Stores a ∧ Memory.displayBase ≤ a ∧ a < Memory.size

end Execution

namespace Machine

theorem byte_execute {m m' : Machine} {i : Instruction} (h : m.execute i = .ok m')
    (hstack : m.stack.Sound) {a : Nat} (ha : ¬ Execution.Writes ⟨m, i⟩ a) :
    m'.memory.byte a = m.memory.byte a := by
  simp only [Execution.Writes, Execution.Stores, not_or, not_and] at ha
  obtain ⟨hpaint, hcall, hstore⟩ := ha
  cases execute_effect h with
  | painted picture paints memory =>
    rw [memory, Memory.byte_setDisplay, if_neg (fun hin => hpaint paints hin.1 hin.2)]
  | called push =>
    rw [hstack.push_eq] at push
    split at push
    · cases push
    · obtain ⟨-, hmemory⟩ := Prod.mk.inj (Except.ok.inj push)
      rw [← hmemory]
      exact Memory.byte_splice_of_outside _ (hcall ⟨_, rfl⟩)
  | returned pop memory => rw [memory]
  | stored data length positive range memory =>
    rw [memory]
    exact Memory.byte_splice_of_outside _ (length ▸ hstore)
  | internal paints stores memory => rw [memory]

theorem sound_execute {m m' : Machine} {i : Instruction} (h : m.execute i = .ok m')
    (hstack : m.stack.Sound) : m'.stack.Sound := by
  cases execute_effect h with
  | called push =>
    rw [hstack.push_eq] at push
    split at push
    · cases push
    · next hfull =>
      obtain ⟨hpointer, -⟩ := Prod.mk.inj (Except.ok.inj push)
      rw [← hpointer]
      exact (hstack.pushed (Nat.lt_of_le_of_ne hstack.depth_le hfull)).1
  | returned pop =>
    rw [hstack.pop_eq] at pop
    split at pop
    · cases pop
    · next hempty =>
      obtain ⟨-, hpointer⟩ := Prod.mk.inj (Except.ok.inj pop)
      rw [← hpointer]
      exact (hstack.popped (Nat.pos_of_ne_zero hempty)).1
  | painted _ _ _ stack | stored _ _ _ _ _ stack | internal _ _ _ stack => rwa [stack]

theorem paints_eq_false_of_stores {i : Instruction} (h : 0 < i.storedLength) :
    i.paints = false := by
  cases i with
  | clear | draw => exact absurd h (Nat.lt_irrefl 0)
  | _ => rfl

theorem stores_iff {m : Machine} {i : Instruction} {a : Nat} :
    Execution.Stores ⟨m, i⟩ a ↔
      m.registers.index.toNat ≤ a ∧ a < m.registers.index.toNat + i.storedLength :=
  Iff.rfl

theorem not_touchesScreen {m : Machine} {i : Instruction} (hpaints : i.paints = false)
    (hstores : i.storedLength = 0) : ¬ Execution.TouchesScreen ⟨m, i⟩ := by
  intro htouch
  rcases htouch with hpaint | ⟨a, hstore, -⟩
  · exact Bool.false_ne_true (hpaints.symm.trans hpaint)
  · rw [stores_iff, hstores] at hstore
    omega

/-- A store that stays in memory touches the screen when it ends above the program. -/
theorem touchesScreen_iff_of_stores {m : Machine} {i : Instruction} (hpos : 0 < i.storedLength)
    (hrange : m.registers.index.toNat + i.storedLength ≤ Memory.size) :
    Execution.TouchesScreen ⟨m, i⟩ ↔
      Memory.displayBase < m.registers.index.toNat + i.storedLength := by
  constructor
  · intro htouch
    rcases htouch with hpaint | ⟨a, hstore, hlow, -⟩
    · exact absurd ((paints_eq_false_of_stores hpos).symm.trans hpaint) Bool.false_ne_true
    · rw [stores_iff] at hstore
      omega
  · intro hlt
    refine .inr ⟨max m.registers.index.toNat Memory.displayBase, ?_, Nat.le_max_right .., ?_⟩
    · rw [stores_iff]
      omega
    · change 0xF00 < _ at hlt
      change _ ≤ 4096 at hrange
      change max _ 0xF00 < 4096
      omega

/-- An executed instruction asks for a redraw exactly when it touches the screen. -/
theorem redraw_execute {m m' : Machine} {i : Instruction} (h : m.execute i = .ok m') :
    m'.redraw = true ↔ m.redraw = true ∨ Execution.TouchesScreen ⟨m, i⟩ := by
  cases execute_effect h with
  | painted _ paints _ _ redraw => simp [redraw, Execution.TouchesScreen, paints]
  | called _ redraw => rw [redraw, or_iff_left (not_touchesScreen rfl rfl)]
  | returned _ _ redraw => rw [redraw, or_iff_left (not_touchesScreen rfl rfl)]
  | internal paints stores _ _ redraw =>
    rw [redraw, or_iff_left (not_touchesScreen paints stores)]
  | stored data length positive range _ _ redraw =>
    rw [length] at positive range redraw
    rw [redraw, touchesScreen_iff_of_stores positive range]
    simp

theorem display_execute {m m' : Machine} {i : Instruction} (h : m.execute i = .ok m')
    (hstack : m.stack.Sound) (hscreen : ¬ Execution.TouchesScreen ⟨m, i⟩) :
    m'.memory.display = m.memory.display := by
  apply Memory.display_congr
  intro a hlow hhigh
  apply byte_execute h hstack
  intro hwrites
  rcases hwrites with ⟨hpaint, -⟩ | ⟨-, -, hslot⟩ | hstore
  · exact hscreen (.inl hpaint)
  · -- a slot of the call stack lies below the program
    have hpointer := hstack.pointer_eq
    change 0xF00 ≤ a at hlow
    change a < m.stack.pointer.toNat + 2 at hslot
    omega
  · exact hscreen (.inr ⟨a, hstore, hlow, hhigh⟩)

end Machine

/-! ## Run state and skipped opcodes -/

namespace Instruction

/-- The run state that the instruction leaves: only one makes the machine wait. -/
def stateAfter (state : RunState) : Instruction → RunState
  | .waitKey x => .waiting x
  | _ => state

/-- How many opcodes are passed over by executing the instruction. -/
def skips : Instruction → Nat
  | .unknown _ => 1
  | _ => 0

end Instruction

namespace Machine

theorem state_next (m : Machine) : m.next.state = m.state := rfl

theorem skipped_next (m : Machine) : m.next.skipped = m.skipped := rfl

theorem control_execute {m m' : Machine} {i : Instruction} (h : m.execute i = .ok m') :
    m'.state = i.stateAfter m.state ∧ m'.skipped = m.skipped + i.skips := by
  cases i with
  | ret | call | draw =>
    obtain ⟨result, -, rfl⟩ := map_eq_ok_iff.mp h
    exact ⟨rfl, rfl⟩
  | loadRegisters x =>
    obtain ⟨data, -, rfl⟩ := map_eq_ok_iff.mp h
    simp only [next, goto, putIndex, Instruction.stateAfter, Instruction.skips, Nat.add_zero,
      and_self]
  | storeDecimal x | storeRegisters x =>
    obtain ⟨stored, hstore, rfl⟩ := map_eq_ok_iff.mp h
    obtain ⟨-, rfl⟩ := store_eq_ok_iff.mp hstore
    simp only [next, goto, putIndex, Instruction.stateAfter, Instruction.skips, Nat.add_zero,
      and_self]
  | combine operation x y =>
    obtain ⟨registers, hcombine⟩ := m.combine_frame operation x y
    simp only [execute, hcombine] at h
    obtain rfl := Except.ok.inj h
    exact ⟨state_next _, skipped_next _⟩
  | unknown opcode =>
    simp only [execute, passOver] at h
    split at h <;> cases h
    exact ⟨rfl, rfl⟩
  | jump | skipIf | jumpOffset =>
    obtain rfl := Except.ok.inj h
    exact ⟨rfl, rfl⟩
  | clear | loadByte | addByte | loadIndex | random | loadDelay | waitKey | setDelay | setSound
  | addIndex | loadGlyph =>
    obtain rfl := Except.ok.inj h
    exact ⟨state_next _, skipped_next _⟩

/-- The count of opcodes passed over never goes down. -/
theorem skipped_le_perform (m : Machine) (request : Request) :
    m.skipped ≤ (m.perform request).2.skipped := by
  cases hexecuted : m.executed request with
  | none => exact Nat.le_of_eq (idle_of_not_executed hexecuted).skipped.symm
  | some e =>
    rw [(control_execute (perform_of_executed hexecuted).2).2]
    exact Nat.le_add_right _ _

end Machine

end Chip8
