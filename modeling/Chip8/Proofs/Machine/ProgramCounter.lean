import Chip8.Proofs.Instruction.Catalogue
import Chip8.Proofs.Machine.Returns

/-!
# Where the program counter can be

The program counter goes on from where it is, goes to an address that an instruction names or adds
up, or comes back to an address that a call has left on the stack.  So what is to hold of it has to
hold of the return addresses as well, and stays true over a run if it passes from the one to the
other and holds of every address that the run goes to.  A bound is such a property, and so is being
even.
-/

namespace Chip8

/-- The execution goes to `target` by a jump, a call or an indexed jump. -/
inductive Execution.GoesTo (e : Execution) : UInt16 → Prop where
  | named (fits : e.machine.opcode.Fits "1NNN" ∨ e.machine.opcode.Fits "2NNN") :
      e.GoesTo e.machine.opcode.nnn
  | indexed (fits : e.machine.opcode.Fits "BNNN") :
      e.GoesTo (e.machine.opcode.nnn + (e.machine.get .base).toUInt16)

/-- What holds of an address in memory by `P` holds by `P` of the addresses after it, and by `Q` of
the return address that a call leaves there; and what is returned to holds by `P` again. -/
structure Inherited (P Q : UInt16 → Prop) : Prop where
  next : ∀ pc : UInt16, pc.toNat + 2 ≤ Memory.size → P pc → P (pc + 2)
  skip : ∀ pc : UInt16, pc.toNat + 2 ≤ Memory.size → P pc → P (pc + 4)
  call : ∀ pc : UInt16, pc.toNat + 2 ≤ Memory.size → P pc → Q (pc + 2)
  ret : ∀ target, Q target → P target

namespace Machine

/-- Where an instruction leads. -/
def successor (m : Machine) : Instruction → UInt16
  | .jump nnn | .call nnn => nnn
  | .jumpOffset nnn => nnn + (m.get .base).toUInt16
  | .skipIf condition => m.pc + if m.holds condition then 4 else 2
  | .ret => m.memory.wordAt (m.stack.pointer + 2).toNat
  | _ => m.pc + 2

theorem pc_next (m : Machine) : m.next.pc = m.pc + 2 := rfl

theorem pc_execute {m m' : Machine} {i : Instruction} (h : m.execute i = .ok m') :
    m'.pc = m.successor i := by
  cases i with
  | ret =>
    obtain ⟨⟨target, stack⟩, hpop, rfl⟩ := map_eq_ok_iff.mp h
    rw [CallStack.pop] at hpop
    split at hpop
    · cases hpop
    · obtain ⟨word, hread, hpair⟩ := map_eq_ok_iff.mp hpop
      obtain ⟨-, -, hword⟩ := map_eq_ok_iff.mp hread
      obtain ⟨rfl, -⟩ := Prod.mk.inj hpair
      exact hword.symm
  | call nnn | draw =>
    obtain ⟨result, -, rfl⟩ := map_eq_ok_iff.mp h
    rfl
  | loadRegisters x =>
    obtain ⟨data, -, rfl⟩ := map_eq_ok_iff.mp h
    rfl
  | storeDecimal x | storeRegisters x =>
    obtain ⟨stored, hstore, rfl⟩ := map_eq_ok_iff.mp h
    obtain ⟨-, rfl⟩ := store_eq_ok_iff.mp hstore
    rfl
  | combine operation x y =>
    obtain rfl := Except.ok.inj h
    rw [pc_next, InPlace.pc_combine]
    rfl
  | unknown opcode =>
    simp only [execute, passOver] at h
    split at h <;> cases h
    rfl
  | clear | jump | skipIf | loadByte | addByte | loadIndex | jumpOffset | random | loadDelay
  | waitKey | setDelay | setSound | addIndex | loadGlyph =>
    obtain rfl := Except.ok.inj h
    rfl

/-! ## What is inherited over a run -/

/-- `P` holds of the program counter, and `Q` of the return addresses. -/
structure Tracks (P Q : UInt16 → Prop) (m : Machine) : Prop where
  pc : P m.pc
  calls : ∃ a : CallListMachine, a.Represents m ∧ ∀ target ∈ a.calls, Q target

variable {P Q : UInt16 → Prop} {m m' : Machine} {e : Execution} {request : Request}
  {requests : List Request}

/-- Without a return, a machine comes to an address that it goes to or to one after its own. -/
theorem successor_inherits (hinherited : Inherited P Q) (hpc : P m.pc)
    (hfits : m.pc.toNat + 2 ≤ Memory.size) {i : Instruction}
    (hi : i = Instruction.decode m.opcode) (hret : i ≠ .ret)
    (hgoes : ∀ target, Execution.GoesTo ⟨m, i⟩ target → P target) : P (m.successor i) := by
  cases i with
  | ret => exact absurd rfl hret
  | jump nnn =>
    obtain ⟨hopcode, rfl⟩ := Instruction.decode_eq_jump_iff.mp hi.symm
    exact hgoes _ (.named (.inl hopcode))
  | call nnn =>
    obtain ⟨hopcode, rfl⟩ := Instruction.decode_eq_call_iff.mp hi.symm
    exact hgoes _ (.named (.inr hopcode))
  | jumpOffset nnn =>
    obtain ⟨hopcode, rfl⟩ := Instruction.decode_eq_jumpOffset_iff.mp hi.symm
    exact hgoes _ (.indexed hopcode)
  | skipIf condition =>
    change P (m.pc + if m.holds condition then 4 else 2)
    cases m.holds condition with
    | true => exact hinherited.skip _ hfits hpc
    | false => exact hinherited.next _ hfits hpc
  | _ => exact hinherited.next _ hfits hpc

/-- The return addresses are those there were, with one more after a call and one less after a
return. -/
theorem tracks_execute (hinherited : Inherited P Q) (h : m.Tracks P Q)
    (hexecuted : m.executed request = some e) (hspare : CallListMachine.SparesStack e)
    (hgoes : ∀ target, e.GoesTo target → P target) : (m.perform request).2.Tracks P Q := by
  obtain ⟨hpc, a, hrepresents, hcalls⟩ := h
  have hdecode := instruction_of_executed hexecuted
  obtain ⟨rfl, rfl, -, w, m', hfetch, -, hexecute⟩ := executed_eq_some_iff.mp hexecuted
  rw [Except.ok.inj ((perform_of_executed hexecuted).2.symm.trans hexecute)]
  have hfits := (fetch_eq_ok_iff.mp hfetch).1
  -- The list says which address a return takes off; the memory alone would not.
  obtain ⟨a', hlist, hrepresents'⟩ := CallListMachine.represents_execute hrepresents hspare hexecute
  obtain ⟨-, hpopped⟩ | ⟨hret, hkept⟩ := CallListMachine.calls_execute hlist
  · rw [hpopped] at hcalls
    obtain ⟨hnewest, hothers⟩ := List.forall_mem_cons.mp hcalls
    refine ⟨?_, a', hrepresents', hothers⟩
    rw [hrepresents'.pc]
    exact hinherited.ret _ hnewest
  · refine ⟨?_, a', hrepresents', ?_⟩
    · rw [pc_execute hexecute]
      exact successor_inherits hinherited hpc hfits hdecode hret hgoes
    · obtain hsame | hpushed := hkept
      · exact hsame ▸ hcalls
      · rw [hpushed, ← hrepresents.pc]
        exact List.forall_mem_cons.mpr ⟨hinherited.call _ hfits hpc, hcalls⟩

theorem tracks_perform (hinherited : Inherited P Q) (h : m.Tracks P Q) (request : Request)
    (hspare : ∀ e, m.executed request = some e → CallListMachine.SparesStack e)
    (hgoes : ∀ e, m.executed request = some e → ∀ target, e.GoesTo target → P target) :
    (m.perform request).2.Tracks P Q := by
  cases hexecuted : m.executed request with
  | some e => exact tracks_execute hinherited h hexecuted (hspare e hexecuted) (hgoes e hexecuted)
  | none =>
    obtain ⟨hpc, a, hrepresents, hcalls⟩ := h
    have hidle := idle_of_not_executed hexecuted
    refine ⟨(reserved_of_not_executed hexecuted).pc ▸ hpc, ⟨(m.perform request).2, a.calls⟩,
      ⟨?_, ?_, rfl, ?_⟩, hcalls⟩
    · rw [hidle.stack]
      exact hrepresents.sound
    · rw [hidle.stack]
      exact hrepresents.depth
    · rw [hidle.memory]
      exact hrepresents.word

theorem tracks_run (hinherited : Inherited P Q) (h : m.Tracks P Q)
    (hspare : ∀ e ∈ m.executions requests, CallListMachine.SparesStack e)
    (hgoes : ∀ e ∈ m.executions requests, ∀ target, e.GoesTo target → P target) :
    (m.run requests).Tracks P Q := by
  induction requests generalizing m with
  | nil => exact h
  | cons request requests ih =>
    simp only [mem_executions_cons, or_imp, forall_and] at hspare hgoes
    exact ih (tracks_perform hinherited h request hspare.1 hgoes.1) hspare.2 hgoes.2

theorem tracks_start {program : List UInt8} {config : Config} {chance : RandomSource}
    (hstart : start program config chance = .ok m) (hpc : P 0x200) : m.Tracks P Q := by
  refine ⟨?_, _, CallListMachine.represents_start hstart, List.forall_mem_nil _⟩
  obtain ⟨-, -, rfl⟩ := start_eq_ok_iff.mp hstart
  exact hpc

/-- The return addresses lie in memory. -/
theorem Tracks.wordAt (h : m.Tracks P Q) {k : Nat} (hk : k < m.stack.depth) :
    Q (m.memory.wordAt (0x1FE - 2 * k)) := by
  obtain ⟨-, a, hrepresents, hcalls⟩ := h
  rw [hrepresents.depth, ← List.length_reverse] at hk
  change Q (m.memory.wordAt (CallStack.top - 2 * k))
  rw [hrepresents.word k _ (List.getElem?_eq_getElem hk)]
  exact hcalls _ (List.mem_reverse.mp (List.getElem_mem hk))

/-! ## Two properties -/

theorem inherited_bounds :
    Inherited (fun pc => pc.toNat ≤ 0x10FE)
      fun target => 2 ≤ target.toNat ∧ target.toNat ≤ 0x1000 where
  next pc hfits _ := by
    rw [toNat_pc_add_two hfits]
    exact Nat.le_trans hfits (by decide)
  skip pc hfits _ := by
    rw [toNat_pc_add_four hfits]
    exact Nat.le_trans (Nat.add_le_add_right hfits 2) (by decide)
  call pc hfits _ := by
    rw [toNat_pc_add_two hfits]
    exact ⟨Nat.le_add_left 2 _, hfits⟩
  ret target hbounds := Nat.le_trans hbounds.2 (by decide)

theorem inherited_even : Inherited (fun pc => 2 ∣ pc.toNat) fun target => 2 ∣ target.toNat where
  next pc hfits heven := by
    rw [toNat_pc_add_two hfits]
    exact Nat.dvd_add heven (by decide)
  skip pc hfits heven := by
    rw [toNat_pc_add_four hfits]
    exact Nat.dvd_add heven (by decide)
  call pc hfits heven := by
    rw [toNat_pc_add_two hfits]
    exact Nat.dvd_add heven (by decide)
  ret _ heven := heven

theorem toNat_goesTo_le {target : UInt16} (h : e.GoesTo target) : target.toNat ≤ 0x10FE := by
  have hnnn := e.machine.opcode.toNat_nnn_lt
  cases h with
  | named => omega
  | indexed =>
    have hbase := (e.machine.get .base).toNat_lt
    rw [UInt16.toNat_add, UInt8.toNat_toUInt16]
    omega

/-- In a run that stores nothing in the region of the call stack the program counter stays below
`0x10FF` and the return addresses from 2 to `0x1000`; and if the run goes to even addresses only,
all of these are even. -/
theorem pc_bounded_and_even {program : List UInt8} {config : Config} {chance : RandomSource}
    {m₀ : Machine} (hstart : start program config chance = .ok m₀) (requests : List Request)
    (hspare : ∀ e ∈ m₀.executions requests, CallListMachine.SparesStack e) :
    let m := m₀.run requests
    (m.pc.toNat ≤ 0x10FE ∧ ∀ k < m.stack.depth,
        2 ≤ (m.memory.wordAt (0x1FE - 2 * k)).toNat ∧
          (m.memory.wordAt (0x1FE - 2 * k)).toNat ≤ 0x1000) ∧
      ((∀ e ∈ m₀.executions requests, ∀ target, e.GoesTo target → 2 ∣ target.toNat) →
        2 ∣ m.pc.toNat ∧
          ∀ k < m.stack.depth, 2 ∣ (m.memory.wordAt (0x1FE - 2 * k)).toNat) := by
  intro m
  constructor
  · have hbounds := tracks_run inherited_bounds (tracks_start hstart (by decide)) hspare
      fun _ _ _ => toNat_goesTo_le
    exact ⟨hbounds.pc, fun k => hbounds.wordAt⟩
  · intro heven
    have hevens := tracks_run inherited_even (tracks_start hstart (by decide)) hspare heven
    exact ⟨hevens.pc, fun k => hevens.wordAt⟩

/-- A subroutine that passes over an instruction before it returns. -/
def skippingSubroutine : Machine :=
  .loaded [0x22, 0x04, 0x12, 0x02, 0x30, 0x00, 0x00, 0xE0, 0x00, 0xEE] .standard (.ofSeed 1)

theorem even_within_subroutine :
    let m := skippingSubroutine.run [.step, .step]
    (m.pc.toNat ≤ 0x10FE ∧ 2 ∣ m.pc.toNat) ∧
      (2 ≤ (m.memory.wordAt 0x1FE).toNat ∧ (m.memory.wordAt 0x1FE).toNat ≤ 0x1000) ∧
        2 ∣ (m.memory.wordAt 0x1FE).toNat := by
  intro m
  have hstart : start [0x22, 0x04, 0x12, 0x02, 0x30, 0x00, 0x00, 0xE0, 0x00, 0xEE] .standard
      (.ofSeed 1) = .ok skippingSubroutine := start_loaded (by decide) (by decide)
  have hspare : ∀ e ∈ skippingSubroutine.executions [.step, .step],
      CallListMachine.SparesStack e := by
    have hstored : ∀ e ∈ skippingSubroutine.executions [.step, .step],
        e.instruction.storedLength = 0 := by decide +kernel
    exact fun e he => CallListMachine.sparesStack_of_storedLength (hstored e he)
  have hgoes : ∀ e ∈ skippingSubroutine.executions [.step, .step], ∀ target,
      e.GoesTo target → 2 ∣ target.toNat := by
    have heven : ∀ e ∈ skippingSubroutine.executions [.step, .step],
        2 ∣ e.machine.opcode.nnn.toNat ∧
          2 ∣ (e.machine.opcode.nnn + (e.machine.get .base).toUInt16).toNat := by decide +kernel
    intro e he target htarget
    cases htarget with
    | named => exact (heven e he).1
    | indexed => exact (heven e he).2
  have hdepth : 0 < m.stack.depth := by decide +kernel
  obtain ⟨⟨hpc, hcalls⟩, heven⟩ := pc_bounded_and_even hstart [.step, .step] hspare
  obtain ⟨hpceven, hcallseven⟩ := heven hgoes
  exact ⟨⟨hpc, hpceven⟩, hcalls 0 hdepth, hcallseven 0 hdepth⟩

end Machine

end Chip8
