import Chip8.Proofs.Machine.Execution

/-!
# What is not used

The timers, the keypad, the call stack, the random source and the configuration are used by few
instructions each.  An amendment changes some of them.  An instruction that uses nothing of what is
amended does the same with and without the amendment, and hands it on as it found it; and so does
every request.  In particular it leaves alone what it does not use.
-/

namespace Chip8

/-- A change of the parts of a machine that most instructions do not use. -/
structure Amendment where
  timers : Timers → Timers := id
  keypad : Keypad → Keypad := id
  stack : CallStack → CallStack := id
  random : RandomSource → RandomSource := id
  config : Config → Config := id

def Machine.amend (a : Amendment) (m : Machine) : Machine :=
  { m with
    timers := a.timers m.timers
    keypad := a.keypad m.keypad
    stack := a.stack m.stack
    random := a.random m.random
    config := a.config m.config }

namespace Instruction

def usesTimers : Instruction → Bool
  | .loadDelay _ | .setDelay _ | .setSound _ => true
  | _ => false

def usesKeypad : Instruction → Bool
  | .skipIf (.keyDown _) | .skipIf (.keyUp _) => true
  | _ => false

/-- The instruction reads or writes the call stack. -/
def usesStack : Instruction → Bool
  | .ret | .call _ => true
  | _ => false

def usesRandom : Instruction → Bool
  | .random .. => true
  | _ => false

/-- The registers of a shift, whose operand the configuration selects. -/
def shifted : Instruction → Option (Register × Register)
  | .combine .shiftRight x y | .combine .shiftLeft x y => some (x, y)
  | _ => none

end Instruction

/-- The instruction uses nothing that the amendment changes.  Of the configuration it is what the
machine makes of it that counts. -/
structure Amendment.Spares (a : Amendment) (m : Machine) (i : Instruction) : Prop where
  timers : i.usesTimers = true → a.timers = id
  keypad : i.usesKeypad = true → a.keypad = id
  stack : i.usesStack = true → a.stack = id
  random : i.usesRandom = true → a.random = id
  operand : ∀ x y, i.shifted = some (x, y) → (m.amend a).shiftOperand x y = m.shiftOperand x y
  policy : ∀ w, i = .unknown w → (a.config m.config).unknown = m.config.unknown

namespace Machine

variable {m m' : Machine} {a : Amendment} {i : Instruction} {request : Request}

theorem store_amend (data : List UInt8) :
    (m.amend a).store data = (m.store data).map (amend a) := by
  change Except.map _ (m.memory.write m.registers.index data) = Except.map _ (Except.map _ _)
  cases m.memory.write m.registers.index data <;> rfl

/-- An instruction neither sees nor disturbs an amendment of what it does not use. -/
theorem execute_amend (h : a.Spares m i) :
    (m.amend a).execute i = (m.execute i).map (amend a) := by
  cases i with
  | loadDelay x | setDelay x | setSound x =>
    obtain ⟨timers, keypad, stack, random, config⟩ := a
    obtain rfl : timers = id := h.timers rfl
    rfl
  | skipIf condition =>
    cases condition with
    | keyDown x | keyUp x =>
      obtain ⟨timers, keypad, stack, random, config⟩ := a
      obtain rfl : keypad = id := h.keypad rfl
      rfl
    | equalsByte | differsFromByte | equals | differs => rfl
  | ret =>
    obtain ⟨timers, keypad, stack, random, config⟩ := a
    obtain rfl : stack = id := h.stack rfl
    change Except.map _ (m.stack.pop m.memory m.pc) = Except.map _ (Except.map _ _)
    cases m.stack.pop m.memory m.pc <;> rfl
  | call nnn =>
    obtain ⟨timers, keypad, stack, random, config⟩ := a
    obtain rfl : stack = id := h.stack rfl
    change Except.map _ (m.stack.push m.memory (m.pc + 2) m.pc) = Except.map _ (Except.map _ _)
    cases m.stack.push m.memory (m.pc + 2) m.pc <;> rfl
  | random x nn =>
    obtain ⟨timers, keypad, stack, random, config⟩ := a
    obtain rfl : random = id := h.random rfl
    rfl
  | combine operation x y =>
    cases operation with
    | shiftRight | shiftLeft =>
      simp only [execute, combine, h.operand x y rfl]
      rfl
    | _ => rfl
  | unknown opcode =>
    change passOver _ opcode = Except.map _ (passOver m opcode)
    have hpolicy : (m.amend a).config.unknown = m.config.unknown := h.policy opcode rfl
    unfold passOver
    rw [hpolicy]
    cases m.config.unknown <;> rfl
  | draw x y rows =>
    change Except.map _ (m.memory.read m.registers.index rows.val) =
      Except.map _ (Except.map _ _)
    cases m.memory.read m.registers.index rows.val <;> rfl
  | loadRegisters x =>
    change Except.map _ (m.memory.read m.registers.index (x.val + 1)) =
      Except.map _ (Except.map _ _)
    cases m.memory.read m.registers.index (x.val + 1) with
    | error fault => rfl
    | ok data =>
      have hregisters (r : Registers) (index : Nat) :
          ({ m.amend a with registers := r }.putIndex index).next =
            ({ m with registers := r }.putIndex index).next.amend a := rfl
      exact congrArg Except.ok (hregisters (m.registers.load data) _)
  | storeDecimal x =>
    change Except.map _ ((m.amend a).store (decimalDigits (m.get x))) =
      Except.map _ (Except.map _ _)
    rw [store_amend]
    cases m.store (decimalDigits (m.get x)) <;> rfl
  | storeRegisters x =>
    change Except.map _ ((m.amend a).store (m.registers.upTo x)) =
      Except.map _ (Except.map _ _)
    rw [store_amend]
    cases m.store (m.registers.upTo x) <;> rfl
  | clear =>
    have hmemory (memory : Memory) :
        { m.amend a with memory, redraw := true }.next =
          ({ m with memory, redraw := true } : Machine).next.amend a := rfl
    exact congrArg Except.ok (hmemory _)
  | jump | loadByte | addByte | loadIndex | jumpOffset | waitKey | addIndex | loadGlyph => rfl

/-! ## Requests -/

/-- The next step uses nothing that the amendment changes. -/
def StepSpares (a : Amendment) (m : Machine) : Prop :=
  m.state = .running → ∀ w, m.fetch = .ok w → a.Spares m (Instruction.decode w)

theorem cycle_amend (h : ∀ w, m.fetch = .ok w → a.Spares m (Instruction.decode w)) :
    (m.amend a).cycle = m.cycle.map (amend a) := by
  have hfetch : (m.amend a).fetch = m.fetch := rfl
  cases hfetched : m.fetch with
  | error fault =>
    rw [cycle_of_fetch_error (hfetch.trans hfetched), cycle_of_fetch_error hfetched]
    rfl
  | ok w =>
    rw [cycle_of_fetch (hfetch.trans hfetched), cycle_of_fetch hfetched]
    exact execute_amend (h w hfetched)

theorem perform_step_amend (h : StepSpares a m) :
    (m.amend a).perform .step = ((m.perform .step).1, (m.perform .step).2.amend a) := by
  have hamended : (m.amend a).state = m.state := rfl
  cases hstate : m.state with
  | halted =>
    rw [perform, perform, step_of_halted hstate, step_of_halted (hamended.trans hstate)]
  | waiting x =>
    rw [perform, perform, step_of_waiting hstate, step_of_waiting (hamended.trans hstate)]
  | running =>
    have hcycle := cycle_amend (h hstate)
    cases hdone : m.cycle with
    | ok next =>
      rw [hdone] at hcycle
      rw [perform_step_of_ok hstate hdone, perform_step_of_ok (hamended.trans hstate) hcycle]
    | error fault =>
      rw [hdone] at hcycle
      rw [perform_step_of_error hstate hdone,
        perform_step_of_error (hamended.trans hstate) hcycle]
      unfold halt
      split <;> rfl

/-- A request neither sees nor disturbs an amendment of what it does not use. -/
theorem perform_amend (hstep : request = .step → StepSpares a m)
    (htick : request = .tick → a.timers = id)
    (hkeys : ∀ code, request = .keyDown code ∨ request = .keyUp code → a.keypad = id) :
    (m.amend a).perform request = ((m.perform request).1, (m.perform request).2.amend a) := by
  obtain ⟨timers, keypad, stack, random, config⟩ := a
  cases request with
  | step => exact perform_step_amend (hstep rfl)
  | tick =>
    obtain rfl : timers = id := htick rfl
    rfl
  | keyDown code =>
    obtain rfl : keypad = id := hkeys code (.inl rfl)
    have hkeypad : (m.amend ⟨timers, id, stack, random, config⟩).keypad = m.keypad := rfl
    rw [perform_keyDown, perform_keyDown, hkeypad]
    cases m.keypad.press code <;> rfl
  | keyUp code =>
    obtain rfl : keypad = id := hkeys code (.inr rfl)
    have hkeypad : (m.amend ⟨timers, id, stack, random, config⟩).keypad = m.keypad := rfl
    rw [perform_keyUp, perform_keyUp, hkeypad]
    cases m.keypad.release code <;> rfl
  | resolveKey code =>
    have hstate : (m.amend ⟨timers, keypad, stack, random, config⟩).state = m.state := rfl
    rw [perform_resolveKey, perform_resolveKey, hstate]
    cases Key.ofCode code with
    | error fault => rfl
    | ok key => cases m.state <;> rfl
  | takeRedraw => rfl

/-! ## What an instruction leaves alone -/

/-- What an instruction would hand on amended, it leaves as it was. -/
theorem amend_eq_self_of_execute (hself : m.amend a = m) (hspares : a.Spares m i)
    (h : m.execute i = .ok m') : m'.amend a = m' := by
  have hexecute := execute_amend hspares
  rw [hself, h] at hexecute
  exact (Except.ok.inj hexecute).symm

theorem timers_execute (hunused : i.usesTimers = false) (h : m.execute i = .ok m') :
    m'.timers = m.timers := by
  have hspares : Amendment.Spares { timers := fun _ => m.timers } m i :=
    ⟨fun hused => absurd hused (by simp [hunused]), fun _ => rfl, fun _ => rfl, fun _ => rfl,
      fun _ _ _ => rfl, fun _ _ => rfl⟩
  exact (congrArg Machine.timers (amend_eq_self_of_execute rfl hspares h)).symm

/-- Not even a skip that looks at a key changes the keypad. -/
theorem keypad_execute (h : m.execute i = .ok m') : m'.keypad = m.keypad := by
  cases hused : i.usesKeypad with
  | true =>
    cases i with
    | skipIf condition =>
      cases h
      rfl
    | _ => cases hused
  | false =>
    have hspares : Amendment.Spares { keypad := fun _ => m.keypad } m i :=
      ⟨fun _ => rfl, fun htrue => absurd htrue (by simp [hused]), fun _ => rfl, fun _ => rfl,
        fun _ _ _ => rfl, fun _ _ => rfl⟩
    exact (congrArg Machine.keypad (amend_eq_self_of_execute rfl hspares h)).symm

theorem config_execute (h : m.execute i = .ok m') : m'.config = m.config := by
  have hspares : Amendment.Spares { config := fun _ => m.config } m i :=
    ⟨fun _ => rfl, fun _ => rfl, fun _ => rfl, fun _ => rfl, fun _ _ _ => rfl, fun _ _ => rfl⟩
  exact (congrArg Machine.config (amend_eq_self_of_execute rfl hspares h)).symm

end Machine

end Chip8
