import Chip8.Proofs.Machine.Reachable

/-!
# Accesses

Programs are loaded, bytes and words are stored and read back, and the call stack pushes and pops,
all of it in the same 4096 bytes.  Taken together this is a plain array: over any history a byte is
the one last written at its address, through whatever access it was written, and the font or zero
before that.  An access is refused by its range, by the size of the program or by the depth of the
stack, before anything is written.
-/

namespace Chip8

/-- One use of memory, by address or through the call stack. -/
inductive Access where
  | load (program : List UInt8)
  | write (addr : UInt16) (data : List UInt8)
  | writeWord (addr w : UInt16)
  | fill (addr : UInt16) (len : Nat) (b : UInt8)
  | read (addr : UInt16) (len : Nat)
  | readWord (addr : UInt16)
  | push (target pc : UInt16)
  | pop (pc : UInt16)

/-- What an access gives that is not refused. -/
inductive Yield where
  | nothing
  | bytes (data : List UInt8)
  | word (w : UInt16)

/-- The range that an access by address asks for. -/
def Access.range : Access → Option (UInt16 × Nat)
  | .write addr data => some (addr, data.length)
  | .writeWord addr _ | .readWord addr => some (addr, 2)
  | .fill addr len _ | .read addr len => some (addr, len)
  | .load _ | .push .. | .pop _ => none

/-! ## Accesses in place -/

namespace InPlace

def load (program : List UInt8) : InPlace Unit := do
  if program.isEmpty then throw .emptyProgram
  if Memory.maxProgram < program.length then
    throw (.programTooLarge program.length Memory.maxProgram)
  write (UInt16.ofNat Memory.programBase) program

def fill (addr : UInt16) (len : Nat) (b : UInt8) : InPlace Unit :=
  write addr (List.replicate len b)

def access : Access → InPlace Yield
  | .load program => do
    load program
    return .nothing
  | .write addr data => do
    write addr data
    return .nothing
  | .writeWord addr w => do
    write addr (Memory.wordBytes w)
    return .nothing
  | .fill addr len b => do
    fill addr len b
    return .nothing
  | .read addr len => return .bytes (← read addr len)
  | .readWord addr => return .word (← readWord addr)
  | .push target pc => do
    push target pc
    return .nothing
  | .pop pc => return .word (← pop pc)

/-- A program that passes the check of its size is in range. -/
theorem run_load (program : List UInt8) (m : Machine) :
    (load program).run m =
      settle m ((m.memory.load program).map fun memory => ((), { m with memory })) := by
  rw [load, Memory.load]
  by_cases hempty : program.isEmpty
  · simp only [hempty, if_true, run_bind, run_throw]
    rfl
  · by_cases hlarge : Memory.maxProgram < program.length
    · simp only [hempty, hlarge, Bool.false_eq_true, if_true, if_false, run_bind, run_throw]
      rfl
    · have hfits : Memory.programBase + program.length ≤ Memory.size := by
        change ¬ 0xF00 - 0x200 < program.length at hlarge
        change 0x200 + program.length ≤ 0x1000
        omega
      have hwrite : m.memory.write (UInt16.ofNat Memory.programBase) program =
          .ok (m.memory.splice Memory.programBase program) :=
        Memory.write_eq_ok_iff.mpr ⟨hfits, rfl⟩
      simp only [hempty, hlarge, Bool.false_eq_true, if_false, run_write, hwrite]

theorem run_fill (addr : UInt16) (len : Nat) (b : UInt8) (m : Machine) :
    (fill addr len b).run m =
      settle m ((m.memory.fill addr len b).map fun memory => ((), { m with memory })) := by
  rw [fill, run_write, Memory.write, Memory.fill, List.length_replicate]

end InPlace

namespace Machine

/-- The answer to an access, and the machine after it. -/
def access (m : Machine) (a : Access) : Except Fault Yield × Machine :=
  match (InPlace.access a).run m with
  | .ok given m' => (.ok given, m')
  | .error fault m' => (.error fault, m')

/-- What an access gives and leaves, at once. -/
def accessed (m : Machine) : Access → Except Fault (Yield × Machine)
  | .load program => (m.memory.load program).map fun memory => (.nothing, { m with memory })
  | .write addr data => (m.memory.write addr data).map fun memory => (.nothing, { m with memory })
  | .writeWord addr w => (m.memory.writeWord addr w).map fun memory => (.nothing, { m with memory })
  | .fill addr len b => (m.memory.fill addr len b).map fun memory => (.nothing, { m with memory })
  | .read addr len => (m.memory.read addr len).map fun data => (.bytes data, m)
  | .readWord addr => (m.memory.readWord addr).map fun w => (.word w, m)
  | .push target pc => (m.stack.push m.memory target pc).map fun (stack, memory) =>
      (.nothing, { m with stack, memory })
  | .pop pc => (m.stack.pop m.memory pc).map fun (target, stack) =>
      (.word target, { m with stack })

/-- In place or at once, an access comes to the same. -/
theorem run_access (m : Machine) (a : Access) :
    (InPlace.access a).run m = InPlace.settle m (m.accessed a) := by
  cases a with
  | load program =>
    rw [InPlace.access, InPlace.run_bind, InPlace.run_load, accessed]
    cases m.memory.load program <;> rfl
  | write addr data =>
    rw [InPlace.access, InPlace.run_bind, InPlace.run_write, accessed]
    cases m.memory.write addr data <;> rfl
  | writeWord addr w =>
    rw [InPlace.access, InPlace.run_bind, InPlace.run_write, accessed, Memory.writeWord]
    cases m.memory.write addr (Memory.wordBytes w) <;> rfl
  | fill addr len b =>
    rw [InPlace.access, InPlace.run_bind, InPlace.run_fill, accessed]
    cases m.memory.fill addr len b <;> rfl
  | read addr len =>
    rw [InPlace.access, InPlace.run_bind, InPlace.run_read, accessed]
    cases m.memory.read addr len <;> rfl
  | readWord addr =>
    rw [InPlace.access, InPlace.run_bind, InPlace.run_readWord, accessed]
    cases m.memory.readWord addr <;> rfl
  | push target pc =>
    rw [InPlace.access, InPlace.run_bind, InPlace.run_push, accessed]
    cases m.stack.push m.memory target pc <;> rfl
  | pop pc =>
    rw [InPlace.access, InPlace.run_bind, InPlace.run_pop, accessed]
    cases m.stack.pop m.memory pc <;> rfl

theorem access_of_ok {m m' : Machine} {a : Access} {given : Yield}
    (h : m.accessed a = .ok (given, m')) : m.access a = (.ok given, m') := by
  rw [access, run_access, h]
  rfl

theorem access_of_error {m : Machine} {a : Access} {fault : Fault}
    (h : m.accessed a = .error fault) : m.access a = (.error fault, m) := by
  rw [access, run_access, h]
  rfl

/-- A refusal leaves everything as it was. -/
theorem access_of_refused {m : Machine} {a : Access} {fault : Fault}
    (h : (m.access a).1 = .error fault) : (m.access a).2 = m := by
  cases haccessed : m.accessed a with
  | error reason => rw [access_of_error haccessed]
  | ok given =>
    rw [access_of_ok haccessed] at h
    cases h

def accessAll (m : Machine) (history : List Access) : Machine :=
  history.foldl (fun m a => (m.access a).2) m

def answers (m : Machine) : List Access → List (Except Fault Yield)
  | [] => []
  | a :: history => (m.access a).1 :: (m.access a).2.answers history

end Machine

/-! ## The plain array -/

/-- An array of bytes told by what was written to it, newest first, and how many return addresses
are kept in it. -/
structure Ledger where
  written : List (Nat × UInt8)
  depth : Nat

namespace Ledger

def initial : Ledger :=
  ⟨[], 0⟩

/-- The byte last written at an address, or the one that was there from the beginning. -/
def byte (l : Ledger) (a : Nat) : UInt8 :=
  (l.written.lookup a).getD ((Memory.font[a]?).getD 0)

def bytes (l : Ledger) (a len : Nat) : List UInt8 :=
  (List.range len).map fun k => l.byte (a + k)

/-- Two bytes as a number, high byte first. -/
def word (l : Ledger) (a : Nat) : UInt16 :=
  UInt16.ofNat (256 * (l.byte a).toNat + (l.byte (a + 1)).toNat)

def digits (w : UInt16) : List UInt8 :=
  [UInt8.ofNat (w.toNat / 256), UInt8.ofNat (w.toNat % 256)]

/-- Bytes with the addresses that they are written at. -/
def entries (a : Nat) : List UInt8 → List (Nat × UInt8)
  | [] => []
  | b :: bs => (a, b) :: entries (a + 1) bs

def store (l : Ledger) (a : Nat) (data : List UInt8) : Ledger :=
  { l with written := entries a data ++ l.written }

def outOfRange (addr : UInt16) (len : Nat) : Option Fault :=
  if addr.toNat + len ≤ 4096 then none else some (.addressOutOfRange addr len)

def refusal (l : Ledger) : Access → Option Fault
  | .load program =>
    if program = [] then some .emptyProgram
    else if 3328 < program.length then some (.programTooLarge program.length 3328)
    else none
  | .write addr data => outOfRange addr data.length
  | .writeWord addr _ | .readWord addr => outOfRange addr 2
  | .fill addr len _ | .read addr len => outOfRange addr len
  | .push _ pc => if l.depth = 24 then some (.stackOverflow pc) else none
  | .pop pc => if l.depth = 0 then some (.stackUnderflow pc) else none

def given (l : Ledger) : Access → Yield
  | .load _ | .write .. | .writeWord .. | .fill .. | .push .. => .nothing
  | .read addr len => .bytes (l.bytes addr.toNat len)
  | .readWord addr => .word (l.word addr.toNat)
  | .pop _ => .word (l.word (0x200 - 2 * l.depth))

def after (l : Ledger) : Access → Ledger
  | .load program => l.store 0x200 program
  | .write addr data => l.store addr.toNat data
  | .writeWord addr w => l.store addr.toNat (digits w)
  | .fill addr len b => l.store addr.toNat (List.replicate len b)
  | .read .. | .readWord _ => l
  | .push target _ => { l.store (0x1FE - 2 * l.depth) (digits target) with depth := l.depth + 1 }
  | .pop _ => { l with depth := l.depth - 1 }

def access (l : Ledger) (a : Access) : Except Fault Yield × Ledger :=
  match l.refusal a with
  | some fault => (.error fault, l)
  | none => (.ok (l.given a), l.after a)

def accessAll (l : Ledger) (history : List Access) : Ledger :=
  history.foldl (fun l a => (l.access a).2) l

def answers (l : Ledger) : List Access → List (Except Fault Yield)
  | [] => []
  | a :: history => (l.access a).1 :: (l.access a).2.answers history

/-- Data has one entry for each of its addresses, so the entry that is found first is the only
one. -/
theorem lookup_entries (a i : Nat) (data : List UInt8) :
    (entries a data).lookup i = if a ≤ i then data[i - a]? else none := by
  induction data generalizing a with
  | nil => simp [entries]
  | cons b bs ih =>
    rw [entries, List.lookup_cons, ih]
    by_cases heq : i = a
    · simp [heq]
    · have hne : (i == a) = false := beq_eq_false_iff_ne.mpr heq
      by_cases hle : a ≤ i
      · have hlt : a + 1 ≤ i := by omega
        have hsub : i - a = i - (a + 1) + 1 := by omega
        simp [hne, hle, hlt, hsub]
      · have hlt : ¬ a + 1 ≤ i := by omega
        simp [hne, hle, hlt]

theorem byte_store (l : Ledger) (a i : Nat) (data : List UInt8) :
    (l.store a data).byte i = if a ≤ i then (data[i - a]?).getD (l.byte i) else l.byte i := by
  rw [byte, store, List.lookup_append, lookup_entries]
  by_cases hle : a ≤ i
  · rw [if_pos hle, if_pos hle]
    cases data[i - a]? <;> rfl
  · rw [if_neg hle, if_neg hle]
    rfl

theorem digits_eq_wordBytes (w : UInt16) : digits w = Memory.wordBytes w := by
  have hw : w.toNat < 65536 := w.toNat_lt
  have hhigh : UInt8.ofNat (w.toNat / 256) = (w >>> 8).toUInt8 := by
    apply UInt8.toNat_inj.mp
    rw [UInt8.toNat_ofNat', Memory.toNat_highByte]
    omega
  have hlow : UInt8.ofNat (w.toNat % 256) = w.toUInt8 := by
    apply UInt8.toNat_inj.mp
    rw [UInt8.toNat_ofNat', Memory.toNat_lowByte]
    omega
  rw [digits, Memory.wordBytes, hhigh, hlow]

theorem outOfRange_eq_none_iff {addr : UInt16} {len : Nat} :
    outOfRange addr len = none ↔ addr.toNat + len ≤ 4096 := by
  simp [outOfRange]

theorem checkRange_of_outOfRange {addr : UInt16} {len : Nat} {fault : Fault}
    (h : outOfRange addr len = some fault) : Memory.checkRange addr len = .error fault := by
  rw [Memory.checkRange_eq_error_iff]
  unfold outOfRange at h
  split at h
  · cases h
  · next hbeyond => exact ⟨Nat.lt_of_not_le hbeyond, (Option.some.inj h).symm⟩

theorem checkRange_of_inRange {addr : UInt16} {len : Nat}
    (h : outOfRange addr len = none) : Memory.checkRange addr len = .ok () :=
  Memory.checkRange_eq_ok_iff.mpr (outOfRange_eq_none_iff.mp h)

theorem refusal_of_range (l : Ledger) {a : Access} {addr : UInt16} {len : Nat}
    (h : a.range = some (addr, len)) : l.refusal a = outOfRange addr len := by
  cases a <;> cases h <;> rfl

end Ledger

namespace Machine

variable {m : Machine} {l : Ledger} {a : Access}

/-- The machine's memory and call stack are as the ledger tells. -/
structure Represents (m : Machine) (l : Ledger) : Prop where
  byte : ∀ a < Memory.size, m.memory.byte a = l.byte a
  sound : m.stack.Sound
  depth : m.stack.depth = l.depth

theorem Represents.slice_eq (h : m.Represents l) {a len : Nat} (hfits : a + len ≤ Memory.size) :
    m.memory.slice a len = l.bytes a len := by
  refine List.map_congr_left fun k hk => h.byte _ ?_
  exact Nat.lt_of_lt_of_le (Nat.add_lt_add_left (List.mem_range.mp hk) a) hfits

theorem Represents.wordAt_eq (h : m.Represents l) {a : Nat} (hfits : a + 2 ≤ Memory.size) :
    m.memory.wordAt a = l.word a := by
  apply UInt16.toNat_inj.mp
  have hhigh : (l.byte a).toNat < 256 := UInt8.toNat_lt _
  have hlow : (l.byte (a + 1)).toNat < 256 := UInt8.toNat_lt _
  rw [Memory.toNat_wordAt, h.byte a (by omega), h.byte (a + 1) (by omega), Ledger.word,
    UInt16.toNat_ofNat']
  omega

/-- What is spliced into memory is stored in the ledger. -/
theorem Represents.byte_splice (h : m.Represents l) (a : Nat) (data : List UInt8) {i : Nat}
    (hi : i < Memory.size) : (m.memory.splice a data).byte i = (l.store a data).byte i := by
  rw [Memory.byte_splice, Ledger.byte_store, h.byte i hi]
  simp only [hi, and_true]

theorem Represents.spliced (h : m.Represents l) (a : Nat) (data : List UInt8) :
    Represents { m with memory := m.memory.splice a data } (l.store a data) where
  byte _ hi := h.byte_splice a data hi
  sound := h.sound
  depth := h.depth

theorem Represents.pointer_eq (h : m.Represents l) :
    m.stack.pointer.toNat = 0x1FE - 2 * l.depth := by
  rw [h.sound.pointer_eq, h.depth]

theorem Represents.pushed (h : m.Represents l) (hroom : l.depth ≠ 24) (target pc : UInt16) :
    Represents
      { m with
        stack := ⟨m.stack.pointer - 2⟩
        memory := m.memory.splice m.stack.pointer.toNat (Memory.wordBytes target) }
      (l.after (.push target pc)) := by
  have hlt : m.stack.depth < CallStack.capacity :=
    Nat.lt_of_le_of_ne h.sound.depth_le (h.depth ▸ hroom)
  obtain ⟨hsound, hdepth⟩ := h.sound.pushed hlt
  refine ⟨fun i hi => ?_, hsound, hdepth.trans (congrArg (· + 1) h.depth)⟩
  rw [Ledger.after, ← h.pointer_eq, Ledger.digits_eq_wordBytes]
  exact h.byte_splice m.stack.pointer.toNat (Memory.wordBytes target) hi

theorem Represents.popped (h : m.Represents l) (hsome : l.depth ≠ 0) (pc : UInt16) :
    Represents { m with stack := ⟨m.stack.pointer + 2⟩ } (l.after (.pop pc)) := by
  have hpos : 0 < m.stack.depth := h.depth ▸ Nat.pos_of_ne_zero hsome
  obtain ⟨hsound, hdepth⟩ := h.sound.popped hpos
  exact ⟨h.byte, hsound, Nat.eq_sub_of_add_eq (hdepth.trans h.depth)⟩

/-- The newest return address lies in the slot above the pointer. -/
theorem Represents.newest_eq (h : m.Represents l) :
    m.memory.wordAt (m.stack.pointer.toNat + 2) = l.word (0x200 - 2 * l.depth) := by
  have hle : l.depth ≤ 24 := h.depth ▸ h.sound.depth_le
  have hslot : m.stack.pointer.toNat + 2 = 0x200 - 2 * l.depth := by
    rw [h.pointer_eq]
    omega
  have hfits : 0x200 - 2 * l.depth + 2 ≤ 0x1000 := by omega
  rw [hslot, h.wordAt_eq hfits]

/-- What the ledger refuses, the machine refuses for the same reason. -/
theorem Represents.accessed_of_refusal (h : m.Represents l) {fault : Fault}
    (hrefusal : l.refusal a = some fault) : m.accessed a = .error fault := by
  cases a with
  | load program =>
    rw [Ledger.refusal] at hrefusal
    rw [accessed, Memory.load_eq]
    split at hrefusal
    · next hempty =>
      rw [if_pos hempty, ← Option.some.inj hrefusal]
      rfl
    · next hsome =>
      obtain ⟨hlarge, hfault⟩ := Option.ite_none_right_eq_some.mp hrefusal
      rw [if_neg hsome, if_pos hlarge, ← Option.some.inj hfault]
      rfl
  | write addr data =>
    rw [accessed, Memory.write, Ledger.checkRange_of_outOfRange hrefusal]
    rfl
  | writeWord addr w =>
    have hcheck : Memory.checkRange addr (Memory.wordBytes w).length = .error fault :=
      Ledger.checkRange_of_outOfRange hrefusal
    rw [accessed, Memory.writeWord, Memory.write, hcheck]
    rfl
  | fill addr len b =>
    rw [accessed, Memory.fill, Ledger.checkRange_of_outOfRange hrefusal]
    rfl
  | read addr len =>
    rw [accessed, Memory.read, Ledger.checkRange_of_outOfRange hrefusal]
    rfl
  | readWord addr =>
    rw [accessed, Memory.readWord, Ledger.checkRange_of_outOfRange hrefusal]
    rfl
  | push target pc =>
    obtain ⟨hfull, hfault⟩ := Option.ite_none_right_eq_some.mp hrefusal
    have hcapacity : l.depth = CallStack.capacity := hfull
    rw [accessed, h.sound.push_eq, h.depth, if_pos hcapacity, ← Option.some.inj hfault]
    rfl
  | pop pc =>
    obtain ⟨hempty, hfault⟩ := Option.ite_none_right_eq_some.mp hrefusal
    rw [accessed, h.sound.pop_eq, h.depth, if_pos hempty, ← Option.some.inj hfault]
    rfl

/-- What the ledger admits, the machine answers alike, and both go on alike. -/
theorem Represents.accessed_of_admitted (h : m.Represents l) (hadmitted : l.refusal a = none) :
    ∃ m', m.accessed a = .ok (l.given a, m') ∧ m'.Represents (l.after a) := by
  cases a with
  | load program =>
    refine ⟨_, ?_, h.spliced 0x200 program⟩
    rw [Ledger.refusal] at hadmitted
    rw [accessed, Memory.load_eq]
    split at hadmitted
    · cases hadmitted
    · next hsome =>
      have hfits : ¬ 3328 < program.length := by simpa using hadmitted
      rw [if_neg hsome, if_neg hfits]
      rfl
  | write addr data =>
    refine ⟨_, ?_, h.spliced addr.toNat data⟩
    rw [accessed, Memory.write, Ledger.checkRange_of_inRange hadmitted]
    rfl
  | writeWord addr w =>
    have hcheck : Memory.checkRange addr (Memory.wordBytes w).length = .ok () :=
      Ledger.checkRange_of_inRange hadmitted
    rw [Ledger.after, Ledger.digits_eq_wordBytes]
    refine ⟨_, ?_, h.spliced addr.toNat (Memory.wordBytes w)⟩
    rw [accessed, Memory.writeWord, Memory.write, hcheck]
    rfl
  | fill addr len b =>
    refine ⟨_, ?_, h.spliced addr.toNat (List.replicate len b)⟩
    rw [accessed, Memory.fill, Ledger.checkRange_of_inRange hadmitted]
    rfl
  | read addr len =>
    have hfits : addr.toNat + len ≤ 4096 := Ledger.outOfRange_eq_none_iff.mp hadmitted
    refine ⟨m, ?_, h⟩
    rw [accessed, Memory.read, Ledger.checkRange_of_inRange hadmitted, Ledger.given,
      ← h.slice_eq hfits]
    rfl
  | readWord addr =>
    have hfits : addr.toNat + 2 ≤ 4096 := Ledger.outOfRange_eq_none_iff.mp hadmitted
    refine ⟨m, ?_, h⟩
    rw [accessed, Memory.readWord, Ledger.checkRange_of_inRange hadmitted, Ledger.given,
      ← h.wordAt_eq hfits]
    rfl
  | push target pc =>
    have hroom : l.depth ≠ 24 := by simpa [Ledger.refusal] using hadmitted
    have hcapacity : l.depth ≠ CallStack.capacity := hroom
    refine ⟨_, ?_, h.pushed hroom target pc⟩
    rw [accessed, h.sound.push_eq, h.depth, if_neg hcapacity]
    rfl
  | pop pc =>
    have hsome : l.depth ≠ 0 := by simpa [Ledger.refusal] using hadmitted
    refine ⟨_, ?_, h.popped hsome pc⟩
    rw [accessed, h.sound.pop_eq, h.depth, if_neg hsome, h.newest_eq]
    rfl

/-- Machine and ledger give the same answer and stay in step. -/
theorem Represents.access (h : m.Represents l) (a : Access) :
    (m.access a).1 = (l.access a).1 ∧ (m.access a).2.Represents (l.access a).2 := by
  rw [Ledger.access]
  cases hrefusal : l.refusal a with
  | some fault =>
    rw [access_of_error (h.accessed_of_refusal hrefusal)]
    exact ⟨rfl, h⟩
  | none =>
    obtain ⟨m', haccessed, h'⟩ := h.accessed_of_admitted hrefusal
    rw [access_of_ok haccessed]
    exact ⟨rfl, h'⟩

theorem Represents.accessAll (h : m.Represents l) (history : List Access) :
    (m.accessAll history).Represents (l.accessAll history) := by
  induction history generalizing m l with
  | nil => exact h
  | cons a history ih => exact ih (h.access a).2

theorem Represents.answers_eq (h : m.Represents l) (history : List Access) :
    m.answers history = l.answers history := by
  induction history generalizing m l with
  | nil => rfl
  | cons a history ih =>
    obtain ⟨hanswer, hafter⟩ := h.access a
    rw [answers, Ledger.answers, hanswer, ih hafter]

theorem represents_initial (hmemory : m.memory = .blank) (hstack : m.stack = .empty) :
    m.Represents .initial where
  byte i _ := by
    rw [hmemory, Memory.byte_blank]
    rfl
  sound := hstack ▸ CallStack.sound_empty
  depth := hstack ▸ CallStack.depth_empty

theorem Represents.access_eq_error_iff (h : m.Represents l) {fault : Fault} :
    (m.access a).1 = .error fault ↔ l.refusal a = some fault := by
  rw [(h.access a).1, Ledger.access]
  cases l.refusal a <;> simp

theorem Represents.access_eq_ok_iff (h : m.Represents l) {given : Yield} :
    (m.access a).1 = .ok given ↔ l.refusal a = none ∧ l.given a = given := by
  rw [(h.access a).1, Ledger.access]
  cases l.refusal a <;> simp

/-! ## Words -/

theorem access_writeWord {addr : UInt16} (hfits : addr.toNat + 2 ≤ Memory.size) (w : UInt16) :
    m.access (.writeWord addr w) =
      (.ok .nothing, { m with memory := m.memory.splice addr.toNat (Memory.wordBytes w) }) := by
  have hwrite : m.memory.writeWord addr w =
      .ok (m.memory.splice addr.toNat (Memory.wordBytes w)) :=
    Memory.write_eq_ok_iff.mpr ⟨hfits, rfl⟩
  apply access_of_ok
  rw [accessed, hwrite]
  rfl

theorem access_readWord {addr : UInt16} (hfits : addr.toNat + 2 ≤ Memory.size) :
    m.access (.readWord addr) = (.ok (.word (m.memory.wordAt addr.toNat)), m) := by
  apply access_of_ok
  rw [accessed, Memory.readWord, Memory.checkRange_eq_ok_iff.mpr hfits]
  rfl

theorem readWord_of_writeWord {addr : UInt16} (hfits : addr.toNat + 2 ≤ Memory.size) (w : UInt16) :
    ((m.access (.writeWord addr w)).2.access (.readWord addr)).1 = .ok (.word w) := by
  rw [access_writeWord hfits, access_readWord hfits]
  exact congrArg (fun v => Except.ok (Yield.word v)) (m.memory.wordAt_splice_wordBytes hfits w)

theorem writeWord_of_readWord {addr : UInt16} (hfits : addr.toNat + 2 ≤ Memory.size) {w : UInt16}
    (h : (m.access (.readWord addr)).1 = .ok (.word w)) :
    m.access (.writeWord addr w) = (.ok .nothing, m) := by
  rw [access_readWord hfits] at h
  cases h
  rw [access_writeWord hfits, Memory.splice_wordAt]

/-! ## The refinement -/

/-- Memory with its call stack is a plain array.  Over any history of accesses the answers are those
of the array, and so is every byte at the end.  What an access by address is refused for is its range
alone, and whatever is refused changes nothing.  A word is read as it was stored, and storing it
where it was read changes nothing. -/
theorem memory_refines_array {m₀ : Machine} (hmemory : m₀.memory = .blank)
    (hstack : m₀.stack = .empty) (history : List Access) :
    let m := m₀.accessAll history
    let l := Ledger.initial.accessAll history
    m₀.answers history = Ledger.initial.answers history ∧
      (∀ a < 4096, m.memory.byte a = l.byte a) ∧
      m.stack.pointer.toNat = 0x1FE - 2 * l.depth ∧ l.depth ≤ 24 ∧
      (∀ a fault, (m.access a).1 = .error fault ↔ l.refusal a = some fault) ∧
      (∀ a fault, (m.access a).1 = .error fault → (m.access a).2 = m) ∧
      (∀ a addr len, a.range = some (addr, len) →
        ((∃ given, (m.access a).1 = .ok given) ↔ addr.toNat + len ≤ 4096) ∧
          ∀ fault, (m.access a).1 = .error fault → fault = .addressOutOfRange addr len) ∧
      (∀ addr w, addr.toNat + 2 ≤ 4096 →
        ((m.access (.writeWord addr w)).2.access (.readWord addr)).1 = .ok (.word w)) ∧
      ∀ addr w, (m.access (.readWord addr)).1 = .ok (.word w) →
        m.access (.writeWord addr w) = (.ok .nothing, m) := by
  intro m l
  have hinitial : m₀.Represents .initial := represents_initial hmemory hstack
  have h : m.Represents l := hinitial.accessAll history
  refine ⟨hinitial.answers_eq history, h.byte, h.pointer_eq, h.depth ▸ h.sound.depth_le,
    fun a fault => h.access_eq_error_iff, fun a fault => access_of_refused,
    fun a addr len hrange => ⟨?_, fun fault hfault => ?_⟩,
    fun addr w hfits => readWord_of_writeWord hfits w, fun addr w hread => ?_⟩
  · rw [← Ledger.outOfRange_eq_none_iff, ← l.refusal_of_range hrange]
    simp [h.access_eq_ok_iff]
  · rw [h.access_eq_error_iff, l.refusal_of_range hrange] at hfault
    exact (Option.some.inj (Option.ite_none_left_eq_some.mp hfault).2).symm
  · have hadmitted := (h.access_eq_ok_iff.mp hread).1
    exact writeWord_of_readWord (Ledger.outOfRange_eq_none_iff.mp hadmitted) hread

/-- A return address is overwritten half way, and comes back so. -/
theorem return_address_overwritten :
    let m₀ := loaded [] .standard (.ofSeed 1)
    m₀.memory = .blank ∧ m₀.stack = .empty ∧
      m₀.answers
          [.push 0x0A0B 0x200, .fill 0x1FE 1 0xFF, .readWord 0x1FE, .pop 0x202, .pop 0x204,
            .read 0xFFF 2] =
        [.ok .nothing, .ok .nothing, .ok (.word 0xFF0B), .ok (.word 0xFF0B),
          .error (.stackUnderflow 0x204), .error (.addressOutOfRange 0xFFF 2)] := by
  intro m₀
  have hmemory : m₀.memory = .blank := rfl
  obtain ⟨hanswers, -⟩ := memory_refines_array hmemory rfl
    [.push 0x0A0B 0x200, .fill 0x1FE 1 0xFF, .readWord 0x1FE, .pop 0x202, .pop 0x204,
      .read 0xFFF 2]
  exact ⟨hmemory, rfl, hanswers⟩

end Machine

end Chip8
