import Chip8.Proofs.Journal.LogFile
import Chip8.Proofs.Memory.Ranges

/-!
# Construction

What a session starts from: the font, the program and nothing else.  An image that is read makes the
same session as the same image given at once, however the reads cut it up.  A read that fails comes
before any judgement of the size, since the size is not known until the image is whole.
-/

namespace Chip8

namespace Image

/-- Reads that give something are put together with what the reads after them give. -/
theorem ofReads_chunks {chunks : List (List UInt8)} (hsome : ∀ chunk ∈ chunks, chunk ≠ [])
    (later : List Read) :
    ofReads (chunks.map .bytes ++ later) = (ofReads later).map (chunks.flatten ++ ·) := by
  induction chunks with
  | nil => cases hlater : ofReads later <;> simp [hlater, Except.map]
  | cons chunk chunks ih =>
    obtain ⟨hchunk, hchunks⟩ := List.forall_mem_cons.mp hsome
    rw [List.map_cons, List.cons_append, ofReads_bytes _ hchunk, ih hchunks]
    cases ofReads later <;> simp [Except.map]

/-- Nothing more is read: the reads are over, or the next one is empty. -/
def Ends (later : List Read) : Prop :=
  later = [] ∨ ∃ rest, later = .bytes [] :: rest

theorem ofReads_of_ends {later : List Read} (h : Ends later) : ofReads later = .ok [] := by
  obtain rfl | ⟨rest, rfl⟩ := h <;> rfl

theorem ofReads_whole {chunks : List (List UInt8)} (hsome : ∀ chunk ∈ chunks, chunk ≠ [])
    {later : List Read} (hends : Ends later) :
    ofReads (chunks.map .bytes ++ later) = .ok chunks.flatten := by
  rw [ofReads_chunks hsome, ofReads_of_ends hends]
  exact congrArg Except.ok (List.append_nil _)

theorem ofReads_failed {chunks : List (List UInt8)} (hsome : ∀ chunk ∈ chunks, chunk ≠ [])
    (why : String) (later : List Read) :
    ofReads (chunks.map .bytes ++ .failed why :: later) = .error (.unreadable why) := by
  rw [ofReads_chunks hsome]
  rfl

end Image

namespace Machine

/-- The machine is as it is before its first step, with the program in place. -/
structure Fresh (m : Machine) (program : List UInt8) (config : Config) : Prop where
  state : m.state = .running
  font : m.memory.slice 0 80 = Memory.font
  image : m.memory.slice 0x200 program.length = program
  elsewhere : ∀ a, 80 ≤ a → (0x200 ≤ a → 0x200 + program.length ≤ a) → m.memory.byte a = 0
  stackRegion : ∀ a, 0x1D0 ≤ a → a < 0x200 → m.memory.byte a = 0
  display : ∀ a, 0xF00 ≤ a → m.memory.byte a = 0
  pc : m.pc = 0x200
  registers : ∀ x, m.get x = 0
  index : m.registers.index = 0
  timers : m.timers.delay = 0 ∧ m.timers.sound = 0
  depth : m.stack.depth = 0
  keypad : ∀ code, m.isHeld code = false
  redraw : m.redraw = true
  skipped : m.skipped = 0
  configured : m.config = config

/-- Outside the program, memory is as it was before the program was put there. -/
theorem byte_loaded {program : List UInt8} (config : Config) (chance : RandomSource) {a : Nat}
    (houtside : 0x200 ≤ a → 0x200 + program.length ≤ a) :
    (loaded program config chance).memory.byte a = (Memory.font[a]?).getD 0 := by
  rw [← Memory.byte_blank]
  exact Memory.byte_splice_of_outside _ fun hle => Nat.not_lt_of_le (houtside hle)

theorem byte_loaded_eq_zero {program : List UInt8} (config : Config) (chance : RandomSource)
    {a : Nat} (hfont : 80 ≤ a) (houtside : 0x200 ≤ a → 0x200 + program.length ≤ a) :
    (loaded program config chance).memory.byte a = 0 := by
  rw [byte_loaded config chance houtside, List.getElem?_eq_none hfont, Option.getD_none]

theorem slice_font_loaded (program : List UInt8) (config : Config) (chance : RandomSource) :
    (loaded program config chance).memory.slice 0 80 = Memory.font := by
  apply List.ext_getElem?
  intro k
  rw [Memory.getElem?_slice]
  by_cases hk : k < Memory.font.length
  · have hbelow : k < 0x200 := Nat.lt_trans hk (by decide)
    rw [if_pos (show k < 80 from hk), Nat.zero_add,
      byte_loaded config chance fun hle => absurd hbelow (Nat.not_lt_of_le hle),
      List.getElem?_eq_getElem hk, Option.getD_some]
  · rw [if_neg (show ¬ k < 80 from hk), List.getElem?_eq_none (Nat.le_of_not_lt hk)]

theorem fresh_loaded {program : List UInt8} (hfits : program.length ≤ 3328) (config : Config)
    (chance : RandomSource) : (loaded program config chance).Fresh program config where
  state := rfl
  font := slice_font_loaded program config chance
  image := Memory.slice_splice Memory.blank 0x200 program
    (Nat.le_trans (Nat.add_le_add_left hfits 0x200) (by decide))
  elsewhere _ := byte_loaded_eq_zero config chance
  stackRegion _ hlow hhigh := byte_loaded_eq_zero config chance (by omega) (by omega)
  display _ hlow := byte_loaded_eq_zero config chance (by omega) (by omega)
  pc := rfl
  registers x := by simp [get, loaded, Registers.get, Registers.initial]
  index := rfl
  timers := ⟨rfl, rfl⟩
  depth := CallStack.depth_empty
  keypad := Keypad.isHeld_released
  redraw := rfl
  skipped := rfl
  configured := rfl

theorem start_eq_error_iff {program : List UInt8} {config : Config} {chance : RandomSource}
    {fault : Fault} :
    start program config chance = .error fault ↔
      program = [] ∧ fault = .emptyProgram ∨
        3328 < program.length ∧ fault = .programTooLarge program.length 3328 := by
  rw [start, map_eq_error_iff, Memory.load_eq]
  by_cases hempty : program = []
  · simp [hempty, eq_comm]
  · by_cases hlarge : 3328 < program.length
    · simp [hempty, hlarge, eq_comm]
    · simp [hempty, hlarge]

end Machine

namespace Session

variable {program : List UInt8} {config : Config} {chance : RandomSource}

theorem start_eq_error_iff {fault : Fault} :
    start program config chance = .error fault ↔
      Machine.start program config chance = .error fault :=
  map_eq_error_iff

theorem ofReads_of_ok {reads : List Read} (h : Image.ofReads reads = .ok program)
    (config : Config) (chance : RandomSource) :
    ofReads reads config chance = start program config chance := by
  rw [ofReads, h]
  rfl

theorem ofReads_of_error {reads : List Read} {fault : Fault}
    (h : Image.ofReads reads = .error fault) (config : Config) (chance : RandomSource) :
    ofReads reads config chance = .error fault := by
  rw [ofReads, h]
  rfl

/-- Construction refuses an empty program and one that would reach into the display, and makes a
fresh machine of any other.  An image that is read in pieces makes the same of them, unless a read
fails: then nothing is made of it, however much was read before. -/
theorem construction_exact (program : List UInt8) (config : Config) (chance : RandomSource) :
    (start program config chance = .error .emptyProgram ↔ program = []) ∧
      (start program config chance = .error (.programTooLarge program.length 3328) ↔
        3328 < program.length) ∧
      (program ≠ [] → program.length ≤ 3328 →
        ∃ s, start program config chance = .ok s ∧ s.machine.Fresh program config) ∧
      (start program config chance).map machine = Machine.start program config chance ∧
      ∀ chunks : List (List UInt8), (∀ chunk ∈ chunks, chunk ≠ []) →
        (chunks.flatten = program → ∀ later, Image.Ends later →
          ofReads (chunks.map .bytes ++ later) config chance = start program config chance) ∧
        ∀ why later, ofReads (chunks.map .bytes ++ .failed why :: later) config chance =
          .error (.unreadable why) := by
  refine ⟨?_, ?_, fun hsome hfits => ?_, ?_, fun chunks hchunks => ⟨?_, fun why later => ?_⟩⟩
  · simp [start_eq_error_iff, Machine.start_eq_error_iff]
  · simp [start_eq_error_iff, Machine.start_eq_error_iff]
  · have hstart : Machine.start program config chance = .ok (.loaded program config chance) :=
      Machine.start_loaded hsome hfits
    refine ⟨⟨.loaded program config chance, #[.loaded program.length]⟩,
      start_eq_ok_iff.mpr ⟨hstart, rfl⟩, Machine.fresh_loaded hfits config chance⟩
  · rw [start]
    cases Machine.start program config chance <;> rfl
  · rintro rfl later hends
    exact ofReads_of_ok (Image.ofReads_whole hchunks hends) config chance
  · exact ofReads_of_error (Image.ofReads_failed hchunks why later) config chance

/-- A jump to itself, read a byte at a time: a failure after the last byte still undoes it. -/
theorem jump_read_bytewise :
    (∃ s, ofReads [.bytes [0x12], .bytes [0x00], .bytes []] .standard (.ofSeed 1) = .ok s ∧
      s.machine.Fresh [0x12, 0x00] .standard) ∧
    ofReads [.bytes [0x12], .bytes [0x00], .failed "gone"] .standard (.ofSeed 1) =
      .error (.unreadable "gone") := by
  obtain ⟨-, -, hfresh, -, hreads⟩ :=
    construction_exact [0x12, 0x00] .standard (.ofSeed 1)
  obtain ⟨hwhole, hfailed⟩ := hreads [[0x12], [0x00]] (by decide)
  obtain ⟨s, hstart, hs⟩ := hfresh (by decide) (by decide)
  exact ⟨⟨s, (hwhole rfl [.bytes []] (.inr ⟨[], rfl⟩)).trans hstart, hs⟩, hfailed "gone" []⟩

end Session

end Chip8
