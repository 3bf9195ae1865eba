import Chip8.Fault

/-!
# Memory

The 4096 bytes of RAM and their layout:

* `0x000` to `0x04F`: the font;
* `0x1D0` to `0x1FF`: the call stack;
* `0x200` to `0xEFF`: the program;
* `0xF00` to `0xFFF`: the display.

`Memory.byte` is the view through which memory is described; it is zero outside RAM.  A range is
accessible when it ends inside RAM, and access never wraps around.  Words are stored high byte
first.
-/

namespace Chip8

structure Memory where
  bytes : Vector UInt8 4096
deriving DecidableEq

namespace Memory

abbrev size : Nat := 4096
abbrev stackBase : Nat := 0x1D0
abbrev stackEnd : Nat := 0x200
abbrev programBase : Nat := 0x200
abbrev displayBase : Nat := 0xF00
abbrev displaySize : Nat := size - displayBase

/-- The longest image that stays clear of the display. -/
abbrev maxProgram : Nat := displayBase - programBase

def byte (m : Memory) (a : Nat) : UInt8 :=
  m.bytes[a]?.getD 0

def setByte (m : Memory) (a : Nat) (b : UInt8) : Memory :=
  ⟨m.bytes.setIfInBounds a b⟩

/-- Stores a run of bytes from `a` on; those past the end of RAM are dropped. -/
def splice (m : Memory) (a : Nat) : List UInt8 → Memory
  | [] => m
  | b :: bs => (m.setByte a b).splice (a + 1) bs

def slice (m : Memory) (a len : Nat) : List UInt8 :=
  (List.range len).map fun k => m.byte (a + k)

def checkRange (addr : UInt16) (len : Nat) : Except Fault Unit :=
  if addr.toNat + len ≤ size then .ok () else .error (.addressOutOfRange addr len)

def read (m : Memory) (addr : UInt16) (len : Nat) : Except Fault (List UInt8) :=
  (checkRange addr len).map fun _ => m.slice addr.toNat len

def write (m : Memory) (addr : UInt16) (data : List UInt8) : Except Fault Memory :=
  (checkRange addr data.length).map fun _ => m.splice addr.toNat data

def fill (m : Memory) (addr : UInt16) (len : Nat) (b : UInt8) : Except Fault Memory :=
  (checkRange addr len).map fun _ => m.splice addr.toNat (List.replicate len b)

def wordAt (m : Memory) (a : Nat) : UInt16 :=
  (m.byte a).toUInt16 * 256 + (m.byte (a + 1)).toUInt16

def readWord (m : Memory) (addr : UInt16) : Except Fault UInt16 :=
  (checkRange addr 2).map fun _ => m.wordAt addr.toNat

def wordBytes (w : UInt16) : List UInt8 :=
  [(w >>> 8).toUInt8, w.toUInt8]

def writeWord (m : Memory) (addr w : UInt16) : Except Fault Memory :=
  m.write addr (wordBytes w)

/-- Puts a program image where programs start. -/
def load (m : Memory) (program : List UInt8) : Except Fault Memory :=
  if program.isEmpty then .error .emptyProgram
  else if maxProgram < program.length then .error (.programTooLarge program.length maxProgram)
  else .ok (m.splice programBase program)

def zero : Memory :=
  ⟨Vector.replicate 4096 0⟩

theorem ext_byte {m m' : Memory} (h : ∀ a < size, m.byte a = m'.byte a) : m = m' := by
  cases m with | mk v => cases m' with | mk v' =>
  congr 1
  apply Vector.ext
  intro a ha
  simpa [byte, ha] using h a ha

theorem byte_of_size_le (m : Memory) {a : Nat} (h : size ≤ a) : m.byte a = 0 := by
  simp only [size] at h
  simp [byte, h]

@[simp]
theorem byte_zero (a : Nat) : zero.byte a = 0 := by
  by_cases h : a < 4096
  · simp [byte, zero, h]
  · exact byte_of_size_le _ (Nat.le_of_not_lt h)

theorem byte_setByte (m : Memory) (a i : Nat) (b : UInt8) :
    (m.setByte a b).byte i = if a = i ∧ i < size then b else m.byte i := by
  by_cases hi : i < 4096
  · by_cases ha : a = i <;> simp [byte, setByte, ha, hi]
  · rw [byte_of_size_le _ (Nat.le_of_not_lt hi), byte_of_size_le _ (Nat.le_of_not_lt hi)]
    simp [hi]

theorem byte_splice (m : Memory) (a i : Nat) (bs : List UInt8) :
    (m.splice a bs).byte i =
      if a ≤ i ∧ i < size then (bs[i - a]?).getD (m.byte i) else m.byte i := by
  induction bs generalizing m a with
  | nil => simp [splice]
  | cons b bs ih =>
    rw [splice, ih, byte_setByte]
    by_cases hi : i < size
    · by_cases hlt : a + 1 ≤ i
      · have hne : a ≠ i := by omega
        have hle : a ≤ i := by omega
        have hsub : i - a = (i - (a + 1)) + 1 := by omega
        simp [hi, hlt, hne, hle, hsub]
      · by_cases heq : a = i
        · have hlt : ¬ i + 1 ≤ i := by omega
          simp [hi, heq, hlt]
        · have hle : ¬ a ≤ i := by omega
          simp [hlt, heq, hle]
    · simp [hi]

theorem byte_splice_of_lt (m : Memory) {a i : Nat} (bs : List UInt8) (h : i < a) :
    (m.splice a bs).byte i = m.byte i := by
  rw [byte_splice, if_neg (by omega)]

theorem byte_splice_of_le (m : Memory) {a i : Nat} (bs : List UInt8) (h : a + bs.length ≤ i) :
    (m.splice a bs).byte i = m.byte i := by
  rw [byte_splice]
  have : bs[i - a]? = none := by
    rw [List.getElem?_eq_none_iff]
    omega
  simp [this]

@[simp]
theorem length_slice (m : Memory) (a len : Nat) : (m.slice a len).length = len := by
  simp [slice]

theorem getElem?_slice (m : Memory) (a len k : Nat) :
    (m.slice a len)[k]? = if k < len then some (m.byte (a + k)) else none := by
  by_cases h : k < len <;> simp [slice, h]

theorem checkRange_eq_ok_iff {addr : UInt16} {len : Nat} :
    checkRange addr len = .ok () ↔ addr.toNat + len ≤ size := by
  unfold checkRange
  split <;> simp_all

theorem checkRange_eq_error_iff {addr : UInt16} {len : Nat} {fault : Fault} :
    checkRange addr len = .error fault ↔
      size < addr.toNat + len ∧ fault = .addressOutOfRange addr len := by
  unfold checkRange
  split <;> grind

theorem read_eq_ok_iff {m : Memory} {addr : UInt16} {len : Nat} {data : List UInt8} :
    m.read addr len = .ok data ↔ addr.toNat + len ≤ size ∧ m.slice addr.toNat len = data := by
  unfold read checkRange
  split
  · next h => simp [Except.map, h]
  · next h => simp [Except.map, h]

theorem write_eq_ok_iff {m m' : Memory} {addr : UInt16} {data : List UInt8} :
    m.write addr data = .ok m' ↔
      addr.toNat + data.length ≤ size ∧ m.splice addr.toNat data = m' := by
  unfold write checkRange
  split
  · next h => simp [Except.map, h]
  · next h => simp [Except.map, h]

end Memory

end Chip8
