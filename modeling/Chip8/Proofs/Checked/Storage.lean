import Chip8.Bitmap
import Chip8.CallStack
import Chip8.Keypad
import Chip8.Memory.Font
import Chip8.Proofs.CallStack
import Chip8.Proofs.Checked.Basic
import Chip8.Registers

/-!
# Checked storage

What memory, the call stack, the keypad and the register file do, with every index and every sum on
the way checked.  Memory is accessed through ranges of its bytes, and a range is taken only after the
bounds of the access have been compared with the end of memory.  None of it panics: what each gives
is what it gives without checks, on a sound stack where the stack pointer is moved.
-/

namespace Chip8.Checked

/-! ## Memory -/

/-- Where the bytes of an access start. -/
def checkRange (addr : UInt16) (len : Nat) : Checked Nat := do
  if Memory.size < (← add 64 addr.toNat len) then raise (.addressOutOfRange addr len)
  else return addr.toNat

def read (m : Memory) (addr : UInt16) (len : Nat) : Checked (List UInt8) := do
  let first ← checkRange addr len
  range m.bytes.toList first (← add 64 first len)

def readWord (m : Memory) (addr : UInt16) : Checked UInt16 := do
  let word ← read m addr 2
  return (← item word 0).toUInt16 * 256 + (← item word 1).toUInt16

def write (m : Memory) (addr : UInt16) (data : List UInt8) : Checked Memory := do
  let first ← checkRange addr data.length
  let target ← range m.bytes.toList first (← add 64 first data.length)
  return m.splice first (← copy target data)

def display (m : Memory) : Checked Bitmap :=
  return ⟨(← range m.bytes.toList Memory.displayBase Memory.size).toArray⟩

def glyphAddress (digit : UInt8) : Checked Nat := do
  add 16 0 (← mul 16 digit.toNat Memory.glyphRows)

section Memory

variable (m : Memory) (addr : UInt16)

theorem checkRange_eq {len : Nat} (h : len ≤ Memory.size) :
    checkRange addr len = ofExcept (Memory.checkRange addr len) >>= fun _ => .ok addr.toNat := by
  change len ≤ 4096 at h
  have haddr := addr.toNat_lt
  have hfits : addr.toNat + len < 2 ^ 64 := by omega
  unfold checkRange Memory.checkRange
  rw [add_eq_ok hfits, ok_bind]
  by_cases hrange : addr.toNat + len ≤ Memory.size
  · simp [hrange, Nat.not_lt.mpr hrange]
  · simp [hrange, Nat.lt_of_not_le hrange]

theorem range_bytes {first len : Nat} (h : first + len ≤ Memory.size) :
    range m.bytes.toList first (first + len) = .ok (m.slice first len) := by
  have hlen : m.bytes.toList.length = Memory.size := by simp
  rw [range_eq_ok ⟨Nat.le_add_right .., hlen ▸ h⟩]
  congr 1
  apply List.ext_getElem?
  intro k
  change first + len ≤ 4096 at h
  rw [Memory.getElem?_slice, List.getElem?_drop, List.getElem?_take]
  by_cases hk : k < len
  · have hin : first + k < 4096 := by omega
    simp [hk, Memory.byte, hin]
  · simp [hk]

theorem read_eq {len : Nat} (h : len ≤ Memory.size) :
    read m addr len = ofExcept (m.read addr len) := by
  rw [read, checkRange_eq addr h, Memory.read, ofExcept_map]
  cases hcheck : Memory.checkRange addr len with
  | error fault => rfl
  | ok _ =>
    have hrange : addr.toNat + len ≤ 4096 := Memory.checkRange_eq_ok_iff.mp hcheck
    simp [add_eq_ok (show addr.toNat + len < 2 ^ 64 by omega), range_bytes m hrange]

theorem readWord_eq : readWord m addr = ofExcept (m.readWord addr) := by
  rw [readWord, read_eq m addr (by decide), Memory.read, Memory.readWord, ofExcept_map, ofExcept_map]
  cases Memory.checkRange addr 2 with
  | error fault => rfl
  | ok _ => rfl

theorem write_eq {data : List UInt8} (h : data.length ≤ Memory.size) :
    write m addr data = ofExcept (m.write addr data) := by
  rw [write, checkRange_eq addr h, Memory.write, ofExcept_map]
  cases hcheck : Memory.checkRange addr data.length with
  | error fault => rfl
  | ok _ =>
    have hrange : addr.toNat + data.length ≤ 4096 := Memory.checkRange_eq_ok_iff.mp hcheck
    simp [add_eq_ok (show addr.toNat + data.length < 2 ^ 64 by omega), range_bytes m hrange,
      copy_eq_ok]

theorem display_eq : display m = .ok m.display := by
  have hend : Memory.displayBase + Memory.displaySize ≤ Memory.size := by decide
  have hrange : range m.bytes.toList Memory.displayBase Memory.size =
      .ok (m.slice Memory.displayBase Memory.displaySize) := range_bytes m hend
  have hbytes : (m.slice Memory.displayBase Memory.displaySize).toArray = m.display.bytes := by
    apply Array.ext_getElem?
    intro i
    rw [m.getElem?_display, List.getElem?_toArray, m.getElem?_slice]
  rw [display, hrange, ok_bind, hbytes, pure_eq_ok]

theorem glyphAddress_eq (digit : UInt8) : glyphAddress digit = .ok (Memory.glyphAddress digit) := by
  have hdigit := digit.toNat_lt
  rw [glyphAddress, mul_eq_ok (by simp only [Memory.glyphRows]; omega), ok_bind,
    add_eq_ok (by simp only [Memory.glyphRows]; omega), Memory.glyphAddress, Nat.zero_add,
    Nat.mul_comm]

end Memory

/-! ## The call stack -/

def depth (s : CallStack) : Checked Nat :=
  return (← sub CallStack.top s.pointer.toNat) / 2

def push (s : CallStack) (m : Memory) (target pc : UInt16) : Checked (CallStack × Memory) :=
  if s.pointer.toNat < Memory.stackBase then raise (.stackOverflow pc)
  else do
    let m' ← write m s.pointer (Memory.wordBytes target)
    return (⟨UInt16.ofNat (← sub s.pointer.toNat 2)⟩, m')

def pop (s : CallStack) (m : Memory) (pc : UInt16) : Checked (UInt16 × CallStack) :=
  if CallStack.top ≤ s.pointer.toNat then raise (.stackUnderflow pc)
  else do
    let target ← readWord m (UInt16.ofNat (← add 16 s.pointer.toNat 2))
    return (target, ⟨UInt16.ofNat (← add 16 s.pointer.toNat 2)⟩)

section CallStack

variable {s : CallStack} (m : Memory) (target pc : UInt16)

theorem depth_eq (h : s.Sound) : depth s = .ok s.depth := by
  have htop := h.pointer_add
  rw [depth, sub_eq_ok (by omega), ok_bind, pure_eq_ok, CallStack.depth]

-- a pointer above the region is not sound, and the distance to it cannot be taken
example : depth ⟨0x200⟩ = crash .underflow := rfl

theorem push_eq (h : s.Sound) : push s m target pc = ofExcept (s.push m target pc) := by
  have hlow : s.pointer.toNat = 0x1FE - 2 * s.depth := h.pointer_eq
  have hdepth : s.depth ≤ 24 := h.depth_le
  have hpointer : UInt16.ofNat (s.pointer.toNat - 2) = s.pointer - 2 := by
    rw [← h.toNat_pointer_sub, UInt16.ofNat_toNat]
  rw [push, CallStack.push]
  split
  · rfl
  · have hlen : (Memory.wordBytes target).length ≤ Memory.size := Nat.le_of_ble_eq_true rfl
    rw [write_eq m s.pointer hlen, sub_eq_ok (by omega), Memory.writeWord, ofExcept_map]
    simp only [ok_bind, pure_eq_ok, hpointer]

theorem pop_eq (h : s.Sound) : pop s m pc = ofExcept (s.pop m pc) := by
  have htop : s.pointer.toNat = 0x1FE - 2 * s.depth := h.pointer_eq
  have hpointer : UInt16.ofNat (s.pointer.toNat + 2) = s.pointer + 2 := by
    rw [← h.toNat_pointer_add, UInt16.ofNat_toNat]
  rw [pop, CallStack.pop]
  split
  · rfl
  · rw [add_eq_ok (by omega), ok_bind, ofExcept_map, hpointer, readWord_eq]
    simp only [ok_bind, pure_eq_ok, hpointer]

end CallStack

/-! ## The keypad -/

/-- A key, which has its bit in a word of sixteen. -/
def keyOf (code : UInt8) : Checked Key := do
  let key ← ofExcept (Key.ofCode code)
  let _ ← distance 16 key.val
  return key

def press (k : Keypad) (code : UInt8) : Checked Keypad :=
  return k.set (← keyOf code) true

def release (k : Keypad) (code : UInt8) : Checked Keypad :=
  return k.set (← keyOf code) false

/-- A code that is no key is never held. -/
def isHeld (k : Keypad) (code : UInt8) : Checked Bool :=
  match keyOf code with
  | .ok key => return k.held &&& key.bit != 0
  | .error (.fault _) => return false
  | .error (.panic panic) => crash panic

section Keypad

variable (k : Keypad) (code : UInt8)

theorem keyOf_eq : keyOf code = ofExcept (Key.ofCode code) := by
  rw [keyOf]
  cases Key.ofCode code with
  | error fault => rfl
  | ok key => rw [ofExcept_ok, ok_bind, distance_eq_ok key.isLt, ok_bind, pure_eq_ok]

theorem press_eq : press k code = ofExcept (k.press code) := by
  rw [press, keyOf_eq, Keypad.press, ofExcept_map]
  rfl

theorem release_eq : release k code = ofExcept (k.release code) := by
  rw [release, keyOf_eq, Keypad.release, ofExcept_map]
  rfl

theorem isHeld_eq : isHeld k code = .ok (k.isHeld code) := by
  rw [isHeld, keyOf_eq, Keypad.isHeld]
  cases Key.ofCode code <;> rfl

end Keypad

/-! ## The register file -/

def get (r : Registers) (x : Register) : Checked UInt8 :=
  item r.v.toList x.val

def set (r : Registers) (x : Register) (b : UInt8) : Checked Registers := do
  let _ ← item r.v.toList x.val
  return r.set x b

/-- The first bytes of the register file, up to `x` and with it. -/
def upTo (r : Registers) (x : Register) : Checked (List UInt8) := do
  range r.v.toList 0 (← add 64 x.val 1)

/-- Replaces the registers up to `x` and with it. -/
def load (r : Registers) (x : Register) (bytes : List UInt8) : Checked Registers := do
  return r.load (← copy (← upTo r x) bytes)

section Registers

variable (r : Registers) (x : Register)

theorem get_eq : get r x = .ok (r.get x) :=
  item_eq_ok (by simp [Registers.get])

theorem set_eq (b : UInt8) : set r x b = .ok (r.set x b) := by
  have hitem : item r.v.toList x.val = .ok (r.get x) := get_eq r x
  rw [set, hitem, ok_bind, pure_eq_ok]

theorem upTo_eq : upTo r x = .ok (r.upTo x) := by
  have hx := x.isLt
  have hlen : x.val + 1 ≤ r.v.toList.length := by rwa [Vector.length_toList]
  rw [upTo, add_eq_ok (by omega), ok_bind, range_eq_ok ⟨Nat.zero_le _, hlen⟩]
  rfl

theorem load_eq {bytes : List UInt8} (h : bytes.length = x.val + 1) :
    load r x bytes = .ok (r.load bytes) := by
  have hx := x.isLt
  have hlen : (r.upTo x).length = bytes.length := by
    simp only [Registers.upTo, List.length_take, Vector.length_toList, h]
    omega
  rw [load, upTo_eq, ok_bind, copy_eq_ok hlen]
  rfl

end Registers

end Chip8.Checked
