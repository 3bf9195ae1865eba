import Chip8.Instruction.Decode

/-!
# The catalogue of instructions

The instruction set as its manual lists it: one pattern for each instruction, four signs long.  A
sign that is a hexadecimal digit stands for itself, every other sign for any digit.  Decoding is
looking an opcode up in this list, and what the list does not have is unknown.
-/

namespace Chip8

namespace Opcode

/-- The four digits, highest first. -/
def digits (w : Opcode) : List Nat :=
  [w.family, w.x.val, w.y.val, w.n.val]

/-- The sign of a pattern stands for the digit. -/
def admits (sign : Char) (digit : Nat) : Bool :=
  if '0' ≤ sign ∧ sign ≤ '9' then digit == sign.toNat - '0'.toNat
  else if 'A' ≤ sign ∧ sign ≤ 'F' then digit == sign.toNat - 'A'.toNat + 10
  else true

def fitsSigns : List Char → List Nat → Bool
  | [], [] => true
  | sign :: signs, digit :: digits => admits sign digit && fitsSigns signs digits
  | _, _ => false

def Fits (w : Opcode) (pattern : String) : Prop :=
  fitsSigns pattern.toList w.digits = true

instance (w : Opcode) (pattern : String) : Decidable (w.Fits pattern) :=
  inferInstanceAs (Decidable (_ = true))

end Opcode

namespace Instruction

/-- Every pattern with the instruction that it stands for. -/
def catalogue : List (String × (Opcode → Instruction)) :=
  [("00E0", fun _ => .clear),
   ("00EE", fun _ => .ret),
   ("1NNN", fun w => .jump w.nnn),
   ("2NNN", fun w => .call w.nnn),
   ("3XNN", fun w => .skipIf (.equalsByte w.x w.nn)),
   ("4XNN", fun w => .skipIf (.differsFromByte w.x w.nn)),
   ("5XY?", fun w => .skipIf (.equals w.x w.y)),
   ("6XNN", fun w => .loadByte w.x w.nn),
   ("7XNN", fun w => .addByte w.x w.nn),
   ("8XY0", fun w => .combine .copy w.x w.y),
   ("8XY1", fun w => .combine .or w.x w.y),
   ("8XY2", fun w => .combine .and w.x w.y),
   ("8XY3", fun w => .combine .xor w.x w.y),
   ("8XY4", fun w => .combine .add w.x w.y),
   ("8XY5", fun w => .combine .sub w.x w.y),
   ("8XY6", fun w => .combine .shiftRight w.x w.y),
   ("8XY7", fun w => .combine .subFrom w.x w.y),
   ("8XYE", fun w => .combine .shiftLeft w.x w.y),
   ("9XY?", fun w => .skipIf (.differs w.x w.y)),
   ("ANNN", fun w => .loadIndex w.nnn),
   ("BNNN", fun w => .jumpOffset w.nnn),
   ("CXNN", fun w => .random w.x w.nn),
   ("DXYN", fun w => .draw w.x w.y w.n),
   ("EX9E", fun w => .skipIf (.keyDown w.x)),
   ("EXA1", fun w => .skipIf (.keyUp w.x)),
   ("FX07", fun w => .loadDelay w.x),
   ("FX0A", fun w => .waitKey w.x),
   ("FX15", fun w => .setDelay w.x),
   ("FX18", fun w => .setSound w.x),
   ("FX1E", fun w => .addIndex w.x),
   ("FX29", fun w => .loadGlyph w.x),
   ("FX33", fun w => .storeDecimal w.x),
   ("FX55", fun w => .storeRegisters w.x),
   ("FX65", fun w => .loadRegisters w.x)]

end Instruction

/-- The pattern under which the catalogue has an operation. -/
def Operation.pattern : Operation → String
  | .copy => "8XY0"
  | .or => "8XY1"
  | .and => "8XY2"
  | .xor => "8XY3"
  | .add => "8XY4"
  | .sub => "8XY5"
  | .shiftRight => "8XY6"
  | .subFrom => "8XY7"
  | .shiftLeft => "8XYE"

/-- The pattern under which the catalogue has the skip on a condition. -/
def Condition.pattern : Condition → String
  | .equalsByte .. => "3XNN"
  | .differsFromByte .. => "4XNN"
  | .equals .. => "5XY?"
  | .differs .. => "9XY?"
  | .keyDown _ => "EX9E"
  | .keyUp _ => "EXA1"

/-- The condition of the same kind with the operands that an opcode names. -/
def Condition.withOperands (w : Opcode) : Condition → Condition
  | .equalsByte .. => .equalsByte w.x w.nn
  | .differsFromByte .. => .differsFromByte w.x w.nn
  | .equals .. => .equals w.x w.y
  | .differs .. => .differs w.x w.y
  | .keyDown _ => .keyDown w.x
  | .keyUp _ => .keyUp w.x

/-- The opcode fits a pattern of the catalogue. -/
def Opcode.Listed (w : Opcode) : Prop :=
  ∃ row ∈ Instruction.catalogue, w.Fits row.1

instance (w : Opcode) : Decidable w.Listed :=
  inferInstanceAs (Decidable (∃ row ∈ Instruction.catalogue, w.Fits row.1))

namespace Opcode

theorem family_lt (w : Opcode) : w.family < 16 := by
  have hw := w.toNat_lt
  rw [family]
  omega

theorem toNat_eq_digits (w : Opcode) :
    w.toNat = 4096 * w.family + 256 * w.x.val + 16 * w.y.val + w.n.val := by
  simp only [family, x, y, n]
  omega

theorem toNat_mod_byte (w : Opcode) : w.toNat % 256 = 16 * w.y.val + w.n.val := by
  simp only [y, n]
  omega

theorem toNat_nnn (w : Opcode) : w.nnn.toNat = w.toNat % 4096 := by
  rw [nnn, UInt16.toNat_ofNat']
  omega

theorem toNat_nnn_lt (w : Opcode) : w.nnn.toNat < 4096 := by
  rw [toNat_nnn]
  exact Nat.mod_lt _ (by decide)

theorem toNat_mod_digit (w : Opcode) : w.toNat % 16 = w.n.val := rfl

theorem toNat_of_high_byte_zero {w : Opcode} (hfamily : w.family = 0) (hx : w.x = 0) :
    w.toNat = 16 * w.y.val + w.n.val := by
  rw [toNat_eq_digits, hfamily, hx]
  simp

end Opcode

namespace Instruction

open Opcode

theorem decode_of_fits {w : Opcode} {row : String × (Opcode → Instruction)}
    (h : row ∈ catalogue) (hfits : w.Fits row.1) : decode w = row.2 w := by
  revert row
  -- one goal for each row: the digits that its pattern fixes select a branch of decoding
  simp only [catalogue, List.forall_mem_cons, List.not_mem_nil, Fits, String.reduceToList, digits,
    fitsSigns, admits, Char.isValue, Char.reduceLE, and_self, and_false, ↓reduceIte,
    Char.reduceToNat, Nat.reduceSub, Nat.reduceAdd, Bool.and_true, Bool.true_and,
    Bool.and_eq_true, beq_iff_eq, and_imp, Fin.val_eq_zero_iff, false_implies, implies_true,
    and_true]
  and_intros
  all_goals
    intros
    simp [decode, ofSystem, ofArithmetic, ofKeys, ofDevices, Operation.ofDigit?, toNat_mod_byte,
      toNat_mod_digit, toNat_of_high_byte_zero, *]

theorem decode_of_not_listed {w : Opcode} (h : ¬ w.Listed) : decode w = .unknown w := by
  have hnone : ∀ row ∈ catalogue, ¬ w.Fits row.1 := fun row hrow hfits => h ⟨row, hrow, hfits⟩
  simp only [catalogue, List.forall_mem_cons, List.not_mem_nil, Fits, String.reduceToList, digits,
    fitsSigns, admits, Char.isValue, Char.reduceLE, and_self, and_false, ↓reduceIte,
    Char.reduceToNat, Nat.reduceSub, Nat.reduceAdd, Bool.and_true, Bool.true_and,
    Bool.and_eq_true, beq_iff_eq, not_and, Fin.val_eq_zero_iff] at hnone
  have hfamily := w.family_lt
  have hword := w.toNat_eq_digits
  have hbyte := w.toNat_mod_byte
  have hdigit := w.toNat_mod_digit
  grind [decode, ofSystem, ofArithmetic, ofKeys, ofDevices, Operation.ofDigit?]

example : ¬ Opcode.Listed 0x8128 := by decide

/-- Decoding is looking up in the catalogue. -/
theorem decode_eq_iff {w : Opcode} {i : Instruction} :
    decode w = i ↔
      (∃ row ∈ catalogue, w.Fits row.1 ∧ row.2 w = i) ∨ ¬ w.Listed ∧ unknown w = i := by
  constructor
  · rintro rfl
    by_cases hlisted : w.Listed
    · obtain ⟨row, hrow, hfits⟩ := hlisted
      exact .inl ⟨row, hrow, hfits, (decode_of_fits hrow hfits).symm⟩
    · exact .inr ⟨hlisted, (decode_of_not_listed hlisted).symm⟩
  · intro hcases
    rcases hcases with ⟨row, hrow, hfits, rfl⟩ | ⟨hlisted, rfl⟩
    · exact decode_of_fits hrow hfits
    · exact decode_of_not_listed hlisted

variable {w : Opcode} {x y : Register}

theorem decode_eq_clear_iff : decode w = .clear ↔ w.Fits "00E0" := by
  simp [decode_eq_iff, catalogue]

theorem decode_eq_ret_iff : decode w = .ret ↔ w.Fits "00EE" := by
  simp [decode_eq_iff, catalogue]

theorem decode_eq_jump_iff {nnn : UInt16} :
    decode w = .jump nnn ↔ w.Fits "1NNN" ∧ w.nnn = nnn := by
  simp [decode_eq_iff, catalogue]

theorem decode_eq_call_iff {nnn : UInt16} :
    decode w = .call nnn ↔ w.Fits "2NNN" ∧ w.nnn = nnn := by
  simp [decode_eq_iff, catalogue]

theorem decode_eq_jumpOffset_iff {nnn : UInt16} :
    decode w = .jumpOffset nnn ↔ w.Fits "BNNN" ∧ w.nnn = nnn := by
  simp [decode_eq_iff, catalogue]

theorem decode_eq_draw_iff {rows : Fin 16} :
    decode w = .draw x y rows ↔ w.Fits "DXYN" ∧ w.x = x ∧ w.y = y ∧ w.n = rows := by
  simp [decode_eq_iff, catalogue]

theorem decode_eq_addByte_iff {nn : UInt8} :
    decode w = .addByte x nn ↔ w.Fits "7XNN" ∧ w.x = x ∧ w.nn = nn := by
  simp [decode_eq_iff, catalogue]

theorem decode_eq_combine_iff {operation : Operation} :
    decode w = .combine operation x y ↔ w.Fits operation.pattern ∧ w.x = x ∧ w.y = y := by
  cases operation <;> simp [decode_eq_iff, catalogue, Operation.pattern]

theorem decode_eq_skipIf_iff {condition : Condition} :
    decode w = .skipIf condition ↔
      w.Fits condition.pattern ∧ condition.withOperands w = condition := by
  cases condition <;>
    simp [decode_eq_iff, catalogue, Condition.pattern, Condition.withOperands]

theorem decode_eq_loadDelay_iff : decode w = .loadDelay x ↔ w.Fits "FX07" ∧ w.x = x := by
  simp [decode_eq_iff, catalogue]

theorem decode_eq_waitKey_iff : decode w = .waitKey x ↔ w.Fits "FX0A" ∧ w.x = x := by
  simp [decode_eq_iff, catalogue]

theorem decode_eq_setDelay_iff : decode w = .setDelay x ↔ w.Fits "FX15" ∧ w.x = x := by
  simp [decode_eq_iff, catalogue]

theorem decode_eq_setSound_iff : decode w = .setSound x ↔ w.Fits "FX18" ∧ w.x = x := by
  simp [decode_eq_iff, catalogue]

theorem decode_eq_storeDecimal_iff : decode w = .storeDecimal x ↔ w.Fits "FX33" ∧ w.x = x := by
  simp [decode_eq_iff, catalogue]

theorem decode_eq_storeRegisters_iff :
    decode w = .storeRegisters x ↔ w.Fits "FX55" ∧ w.x = x := by
  simp [decode_eq_iff, catalogue]

theorem decode_eq_loadRegisters_iff :
    decode w = .loadRegisters x ↔ w.Fits "FX65" ∧ w.x = x := by
  simp [decode_eq_iff, catalogue]

theorem decode_eq_unknown_iff {v : Opcode} :
    decode w = .unknown v ↔ ¬ w.Listed ∧ w = v := by
  simp [decode_eq_iff, catalogue]

/-- What is true of the instructions of some rows is true of the opcodes that fit one of them. -/
theorem decode_iff_of_rows {p : Instruction → Bool} {patterns : List String}
    (hrows : ∀ row ∈ catalogue, ∀ v, p (row.2 v) = decide (row.1 ∈ patterns))
    (hunknown : ∀ v, p (unknown v) = false)
    (hlisted : ∀ pattern ∈ patterns, pattern ∈ catalogue.map Prod.fst) :
    p (decode w) = true ↔ ∃ pattern ∈ patterns, w.Fits pattern := by
  constructor
  · intro hp
    rcases decode_eq_iff.mp (Eq.refl (decode w)) with ⟨row, hrow, hfits, heq⟩ | ⟨-, heq⟩
    · rw [← heq, hrows row hrow] at hp
      exact ⟨row.1, of_decide_eq_true hp, hfits⟩
    · rw [← heq, hunknown] at hp
      cases hp
  · intro hpattern
    obtain ⟨pattern, hmem, hfits⟩ := hpattern
    obtain ⟨row, hrow, rfl⟩ := List.mem_map.mp (hlisted pattern hmem)
    rw [decode_of_fits hrow hfits, hrows row hrow]
    exact decide_eq_true hmem

end Instruction

end Chip8
