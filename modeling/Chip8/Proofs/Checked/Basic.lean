import Chip8.Fault
import Mathlib.Algebra.Group.Nat.Defs

/-!
# Checked work

Work that stops where a machine word would overflow, an index would fall outside what it indexes, or
a point is reached that was taken to be out of reach.  Such a stop is a panic.  It is not a fault: a
fault is an answer of the machine, and a panic ends the program that runs the machine.

Numbers are natural numbers here, and every operation names the width of the word that its result
has to fit.  Each operation comes with the condition under which it gives a result.
-/

namespace Chip8

inductive Panic where
  | overflow
  | underflow
  | shiftTooFar
  | outOfBounds
  /-- A copy between ranges of different lengths. -/
  | lengthMismatch
  /-- A point that was taken to be out of reach. -/
  | unreachable
  /-- Nothing more can be counted. -/
  | countFull
deriving DecidableEq, Repr

inductive Stop where
  | fault (fault : Fault)
  | panic (panic : Panic)
deriving DecidableEq, Repr

abbrev Checked (α : Type) := Except Stop α

namespace Checked

variable {α β : Type}

def raise (fault : Fault) : Checked α :=
  .error (.fault fault)

def crash (panic : Panic) : Checked α :=
  .error (.panic panic)

/-- The outcome of work that cannot panic. -/
def ofExcept (x : Except Fault α) : Checked α :=
  x.mapError .fault

/-- Faults become answers, and what is left to stop the work is a panic. -/
def catchFaults : Checked α → Except Panic (Except Fault α)
  | .ok a => .ok (.ok a)
  | .error (.fault fault) => .ok (.error fault)
  | .error (.panic panic) => .error panic

@[simp]
theorem ok_bind (a : α) (f : α → Checked β) : (Except.ok a : Checked α) >>= f = f a := rfl

@[simp]
theorem pure_eq_ok (a : α) : (pure a : Checked α) = .ok a := rfl

@[simp]
theorem raise_bind (fault : Fault) (f : α → Checked β) : raise fault >>= f = raise fault := rfl

@[simp]
theorem crash_bind (panic : Panic) (f : α → Checked β) : crash panic >>= f = crash panic := rfl

@[simp]
theorem ofExcept_ok (a : α) : ofExcept (.ok a) = .ok a := rfl

@[simp]
theorem ofExcept_error (fault : Fault) : (ofExcept (.error fault) : Checked α) = raise fault := rfl

theorem ofExcept_map (f : α → β) (x : Except Fault α) :
    ofExcept (x.map f) = ofExcept x >>= fun a => .ok (f a) := by
  cases x <;> rfl

@[simp]
theorem catchFaults_ofExcept (x : Except Fault α) : catchFaults (ofExcept x) = .ok x := by
  cases x <;> rfl

/-! ## Arithmetic -/

def add (bits a b : Nat) : Checked Nat :=
  if a + b < 2 ^ bits then .ok (a + b) else crash .overflow

def mul (bits a b : Nat) : Checked Nat :=
  if a * b < 2 ^ bits then .ok (a * b) else crash .overflow

def sub (a b : Nat) : Checked Nat :=
  if b ≤ a then .ok (a - b) else crash .underflow

/-- One more of what a word of `bits` bits counts. -/
def count (bits n : Nat) : Checked Nat :=
  if n + 1 < 2 ^ bits then .ok (n + 1) else crash .countFull

/-- A distance to shift a word of `bits` bits by. -/
def distance (bits n : Nat) : Checked Nat :=
  if n < bits then .ok n else crash .shiftTooFar

variable {bits a b n : Nat}

theorem add_eq_ok (h : a + b < 2 ^ bits) : add bits a b = .ok (a + b) :=
  if_pos h

example : add 16 0xFFFF 1 = crash .overflow := rfl

theorem mul_eq_ok (h : a * b < 2 ^ bits) : mul bits a b = .ok (a * b) :=
  if_pos h

theorem sub_eq_ok (h : b ≤ a) : sub a b = .ok (a - b) :=
  if_pos h

theorem count_eq_ok (h : n + 1 < 2 ^ bits) : count bits n = .ok (n + 1) :=
  if_pos h

theorem count_of_full (h : ¬ n + 1 < 2 ^ bits) : count bits n = crash .countFull :=
  if_neg h

theorem distance_eq_ok (h : n < bits) : distance bits n = .ok n :=
  if_pos h

/-! ## Ranges -/

def item (xs : List α) (i : Nat) : Checked α :=
  match xs[i]? with
  | some x => .ok x
  | none => crash .outOfBounds

/-- The items from `first` up to `last`, without it. -/
def range (xs : List α) (first last : Nat) : Checked (List α) :=
  if first ≤ last ∧ last ≤ xs.length then .ok ((xs.take last).drop first) else crash .outOfBounds

/-- What a range holds after a copy to it. -/
def copy (target source : List α) : Checked (List α) :=
  if target.length = source.length then .ok source else crash .lengthMismatch

variable {xs ys : List α} {first last : Nat}

theorem item_eq_ok {x : α} (h : xs[n]? = some x) : item xs n = .ok x := by
  simp [item, h]

theorem range_eq_ok (h : first ≤ last ∧ last ≤ xs.length) :
    range xs first last = .ok ((xs.take last).drop first) :=
  if_pos h

theorem copy_eq_ok (h : xs.length = ys.length) : copy xs ys = .ok ys :=
  if_pos h

end Checked

end Chip8
