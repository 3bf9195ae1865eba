import Chip8.Proofs.Machine.Effect

/-!
# Reachable machines

A machine is reachable when a run leads to it from a program just loaded.  Its call stack is sound,
because the empty one is and every request keeps it so.
-/

namespace Chip8.Machine

/-- The machine that an image makes which fits. -/
def loaded (program : List UInt8) (config : Config) (chance : RandomSource) : Machine where
  memory := Memory.blank.splice Memory.programBase program
  registers := .initial
  stack := .empty
  timers := .stopped
  keypad := .released
  state := .running
  config := config
  random := (config.seed.map RandomSource.ofSeed).getD chance
  redraw := true
  skipped := 0

theorem start_eq_ok_iff {program : List UInt8} {config : Config} {chance : RandomSource}
    {m : Machine} :
    start program config chance = .ok m ↔
      program ≠ [] ∧ program.length ≤ Memory.maxProgram ∧ loaded program config chance = m := by
  unfold start Memory.load
  rw [map_eq_ok_iff]
  split
  · next hempty => simp_all
  · next hempty =>
    split
    · next hlarge => simp; omega
    · next hfits =>
      simp only [List.isEmpty_iff] at hempty
      simp [hempty, Nat.le_of_not_lt hfits, loaded]

theorem start_loaded {program : List UInt8} {config : Config} {chance : RandomSource}
    (hsome : program ≠ []) (hfits : program.length ≤ Memory.maxProgram) :
    start program config chance = .ok (loaded program config chance) :=
  start_eq_ok_iff.mpr ⟨hsome, hfits, rfl⟩

theorem sound_perform {m : Machine} (h : m.stack.Sound) (request : Request) :
    (m.perform request).2.stack.Sound := by
  cases hexecuted : m.executed request with
  | none =>
    rw [(idle_of_not_executed hexecuted).stack]
    exact h
  | some e =>
    obtain ⟨-, hexecute⟩ := perform_of_executed hexecuted
    exact sound_execute hexecute h

theorem sound_run {m : Machine} (h : m.stack.Sound) (requests : List Request) :
    (m.run requests).stack.Sound :=
  run_keeps (P := fun m => m.stack.Sound) (fun _ request h => sound_perform h request) h requests

theorem sound_start {program : List UInt8} {config : Config} {chance : RandomSource} {m : Machine}
    (h : start program config chance = .ok m) : m.stack.Sound := by
  obtain ⟨-, -, rfl⟩ := start_eq_ok_iff.mp h
  exact CallStack.sound_empty

end Chip8.Machine
