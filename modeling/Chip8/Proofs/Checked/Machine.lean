import Chip8.Proofs.Checked.Execute
import Chip8.Proofs.Machine.Reachable

/-!
# Checked machines

A machine whose every sum, shift and index is checked answers whatever its host calls for, until it
has passed over more opcodes than it can count.  So the machine without checks, which has no way to
panic, leaves nothing out: both give the same answers and come to the same machine.
-/

namespace Chip8

/-- What a host may call for: to have a request performed, or to see the picture. -/
inductive Call where
  | request (request : Request)
  | snapshot
deriving DecidableEq, Repr

inductive Answer where
  | reply (reply : Reply)
  | picture (picture : Picture)
deriving DecidableEq

namespace Machine

def answer (m : Machine) : Call → Answer × Machine
  | .request request => (.reply (m.perform request).1, (m.perform request).2)
  | .snapshot => (.picture m.picture, m)

/-- The answers to a list of calls, and the machine after them. -/
def serve (m : Machine) : List Call → List Answer × Machine
  | [] => ([], m)
  | call :: calls =>
    let rest := (m.answer call).2.serve calls
    ((m.answer call).1 :: rest.1, rest.2)

theorem skipped_halt (m : Machine) (fault : Fault) : (m.halt fault).skipped = m.skipped := by
  unfold halt
  split <;> rfl

end Machine

namespace Checked

def cycle (m : Machine) : Checked Machine := do
  let opcode ← readWord m.memory m.pc
  execute m (← decode opcode)

def resolveKey (m : Machine) (code : UInt8) : Checked (Bool × Machine) := do
  let _ ← ofExcept (Key.ofCode code)
  match m.state with
  | .waiting x =>
    let registers ← set m.registers x code
    return (true, { m with registers, state := .running })
  | .running | .halted => return (false, m)

def perform (m : Machine) : Request → Except Panic (Reply × Machine)
  | .step =>
    match m.state with
    | .halted => .ok (.refused .halted, m)
    | .waiting _ => .ok (.done, m)
    | .running => (catchFaults (cycle m)).map fun
      | .ok m' => (.done, m')
      | .error fault => (.refused fault, m.halt fault)
  | .tick => .ok (.done, m.tick)
  | .keyDown code => (catchFaults (press m.keypad code)).map fun pressed =>
      m.attempt (pressed.map fun keypad => { m with keypad })
  | .keyUp code => (catchFaults (release m.keypad code)).map fun released =>
      m.attempt (released.map fun keypad => { m with keypad })
  | .resolveKey code => (catchFaults (resolveKey m code)).map fun
    | .ok (resumed, m') => (.flag resumed, m')
    | .error fault => (.refused fault, m)
  | .takeRedraw => .ok (.flag m.redraw, { m with redraw := false })

def snapshot (m : Machine) : Checked Picture := do
  picture (← display m.memory)

def answer (m : Machine) : Call → Except Panic (Answer × Machine)
  | .request request => (perform m request).map fun (reply, m') => (.reply reply, m')
  | .snapshot => (catchFaults (snapshot m)).map fun
    | .ok picture => (.picture picture, m)
    | .error fault => (.reply (.refused fault), m)

def serve (m : Machine) : List Call → Except Panic (List Answer × Machine)
  | [] => .ok ([], m)
  | call :: calls => do
    let (first, m') ← answer m call
    let (others, m'') ← serve m' calls
    return (first :: others, m'')

/-! ## One call -/

/-- A machine, if the opcodes that it has passed over could be counted. -/
def counted (m : Machine) : Checked Machine :=
  if m.skipped < 2 ^ 64 then .ok m else crash .countFull

theorem cycle_eq {m : Machine} (hstack : m.stack.Sound) (hfew : m.skipped < 2 ^ 64) :
    cycle m = ofExcept m.cycle >>= counted := by
  rw [cycle, readWord_eq]
  cases hfetch : m.fetch with
  | error fault =>
    rw [Machine.cycle_of_fetch_error hfetch, show m.memory.readWord m.pc = .error fault from hfetch]
    rfl
  | ok w =>
    rw [Machine.cycle_of_fetch hfetch, show m.memory.readWord m.pc = .ok w from hfetch,
      ofExcept_ok, ok_bind, decode_eq, ok_bind]
    have hpc := (Machine.fetch_eq_ok_iff.mp hfetch).1
    cases hexecute : m.execute (.decode w) with
    | error fault =>
      have hnone (n : Machine) (hn : m.execute (.decode w) = .ok n) : n.skipped < 2 ^ 64 := by
        cases hexecute.symm.trans hn
      rw [execute_eq hstack hpc hnone, hexecute]
      rfl
    | ok m' =>
      by_cases hcount : m'.skipped < 2 ^ 64
      · have hone (n : Machine) (hn : m.execute (.decode w) = .ok n) : n.skipped < 2 ^ 64 :=
          Except.ok.inj (hexecute.symm.trans hn) ▸ hcount
        rw [execute_eq hstack hpc hone, hexecute, ofExcept_ok, ok_bind, counted, if_pos hcount]
      · rw [execute_of_full hexecute hfew hcount, ofExcept_ok, ok_bind, counted, if_neg hcount]

theorem resolveKey_eq (m : Machine) (code : UInt8) :
    resolveKey m code = ofExcept (m.resolveKey code) := by
  rw [resolveKey, Machine.resolveKey, ofExcept_map]
  congr 1
  funext key
  cases m.state with
  | waiting x =>
    simp only [set_eq, ok_bind, pure_eq_ok]
    rfl
  | running | halted => rfl

theorem snapshot_eq (m : Machine) : snapshot m = .ok m.picture := by
  rw [snapshot, display_eq, ok_bind, picture_eq, Machine.picture]

theorem perform_eq {m : Machine} (hstack : m.stack.Sound) (hfew : m.skipped < 2 ^ 64)
    (request : Request) :
    perform m request =
      if (m.perform request).2.skipped < 2 ^ 64 then .ok (m.perform request)
      else .error .countFull := by
  cases request with
  | step =>
    cases hstate : m.state with
    | halted =>
      rw [perform, hstate, Machine.perform, Machine.step_of_halted hstate, if_pos hfew]
    | waiting x =>
      rw [perform, hstate, Machine.perform, Machine.step_of_waiting hstate, if_pos hfew]
    | running =>
      rw [perform, hstate]
      dsimp only
      rw [cycle_eq hstack hfew]
      cases hcycle : m.cycle with
      | error fault =>
        rw [Machine.perform_step_of_error hstate hcycle, if_pos (m.skipped_halt fault ▸ hfew)]
        rfl
      | ok m' =>
        rw [Machine.perform_step_of_ok hstate hcycle, ofExcept_ok, ok_bind, counted]
        split <;> rfl
  | tick | takeRedraw => exact (if_pos hfew).symm
  | keyDown code =>
    rw [(Machine.idle_of_not_executed rfl).skipped, if_pos hfew, perform, press_eq,
      catchFaults_ofExcept]
    rfl
  | keyUp code =>
    rw [(Machine.idle_of_not_executed rfl).skipped, if_pos hfew, perform, release_eq,
      catchFaults_ofExcept]
    rfl
  | resolveKey code =>
    rw [(Machine.idle_of_not_executed rfl).skipped, if_pos hfew, perform, resolveKey_eq,
      catchFaults_ofExcept, Machine.perform]
    cases m.resolveKey code <;> rfl

theorem answer_eq {m : Machine} (hstack : m.stack.Sound) (hfew : m.skipped < 2 ^ 64)
    (call : Call) :
    answer m call =
      if (m.answer call).2.skipped < 2 ^ 64 then .ok (m.answer call)
      else .error .countFull := by
  cases call with
  | request request =>
    rw [answer, perform_eq hstack hfew, Machine.answer]
    split <;> rfl
  | snapshot =>
    rw [answer, snapshot_eq, Machine.answer, if_pos hfew]
    rfl

end Checked

/-! ## Many calls -/

namespace Machine

variable {m : Machine}

theorem sound_answer (h : m.stack.Sound) (call : Call) : (m.answer call).2.stack.Sound := by
  cases call with
  | request request => exact sound_perform h request
  | snapshot => exact h

theorem sound_serve (h : m.stack.Sound) (calls : List Call) : (m.serve calls).2.stack.Sound := by
  induction calls generalizing m with
  | nil => exact h
  | cons call calls ih => exact ih (sound_answer h call)

theorem skipped_serve (m : Machine) (calls : List Call) : m.skipped ≤ (m.serve calls).2.skipped := by
  induction calls generalizing m with
  | nil => exact Nat.le_refl _
  | cons call calls ih =>
    refine Nat.le_trans ?_ (ih (m.answer call).2)
    cases call with
    | request request => exact m.skipped_le_perform request
    | snapshot => exact Nat.le_refl _

end Machine

theorem Checked.serve_eq {m : Machine} (hstack : m.stack.Sound) {calls : List Call}
    (hfew : (m.serve calls).2.skipped < 2 ^ 64) : serve m calls = .ok (m.serve calls) := by
  induction calls generalizing m with
  | nil => rfl
  | cons call calls ih =>
    have hafter : (m.answer call).2.skipped < 2 ^ 64 :=
      Nat.lt_of_le_of_lt ((m.answer call).2.skipped_serve calls) hfew
    have hbefore : m.skipped < 2 ^ 64 := Nat.lt_of_le_of_lt (m.skipped_serve (call :: calls)) hfew
    have hothers := ih (Machine.sound_answer hstack call) hfew
    rw [serve, answer_eq hstack hbefore, if_pos hafter]
    simp only [bind, Except.bind, hothers]
    rfl

namespace Machine

/-- No call panics on a machine that a host can bring about, unless it is to count an opcode passed
over for which there is no room in the count. -/
theorem calls_never_panic {program : List UInt8} {config : Config} {chance : RandomSource}
    {m₀ : Machine} (hstart : start program config chance = .ok m₀) (calls : List Call)
    (hfew : (m₀.serve calls).2.skipped < 2 ^ 64) :
    let m := (m₀.serve calls).2
    Checked.serve m₀ calls = .ok (m₀.serve calls) ∧
      (∃ d ≤ 24, m.stack.pointer.toNat = 0x1FE - 2 * d ∧ Checked.depth m.stack = .ok d) ∧
      (∀ x, m.state = .waiting x → x.val < 16) ∧
      ∀ call, Checked.answer m call =
        if (m.answer call).2.skipped < 2 ^ 64 then .ok (m.answer call) else .error .countFull := by
  intro m
  have hstack : m.stack.Sound := sound_serve (sound_start hstart) calls
  refine ⟨Checked.serve_eq (sound_start hstart) hfew, ?_, fun x _ => x.isLt, ?_⟩
  · exact ⟨m.stack.depth, hstack.depth_le, hstack.pointer_eq, Checked.depth_eq hstack⟩
  · intro call
    exact Checked.answer_eq hstack hfew call

/-- An opcode is passed over, and then a key is waited for. -/
theorem skip_and_wait_served :
    let m := loaded [0x00, 0x01, 0xF3, 0x0A] .standard (.ofSeed 1)
    let calls := [.request .step, .request .step, .snapshot]
    (m.serve calls).2.state = .waiting ⟨3, by decide⟩ ∧ (m.serve calls).2.skipped = 1 ∧
      Checked.serve m calls = .ok (m.serve calls) := by
  have hstart : start [0x00, 0x01, 0xF3, 0x0A] .standard (.ofSeed 1) =
      .ok (loaded [0x00, 0x01, 0xF3, 0x0A] .standard (.ofSeed 1)) :=
    start_loaded (by decide) (by decide)
  exact ⟨by decide +kernel, by decide +kernel, (calls_never_panic hstart _ (by decide +kernel)).1⟩

end Machine

end Chip8
