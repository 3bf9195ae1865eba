import Chip8.Proofs.Instruction.Catalogue
import Chip8.Proofs.Machine.Amendment
import Chip8.Proofs.Machine.Reachable

/-!
# The countdown of the timers

Each timer is set by one instruction and goes down by one with every tick, but not below zero.
Nothing else touches it, in whatever state the machine is.  So after any run it shows the value to
which it was last set, less the ticks that came after that.
-/

namespace Chip8

inductive Timer where
  | delay
  | sound

/-- The pattern of the opcodes that set the timer. -/
def Timer.setter : Timer → String
  | .delay => "FX15"
  | .sound => "FX18"

/-- The execution sets the timer. -/
def Execution.Sets (e : Execution) (timer : Timer) : Prop :=
  e.machine.opcode.Fits timer.setter

/-- The register from which the instruction sets the timer, if it does. -/
def Instruction.sets : Instruction → Timer → Option Register
  | .setDelay x, .delay | .setSound x, .sound => some x
  | _, _ => none

theorem Instruction.sets_decode_iff {w : Opcode} {timer : Timer} {x : Register} :
    (decode w).sets timer = some x ↔ w.Fits timer.setter ∧ w.x = x := by
  cases timer with
  | delay =>
    rw [Timer.setter, ← decode_eq_setDelay_iff]
    cases decode w <;> simp [sets]
  | sound =>
    rw [Timer.setter, ← decode_eq_setSound_iff]
    cases decode w <;> simp [sets]

namespace Machine

variable {m m' : Machine} {request : Request} {requests : List Request} {e : Execution}

/-- What a timer shows. -/
def timer (m : Machine) : Timer → Nat
  | .delay => m.timers.delay.toNat
  | .sound => m.timers.sound.toNat

theorem timer_congr (h : m'.timers = m.timers) (timer : Timer) :
    m'.timer timer = m.timer timer := by
  cases timer <;> rw [Machine.timer, Machine.timer, h]

theorem timer_execute {i : Instruction} (h : m.execute i = .ok m') (timer : Timer) :
    m'.timer timer =
      match i.sets timer with
      | some x => (m.get x).toNat
      | none => m.timer timer := by
  cases i with
  | loadDelay x =>
    obtain rfl := Except.ok.inj h
    cases timer <;> rfl
  | setDelay x | setSound x =>
    obtain rfl := Except.ok.inj h
    cases timer <;> rfl
  | _ => exact timer_congr (timers_execute rfl h) timer

theorem timer_perform_of_set {timer : Timer} (h : m.executed request = some e)
    (hset : e.Sets timer) :
    (m.perform request).2.timer timer = (e.machine.get e.machine.opcode.x).toNat := by
  obtain ⟨rfl, hexecute⟩ := perform_of_executed h
  rw [instruction_of_executed h] at hexecute
  rw [timer_execute hexecute, Instruction.sets_decode_iff.mpr ⟨hset, rfl⟩]

/-- A request that does not set the timer lets it go down if it is a tick, and leaves it if not. -/
theorem timer_perform_of_not_set {timer : Timer}
    (h : ∀ e, m.executed request = some e → ¬ e.Sets timer) :
    (m.perform request).2.timer timer = m.timer timer - [request].count .tick := by
  cases hexecuted : m.executed request with
  | some e =>
    obtain ⟨rfl, -, -⟩ := done_of_executed hexecuted
    obtain ⟨-, hexecute⟩ := perform_of_executed hexecuted
    rw [timer_execute hexecute, instruction_of_executed hexecuted]
    cases hsets : (Instruction.decode e.machine.opcode).sets timer with
    | none => rfl
    | some x => exact absurd (Instruction.sets_decode_iff.mp hsets).1 (h e hexecuted)
  | none =>
    by_cases htick : request = .tick
    · subst htick
      cases timer <;> exact Timers.toNat_countDown _
    · rw [timer_congr ((reserved_of_not_executed hexecuted).timers htick) timer,
        List.count_eq_zero.mpr (by simpa using Ne.symm htick), Nat.sub_zero]

/-- A timer that is not set shows what it did, less the ticks. -/
theorem timer_run_of_not_set {timer : Timer}
    (h : ∀ e ∈ m.executions requests, ¬ e.Sets timer) :
    (m.run requests).timer timer = m.timer timer - requests.count .tick := by
  induction requests generalizing m with
  | nil => rfl
  | cons request requests ih =>
    calc (m.run (request :: requests)).timer timer
        = (m.perform request).2.timer timer - requests.count .tick :=
          ih fun e he => h e (mem_executions_cons.mpr (.inr he))
      _ = m.timer timer - [request].count .tick - requests.count .tick := by
          rw [timer_perform_of_not_set fun e he => h e (mem_executions_cons.mpr (.inl he))]
      _ = m.timer timer - (request :: requests).count .tick := by
          rw [Nat.sub_sub, ← List.count_append, List.singleton_append]

/-- In the run the timer was last set to `v`, and `t` ticks came after that; if it was never set,
`v` is zero and `t` is the number of all the ticks. -/
inductive LastSet (m : Machine) (timer : Timer) (requests : List Request) : Nat → Nat → Prop where
  | never (none : ∀ e ∈ m.executions requests, ¬ e.Sets timer) :
      LastSet m timer requests 0 (requests.count .tick)
  | set (before after : List Request) (e : Execution) (split : requests = before ++ .step :: after)
      (executed : (m.run before).executed .step = some e) (sets : e.Sets timer)
      (last : ∀ e' ∈ (m.run (before ++ [.step])).executions after, ¬ e'.Sets timer) :
      LastSet m timer requests (e.machine.get e.machine.opcode.x).toNat (after.count .tick)

/-- Every run has set the timer for the last time or never. -/
theorem exists_lastSet (m : Machine) (timer : Timer) (requests : List Request) :
    ∃ v t, m.LastSet timer requests v t := by
  -- The induction takes requests off the front, so the first one counts only if the rest of the run
  -- does not set the timer.
  induction requests generalizing m with
  | nil => exact ⟨0, 0, .never fun e he => by cases he⟩
  | cons request requests ih =>
    obtain ⟨v, t, hrest⟩ := ih (m.perform request).2
    cases hrest with
    | set before after e split executed sets last =>
      exact ⟨_, _, .set (request :: before) after e (congrArg _ split) executed sets last⟩
    | never none =>
      by_cases hset : ∃ e, m.executed request = some e ∧ e.Sets timer
      · obtain ⟨e, hexecuted, hsets⟩ := hset
        obtain ⟨rfl, -, -⟩ := done_of_executed hexecuted
        exact ⟨_, _, .set [] requests e rfl hexecuted hsets none⟩
      · refine ⟨_, _, .never fun e he hsets => ?_⟩
        rcases mem_executions_cons.mp he with hexecuted | hlater
        · exact hset ⟨e, hexecuted, hsets⟩
        · exact none e hlater hsets

/-- A timer that was stopped at first shows what it was last set to, less the ticks since then. -/
theorem timer_of_lastSet {timer : Timer} {v t : Nat} (hstopped : m.timer timer = 0)
    (h : m.LastSet timer requests v t) : (m.run requests).timer timer = v - t := by
  cases h with
  | never none => rw [timer_run_of_not_set none, hstopped]
  | set before after e split executed sets last =>
    rw [run_append, run_cons, run_nil] at last
    rw [split, run_append, run_cons, timer_run_of_not_set last,
      timer_perform_of_set executed sets]

theorem timer_start {program : List UInt8} {config : Config} {chance : RandomSource}
    (hstart : start program config chance = .ok m) (timer : Timer) : m.timer timer = 0 := by
  obtain ⟨-, -, rfl⟩ := start_eq_ok_iff.mp hstart
  cases timer <;> rfl

/-- The instruction that reads the delay timer puts what it shows into its register. -/
theorem get_after_loadDelay {w : Opcode} (hstate : m.state = .running) (hfetch : m.fetch = .ok w)
    (hfits : w.Fits "FX07") :
    (m.perform .step).1 = .done ∧ ((m.perform .step).2.get w.x).toNat = m.timer .delay := by
  have hdecode := Instruction.decode_eq_loadDelay_iff.mpr ⟨hfits, Eq.refl w.x⟩
  have hcycle : m.cycle = .ok (m.put w.x m.timers.delay).next := by
    rw [cycle_of_fetch hfetch, hdecode]
    rfl
  rw [perform_step_of_ok hstate hcycle]
  exact ⟨rfl, congrArg UInt8.toNat (get_put_self ..)⟩

end Machine

end Chip8
