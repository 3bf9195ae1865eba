import Chip8.Proofs.Machine.Amendment
import Chip8.Proofs.Machine.Reachable

/-!
# Calls kept in a list

A second machine keeps its return addresses in a list and takes them from nowhere else.  It still
leaves each of them in memory, where a program may read it as data.  As long as a program stores
nothing in the region of the call stack, the two machines give the same replies and differ only in
how the addresses are kept: entry `k` of the list, counted from the oldest, is the word that lies
`2 * k` bytes below the top of the region.
-/

namespace Chip8

/-- A machine with its return addresses in a list, the newest first.  The stack pointer of the body
is not used. -/
structure CallListMachine where
  body : Machine
  calls : List UInt16

namespace CallListMachine

def ofMachine (m : Machine) : CallListMachine :=
  ⟨m, []⟩

/-- Goes to `nnn` and will return to `target`. -/
def call (a : CallListMachine) (nnn target : UInt16) : CallListMachine :=
  let memory :=
    a.body.memory.splice (CallStack.top - 2 * a.calls.length) (Memory.wordBytes target)
  ⟨{ a.body with memory }.goto nnn, target :: a.calls⟩

def execute (a : CallListMachine) : Instruction → Except Fault CallListMachine
  | .call nnn =>
    if a.calls.length = CallStack.capacity then .error (.stackOverflow a.body.pc)
    else .ok (a.call nnn (a.body.pc + 2))
  | .ret =>
    match a.calls with
    | [] => .error (.stackUnderflow a.body.pc)
    | target :: calls => .ok ⟨a.body.goto target, calls⟩
  | i => (a.body.execute i).map fun body => { a with body }

def perform (a : CallListMachine) : Request → Reply × CallListMachine
  | .step =>
    match a.body.state with
    | .halted => (.refused .halted, a)
    | .waiting _ => (.done, a)
    | .running =>
      match a.body.fetch.bind fun opcode => a.execute (Instruction.decode opcode) with
      | .ok a' => (.done, a')
      | .error fault => (.refused fault, { a with body := a.body.halt fault })
  | request => ((a.body.perform request).1, { a with body := (a.body.perform request).2 })

def run (a : CallListMachine) (requests : List Request) : CallListMachine :=
  requests.foldl (fun a request => (a.perform request).2) a

def replies (a : CallListMachine) : List Request → List Reply
  | [] => []
  | request :: requests => (a.perform request).1 :: (a.perform request).2.replies requests

/-- The machine is the body, with the list found in the region of the call stack. -/
structure Represents (a : CallListMachine) (m : Machine) : Prop where
  sound : m.stack.Sound
  depth : m.stack.depth = a.calls.length
  body : { a.body with stack := m.stack } = m
  word : ∀ k target, a.calls.reverse[k]? = some target →
    m.memory.wordAt (CallStack.top - 2 * k) = target

/-- Both fail for the same reason, or both succeed and the results correspond. -/
def Matches : Except Fault CallListMachine → Except Fault Machine → Prop
  | .ok a, .ok m => a.Represents m
  | .error fault, .error fault' => fault = fault'
  | _, _ => False

theorem execute_call (a : CallListMachine) (nnn : UInt16) :
    a.execute (.call nnn) =
      if a.calls.length = CallStack.capacity then .error (.stackOverflow a.body.pc)
      else .ok (a.call nnn (a.body.pc + 2)) := rfl

theorem execute_ret (a : CallListMachine) :
    a.execute .ret =
      match a.calls with
      | [] => .error (.stackUnderflow a.body.pc)
      | target :: calls => .ok ⟨a.body.goto target, calls⟩ := rfl

theorem execute_of_not_usesStack {i : Instruction} (h : i.usesStack = false)
    (a : CallListMachine) : a.execute i = (a.body.execute i).map fun body => { a with body } := by
  cases i with
  | ret => cases h
  | call nnn => cases h
  | _ => rfl

end CallListMachine

namespace Machine

/-- An instruction that does not use the call stack does not see it. -/
theorem execute_with_stack {i : Instruction} (h : i.usesStack = false) (m : Machine)
    (s : CallStack) :
    { m with stack := s }.execute i = (m.execute i).map fun m' => { m' with stack := s } := by
  have hspares : Amendment.Spares { stack := fun _ => s } m i :=
    ⟨fun _ => rfl, fun _ => rfl, fun hused => absurd hused (by simp [h]), fun _ => rfl,
      fun _ _ _ => rfl, fun _ _ => rfl⟩
  exact execute_amend hspares

/-- Only a step can look at the call stack. -/
theorem perform_with_stack {request : Request} (h : request ≠ .step) (m : Machine)
    (s : CallStack) :
    { m with stack := s }.perform request =
      ((m.perform request).1, { (m.perform request).2 with stack := s }) :=
  perform_amend (a := { stack := fun _ => s }) (fun hstep => absurd hstep h) (fun _ => rfl)
    fun _ _ => rfl

end Machine

namespace CallListMachine

variable {a : CallListMachine} {m : Machine}

theorem Represents.pointer_eq (h : a.Represents m) :
    m.stack.pointer.toNat = CallStack.top - 2 * a.calls.length := by
  rw [← h.depth]
  exact h.sound.pointer_eq

theorem Represents.length_le (h : a.Represents m) : a.calls.length ≤ CallStack.capacity := by
  rw [← h.depth]
  exact h.sound.depth_le

theorem Represents.memory (h : a.Represents m) : m.memory = a.body.memory :=
  (congrArg Machine.memory h.body).symm

theorem Represents.pc (h : a.Represents m) : m.pc = a.body.pc :=
  (congrArg Machine.pc h.body).symm

theorem Represents.state (h : a.Represents m) : m.state = a.body.state :=
  (congrArg Machine.state h.body).symm

/-- The newest address is the word that a return reads. -/
theorem Represents.newest (h : a.Represents m) {target : UInt16} {calls : List UInt16}
    (hcalls : a.calls = target :: calls) :
    m.memory.wordAt (m.stack.pointer.toNat + 2) = target := by
  have hslot : m.stack.pointer.toNat + 2 = CallStack.top - 2 * calls.length := by
    have hpointer := h.pointer_eq
    have hle := h.length_le
    rw [hcalls, List.length_cons] at hpointer hle
    change _ = 0x1FE - 2 * (calls.length + 1) at hpointer
    change _ ≤ 24 at hle
    change _ = 0x1FE - 2 * calls.length
    omega
  rw [hslot]
  apply h.word
  simp [hcalls]

theorem call_represents (h : a.Represents m) (hlt : a.calls.length < CallStack.capacity)
    (nnn target : UInt16) :
    (a.call nnn target).Represents
      ({ m with
        stack := ⟨m.stack.pointer - 2⟩
        memory := m.memory.splice m.stack.pointer.toNat (Memory.wordBytes target) }.goto nnn) := by
  have hpointer := h.pointer_eq
  obtain ⟨hsound, hdepth⟩ := h.sound.pushed (h.depth ▸ hlt)
  refine ⟨hsound, ?_, ?_, ?_⟩
  · rw [call, List.length_cons, ← h.depth]
    exact hdepth
  · rw [call, ← h.memory, ← hpointer]
    exact congrArg (fun m' : Machine =>
      { m' with
        stack := ⟨m.stack.pointer - 2⟩
        memory := m.memory.splice m.stack.pointer.toNat (Memory.wordBytes target) }.goto nnn) h.body
  · intro k word hword
    change (m.memory.splice m.stack.pointer.toNat (Memory.wordBytes target)).wordAt _ = word
    rw [hpointer]
    change a.calls.length < 24 at hlt
    rw [call, List.reverse_cons, List.getElem?_append] at hword
    split at hword
    · next hk =>
      rw [List.length_reverse] at hk
      rw [Memory.wordAt_splice_of_le]
      · exact h.word k word hword
      · change 0x1FE - 2 * a.calls.length + 2 ≤ 0x1FE - 2 * k
        omega
    · next hk =>
      obtain ⟨hk', hnewest⟩ := List.getElem?_eq_some_iff.mp hword
      simp only [List.length_reverse, List.length_singleton] at hk hk'
      obtain rfl : k = a.calls.length := by omega
      simp only [List.getElem_singleton] at hnewest
      rw [Memory.wordAt_splice_wordBytes, hnewest]
      change 0x1FE - 2 * a.calls.length + 2 ≤ 4096
      omega

theorem return_represents (h : a.Represents m) {target : UInt16} {calls : List UInt16}
    (hcalls : a.calls = target :: calls) :
    (CallListMachine.mk (a.body.goto target) calls).Represents
      ({ m with stack := ⟨m.stack.pointer + 2⟩ }.goto target) := by
  have hdepth := h.depth
  rw [hcalls, List.length_cons] at hdepth
  obtain ⟨hsound, hpopped⟩ := h.sound.popped (by omega)
  refine ⟨hsound, ?_, ?_, ?_⟩
  · change CallStack.depth ⟨m.stack.pointer + 2⟩ = calls.length
    omega
  · exact congrArg (fun m' : Machine =>
      { m' with stack := ⟨m.stack.pointer + 2⟩ }.goto target) h.body
  · intro k word hword
    apply h.word
    obtain ⟨hk, -⟩ := List.getElem?_eq_some_iff.mp hword
    rw [hcalls, List.reverse_cons, List.getElem?_append_left hk, hword]

/-- No byte of the region of the call stack is stored to. -/
def SparesStack (e : Execution) : Prop :=
  ∀ adr, Memory.stackBase ≤ adr → adr < Memory.stackEnd → ¬ e.Stores adr

theorem sparesStack_of_storedLength {e : Execution} (h : e.instruction.storedLength = 0) :
    SparesStack e := by
  rintro adr - - ⟨hlow, hhigh⟩
  rw [h] at hhigh
  exact absurd hhigh (Nat.not_lt_of_le hlow)

/-- Without a call, the region of the call stack changes only by a store. -/
theorem wordAt_execute (h : a.Represents m) {m' : Machine} {i : Instruction}
    (hstack : i.usesStack = false) (hspare : SparesStack ⟨m, i⟩) (hexecute : m.execute i = .ok m')
    {k : Nat} (hk : k < a.calls.length) :
    m'.memory.wordAt (CallStack.top - 2 * k) = m.memory.wordAt (CallStack.top - 2 * k) := by
  have hle : a.calls.length ≤ 24 := h.length_le
  have hbyte : ∀ adr, Memory.stackBase ≤ adr → adr < Memory.stackEnd →
      m'.memory.byte adr = m.memory.byte adr := by
    intro adr hlow hhigh
    apply Machine.byte_execute hexecute h.sound
    intro hwrites
    rcases hwrites with ⟨-, hdisplay, -⟩ | ⟨⟨nnn, rfl⟩, -⟩ | hstore
    · exact absurd hhigh (Nat.not_lt.mpr (Nat.le_trans (by decide) hdisplay))
    · cases hstack
    · exact hspare adr hlow hhigh hstore
  have hlow : 0x1D0 ≤ 0x1FE - 2 * k := by omega
  have hhigh : 0x1FE - 2 * k + 1 < 0x200 := by omega
  exact Memory.wordAt_congr (hbyte _ hlow (Nat.lt_of_succ_lt hhigh))
    (hbyte _ (Nat.le_succ_of_le hlow) hhigh)

theorem other_matches (h : a.Represents m) {i : Instruction} (hstack : i.usesStack = false)
    (hspare : ∀ m', m.execute i = .ok m' → SparesStack ⟨m, i⟩) :
    Matches (a.execute i) (m.execute i) := by
  have hexecute : m.execute i = (a.body.execute i).map fun m' => { m' with stack := m.stack } := by
    calc
      m.execute i = { a.body with stack := m.stack }.execute i := by rw [h.body]
      _ = _ := Machine.execute_with_stack hstack a.body m.stack
  rw [execute_of_not_usesStack hstack]
  cases hbody : a.body.execute i with
  | error fault =>
    rw [hbody] at hexecute
    rw [hexecute]
    rfl
  | ok body =>
    rw [hbody] at hexecute
    have hok : m.execute i = .ok { body with stack := m.stack } := hexecute
    rw [hok]
    refine ⟨h.sound, h.depth, rfl, fun k target htarget => ?_⟩
    obtain ⟨hk, -⟩ := List.getElem?_eq_some_iff.mp htarget
    rw [List.length_reverse] at hk
    rw [wordAt_execute h hstack (hspare _ hok) hok hk]
    exact h.word k target htarget

theorem call_matches (h : a.Represents m) (nnn : UInt16) :
    Matches (a.execute (.call nnn)) (m.execute (.call nnn)) := by
  rw [execute_call, Machine.execute, h.sound.push_eq, h.depth, h.pc]
  by_cases hfull : a.calls.length = CallStack.capacity
  · rw [if_pos hfull, if_pos hfull]
    rfl
  · rw [if_neg hfull, if_neg hfull]
    exact call_represents h (Nat.lt_of_le_of_ne h.length_le hfull) nnn _

theorem ret_matches (h : a.Represents m) :
    Matches (a.execute .ret) (m.execute .ret) := by
  rw [execute_ret, Machine.execute, h.sound.pop_eq, h.depth, h.pc]
  cases hcalls : a.calls with
  | nil => rfl
  | cons target calls =>
    rw [if_neg (List.length_cons ▸ Nat.succ_ne_zero _), h.newest hcalls]
    exact return_represents h hcalls

theorem execute_matches (h : a.Represents m) (i : Instruction)
    (hspare : ∀ m', m.execute i = .ok m' → SparesStack ⟨m, i⟩) :
    Matches (a.execute i) (m.execute i) := by
  cases i with
  | call nnn => exact call_matches h nnn
  | ret => exact ret_matches h
  | _ => exact other_matches h rfl hspare

theorem represents_execute (h : a.Represents m) {m' : Machine} {i : Instruction}
    (hspare : SparesStack ⟨m, i⟩) (hexecute : m.execute i = .ok m') :
    ∃ a', a.execute i = .ok a' ∧ a'.Represents m' := by
  have hmatches := execute_matches h i fun _ _ => hspare
  rw [hexecute] at hmatches
  cases hlist : a.execute i with
  | error fault =>
    rw [hlist] at hmatches
    cases hmatches
  | ok a' =>
    rw [hlist] at hmatches
    exact ⟨a', rfl, hmatches⟩

theorem halt_represents (h : a.Represents m) (fault : Fault) :
    { a with body := a.body.halt fault }.Represents (m.halt fault) := by
  unfold Machine.halt
  split
  · exact ⟨h.sound, h.depth, congrArg (fun m' : Machine => { m' with state := .halted }) h.body,
      h.word⟩
  · exact h

theorem step_represents (h : a.Represents m)
    (hspare : ∀ e, m.executed .step = some e → SparesStack e) :
    (a.perform .step).1 = (m.perform .step).1 ∧
      (a.perform .step).2.Represents (m.perform .step).2 := by
  have hfetch : a.body.fetch = m.fetch := by
    rw [Machine.fetch, Machine.fetch, h.memory, h.pc]
  rw [perform, ← h.state, hfetch]
  cases hstate : m.state with
  | halted => simpa [Machine.perform, Machine.step_of_halted hstate] using h
  | waiting x => simpa [Machine.perform, Machine.step_of_waiting hstate] using h
  | running =>
    cases hopcode : m.fetch with
    | error fault =>
      rw [Machine.perform_step_of_error hstate (Machine.cycle_of_fetch_error hopcode)]
      exact ⟨rfl, halt_represents h fault⟩
    | ok opcode =>
      have hcycle := Machine.cycle_of_fetch hopcode
      have hmatches := execute_matches h (Instruction.decode opcode) fun m' hm' =>
        hspare ⟨m, Instruction.decode opcode⟩
          (Machine.executed_eq_some_iff.mpr ⟨rfl, rfl, hstate, opcode, m', hopcode, rfl, hm'⟩)
      simp only [Except.bind]
      cases hexecute : m.execute (Instruction.decode opcode) with
      | error fault =>
        rw [hexecute] at hmatches hcycle
        rw [Machine.perform_step_of_error hstate hcycle]
        cases hlist : a.execute (Instruction.decode opcode) with
        | error fault' =>
          rw [hlist] at hmatches
          obtain rfl : fault' = fault := hmatches
          exact ⟨rfl, halt_represents h fault'⟩
        | ok a' =>
          rw [hlist] at hmatches
          cases hmatches
      | ok m' =>
        rw [hexecute] at hmatches hcycle
        rw [Machine.perform_step_of_ok hstate hcycle]
        cases hlist : a.execute (Instruction.decode opcode) with
        | error fault' =>
          rw [hlist] at hmatches
          cases hmatches
        | ok a' =>
          rw [hlist] at hmatches
          exact ⟨rfl, hmatches⟩

theorem perform_represents (h : a.Represents m) (request : Request)
    (hspare : ∀ e, m.executed request = some e → SparesStack e) :
    (a.perform request).1 = (m.perform request).1 ∧
      (a.perform request).2.Represents (m.perform request).2 := by
  by_cases hstep : request = .step
  · subst hstep
    exact step_represents h hspare
  · have hlist : a.perform request =
        ((a.body.perform request).1, { a with body := (a.body.perform request).2 }) := by
      cases request with
      | step => exact absurd rfl hstep
      | _ => rfl
    have hperform : m.perform request = ((a.body.perform request).1,
        { (a.body.perform request).2 with stack := m.stack }) := by
      calc
        m.perform request = { a.body with stack := m.stack }.perform request := by rw [h.body]
        _ = _ := Machine.perform_with_stack hstep a.body m.stack
    have hidle : (m.perform request).2.memory = m.memory := by
      apply (Machine.idle_of_not_executed _).memory
      cases request with
      | step => exact absurd rfl hstep
      | _ => rfl
    rw [hperform] at hidle
    rw [hlist, hperform]
    refine ⟨rfl, h.sound, h.depth, rfl, fun k target htarget => ?_⟩
    rw [hidle]
    exact h.word k target htarget

end CallListMachine

end Chip8
