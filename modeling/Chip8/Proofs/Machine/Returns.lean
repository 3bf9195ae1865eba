import Chip8.Proofs.Machine.CallList

/-!
# Calls and returns

Over any run whose stores spare the region of the call stack, the machine with its return addresses
in memory is simulated by the machine with its return addresses in a list.  A call is matched by the
first return that brings the stack back to the depth of the call, and the address pushed by the call
is still at the bottom of what was pushed since, so that return goes to the instruction after the
call.
-/

namespace Chip8.CallListMachine

variable {a : CallListMachine} {m : Machine}

theorem represents_start {program : List UInt8} {config : Config} {chance : RandomSource}
    (h : Machine.start program config chance = .ok m) : (ofMachine m).Represents m := by
  obtain ⟨-, -, rfl⟩ := Machine.start_eq_ok_iff.mp h
  exact ⟨CallStack.sound_empty, CallStack.depth_empty, rfl, fun k target htarget => by
    simp [ofMachine] at htarget⟩

theorem run_represents (h : a.Represents m) (requests : List Request)
    (hspare : ∀ e ∈ m.executions requests, SparesStack e) :
    a.replies requests = m.replies requests ∧ (a.run requests).Represents (m.run requests) := by
  induction requests generalizing a m with
  | nil => exact ⟨rfl, h⟩
  | cons request requests ih =>
    obtain ⟨hreply, hnext⟩ := perform_represents h request fun e he =>
      hspare e (Machine.mem_executions_cons.mpr (.inl he))
    obtain ⟨hreplies, hrun⟩ := ih hnext fun e he =>
      hspare e (Machine.mem_executions_cons.mpr (.inr he))
    exact ⟨by rw [replies, Machine.replies, hreply, hreplies], hrun⟩

/-! ## Steps that call and return -/

theorem decode_call {opcode : Opcode} (h : opcode.family = 2) :
    Instruction.decode opcode = .call opcode.nnn := by
  simp [Instruction.decode, h]

theorem decode_ret : Instruction.decode 0x00EE = .ret := by
  decide

/-- A step that uses the stack stores nothing, so it is simulated whatever the program stores. -/
theorem step_represents_of_usesStack (h : a.Represents m) {opcode : Opcode}
    (hfetch : m.fetch = .ok opcode) (hstack : (Instruction.decode opcode).usesStack = true) :
    (a.perform .step).1 = (m.perform .step).1 ∧
      (a.perform .step).2.Represents (m.perform .step).2 := by
  apply step_represents h
  intro e he
  rw [Machine.executed_step_of_fetch hfetch he]
  apply sparesStack_of_storedLength
  cases hdecode : Instruction.decode opcode with
  | ret | call => rfl
  | _ => rw [hdecode] at hstack; cases hstack

theorem perform_step_of_fetch {opcode : Opcode} (hstate : a.body.state = .running)
    (hfetch : a.body.fetch = .ok opcode) :
    a.perform .step =
      match a.execute (Instruction.decode opcode) with
      | .ok a' => (.done, a')
      | .error fault => (.refused fault, { a with body := a.body.halt fault }) := by
  rw [perform, hstate, hfetch]
  rfl

/-- A call fails exactly when the list is full, and else puts the address of the next instruction on
it. -/
theorem call_step (h : a.Represents m) {opcode : Opcode} (hstate : m.state = .running)
    (hfetch : m.fetch = .ok opcode) (hcall : opcode.family = 2) :
    ((m.perform .step).1 = .refused (.stackOverflow m.pc) ↔ a.calls.length = 24) ∧
      (a.calls.length < 24 →
        (m.perform .step).1 = .done ∧ (m.perform .step).2.pc = opcode.nnn ∧
          (a.perform .step).2.calls = (m.pc + 2) :: a.calls) := by
  have hdecode := decode_call hcall
  obtain ⟨hreply, hnext⟩ := step_represents_of_usesStack h hfetch (by rw [hdecode]; rfl)
  rw [← hreply, hnext.pc]
  rw [h.state] at hstate
  rw [Machine.fetch, h.memory, h.pc] at hfetch
  rw [perform_step_of_fetch hstate hfetch, hdecode, execute_call, h.pc]
  by_cases hfull : a.calls.length = CallStack.capacity
  · rw [if_pos hfull]
    exact ⟨iff_of_true rfl hfull, fun hlt => absurd hfull (Nat.ne_of_lt hlt)⟩
  · rw [if_neg hfull]
    exact ⟨iff_of_false (fun hrefused => by cases hrefused) hfull, fun _ => ⟨rfl, rfl, rfl⟩⟩

/-- A return fails exactly when the list is empty, and else takes the newest address off it and
goes there. -/
theorem return_step (h : a.Represents m) (hstate : m.state = .running)
    (hfetch : m.fetch = .ok 0x00EE) :
    ((m.perform .step).1 = .refused (.stackUnderflow m.pc) ↔ a.calls = []) ∧
      ∀ target calls, a.calls = target :: calls →
        (m.perform .step).1 = .done ∧ (m.perform .step).2.pc = target ∧
          (a.perform .step).2.calls = calls := by
  obtain ⟨hreply, hnext⟩ := step_represents_of_usesStack h hfetch (by rw [decode_ret]; rfl)
  rw [← hreply, hnext.pc]
  rw [h.state] at hstate
  rw [Machine.fetch, h.memory, h.pc] at hfetch
  rw [perform_step_of_fetch hstate hfetch, decode_ret, execute_ret, h.pc]
  cases hcalls : a.calls with
  | nil => exact ⟨iff_of_true rfl rfl, fun target calls hcons => by cases hcons⟩
  | cons target calls =>
    refine ⟨iff_of_false (fun hrefused => by cases hrefused) (List.cons_ne_nil _ _), ?_⟩
    intro target' calls' hcons
    obtain ⟨rfl, rfl⟩ := List.cons.inj hcons
    exact ⟨rfl, rfl, rfl⟩

/-! ## Matching returns -/

/-- A return takes off the address it goes to; anything else pushes the address after its own or
leaves the list alone. -/
theorem calls_execute {a' : CallListMachine} {i : Instruction} (h : a.execute i = .ok a') :
    i = .ret ∧ a.calls = a'.body.pc :: a'.calls ∨
      i ≠ .ret ∧ (a'.calls = a.calls ∨ a'.calls = (a.body.pc + 2) :: a.calls) := by
  cases hstack : i.usesStack with
  | false =>
    rw [execute_of_not_usesStack hstack] at h
    obtain ⟨body, -, rfl⟩ := map_eq_ok_iff.mp h
    refine .inr ⟨?_, .inl rfl⟩
    rintro rfl
    cases hstack
  | true =>
    cases i with
    | call nnn =>
      rw [execute_call] at h
      split at h
      · cases h
      · obtain rfl := Except.ok.inj h
        exact .inr ⟨nofun, .inr rfl⟩
    | ret =>
      rw [execute_ret] at h
      split at h
      · cases h
      · next target calls hcalls =>
        obtain rfl := Except.ok.inj h
        exact .inl ⟨rfl, hcalls⟩
    | _ => cases hstack

/-- A request pushes one address, takes one off, or leaves the list alone. -/
theorem calls_perform (a : CallListMachine) (request : Request) :
    (a.perform request).2.calls = a.calls ∨
      (∃ target, (a.perform request).2.calls = target :: a.calls) ∨
        ∃ target, a.calls = target :: (a.perform request).2.calls := by
  cases request with
  | step =>
    rw [perform]
    split
    · exact .inl rfl
    · exact .inl rfl
    · split
      · next a' hcycle =>
        cases hfetch : a.body.fetch with
        | error fault => rw [hfetch] at hcycle; cases hcycle
        | ok opcode =>
          rw [hfetch] at hcycle
          obtain ⟨-, hpopped⟩ | ⟨-, hsame | hpushed⟩ := calls_execute hcycle
          · exact .inr (.inr ⟨_, hpopped⟩)
          · exact .inl hsame
          · exact .inr (.inl ⟨_, hpushed⟩)
      · exact .inl rfl
  | _ => exact .inl rfl

/-- What lies at the bottom of the list stays there as long as the list does not get shorter. -/
theorem suffix_run {base : List UInt16} (requests : List Request) (h : base <:+ a.calls)
    (hlength : ∀ p, p <+: requests → base.length ≤ (a.run p).calls.length) :
    base <:+ (a.run requests).calls := by
  induction requests generalizing a with
  | nil => exact h
  | cons request requests ih =>
    have hnext : base <:+ (a.perform request).2.calls := by
      have hle : base.length ≤ (a.perform request).2.calls.length :=
        hlength [request] ⟨requests, rfl⟩
      obtain heq | ⟨target, hpush⟩ | ⟨target, hpop⟩ := a.calls_perform request
      · rwa [heq]
      · rw [hpush]
        exact h.trans (List.suffix_cons ..)
      · rw [hpop] at h
        refine (List.suffix_cons_iff.mp h).resolve_left fun heq => ?_
        rw [heq, List.length_cons] at hle
        omega
    refine ih hnext fun p hp => ?_
    exact hlength (request :: p) ((List.prefix_cons_inj request).mpr hp)

/-- The first return to the depth of a call goes to the instruction after the call. -/
theorem matching_return (h : a.Represents m) {opcode : Opcode} (hstate : m.state = .running)
    (hfetch : m.fetch = .ok opcode) (hcall : opcode.family = 2)
    (hdone : (m.perform .step).1 = .done) {between : List Request}
    (hspare : ∀ e ∈ m.executions (.step :: between), SparesStack e)
    (hdeeper : ∀ p, p <+: between → m.stack.depth < (m.run (.step :: p)).stack.depth)
    (hdepth : (m.run (.step :: between)).stack.depth = m.stack.depth + 1)
    (hstate' : (m.run (.step :: between)).state = .running)
    (hfetch' : (m.run (.step :: between)).fetch = .ok 0x00EE) :
    ((m.run (.step :: between)).perform .step).1 = .done ∧
      ((m.run (.step :: between)).perform .step).2.pc = m.pc + 2 := by
  obtain ⟨hfull, hpushed⟩ := call_step h hstate hfetch hcall
  have hlt : a.calls.length < 24 := by
    refine Nat.lt_of_le_of_ne h.length_le fun hlength => ?_
    rw [hfull.mpr hlength] at hdone
    cases hdone
  obtain ⟨-, -, hcalls⟩ := hpushed hlt
  -- the list of any prefix of the run has the length of the stack
  have hrun : ∀ p, p <+: between → (a.run (.step :: p)).Represents (m.run (.step :: p)) := by
    rintro p ⟨rest, rfl⟩
    refine (run_represents h (.step :: p) fun e he => hspare e ?_).2
    rw [← List.cons_append, Machine.executions_append]
    exact List.mem_append_left _ he
  have hsuffix : (m.pc + 2) :: a.calls <:+ (a.run (.step :: between)).calls := by
    apply suffix_run between
    · exact hcalls ▸ List.suffix_refl _
    · intro p hp
      have hle := hdeeper p hp
      rw [(hrun p hp).depth, h.depth] at hle
      exact hle
  have hlast := hrun between (List.prefix_refl _)
  have heq : (a.run (.step :: between)).calls = (m.pc + 2) :: a.calls := by
    refine (hsuffix.eq_of_length ?_).symm
    rw [← hlast.depth, hdepth, List.length_cons, h.depth]
  obtain ⟨hreturned, hpc, -⟩ := (return_step hlast hstate' hfetch').2 _ _ heq
  exact ⟨hreturned, hpc⟩

/-- In every run whose stores spare the region of the call stack, the machine is simulated by the one
that keeps its calls in a list: same replies, same state, and entry `k` from the oldest is the word
at `0x1FE - 2 * k`.  A call fails exactly when there are 24 entries, a return exactly when there is
none; and the return that matches a call goes to the instruction after it. -/
theorem calls_simulated_by_list {program : List UInt8} {config : Config} {chance : RandomSource}
    {m₀ : Machine} (hstart : Machine.start program config chance = .ok m₀)
    (requests : List Request) (hspare : ∀ e ∈ m₀.executions requests, SparesStack e) :
    let a := (ofMachine m₀).run requests
    let m := m₀.run requests
    (ofMachine m₀).replies requests = m₀.replies requests ∧
      { a.body with stack := m.stack } = m ∧
      (m.stack.depth = a.calls.length ∧ a.calls.length ≤ 24 ∧
        ∀ k target, a.calls.reverse[k]? = some target →
          m.memory.wordAt (0x1FE - 2 * k) = target) ∧
      (∀ opcode, m.state = .running → m.fetch = .ok opcode → opcode.family = 2 →
        ((m.perform .step).1 = .refused (.stackOverflow m.pc) ↔ a.calls.length = 24) ∧
          (a.calls.length < 24 →
            (m.perform .step).1 = .done ∧ (m.perform .step).2.pc = opcode.nnn ∧
              (a.perform .step).2.calls = (m.pc + 2) :: a.calls)) ∧
      (m.state = .running → m.fetch = .ok 0x00EE →
        ((m.perform .step).1 = .refused (.stackUnderflow m.pc) ↔ a.calls = []) ∧
          ∀ target calls, a.calls = target :: calls →
            (m.perform .step).1 = .done ∧ (m.perform .step).2.pc = target ∧
              (a.perform .step).2.calls = calls) ∧
      ∀ before between opcode, requests = before ++ .step :: between →
        let c := m₀.run before
        c.state = .running → c.fetch = .ok opcode → opcode.family = 2 →
          (c.perform .step).1 = .done →
          (∀ p, p <+: between → c.stack.depth < (c.run (.step :: p)).stack.depth) →
          m.stack.depth = c.stack.depth + 1 → m.state = .running → m.fetch = .ok 0x00EE →
            (m.perform .step).1 = .done ∧ (m.perform .step).2.pc = c.pc + 2 := by
  intro a m
  have hinitial := represents_start hstart
  obtain ⟨hreplies, hrun⟩ := run_represents hinitial requests hspare
  refine ⟨hreplies, hrun.body, ⟨hrun.depth, hrun.length_le, hrun.word⟩,
    fun opcode hstate hfetch hcall => call_step hrun hstate hfetch hcall,
    fun hstate hfetch => return_step hrun hstate hfetch, ?_⟩
  rintro before between opcode rfl
  intro c hcstate hcfetch hcall hdone hdeeper hdepth hstate hfetch
  rw [Machine.executions_append] at hspare
  have hc := (run_represents hinitial before fun e he =>
    hspare e (List.mem_append_left _ he)).2
  have hm : m = c.run (.step :: between) := m₀.run_append before (.step :: between)
  rw [hm] at hdepth hstate hfetch ⊢
  exact matching_return hc hcstate hcfetch hcall hdone
    (fun e he => hspare e (List.mem_append_right _ he)) hdeeper hdepth hstate hfetch

/-- A call of a subroutine that only returns, and a jump to itself. -/
def callOnce : Machine :=
  .loaded [0x22, 0x04, 0x12, 0x02, 0x00, 0xEE] .standard (.ofSeed 1)

/-- The subroutine goes back to the jump after the call. -/
theorem callOnce_returns :
    (callOnce.run [.step]).stack.depth = ((ofMachine callOnce).run [.step]).calls.length ∧
      ((callOnce.run [.step]).perform .step).1 = .done ∧
      ((callOnce.run [.step]).perform .step).2.pc = 0x202 := by
  have hstart : Machine.start [0x22, 0x04, 0x12, 0x02, 0x00, 0xEE] .standard (.ofSeed 1) =
      .ok callOnce :=
    Machine.start_eq_ok_iff.mpr ⟨by decide, by decide, rfl⟩
  have hcall : callOnce.fetch = .ok 0x2204 :=
    Machine.fetch_eq_ok_iff.mpr ⟨by decide, by decide +kernel⟩
  have hcalled : (callOnce.perform .step).1 = .done ∧
      (callOnce.run [.step]).stack.depth = callOnce.stack.depth + 1 ∧
      (callOnce.run [.step]).state = .running ∧
      (callOnce.run [.step]).pc.toNat + 2 ≤ Memory.size ∧
      (callOnce.run [.step]).memory.wordAt (callOnce.run [.step]).pc.toNat = 0x00EE := by
    decide +kernel
  obtain ⟨hdone, hdeep, hstate, hreturn⟩ := hcalled
  have hspare : ∀ e ∈ callOnce.executions [.step], SparesStack e := by
    intro e he
    have hexecuted : callOnce.executed .step = some e :=
      (Machine.mem_executions_cons.mp he).resolve_right List.not_mem_nil
    rw [Machine.executed_step_of_fetch hcall hexecuted]
    exact sparesStack_of_storedLength rfl
  have hdeeper : ∀ p, p <+: [] → callOnce.stack.depth < (callOnce.run (.step :: p)).stack.depth := by
    intro p hp
    obtain rfl := List.prefix_nil.mp hp
    exact Nat.lt_of_succ_le (Nat.le_of_eq hdeep.symm)
  obtain ⟨-, -, ⟨hdepth, -⟩, -, -, hmatching⟩ := calls_simulated_by_list hstart [.step] hspare
  refine ⟨hdepth, ?_⟩
  exact hmatching [] [] 0x2204 rfl rfl hcall rfl hdone hdeeper hdeep hstate
    (Machine.fetch_eq_ok_iff.mpr hreturn)

end Chip8.CallListMachine
