import Chip8.Proofs.Instruction.Catalogue
import Chip8.Proofs.Keypad
import Chip8.Proofs.Machine.Amendment
import Chip8.Proofs.Machine.Reachable

/-!
# Interleaving

A host drives a machine on three lanes: the clock of the timers, the keypad, and the program with
its steps.  The lanes meet only in five instructions, which read or set a timer or look at a key.
Unless one of them is about to be executed, requests of different lanes commute; and a run that
executes none of them depends on the order within each lane alone, and not on how the lanes are
interleaved.
-/

namespace Chip8

inductive Lane where
  | timers
  | keypad
  | program
deriving DecidableEq

def Request.lane : Request → Lane
  | .tick => .timers
  | .keyDown _ | .keyUp _ => .keypad
  | .step | .resolveKey _ | .takeRedraw => .program

/-- The event that the request passes on to the keypad. -/
def Request.keyEvent : Request → Option KeyEvent
  | .keyDown code => some (.down code)
  | .keyUp code => some (.up code)
  | .step | .tick | .resolveKey _ | .takeRedraw => none

/-- The lists have the same requests, and those of one lane in the same order. -/
def Request.Reordering (rs rs' : List Request) : Prop :=
  ∀ lane, rs.filter (·.lane = lane) = rs'.filter (·.lane = lane)

/-! ## The instructions that join the lanes -/

namespace Instruction

variable {w : Opcode}

theorem usesTimers_decode_iff :
    (decode w).usesTimers = true ↔ ∃ p ∈ ["FX07", "FX15", "FX18"], w.Fits p := by
  apply decode_iff_of_rows
  · simp [catalogue, usesTimers]
  · exact fun _ => rfl
  · decide

theorem usesKeypad_decode_iff :
    (decode w).usesKeypad = true ↔ ∃ p ∈ ["EX9E", "EXA1"], w.Fits p := by
  apply decode_iff_of_rows
  · simp [catalogue, usesKeypad]
  · exact fun _ => rfl
  · decide

end Instruction

namespace Machine

variable {m m' : Machine} {request : Request} {rs rs' : List Request} {lane : Lane}

/-- The machine runs, and the opcode that it is about to execute fits one of the patterns. -/
def meets (m : Machine) (patterns : List String) : Bool :=
  match m.state, m.fetch with
  | .running, .ok w => patterns.any fun p => decide (w.Fits p)
  | _, _ => false

theorem meets_of_fetch {w : Opcode} {patterns : List String} (hstate : m.state = .running)
    (hfetch : m.fetch = .ok w) : m.meets patterns = true ↔ ∃ p ∈ patterns, w.Fits p := by
  simp [meets, hstate, hfetch]

/-- The machine with its timers and its keypad changed. -/
def adjust (f : Timers → Timers) (g : Keypad → Keypad) (m : Machine) : Machine :=
  { m with timers := f m.timers, keypad := g m.keypad }

variable {f : Timers → Timers} {g : Keypad → Keypad}

/-! ## Requests that commute -/

/-- A request of the program neither sees nor disturbs a change of what it does not use. -/
theorem perform_adjust (hlane : request.lane = .program)
    (htimers : request = .step → m.meets ["FX07", "FX15", "FX18"] = true → f = id)
    (hkeypad : request = .step → m.meets ["EX9E", "EXA1"] = true → g = id) :
    (m.adjust f g).perform request =
      ((m.perform request).1, (m.perform request).2.adjust f g) := by
  refine perform_amend (a := { timers := f, keypad := g }) (fun hstep hstate w hfetch => ?_)
    (fun htick => ?_) (fun code hkey => ?_)
  · have hmeets : ∀ patterns, (∃ p ∈ patterns, w.Fits p) → m.meets patterns = true :=
      fun patterns => (meets_of_fetch hstate hfetch).mpr
    exact ⟨fun hused => htimers hstep (hmeets _ (Instruction.usesTimers_decode_iff.mp hused)),
      fun hused => hkeypad hstep (hmeets _ (Instruction.usesKeypad_decode_iff.mp hused)),
      fun _ => rfl, fun _ => rfl, fun _ _ _ => rfl, fun _ _ => rfl⟩
  · subst htick
    cases hlane
  · rcases hkey with rfl | rfl <;> cases hlane

theorem perform_timers (h : request.lane = .timers) (m : Machine) :
    m.perform request = (.done, m.adjust Timers.tick id) := by
  cases request with
  | tick => rfl
  | step | keyDown _ | keyUp _ | resolveKey _ | takeRedraw => cases h

theorem perform_keyUp_of_lt (m : Machine) {code : UInt8} (hcode : code.toNat < 16) :
    m.perform (.keyUp code) = (.done, { m with keypad := m.keypad.heed (.up code) }) := by
  rw [perform_keyUp, Keypad.heed, Keypad.release, Key.ofCode, dif_pos hcode]
  rfl

theorem perform_keyDown_of_lt (m : Machine) {code : UInt8} (hcode : code.toNat < 16) :
    m.perform (.keyDown code) = (.done, { m with keypad := m.keypad.heed (.down code) }) := by
  rw [perform_keyDown, Keypad.heed, Keypad.press, Key.ofCode, dif_pos hcode]
  rfl

/-- A request that passes an event on gets the same reply from every machine, and does no more than
that. -/
theorem perform_of_keyEvent {e : KeyEvent} (h : request.keyEvent = some e) :
    ∃ reply, ∀ m : Machine, m.perform request = (reply, { m with keypad := m.keypad.heed e }) := by
  cases request with
  | keyDown code =>
    cases h
    by_cases hcode : code.toNat < 16
    · exact ⟨.done, fun m => m.perform_keyDown_of_lt hcode⟩
    · refine ⟨.refused (.invalidKey code), fun m => ?_⟩
      rw [perform_keyDown, Keypad.heed, Keypad.press, Key.ofCode, dif_neg hcode]
      rfl
  | keyUp code =>
    cases h
    by_cases hcode : code.toNat < 16
    · exact ⟨.done, fun m => m.perform_keyUp_of_lt hcode⟩
    · refine ⟨.refused (.invalidKey code), fun m => ?_⟩
      rw [perform_keyUp, Keypad.heed, Keypad.release, Key.ofCode, dif_neg hcode]
      rfl
  | step | tick | resolveKey _ | takeRedraw => cases h

theorem perform_keypad (h : request.lane = .keypad) :
    ∃ reply g, ∀ m : Machine, m.perform request = (reply, m.adjust id g) := by
  cases hevent : request.keyEvent with
  | none => cases request <;> cases h <;> cases hevent
  | some e =>
    obtain ⟨reply, hperform⟩ := perform_of_keyEvent hevent
    exact ⟨reply, (·.heed e), hperform⟩

/-- In either order the requests lead to the same machine, and each gets the same reply. -/
def Commute (m : Machine) (a b : Request) : Prop :=
  m.run [a, b] = m.run [b, a] ∧
    (m.perform a).1 = ((m.perform b).2.perform a).1 ∧
      ((m.perform a).2.perform b).1 = (m.perform b).1

/-- A request that adjusts every machine alike commutes with one that does not mind. -/
theorem commute_of_adjust {a b : Request} {reply : Reply}
    (ha : ∀ m : Machine, m.perform a = (reply, m.adjust f g))
    (hb : (m.adjust f g).perform b = ((m.perform b).1, (m.perform b).2.adjust f g)) :
    m.Commute a b := by
  simp [Commute, ha, hb]

theorem commute_timers_keypad {a b : Request} (ha : a.lane = .timers) (hb : b.lane = .keypad) :
    m.Commute a b := by
  obtain ⟨reply, g, hkey⟩ := perform_keypad hb
  refine commute_of_adjust (perform_timers ha) ?_
  rw [hkey, hkey]
  rfl

theorem commute_timers_program {a b : Request} (ha : a.lane = .timers) (hb : b.lane = .program)
    (h : b = .step → m.meets ["FX07", "FX15", "FX18"] = false) : m.Commute a b := by
  refine commute_of_adjust (perform_timers ha) (perform_adjust hb ?_ fun _ _ => rfl)
  intro hstep hmeets
  cases (h hstep).symm.trans hmeets

theorem commute_keypad_program {a b : Request} (ha : a.lane = .keypad) (hb : b.lane = .program)
    (h : b = .step → m.meets ["EX9E", "EXA1"] = false) : m.Commute a b := by
  obtain ⟨reply, g, hkey⟩ := perform_keypad ha
  refine commute_of_adjust hkey (perform_adjust hb (fun _ _ => rfl) ?_)
  intro hstep hmeets
  cases (h hstep).symm.trans hmeets

/-! ## Runs that keep the lanes apart -/

/-- The opcodes that join two lanes. -/
def joining : List String :=
  ["FX07", "FX15", "FX18", "EX9E", "EXA1"]

/-- The run executes none of the opcodes that join two lanes. -/
def Separate (m : Machine) (rs : List Request) : Prop :=
  ∀ e ∈ m.executions rs, e.machine.meets joining = false

theorem meets_joining :
    m.meets joining = (m.meets ["FX07", "FX15", "FX18"] || m.meets ["EX9E", "EXA1"]) := by
  unfold meets joining
  split
  · simp only [List.any_cons, List.any_nil, Bool.or_false, Bool.or_assoc]
  · rfl

theorem execute_ok_of_uses {i : Instruction} (h : i.usesTimers = true ∨ i.usesKeypad = true) :
    ∃ m', m.execute i = .ok m' := by
  cases i with
  | loadDelay | setDelay | setSound | skipIf => exact ⟨_, rfl⟩
  | _ => simp [Instruction.usesTimers, Instruction.usesKeypad] at h

/-- An opcode that joins two lanes is always executed when it is met. -/
theorem executed_of_meets (h : m.meets joining = true) :
    ∃ i, m.executed .step = some ⟨m, i⟩ := by
  unfold meets at h
  split at h
  · next w hstate hfetch =>
    have huses : (Instruction.decode w).usesTimers = true ∨
        (Instruction.decode w).usesKeypad = true := by
      rw [Instruction.usesTimers_decode_iff, Instruction.usesKeypad_decode_iff]
      simpa [joining, or_assoc] using h
    obtain ⟨m', hexecute⟩ := execute_ok_of_uses (m := m) huses
    exact ⟨Instruction.decode w,
      executed_eq_some_iff.mpr ⟨rfl, rfl, hstate, w, m', hfetch, rfl, hexecute⟩⟩
  · cases h

theorem separate_cons :
    m.Separate (request :: rs) ↔
      (request = .step → m.meets joining = false) ∧ (m.perform request).2.Separate rs := by
  simp only [Separate, mem_executions_cons]
  constructor
  · intro h
    refine ⟨fun hstep => ?_, fun e he => h e (.inr he)⟩
    subst hstep
    cases hmeets : m.meets joining with
    | false => rfl
    | true =>
      obtain ⟨i, hexecuted⟩ := executed_of_meets hmeets
      exact hmeets.symm.trans (h _ (.inl hexecuted))
  · intro h e he
    obtain ⟨hfirst, hothers⟩ := h
    rcases he with hexecuted | he
    · obtain ⟨hstep, hm, -⟩ := executed_eq_some_iff.mp hexecuted
      rw [hm]
      exact hfirst hstep
    · exact hothers e he

/-- Where no opcode joins the lanes, a request of the program is indifferent to timers and keypad. -/
theorem perform_of_quiet (f : Timers → Timers) (g : Keypad → Keypad)
    (hlane : request.lane = .program) (hquiet : request = .step → m.meets joining = false) :
    (m.adjust f g).perform request =
      ((m.perform request).1, (m.perform request).2.adjust f g) := by
  apply perform_adjust hlane
  · intro hstep hmeets
    have hjoining := hquiet hstep
    rw [meets_joining, hmeets] at hjoining
    cases hjoining
  · intro hstep hmeets
    have hjoining := hquiet hstep
    rw [meets_joining, hmeets, Bool.or_true] at hjoining
    cases hjoining

/-- The machines have in common what belongs to the lane. -/
def Agree : Lane → Machine → Machine → Prop
  | .timers, m, m' => m'.timers = m.timers
  | .keypad, m, m' => m'.keypad = m.keypad
  | .program, m, m' => ∃ timers keypad, m' = { m with timers, keypad }

theorem Agree.refl (lane : Lane) (m : Machine) : Agree lane m m := by
  cases lane with
  | timers | keypad => exact Eq.refl _
  | program => exact ⟨m.timers, m.keypad, rfl⟩

/-- Machines that agree with one machine in each lane are the same. -/
theorem eq_of_agree {c : Lane → Machine} (h : ∀ lane, Agree lane m (c lane))
    (h' : ∀ lane, Agree lane m' (c lane)) : m = m' := by
  have htimers : m.timers = m'.timers := (h .timers).symm.trans (h' .timers)
  have hkeypad : m.keypad = m'.keypad := (h .keypad).symm.trans (h' .keypad)
  obtain ⟨timers, keypad, hcommon⟩ := h .program
  obtain ⟨timers', keypad', hcommon'⟩ := h' .program
  have hrest := hcommon.symm.trans hcommon'
  cases m
  cases m'
  simp_all

/-- Requests of a lane do the same to machines that agree in it. -/
theorem perform_own (hagree : Agree request.lane m m')
    (hquiet : request = .step → m.meets joining = false) :
    (m'.perform request).1 = (m.perform request).1 ∧
      Agree request.lane (m.perform request).2 (m'.perform request).2 := by
  cases hlane : request.lane with
  | timers =>
    rw [hlane] at hagree
    rw [perform_timers hlane, perform_timers hlane]
    exact ⟨rfl, congrArg Timers.tick hagree⟩
  | keypad =>
    rw [hlane] at hagree
    obtain ⟨reply, g, hperform⟩ := perform_keypad hlane
    rw [hperform, hperform]
    exact ⟨rfl, congrArg g hagree⟩
  | program =>
    rw [hlane] at hagree
    obtain ⟨timers, keypad, rfl⟩ := hagree
    have hperform : { m with timers, keypad }.perform request =
        ((m.perform request).1, { (m.perform request).2 with timers, keypad }) :=
      perform_of_quiet (fun _ => timers) (fun _ => keypad) hlane hquiet
    rw [hperform]
    exact ⟨rfl, timers, keypad, rfl⟩

/-- Requests of another lane do not touch what belongs to this one. -/
theorem perform_other (hlane : request.lane ≠ lane) (hagree : Agree lane m m')
    (hquiet : request = .step → m.meets joining = false) :
    Agree lane (m.perform request).2 m' := by
  cases hother : request.lane with
  | timers =>
    rw [perform_timers hother]
    cases lane with
    | timers => exact absurd hother hlane
    | keypad => exact hagree
    | program =>
      obtain ⟨timers, keypad, rfl⟩ := hagree
      exact ⟨timers, keypad, rfl⟩
  | keypad =>
    obtain ⟨reply, g, hperform⟩ := perform_keypad hother
    rw [hperform]
    cases lane with
    | keypad => exact absurd hother hlane
    | timers => exact hagree
    | program =>
      obtain ⟨timers, keypad, rfl⟩ := hagree
      exact ⟨timers, keypad, rfl⟩
  | program =>
    -- what a request would not disturb if it were changed, it leaves alone
    have hperform := perform_of_quiet (fun _ => m.timers) (fun _ => m.keypad) hother hquiet
    have hkept : (m.perform request).2 =
        (m.perform request).2.adjust (fun _ => m.timers) (fun _ => m.keypad) :=
      congrArg Prod.snd hperform
    rw [hkept]
    cases lane with
    | program => exact absurd hother hlane
    | timers | keypad => exact hagree

/-- What a run does in a lane, it does by the requests of the lane alone. -/
theorem run_lane (hagree : Agree lane m m') (hseparate : m.Separate rs) :
    Agree lane (m.run rs) (m'.run (rs.filter (·.lane = lane))) ∧
      (rs.zip (m.replies rs)).filter (·.1.lane = lane) =
        (rs.filter (·.lane = lane)).zip (m'.replies (rs.filter (·.lane = lane))) := by
  induction rs generalizing m m' with
  | nil => exact ⟨hagree, rfl⟩
  | cons request rs ih =>
    obtain ⟨hquiet, hothers⟩ := separate_cons.mp hseparate
    by_cases hlane : request.lane = lane
    · subst hlane
      obtain ⟨hreply, hnext⟩ := perform_own hagree hquiet
      obtain ⟨hrun, hreplies⟩ := ih hnext hothers
      simp [replies, hreply, hrun, hreplies]
    · obtain ⟨hrun, hreplies⟩ := ih (perform_other hlane hagree hquiet) hothers
      simp [replies, hlane, hrun, hreplies]

theorem meets_of_agree {patterns : List String} (h : Agree .program m m') :
    m'.meets patterns = m.meets patterns := by
  obtain ⟨timers, keypad, rfl⟩ := h
  rfl

/-- Whether a run keeps the lanes apart is seen from its program. -/
theorem separate_iff (hagree : Agree .program m m') :
    m.Separate rs ↔ m'.Separate (rs.filter (·.lane = .program)) := by
  induction rs generalizing m m' with
  | nil => simp [Separate, executions]
  | cons request rs ih =>
    rw [separate_cons]
    by_cases hlane : request.lane = .program
    · rw [List.filter_cons_of_pos (by simpa using hlane), separate_cons, meets_of_agree hagree]
      apply and_congr_right
      intro hquiet
      have hnext := perform_own (hlane ▸ hagree) hquiet
      rw [hlane] at hnext
      exact ih hnext.2
    · have hstep : request = .step → m.meets joining = false := by
        rintro rfl
        exact absurd rfl hlane
      rw [List.filter_cons_of_neg (by simpa using hlane), ih (perform_other hlane hagree hstep)]
      exact and_iff_right hstep

theorem run_reordering (hseparate : m.Separate rs) (horder : Request.Reordering rs rs') :
    m.run rs = m.run rs' ∧
      ∀ lane, (rs.zip (m.replies rs)).filter (·.1.lane = lane) =
        (rs'.zip (m.replies rs')).filter (·.1.lane = lane) := by
  have hseparate' : m.Separate rs' := by
    rw [separate_iff (Agree.refl .program m), ← horder .program]
    exact (separate_iff (Agree.refl .program m)).mp hseparate
  have hrun : ∀ lane, _ := fun lane => run_lane (Agree.refl lane m) hseparate
  have hrun' : ∀ lane, _ := fun lane => run_lane (Agree.refl lane m) hseparate'
  constructor
  · apply eq_of_agree (c := fun lane => m.run (rs.filter (·.lane = lane))) fun lane => (hrun lane).1
    intro lane
    rw [horder lane]
    exact (hrun' lane).1
  · intro lane
    rw [(hrun lane).2, (hrun' lane).2, horder lane]

/-- Ticks, keys and steps commute unless an opcode that joins their lanes is about to be executed;
and without such opcodes a run may be reordered as long as each lane keeps its order. -/
theorem lanes_commute (m : Machine) :
    (m.meets ["FX07", "FX15", "FX18"] = false → m.Commute .tick .step) ∧
    (m.meets ["EX9E", "EXA1"] = false →
      ∀ code, m.Commute (.keyDown code) .step ∧ m.Commute (.keyUp code) .step) ∧
    (∀ code, m.Commute .tick (.keyDown code) ∧ m.Commute .tick (.keyUp code) ∧
      m.Commute .tick (.resolveKey code)) ∧
    (∀ code code', m.Commute (.keyDown code) (.resolveKey code') ∧
      m.Commute (.keyUp code) (.resolveKey code')) ∧
    ∀ rs rs', (∀ e ∈ m.executions rs,
        e.machine.meets ["FX07", "FX15", "FX18", "EX9E", "EXA1"] = false) →
      Request.Reordering rs rs' →
        m.run rs = m.run rs' ∧
          ∀ lane, (rs.zip (m.replies rs)).filter (·.1.lane = lane) =
            (rs'.zip (m.replies rs')).filter (·.1.lane = lane) := by
  refine ⟨fun h => ?_, fun h code => ⟨?_, ?_⟩, fun code => ⟨?_, ?_, ?_⟩, fun code code' => ⟨?_, ?_⟩,
    fun rs rs' hseparate horder => run_reordering hseparate horder⟩
  · exact commute_timers_program rfl rfl fun _ => h
  · exact commute_keypad_program rfl rfl fun _ => h
  · exact commute_keypad_program rfl rfl fun _ => h
  · exact commute_timers_keypad rfl rfl
  · exact commute_timers_keypad rfl rfl
  · exact commute_timers_program rfl rfl nofun
  · exact commute_keypad_program rfl rfl nofun
  · exact commute_keypad_program rfl rfl nofun

/-- A program waits for a key, with a tick and two keys in between, or before it begins. -/
theorem wait_interleaved :
    let m := loaded [0x60, 0x07, 0xF2, 0x0A] .standard (.ofSeed 1)
    m.run [.step, .keyDown 4, .step, .tick, .keyUp 4, .resolveKey 4] =
      m.run [.tick, .keyDown 4, .keyUp 4, .step, .step, .resolveKey 4] := by
  intro m
  obtain ⟨-, -, -, -, hreorder⟩ := lanes_commute m
  have hseparate : ∀ e ∈ m.executions [.step, .keyDown 4, .step, .tick, .keyUp 4, .resolveKey 4],
      e.machine.meets ["FX07", "FX15", "FX18", "EX9E", "EXA1"] = false := by decide +kernel
  have horder : Request.Reordering [.step, .keyDown 4, .step, .tick, .keyUp 4, .resolveKey 4]
      [.tick, .keyDown 4, .keyUp 4, .step, .step, .resolveKey 4] := by
    intro lane
    cases lane <;> rfl
  exact (hreorder _ _ hseparate horder).1

end Machine

end Chip8
