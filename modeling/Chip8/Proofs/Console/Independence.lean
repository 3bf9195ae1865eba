import Chip8.Console.Mute
import Chip8.Console.Rehearsal
import Chip8.Proofs.Console.Frame
import Chip8.Proofs.Machine.Reachable

/-!
# What the devices cannot change

The machine of a console depends on the display and the buzzer in no way, so it is the same whatever
these are and whenever they fail.  The keyboard has its say by what a look at it brings; a look that
fails brings nothing, and the frame that takes it does nothing else.
-/

namespace Chip8

namespace Flaky

variable {κ : Type}

/-- The same device, with the `k`-th call from now left out of its failures. -/
def without (k : Nat) (f : Flaky κ) : Flaky κ :=
  { f with fails := fun call => if call < f.calls + k then f.fails call else f.fails (call + 1) }

/-- The two devices are the same and will fail at the same calls from now. -/
structure Same (f f' : Flaky κ) : Prop where
  device : f.device = f'.device
  fails : ∀ n, f.fails (f.calls + n) = f'.fails (f'.calls + n)

theorem read_eq [Keyboard κ] (f : Flaky κ) :
    Keyboard.read f =
      match f.fails f.calls with
      | some why => ⟨.error why, [], { f with calls := f.calls + 1 }⟩
      | none =>
        let reading := Keyboard.read f.device
        ⟨reading.events, reading.unmapped,
          { f with device := reading.keyboard, calls := f.calls + 1 }⟩ := rfl

/-- Once a call has failed, the device is the one that never had that call to fail. -/
theorem same_without {f : Flaky κ} : Same { f with calls := f.calls + 1 } (f.without 0) where
  device := rfl
  fails n := by
    have hnow : ¬ f.calls + n < f.calls + 0 := by omega
    rw [without]
    simp only [hnow, if_false]
    rw [Nat.add_right_comm]

theorem without_next (f : Flaky κ) (device : κ) (k : Nat) :
    { f.without (k + 1) with device, calls := f.calls + 1 } =
      ({ f with device, calls := f.calls + 1 } : Flaky κ).without k := by
  simp only [without, Nat.add_assoc, Nat.add_comm 1 k]

theorem without_fails_now (f : Flaky κ) (k : Nat) :
    (f.without (k + 1)).fails (f.without (k + 1)).calls = f.fails f.calls :=
  if_pos (show f.calls < f.calls + (k + 1) by omega)

end Flaky

/-- Two readings bring the same, and leave related keyboards. -/
structure Reading.Alike {κ κ' : Type} (R : κ → κ' → Prop) (r : Reading κ) (r' : Reading κ') :
    Prop where
  events : r.events = r'.events
  unmapped : r.unmapped = r'.unmapped
  keyboard : R r.keyboard r'.keyboard

theorem Flaky.read_alike_of_same {κ : Type} [Keyboard κ] {f f' : Flaky κ} (h : f.Same f') :
    (Keyboard.read f).Alike Same (Keyboard.read f') := by
  have hnow : f.fails f.calls = f'.fails f'.calls := h.fails 0
  have hlater (n : Nat) : f.fails (f.calls + 1 + n) = f'.fails (f'.calls + 1 + n) := by
    rw [Nat.add_assoc, Nat.add_assoc]
    exact h.fails (1 + n)
  rw [read_eq, read_eq, hnow]
  cases f'.fails f'.calls with
  | some why => exact ⟨rfl, rfl, h.device, hlater⟩
  | none =>
    rw [h.device]
    exact ⟨rfl, rfl, rfl, hlater⟩

/-- A look before the call that is left out brings the same. -/
theorem Flaky.read_alike_without {κ : Type} [Keyboard κ] (f : Flaky κ) (k : Nat) :
    (Keyboard.read f).Alike (fun g g' => g' = g.without k) (Keyboard.read (f.without (k + 1))) := by
  rw [read_eq, read_eq, without_fails_now]
  cases f.fails f.calls with
  | some why => exact ⟨rfl, rfl, without_next f f.device k⟩
  | none => exact ⟨rfl, rfl, without_next f _ k⟩

namespace Console

variable {κ κ' δ δ' β β' : Type}

/-- The machines after each of a number of frames. -/
def machinesAfter [Keyboard κ] [Display δ] [Buzzer β] : Nat → Console κ δ β → List Machine
  | 0, _ => []
  | n + 1, c => (c.after frame).machine :: machinesAfter n (c.after frame)

/-- Two consoles that may differ in their devices, but whose keyboards are related. -/
structure Alike (R : κ → κ' → Prop) (c : Console κ δ β) (c' : Console κ' δ' β') : Prop where
  session : c.session = c'.session
  speed : c.speed = c'.speed
  keyboard : R c.keyboard c'.keyboard

section

variable [Keyboard κ] [Display δ] [Buzzer β] [Keyboard κ'] [Display δ'] [Buzzer β']
variable {R : κ → κ' → Prop}

theorem session_after_frame (c : Console κ δ β) :
    (c.after frame).session =
      c.session.turn c.speed (Keyboard.read c.keyboard).events
        (Keyboard.read c.keyboard).unmapped := by
  obtain ⟨display, buzzer, hafter⟩ := after_frame_eq_turn c
  rw [hafter]

theorem keyboard_after_frame (c : Console κ δ β) :
    (c.after frame).keyboard = (Keyboard.read c.keyboard).keyboard := by
  obtain ⟨display, buzzer, hafter⟩ := after_frame_eq_turn c
  rw [hafter]

theorem speed_after_frame (c : Console κ δ β) : (c.after frame).speed = c.speed := by
  obtain ⟨display, buzzer, hafter⟩ := after_frame_eq_turn c
  rw [hafter]

theorem alike_frame {R' : κ → κ' → Prop} {c : Console κ δ β} {c' : Console κ' δ' β'}
    (h : Alike R c c')
    (hread : (Keyboard.read c.keyboard).Alike R' (Keyboard.read c'.keyboard)) :
    Alike R' (c.after frame) (c'.after frame) where
  session := by
    rw [session_after_frame, session_after_frame, h.session, h.speed, hread.events,
      hread.unmapped]
  speed := by rw [speed_after_frame, speed_after_frame, h.speed]
  keyboard := by
    rw [keyboard_after_frame, keyboard_after_frame]
    exact hread.keyboard

/-- Consoles go through the same machines if their keyboards go on bringing the same. -/
theorem machinesAfter_of_alike
    (hread : ∀ k k', R k k' → (Keyboard.read k).Alike R (Keyboard.read k')) (n : Nat)
    {c : Console κ δ β} {c' : Console κ' δ' β'} (h : Alike R c c') :
    machinesAfter n c = machinesAfter n c' := by
  induction n generalizing c c' with
  | zero => rfl
  | succ n ih =>
    have hnext := alike_frame h (hread _ _ h.keyboard)
    rw [machinesAfter, machinesAfter, ih hnext, machine, machine, hnext.session]

/-- A frame that cannot read its keyboard does nothing. -/
theorem run_frame_of_unread {c : Console κ δ β} {why : String}
    (h : (Keyboard.read c.keyboard).events = .error why) :
    frame.run c = .error (.keyboard why) c.look := by
  rw [run_frame, run_approach, h]

theorem after_frame_of_unread {c : Console κ δ β} {why : String}
    (h : (Keyboard.read c.keyboard).events = .error why) : c.after frame = c.look :=
  after_of_error (run_frame_of_unread h)

end

theorem machinesAfter_without [Keyboard κ] [Display δ] [Buzzer β] [Display δ'] [Buzzer β']
    {k n : Nat} (hk : k ≤ n) {c : Console (Flaky κ) δ β} {c' : Console (Flaky κ) δ' β'}
    {why : String} (hfails : c.keyboard.fails (c.keyboard.calls + k) = some why)
    (h : Alike (fun f f' => f' = f.without k) c c') :
    machinesAfter n c' = (machinesAfter (n + 1) c).eraseIdx k := by
  -- The induction is on the frames before the one left out.  That one counts a call, so afterwards
  -- the keyboards are not equal, but they go on bringing the same.
  induction k generalizing n c c' with
  | zero =>
    have hnow : c.keyboard.fails c.keyboard.calls = some why := hfails
    have hread := Flaky.read_eq c.keyboard
    rw [hnow] at hread
    have hevents : (Keyboard.read c.keyboard).events = .error why := by rw [hread]
    have halike : Alike Flaky.Same (c.after frame) c' := by
      rw [after_frame_of_unread hevents, look, hread]
      refine ⟨h.session, h.speed, ?_⟩
      rw [h.keyboard]
      exact Flaky.same_without
    rw [machinesAfter, List.eraseIdx_cons_zero]
    exact (machinesAfter_of_alike (fun _ _ => Flaky.read_alike_of_same) n halike).symm
  | succ k ih =>
    cases n with
    | zero => omega
    | succ n =>
      have hread : (Keyboard.read c.keyboard).Alike (fun f f' => f' = f.without k)
          (Keyboard.read c'.keyboard) := by
        rw [h.keyboard]
        exact Flaky.read_alike_without c.keyboard k
      have hnext := alike_frame h hread
      have hlater : (c.after frame).keyboard.fails ((c.after frame).keyboard.calls + k) =
          some why := by
        rw [keyboard_after_frame, ← hfails, Nat.add_comm k 1, ← Nat.add_assoc, Flaky.read_eq]
        cases c.keyboard.fails c.keyboard.calls <;> rfl
      have hmachine : (c'.after frame).machine = (c.after frame).machine := by
        rw [machine, machine, hnext.session]
      rw [machinesAfter, machinesAfter, List.eraseIdx_cons_succ, hmachine,
        ih (Nat.le_of_succ_le_succ hk) hlater hnext]

/-- The machine a seed makes needs no other chance. -/
theorem start_of_seed {program : List UInt8} {config : Config} {seed : UInt64}
    (hseed : config.seed = some seed) (chance chance' : RandomSource) :
    Session.start program config chance = Session.start program config chance' := by
  have hsame : Machine.start program config chance = Machine.start program config chance' := by
    simp [Machine.start, hseed]
  rw [Session.start, Session.start, hsame]

/-- With a seed, the machines after each frame are the same whatever the display and the buzzer are
and do.  A frame that cannot read its keyboard leaves all but the keyboard and the journal as it
was, so that the others are the same without it. -/
theorem machines_undisturbed [Keyboard κ] [Display δ] [Buzzer β] [Display δ'] [Buzzer β']
    {program : List UInt8} {config : Config} {seed : UInt64} (hseed : config.seed = some seed)
    {chance chance' : RandomSource} {s s' : Session}
    (hstart : Session.start program config chance = .ok s)
    (hstart' : Session.start program config chance' = .ok s')
    (keyboard : Flaky κ) (display : δ) (buzzer : β) (display' : δ') (buzzer' : β')
    (speed n : Nat) :
    let c : Console (Flaky κ) δ β := ⟨s, keyboard, display, buzzer, speed⟩
    machinesAfter n c =
        machinesAfter n (⟨s', keyboard, display', buzzer', speed⟩ : Console (Flaky κ) δ' β') ∧
      (∀ (c₁ : Console (Flaky κ) δ β) why, (Keyboard.read c₁.keyboard).events = .error why →
        frame.run c₁ = .error (.keyboard why) (c₁.after frame) ∧
          (c₁.after frame).machine = c₁.machine ∧ (c₁.after frame).display = c₁.display ∧
            (c₁.after frame).buzzer = c₁.buzzer) ∧
      ∀ k ≤ n, ∀ why, keyboard.fails (keyboard.calls + k) = some why →
        machinesAfter n
            (⟨s', keyboard.without k, display', buzzer', speed⟩ : Console (Flaky κ) δ' β') =
          (machinesAfter (n + 1) c).eraseIdx k := by
  intro c
  obtain rfl : s = s' := by
    rw [start_of_seed hseed chance chance', hstart'] at hstart
    exact (Except.ok.inj hstart).symm
  refine ⟨?_, fun c₁ why hevents => ?_, fun k hk why hfails => ?_⟩
  · refine machinesAfter_of_alike (R := Eq) ?_ n ⟨rfl, rfl, rfl⟩
    rintro k k' rfl
    exact ⟨rfl, rfl, rfl⟩
  · rw [after_frame_of_unread hevents]
    exact ⟨run_frame_of_unread hevents, Session.machine_hear _ _, rfl, rfl⟩
  · exact machinesAfter_without hk hfails ⟨rfl, rfl, rfl⟩

/-- A keyboard whose second look fails, at a jump to itself. -/
theorem unread_frame_left_out :
    let config : Config := { Config.standard with seed := some 7 }
    let s : Session := ⟨.loaded [0x12, 0x00] config (.ofSeed 1), #[.loaded 2]⟩
    let keyboard : Flaky Script :=
      ⟨⟨[[.down 5]]⟩, 0, fun call => if call = 1 then some "input failed" else none⟩
    let c : Console (Flaky Script) (Flaky Recorder) Mute :=
      ⟨s, keyboard, ⟨.fresh, 0, fun _ => some "display failed"⟩, .fresh, 1⟩
    let c' : Console (Flaky Script) Recorder Mute := ⟨s, keyboard, .fresh, .fresh, 1⟩
    machinesAfter 3 c = machinesAfter 3 c' ∧
      machinesAfter 2 { c' with keyboard := keyboard.without 1 } =
        (machinesAfter 3 c).eraseIdx 1 := by
  intro config s keyboard c c'
  have hstart : Session.start [0x12, 0x00] config (.ofSeed 1) = .ok s := by
    rw [Session.start, Machine.start_loaded (by decide) (by decide)]
    rfl
  have hstart' : Session.start [0x12, 0x00] config (.ofSeed 2) = .ok s := by
    rw [start_of_seed rfl (.ofSeed 2) (.ofSeed 1)]
    exact hstart
  have hsame := (machines_undisturbed rfl hstart hstart' keyboard c.display Mute.fresh
    Recorder.fresh Mute.fresh 1 3).1
  have hwithout := (machines_undisturbed rfl hstart hstart' keyboard c.display Mute.fresh
    Recorder.fresh Mute.fresh 1 2).2.2 1 (by decide) "input failed" rfl
  exact ⟨hsame, hwithout⟩

end Console

end Chip8
