import Chip8.Proofs.Machine.Halting
import Chip8.Proofs.Machine.Interleaving

/-!
# Held keys

A run tells the keypad which keys go down and which come up, and nothing else in the run touches it:
no instruction, no halt and no end of a wait.  So at every point a key is held exactly if it is on
the pad and the last that the run told of it was that it went down.  Telling a thing twice is telling
it once, and what is told of different keys may be told in either order.
-/

namespace Chip8

namespace Request

/-- The request presses or releases the key. -/
def Concerns (code : UInt8) (request : Request) : Prop :=
  request = .keyDown code ∨ request = .keyUp code

/-- Whether the request presses or releases the key, if it concerns the key. -/
def tells (code : UInt8) (request : Request) : Option Bool :=
  request.keyEvent.bind (KeyEvent.tells code)

variable {code code' : UInt8} {request : Request}

theorem tells_eq_true_iff : request.tells code = some true ↔ request = .keyDown code := by
  cases request <;> simp [tells, keyEvent, KeyEvent.tells]

theorem tells_eq_none_iff : request.tells code = none ↔ ¬ request.Concerns code := by
  cases request <;> simp [tells, keyEvent, KeyEvent.tells, Concerns]

theorem keyEvent_eq_none_iff : request.keyEvent = none ↔ ∀ code, ¬ request.Concerns code := by
  cases request <;> simp [keyEvent, Concerns]

theorem keyEvent_of_concerns (h : request.Concerns code) :
    ∃ e, request.keyEvent = some e ∧ ∀ code', code' ≠ code → e.tells code' = none := by
  obtain rfl | rfl := h
  · exact ⟨_, rfl, fun code' hother => if_neg (Ne.symm hother)⟩
  · exact ⟨_, rfl, fun code' hother => if_neg (Ne.symm hother)⟩

/-- What requests last tell of a key is a press. -/
theorem getLast?_told_eq_true_iff {requests : List Request} :
    (KeyEvent.told code (requests.filterMap keyEvent)).getLast? = some true ↔
      ∃ before after, requests = before ++ .keyDown code :: after ∧
        ∀ request ∈ after, ¬ request.Concerns code := by
  rw [KeyEvent.told, List.filterMap_filterMap, List.getLast?_filterMap, List.findSome?_eq_some_iff]
  -- the search goes through the requests from the last to the first
  constructor
  · rintro ⟨after, request, before, hrequests, htells, hafter⟩
    obtain rfl := tells_eq_true_iff.mp htells
    refine ⟨before.reverse, after.reverse, ?_, fun request hmem => ?_⟩
    · rw [← List.reverse_reverse requests, hrequests]
      simp
    · exact tells_eq_none_iff.mp (hafter request (List.mem_reverse.mp hmem))
  · rintro ⟨before, after, rfl, hafter⟩
    refine ⟨after.reverse, .keyDown code, before.reverse, by simp, tells_eq_true_iff.mpr rfl,
      fun request hmem => ?_⟩
    exact tells_eq_none_iff.mpr (hafter request (List.mem_reverse.mp hmem))

end Request

namespace Machine

variable {m : Machine} {request : Request} {code : UInt8}

/-- What passes no event on leaves the keypad alone. -/
theorem keypad_perform_of_none (h : request.keyEvent = none) :
    (m.perform request).2.keypad = m.keypad := by
  cases hexecuted : m.executed request with
  | some e =>
    obtain ⟨-, hexecute⟩ := perform_of_executed hexecuted
    exact keypad_execute hexecute
  | none =>
    apply (reserved_of_not_executed hexecuted).keypad
    intro code
    constructor <;> rintro rfl <;> cases h

theorem keypad_run (m : Machine) (requests : List Request) :
    (m.run requests).keypad = m.keypad.heedAll (requests.filterMap Request.keyEvent) := by
  induction requests generalizing m with
  | nil => rfl
  | cons request requests ih =>
    rw [run_cons, ih]
    cases hevent : request.keyEvent with
    | none => rw [keypad_perform_of_none hevent, List.filterMap_cons_none hevent]
    | some e =>
      obtain ⟨reply, hperform⟩ := perform_of_keyEvent hevent
      rw [hperform, List.filterMap_cons_some hevent]
      rfl

theorem isHeld_run_iff (hreleased : m.keypad = .released) (requests : List Request) :
    (m.run requests).isHeld code = true ↔
      code.toNat ≤ 15 ∧ ∃ before after, requests = before ++ .keyDown code :: after ∧
        ∀ request ∈ after, ¬ request.Concerns code := by
  rw [isHeld, keypad_run, hreleased]
  by_cases hcode : code.toNat < 16
  · have hpad : code.toNat ≤ 15 := Nat.le_of_lt_succ hcode
    rw [Keypad.isHeld_heedAll _ _ hcode, Keypad.isHeld_released,
      ← Request.getLast?_told_eq_true_iff]
    cases (KeyEvent.told code (requests.filterMap Request.keyEvent)).getLast? <;> simp [hpad]
  · have hbeyond : ¬ code.toNat ≤ 15 := fun hle => hcode (Nat.lt_succ_of_le hle)
    rw [Keypad.isHeld_of_le _ (Nat.le_of_not_lt hcode)]
    simp [hbeyond]

theorem perform_twice (h : request.Concerns code) (m : Machine) :
    (m.perform request).2.perform request = m.perform request := by
  obtain ⟨e, hevent, -⟩ := Request.keyEvent_of_concerns h
  obtain ⟨reply, hperform⟩ := perform_of_keyEvent hevent
  rw [hperform, hperform, Keypad.heed_heed]

theorem commute_of_concerns {a b : Request} {code' : UInt8} (ha : a.Concerns code)
    (hb : b.Concerns code') (hother : code ≠ code') (m : Machine) : m.Commute a b := by
  obtain ⟨e, hevent, hquiet⟩ := Request.keyEvent_of_concerns ha
  obtain ⟨e', hevent', hquiet'⟩ := Request.keyEvent_of_concerns hb
  obtain ⟨reply, hperform⟩ := perform_of_keyEvent hevent
  obtain ⟨reply', hperform'⟩ := perform_of_keyEvent hevent'
  have hcomm : (m.keypad.heed e).heed e' = (m.keypad.heed e').heed e := by
    apply Keypad.heed_comm
    intro c
    by_cases hc : c = code
    · exact .inr (hquiet' c (hc ▸ hother))
    · exact .inl (hquiet c hc)
  simp [Commute, hperform, hperform', hcomm]

/-- The keypad is the set of the keys last seen down, in every run.  Pressing or releasing what is
not a key is refused and changes nothing; what neither presses nor releases a key leaves the set
alone, in whatever state the machine is; a press or release that is repeated has no further effect,
and those of different keys commute. -/
theorem held_iff_last_down {program : List UInt8} {config : Config} {chance : RandomSource}
    {m₀ : Machine} (hstart : start program config chance = .ok m₀) (requests : List Request) :
    (∀ code, (m₀.run requests).isHeld code = true ↔
      code.toNat ≤ 15 ∧ ∃ before after, requests = before ++ .keyDown code :: after ∧
        ∀ request ∈ after, ¬ request.Concerns code) ∧
      ∀ m : Machine,
        (∀ code, 15 < code.toNat →
          m.perform (.keyDown code) = (.refused (.invalidKey code), m) ∧
            m.perform (.keyUp code) = (.refused (.invalidKey code), m)) ∧
        (∀ request, (∀ code, ¬ request.Concerns code) →
          (m.perform request).2.keypad = m.keypad) ∧
        (∀ code request, request.Concerns code →
          (m.perform request).2.perform request = m.perform request) ∧
        ∀ code code' a b, a.Concerns code → b.Concerns code' → code ≠ code' → m.Commute a b := by
  obtain ⟨-, -, rfl⟩ := start_eq_ok_iff.mp hstart
  refine ⟨fun code => isHeld_run_iff rfl requests, fun m => ⟨fun code hcode => ?_,
    fun request hnone => ?_, fun code request h => perform_twice h m,
    fun code code' a b ha hb hother => commute_of_concerns ha hb hother m⟩⟩
  · obtain ⟨hdown, hup, -⟩ := m.perform_of_invalid_key hcode
    exact ⟨hdown, hup⟩
  · exact keypad_perform_of_none (Request.keyEvent_eq_none_iff.mpr hnone)

/-- A key that comes up and goes down again is still held when the machine has halted, and a code
past the last key is not. -/
theorem pressed_again_held :
    start [0x00, 0xEE] .standard (.ofSeed 1) = .ok (loaded [0x00, 0xEE] .standard (.ofSeed 1)) ∧
      let m := (loaded [0x00, 0xEE] .standard (.ofSeed 1)).run
        [.keyDown 10, .keyUp 10, .keyDown 10, .step, .keyUp 3, .keyDown 16]
      m.isHeld 10 = true ∧ ¬ m.isHeld 16 = true ∧
        m.perform (.keyDown 16) = (.refused (.invalidKey 16), m) ∧
          m.Commute (.keyUp 10) (.keyDown 3) := by
  have hstart : start [0x00, 0xEE] .standard (.ofSeed 1) =
      .ok (loaded [0x00, 0xEE] .standard (.ofSeed 1)) := start_loaded (by decide) (by decide)
  refine ⟨hstart, ?_⟩
  intro m
  obtain ⟨hheld, hany⟩ := held_iff_last_down hstart
    [.keyDown 10, .keyUp 10, .keyDown 10, .step, .keyUp 3, .keyDown 16]
  obtain ⟨hrefused, -, -, hcommute⟩ := hany m
  refine ⟨(hheld 10).mpr ⟨by decide, [.keyDown 10, .keyUp 10], _, rfl, ?_⟩, fun h => ?_,
    (hrefused 16 (by decide)).1, hcommute 10 3 _ _ (.inr rfl) (.inl rfl) (by decide)⟩
  · simp [Request.Concerns]
  · exact absurd ((hheld 16).mp h).1 (by decide)

end Machine

end Chip8
