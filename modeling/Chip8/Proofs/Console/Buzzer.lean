import Chip8.Console.Mute
import Chip8.Console.Rehearsal
import Mathlib.Data.List.Chain

/-!
# Buzzers that follow a signal

A buzzer is told to start or to stop only if it is not yet as the signal wants it.  If it is then as
it was told, or as before when it failed, the commands it obeys alternate, however many fail in
between; and while none fails there is one command for each change of the signal.
-/

namespace Chip8

namespace Buzzer

variable {β : Type} [Buzzer β]

def command (b : β) (on : Bool) : Except String Unit × β :=
  if on then start b else stop b

theorem follow_of_eq {b : β} {on : Bool} (h : sounding b = on) : follow b on = (.ok (), b) :=
  if_pos h

theorem follow_of_ne {b : β} {on : Bool} (h : sounding b ≠ on) : follow b on = command b on :=
  if_neg h

theorem eq_ok_of_isOk {answer : Except String Unit} (h : answer.isOk = true) : answer = .ok () := by
  cases answer with
  | ok => rfl
  | error why => cases h

/-- A command that succeeds has its effect, and one that fails has none. -/
class Lawful (β : Type) [Buzzer β] : Prop where
  sounding_of_ok (b : β) (on : Bool) :
    (command b on).1 = .ok () → sounding (command b on).2 = on
  sounding_of_error (b : β) (on : Bool) (why : String) :
    (command b on).1 = .error why → sounding (command b on).2 = sounding b

theorem sounding_of_follow_ok [Lawful β] {b : β} {on : Bool} (h : (follow b on).1 = .ok ()) :
    sounding (follow b on).2 = on := by
  by_cases hsounding : sounding b = on
  · rw [follow_of_eq hsounding]
    exact hsounding
  · rw [follow_of_ne hsounding] at h ⊢
    exact Lawful.sounding_of_ok b on h

/-- The buzzer after it was set to one value after another, whether or not it could be set. -/
def followAll (b : β) (signal : List Bool) : β :=
  signal.foldl (fun b on => (follow b on).2) b

theorem followAll_append (b : β) (signal signal' : List Bool) :
    followAll b (signal ++ signal') = followAll (followAll b signal) signal' :=
  List.foldl_append

/-- How often a signal changes, from a first value on. -/
def changes : Bool → List Bool → Nat
  | _, [] => 0
  | now, next :: later => (if now = next then 0 else 1) + changes next later

/-- Every value of the signal can be set. -/
def KeepsUp : β → List Bool → Prop
  | _, [] => True
  | b, on :: later => (follow b on).1 = .ok () ∧ KeepsUp (follow b on).2 later

/-- The buzzer after commands that were given without regard to how it is. -/
def obey (b : β) (commands : List Bool) : β :=
  commands.foldl (fun b on => (command b on).2) b

/-- No command will ever fail. -/
def NeverFails (b : β) : Prop :=
  ∀ commands on, (command (obey b commands) on).1 = .ok ()

theorem NeverFails.command_ok {b : β} (h : NeverFails b) (on : Bool) :
    (command b on).1 = .ok () :=
  h [] on

theorem NeverFails.command {b : β} (h : NeverFails b) (on : Bool) :
    NeverFails (command b on).2 :=
  fun commands => h (on :: commands)

theorem NeverFails.follow_ok {b : β} (h : NeverFails b) (on : Bool) :
    (follow b on).1 = .ok () := by
  by_cases hsounding : sounding b = on
  · rw [follow_of_eq hsounding]
  · rw [follow_of_ne hsounding]
    exact h.command_ok on

theorem NeverFails.follow {b : β} (h : NeverFails b) (on : Bool) :
    NeverFails (follow b on).2 := by
  by_cases hsounding : sounding b = on
  · rw [follow_of_eq hsounding]
    exact h
  · rw [follow_of_ne hsounding]
    exact h.command on

theorem NeverFails.followAll {b : β} (h : NeverFails b) (signal : List Bool) :
    NeverFails (followAll b signal) := by
  induction signal generalizing b with
  | nil => exact h
  | cons on later ih => exact ih (h.follow on)

theorem NeverFails.keepsUp {b : β} (h : NeverFails b) (signal : List Bool) : KeepsUp b signal := by
  induction signal generalizing b with
  | nil => trivial
  | cons on later ih => exact ⟨h.follow_ok on, ih (h.follow on)⟩

end Buzzer

instance : Buzzer.Lawful Mute where
  sounding_of_ok m on _ := by cases on <;> rfl
  sounding_of_error m on why h := by cases on <;> cases h

theorem Mute.neverFails (m : Mute) : Buzzer.NeverFails m := by
  intro commands on
  cases on <;> rfl

theorem Flaky.command_eq {β : Type} [Buzzer β] (f : Flaky β) (on : Bool) :
    Buzzer.command f on = f.attempt fun device => Buzzer.command device on := by
  cases on <;> rfl

instance {β : Type} [Buzzer β] [Buzzer.Lawful β] : Buzzer.Lawful (Flaky β) where
  sounding_of_ok f on h := by
    rw [Flaky.command_eq, Flaky.attempt] at h ⊢
    cases hfails : f.fails f.calls with
    | some why => simp [hfails] at h
    | none =>
      rw [hfails] at h
      exact Buzzer.Lawful.sounding_of_ok f.device on h
  sounding_of_error f on why h := by
    rw [Flaky.command_eq, Flaky.attempt] at h ⊢
    cases hfails : f.fails f.calls with
    | some why => rfl
    | none =>
      rw [hfails] at h
      exact Buzzer.Lawful.sounding_of_error f.device on why h

/-- A buzzer with a record of the commands it was given and how it answered, oldest first. -/
structure Metered (β : Type) where
  device : β
  calls : List (Bool × Except String Unit)

namespace Metered

variable {β : Type} [Buzzer β]

def note (m : Metered β) (on : Bool) (outcome : Except String Unit × β) :
    Except String Unit × Metered β :=
  (outcome.1, ⟨outcome.2, m.calls ++ [(on, outcome.1)]⟩)

instance : Buzzer (Metered β) where
  sounding m := Buzzer.sounding m.device
  start m := m.note true (Buzzer.start m.device)
  stop m := m.note false (Buzzer.stop m.device)

theorem command_eq (m : Metered β) (on : Bool) :
    Buzzer.command m on = m.note on (Buzzer.command m.device on) := by
  cases on <;> rfl

instance [Buzzer.Lawful β] : Buzzer.Lawful (Metered β) where
  sounding_of_ok m on h := by
    rw [command_eq] at h ⊢
    exact Buzzer.Lawful.sounding_of_ok m.device on h
  sounding_of_error m on why h := by
    rw [command_eq] at h ⊢
    exact Buzzer.Lawful.sounding_of_error m.device on why h

theorem neverFails {m : Metered β} (h : Buzzer.NeverFails m.device) : Buzzer.NeverFails m := by
  intro commands
  induction commands generalizing m with
  | nil =>
    intro on
    rw [Buzzer.obey, List.foldl_nil, command_eq]
    exact h.command_ok on
  | cons first commands ih =>
    refine ih (m := (Buzzer.command m first).2) ?_
    rw [command_eq]
    exact h.command first

/-- The record only watches. -/
theorem follow_eq (m : Metered β) (on : Bool) :
    (Buzzer.follow m on).1 = (Buzzer.follow m.device on).1 ∧
      (Buzzer.follow m on).2.device = (Buzzer.follow m.device on).2 := by
  by_cases hsounding : Buzzer.sounding m.device = on
  · rw [Buzzer.follow_of_eq hsounding, Buzzer.follow_of_eq (b := m) hsounding]
    exact ⟨rfl, rfl⟩
  · rw [Buzzer.follow_of_ne hsounding, Buzzer.follow_of_ne (b := m) hsounding, command_eq]
    exact ⟨rfl, rfl⟩

theorem calls_follow_of_ne {m : Metered β} {on : Bool} (h : Buzzer.sounding m ≠ on) :
    (Buzzer.follow m on).2.calls = m.calls ++ [(on, (Buzzer.follow m on).1)] := by
  rw [Buzzer.follow_of_ne h, command_eq]
  rfl

theorem calls_prefix_follow (m : Metered β) (on : Bool) :
    m.calls <+: (Buzzer.follow m on).2.calls := by
  by_cases hsounding : Buzzer.sounding m = on
  · simp only [Buzzer.follow_of_eq hsounding, List.prefix_rfl]
  · rw [calls_follow_of_ne hsounding]
    exact List.prefix_append _ _

theorem calls_prefix_followAll (m : Metered β) (signal : List Bool) :
    m.calls <+: (Buzzer.followAll m signal).calls := by
  induction signal generalizing m with
  | nil => exact List.prefix_rfl
  | cons on later ih => exact (calls_prefix_follow m on).trans (ih (Buzzer.follow m on).2)

/-! ## The commands that are obeyed -/

/-- The commands that succeeded. -/
def obeyed (m : Metered β) : List Bool :=
  (m.calls.filter fun call => call.2.isOk).map Prod.fst

theorem obeyed_follow_of_ne {m : Metered β} {on : Bool} (h : Buzzer.sounding m ≠ on) :
    (Buzzer.follow m on).2.obeyed =
      m.obeyed ++ if (Buzzer.follow m on).1.isOk then [on] else [] := by
  rw [obeyed, calls_follow_of_ne h, obeyed, List.filter_append, List.map_append]
  congr 1
  cases (Buzzer.follow m on).1 <;> rfl

/-- The commands that succeeded alternate, a start first, and the buzzer is as the last one left
it. -/
structure Alternates (m : Metered β) : Prop where
  chain : (false :: m.obeyed).IsChain (· ≠ ·)
  last : (false :: m.obeyed).getLast? = some (Buzzer.sounding m)

theorem alternates_follow [Buzzer.Lawful β] {m : Metered β} (h : m.Alternates) (on : Bool) :
    (Buzzer.follow m on).2.Alternates := by
  by_cases hsounding : Buzzer.sounding m = on
  · rw [Buzzer.follow_of_eq hsounding]
    exact h
  have hobeyed := obeyed_follow_of_ne hsounding
  cases hanswer : (Buzzer.follow m on).1 with
  | error why =>
    have hsame : Buzzer.sounding (Buzzer.follow m on).2 = Buzzer.sounding m := by
      rw [Buzzer.follow_of_ne hsounding] at hanswer ⊢
      exact Buzzer.Lawful.sounding_of_error m on why hanswer
    have hnone : (Buzzer.follow m on).2.obeyed = m.obeyed := by
      simpa [hanswer, Except.isOk, Except.toBool] using hobeyed
    constructor
    · rw [hnone]
      exact h.chain
    · rw [hnone, hsame]
      exact h.last
  | ok =>
    have hset : Buzzer.sounding (Buzzer.follow m on).2 = on :=
      Buzzer.sounding_of_follow_ok hanswer
    have hone : false :: (Buzzer.follow m on).2.obeyed = (false :: m.obeyed) ++ [on] := by
      simpa [hanswer, Except.isOk, Except.toBool] using hobeyed
    constructor
    · rw [hone]
      refine h.chain.append (List.isChain_singleton on) ?_
      intro before hbefore next hnext
      -- The command was given because the buzzer was not as wanted.
      rw [h.last, Option.mem_some] at hbefore
      rw [List.head?_cons, Option.mem_some] at hnext
      rw [← hbefore, ← hnext]
      exact hsounding
    · rw [hone, hset, List.getLast?_append]
      rfl

theorem alternates_followAll [Buzzer.Lawful β] {m : Metered β} (h : m.Alternates)
    (signal : List Bool) : (Buzzer.followAll m signal).Alternates := by
  induction signal generalizing m with
  | nil => exact h
  | cons on later ih => exact ih (alternates_follow h on)

theorem alternates_unused {m : Metered β} (hunused : m.calls = [])
    (hsilent : Buzzer.sounding m = false) : m.Alternates := by
  have hnone : m.obeyed = [] := by
    rw [obeyed, hunused]
    rfl
  constructor
  · rw [hnone]
    exact List.isChain_singleton false
  · rw [hnone, hsilent]
    rfl

/-! ## One command for each change -/

theorem length_calls_follow (m : Metered β) (on : Bool) :
    (Buzzer.follow m on).2.calls.length =
      m.calls.length + if Buzzer.sounding m = on then 0 else 1 := by
  split
  · next hsounding => rw [Buzzer.follow_of_eq hsounding, Nat.add_zero]
  · next hsounding => rw [calls_follow_of_ne hsounding, List.length_append, List.length_singleton]

/-- A buzzer that keeps up with a signal is given one command for each change of it. -/
theorem length_calls_followAll [Buzzer.Lawful β] {m : Metered β} {signal : List Bool}
    (h : Buzzer.KeepsUp m signal) :
    (Buzzer.followAll m signal).calls.length =
      m.calls.length + Buzzer.changes (Buzzer.sounding m) signal := by
  induction signal generalizing m with
  | nil => rfl
  | cons on later ih =>
    obtain ⟨hset, hlater⟩ := h
    calc (Buzzer.followAll m (on :: later)).calls.length
        = (Buzzer.follow m on).2.calls.length +
            Buzzer.changes (Buzzer.sounding (Buzzer.follow m on).2) later := ih hlater
      _ = m.calls.length + Buzzer.changes (Buzzer.sounding m) (on :: later) := by
        rw [length_calls_follow, Buzzer.sounding_of_follow_ok hset, Buzzer.changes, Nat.add_assoc]

theorem keepsUp_of_calls {m : Metered β} {signal : List Bool}
    (h : ∀ call ∈ (Buzzer.followAll m signal).calls, call.2 = .ok ()) :
    Buzzer.KeepsUp m signal := by
  induction signal generalizing m with
  | nil => trivial
  | cons on later ih =>
    refine ⟨?_, ih h⟩
    by_cases hsounding : Buzzer.sounding m = on
    · rw [Buzzer.follow_of_eq hsounding]
    · have hmem : (on, (Buzzer.follow m on).1) ∈ (Buzzer.follow m on).2.calls := by
        rw [calls_follow_of_ne hsounding]
        exact List.mem_append_right _ List.mem_cons_self
      exact h _ ((calls_prefix_followAll (Buzzer.follow m on).2 later).mem hmem)

end Metered

end Chip8
