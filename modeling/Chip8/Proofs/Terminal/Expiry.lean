import Chip8.Proofs.Terminal.Tracking
import Chip8.Terminal.Keyboard

/-!
# Holds that nobody saw expire

A hold ends when an expiry finds its last press old enough, not when that press gets old enough.  So
a press begins a new hold exactly if, since the last press of its key, an expiry has come late enough;
time alone decides only where an expiry comes right before the press.  A look at a keyboard heeds the
presses before it lets holds expire: a key that is held when the look begins is not pressed anew in
it, however long it has been quiet.
-/

namespace Chip8.KeyHold

namespace Call

def time : Call → Nat
  | .press _ now | .expire now => now

end Call

/-- The key was never pressed, or its last press is at least as old as a hold lasts. -/
def Quiet (duration : Nat) (calls : List Call) (key : UInt8) (now : Nat) : Prop :=
  ∀ t later, LastPressed calls key t later → duration ≤ now - t

/-- The key was never pressed, or an expiry since its last press came when that press was at least as
old as a hold lasts. -/
def SeenQuiet (duration : Nat) (calls : List Call) (key : UInt8) : Prop :=
  ∀ t later, LastPressed calls key t later → ∃ u, .expire u ∈ later ∧ duration ≤ u - t

variable {h : KeyHold} {calls later : List Call} {key : UInt8} {duration t now : Nat}

/-- A stored press that is not repeated is returned by the first expiry that finds it old enough. -/
theorem up_mem_events_iff (hpressed : h.pressedAt key = some t)
    (hquiet : ∀ now, .press key now ∉ later) :
    .up key ∈ h.events later ↔ ∃ u, .expire u ∈ later ∧ h.duration ≤ u - t := by
  induction later generalizing h with
  | nil => simp [events]
  | cons call later ih =>
    have hlater : ∀ now, .press key now ∉ later := fun now hmem =>
      hquiet now (List.mem_cons_of_mem call hmem)
    rw [up_mem_events_cons]
    cases call with
    | press code now =>
      have hother : code ≠ key := fun hsame => hquiet now (by simp [hsame])
      have hstored : (h.serve (.press code now)).2.pressedAt key = some t := by
        rw [serve, pressedAt_press, if_neg hother, hpressed]
      rw [ih hstored hlater, duration_serve]
      simp [up_not_mem_serve_press]
    | expire now =>
      have hdue : key ∈ (h.expire now).1 ↔ h.duration ≤ now - t := by
        rw [mem_expire_iff, hpressed, isDue, decide_eq_true_iff]
      rw [up_mem_serve_expire, hdue]
      by_cases hold : h.duration ≤ now - t
      · simp only [hold, true_or, true_iff]
        exact ⟨now, List.mem_cons_self, hold⟩
      · have hstored : (h.serve (.expire now)).2.pressedAt key = some t :=
          (pressedAt_of_not_mem_expire (hdue.not.mpr hold)).trans hpressed
        rw [ih hstored hlater, duration_serve]
        simp [hold]

theorem down_mem_serve_press (h : KeyHold) (code : UInt8) (now : Nat) :
    .down key ∈ (h.serve (.press code now)).1 ↔ code = key ∧ h.isHeld key = false := by
  rw [serve, press_begins]
  by_cases hsame : code = key
  · subst hsame
    split <;> simp_all
  · split <;> simp [hsame, Ne.symm hsame]

theorem isHeld_after_eq_false_iff (h : KeyHold) (hlast : LastPressed calls key t later) :
    (h.after calls).isHeld key = false ↔ ∃ u, .expire u ∈ later ∧ h.duration ≤ u - t := by
  obtain ⟨⟨before, rfl⟩, hquiet⟩ := hlast
  have hpressed := pressedAt_after_press h before key t
  have hreturned := up_mem_events_iff hpressed hquiet
  rw [duration_after] at hreturned
  rw [← hreturned, isHeld_eq_false_iff, after_split, pressedAt_after_of_not_pressed hquiet, hpressed]
  simp

theorem isHeld_after_eq_false_iff_seenQuiet (duration : Nat) (calls : List Call) (key : UInt8) :
    ((idle duration).after calls).isHeld key = false ↔ SeenQuiet duration calls key := by
  constructor
  · intro hidle t later hlast
    exact (isHeld_after_eq_false_iff (idle duration) hlast).mp hidle
  · intro hseen
    rcases lastPressed_or_not_pressed calls key with ⟨t, later, hlast⟩ | hnever
    · exact (isHeld_after_eq_false_iff (idle duration) hlast).mpr (hseen t later hlast)
    · rw [← Bool.not_eq_true, isHeld_after_iff]
      exact not_tracked_of_not_pressed hnever

theorem LastPressed.append_expire (hlast : LastPressed calls key t later) (now : Nat) :
    LastPressed (calls ++ [.expire now]) key t (later ++ [.expire now]) := by
  obtain ⟨⟨before, rfl⟩, hquiet⟩ := hlast
  exact ⟨⟨before, by simp⟩, fun u => by simpa using hquiet u⟩

theorem LastPressed.mem_of_mem_later {call : Call} (hlast : LastPressed calls key t later)
    (hmem : call ∈ later) : call ∈ calls := by
  obtain ⟨⟨before, rfl⟩, -⟩ := hlast
  simp [hmem]

theorem time_le {call : Call} (hordered : (calls.map Call.time ++ [now]).Pairwise (· ≤ ·))
    (hmem : call ∈ calls) : call.time ≤ now :=
  (List.pairwise_append.mp hordered).2.2 _ (List.mem_map_of_mem hmem) now List.mem_cons_self

theorem Quiet.of_seenQuiet (hordered : (calls.map Call.time ++ [now]).Pairwise (· ≤ ·))
    (hseen : SeenQuiet duration calls key) : Quiet duration calls key now := by
  intro t later hlast
  obtain ⟨u, hexpire, hage⟩ := hseen t later hlast
  have hle : u ≤ now := time_le hordered (hlast.mem_of_mem_later hexpire)
  exact hage.trans (Nat.sub_le_sub_right hle t)

/-- Where an expiry comes right before, it has seen all that is quiet. -/
theorem seenQuiet_append_expire (hordered : (calls.map Call.time ++ [now]).Pairwise (· ≤ ·)) :
    SeenQuiet duration (calls ++ [.expire now]) key ↔ Quiet duration calls key now := by
  constructor
  · intro hseen t later hlast
    obtain ⟨u, hexpire, hage⟩ := hseen t _ (hlast.append_expire now)
    rcases List.mem_append.mp hexpire with hearlier | hlatest
    · exact hage.trans (Nat.sub_le_sub_right (time_le hordered (hlast.mem_of_mem_later hearlier)) t)
    · cases List.mem_singleton.mp hlatest
      exact hage
  · intro hquiet t later' hlast'
    rcases lastPressed_or_not_pressed calls key with ⟨t', later, hlast⟩ | hnever
    · obtain ⟨rfl, rfl⟩ := hlast'.unique (hlast.append_expire now)
      exact ⟨now, by simp, hquiet t later hlast⟩
    · obtain ⟨⟨before, hsplit⟩, -⟩ := hlast'
      have hpress : .press key t ∈ calls ++ [.expire now] := by simp [hsplit]
      simp [hnever t] at hpress

end Chip8.KeyHold

namespace Chip8.TerminalKeyboard

open KeyHold (Call Quiet SeenQuiet)

theorem hear_of_press {stroke : Keystroke} {code : UInt8}
    (hmeaning : stroke.meaning = .event (.down code)) (now : Nat) (hold : KeyHold)
    (strokes : List Keystroke) :
    (hear now hold (stroke :: strokes)).events =
      (hold.serve (.press code now)).1 ++ (hear now (hold.press code now).2 strokes).events := by
  rw [hear, hmeaning, KeyHold.serve]
  dsimp only
  split <;> rfl

/-- Only a key that is not held when the look begins is pressed in it. -/
theorem down_mem_hear (now : Nat) (hold : KeyHold) (strokes : List Keystroke) (key : UInt8) :
    .down key ∈ (hear now hold strokes).events ↔
      (∃ stroke ∈ strokes, stroke.meaning = .event (.down key)) ∧ hold.isHeld key = false := by
  induction strokes generalizing hold with
  | nil => simp [hear]
  | cons stroke strokes ih =>
    cases hmeaning : stroke.meaning with
    | nothing => simp [hear, hmeaning, ih]
    | unmapped c => simp [hear, hmeaning, ih]
    | event e =>
      cases e with
      | down code =>
        rw [hear_of_press hmeaning, List.mem_append, KeyHold.down_mem_serve_press, ih,
          KeyHold.isHeld_press]
        by_cases hsame : code = key <;> simp [hsame, hmeaning]
      | up code => simp [hear, hmeaning, ih]
      | quit => simp [hear, hmeaning, ih]

/-- A press begins a hold exactly if an expiry has seen its key quiet.  With calls in the order of
their times such a key is quiet indeed; a quiet key begins a hold for certain only right after an
expiry, and a look at a keyboard has none before its presses. -/
theorem press_begins_iff_seen_quiet (duration : Nat) (calls : List Call) (key : UInt8) (now : Nat)
    (hordered : (calls.map Call.time ++ [now]).Pairwise (· ≤ ·)) :
    ((((KeyHold.idle duration).after calls).press key now).1 = true ↔
        SeenQuiet duration calls key) ∧
      (SeenQuiet duration calls key → Quiet duration calls key now) ∧
      ((((KeyHold.idle duration).after (calls ++ [.expire now])).press key now).1 = true ↔
        Quiet duration calls key now) ∧
      ∀ typed, ∃ events,
        (read ⟨typed, (KeyHold.idle duration).after calls, now⟩).events = .ok events ∧
          (.down key ∈ events ↔
            (∃ stroke ∈ typed, stroke.meaning = .event (.down key)) ∧
              SeenQuiet duration calls key) := by
  have hbegins : ∀ calls, (((KeyHold.idle duration).after calls).press key now).1 = true ↔
      SeenQuiet duration calls key := by
    intro calls
    rw [KeyHold.press_begins, Bool.not_eq_true',
      KeyHold.isHeld_after_eq_false_iff_seenQuiet]
  refine ⟨hbegins calls, Quiet.of_seenQuiet hordered,
    (hbegins _).trans (KeyHold.seenQuiet_append_expire hordered), fun typed => ⟨_, rfl, ?_⟩⟩
  rw [List.mem_append, down_mem_hear, KeyHold.isHeld_after_eq_false_iff_seenQuiet]
  simp

/-- After a look that saw it quiet, the same key begins a hold again. -/
theorem press_begins_after_look :
    ([Call.press 5 0, .expire 150].map Call.time ++ [200]).Pairwise (· ≤ ·) ∧
      SeenQuiet 100 [.press 5 0, .expire 150] 5 := by
  have hordered : ([Call.press 5 0, .expire 150].map Call.time ++ [200]).Pairwise (· ≤ ·) := by
    decide
  have hlaw := press_begins_iff_seen_quiet 100 [.press 5 0, .expire 150] 5 200 hordered
  exact ⟨hordered, hlaw.1.mp (by decide +kernel)⟩

/-- A key is pressed in a look at time 0 and again before the next look, at time 200.  It has been
quiet for longer than a hold lasts, but the second press begins none and is not told of. -/
theorem quiet_press_begins_nothing :
    let calls := [Call.press 5 0, .expire 0]
    (calls.map Call.time ++ [200]).Pairwise (· ≤ ·) ∧ Quiet 100 calls 5 200 ∧
      (((KeyHold.idle 100).after calls).press 5 200).1 = false ∧
      ∃ events,
        (read ⟨[.ofChar 'w'], (KeyHold.idle 100).after calls, 200⟩).events = .ok events ∧
          .down 5 ∉ events := by
  intro calls
  have hheld : ((KeyHold.idle 100).after calls).isHeld 5 = true := by decide +kernel
  refine ⟨by decide, ?_, by rw [KeyHold.press_begins, hheld]; rfl, _, rfl, ?_⟩
  · intro t later hlast
    obtain ⟨⟨before, hsplit⟩, -⟩ := hlast
    have hpress : Call.press 5 t ∈ calls := by simp [hsplit]
    have hstart : t = 0 := by simpa [calls] using hpress
    rw [hstart]
    decide
  · rw [List.mem_append, down_mem_hear, hheld]
    simp

end Chip8.TerminalKeyboard
