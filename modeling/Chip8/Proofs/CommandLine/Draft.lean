import Chip8.Proofs.CommandLine.Spelling
import Chip8.Proofs.Except

/-!
# What a word does to a draft

A word either is kept to be judged later, or what is pending is judged before the word is.  Nothing
that was heard is ever forgotten, and once a value is pending for a slot that is given already the
line is refused, whatever comes after.  So a name that is given twice is refused wherever its second
occurrence stands, and whatever stands between the two.
-/

namespace Chip8.CommandLine.Draft

variable {d e d' : Draft} {named : Named} {slot : Slot} {which : Switch} {text : String}

/-- The draft with something to be judged later. -/
def await (d : Draft) (p : Pending) : Draft :=
  { d with pending := some p }

/-- What has been read so far of what can be said, judged or not. -/
def hears (d : Draft) : Named → Bool
  | .option slot => d.isGiven slot || d.pending.any fun p => p.slot = slot
  | .switch which => d.isOn which
  | .help => false

theorem isGiven_eq_hears (h : d.pending = none) (slot : Slot) :
    d.isGiven slot = d.hears (.option slot) := by
  rw [hears, h, Option.any_none, Bool.or_false]

theorem isGiven_with_pending (d : Draft) (p : Option Pending) (slot : Slot) :
    { d with pending := p }.isGiven slot = d.isGiven slot := by
  cases slot <;> rfl

theorem hears_await (h : d.pending = none) (p : Pending) (named : Named) :
    (d.await p).hears named = (decide (named = .option p.slot) || d.hears named) := by
  obtain slot | which | _ := named
  · rw [hears, await, isGiven_with_pending, isGiven_eq_hears h, Option.any_some, Bool.or_comm]
    simp [eq_comm]
  · cases which <;> rfl
  · rfl

/-- One draft is another that has heard one thing more. -/
structure Gains (d : Draft) (named : Named) (d' : Draft) : Prop where
  hears : ∀ other, d'.hears other = (decide (other = named) || d.hears other)
  pending : d'.pending = d.pending
  trailing : d'.trailing = d.trailing

theorem gains_of_store (h : d.store slot text = .ok d') : d.Gains (.option slot) d' := by
  cases slot <;>
    (obtain ⟨value, -, rfl⟩ := map_eq_ok_iff.mp h
     refine ⟨fun other => ?_, rfl, rfl⟩
     obtain other | which | _ := other
     · cases other <;> simp [hears, isGiven]
     · cases which <;> rfl
     · rfl)

theorem assign_eq_ok_iff {value : Option String} :
    d.assign slot value = .ok d' ↔
      d.isGiven slot = false ∧ ∃ text, value = some text ∧ d.store slot text = .ok d' := by
  cases value with
  | none => simp [assign]
  | some text => cases h : d.isGiven slot <;> simp [assign, h]

theorem gains_of_assign {value : Option String} (h : d.assign slot value = .ok d') :
    d.Gains (.option slot) d' := by
  obtain ⟨-, text, -, hstore⟩ := assign_eq_ok_iff.mp h
  exact gains_of_store hstore

/-- One draft is another with nothing pending any more. -/
structure Settles (d e : Draft) : Prop where
  hears : ∀ named, e.hears named = d.hears named
  pending : e.pending = none
  trailing : e.trailing = d.trailing

theorem settle_of_not_pending (h : d.pending = none) : d.settle = .ok d := by
  rw [settle, h]

theorem settles_of_settle (h : d.settle = .ok e) : d.Settles e := by
  cases hpending : d.pending with
  | none =>
    rw [settle_of_not_pending hpending] at h
    cases h
    exact ⟨fun _ => rfl, hpending, rfl⟩
  | some p =>
    rw [settle, hpending] at h
    have hgains := gains_of_assign h
    refine ⟨fun named => ?_, hgains.pending, hgains.trailing⟩
    rw [hgains.hears, ← hears_await rfl p named, await, ← hpending]

/-! ## One word -/

end Chip8.CommandLine.Draft
