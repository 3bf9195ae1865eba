import Chip8.Proofs.Keypad
import Chip8.Terminal.Hold
import Mathlib.Data.List.Chain
import Mathlib.Data.List.Nodup

/-!
# Tracked keys

A key is tracked from a press of it until an expiry returns it.  What a hold stores is exactly the
tracked keys, each with the time of its last press, whatever the times of the calls and whatever
order the store is gone through.  Its events are therefore the changes of being tracked: for each key
presses and releases take turns, and a keypad that heeds them holds the tracked keys.
-/

namespace Chip8.KeyHold

inductive Call where
  | press (key : UInt8) (now : Nat)
  | expire (now : Nat)
deriving DecidableEq, Repr

/-- The events that a call brings: a press that begins a new hold, or the releases. -/
def serve (h : KeyHold) : Call → List KeyEvent × KeyHold
  | .press key now => (if (h.press key now).1 then [.down key] else [], (h.press key now).2)
  | .expire now => ((h.expire now).1.map .up, (h.expire now).2)

def after (h : KeyHold) (calls : List Call) : KeyHold :=
  calls.foldl (fun h call => (h.serve call).2) h

/-- The events of all calls, in order. -/
def events (h : KeyHold) : List Call → List KeyEvent
  | [] => []
  | call :: calls => (h.serve call).1 ++ (h.serve call).2.events calls

/-- The key was pressed, and no call since then has returned it. -/
def Tracked (h : KeyHold) (calls : List Call) (key : UInt8) : Prop :=
  ∃ before now later, calls = before ++ .press key now :: later ∧
    .up key ∉ (h.after (before ++ [.press key now])).events later

/-- The last press of the key came at time `t`, and the calls `later` after it. -/
def LastPressed (calls : List Call) (key : UInt8) (t : Nat) (later : List Call) : Prop :=
  (∃ before, calls = before ++ .press key t :: later) ∧ ∀ now, .press key now ∉ later

variable {h : KeyHold} {calls later : List Call} {call : Call} {key : UInt8} {t now : Nat}

theorem after_append (h : KeyHold) (calls calls' : List Call) :
    h.after (calls ++ calls') = (h.after calls).after calls' :=
  List.foldl_append

theorem after_cons (h : KeyHold) (call : Call) (calls : List Call) :
    h.after (call :: calls) = (h.serve call).2.after calls := rfl

theorem duration_serve (h : KeyHold) (call : Call) : (h.serve call).2.duration = h.duration := by
  cases call <;> rfl

theorem duration_after (h : KeyHold) (calls : List Call) :
    (h.after calls).duration = h.duration := by
  induction calls generalizing h with
  | nil => rfl
  | cons call calls ih => rw [after_cons, ih, duration_serve]

/-! ## Single calls -/

theorem isHeld_idle (duration : Nat) (key : UInt8) : (idle duration).isHeld key = false := by
  simp [isHeld, pressedAt, idle]

theorem isHeld_eq_false_iff : h.isHeld key = false ↔ h.pressedAt key = none := by
  rw [isHeld, Option.isSome_eq_false_iff, Option.isNone_iff_eq_none]

theorem press_begins (h : KeyHold) (key : UInt8) (now : Nat) :
    (h.press key now).1 = !h.isHeld key := rfl

theorem isHeld_press (h : KeyHold) (key key' : UInt8) (now : Nat) :
    (h.press key now).2.isHeld key' = if key = key' then true else h.isHeld key' := by
  rw [isHeld, pressedAt_press]
  split <;> rfl

theorem pairwise_codes : codes.Pairwise (· < ·) := by
  have hbelow : (List.range 256).Pairwise fun a b => UInt8.ofNat a < UInt8.ofNat b := by
    refine List.pairwise_lt_range.imp_of_mem fun ha hb hlt => ?_
    rw [List.mem_range] at ha hb
    rw [UInt8.lt_iff_toNat_lt, UInt8.toNat_ofNat', UInt8.toNat_ofNat']
    omega
  exact List.pairwise_map.mpr hbelow

theorem pairwise_expire (h : KeyHold) (now : Nat) : (h.expire now).1.Pairwise (· < ·) :=
  pairwise_codes.filter fun key => isDue h.duration now (h.pressedAt key)

theorem nodup_expire (h : KeyHold) (now : Nat) : (h.expire now).1.Nodup :=
  (h.pairwise_expire now).imp fun hlt heq => by simp [heq] at hlt

theorem pressedAt_of_mem_expire (hmem : key ∈ (h.expire now).1) :
    (h.expire now).2.pressedAt key = none := by
  rw [pressedAt_expire, if_pos ((mem_expire_iff h key now).mp hmem)]

theorem pressedAt_of_not_mem_expire (hmem : key ∉ (h.expire now).1) :
    (h.expire now).2.pressedAt key = h.pressedAt key := by
  rw [pressedAt_expire, if_neg fun hdue => hmem ((mem_expire_iff h key now).mpr hdue)]

theorem isHeld_of_not_mem_expire (hmem : key ∉ (h.expire now).1) :
    (h.expire now).2.isHeld key = h.isHeld key :=
  congrArg Option.isSome (pressedAt_of_not_mem_expire hmem)

theorem isHeld_of_mem_expire (hmem : key ∈ (h.expire now).1) : h.isHeld key = true := by
  have hdue := (mem_expire_iff h key now).mp hmem
  rw [isHeld]
  cases hpressed : h.pressedAt key with
  | none => simp [hpressed, isDue] at hdue
  | some t => rfl

theorem told_releases (key : UInt8) (released : List UInt8) :
    KeyEvent.told key (released.map .up) = List.replicate (released.count key) false := by
  induction released with
  | nil => rfl
  | cons code released ih =>
    rw [List.map_cons]
    by_cases hsame : code = key
    · have htells : (KeyEvent.up code).tells key = some false := if_pos hsame
      rw [KeyEvent.told_cons_of_some htells, ih, hsame, List.count_cons_self, List.replicate_succ]
    · have htells : (KeyEvent.up code).tells key = none := if_neg hsame
      rw [KeyEvent.told_cons_of_none htells, ih, List.count_cons_of_ne hsame]

/-- A call tells of a key exactly if it changes whether the key is held. -/
theorem told_serve (h : KeyHold) (call : Call) (key : UInt8) :
    KeyEvent.told key (h.serve call).1 =
      if (h.serve call).2.isHeld key = h.isHeld key then [] else [(h.serve call).2.isHeld key] := by
  cases call with
  | press code now =>
    have hafter : (h.serve (.press code now)).2.isHeld key =
        if code = key then true else h.isHeld key := isHeld_press h code key now
    rw [hafter, serve, press_begins]
    by_cases hsame : code = key
    · subst hsame
      by_cases hheld : h.isHeld code = true
      · simp [hheld, KeyEvent.told]
      · simp [hheld, KeyEvent.told, KeyEvent.tells]
    · rw [if_neg hsame, if_pos rfl]
      split
      · simp [KeyEvent.told, KeyEvent.tells, hsame]
      · rfl
  | expire now =>
    change KeyEvent.told key ((h.expire now).1.map .up) =
      if (h.expire now).2.isHeld key = h.isHeld key then [] else [(h.expire now).2.isHeld key]
    rw [told_releases]
    by_cases hmem : key ∈ (h.expire now).1
    · have hreleased : (h.expire now).2.isHeld key = false :=
        isHeld_eq_false_iff.mpr (pressedAt_of_mem_expire hmem)
      rw [List.count_eq_one_of_mem (h.nodup_expire now) hmem, hreleased,
        isHeld_of_mem_expire hmem]
      rfl
    · rw [List.count_eq_zero.mpr hmem, if_pos (isHeld_of_not_mem_expire hmem)]
      rfl

/-! ## Runs of calls -/

/-- For each key the events are the changes of its being held. -/
theorem told_events (h : KeyHold) (calls : List Call) (key : UInt8) :
    (h.isHeld key :: KeyEvent.told key (h.events calls)).IsChain (· ≠ ·) ∧
      (KeyEvent.told key (h.events calls)).getLast?.getD (h.isHeld key) =
        (h.after calls).isHeld key := by
  induction calls generalizing h with
  | nil => exact ⟨List.isChain_singleton _, rfl⟩
  | cons call calls ih =>
    obtain ⟨hchain, hlast⟩ := ih (h.serve call).2
    rw [events, KeyEvent.told_append, told_serve, after_cons]
    split
    · next hsame =>
      rw [← hsame]
      exact ⟨hchain, hlast⟩
    · next hchanged =>
      rw [List.singleton_append, List.getLast?_cons]
      exact ⟨List.isChain_cons_cons.mpr ⟨Ne.symm hchanged, hchain⟩, hlast⟩

theorem up_mem_events_cons :
    .up key ∈ h.events (call :: calls) ↔
      .up key ∈ (h.serve call).1 ∨ .up key ∈ (h.serve call).2.events calls := by
  rw [events, List.mem_append]

theorem up_not_mem_serve_press (h : KeyHold) (code : UInt8) (now : Nat) :
    .up key ∉ (h.serve (.press code now)).1 := by
  rw [serve]
  split <;> simp

theorem up_mem_serve_expire : .up key ∈ (h.serve (.expire now)).1 ↔ key ∈ (h.expire now).1 := by
  simp [serve]

/-- A key that is not pressed again stays as it is until it is returned. -/
theorem pressedAt_after_of_not_pressed (hquiet : ∀ now, .press key now ∉ calls) :
    (h.after calls).pressedAt key = if .up key ∈ h.events calls then none else h.pressedAt key := by
  induction calls generalizing h with
  | nil => rfl
  | cons call calls ih =>
    rw [after_cons, ih fun now hmem => hquiet now (List.mem_cons_of_mem _ hmem)]
    simp only [up_mem_events_cons]
    cases call with
    | press code now =>
      have hother : code ≠ key := fun hsame => hquiet now (by simp [hsame])
      have hsame : (h.serve (.press code now)).2.pressedAt key = h.pressedAt key := by
        rw [serve, pressedAt_press, if_neg hother]
      simp only [up_not_mem_serve_press, false_or, hsame]
    | expire now =>
      by_cases hmem : key ∈ (h.expire now).1
      · have hnone : (h.serve (.expire now)).2.pressedAt key = none := pressedAt_of_mem_expire hmem
        simp only [up_mem_serve_expire, hmem, true_or, if_true, hnone, ite_self]
      · have hsame : (h.serve (.expire now)).2.pressedAt key = h.pressedAt key :=
          pressedAt_of_not_mem_expire hmem
        simp only [up_mem_serve_expire, hmem, false_or, hsame]

/-- A held key stays held until it is returned, whether or not it is pressed again. -/
theorem isHeld_after_of_held (hheld : h.isHeld key = true) (hkept : .up key ∉ h.events calls) :
    (h.after calls).isHeld key = true := by
  induction calls generalizing h with
  | nil => exact hheld
  | cons call calls ih =>
    rw [up_mem_events_cons, not_or] at hkept
    refine ih ?_ hkept.2
    cases call with
    | press code now =>
      change (h.press code now).2.isHeld key = true
      rw [isHeld_press, hheld, ite_self]
    | expire now =>
      have hmem : key ∉ (h.expire now).1 := fun hmem => hkept.1 (up_mem_serve_expire.mpr hmem)
      exact (isHeld_of_not_mem_expire hmem).trans hheld

theorem lastPressed_or_not_pressed (calls : List Call) (key : UInt8) :
    (∃ t later, LastPressed calls key t later) ∨ ∀ now, .press key now ∉ calls := by
  induction calls with
  | nil => exact .inr fun now => List.not_mem_nil
  | cons call calls ih =>
    rcases ih with ⟨t, later, ⟨before, rfl⟩, hlast⟩ | hnever
    · exact .inl ⟨t, later, ⟨call :: before, rfl⟩, hlast⟩
    · by_cases hpress : ∃ t, call = .press key t
      · obtain ⟨t, rfl⟩ := hpress
        exact .inl ⟨t, calls, ⟨[], rfl⟩, hnever⟩
      · refine .inr fun now hmem => ?_
        rcases List.mem_cons.mp hmem with hsame | hlater
        · exact hpress ⟨now, hsame.symm⟩
        · exact hnever now hlater

theorem pressedAt_after_press (h : KeyHold) (before : List Call) (key : UInt8) (t : Nat) :
    (h.after (before ++ [.press key t])).pressedAt key = some t := by
  rw [after_append]
  change ((h.after before).press key t).2.pressedAt key = some t
  rw [pressedAt_press, if_pos rfl]

theorem after_split (h : KeyHold) (before : List Call) (key : UInt8) (t : Nat) (later : List Call) :
    h.after (before ++ .press key t :: later) =
      (h.after (before ++ [.press key t])).after later := by
  rw [← after_append, List.append_assoc, List.singleton_append]

theorem isHeld_of_tracked (htracked : Tracked h calls key) :
    (h.after calls).isHeld key = true := by
  obtain ⟨before, t, later, rfl, hkept⟩ := htracked
  rw [after_split]
  refine isHeld_after_of_held ?_ hkept
  rw [isHeld, pressedAt_after_press]
  rfl

theorem not_tracked_of_not_pressed (hnever : ∀ now, .press key now ∉ calls) :
    ¬Tracked h calls key := by
  rintro ⟨before, t, later, rfl, -⟩
  exact hnever t (by simp)

theorem LastPressed.unique {t' : Nat} {later' : List Call} (hlast : LastPressed calls key t later)
    (hlast' : LastPressed calls key t' later') : t = t' ∧ later = later' := by
  obtain ⟨⟨before, hsplit⟩, hquiet⟩ := hlast
  obtain ⟨⟨before', hsplit'⟩, hquiet'⟩ := hlast'
  rcases List.append_eq_append_iff.mp (hsplit.symm.trans hsplit') with
    ⟨mid, -, hrest⟩ | ⟨mid, -, hrest⟩
  · cases mid with
    | nil => simpa using hrest
    | cons call mid => exact absurd (by simp [(List.cons.inj hrest).2]) (hquiet t')
  · cases mid with
    | nil => simpa using hrest.symm
    | cons call mid => exact absurd (by simp [(List.cons.inj hrest).2]) (hquiet' t)

/-- What is stored for a key that was pressed is the last press, unless an expiry returned it. -/
theorem pressedAt_after_of_lastPressed (h : KeyHold) (hlast : LastPressed calls key t later) :
    (h.after calls).pressedAt key = none ∨
      (h.after calls).pressedAt key = some t ∧ Tracked h calls key := by
  obtain ⟨⟨before, rfl⟩, hquiet⟩ := hlast
  rw [after_split, pressedAt_after_of_not_pressed hquiet, pressedAt_after_press]
  split
  · exact .inl rfl
  · next hkept => exact .inr ⟨rfl, before, t, later, rfl, hkept⟩

/-- A fresh hold stores exactly the tracked keys, each with the time of its last press. -/
theorem pressedAt_after_iff (duration : Nat) (calls : List Call) (key : UInt8) (t : Nat) :
    ((idle duration).after calls).pressedAt key = some t ↔
      Tracked (idle duration) calls key ∧ ∃ later, LastPressed calls key t later := by
  rcases lastPressed_or_not_pressed calls key with ⟨t', later, hlast⟩ | hnever
  · have hstored := pressedAt_after_of_lastPressed (idle duration) hlast
    constructor
    · intro hpressed
      rw [hpressed] at hstored
      obtain ⟨hsame, htracked⟩ := hstored.resolve_left (Option.some_ne_none t)
      exact ⟨htracked, later, Option.some.inj hsame ▸ hlast⟩
    · rintro ⟨htracked, later', hlast'⟩
      have hheld : ((idle duration).after calls).pressedAt key ≠ none := fun hnone =>
        Bool.false_ne_true ((isHeld_eq_false_iff.mpr hnone).symm.trans (isHeld_of_tracked htracked))
      rw [(hstored.resolve_left hheld).1, (hlast.unique hlast').1]
  · have hnone : ((idle duration).after calls).pressedAt key = none := by
      rw [pressedAt_after_of_not_pressed hnever, isHeld_eq_false_iff.mp (isHeld_idle duration key),
        ite_self]
    simp [hnone, not_tracked_of_not_pressed hnever]

theorem isHeld_after_iff (duration : Nat) (calls : List Call) (key : UInt8) :
    ((idle duration).after calls).isHeld key = true ↔ Tracked (idle duration) calls key := by
  refine ⟨fun hheld => ?_, isHeld_of_tracked⟩
  obtain ⟨t, hpressed⟩ := Option.isSome_iff_exists.mp hheld
  exact ((pressedAt_after_iff duration calls key t).mp hpressed).1

theorem isDue_iff {duration : Nat} {pressed : Option Nat} :
    isDue duration now pressed = true ↔ ∃ t, pressed = some t ∧ duration ≤ now - t := by
  cases pressed <;> simp [isDue]

theorem mem_expire_after_iff (duration : Nat) (calls : List Call) (key : UInt8) (now : Nat) :
    key ∈ (((idle duration).after calls).expire now).1 ↔
      Tracked (idle duration) calls key ∧
        ∃ t later, LastPressed calls key t later ∧ duration ≤ now - t := by
  rw [mem_expire_iff, duration_after, isDue_iff]
  simp only [pressedAt_after_iff]
  constructor
  · rintro ⟨t, ⟨htracked, later, hlast⟩, hdue⟩
    exact ⟨htracked, t, later, hlast, hdue⟩
  · rintro ⟨htracked, t, later, hlast, hdue⟩
    exact ⟨t, ⟨htracked, later, hlast⟩, hdue⟩

/-- After an expiry no stored press is as old as the hold lasts. -/
theorem age_lt_of_expired (h : KeyHold) (hpressed : (h.expire now).2.pressedAt key = some t) :
    now - t < h.duration := by
  rw [pressedAt_expire] at hpressed
  split at hpressed
  · cases hpressed
  · next hdue =>
    rw [hpressed] at hdue
    simpa [isDue] using hdue

/-! ## A store without an order -/

/-- The keys that are due, read off the stored presses in any order and then sorted. -/
def sortedDue (duration now : Nat) (entries : List (UInt8 × Nat)) : List UInt8 :=
  ((entries.filter fun entry => duration ≤ now - entry.2).map Prod.fst).mergeSort

theorem pairwise_sortedDue (duration now : Nat) (entries : List (UInt8 × Nat)) :
    (sortedDue duration now entries).Pairwise (· ≤ ·) := by
  have hsorted : (sortedDue duration now entries).Pairwise fun a b => decide (a ≤ b) = true := by
    apply List.pairwise_mergeSort
    · intro a b c hab hbc
      exact decide_eq_true (UInt8.le_trans (of_decide_eq_true hab) (of_decide_eq_true hbc))
    · intro a b
      simp [UInt8.le_total]
  exact hsorted.imp of_decide_eq_true

/-- An expiry gives the same keys whatever order the stored presses are gone through. -/
theorem sortedDue_eq_expire (h : KeyHold) (now : Nat) {entries : List (UInt8 × Nat)}
    (hnodup : (entries.map Prod.fst).Nodup)
    (hentries : ∀ key t, (key, t) ∈ entries ↔ h.pressedAt key = some t) :
    sortedDue h.duration now entries = (h.expire now).1 := by
  have hperm : (sortedDue h.duration now entries).Perm (h.expire now).1 := by
    refine (List.mergeSort_perm _ _).trans ((List.perm_ext_iff_of_nodup ?_ ?_).mpr fun key => ?_)
    · exact hnodup.sublist (List.filter_sublist.map Prod.fst)
    · exact h.nodup_expire now
    · rw [mem_expire_iff, isDue_iff]
      simp [hentries]
  refine hperm.eq_of_pairwise (fun _ _ _ _ => UInt8.le_antisymm) ?_ ?_
  · exact pairwise_sortedDue h.duration now entries
  · exact (h.pairwise_expire now).imp UInt8.le_of_lt

/-! ## Key events and tracked keys -/

/-- A press begins a hold exactly if its key is not tracked, an expiry returns the tracked keys that
are due and leaves no such key, and what is told of a key alternates and keeps a keypad in step. -/
theorem hold_tracks_keys (duration : Nat) (calls : List Call) :
    (∀ key now, (((idle duration).after calls).press key now).1 = true ↔
        ¬Tracked (idle duration) calls key) ∧
      (∀ now, (((idle duration).after calls).expire now).1.Pairwise (· < ·) ∧
        (∀ key, key ∈ (((idle duration).after calls).expire now).1 ↔
          Tracked (idle duration) calls key ∧
            ∃ t later, LastPressed calls key t later ∧ duration ≤ now - t) ∧
        (∀ entries : List (UInt8 × Nat), (entries.map Prod.fst).Nodup →
          (∀ key t, (key, t) ∈ entries ↔
            Tracked (idle duration) calls key ∧ ∃ later, LastPressed calls key t later) →
          sortedDue duration now entries = (((idle duration).after calls).expire now).1) ∧
        ∀ key t later, Tracked (idle duration) (calls ++ [.expire now]) key →
          LastPressed (calls ++ [.expire now]) key t later → now - t < duration) ∧
      (∀ key, (KeyEvent.told key ((idle duration).events calls)).IsChain (· ≠ ·) ∧
        (KeyEvent.told key ((idle duration).events calls)).head? ≠ some false) ∧
      ∀ key, (Keypad.released.heedAll ((idle duration).events calls)).isHeld key = true ↔
        key.toNat < 16 ∧ Tracked (idle duration) calls key := by
  refine ⟨fun key now => ?_, fun now => ⟨pairwise_expire _ now, fun key => ?_, ?_, ?_⟩,
    fun key => ?_, fun key => ?_⟩
  · rw [press_begins, Bool.not_eq_true', ← Bool.not_eq_true, isHeld_after_iff]
  · exact mem_expire_after_iff duration calls key now
  · intro entries hnodup hentries
    have hstored : ∀ key t, (key, t) ∈ entries ↔
        ((idle duration).after calls).pressedAt key = some t := fun key t =>
      (hentries key t).trans (pressedAt_after_iff duration calls key t).symm
    have hsorted := sortedDue_eq_expire ((idle duration).after calls) now hnodup hstored
    rwa [duration_after] at hsorted
  · intro key t later htracked hlast
    have hpressed := (pressedAt_after_iff duration (calls ++ [.expire now]) key t).mpr
      ⟨htracked, later, hlast⟩
    rw [after_append] at hpressed
    have hage := age_lt_of_expired ((idle duration).after calls) hpressed
    rwa [duration_after] at hage
  · have hchain := (told_events (idle duration) calls key).1
    rw [isHeld_idle, List.isChain_cons] at hchain
    exact ⟨hchain.2, fun hhead => hchain.1 false hhead rfl⟩
  · by_cases hpad : key.toNat < 16
    · have hlast := (told_events (idle duration) calls key).2
      rw [isHeld_idle] at hlast
      rw [Keypad.isHeld_heedAll _ _ hpad, Keypad.isHeld_released, hlast, isHeld_after_iff]
      exact (and_iff_right hpad).symm
    · simp [Keypad.isHeld_of_le _ (Nat.le_of_not_lt hpad), hpad]

/-- Two keys run out together and come lowest first, though the other was stored first. -/
theorem two_holds_run_out :
    let calls := [Call.press 12 10, .press 5 0, .press 5 50]
    sortedDue 100 160 [(12, 10), (5, 50)] = [5, 12] ∧
      (((idle 100).after calls).expire 160).1 = [5, 12] := by
  intro calls
  have hsorted : sortedDue 100 160 [(12, 10), (5, 50)] = [5, 12] := by
    simp [sortedDue, List.mergeSort, List.MergeSort.Internal.splitInTwo]
  have hstored : ∀ key, ((idle 100).after calls).pressedAt key =
      if 5 = key then some 50 else if 12 = key then some 10 else none := by
    intro key
    simp only [calls, after, List.foldl_cons, List.foldl_nil, serve, pressedAt_press]
    rw [isHeld_eq_false_iff.mp (isHeld_idle 100 key)]
    split <;> rfl
  refine ⟨hsorted, Eq.trans (Eq.symm ?_) hsorted⟩
  refine ((hold_tracks_keys 100 calls).2.1 160).2.2.1 [(12, 10), (5, 50)] (by decide) fun key t => ?_
  rw [← pressedAt_after_iff, hstored]
  by_cases hfive : 5 = key
  · subst hfive
    simp [eq_comm]
  · by_cases htwelve : 12 = key
    · subst htwelve
      simp [eq_comm]
    · simp [hfive, htwelve, Ne.symm hfive, Ne.symm htwelve]

end Chip8.KeyHold
