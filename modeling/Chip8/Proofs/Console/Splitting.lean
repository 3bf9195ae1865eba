import Chip8.Proofs.Console.Twins

/-!
# Main loops in two parts

A main loop that ends at its limit can be taken up again by another one.  The first leaves the tone
switched off where a single loop might have left it on, so until the tone is set again the two ways
differ in their buzzers; if no buzzer fails this is all they differ in, and the end of the second
loop is the end of the single one.  The buzzer was switched off and on once more at most.
-/

namespace Chip8

/-- A silence put into a signal is noticed only in the middle of a tone, and there twice. -/
theorem Buzzer.changes_insert_false (now : Bool) (before : List Bool) {after : List Bool}
    (hafter : after ≠ []) :
    changes now (before ++ false :: after) = changes now (before ++ after) ∨
      changes now (before ++ false :: after) = changes now (before ++ after) + 2 := by
  induction before generalizing now with
  | nil =>
    obtain ⟨next, later, rfl⟩ := List.exists_cons_of_ne_nil hafter
    cases now <;> cases next <;> simp [changes]
    omega
  | cons on before ih =>
    rw [List.cons_append, List.cons_append, changes, changes]
    rcases ih on with h | h
    · exact .inl (by rw [h])
    · exact .inr (by rw [h, Nat.add_assoc])

namespace Console

variable {κ δ β : Type}

/-- Neither of two buzzers will fail at anything. -/
def BothReliable [Buzzer β] (b b' : β) : Prop :=
  Buzzer.NeverFails b ∧ Buzzer.NeverFails b'

theorem followAlike_reliable [Buzzer β] : FollowAlike (BothReliable (β := β)) := by
  rintro b b' ⟨hb, hb'⟩ on
  exact ⟨(hb.follow_ok on).trans (hb'.follow_ok on).symm, hb.follow on, hb'.follow on⟩

section Finish

variable [Buzzer β] {c : Console κ δ β} (h : Buzzer.NeverFails c.buzzer) (ending : Ending)

include h

theorem silent_after_finish [Buzzer.Lawful β] :
    Buzzer.sounding (c.after (finish ending)).buzzer = false := by
  rw [buzzer_after_finish]
  exact Buzzer.sounding_of_follow_ok (h.follow_ok false)

/-- A console that a loop leaves at its end differs in its journal and its buzzer only from the one
that it would have gone on with. -/
theorem twins_finish : Twins BothReliable c (c.after (finish ending)) := by
  have hbuzzer := buzzer_after_finish ending c
  obtain ⟨session, buzzer, hmachine, hfinish⟩ := after_finish ending c
  rw [hfinish] at hbuzzer ⊢
  refine ⟨hmachine.symm, rfl, rfl, rfl, h, ?_⟩
  rw [hbuzzer]
  exact h.follow false

end Finish

/-- Loops that leave twins and differ in their counts report alike and leave all but their journals
alike. -/
theorem finish_agrees [Buzzer β] [Buzzer.Lawful β] {c c' : Console κ δ β}
    (h : Twins BothReliable c c') {ending ending' : Ending} {more : Nat}
    (hfailure : ending.failure = ending'.failure)
    (hframes : ending.frames = more + ending'.frames) :
    ((c'.after (finish ending')).machine = (c.after (finish ending)).machine ∧
        (c'.after (finish ending')).keyboard = (c.after (finish ending)).keyboard ∧
        (c'.after (finish ending')).display = (c.after (finish ending)).display ∧
        Buzzer.sounding (c'.after (finish ending')).buzzer = false ∧
        Buzzer.sounding (c.after (finish ending)).buzzer = false) ∧
      (∀ r, answered ((finish ending').run c') = some r ↔
        answered ((finish ending).run c) = some (more + r)) ∧
      failed ((finish ending').run c') = failed ((finish ending).run c) := by
  obtain ⟨hreliable, hreliable'⟩ := h.buzzer
  have hend := twins_finish hreliable ending
  have hend' := twins_finish hreliable' ending'
  obtain ⟨hanswered, hfailed⟩ := finish_of_silenced (hreliable.follow_ok false) ending
  obtain ⟨hanswered', hfailed'⟩ := finish_of_silenced (hreliable'.follow_ok false) ending'
  refine ⟨⟨?_, ?_, ?_, ?_, ?_⟩, fun r => ?_, ?_⟩
  · exact hend'.machine.symm.trans (h.machine.symm.trans hend.machine)
  · exact hend'.keyboard.symm.trans (h.keyboard.symm.trans hend.keyboard)
  · exact hend'.display.symm.trans (h.display.symm.trans hend.display)
  · exact silent_after_finish hreliable' ending'
  · exact silent_after_finish hreliable ending
  · rw [hanswered, hanswered', hfailure, hframes, Nat.add_left_cancel_iff]
  · rw [hfailed, hfailed', hfailure]

section Loop

variable [Keyboard κ] [Display δ] [Buzzer β]

theorem budget_of_pos {n : Nat} (hn : 1 ≤ n) : budget (some n) = n :=
  Nat.max_eq_left hn

theorem tonesOf_mainLoop {n : Nat} (hn : 1 ≤ n) (c : Console κ δ β) :
    c.tonesOf (.mainLoop (some n)) = (loopFrames n c).filterMap tone ++ [false] := by
  rw [tonesOf, framesOf, budget_of_pos hn]

theorem reliable_after_runFrames {c : Console κ δ β} (h : Buzzer.NeverFails c.buzzer)
    (budget done : Nat) : Buzzer.NeverFails (runFrames budget done c).2.buzzer := by
  rw [buzzer_after_runFrames]
  exact h.followAll _

/-- A loop that answers its limit has completed all its frames. -/
theorem all_complete_of_answered {n : Nat} (hn : 1 ≤ n) {c : Console κ δ β}
    (h : Buzzer.NeverFails c.buzzer) (hanswered : answered ((mainLoop (some n)).run c) = some n) :
    ∀ i < n, (c.afterFrames i).completes = true := by
  rw [run_mainLoop, budget_of_pos hn] at hanswered
  have hend := reliable_after_runFrames h n 0
  obtain ⟨-, hframes⟩ := ((finish_of_silenced (hend.follow_ok false) _).1 n).mp hanswered
  rw [frames_runFrames, Nat.zero_add] at hframes
  exact completes_of_countP hframes

section Split

variable {c : Console κ δ β} {a b : Nat}
variable (ha : 1 ≤ a) (hb : 1 ≤ b) (hall : ∀ i < a, (c.afterFrames i).completes = true)

include ha hall

theorem after_first_loop :
    c.after (mainLoop (some a)) = (c.afterFrames a).after (finish ⟨a, none⟩) := by
  rw [after_mainLoop, budget_of_pos ha, runFrames_of_all_complete hall]

theorem runFrames_single :
    runFrames (budget (some (a + b))) 0 c = runFrames b a (c.afterFrames a) := by
  rw [budget_of_pos (Nat.le_add_right_of_le ha), runFrames_add hall, Nat.zero_add]

theorem twins_middle (h : Buzzer.NeverFails c.buzzer) :
    Twins BothReliable (c.afterFrames a) (c.after (mainLoop (some a))) := by
  have hmiddle := reliable_after_runFrames h a 0
  rw [runFrames_of_all_complete hall] at hmiddle
  rw [after_first_loop ha hall]
  exact twins_finish hmiddle _

include hb

/-- The two ways set the same tones, but for the silence in the middle of one of them. -/
theorem tones_split (h : Buzzer.NeverFails c.buzzer) :
    ∃ before after, c.tones [.mainLoop (some (a + b))] = before ++ (after ++ [false]) ∧
      c.tones [.mainLoop (some a), .mainLoop (some b)] =
        before ++ false :: (after ++ [false]) := by
  have hlater := (twins_middle ha hall h).tones_loopFrames followAlike_reliable b
  refine ⟨(loopFrames a c).filterMap tone, (loopFrames b (c.afterFrames a)).filterMap tone, ?_, ?_⟩
  · rw [tones, tones, tonesOf_mainLoop (Nat.le_add_right_of_le ha), loopFrames_add hall,
      List.filterMap_append, List.append_nil, List.append_assoc]
  · rw [tones, tones, tones, tonesOf_mainLoop ha, tonesOf_mainLoop hb, serve, hlater,
      List.append_nil, List.append_assoc]
    rfl

end Split

end Loop

/-- A main loop that ends at its limit, followed by another one, comes to the end of the single loop
with both their limits: all but the journal is the same, and the buzzer was told the same but for
being switched off and on again at most once. -/
theorem mainLoop_splits [Keyboard κ] [Display δ] [Buzzer β] [Buzzer.Lawful β]
    {c : Console κ δ (Metered β)} (hreliable : Buzzer.NeverFails c.buzzer.device) {a b : Nat}
    (ha : 1 ≤ a) (hb : 1 ≤ b) (hfirst : answered ((mainLoop (some a)).run c) = some a) :
    let middle := c.after (mainLoop (some a))
    let split := middle.after (mainLoop (some b))
    let single := c.after (mainLoop (some (a + b)))
    (split.machine = single.machine ∧ split.keyboard = single.keyboard ∧
        split.display = single.display ∧ Buzzer.sounding split.buzzer = false ∧
        Buzzer.sounding single.buzzer = false) ∧
      (∀ r, answered ((mainLoop (some b)).run middle) = some r ↔
        answered ((mainLoop (some (a + b))).run c) = some (a + r)) ∧
      failed ((mainLoop (some b)).run middle) = failed ((mainLoop (some (a + b))).run c) ∧
      (split.buzzer.calls.length = single.buzzer.calls.length ∨
        split.buzzer.calls.length = single.buzzer.calls.length + 2) := by
  intro middle split single
  have hmetered : Buzzer.NeverFails c.buzzer := Metered.neverFails hreliable
  have hall := all_complete_of_answered ha hmetered hfirst
  have hsingle := runFrames_single (b := b) ha hall
  have hsecond : runFrames (budget (some b)) 0 middle = runFrames b 0 middle := by
    rw [budget_of_pos hb]
  -- From the middle on the two ways are twins, whose counts differ by the first limit.
  have hmiddle : Twins BothReliable (c.afterFrames a) middle := twins_middle ha hall hmetered
  obtain ⟨hfailure, hframes, htwins⟩ := hmiddle.runFrames followAlike_reliable b a 0
  obtain ⟨hleft, hanswers, hfails⟩ :=
    finish_agrees htwins hfailure (hframes.trans (Nat.add_comm _ a))
  rw [← hsingle, ← hsecond] at hleft hanswers hfails
  refine ⟨hleft, hanswers, hfails, ?_⟩
  have hcalls (calls : List Call) : (c.serveAll calls).buzzer.calls.length =
      c.buzzer.calls.length + Buzzer.changes (Buzzer.sounding c.buzzer) (c.tones calls) := by
    rw [buzzer_after_serveAll, Metered.length_calls_followAll (hmetered.keepsUp _)]
  have hsplitCalls : split.buzzer.calls.length = _ := hcalls [.mainLoop (some a), .mainLoop (some b)]
  have hsingleCalls : single.buzzer.calls.length = _ := hcalls [.mainLoop (some (a + b))]
  obtain ⟨before, after, hone, htwo⟩ := tones_split ha hb hall hmetered
  have hinsert := Buzzer.changes_insert_false (Buzzer.sounding c.buzzer) before
    (List.append_ne_nil_of_right_ne_nil after (List.cons_ne_nil false []))
  rw [hsplitCalls, hsingleCalls, htwo, hone]
  omega

theorem chime_split_in_tone :
    let c : Console Script Recorder (Metered Mute) := ⟨chiming, ⟨[]⟩, .fresh, ⟨.fresh, []⟩, 3⟩
    let middle := c.after (mainLoop (some 1))
    let split := middle.after (mainLoop (some 1))
    let single := c.after (mainLoop (some 2))
    split.machine = single.machine ∧ split.display = single.display ∧
      split.buzzer.calls.length = single.buzzer.calls.length + 2 := by
  intro c middle split single
  obtain ⟨⟨hmachine, -, hdisplay, -⟩, -, -, hcalls⟩ :=
    mainLoop_splits (c := c) (Mute.neverFails _) (a := 1) (b := 1) (by decide) (by decide)
      (by decide +kernel)
  have hmore : split.buzzer.calls.length ≠ single.buzzer.calls.length := by decide +kernel
  exact ⟨hmachine, hdisplay, hcalls.resolve_left hmore⟩

end Console

end Chip8
