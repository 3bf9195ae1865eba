import Chip8.Proofs.Machine.Reachable

/-!
# The redraw request

The request for a redraw is a promise to whoever shows the picture: as long as it is not made, what
was shown is still right.  It is also made for no other reason than that an instruction clears,
draws, or stores a byte of the display.  Both are shown of one request first and then of a run by
its executions.
-/

namespace Chip8.Machine

theorem redraw_perform {m : Machine} {request : Request} (h : request ≠ .takeRedraw) :
    (m.perform request).2.redraw = true ↔
      m.redraw = true ∨ ∃ e, m.executed request = some e ∧ e.TouchesScreen := by
  cases hexecuted : m.executed request with
  | none =>
    rw [(idle_of_not_executed hexecuted).redraw h]
    constructor
    · exact .inl
    · intro hasked
      rcases hasked with hredraw | ⟨e, he, -⟩
      · exact hredraw
      · cases he
  | some e =>
    obtain ⟨rfl, hexecute⟩ := perform_of_executed hexecuted
    rw [redraw_execute hexecute]
    constructor
    · intro hasked
      rcases hasked with hredraw | htouch
      · exact .inl hredraw
      · exact .inr ⟨e, rfl, htouch⟩
    · intro hasked
      rcases hasked with hredraw | ⟨e', he, htouch⟩
      · exact .inl hredraw
      · obtain rfl := Option.some.inj he
        exact .inr htouch

/-- As long as nobody takes it, the request stands for all that was executed. -/
theorem redraw_run {m : Machine} {requests : List Request} (h : .takeRedraw ∉ requests) :
    (m.run requests).redraw = true ↔
      m.redraw = true ∨ ∃ e ∈ m.executions requests, e.TouchesScreen := by
  induction requests generalizing m with
  | nil => simp [executions]
  | cons request requests ih =>
    rw [List.mem_cons, not_or] at h
    obtain ⟨hfirst, hothers⟩ := h
    rw [run_cons, ih hothers, redraw_perform (Ne.symm hfirst), or_assoc]
    apply or_congr_right
    constructor
    · intro hevent
      rcases hevent with ⟨e, he, htouch⟩ | ⟨e, he, htouch⟩
      · exact ⟨e, mem_executions_cons.mpr (.inl he), htouch⟩
      · exact ⟨e, mem_executions_cons.mpr (.inr he), htouch⟩
    · intro hevent
      obtain ⟨e, he, htouch⟩ := hevent
      exact (mem_executions_cons.mp he).imp (⟨e, ·, htouch⟩) (⟨e, ·, htouch⟩)

theorem display_perform {m : Machine} {request : Request} (hstack : m.stack.Sound)
    (h : ∀ e, m.executed request = some e → ¬ e.TouchesScreen) :
    (m.perform request).2.memory.display = m.memory.display := by
  cases hexecuted : m.executed request with
  | none => rw [(idle_of_not_executed hexecuted).memory]
  | some e =>
    obtain ⟨rfl, hexecute⟩ := perform_of_executed hexecuted
    exact display_execute hexecute hstack (h e hexecuted)

theorem display_run {m : Machine} {requests : List Request} (hstack : m.stack.Sound)
    (h : ∀ e ∈ m.executions requests, ¬ e.TouchesScreen) :
    (m.run requests).memory.display = m.memory.display := by
  induction requests generalizing m with
  | nil => rfl
  | cons request requests ih =>
    calc (m.run (request :: requests)).memory.display
        = (m.perform request).2.memory.display :=
          ih (sound_perform hstack request) fun e he => h e (mem_executions_cons.mpr (.inr he))
      _ = m.memory.display :=
          display_perform hstack fun e he => h e (mem_executions_cons.mpr (.inl he))

theorem picture_run_of_not_redraw {m : Machine} {requests : List Request} (hstack : m.stack.Sound)
    (h : .takeRedraw ∉ requests) (hnone : (m.run requests).redraw ≠ true) :
    m.redraw ≠ true ∧ (m.run requests).picture = m.picture := by
  rw [Ne, redraw_run h, not_or] at hnone
  obtain ⟨hbefore, hquiet⟩ := hnone
  have hdisplay : (m.run requests).memory.display = m.memory.display :=
    display_run hstack fun e he htouch => hquiet ⟨e, he, htouch⟩
  exact ⟨hbefore, congrArg Bitmap.picture hdisplay⟩

theorem takeRedraw_run {shown : Machine} {requests : List Request} (h : .takeRedraw ∉ requests) :
    (shown.takeRedraw.2.run requests).takeRedraw.1 = true ↔
      ∃ e ∈ shown.takeRedraw.2.executions requests, e.TouchesScreen :=
  (redraw_run h).trans (or_iff_right Bool.false_ne_true)

theorem display_of_not_takeRedraw {shown : Machine} {requests : List Request}
    (hstack : shown.stack.Sound) (h : .takeRedraw ∉ requests)
    (hnone : (shown.takeRedraw.2.run requests).takeRedraw.1 = false) :
    (shown.takeRedraw.2.run requests).memory.display = shown.memory.display := by
  calc (shown.takeRedraw.2.run requests).memory.display
      = shown.takeRedraw.2.memory.display := by
        refine display_run (m := shown.takeRedraw.2) hstack fun e he htouch => ?_
        rw [(takeRedraw_run h).mpr ⟨e, he, htouch⟩] at hnone
        cases hnone
    _ = shown.memory.display := rfl

/-- A redraw is asked for exactly if the screen was touched since it was last asked for, and a
machine just started asks for one.  If none is asked for, the display is as it was. -/
theorem takeRedraw_exact {program : List UInt8} {config : Config} {chance : RandomSource}
    {m₀ : Machine} (hstart : start program config chance = .ok m₀) :
    (∀ before : List Request, .takeRedraw ∉ before → (m₀.run before).takeRedraw.1 = true) ∧
    ∀ before between : List Request, .takeRedraw ∉ between →
      let shown := m₀.run before
      let m := m₀.run (before ++ .takeRedraw :: between)
      (m.takeRedraw.1 = true ↔
        ∃ e ∈ (m₀.run (before ++ [.takeRedraw])).executions between, e.TouchesScreen) ∧
      (m.takeRedraw.1 = false →
        m.memory.display = shown.memory.display ∧ m.picture = shown.picture) := by
  refine ⟨fun before hbefore => ?_, fun before between hbetween => ?_⟩
  · obtain ⟨-, -, rfl⟩ := start_eq_ok_iff.mp hstart
    exact (redraw_run hbefore).mpr (.inl rfl)
  · rw [run_append, run_append]
    refine ⟨takeRedraw_run hbetween, fun hnone => ?_⟩
    have hdisplay := display_of_not_takeRedraw (sound_run (sound_start hstart) before) hbetween hnone
    exact ⟨hdisplay, congrArg Bitmap.picture hdisplay⟩

/-- A jump asks for no redraw once the first one is taken. -/
theorem jump_keeps_picture :
    (loaded [0x12, 0x00] .standard (.ofSeed 1)).takeRedraw.1 = true ∧
      ((loaded [0x12, 0x00] .standard (.ofSeed 1)).run
        [.takeRedraw, .step, .tick]).picture =
          (loaded [0x12, 0x00] .standard (.ofSeed 1)).picture := by
  have hstart : start [0x12, 0x00] .standard (.ofSeed 1) =
      .ok (loaded [0x12, 0x00] .standard (.ofSeed 1)) :=
    start_eq_ok_iff.mpr ⟨by decide, by decide, rfl⟩
  obtain ⟨hfirst, hlater⟩ := takeRedraw_exact hstart
  have hnone : ((loaded [0x12, 0x00] .standard (.ofSeed 1)).run
      [.takeRedraw, .step, .tick]).takeRedraw.1 = false := by decide +kernel
  exact ⟨hfirst [] (by decide), ((hlater [] [.step, .tick] (by decide)).2 hnone).2⟩

end Chip8.Machine
