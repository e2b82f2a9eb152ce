import Chip8.Proofs.Play

/-!
# How sessions end

A session passes one frame after the other and ends in the first that it does not pass: its steps are used up before
the frame, one of them fails in it, or the host interrupts after it. This is so with a number of steps and without
one, and also if the session is left after some frames.

* `Grants` — the steps that a session has. `lt_stepsIn_iff`, `usedUp_schedule_eq_false` — the loop grants those.
* `Passes`, `EndsIn` — what can happen in a frame. `passes_or_endsIn` — one of the two does.
* `playFor_of_passes`, `playFor_of_endsIn` — the session after frames that it passed, and after its last frame.
* `playFor_ended` — whatever has ended has ended in its first frame that was not passed. `playFor_of_le` — and then
  stays as it is.
* `play_ends` — sessions with a number of steps, or with an interrupt to come, do end.
* `Stops` — the step at which a session fails, told from the steps, the keys and the interrupt. `EndsIn.stops_or` —
  a session fails at this step if there is one, and else it does not fail. `playFor_of_stops` — and it comes to it.
-/

set_option autoImplicit false

namespace Chip8

open Machine

/-! ## The steps of a session -/

namespace Settings

variable {settings : Settings} {i j : Nat}

/-- A session has a step of this number, counted from zero. -/
def Grants (settings : Settings) (i : Nat) : Prop := ∀ most, settings.maxCycles = some most → (i : Int) < most

theorem Grants.mono (h : settings.Grants j) (hij : i ≤ j) : settings.Grants i := by
  intro most hmost
  have hj := h most hmost
  omega

/-- The steps of a frame are those of a full frame that the session has. -/
theorem lt_stepsIn_iff {f : Nat} :
    j < settings.stepsIn f ↔ j < settings.stepsPerFrame ∧ settings.Grants (f * settings.stepsPerFrame + j) := by
  unfold stepsIn Grants
  cases settings.maxCycles with
  | none => simp
  | some most =>
    simp only [Option.some.injEq, forall_eq']
    omega

/-- The steps are not used up before a frame whose first step the session has. -/
theorem usedUp_schedule_eq_false (settings : Settings) (host : Host) (f : Nat) :
    settings.usedUp ((settings.schedule host f).count .step) = false ↔
      settings.Grants (f * settings.stepsPerFrame) := by
  cases hmost : settings.maxCycles with
  | none => simp [usedUp, Grants, hmost]
  | some most =>
    rw [settings.count_step_schedule host hmost]
    simp only [usedUp, Grants, hmost, Option.some.injEq, forall_eq', decide_eq_false_iff_not]
    omega

end Settings

namespace Session

variable {env : Environment} {settings : Settings} {host : Host} {m : Machine} {journal : List Event} {f i j n : Nat}
  {e : Error} {ending : Ending} {history : List Action}

/-! ## Frames -/

/-- A session passes a frame: it has steps for it, all of them succeed, and the host does not interrupt after it. -/
structure Passes (env : Environment) (settings : Settings) (host : Host) (m : Machine) (f : Nat) : Prop where
  granted : settings.Grants (f * settings.stepsPerFrame)
  goesWell : GoesWell env settings host m f
  undisturbed : host.interruptAt ≠ some ((f + 1 : Nat) : Int)

/-- A session ends in a frame, in some way and after some actions. -/
inductive EndsIn (env : Environment) (settings : Settings) (host : Host) (m : Machine) (f : Nat) :
    Ending → List Action → Prop where
  /-- No step is left for the frame. -/
  | completed (hused : ¬ settings.Grants (f * settings.stepsPerFrame)) :
      EndsIn env settings host m f .completed (settings.schedule host f)
  /-- One of the steps fails. -/
  | failed {j : Nat} {e : Error} (hj : j < settings.stepsIn f)
      (hsteps : ∀ k < j, SucceedsAfter env m (settings.upTo host f k))
      (he : FailsAfter env m (settings.upTo host f j) e) :
      EndsIn env settings host m f (.failed e) (settings.upTo host f j ++ [.step])
  /-- The host interrupts after the frame. -/
  | interrupted (hgranted : settings.Grants (f * settings.stepsPerFrame)) (hwell : GoesWell env settings host m f)
      (hhost : host.interruptAt = some ((f + 1 : Nat) : Int)) :
      EndsIn env settings host m f .interrupted (settings.schedule host (f + 1))

theorem passes_or_endsIn (env : Environment) (settings : Settings) (host : Host) (m : Machine) (f : Nat) :
    Passes env settings host m f ∨ ∃ ending history, EndsIn env settings host m f ending history := by
  by_cases hgranted : settings.Grants (f * settings.stepsPerFrame)
  · rcases all_or_first_failure env m (settings.upTo host f) (settings.stepsIn f) with
      hwell | ⟨j, hj, e, hsteps, he⟩
    · by_cases hhost : host.interruptAt = some ((f + 1 : Nat) : Int)
      · exact .inr ⟨_, _, .interrupted hgranted hwell hhost⟩
      · exact .inl ⟨hgranted, hwell, hhost⟩
    · exact .inr ⟨_, _, .failed hj hsteps he⟩
  · exact .inr ⟨_, _, .completed hgranted⟩

/-! ## Sessions that are left after some frames -/

theorem playFor_of_passes (h : ∀ f < n, Passes env settings host m f) :
    playFor env settings host n (start m journal) = (onSchedule env settings host m journal n, .unfinished) :=
  playFor_onSchedule (fun f hf => (h f hf).goesWell)
    (fun f hf => (settings.usedUp_schedule_eq_false host f).2 (h f hf).granted) fun f hf => (h f hf).undisturbed

/-- A session ends in the first frame that it does not pass, unless it is left before. -/
theorem playFor_of_endsIn (journal : List Event) (hpasses : ∀ g < f, Passes env settings host m g)
    (h : EndsIn env settings host m f ending history) (hn : f < n) :
    ∃ executed frames, playFor env settings host n (start m journal) =
      (planned env settings host m journal history executed frames, ending) := by
  obtain ⟨r, rfl⟩ : ∃ r, n = f + (r + 1) := ⟨n - f - 1, by omega⟩
  have hused := settings.usedUp_schedule_eq_false host f
  rw [playFor_add, playFor_of_passes hpasses]
  dsimp only
  rw [playFor, show (onSchedule env settings host m journal f).executed = (settings.schedule host f).count .step from rfl]
  cases h with
  | completed hnone =>
    rw [← hused, Bool.not_eq_false] at hnone
    rw [hnone, if_pos rfl]
    exact ⟨_, _, rfl⟩
  | @failed j e hj hsteps he =>
    have hgranted := (Settings.lt_stepsIn_iff.1 hj).2.mono (Nat.le_add_right _ j)
    rw [hused.2 hgranted, frame_onSchedule_of_failure hj hsteps he]
    exact ⟨_, _, rfl⟩
  | interrupted hgranted hwell hhost =>
    rw [hused.2 hgranted, frame_onSchedule hwell, if_pos hhost]
    exact ⟨_, _, rfl⟩

theorem EndsIn.ne_unfinished (h : EndsIn env settings host m f ending history) : ending ≠ .unfinished := by
  cases h <;> simp

theorem EndsIn.aroundWait (h : EndsIn env settings host m f ending history) : ∀ a ∈ history, a.AroundWait := by
  cases h with
  | completed | interrupted => exact settings.aroundWait_schedule host _
  | failed =>
    rw [List.forall_mem_append, List.forall_mem_singleton]
    exact ⟨settings.aroundWait_upTo host (settings.aroundWait_schedule host f), .step⟩

/-- **Whatever has ended has ended in its first frame that was not passed.** -/
theorem playFor_ended {s : Session} (h : playFor env settings host n (start m journal) = (s, ending))
    (hended : ending ≠ .unfinished) :
    ∃ f history, (∀ g < f, Passes env settings host m g) ∧ EndsIn env settings host m f ending history ∧
      ∃ executed frames, s = planned env settings host m journal history executed frames := by
  rcases all_or_first (passes_or_endsIn env settings host m) n with hall | ⟨f, hf, hpasses, ending', history, hends⟩
  · rw [playFor_of_passes hall] at h
    exact absurd (Prod.mk.inj h).2.symm hended
  · obtain ⟨executed, frames, hplay⟩ := playFor_of_endsIn journal hpasses hends hf
    rw [hplay] at h
    obtain ⟨rfl, rfl⟩ := Prod.mk.inj h
    exact ⟨f, history, hpasses, hends, executed, frames, rfl⟩

/-- A session that ended is not changed by leaving it later. -/
theorem playFor_of_le {s t : Session} {k : Nat} (h : playFor env settings host n s = (t, ending))
    (hended : ending ≠ .unfinished) (hk : n ≤ k) : playFor env settings host k s = (t, ending) := by
  obtain ⟨r, rfl⟩ := Nat.exists_eq_add_of_le hk
  rw [playFor_add, h]
  cases ending with
  | unfinished => exact absurd rfl hended
  | _ => rfl

/-- **A session with a number of steps ends, and so does one that the host interrupts.** -/
theorem play_ends (h : settings.maxCycles.isSome = true ∨ ∃ k : Int, 0 < k ∧ host.interruptAt = some k) :
    (play env settings host (start m journal)).2 ≠ .unfinished := by
  rcases all_or_first (passes_or_endsIn env settings host m) (settings.horizon host) with
    hall | ⟨f, hf, hpasses, ending, history, hends⟩
  · exfalso
    cases hmost : settings.maxCycles with
    | some most =>
      -- each frame takes a step, so that some frame before the horizon has none left
      have hgranted := (hall most.toNat (by simp [Settings.horizon, hmost])).granted most hmost
      have hmul := Nat.le_mul_of_pos_right most.toNat settings.stepsPerFrame_pos
      omega
    | none =>
      rw [hmost] at h
      obtain h | ⟨k, hk, hhost⟩ := h
      · cases h
      · have hhorizon : settings.horizon host = k.toNat + 1 := by simp [Settings.horizon, hmost, hhost, hk]
        refine (hall (k.toNat - 1) (by omega)).undisturbed ?_
        rw [hhost]
        exact congrArg some (by omega)
  · obtain ⟨executed, frames, hplay⟩ := playFor_of_endsIn journal hpasses hends hf
    rw [play, hplay]
    exact hends.ne_unfinished

/-- What was told when a session was left: what was told before it, and what its actions tell. -/
theorem events_planned (history : List Action) (executed frames : Nat) :
    (planned env settings host m journal history executed frames).events =
      journal.reverse ++ Machine.tell env m history := by
  simp [planned, events, follow, start]

/-- What was printed when a session was left: the screen after each complete frame. -/
theorem output_planned (history : List Action) (executed frames : Nat) :
    (planned env settings host m journal history executed frames).output =
      String.join ((List.range frames).map fun f =>
        (run env m (settings.schedule host (f + 1))).screen.picture ++ "\n") := by
  rw [output, planned, List.reverse_reverse, List.map_map]
  rfl

/-! ## The step that fails -/

/-- A session fails at the step of this number: it has this step, the steps before it succeed, the step fails, and the
host does not interrupt before it. -/
structure Stops (env : Environment) (settings : Settings) (host : Host) (m : Machine) (i : Nat) (e : Error) : Prop where
  granted : settings.Grants i
  before : ∀ j < i, SucceedsAfter env m (settings.beforeStep host j)
  fails : FailsAfter env m (settings.beforeStep host i) e
  undisturbed : ∀ k, 1 ≤ k → k ≤ i / settings.stepsPerFrame → host.interruptAt ≠ some (k : Int)

/-- A step of a frame that goes well succeeds. -/
theorem GoesWell.succeeds (h : GoesWell env settings host m (i / settings.stepsPerFrame)) (hi : settings.Grants i) :
    SucceedsAfter env m (settings.beforeStep host i) := by
  refine h _ (Settings.lt_stepsIn_iff.2 ⟨Nat.mod_lt i settings.stepsPerFrame_pos, ?_⟩)
  rwa [Nat.div_add_mod']

/-- The steps that a session has in frames that it passed succeed. -/
theorem succeeds_of_passes (hpasses : ∀ g < f, Passes env settings host m g) (hi : i < f * settings.stepsPerFrame)
    (hgranted : settings.Grants i) : SucceedsAfter env m (settings.beforeStep host i) :=
  (hpasses _ ((Nat.div_lt_iff_lt_mul settings.stepsPerFrame_pos).2 hi)).goesWell.succeeds hgranted

theorem Stops.not_succeeds (h : Stops env settings host m i e) :
    ¬ SucceedsAfter env m (settings.beforeStep host i) := by
  intro hsucceeds
  have hfailed := h.fails.symm.trans hsucceeds
  cases hfailed

/-- A session fails at one step. -/
theorem Stops.unique {e' : Error} (h : Stops env settings host m i e) (h' : Stops env settings host m j e') :
    i = j ∧ e = e' := by
  rcases Nat.lt_trichotomy i j with hlt | rfl | hlt
  · exact absurd (h'.before i hlt) h.not_succeeds
  · exact ⟨rfl, Option.some.inj (h.fails.symm.trans h'.fails)⟩
  · exact absurd (h.before j hlt) h'.not_succeeds

/-- The first step that fails in the first frame that is not passed is the step at which the session fails. -/
theorem stops_of_failed (hpasses : ∀ g < f, Passes env settings host m g) (hj : j < settings.stepsIn f)
    (hsteps : ∀ k < j, SucceedsAfter env m (settings.upTo host f k))
    (he : FailsAfter env m (settings.upTo host f j) e) :
    Stops env settings host m (f * settings.stepsPerFrame + j) e := by
  obtain ⟨hpace, hgranted⟩ := Settings.lt_stepsIn_iff.1 hj
  refine ⟨hgranted, ?_, ?_, ?_⟩
  · intro i hi
    rcases Nat.lt_or_ge i (f * settings.stepsPerFrame) with hfirst | hlast
    · exact succeeds_of_passes hpasses hfirst (hgranted.mono (Nat.le_of_lt hi))
    · obtain ⟨k, rfl⟩ := Nat.exists_eq_add_of_le hlast
      rw [settings.beforeStep_mul_add host (by omega)]
      exact hsteps k (by omega)
  · rwa [settings.beforeStep_mul_add host hpace]
  · intro k hk hkf
    rw [Nat.mul_comm, Nat.mul_add_div settings.stepsPerFrame_pos, Nat.div_eq_of_lt hpace, Nat.add_zero] at hkf
    have hundisturbed := (hpasses (k - 1) (by omega)).undisturbed
    rwa [Nat.sub_add_cancel hk] at hundisturbed

/-- **A session that ended failed at the step that was to fail, or it did not fail and no step was to.** -/
theorem EndsIn.stops_or (hpasses : ∀ g < f, Passes env settings host m g)
    (h : EndsIn env settings host m f ending history) :
    (∃ i e, Stops env settings host m i e ∧ ending = .failed e ∧ history = settings.beforeStep host i ++ [.step]) ∨
    (∀ i e, ¬ Stops env settings host m i e) ∧ (ending = .completed ∨ ending = .interrupted) := by
  cases h with
  | completed hused =>
    refine .inr ⟨fun i e hstops => ?_, .inl rfl⟩
    have hi : i < f * settings.stepsPerFrame := Nat.lt_of_not_le fun hle => hused (hstops.granted.mono hle)
    exact hstops.not_succeeds (succeeds_of_passes hpasses hi hstops.granted)
  | @failed j e hj hsteps he =>
    refine .inl ⟨_, e, stops_of_failed hpasses hj hsteps he, rfl, ?_⟩
    rw [settings.beforeStep_mul_add host (Settings.lt_stepsIn_iff.1 hj).1]
  | interrupted hgranted hwell hhost =>
    refine .inr ⟨fun i e hstops => ?_, .inr rfl⟩
    rcases Nat.lt_trichotomy (i / settings.stepsPerFrame) f with hearlier | rfl | hlater
    · exact hstops.not_succeeds ((hpasses _ hearlier).goesWell.succeeds hstops.granted)
    · exact hstops.not_succeeds (hwell.succeeds hstops.granted)
    · exact hstops.undisturbed (f + 1) (Nat.succ_pos f) hlater hhost

/-- A session comes to the step at which it fails. -/
theorem playFor_of_stops (journal : List Event) (h : Stops env settings host m i e) (hn : i / settings.stepsPerFrame < n) :
    ∃ executed frames, playFor env settings host n (start m journal) =
      (planned env settings host m journal (settings.beforeStep host i ++ [.step]) executed frames, .failed e) := by
  have hpace := settings.stepsPerFrame_pos
  have hmod := Nat.mod_lt i hpace
  have hdivision := Nat.div_add_mod' i settings.stepsPerFrame
  have hpasses : ∀ g < i / settings.stepsPerFrame, Passes env settings host m g := by
    intro g hg
    have hlast : (g + 1) * settings.stepsPerFrame ≤ i := (Nat.le_div_iff_mul_le hpace).1 hg
    rw [Nat.succ_mul] at hlast
    refine ⟨h.granted.mono (by omega), ?_, h.undisturbed (g + 1) (Nat.succ_pos g) hg⟩
    intro j hj
    have hj := (Settings.lt_stepsIn_iff.1 hj).1
    rw [← settings.beforeStep_mul_add host hj]
    exact h.before _ (by omega)
  have hends : EndsIn env settings host m (i / settings.stepsPerFrame) (.failed e)
      (settings.beforeStep host i ++ [.step]) := by
    refine .failed (Settings.lt_stepsIn_iff.2 ⟨hmod, ?_⟩) ?_ h.fails
    · rw [hdivision]
      exact h.granted
    · intro k hk
      rw [← settings.beforeStep_mul_add host (by omega)]
      exact h.before _ (by omega)
  exact playFor_of_endsIn journal hpasses hends hn

end Session

end Chip8
