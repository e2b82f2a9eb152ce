import Chip8.Proofs.KeyWait
import Chip8.Proofs.Footprint
import Chip8.Session

/-!
# Schedules

What a session is to do to its machine can be told before it is played. Frame after frame, the keys are moved as
the host holds them, some steps are made, and the timers tick; the last frame may have fewer steps than the others.

* `Settings.stepsNow`, `Settings.stepsIn` — the steps of a frame, from those that were made and from its number.
* `Settings.schedule` — all that is done in the first frames. `Settings.beforeStep` — all that is done before
  a step.
* `count_step_schedule`, `count_tick_schedule` — the steps and the ticks in it.
* `framesFor_le_iff`, `usedUp_schedule` — the number of frames, and that the steps are then used up.
* `run_poll` — what the moves of the keys come to.
* `run_cycles` — a machine counts the steps that execute an instruction and succeed.
-/

set_option autoImplicit false

namespace Chip8

open Machine

/-! ## Schedules -/

namespace Settings

variable (settings : Settings) (host : Host)

/-- Of some steps those that are left after the ones that were made. -/
def remaining (steps executed : Nat) : Nat :=
  match settings.maxCycles with
  | none => steps
  | some most => min steps (most - executed).toNat

/-- The steps in the next frame: a full frame, or what is left. -/
def stepsNow (executed : Nat) : Nat := settings.remaining settings.stepsPerFrame executed

/-- The moves of the keys by which the keypad follows the host's keyboard in a frame. -/
def poll (frame : Nat) : List Action :=
  if settings.keyboard then
    Key.all.map fun k => .move k.val (if host.holds frame k then .pressed else .released)
  else []

/-- The steps of a frame: as many as in a full frame, or what the frames before it have left. -/
def stepsIn (frame : Nat) : Nat :=
  match settings.maxCycles with
  | none => settings.stepsPerFrame
  | some most => min settings.stepsPerFrame (most.toNat - frame * settings.stepsPerFrame)

/-- All that is done to the machine in the first frames. -/
def schedule : Nat → List Action
  | 0 => []
  | f + 1 => schedule f ++ (settings.poll host f ++ List.replicate (settings.stepsIn f) .step ++ [.tick])

/-- All that is done to the machine before a step of a frame. -/
def upTo (frame step : Nat) : List Action :=
  settings.schedule host frame ++ (settings.poll host frame ++ List.replicate step .step)

/-- All that is done to the machine before a step, with the steps of all frames counted through. -/
def beforeStep (i : Nat) : List Action :=
  settings.upTo host (i / settings.stepsPerFrame) (i % settings.stepsPerFrame)

/-! ### Counting -/

theorem remaining_zero (executed : Nat) : settings.remaining 0 executed = 0 := by
  unfold remaining
  split
  · rfl
  · exact Nat.zero_min _

theorem remaining_of_usedUp {executed : Nat} (h : settings.usedUp executed = true) (steps : Nat) :
    settings.remaining steps executed = 0 := by
  cases hmost : settings.maxCycles with
  | none => simp [usedUp, hmost] at h
  | some most =>
    simp only [usedUp, hmost, decide_eq_true_eq] at h
    simp only [remaining, hmost]
    omega

/-- If steps are left, one of them may be made first. -/
theorem remaining_succ {executed : Nat} (h : settings.usedUp executed = false) (steps : Nat) :
    settings.remaining (steps + 1) executed = settings.remaining steps (executed + 1) + 1 := by
  cases hmost : settings.maxCycles with
  | none => simp only [remaining, hmost]
  | some most =>
    simp only [usedUp, hmost, decide_eq_false_iff_not] at h
    simp only [remaining, hmost]
    omega

theorem stepsNow_pos {executed : Nat} (h : settings.usedUp executed = false) : 0 < settings.stepsNow executed := by
  obtain ⟨n, hn⟩ := Nat.exists_eq_succ_of_ne_zero (Nat.ne_of_gt settings.stepsPerFrame_pos)
  rw [stepsNow, hn, settings.remaining_succ h]
  exact Nat.succ_pos _

/-- A poll does nothing but move keys. -/
theorem exists_of_mem_poll {f : Nat} {a : Action} (h : a ∈ settings.poll host f) :
    ∃ key s, a = .move key s := by
  unfold poll at h
  split at h
  · obtain ⟨k, -, rfl⟩ := List.mem_map.1 h
    exact ⟨_, _, rfl⟩
  · cases h

theorem count_poll {a : Action} (ha : ∀ key s, a ≠ .move key s) (f : Nat) :
    (settings.poll host f).count a = 0 := by
  apply List.count_eq_zero.2
  intro h
  obtain ⟨key, s, rfl⟩ := settings.exists_of_mem_poll host h
  exact ha key s rfl

theorem count_step_schedule_succ (f : Nat) :
    (settings.schedule host (f + 1)).count .step =
      (settings.schedule host f).count .step + settings.stepsIn f := by
  have hpoll := settings.count_poll (a := .step) host (by simp) f
  simp [schedule, List.count_append, hpoll]

/-- **The steps of the first frames**: full frames, up to the number of steps that there is. -/
theorem count_step_schedule {most : Int} (hmost : settings.maxCycles = some most) (f : Nat) :
    (settings.schedule host f).count .step = min (f * settings.stepsPerFrame) most.toNat := by
  induction f with
  | zero => simp [schedule]
  | succ f ih =>
    rw [count_step_schedule_succ, ih, Nat.succ_mul]
    simp only [stepsIn, hmost]
    omega

/-- Each frame has one tick. -/
theorem count_tick_schedule (f : Nat) : (settings.schedule host f).count .tick = f := by
  induction f with
  | zero => rfl
  | succ f ih =>
    have hpoll := settings.count_poll (a := .tick) host (by simp) f
    rw [schedule, List.count_append, ih, List.count_append, List.count_append, hpoll]
    simp [List.count_replicate]

theorem count_step_upTo (f j : Nat) :
    (settings.upTo host f j).count .step = (settings.schedule host f).count .step + j := by
  have hpoll := settings.count_poll (a := .step) host (by simp) f
  simp [upTo, List.count_append, hpoll]

theorem count_tick_upTo (f j : Nat) : (settings.upTo host f j).count .tick = f := by
  have hpoll := settings.count_poll (a := .tick) host (by simp) f
  rw [upTo, List.count_append, List.count_append, count_tick_schedule, hpoll]
  simp [List.count_replicate]

theorem aroundWait_poll (f : Nat) : ∀ a ∈ settings.poll host f, a.AroundWait := by
  intro a ha
  obtain ⟨key, s, rfl⟩ := settings.exists_of_mem_poll host ha
  exact .move key s

theorem aroundWait_upTo {f j : Nat} (h : ∀ a ∈ settings.schedule host f, a.AroundWait) :
    ∀ a ∈ settings.upTo host f j, a.AroundWait := by
  intro a ha
  rw [upTo, List.mem_append, List.mem_append] at ha
  rcases ha with ha | ha | ha
  · exact h a ha
  · exact settings.aroundWait_poll host f a ha
  · rw [List.eq_of_mem_replicate ha]
    exact .step

/-- Nothing is done in a session but steps, ticks and moves of keys. -/
theorem aroundWait_schedule (f : Nat) : ∀ a ∈ settings.schedule host f, a.AroundWait := by
  induction f with
  | zero => intro a ha; cases ha
  | succ f ih =>
    intro a ha
    rw [schedule, ← List.append_assoc, List.mem_append, List.mem_singleton] at ha
    rcases ha with ha | rfl
    · exact settings.aroundWait_upTo host ih a ha
    · exact .tick

/-- The number of frames for some steps: as many full ones as there are, and one for what is left. -/
def framesFor (budget : Nat) : Nat := (budget + settings.stepsPerFrame - 1) / settings.stepsPerFrame

theorem framesFor_le_iff {budget f : Nat} :
    settings.framesFor budget ≤ f ↔ budget ≤ f * settings.stepsPerFrame := by
  have hpace := settings.stepsPerFrame_pos
  rw [framesFor, Nat.div_le_iff_le_mul_add_pred hpace, Nat.mul_comm]
  omega

/-- The steps are used up after that number of frames, and not before. -/
theorem usedUp_schedule {most : Int} (hmost : settings.maxCycles = some most) (f : Nat) :
    settings.usedUp ((settings.schedule host f).count .step) = true ↔
      settings.framesFor most.toNat ≤ f := by
  rw [framesFor_le_iff, settings.count_step_schedule host hmost]
  simp only [usedUp, hmost, decide_eq_true_eq]
  omega

/-- To count the steps of all frames through is to count frames and steps of a frame. -/
theorem beforeStep_mul_add {f j : Nat} (hj : j < settings.stepsPerFrame) :
    settings.beforeStep host (f * settings.stepsPerFrame + j) = settings.upTo host f j := by
  have hdivision := (Nat.div_mod_unique (a := f * settings.stepsPerFrame + j) (d := f) (c := j)
    settings.stepsPerFrame_pos).2 ⟨by rw [Nat.mul_comm, Nat.add_comm], hj⟩
  rw [beforeStep, hdivision.1, hdivision.2]

/-- The steps that are left for a frame are those of the schedule. -/
theorem stepsNow_schedule (f : Nat) :
    settings.stepsNow ((settings.schedule host f).count .step) = settings.stepsIn f := by
  cases hmost : settings.maxCycles with
  | none => simp only [stepsNow, remaining, stepsIn, hmost]
  | some most =>
    rw [settings.count_step_schedule host hmost]
    simp only [stepsNow, remaining, stepsIn, hmost]
    omega

end Settings

namespace Machine

/-- What is told along a history. -/
def tell (env : Environment) : Machine → List Action → List Event
  | _, [] => []
  | m, a :: history => (m.perform env a).events ++ tell env (m.perform env a).machine history

/-- The steps of a history that execute an instruction and succeed. -/
def counted (env : Environment) : Machine → List Action → Nat
  | _, [] => 0
  | m, a :: history =>
      (if a = .step ∧ m.awaiting = none ∧ (m.step env).failure = none then 1 else 0) +
        counted env (m.perform env a).machine history

/-- The step that follows some actions succeeds. -/
def SucceedsAfter (env : Environment) (m : Machine) (history : List Action) : Prop :=
  ((run env m history).step env).failure = none

/-- The step that follows some actions fails with an error. -/
def FailsAfter (env : Environment) (m : Machine) (history : List Action) (e : Error) : Prop :=
  ((run env m history).step env).failure = some e

variable {env : Environment}

theorem succeedsAfter_append {m : Machine} {first second : List Action} :
    SucceedsAfter env m (first ++ second) ↔ SucceedsAfter env (run env m first) second := by
  unfold SucceedsAfter
  rw [run_append]

theorem failsAfter_append {m : Machine} {first second : List Action} {e : Error} :
    FailsAfter env m (first ++ second) e ↔ FailsAfter env (run env m first) second e := by
  unfold FailsAfter
  rw [run_append]

theorem tell_append (m : Machine) (first second : List Action) :
    tell env m (first ++ second) = tell env m first ++ tell env (run env m first) second := by
  induction first generalizing m with
  | nil => rfl
  | cons a first ih => rw [List.cons_append, tell, tell, ih, List.append_assoc, run_cons]

/-- **The machine counts the steps that execute an instruction and succeed**, and no others. -/
theorem run_cycles (henv : env.sys = none) (m : Machine) (history : List Action)
    (hhistory : ∀ a ∈ history, a.AroundWait) :
    (run env m history).cycles = m.cycles + counted env m history := by
  induction history generalizing m with
  | nil => rfl
  | cons a history ih =>
    rw [run_cons, ih _ fun b hb => hhistory b (List.mem_cons_of_mem _ hb), counted, ← Nat.add_assoc]
    congr 1
    cases hhistory a List.mem_cons_self with
    | step => rw [perform, step_cycles henv]; simp
    | tick => simp [perform, Outcome.done, tick]
    | move key s =>
      have hmove : ((m.perform env (.move key s)).machine).cycles = m.cycles :=
        perform_same (p := .cycles) (fun _ _ _ => henv) (by simp [Action.changes])
      rw [hmove]
      simp

/-- To move keys, each up or down, is to do so on the keypad. -/
theorem run_moves (m : Machine) (held : Key → Bool) (keys : List Key) :
    run env m (keys.map fun k => .move k.val (if held k then .pressed else .released)) =
      { m with keypad :=
          keys.foldl (fun p k => p.set k (if held k then .pressed else .released)) m.keypad } := by
  induction keys generalizing m with
  | nil => rfl
  | cons k keys ih =>
    rw [List.map_cons, run_cons, perform, moveKey, Keypad.move_natCast, List.foldl_cons]
    exact ih _

theorem tell_moves (m : Machine) (held : Key → Bool) (keys : List Key) :
    tell env m (keys.map fun k => .move k.val (if held k then .pressed else .released)) = [] := by
  induction keys generalizing m with
  | nil => rfl
  | cons k keys ih =>
    rw [List.map_cons, tell, perform, moveKey, Keypad.move_natCast]
    exact ih _

/-- **A poll sets every key as the host holds it**, if the keypad is to follow the keyboard. -/
theorem run_poll (settings : Settings) (host : Host) (f : Nat) (m : Machine) :
    run env m (settings.poll host f) =
      { m with keypad :=
          if settings.keyboard then m.keypad.observe (host.holds f) else m.keypad } := by
  unfold Settings.poll
  split
  · exact run_moves m (host.holds f) Key.all
  · rfl

theorem tell_poll (settings : Settings) (host : Host) (f : Nat) (m : Machine) :
    tell env m (settings.poll host f) = [] := by
  unfold Settings.poll
  split
  · exact tell_moves m (host.holds f) Key.all
  · rfl

end Machine

end Chip8
