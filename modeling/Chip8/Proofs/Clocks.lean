import Chip8.Machine.Action
import Chip8.Proofs.Reads

/-!
# Two clocks

The host drives the machine by two clocks: one makes its steps, the other makes its timers tick. As long as no step
reads or sets a timer, no step can tell how often the timers have ticked, and it comes to the same in which order
the two clocks beat.

* `Instruction.UsesTimers` — the instructions that read or set a timer.
* `later` — the same state some ticks later. `step_later` — the step of a later state is the step, and later.
* `Timeless` — no step of a history uses a timer. `timeless_later` — that is up to its steps alone.
* `run_later` — such a history comes to its steps without any ticks, and then all its ticks at once.
* `clocks_independent` — so the order of the beats makes no difference.
-/

set_option autoImplicit false

namespace Chip8

namespace Instruction

/-- An instruction reads or sets a timer. -/
def UsesTimers : Instruction → Prop
  | .readDelay _ | .setDelay _ | .setSound _ => True
  | _ => False

/-- All others have nothing to do with the timers. -/
theorem timers_apart {i : Instruction} (h : ¬ i.UsesTimers) :
    ∀ p ∈ [Part.delay, .sound], p ∉ i.reads ∧ p ∉ i.changes := by
  cases i <;> simp_all [UsesTimers, reads, changes]

end Instruction

/-- A beat of one of the two clocks. -/
inductive Action.Beat : Action → Prop where
  | step : Beat .step
  | tick : Beat .tick

namespace Machine

variable {env : Environment} {m : Machine} {history history' : List Action}

/-! ## Later states -/

/-- The same state some ticks later. -/
def later (m : Machine) (t : Nat) : Machine := { m with delay := m.delay - t, sound := m.sound - t }

theorem tick_later (m : Machine) (t : Nat) : (m.later t).tick = m.later (t + 1) := rfl

theorem later_agree (m : Machine) (t : Nat) : AgreeOff [.delay, .sound] m (m.later t) := by
  intro p hp
  cases p with
  | delay | sound => simp at hp
  | _ => rfl

/-- A step that uses no timer leaves both as they are, and what it does is the same later. -/
theorem step_later_alike (henv : env.sys = none) (h : ∀ i, m.Executes i → ¬ i.UsesTimers) (t : Nat) :
    Alike m (m.later t) (m.step env) ((m.later t).step env) ∧
      ∀ p ∈ [Part.delay, .sound], p.Same (m.step env).machine m ∧
        p.Same ((m.later t).step env).machine (m.later t) := by
  apply step_apart henv (m.later_agree t)
  · simp
  · exact .inr (by simp)
  · intro i hi
    exact Instruction.timers_apart (h i hi)

/-- **A step that uses no timer is the same step later**, whether it executes an instruction, looks for a key or
fails. -/
theorem step_later (henv : env.sys = none) (h : ∀ i, m.Executes i → ¬ i.UsesTimers) (t : Nat) :
    (m.later t).step env =
      ⟨(m.step env).machine.later t, (m.step env).events, (m.step env).failure⟩ := by
  obtain ⟨halike, hkeep⟩ := step_later_alike henv h t
  obtain ⟨hdelay, hdelay'⟩ := hkeep .delay (by simp)
  obtain ⟨hsound, hsound'⟩ := hkeep .sound (by simp)
  have hmachine : (m.step env).machine.later t = ((m.later t).step env).machine := by
    apply AgreeOff.eq ((later_agree _ t).symm.trans (halike.agree (m.later_agree t)))
    intro p hp
    simp only [List.mem_cons, List.not_mem_nil, or_false] at hp
    rcases hp with rfl | rfl
    · exact (congrArg (· - t) hdelay).trans hdelay'.symm
    · exact (congrArg (· - t) hsound).trans hsound'.symm
  rw [hmachine, halike.events_eq, halike.failure_eq]

/-! ## Histories of both clocks -/

/-- No step of a history executes an instruction that uses a timer. -/
def Timeless (env : Environment) : Machine → List Action → Prop :=
  Throughout env fun m a => a = .step → ∀ i, m.Executes i → ¬ i.UsesTimers

/-- The steps of a history without its ticks. -/
def stepsOf (history : List Action) : List Action := List.replicate (history.count .step) .step

theorem stepsOf_step (history : List Action) : stepsOf (.step :: history) = .step :: stepsOf history := by
  rw [stepsOf, List.count_cons_self, List.replicate_succ, stepsOf]

theorem stepsOf_tick (history : List Action) : stepsOf (.tick :: history) = stepsOf history := by
  rw [stepsOf, List.count_cons_of_ne (by simp), stepsOf]

/-- **Whether a history is timeless is up to its steps**, and not to the ticks before and among them. -/
theorem timeless_later (henv : env.sys = none) (hhistory : ∀ a ∈ history, a.Beat) (m : Machine) (t : Nat) :
    Timeless env (m.later t) history ↔ Timeless env m (stepsOf history) := by
  -- for all later states at once: a tick leads from one to the next
  induction history generalizing m t with
  | nil => exact Iff.rfl
  | cons a history ih =>
    have hrest : ∀ b ∈ history, b.Beat := fun b hb => hhistory b (List.mem_cons_of_mem a hb)
    cases hhistory a List.mem_cons_self with
    | step =>
      rw [stepsOf_step]
      apply and_congr_right
      intro hfirst
      rw [perform, perform, step_later (m := m) henv (hfirst rfl)]
      exact ih hrest (m.step env).machine t
    | tick =>
      rw [stepsOf_tick, ← ih hrest m (t + 1)]
      constructor
      · intro h
        exact h.2
      · intro h
        refine ⟨?_, h⟩
        intro hstep
        cases hstep

/-- **The ticks can wait.** A history comes to its steps without any ticks, and then all its ticks at once. -/
theorem run_later (henv : env.sys = none) (hhistory : ∀ a ∈ history, a.Beat)
    (h : Timeless env m (stepsOf history)) (t : Nat) :
    run env (m.later t) history = (run env m (stepsOf history)).later (t + history.count .tick) := by
  induction history generalizing m t with
  | nil => rfl
  | cons a history ih =>
    have hrest : ∀ b ∈ history, b.Beat := fun b hb => hhistory b (List.mem_cons_of_mem a hb)
    cases hhistory a List.mem_cons_self with
    | step =>
      rw [stepsOf_step] at h ⊢
      rw [run_cons, run_cons, perform, step_later henv (h.1 rfl), List.count_cons_of_ne (by simp)]
      exact ih hrest h.2 t
    | tick =>
      rw [stepsOf_tick] at h ⊢
      have htick : ((m.later t).perform env .tick).machine = m.later (t + 1) := m.tick_later t
      rw [run_cons, htick, ih hrest h (t + 1), List.count_cons_self, Nat.add_right_comm, Nat.add_assoc]

/-- Steps that use no timer leave both as they are. -/
theorem run_steps_timers (henv : env.sys = none) {n : Nat} (h : Timeless env m (List.replicate n .step)) :
    (run env m (List.replicate n .step)).delay = m.delay ∧
      (run env m (List.replicate n .step)).sound = m.sound := by
  induction n generalizing m with
  | zero => exact ⟨rfl, rfl⟩
  | succ n ih =>
    rw [List.replicate_succ] at h ⊢
    obtain ⟨hfirst, hrest⟩ := h
    obtain ⟨hdelay, hsound⟩ := ih hrest
    obtain ⟨-, hkeep⟩ := step_later_alike henv (hfirst rfl) 0
    exact ⟨hdelay.trans (hkeep .delay (by simp)).1, hsound.trans (hkeep .sound (by simp)).1⟩

/-- A step among the beats does what it would have done without the ticks before it. -/
theorem step_after_beats (henv : env.sys = none) {before after : List Action}
    (hhistory : ∀ a ∈ before ++ .step :: after, a.Beat) (h : Timeless env m (before ++ .step :: after)) :
    ((run env m before).step env).failure = ((run env m (stepsOf before)).step env).failure ∧
      ((run env m before).step env).events = ((run env m (stepsOf before)).step env).events := by
  have hbefore : ∀ a ∈ before, a.Beat := fun a ha => hhistory a (List.mem_append_left _ ha)
  have hbare : Timeless env m (stepsOf before) := (timeless_later henv hbefore m 0).1 (Throughout.left h)
  have hrun : run env m before = (run env m (stepsOf before)).later (0 + before.count .tick) :=
    run_later henv hbefore hbare 0
  -- a later state executes the same instruction
  have hstep : ∀ i, (run env m (stepsOf before)).Executes i → ¬ i.UsesTimers := by
    have hnow := (Throughout.right h).1 rfl
    rw [hrun] at hnow
    exact hnow
  rw [hrun, step_later henv hstep]
  exact ⟨rfl, rfl⟩

/-- **The two clocks are independent.** Let steps and ticks follow in some order, with no step that executes an
instruction that reads or sets a timer; steps that look for a key or fail are steps like any other. In every other
order of them there is no such step either, each step ends as the one of the same number did and tells the same, and
the state after them all is the same. Both timers have then run down by the number of ticks. -/
theorem clocks_independent (henv : env.sys = none) (hhistory : ∀ a ∈ history, a.Beat)
    (horder : history.Perm history') (h : Timeless env m history) :
    Timeless env m history' ∧
    (∀ before after before' after', history = before ++ .step :: after → history' = before' ++ .step :: after' →
      before.count .step = before'.count .step →
      ((run env m before).step env).failure = ((run env m before').step env).failure ∧
      ((run env m before).step env).events = ((run env m before').step env).events) ∧
    run env m history = run env m history' ∧
    (run env m history).delay = m.delay - history.count .tick ∧
    (run env m history).sound = m.sound - history.count .tick := by
  have hhistory' : ∀ a ∈ history', a.Beat := fun a ha => hhistory a (horder.mem_iff.2 ha)
  have hsteps : stepsOf history = stepsOf history' := by rw [stepsOf, stepsOf, horder.count_eq .step]
  -- the state itself is the one no ticks later
  have hm : m.later 0 = m := rfl
  have hbare : Timeless env m (stepsOf history) := (timeless_later henv hhistory m 0).1 h
  have h' : Timeless env m history' := (timeless_later henv hhistory' m 0).2 (hsteps ▸ hbare)
  have hrun := run_later henv hhistory hbare 0
  have hrun' := run_later henv hhistory' (hsteps ▸ hbare) 0
  rw [hm, Nat.zero_add] at hrun hrun'
  refine ⟨h', ?_, ?_, ?_⟩
  · rintro before after before' after' rfl rfl hcount
    obtain ⟨hfailure, hevents⟩ := step_after_beats henv hhistory h
    obtain ⟨hfailure', hevents'⟩ := step_after_beats henv hhistory' h'
    have hbefore : stepsOf before = stepsOf before' := by rw [stepsOf, stepsOf, hcount]
    rw [hfailure, hevents, hfailure', hevents', hbefore]
    exact ⟨rfl, rfl⟩
  · rw [hrun, hrun', hsteps, horder.count_eq .tick]
  · obtain ⟨hdelay, hsound⟩ := run_steps_timers henv hbare
    rw [hrun]
    exact ⟨congrArg (· - history.count .tick) hdelay, congrArg (· - history.count .tick) hsound⟩

/-- A program that waits for a key while its timers run down, by steps before the ticks and after them. -/
theorem clocks_independent_wait :
    let env : Environment := ⟨fun _ => 0, none⟩
    let m := { (start (some ⟨[0xF3, 0x0A], by decide⟩)).machine with delay := 1, sound := 3 }
    run env m [.step, .tick, .step, .tick] = run env m [.tick, .step, .tick, .step] ∧
      (run env m [.step, .tick, .step, .tick]).delay = 0 ∧
      (run env m [.step, .tick, .step, .tick]).sound = 1 := by
  intro env m
  have hwait : m.Executes (.awaitKey 3) := executes_start (p := ⟨[0xF3, 0x0A], by decide⟩) rfl rfl
  have hbeats : ∀ a ∈ [Action.step, .tick, .step, .tick], a.Beat := by
    simp only [List.forall_mem_cons, List.not_mem_nil, false_implies, implies_true, and_true]
    exact ⟨.step, .tick, .step, .tick⟩
  have horder : [Action.step, .tick, .step, .tick].Perm [.tick, .step, .tick, .step] := by decide
  have hsecond : (m.step env).machine.tick.awaiting = some 3 := by
    rw [step_of_executes hwait]
    rfl
  have htimeless : Timeless env m [.step, .tick, .step, .tick] := by
    refine ⟨?_, by simp, ?_, by simp, trivial⟩
    · intro _ i hi
      rw [executes_unique hi hwait]
      exact id
    · intro _ i hi
      exact absurd (hi.1.symm.trans hsecond) (by simp)
  obtain ⟨-, -, hrun, hdelay, hsound⟩ := clocks_independent rfl hbeats horder htimeless
  exact ⟨hrun, hdelay, hsound⟩

end Machine

end Chip8
