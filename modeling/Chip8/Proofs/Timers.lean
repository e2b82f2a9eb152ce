import Chip8.Proofs.Cells
import Chip8.Proofs.Invariant
import Chip8.Proofs.Restart

/-!
# Timers over histories

A timer shows the value that it was set to last, less the ticks since then, and never less than zero. A step that
fails, one that only looks for a key, a program that is loaded, a key that is moved: nothing but a tick takes from
it, and nothing but its own instruction and a new start sets it.

* `Timer.SetBy` — an action sets a timer to a value. `Timer.Untouched` — no action of a history does.
* `shown_of_setBy`, `shown_of_untouched` — what an action makes of a timer. `shown_run_of_untouched` — what a
  history does that does not set it.
* `Timer.LastSet` — the value that a history set a timer to last, and the ticks since then. `exists_lastSet` —
  there always are some. `shown_run_of_lastSet` — and they tell what the timer shows.
* `step_of_readDelay` — the step that reads the delay timer.
* `timers_of_history` — so the timers are known from the history.
-/

set_option autoImplicit false

namespace Chip8

/-- One of the two timers. -/
inductive Timer where
  | delay
  | sound
  deriving DecidableEq, Repr

namespace Timer

/-- What a timer shows. -/
def shown (m : Machine) : Timer → Nat
  | .delay => m.delay
  | .sound => m.sound

/-- The instruction that sets a timer from a register. -/
def setFrom (x : Register) : Timer → Instruction
  | .delay => .setDelay x
  | .sound => .setSound x

/-- The part of the state that a timer is. -/
def part : Timer → Part
  | .delay => .delay
  | .sound => .sound

theorem shown_of_same {timer : Timer} {m n : Machine} (h : timer.part.Same m n) :
    timer.shown m = timer.shown n := by
  cases timer <;> exact h

/-- Only its own instruction changes a timer. -/
theorem exists_of_part_mem_changes {timer : Timer} {i : Instruction} (h : timer.part ∈ i.changes) :
    ∃ x, i = timer.setFrom x := by
  cases timer with
  | delay => exact i.of_mem_changes.2.1 h
  | sound => exact i.of_mem_changes.2.2.1 h

/-- An action sets a timer to a value. -/
inductive SetBy (env : Environment) (m : Machine) (timer : Timer) : Action → Nat → Prop where
  /-- A step executes the instruction that sets the timer, and succeeds. -/
  | step {x : Register} (h : m.Executes (timer.setFrom x)) (hsuccess : (m.step env).failure = none) :
      SetBy env m timer .step (m.reg x).toNat
  /-- The host executes that instruction by hand. -/
  | execute (x : Register) : SetBy env m timer (.execute (timer.setFrom x)) (m.reg x).toNat
  | reset : SetBy env m timer .reset 0

/-- No action of a history sets the timer. -/
def Untouched (env : Environment) (timer : Timer) : Machine → List Action → Prop :=
  Machine.Throughout env fun m a => ∀ v, ¬ SetBy env m timer a v

/-- The value that a history of a machine set a timer to last, and the number of ticks since then. A timer that
was not set is at zero since the machine was built. -/
inductive LastSet (env : Environment) (m : Machine) (timer : Timer) (history : List Action) :
    Nat → Nat → Prop where
  | never (h : Untouched env timer m history) : LastSet env m timer history 0 (history.count .tick)
  | set {before after : List Action} {a : Action} {v : Nat} (hhistory : history = before ++ a :: after)
      (hset : SetBy env (Machine.run env m before) timer a v)
      (hafter : Untouched env timer (Machine.run env m (before ++ [a])) after) :
      LastSet env m timer history v (after.count .tick)

end Timer

namespace Machine

variable {env : Environment} {m : Machine} {timer : Timer} {a : Action} {v : Nat}

/-! ## One action -/

/-- A step that executes the instruction always succeeds, so the timer is set. -/
theorem step_of_setFrom {x : Register} (h : m.Executes (timer.setFrom x)) :
    (m.step env).failure = none ∧ timer.shown (m.step env).machine = (m.reg x).toNat := by
  rw [step_of_executes h]
  cases timer <;> exact ⟨rfl, rfl⟩

theorem setBy_of_executes {x : Register} (h : m.Executes (timer.setFrom x)) :
    timer.SetBy env m .step (m.reg x).toNat :=
  .step h (step_of_setFrom h).1

theorem not_setBy_tick (v : Nat) : ¬ timer.SetBy env m .tick v := by
  intro h
  cases h

/-- **An action that sets a timer does so**, whatever it showed before. -/
theorem shown_of_setBy (h : timer.SetBy env m a v) : timer.shown (m.perform env a).machine = v := by
  cases h with
  | step h _ => exact (step_of_setFrom h).2
  | execute x => cases timer <;> rfl
  | reset => cases timer <;> rfl

/-- A step that does not set a timer leaves it alone, whether it executes an instruction, looks for a key or
fails. -/
theorem shown_step_of_untouched (henv : env.sys = none) (h : ∀ v, ¬ timer.SetBy env m .step v) :
    timer.shown (m.step env).machine = timer.shown m := by
  apply Timer.shown_of_same
  refine step_same henv (by cases timer <;> decide) (.inr (by cases timer <;> decide)) ?_
  intro i hi hp
  obtain ⟨x, rfl⟩ := Timer.exists_of_part_mem_changes hp
  exact h _ (setBy_of_executes hi)

/-- **Of all other actions only a tick takes from a timer**, and no more than is there. -/
theorem shown_of_untouched (henv : env.sys = none) (h : ∀ v, ¬ timer.SetBy env m a v) :
    timer.shown (m.perform env a).machine = timer.shown m - [a].count .tick := by
  cases a with
  | step => exact shown_step_of_untouched henv h
  | execute i =>
    apply Timer.shown_of_same
    refine execute_same (fun _ _ => henv) m fun hp => ?_
    obtain ⟨x, rfl⟩ := Timer.exists_of_part_mem_changes hp
    exact h _ (.execute x)
  | tick => cases timer <;> rfl
  | reset => exact absurd .reset (h 0)
  | _ =>
    apply Timer.shown_of_same
    exact perform_same (fun _ _ _ => henv) (by cases timer <;> simp [Timer.part, Action.changes])

/-! ## Histories -/

/-- What a timer shows after a history that did not set it. -/
theorem shown_run_of_untouched (henv : env.sys = none) {history : List Action}
    (h : timer.Untouched env m history) :
    timer.shown (run env m history) = timer.shown m - history.count .tick := by
  induction history generalizing m with
  | nil => rfl
  | cons a history ih =>
    have hcount : (a :: history).count .tick = [a].count .tick + history.count .tick := by
      rw [← List.count_append, List.singleton_append]
    rw [run_cons, ih h.2, shown_of_untouched henv h.1, hcount, Nat.sub_sub]

/-- Every timer was set to something last. -/
theorem exists_lastSet (env : Environment) (m : Machine) (timer : Timer) (history : List Action) :
    ∃ v t, timer.LastSet env m history v t := by
  suffices timer.Untouched env m history ∨ ∃ before a after v, history = before ++ a :: after ∧
      timer.SetBy env (run env m before) a v ∧
      timer.Untouched env (run env m (before ++ [a])) after by
    rcases this with h | ⟨before, a, after, v, hhistory, hset, hafter⟩
    · exact ⟨0, _, .never h⟩
    · exact ⟨v, _, .set hhistory hset hafter⟩
  induction history generalizing m with
  | nil => exact .inl trivial
  | cons a history ih =>
    rcases ih (m.perform env a).machine with h | ⟨before, b, after, v, rfl, hset, hafter⟩
    · -- nothing later sets the timer, so it is up to this action
      by_cases hset : ∃ v, timer.SetBy env m a v
      · obtain ⟨v, hset⟩ := hset
        exact .inr ⟨[], a, history, v, rfl, hset, h⟩
      · exact .inl ⟨fun v hv => hset ⟨v, hv⟩, h⟩
    · exact .inr ⟨a :: before, b, after, v, rfl, hset, hafter⟩

/-- **A timer shows what it was set to last, less the ticks since then.** -/
theorem shown_run_of_lastSet (henv : env.sys = none) {history : List Action} {t : Nat}
    (hstart : timer.shown m = 0) (h : timer.LastSet env m history v t) :
    timer.shown (run env m history) = v - t := by
  cases h with
  | never h => rw [shown_run_of_untouched henv h, hstart]
  | @set before after a v hhistory hset hafter =>
    have hshown : timer.shown (run env m (before ++ [a])) = v := by
      rw [run_append, run_cons, run_nil]
      exact shown_of_setBy hset
    have hsplit : history = (before ++ [a]) ++ after := by rw [hhistory]; simp
    rw [hsplit, run_append, shown_run_of_untouched henv hafter, hshown]

/-- A machine that was just built has both timers at zero. -/
theorem shown_build (memory : Memory) (screen : Screen) (keypad : Keypad) (source : Option Program.Source)
    (timer : Timer) : timer.shown (build memory screen keypad source).machine = 0 := by
  cases source with
  | none => cases timer <;> rfl
  | some source =>
    rw [build, Timer.shown_of_same (loadFrom_same (by cases timer <;> decide) _ source)]
    cases timer <;> rfl

/-! ## Reading the delay timer -/

/-- The step stores what the delay timer shows. -/
theorem step_of_readDelay {x : Register} (h : m.Executes (.readDelay x)) (hd : m.delay < 256) :
    m.step env =
      .done { m.advance.setReg x (UInt8.ofNat m.delay) with cycles := m.cycles + 1 }
        [.executing m.pc (.readDelay x)] := by
  have hstore : m.advance.setRegister x m.advance.delay = _ := setRegister_natCast m.advance x hd
  rw [step_of_executes h, execute, hstore]
  rfl

/-- **The timers are known from the history.** A machine may be built in any way, and anything may be done to it,
with steps that succeed, fail or look for a key. At every point each timer was set last to some value some ticks
ago, by its own instruction, by a new start or by building the machine, and it shows that value less those ticks.
The next step, if it reads the delay timer, succeeds and stores just that; and the machine sounds exactly if the
sound timer is not run down. -/
theorem timers_of_history (henv : env.sys = none) (memory : Memory) (screen : Screen) (keypad : Keypad)
    (source : Option Program.Source) (history : List Action) :
    let m := (build memory screen keypad source).machine
    let s := run env m history
    (∀ timer : Timer, ∃ v t, timer.LastSet env m history v t) ∧
    (∀ timer : Timer, ∀ v t, timer.LastSet env m history v t → timer.shown s = v - t) ∧
    (∀ v t x, Timer.delay.LastSet env m history v t → s.Executes (.readDelay x) →
      (s.step env).failure = none ∧ ((s.step env).machine.reg x).toNat = v - t) ∧
    (∀ v t, Timer.sound.LastSet env m history v t → (s.sounding = true ↔ 0 < v - t)) := by
  intro m s
  have hshown : ∀ timer : Timer, ∀ v t, timer.LastSet env m history v t → timer.shown s = v - t :=
    fun timer _ _ => shown_run_of_lastSet henv (shown_build memory screen keypad source timer)
  refine ⟨fun timer => exists_lastSet env m timer history, hshown, ?_, ?_⟩
  · intro v t x hlast hread
    have hdelay : s.delay = v - t := hshown .delay v t hlast
    have hrange : s.delay < 256 :=
      (run_wellFormed henv (build_wellFormed memory screen keypad source) history).delay_lt
    rw [step_of_readDelay hread hrange]
    refine ⟨rfl, ?_⟩
    have hstored : (s.advance.setReg x (UInt8.ofNat s.delay)).reg x = UInt8.ofNat s.delay := by
      rw [reg_setReg, if_pos rfl]
    exact (congrArg UInt8.toNat hstored).trans (by
      rw [UInt8.toNat_ofNat', Nat.mod_eq_of_lt hrange, hdelay])
  · intro v t hlast
    have hsound : s.sound = v - t := hshown .sound v t hlast
    rw [sounding, decide_eq_true_eq, hsound]

/-- A program that sets the delay timer to five and reads it again. The timers tick twice in between. -/
theorem timers_of_history_read :
    let env : Environment := ⟨fun _ => 0, none⟩
    let m := (build .fresh .blank .fresh (some (.bytes [0x61, 0x05, 0xF1, 0x15, 0xF2, 0x07]))).machine
    let s := run env m [.step, .step, .tick, .tick]
    Timer.delay.LastSet env m [.step, .step, .tick, .tick] 5 2 ∧ Timer.delay.shown s = 3 ∧
      (s.step env).failure = none ∧ ((s.step env).machine.reg 2).toNat = 3 := by
  intro env m s
  let p : Program := ⟨[0x61, 0x05, 0xF1, 0x15, 0xF2, 0x07], by decide⟩
  have hbuilt : m = { fresh with memory := Memory.fresh.load p, program := some p } := by
    have hstart : m = (start (some p)).machine := congrArg Outcome.machine (build_fresh_eq_start (some p))
    rw [hstart, start, load_eq]
    rfl
  have hload : m.Executes (.setByte 1 5) := by
    rw [hbuilt]
    exact executes_loaded (p := p) (k := 0) rfl rfl rfl rfl rfl rfl
  have hloaded : run env m [.step] = { m.setReg 1 5 with pc := 0x202, cycles := 1 } := by
    rw [run_cons, run_nil, perform, step_of_executes hload, hbuilt]
    rfl
  have hset : (run env m [.step]).Executes (.setDelay 1) := by
    rw [hloaded, hbuilt]
    exact executes_loaded (p := p) (k := 2) rfl rfl rfl rfl rfl rfl
  have hticked : s = { m.setReg 1 5 with pc := 0x204, cycles := 2, delay := 3 } := by
    have hsplit : [Action.step, .step, .tick, .tick] = [.step] ++ [.step, .tick, .tick] := rfl
    show run env m [.step, .step, .tick, .tick] = _
    rw [hsplit, run_append, run_cons, run_cons, run_cons, run_nil, perform, step_of_executes hset, hloaded,
      hbuilt]
    rfl
  have hread : s.Executes (.readDelay 2) := by
    rw [hticked, hbuilt]
    exact executes_loaded (p := p) (k := 4) rfl rfl rfl rfl rfl rfl
  have hfive : ((run env m [.step]).reg 1).toNat = 5 := by
    rw [hloaded, hbuilt]
    rfl
  have hlast : Timer.delay.LastSet env m [.step, .step, .tick, .tick] 5 2 := by
    have hsplit : [Action.step, .step, .tick, .tick] = [.step] ++ .step :: [.tick, .tick] := rfl
    have hstep : Timer.delay.SetBy env (run env m [.step]) .step _ := setBy_of_executes hset
    rw [hfive] at hstep
    exact .set hsplit hstep ⟨not_setBy_tick, not_setBy_tick, trivial⟩
  have henv : env.sys = none := rfl
  obtain ⟨-, hshown, hstored, -⟩ := timers_of_history henv .fresh .blank .fresh (some (.bytes p.bytes))
    [.step, .step, .tick, .tick]
  obtain ⟨hsuccess, hvalue⟩ := hstored 5 2 2 hlast hread
  exact ⟨hlast, hshown .delay 5 2 hlast, hsuccess, hvalue⟩

end Machine

end Chip8
