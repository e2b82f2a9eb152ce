import Chip8.Proofs.Faults
import Chip8.Proofs.KeyWait

/-!
# Crashes

A machine whose step failed is stuck. Its host may go on with it: let the timers tick, press keys and ask for more
steps. None of this can remove what stands in the way, so every further step fails as the first one did, and
nothing changes but the timers and the keys.

* `Obstacle.of_same` — what stands in the way of a step depends on five parts of the state alone, and neither the
  timers nor the keypad is one of them.
* `Crashed` — the next step of the machine fails, and its keypad does not listen. `Crashed.perform` — a step, a tick
  or a move of a key leaves it so.
* `perform_of_crashed`, `run_of_crashed` — what an action, and a history, makes of the rest of the state.
* `crash_absorbing` — so a crash is the end.
-/

set_option autoImplicit false

namespace Chip8.Machine

variable {env : Environment} {m n : Machine} {a : Action} {e : Error}

/-- An obstacle lies in the memory, the registers, the index, the address of the next instruction or the stack. -/
theorem Obstacle.of_same {f : Fault} (h : m.Obstacle f)
    (hsame : ∀ p ∈ [Part.memory, .registers, .index, .pc, .stack], p.Same m n) : n.Obstacle f := by
  have hmemory : m.memory = n.memory := hsame .memory (by simp)
  have hregisters : m.registers = n.registers := hsame .registers (by simp)
  have hindex : m.index = n.index := hsame .index (by simp)
  have hpc : m.pc = n.pc := hsame .pc (by simp)
  have hstack : m.stack = n.stack := hsame .stack (by simp)
  -- with these five put in its place, the other state has the same obstacle by its own definition
  cases n
  dsimp only at hmemory hregisters hindex hpc hstack
  subst hmemory hregisters hindex hpc hstack
  cases h with
  | outside hpc => exact .outside hpc
  | atEnd hpc => exact .atEnd hpc
  | unknown hpc ho => exact .unknown hpc ho
  | emptyStack hpc ho hs => exact .emptyStack hpc ho hs
  | fullStack hpc ho hs => exact .fullStack hpc ho hs
  | noKey hpc ho hb hx => exact .noKey hpc ho hb hx
  | spriteStart hpc ho hn hi => exact .spriteStart hpc ho hn hi
  | spriteEnd hpc ho hn hi hl => exact .spriteEnd hpc ho hn hi hl
  | digits hpc ho hb hi => exact .digits hpc ho hb hi
  | store hpc ho hb hi => exact .store hpc ho hb hi
  | loadStart hpc ho hb hi => exact .loadStart hpc ho hb hi
  | loadEnd hpc ho hb hi hl => exact .loadEnd hpc ho hb hi hl

/-! ## Machines that crashed -/

/-- The next step fails with an error, and the keypad records no presses. -/
structure Crashed (env : Environment) (m : Machine) (e : Error) : Prop where
  wellFormed : m.WellFormed
  waiting_eq : m.keypad.waiting = false
  failure_eq : (m.step env).failure = some e

namespace Crashed

/-- A step changes nothing. -/
theorem machine_eq (henv : env.sys = none) (h : Crashed env m e) : (m.step env).machine = m :=
  (obstacle_of_failure henv h.wellFormed h.failure_eq).2.1

/-- The timers and the keys make no difference. -/
theorem of_same (henv : env.sys = none) (h : Crashed env m e) (hn : n.WellFormed)
    (hwaiting : n.keypad.waiting = false)
    (hsame : ∀ p ∈ [Part.memory, .registers, .index, .pc, .stack, .awaiting], p.Same m n) : Crashed env n e := by
  obtain ⟨hawait, -, f, rfl, hf⟩ := obstacle_of_failure henv h.wellFormed h.failure_eq
  have hawait' : m.awaiting = n.awaiting := hsame .awaiting (by simp)
  refine ⟨hn, hwaiting, failure_of_obstacle (hawait' ▸ hawait) (hf.of_same ?_)⟩
  intro p hp
  exact hsame p (List.mem_append_left [Part.awaiting] hp)

/-- **The machine stays as it is** through a step, a tick or a move of a key. -/
theorem perform (henv : env.sys = none) (h : Crashed env m e) (ha : a.AroundWait) :
    Crashed env (m.perform env a).machine e := by
  have hwell := perform_wellFormed henv h.wellFormed a
  cases ha with
  | step => rw [Machine.perform, h.machine_eq henv]; exact h
  | tick => exact h.of_same henv hwell h.waiting_eq (by simp [Part.Same, Machine.perform, Outcome.done, tick])
  | move key s =>
    rcases m.moveKey_cases key s with ⟨k, -, hmove⟩ | ⟨-, hmove⟩
    · rw [Machine.perform, hmove] at hwell ⊢
      exact h.of_same henv hwell h.waiting_eq (by simp [Part.Same, Outcome.done])
    · rw [Machine.perform, hmove]
      exact h

theorem run (henv : env.sys = none) (h : Crashed env m e) {history : List Action}
    (hhistory : ∀ a ∈ history, a.AroundWait) : Crashed env (run env m history) e :=
  run_induction (P := fun m => Crashed env m e) Action.AroundWait (fun _ _ h ha => h.perform henv ha) h history
    hhistory

end Crashed

/-- What such an action makes of the rest: the timers tick and keys are moved. -/
theorem perform_of_crashed (henv : env.sys = none) (h : Crashed env m e) (ha : a.AroundWait) :
    ∃ states, (m.perform env a).machine =
      { m with
        delay := m.delay - [a].count .tick
        sound := m.sound - [a].count .tick
        keypad := { m.keypad with states := states } } := by
  cases ha with
  | step => exact ⟨m.keypad.states, h.machine_eq henv⟩
  | tick => exact ⟨m.keypad.states, rfl⟩
  | move key s =>
    rcases m.moveKey_cases key s with ⟨k, -, hmove⟩ | ⟨-, hmove⟩
    · rw [perform, hmove, Keypad.set_of_deaf h.waiting_eq]
      exact ⟨m.keypad.states.set k s, rfl⟩
    · rw [perform, hmove]
      exact ⟨m.keypad.states, rfl⟩

theorem run_of_crashed (henv : env.sys = none) (h : Crashed env m e) {history : List Action}
    (hhistory : ∀ a ∈ history, a.AroundWait) :
    ∃ states, run env m history =
      { m with
        delay := m.delay - history.count .tick
        sound := m.sound - history.count .tick
        keypad := { m.keypad with states := states } } := by
  induction history generalizing m with
  | nil => exact ⟨m.keypad.states, rfl⟩
  | cons a history ih =>
    have ha : a.AroundWait := hhistory a List.mem_cons_self
    obtain ⟨states, hperform⟩ := perform_of_crashed henv h ha
    obtain ⟨states', hrun⟩ := ih (h.perform henv ha) fun b hb => hhistory b (List.mem_cons_of_mem a hb)
    have hcount : (a :: history).count .tick = [a].count .tick + history.count .tick := by
      rw [← List.count_append, List.singleton_append]
    refine ⟨states', ?_⟩
    rw [run_cons, hrun, hperform, hcount]
    simp only [Nat.sub_sub]

/-- **A crash is the end.** Let a step fail, and then let steps, ticks and moves of keys follow in any order, also
moves of numbers that name no key. Every one of these steps fails with the same error and changes nothing. In the
end only the timers have run down by the ticks, and some keys have been moved. It takes for granted that the
machine waits for a key only if its keypad listens. -/
theorem crash_absorbing (henv : env.sys = none) (hm : m.WellFormed)
    (hwait : m.awaiting.isSome = true ↔ m.keypad.waiting = true) (hcrash : (m.step env).failure = some e)
    (history : List Action) (hhistory : ∀ a ∈ history, a.AroundWait) :
    let s := (m.step env).machine
    (∀ before after, history = before ++ .step :: after →
      ((run env s before).step env).failure = some e ∧
      ((run env s before).step env).machine = run env s before) ∧
    ∃ states, run env s history =
      { m with
        delay := m.delay - history.count .tick
        sound := m.sound - history.count .tick
        keypad := { m.keypad with states := states } } := by
  intro s
  obtain ⟨hawait, hs, -⟩ := obstacle_of_failure henv hm hcrash
  have hwaiting : m.keypad.waiting = false := by
    rw [hawait] at hwait
    simpa using hwait
  have h : Crashed env m e := ⟨hm, hwaiting, hcrash⟩
  have hstart : s = m := hs
  rw [hstart]
  constructor
  · rintro before after rfl
    have hbefore := h.run henv fun a ha => hhistory a (List.mem_append_left _ ha)
    exact ⟨hbefore.failure_eq, hbefore.machine_eq henv⟩
  · exact run_of_crashed henv h hhistory

/-- A skip by a register that names no key. Two ticks stop the timer, a key goes down, and a number that names none
is pressed. -/
theorem crash_absorbing_skip :
    let m := { (start (some ⟨[0xE0, 0x9E], by decide⟩)).machine with
      registers := Vector.replicate 16 0x20, delay := 1 }
    let env : Environment := ⟨fun _ => 0, none⟩
    let before : List Action := [.tick, .move 3 .pressed, .step, .move 99 .pressed, .tick]
    let s := (m.step env).machine
    (m.step env).failure = some (.fault (.invalidKey 0x20)) ∧
      ((run env s before).step env).failure = some (.fault (.invalidKey 0x20)) ∧
      (run env s (before ++ [.step])).delay = 0 := by
  intro m env before s
  have hstart := start_wellFormed (some ⟨[0xE0, 0x9E], by decide⟩)
  have hm : m.WellFormed :=
    ⟨hstart.index_lt, hstart.pc_lt, by decide, hstart.sound_lt, hstart.depth_le, hstart.return_lt⟩
  have hskip : m.Executes (.skipIfKey 0) := executes_start (p := ⟨[0xE0, 0x9E], by decide⟩) rfl rfl
  have hcrash : (m.step env).failure = some (.fault (.invalidKey 0x20)) := failure_of_faultOf hskip rfl
  have hhistory : ∀ a ∈ before ++ [.step], a.AroundWait := by
    simp only [before, List.cons_append, List.nil_append, List.forall_mem_cons, List.not_mem_nil, false_implies,
      implies_true, and_true]
    exact ⟨.tick, .move 3 .pressed, .step, .move 99 .pressed, .tick, .step⟩
  obtain ⟨hsteps, states, hend⟩ := crash_absorbing rfl hm (by decide) hcrash (before ++ [.step]) hhistory
  refine ⟨hcrash, (hsteps before [] rfl).1, ?_⟩
  rw [hend]
  rfl

end Chip8.Machine
