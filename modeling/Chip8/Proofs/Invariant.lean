import Chip8.Proofs.Footprint
import Chip8.Proofs.KeyHistory

/-!
# What every history keeps

A machine is well formed if its numbers are in their ranges: sixteen bits for the index, the address of the
next instruction and the places to return to, a byte for each timer, and at most sixteen open calls. Bytes in
memory and registers, keys and pixels are in range by their types. A machine and its keypad agree if the keypad
listens exactly while the machine waits for a key.

* `WellFormed.of_same` — the parts of the state that count.
* `execute_wellFormed`, `step_wellFormed`, `perform_wellFormed` — an instruction, a step and any action keep
  the machine well formed, whether they succeed or fail.
* `WaitLaw` — what keeps a law about the keypad and the wait. `waitLaw_listens`, `waitLaw_presses`, `waitLaw_agrees` —
  three such laws. `WaitLaw.perform`, `WaitLaw.run` — every action and every history keep them.
* `run_invariant` — what holds after every history of a machine that was just built.
* `listens_without_wait` — a keypad that listened before need not agree with its machine.
-/

set_option autoImplicit false

namespace Chip8.Machine

variable {env : Environment}

/-! ## Well-formed machines -/

/-- The numbers of the machine are in their ranges. -/
structure WellFormed (m : Machine) : Prop where
  index_lt : m.index < 65536
  pc_lt : m.pc < 65536
  delay_lt : m.delay < 256
  sound_lt : m.sound < 256
  depth_le : m.stack.length ≤ 16
  return_lt : ∀ a ∈ m.stack, a < 65536

namespace WellFormed

variable {m : Machine}

/-- Only the numbers count. -/
theorem frame {n : Machine} (h : m.WellFormed) (hindex : n.index = m.index) (hpc : n.pc = m.pc)
    (hdelay : n.delay = m.delay) (hsound : n.sound = m.sound) (hstack : n.stack = m.stack) :
    n.WellFormed := by
  refine ⟨?_, ?_, ?_, ?_, ?_, ?_⟩
  · rw [hindex]; exact h.index_lt
  · rw [hpc]; exact h.pc_lt
  · rw [hdelay]; exact h.delay_lt
  · rw [hsound]; exact h.sound_lt
  · rw [hstack]; exact h.depth_le
  · rw [hstack]; exact h.return_lt

theorem of_same {n : Machine} (h : m.WellFormed)
    (hsame : ∀ p ∈ [Part.index, .pc, .delay, .sound, .stack], p.Same n m) : n.WellFormed :=
  h.frame (hsame .index (by decide)) (hsame .pc (by decide)) (hsame .delay (by decide))
    (hsame .sound (by decide)) (hsame .stack (by decide))

theorem goAnywhere (h : m.WellFormed) {a : Nat} (ha : a < 65536) : { m with pc := a }.WellFormed :=
  ⟨h.index_lt, ha, h.delay_lt, h.sound_lt, h.depth_le, h.return_lt⟩

theorem pointAnywhere (h : m.WellFormed) {a : Nat} (ha : a < 65536) :
    { m with index := a }.WellFormed :=
  ⟨ha, h.pc_lt, h.delay_lt, h.sound_lt, h.depth_le, h.return_lt⟩

theorem advance (h : m.WellFormed) : m.advance.WellFormed := h.goAnywhere (word16_lt _)

theorem skipIf (h : m.WellFormed) (c : Bool) : (m.skipIf c).WellFormed := by
  cases c with
  | false => exact h
  | true => exact h.advance

theorem moveIndex (h : m.WellFormed) (n : Nat) : (m.moveIndex n).WellFormed :=
  h.pointAnywhere (word16_lt _)

theorem registers (h : m.WellFormed) (rs : Vector UInt8 16) : { m with registers := rs }.WellFormed :=
  h.frame rfl rfl rfl rfl rfl

theorem memory (h : m.WellFormed) (memory : Memory) : { m with memory := memory }.WellFormed :=
  h.frame rfl rfl rfl rfl rfl

theorem ret {back : Nat} {rest : List Nat} (h : m.WellFormed) (hs : m.stack = back :: rest) :
    { m with pc := back, stack := rest }.WellFormed := by
  have hdepth := h.depth_le
  have hreturn := h.return_lt
  rw [hs] at hdepth hreturn
  rw [List.length_cons] at hdepth
  exact ⟨h.index_lt, hreturn back List.mem_cons_self, h.delay_lt, h.sound_lt,
    Nat.le_of_succ_le hdepth, fun a ha => hreturn a (List.mem_cons_of_mem _ ha)⟩

theorem call (h : m.WellFormed) (hs : m.stack.length < stackSize) (a : Address) :
    ({ m with stack := m.pc :: m.stack }.goTo a).WellFormed := by
  refine ⟨h.index_lt, ?_, h.delay_lt, h.sound_lt, hs, ?_⟩
  · exact Nat.lt_trans a.isLt (by decide)
  · intro b hb
    rcases List.mem_cons.1 hb with rfl | hb
    · exact h.pc_lt
    · exact h.return_lt b hb

end WellFormed

/-- **Every instruction keeps the machine well formed**, whatever its byte is and however it ends. -/
theorem execute_wellFormed {m : Machine} (henv : env.sys = none) (h : m.WellFormed) (i : Instruction) :
    (m.execute env i).machine.WellFormed := by
  cases i with
  | ret =>
    simp only [execute]
    split
    · exact h
    · rename_i back rest hs
      exact h.ret hs
  | jump a => exact h.goAnywhere (Nat.lt_trans a.isLt (by decide))
  | call a =>
    simp only [execute]
    split
    · rename_i hs
      exact h.call hs a
    · exact h
  | skipIfByte | skipUnlessByte | skipIfEqual | skipUnlessEqual => exact h.skipIf _
  | setIndex a => exact h.pointAnywhere (Nat.lt_trans a.isLt (by decide))
  | jumpOffset a =>
    have ha := a.isLt
    have hv := (m.reg 0).toNat_lt
    exact h.goAnywhere (by omega)
  | skipIfKey x | skipUnlessKey x =>
    simp only [execute, skipByKey]
    split
    · exact h.skipIf _
    · exact h
  | setDelay x =>
    exact ⟨h.index_lt, h.pc_lt, (m.reg x).toNat_lt, h.sound_lt, h.depth_le, h.return_lt⟩
  | setSound x =>
    exact ⟨h.index_lt, h.pc_lt, h.delay_lt, (m.reg x).toNat_lt, h.depth_le, h.return_lt⟩
  | addIndex x => exact h.moveIndex _
  | pointDigit x =>
    have hd := (Nibble.ofInt (m.reg x).toNat).isLt
    exact h.pointAnywhere (by simp only [Font.address, Font.start, Font.height]; omega)
  | storeRegisters x =>
    rw [execute, storeRegisters_eq]
    split
    · exact h
    · exact (h.memory _).moveIndex _
  | loadRegisters x =>
    rw [execute, loadRegisters_eq]
    split
    · exact h
    · obtain ⟨rs, hrs⟩ := m.setRegs_frame (x.upTo.zip (m.memory.block m.index (x.val + 1)))
      rw [hrs]
      exact (h.registers rs).moveIndex _
  -- none of the others concerns a number
  | _ => exact h.of_same fun p hp => execute_same (fun _ _ => henv) m (by revert p; simp [Instruction.changes])

theorem pollKey_wellFormed {m : Machine} (h : m.WellFormed) : m.pollKey.machine.WellFormed :=
  h.of_same fun p hp => pollKey_same (by revert p; simp) m

theorem settle_wellFormed {pc : Nat} {o : Outcome} (h : o.machine.WellFormed) (hpc : pc < 65536) :
    (settle pc o).machine.WellFormed := by
  unfold settle
  split
  · exact h.frame rfl rfl rfl rfl rfl
  · exact h.goAnywhere hpc
  · exact h

theorem step_wellFormed {m : Machine} (henv : env.sys = none) (h : m.WellFormed) :
    (m.step env).machine.WellFormed := by
  rcases m.step_cases with ⟨x, hx⟩ | ⟨hawait, hpc⟩ | ⟨hawait, hpc⟩ | ⟨hawait, hpc, ho⟩ | ⟨i, hi⟩
  · rw [step_of_awaiting hx]; exact pollKey_wellFormed h
  · rw [step_of_outside hawait hpc]; exact h
  · rw [step_at_end hawait hpc]; exact h
  · rw [step_of_unknown hawait hpc ho]; exact h
  · rw [step_of_executes hi]
    exact settle_wellFormed (execute_wellFormed henv h.advance i) h.pc_lt

theorem fresh_wellFormed : fresh.WellFormed :=
  ⟨by decide, by decide, by decide, by decide, by decide, fun _ h => by cases h⟩

theorem start_wellFormed (p : Option Program) : (start p).machine.WellFormed := by
  cases p with
  | none => exact fresh_wellFormed
  | some p => rw [start_eq]; exact fresh_wellFormed.frame rfl rfl rfl rfl rfl

theorem loadFrom_wellFormed {m : Machine} (h : m.WellFormed) (source : Program.Source) :
    (m.loadFrom source).machine.WellFormed :=
  h.of_same fun p hp => loadFrom_same (by revert p; simp) m source

/-- **Every action keeps the machine well formed.** -/
theorem perform_wellFormed {m : Machine} (henv : env.sys = none) (h : m.WellFormed) (a : Action) :
    (m.perform env a).machine.WellFormed := by
  cases a with
  | step => exact step_wellFormed henv h
  | execute i => exact execute_wellFormed henv h i
  | tick =>
    have hdelay := h.delay_lt
    have hsound := h.sound_lt
    exact ⟨h.index_lt, h.pc_lt, by simp only [perform, Outcome.done, tick]; omega,
      by simp only [perform, Outcome.done, tick]; omega, h.depth_le, h.return_lt⟩
  | pollKey => exact pollKey_wellFormed h
  | skipIf c => exact h.skipIf c
  | reset => exact fresh_wellFormed.frame rfl rfl rfl rfl rfl
  | setIndex a => exact h.pointAnywhere a.toNat_lt
  | setPc a => exact h.goAnywhere a.toNat_lt
  | _ => exact h.of_same fun p hp => perform_same (fun _ _ _ => henv) (by revert p; simp [Action.changes])

/-! ## Machines linked to their keypads -/

/-- A law about a keypad and the register that waits for a key of it: it holds while nothing waits, at the start of a
wait, and still after a key was moved. -/
structure WaitLaw (P : Keypad → Option Register → Prop) : Prop where
  idle : ∀ states, P ⟨states, false, []⟩ none
  begins : ∀ p x, P (Keypad.beginWait p) (some x)
  moves : ∀ p awaiting k s, P p awaiting → P (Keypad.set p k s) awaiting

/-- The keypad listens while the machine waits for a key. -/
theorem waitLaw_listens : WaitLaw fun p awaiting => awaiting.isSome = true → p.waiting = true where
  idle _ h := by cases h
  begins _ _ _ := rfl
  moves _ _ _ _ h := h

/-- The keypad has recorded presses only while it listens. -/
theorem waitLaw_presses : WaitLaw fun p _ => p.waiting = false → p.presses = [] where
  idle _ _ := rfl
  begins _ _ h := by cases h
  moves p _ k s h hwaiting := by
    have hnot : p.waiting = false := hwaiting
    exact (Keypad.presses_set_of_not (by simp [hnot])).trans (h hnot)

/-- The machine waits for a key exactly while its keypad listens. -/
theorem waitLaw_agrees : WaitLaw fun p awaiting => awaiting.isSome = true ↔ p.waiting = true where
  idle _ := iff_of_false Bool.false_ne_true Bool.false_ne_true
  begins _ _ := ⟨fun _ => rfl, fun _ => rfl⟩
  moves _ _ _ _ h := h

namespace WaitLaw

variable {P : Keypad → Option Register → Prop} {m : Machine}

/-- Only the keypad and the wait count. -/
theorem frame {n : Machine} (h : P m.keypad m.awaiting) (hkeypad : n.keypad = m.keypad)
    (hawait : n.awaiting = m.awaiting) : P n.keypad n.awaiting := by
  rw [hkeypad, hawait]
  exact h

theorem execute (hP : WaitLaw P) (henv : env.sys = none) (h : P m.keypad m.awaiting) (i : Instruction) :
    P (m.execute env i).machine.keypad (m.execute env i).machine.awaiting := by
  cases i with
  | awaitKey x => exact hP.begins m.keypad x
  | _ =>
    exact frame h (execute_same (p := .keypad) (fun _ _ => henv) m (by simp [Instruction.changes]))
      (execute_same (p := .awaiting) (fun _ _ => henv) m (by simp [Instruction.changes]))

theorem pollKey (hP : WaitLaw P) (h : P m.keypad m.awaiting) :
    P m.pollKey.machine.keypad m.pollKey.machine.awaiting := by
  cases hx : m.awaiting with
  | none =>
    simp only [Machine.pollKey, hx]
    exact hx ▸ h
  | some x =>
    cases hp : m.keypad.presses with
    | nil => rw [pollKey_of_nil hx hp]; exact h
    | cons k ks => rw [pollKey_of_cons hx hp]; exact hP.idle _

theorem settle {pc : Nat} {o : Outcome} (h : P o.machine.keypad o.machine.awaiting) :
    P (settle pc o).machine.keypad (settle pc o).machine.awaiting := by
  unfold Machine.settle
  split <;> exact h

theorem step (hP : WaitLaw P) (henv : env.sys = none) (h : P m.keypad m.awaiting) :
    P (m.step env).machine.keypad (m.step env).machine.awaiting := by
  rcases m.step_cases with ⟨x, hx⟩ | ⟨hawait, hpc⟩ | ⟨hawait, hpc⟩ | ⟨hawait, hpc, ho⟩ | ⟨i, hi⟩
  · rw [step_of_awaiting hx]; exact hP.pollKey h
  · rw [step_of_outside hawait hpc]; exact h
  · rw [step_at_end hawait hpc]; exact h
  · rw [step_of_unknown hawait hpc ho]; exact h
  · rw [step_of_executes hi]
    exact settle (hP.execute (m := m.advance) henv h i)

theorem moveKey (hP : WaitLaw P) (h : P m.keypad m.awaiting) (key : Int) (s : KeyState) :
    P (m.moveKey key s).machine.keypad (m.moveKey key s).machine.awaiting := by
  rcases m.moveKey_cases key s with ⟨k, -, hmove⟩ | ⟨-, hmove⟩
  · rw [hmove]; exact hP.moves _ _ k s h
  · rw [hmove]; exact h

/-- **Every action keeps such a law.** -/
theorem perform (hP : WaitLaw P) (henv : env.sys = none) (h : P m.keypad m.awaiting) (a : Action) :
    P (m.perform env a).machine.keypad (m.perform env a).machine.awaiting := by
  cases a with
  | step => exact hP.step henv h
  | execute i => exact hP.execute henv h i
  | pollKey => exact hP.pollKey h
  | reset => exact hP.idle _
  | move key s => exact hP.moveKey h key s
  | _ =>
    exact frame h (perform_same (p := .keypad) (fun _ _ _ => henv) (by simp [Action.changes]))
      (perform_same (p := .awaiting) (fun _ _ _ => henv) (by simp [Action.changes]))

theorem run (hP : WaitLaw P) (henv : env.sys = none) (h : P m.keypad m.awaiting) (history : List Action) :
    P (run env m history).keypad (run env m history).awaiting :=
  run_induction (P := fun m => P m.keypad m.awaiting) (fun _ => True) (fun _ a hm _ => hP.perform henv hm a) h history
    fun _ _ => trivial

/-- After a new start it holds, whether it held before or not. -/
theorem run_of_reset (hP : WaitLaw P) (henv : env.sys = none) {history : List Action} (hreset : Action.reset ∈ history) :
    P (Machine.run env m history).keypad (Machine.run env m history).awaiting := by
  obtain ⟨before, after, rfl⟩ := List.append_of_mem hreset
  rw [run_append, run_cons]
  exact hP.run henv (hP.idle _) after

end WaitLaw

/-! ## Histories -/

/-- A machine that was just built is well formed, over any memory and screen. -/
theorem build_wellFormed (memory : Memory) (screen : Screen) (keypad : Keypad)
    (source : Option Program.Source) : (build memory screen keypad source).machine.WellFormed := by
  have hparts : { fresh with memory := memory, screen := screen, keypad := keypad }.WellFormed :=
    fresh_wellFormed.frame rfl rfl rfl rfl rfl
  cases source with
  | none => exact hparts
  | some source => exact loadFrom_wellFormed hparts source

/-- It does not wait for a key, and its keypad is the one that it was given. -/
theorem build_idle (memory : Memory) (screen : Screen) (keypad : Keypad) (source : Option Program.Source) :
    (build memory screen keypad source).machine.keypad = keypad ∧
      (build memory screen keypad source).machine.awaiting = none := by
  cases source with
  | none => exact ⟨rfl, rfl⟩
  | some source =>
    rw [build, loadFrom_eq]
    split <;> exact ⟨rfl, rfl⟩

/-- Every history keeps the machine well formed. -/
theorem run_wellFormed {m : Machine} (henv : env.sys = none) (h : m.WellFormed) (history : List Action) :
    (run env m history).WellFormed :=
  run_induction (P := WellFormed) (fun _ => True) (fun _ a hm _ => perform_wellFormed henv hm a) h history
    fun _ _ => trivial

/-- **Every history keeps the machine well formed, and its keypad listening while it waits for a key.** The machine may
have been built over any memory and screen, and over a keypad that was handled in any way before; it may have been
built without a program, or with one that was refused. No action has to succeed. The keypad has recorded presses only
while it listens. It listens exactly while the machine waits, unless it listened when it was given and the machine has
neither started anew nor waited for a key since. -/
theorem run_invariant (henv : env.sys = none) (memory : Memory) (screen : Screen)
    (handling : List Keypad.Operation) (source : Option Program.Source) (history : List Action) :
    let given := Keypad.after handling
    let built := (build memory screen given source).machine
    let m := run env built history
    m.WellFormed ∧ (m.awaiting.isSome = true → m.keypad.waiting = true) ∧
      (m.keypad.waiting = false → m.keypad.presses = []) ∧
      (given.waiting = false ∨ Action.reset ∈ history ∨
          (∃ first later, history = first ++ later ∧ (run env built first).awaiting.isSome = true) →
        (m.awaiting.isSome = true ↔ m.keypad.waiting = true)) := by
  intro given built m
  obtain ⟨hkeypad, hawait⟩ := build_idle memory screen given source
  have hlistens : built.awaiting.isSome = true → built.keypad.waiting = true := by
    intro h
    rw [hawait] at h
    cases h
  have hpresses : built.keypad.waiting = false → built.keypad.presses = [] := by
    rw [hkeypad]
    exact Keypad.presses_after_of_not_waiting handling
  refine ⟨run_wellFormed henv (build_wellFormed memory screen given source) history,
    waitLaw_listens.run henv hlistens history, waitLaw_presses.run henv hpresses history, ?_⟩
  rintro (hgiven | hreset | ⟨first, later, rfl, hwaits⟩)
  · refine waitLaw_agrees.run henv ?_ history
    rw [hkeypad, hawait, hgiven]
    decide
  · exact waitLaw_agrees.run_of_reset henv hreset
  · have hfirst := waitLaw_listens.run henv hlistens first
    have hlater := waitLaw_agrees.run henv ⟨hfirst, fun _ => hwaits⟩ later
    rwa [← run_append] at hlater

/-- A wait that ends, with a key held before, a key that does not exist, a byte that is none, and a step outside
the memory; and a keypad that listened from the start, until the machine waited itself. -/
theorem run_invariant_failures :
    let env : Environment := ⟨fun _ => -1, none⟩
    let m := run env (build .fresh .blank (Keypad.after [.move 5 .pressed]) none).machine
      [.execute (.awaitKey 3), .move 16 .pressed, .move 7 .pressed, .step, .execute (.setByte 0 256),
        .setPc 0xFFFF, .step]
    let n := run env (build .fresh .blank (Keypad.after [.beginWait, .move 5 .pressed]) none).machine
      [.tick, .execute (.awaitKey 3), .move 7 .pressed, .step]
    m.WellFormed ∧ (m.awaiting.isSome = true ↔ m.keypad.waiting = true) ∧
      n.WellFormed ∧ (n.awaiting.isSome = true ↔ n.keypad.waiting = true) := by
  intro env m n
  obtain ⟨hm, -, -, hagrees⟩ := @run_invariant env rfl .fresh .blank [.move 5 .pressed] none
    [.execute (.awaitKey 3), .move 16 .pressed, .move 7 .pressed, .step, .execute (.setByte 0 256), .setPc 0xFFFF,
      .step]
  obtain ⟨hn, -, -, hagrees'⟩ := @run_invariant env rfl .fresh .blank [.beginWait, .move 5 .pressed] none
    [.tick, .execute (.awaitKey 3), .move 7 .pressed, .step]
  exact ⟨hm, hagrees (.inl rfl), hn, hagrees' (.inr (.inr ⟨[.tick, .execute (.awaitKey 3)], _, rfl, rfl⟩))⟩

/-- A keypad that listens when the machine is built over it goes on to listen, though the machine does not wait. -/
theorem listens_without_wait :
    let m := run ⟨fun _ => 0, none⟩ (build .fresh .blank (Keypad.after [.beginWait]) none).machine [.tick]
    m.keypad.waiting = true ∧ m.awaiting = none ∧ ¬ (m.awaiting.isSome = true ↔ m.keypad.waiting = true) := by
  refine ⟨rfl, rfl, ?_⟩
  rintro ⟨-, hwaits⟩
  cases hwaits rfl

end Chip8.Machine
