import Chip8.Proofs.Reads
import Chip8.Proofs.Restart

/-!
# Parts that are only written

Nothing that is done to a machine depends on its sound timer or on the count of its steps. Instructions and ticks set
them, a new start clears them, but what they hold makes no difference to anything else: a program cannot tell whether
the machine sounds, or how long it has run.

* `Action.reads` — the parts on which an action depends. `perform_alike` — what it does not look at makes no
  difference to it.
* `run_agree` — so what no action of a history looks at makes none to the rest of the state.
* `Action.writeOnly_notMem_reads` — no action looks at the sound timer or at the count.
* `sound_and_cycles_write_only` — so machines that differ in these alone stay the same otherwise, whatever is done.
-/

set_option autoImplicit false

namespace Chip8

/-- The parts on which an action depends. A step may execute any instruction. An action that writes a part of its
own, or some of the bytes, pixels or registers, does not depend on anything by that. -/
def Action.reads : Action → List Part
  | .step => [.memory, .screen, .keypad, .registers, .index, .pc, .delay, .stack, .awaiting, .randomTaken]
  | .execute i => i.reads
  | .pollKey => [.keypad, .awaiting]
  | .reset => [.program]
  | _ => []

theorem Instruction.reads_subset (i : Instruction) : i.reads ⊆ Action.step.reads := by
  cases i <;> simp [reads, Action.reads]

/-- **No action looks at the sound timer or at the count of the steps.** -/
theorem Action.writeOnly_notMem_reads (a : Action) : ∀ p ∈ a.reads, p ∉ [Part.sound, .cycles] := by
  have hstep : ∀ p ∈ Action.step.reads, p ∉ [Part.sound, .cycles] := by decide
  cases a with
  | step => exact hstep
  | execute i => exact fun p hp => hstep p (i.reads_subset hp)
  | _ => simp [reads]

namespace Machine

variable {env : Environment} {m n : Machine} {parts : List Part}

/-! ## One action -/

/-- An action that changes a single part is alike in two states if it ends alike and makes of that part what it does
from that part alone. -/
theorem perform_alike_of_changes {a : Action} {p : Part} (henv : env.sys = none) (hchanges : a.changes = [p])
    (h : (m.perform env a).failure = (n.perform env a).failure ∧
      (m.perform env a).events = (n.perform env a).events ∧
      (p.Same m n → p.Same (m.perform env a).machine (n.perform env a).machine)) :
    Alike m n (m.perform env a) (n.perform env a) := by
  obtain ⟨hfailure, hevents, hpart⟩ := h
  refine ⟨hfailure, hevents, fun q hq => ?_⟩
  by_cases hqp : q = p
  · exact hqp ▸ hpart (hqp ▸ hq)
  · have hkeeps : ∀ l : Machine, q.Same (l.perform env a).machine l := fun l =>
      perform_same (fun _ _ _ => henv) (by rw [hchanges]; exact mt List.mem_singleton.1 hqp)
    exact ((hkeeps m).trans hq).trans (hkeeps n).symm

/-- An action that always succeeds in silence ends alike in any two states. -/
theorem perform_alike_of_done {a : Action} {p : Part} {f : Machine → Machine} (henv : env.sys = none)
    (hchanges : a.changes = [p]) (hdone : ∀ l, perform env l a = .done (f l))
    (hpart : p.Same m n → p.Same (f m) (f n)) : Alike m n (m.perform env a) (n.perform env a) := by
  apply perform_alike_of_changes henv hchanges
  rw [hdone, hdone]
  exact ⟨rfl, rfl, hpart⟩

/-- What is made of the memory alone is the same for the same memory. -/
theorem memory_map_same (f : Memory → Memory) (h : Part.memory.Same m n) :
    Part.memory.Same { m with memory := f m.memory } { n with memory := f n.memory } := congrArg f h

/-- Of the state before it, a new start keeps the program and the place in the row of random numbers. -/
theorem reset_alike (hprogram : m.program = n.program) : Alike m n (.done m.reset) (.done n.reset) := by
  rw [m.reset_eq, n.reset_eq, hprogram]
  refine ⟨rfl, rfl, fun p hp => ?_⟩
  cases p with
  | randomTaken => exact hp
  | _ => rfl

theorem loadFrom_alike (source : Program.Source) : Alike m n (m.loadFrom source) (n.loadFrom source) := by
  rw [loadFrom_eq, loadFrom_eq]
  cases Program.ofSource source with
  | error e => exact .fail m n e
  | ok p =>
    refine ⟨rfl, rfl, fun q hq => ?_⟩
    cases q with
    | memory => exact congrArg (fun memory : Memory => memory.load p) hq
    | program => rfl
    | _ => exact hq

/-- **What an action does not look at makes no difference to it.** -/
theorem perform_alike (henv : env.sys = none) {a : Action} (hreads : ∀ p ∈ a.reads, p.Same m n) :
    Alike m n (m.perform env a) (n.perform env a) := by
  cases a with
  | step =>
    have hcourse : ∀ p ∈ [Part.memory, .pc, .awaiting], p.Same m n := fun p hp =>
      hreads p (by revert p; simp [Action.reads])
    refine step_alike henv hcourse (.inr (hreads .keypad (by simp [Action.reads]))) ?_
    exact fun i _ p hp => hreads p (i.reads_subset hp)
  | execute i => exact execute_alike (fun _ _ => henv) hreads
  | tick =>
    refine ⟨rfl, rfl, fun p hp => ?_⟩
    cases p with
    | delay | sound => exact congrArg (· - 1) hp
    | _ => exact hp
  | pollKey =>
    have hkeypad : m.keypad = n.keypad := hreads .keypad (by simp [Action.reads])
    have hawait : m.awaiting = n.awaiting := hreads .awaiting (by simp [Action.reads])
    cases hx : m.awaiting with
    | some x => exact pollKey_alike hx (hawait ▸ hx) hkeypad
    | none =>
      simp only [perform, pollKey, ← hawait, hx]
      exact .fail m n _
  | reset => exact reset_alike (hreads .program (by simp [Action.reads]))
  | load source => exact loadFrom_alike source
  -- the others write to one part, and what they write is given
  | skipIf c => exact perform_alike_of_done henv rfl (fun _ => rfl) fun h => skipIf_alike h c
  | setIndex v | setPc v => exact perform_alike_of_done henv rfl (fun _ => rfl) fun _ => rfl
  | setRegister x v =>
    refine perform_alike_of_changes (p := .registers) henv rfl ?_
    simp only [perform, setRegister]
    split
    · exact ⟨rfl, rfl, congrArg fun rs : Vector UInt8 16 => rs.set x (UInt8.ofInt v)⟩
    · exact ⟨rfl, rfl, id⟩
  | write v w =>
    refine perform_alike_of_changes (p := .memory) henv rfl ?_
    simp only [perform, writeByte, Memory.write]
    by_cases hv : below 4096 v = true
    · by_cases hw : below 256 w = true
      · rw [if_pos hv, if_pos hw, if_pos hv, if_pos hw]
        exact ⟨rfl, rfl, memory_map_same fun memory => memory.put v.toNat (UInt8.ofInt w)⟩
      · rw [if_pos hv, if_neg hw, if_pos hv, if_neg hw]
        exact ⟨rfl, rfl, id⟩
    · rw [if_neg hv, if_neg hv]
      exact ⟨rfl, rfl, id⟩
  | loadMemory source =>
    refine perform_alike_of_changes (p := .memory) henv rfl ?_
    simp only [perform, loadMemory]
    split
    · rename_i p _
      exact ⟨rfl, rfl, memory_map_same fun memory => memory.load p⟩
    · exact ⟨rfl, rfl, id⟩
  | loadFont => exact perform_alike_of_done henv rfl (fun _ => rfl) (memory_map_same Memory.withFont)
  | clearMemory => exact perform_alike_of_done henv rfl (fun _ => rfl) (memory_map_same Memory.clear)
  | draw rows origin =>
    refine perform_alike_of_changes (p := .screen) henv rfl ?_
    simp only [perform, drawRows]
    split
    · rename_i sprite _
      exact ⟨rfl, rfl, congrArg fun screen : Screen => screen.draw sprite origin⟩
    · exact ⟨rfl, rfl, id⟩
  | clearScreen => exact perform_alike_of_done henv rfl (fun _ => rfl) (congrArg Screen.clear)
  | move key s =>
    refine perform_alike_of_changes (p := .keypad) henv rfl ?_
    simp only [perform, moveKey, Keypad.move]
    cases Key.checked key with
    | ok k => exact ⟨rfl, rfl, congrArg fun keypad : Keypad => keypad.set k s⟩
    | error f => exact ⟨rfl, rfl, id⟩

/-! ## Histories -/

/-- **What no action of a history looks at makes no difference to the rest of the state.** -/
theorem run_agree (henv : env.sys = none) (h : AgreeOff parts m n) (history : List Action)
    (hreads : ∀ a ∈ history, ∀ p ∈ a.reads, p ∉ parts) :
    AgreeOff parts (run env m history) (run env n history) := by
  induction history generalizing m n with
  | nil => exact h
  | cons a history ih =>
    obtain ⟨hfirst, hrest⟩ := List.forall_mem_cons.1 hreads
    have halike : Alike m n (m.perform env a) (n.perform env a) :=
      perform_alike henv fun p hp => h p (hfirst p hp)
    exact ih (halike.agree h) hrest

/-- The same state with another value of the sound timer, and another count of the steps. -/
def withSoundAndCycles (m : Machine) (sound cycles : Nat) : Machine := { m with sound := sound, cycles := cycles }

theorem withSoundAndCycles_agree (m : Machine) (sound cycles : Nat) :
    AgreeOff [.sound, .cycles] m (m.withSoundAndCycles sound cycles) := by
  intro p hp
  cases p with
  | sound | cycles => simp at hp
  | _ => rfl

/-- States that agree otherwise are the same state with another sound and count. -/
theorem AgreeOff.eq_withSoundAndCycles (h : AgreeOff [.sound, .cycles] m n) :
    n = m.withSoundAndCycles n.sound n.cycles := by
  apply AgreeOff.eq (h.symm.trans (m.withSoundAndCycles_agree n.sound n.cycles))
  intro p hp
  simp only [List.mem_cons, List.not_mem_nil, or_false] at hp
  rcases hp with rfl | rfl <;> rfl

/-- **The sound timer and the count of the steps are only written.** Two machines may differ in them, and the same
may be done to both: steps, instructions that were built by hand, ticks, moves of keys, loads, new starts, and
whatever else a host can do. Each action of the history then ends alike in both and tells the same, it takes the same
random numbers, and the states after it differ in nothing else. -/
theorem sound_and_cycles_write_only (henv : env.sys = none) (m : Machine) (sound cycles : Nat)
    (history : List Action) :
    let n := m.withSoundAndCycles sound cycles
    (∃ sound' cycles', run env n history = (run env m history).withSoundAndCycles sound' cycles') ∧
    ∀ before a after, history = before ++ a :: after →
      let o := (run env m before).perform env a
      let o' := (run env n before).perform env a
      o'.failure = o.failure ∧ o'.events = o.events ∧
        (run env n before).randomTaken = (run env m before).randomTaken ∧
        o'.machine.randomTaken = o.machine.randomTaken ∧
        ∃ sound' cycles', o'.machine = o.machine.withSoundAndCycles sound' cycles' := by
  intro n
  have hagree : ∀ history, AgreeOff [.sound, .cycles] (run env m history) (run env n history) := fun history =>
    run_agree henv (m.withSoundAndCycles_agree sound cycles) history fun a _ => a.writeOnly_notMem_reads
  refine ⟨⟨_, _, (hagree history).eq_withSoundAndCycles⟩, fun before a after _ => ?_⟩
  have halike : Alike _ _ ((run env m before).perform env a) ((run env n before).perform env a) :=
    perform_alike henv fun p hp => hagree before p (a.writeOnly_notMem_reads p hp)
  refine ⟨halike.failure_eq.symm, halike.events_eq.symm, ?_, ?_, ?_⟩
  · exact (hagree before .randomTaken (by decide)).symm
  · exact (halike.agree (hagree before) .randomTaken (by decide)).symm
  · exact ⟨_, _, (halike.agree (hagree before)).eq_withSoundAndCycles⟩

/-- A machine that sounds and one that was just switched on. An instruction that was built by hand fails in both. -/
theorem sound_and_cycles_write_only_failure :
    let env : Environment := ⟨fun k => k, none⟩
    let n := fresh.withSoundAndCycles 200 9
    let history := [Action.execute (.setSound 1), .execute (.setByte 1 300), .tick, .execute (.random 2 255), .step]
    (∃ sound cycles, run env n history = (run env fresh history).withSoundAndCycles sound cycles) ∧
      ((run env n [.execute (.setSound 1)]).perform env (.execute (.setByte 1 300))).failure = some .notAByte := by
  intro env n history
  have henv : env.sys = none := rfl
  obtain ⟨hstates, houtcomes⟩ := sound_and_cycles_write_only henv fresh 200 9 history
  obtain ⟨hfailure, -⟩ := houtcomes [.execute (.setSound 1)] (.execute (.setByte 1 300)) _ rfl
  exact ⟨hstates, hfailure.trans rfl⟩

end Machine

end Chip8
