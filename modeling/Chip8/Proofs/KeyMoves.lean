import Chip8.Machine.Action
import Chip8.Proofs.Faults
import Chip8.Proofs.Reads

/-!
# Moves of keys around a step

A host moves keys whenever its player does. A step that executes no instruction about keys, of a machine that does
not wait for one, comes to the same before these moves as after them.

* `Instruction.UsesKeys` — the instructions that look at a key or wait for one.
* `withKeypad` — the same state with another keypad. `step_withKeypad` — a step makes of it what it makes of the
  state, and leaves it that keypad.
* `keyMoves`, `run_keyMoves` — moves of keys, and what they come to.
* `moves_commute` — so such a step and moves can change places.
-/

set_option autoImplicit false

namespace Chip8

/-- An instruction looks at a key, or waits for one. -/
def Instruction.UsesKeys : Instruction → Prop
  | .skipIfKey _ | .skipUnlessKey _ | .awaitKey _ => True
  | _ => False

/-- All others have nothing to do with the keypad. -/
theorem Instruction.keypad_apart {i : Instruction} (h : ¬ i.UsesKeys) :
    Part.keypad ∉ i.reads ∧ Part.keypad ∉ i.changes := by
  cases i <;> simp_all [UsesKeys, reads, changes]

/-- Move the keys of some numbers, one after the other. -/
def keyMoves (moves : List (Int × KeyState)) : List Action := moves.map fun (key, s) => .move key s

namespace Machine

variable {env : Environment} {m : Machine}

/-! ## Another keypad -/

/-- The same state with another keypad. -/
def withKeypad (m : Machine) (keypad : Keypad) : Machine := { m with keypad := keypad }

theorem withKeypad_agree (m : Machine) (keypad : Keypad) : AgreeOff [.keypad] m (m.withKeypad keypad) := by
  intro p hp
  cases p with
  | keypad => simp at hp
  | _ => rfl

/-- **A step that is not about keys is the same step with another keypad**, whether it executes an instruction or
fails. -/
theorem step_withKeypad (henv : env.sys = none) (hawait : m.awaiting = none)
    (h : ∀ i, m.Executes i → ¬ i.UsesKeys) (keypad : Keypad) :
    (m.step env).machine.keypad = m.keypad ∧
    (m.withKeypad keypad).step env =
      ⟨(m.step env).machine.withKeypad keypad, (m.step env).events, (m.step env).failure⟩ := by
  have hapart : ∀ i, m.Executes i → ∀ p ∈ [Part.keypad], p ∉ i.reads ∧ p ∉ i.changes := by
    intro i hi p hp
    rw [List.mem_singleton.1 hp]
    exact Instruction.keypad_apart (h i hi)
  obtain ⟨halike, hkeep⟩ := step_apart henv (m.withKeypad_agree keypad) (by simp) (.inl hawait) hapart
  obtain ⟨hleft, hright⟩ := hkeep .keypad (by simp)
  have hmachine : (m.step env).machine.withKeypad keypad = ((m.withKeypad keypad).step env).machine := by
    apply AgreeOff.eq ((withKeypad_agree _ keypad).symm.trans (halike.agree (m.withKeypad_agree keypad)))
    intro p hp
    rw [List.mem_singleton.1 hp]
    exact hright.symm
  refine ⟨hleft, ?_⟩
  rw [hmachine, halike.events_eq, halike.failure_eq]

/-! ## Moves -/

/-- A move changes the keypad alone, and whether it fails is up to its number. -/
theorem moveKey_withKeypad (m : Machine) (key : Int) (s : KeyState) :
    (m.moveKey key s).machine = m.withKeypad ((m.keypad.move key s).toOption.getD m.keypad) := by
  unfold moveKey
  cases m.keypad.move key s <;> rfl

theorem failure_moveKey (m n : Machine) (key : Int) (s : KeyState) :
    (m.moveKey key s).failure = (n.moveKey key s).failure := by
  unfold moveKey Keypad.move
  cases Key.checked key <;> rfl

/-- **Moves come to moves of the keypad.** -/
theorem run_keyMoves (m : Machine) (moves : List (Int × KeyState)) :
    run env m (keyMoves moves) = m.withKeypad (m.keypad.moveAll moves) := by
  induction moves generalizing m with
  | nil => rfl
  | cons move moves ih =>
    obtain ⟨key, s⟩ := move
    have hfirst : (m.perform env (.move key s)).machine =
        m.withKeypad ((m.keypad.move key s).toOption.getD m.keypad) := m.moveKey_withKeypad key s
    simp only [keyMoves, List.map_cons, run_cons, hfirst]
    exact ih _

/-- **A step and moves of keys can change places**, as long as the machine does not wait for a key and the step does
not execute an instruction about keys. The numbers may also name no key. Both ways lead to the same state, the step
ends alike and tells the same, and each move ends alike. The step may fail, and whether the keypad listens makes no
difference. -/
theorem moves_commute (henv : env.sys = none) (hawait : m.awaiting = none)
    (hkeys : ∀ i, m.Executes i → ¬ i.UsesKeys) (moves : List (Int × KeyState)) :
    run env m (keyMoves moves ++ [.step]) = run env m (.step :: keyMoves moves) ∧
    ((run env m (keyMoves moves)).step env).failure = (m.step env).failure ∧
    ((run env m (keyMoves moves)).step env).events = (m.step env).events ∧
    ∀ before key s after, moves = before ++ (key, s) :: after →
      ((run env m (keyMoves before)).perform env (.move key s)).failure =
        ((run env (m.step env).machine (keyMoves before)).perform env (.move key s)).failure := by
  obtain ⟨hkeypad, hstep⟩ := step_withKeypad henv hawait hkeys (m.keypad.moveAll moves)
  have hmoved : run env m (keyMoves moves) = m.withKeypad (m.keypad.moveAll moves) := run_keyMoves m moves
  refine ⟨?_, ?_, ?_, ?_⟩
  · rw [run_append, hmoved, run_cons, run_cons, run_nil, perform, perform, hstep, run_keyMoves, hkeypad]
  · rw [hmoved, hstep]
  · rw [hmoved, hstep]
  · intro before key s after _
    exact failure_moveKey _ _ key s

/-- A return with nothing to return to, while a key goes down and up, a number that names none between. -/
theorem moves_commute_return :
    let env : Environment := ⟨fun _ => 0, none⟩
    let m := (start (some ⟨[0x00, 0xEE], by decide⟩)).machine
    let moves := [(3, KeyState.pressed), (99, .pressed), (3, .released)]
    run env m (keyMoves moves ++ [.step]) = run env m (.step :: keyMoves moves) ∧
      ((run env m (keyMoves moves)).step env).failure = some (.fault .stackUnderflow) ∧
      ((run env (m.step env).machine (keyMoves [(3, .pressed)])).perform env (.move 99 .pressed)).failure =
        some (.fault (.invalidKey 99)) := by
  intro env m moves
  have hreturn : m.Executes .ret := executes_start (p := ⟨[0x00, 0xEE], by decide⟩) rfl rfl
  have hkeys : ∀ i, m.Executes i → ¬ i.UsesKeys := by
    intro i hi
    rw [executes_unique hi hreturn]
    exact id
  have hfailure : (m.step env).failure = some (.fault .stackUnderflow) := failure_of_faultOf hreturn rfl
  have henv : env.sys = none := rfl
  obtain ⟨hrun, hstep, -, hmoves⟩ := moves_commute henv rfl hkeys moves
  refine ⟨hrun, hstep.trans hfailure, ?_⟩
  exact (hmoves [(3, .pressed)] 99 .pressed [(3, .released)] rfl).symm.trans rfl

end Machine

end Chip8
