import Chip8.Proofs.Step

/-!
# Skips in pairs

Every skip has a counterpart that asks the same and skips if the answer is no. So of the two exactly one skips,
whatever the machine holds, unless they ask for the key of a register that names none: then both fail, and nothing
changes.

* `Condition` — what a pair of skips asks, with its two members `Condition.skipIf` and `Condition.skipUnless`.
* `Condition.Holds`, `Condition.Keyless` — the answer, and the case that there is none.
* `execute_pair`, `faultOf_of_keyless` — the two members on the same state.
* `stepsTo_pair`, `step_of_keyless` — the steps that execute them.
* `skips_complementary` — all of this together.
-/

set_option autoImplicit false

namespace Chip8

/-- What a pair of skips asks. -/
inductive Condition where
  /-- A register holds a number. -/
  | byte (x : Register) (b : Int)
  /-- Two registers hold the same. -/
  | equal (x y : Register)
  /-- The key that a register names is held down. -/
  | key (x : Register)
  deriving DecidableEq, Repr

namespace Condition

/-- The skip on yes. -/
def skipIf : Condition → Instruction
  | .byte x b => .skipIfByte x b
  | .equal x y => .skipIfEqual x y
  | .key x => .skipIfKey x

/-- The skip on no. -/
def skipUnless : Condition → Instruction
  | .byte x b => .skipUnlessByte x b
  | .equal x y => .skipUnlessEqual x y
  | .key x => .skipUnlessKey x

def Holds (m : Machine) : Condition → Prop
  | .byte x b => ((m.reg x).toNat : Int) = b
  | .equal x y => m.reg x = m.reg y
  | .key x => ∃ k : Key, (m.reg x).toNat = k.val ∧ m.keypad.state k = .pressed

instance (m : Machine) : (c : Condition) → Decidable (c.Holds m)
  | .byte _ _ => inferInstanceAs (Decidable (_ = _))
  | .equal _ _ => inferInstanceAs (Decidable (_ = _))
  | .key _ => inferInstanceAs (Decidable (∃ _ : Key, _ ∧ _))

/-- The condition asks for the key of a register, and no key has the number in it. -/
def Keyless (m : Machine) (c : Condition) (x : Register) : Prop := c = .key x ∧ 15 < (m.reg x).toNat

/-- Only registers and keys count for the answer. -/
theorem holds_congr (c : Condition) {m n : Machine} (hregisters : n.registers = m.registers)
    (hkeypad : n.keypad = m.keypad) : c.Holds n ↔ c.Holds m := by
  cases c <;> simp only [Holds, Machine.reg, hregisters, hkeypad]

theorem keyless_congr (c : Condition) {m n : Machine} (hregisters : n.registers = m.registers) (x : Register) :
    c.Keyless n x ↔ c.Keyless m x := by
  simp only [Keyless, Machine.reg, hregisters]

end Condition

namespace Machine

variable (env : Environment) {m : Machine} {c : Condition}

/-! ## The members of a pair -/

theorem skipIf_decide (p : Prop) [Decidable p] :
    m.skipIf (decide p) = (if p then m.advance else m) ∧ m.skipIf (decide (¬ p)) = if p then m else m.advance := by
  by_cases h : p <;> simp [skipIf, h]

/-- **Exactly one member skips**, if there is an answer. -/
theorem execute_pair (hkey : ∀ x, ¬ c.Keyless m x) :
    m.execute env c.skipIf = .done (if c.Holds m then m.advance else m) ∧
      m.execute env c.skipUnless = .done (if c.Holds m then m else m.advance) := by
  cases c with
  | byte x b =>
    obtain ⟨hif, hunless⟩ := skipIf_decide (m := m) (((m.reg x).toNat : Int) = b)
    exact ⟨congrArg Outcome.done hif, congrArg Outcome.done hunless⟩
  | equal x y =>
    obtain ⟨hif, hunless⟩ := skipIf_decide (m := m) (m.reg x = m.reg y)
    exact ⟨congrArg Outcome.done hif, congrArg Outcome.done hunless⟩
  | key x =>
    have hx : (m.reg x).toNat < 16 := Nat.lt_succ_of_le (Nat.le_of_not_lt fun hx => hkey x ⟨rfl, hx⟩)
    let k : Key := ⟨(m.reg x).toNat, hx⟩
    have hholds : (Condition.key x).Holds m ↔ m.keypad.isPressed k = true := by
      rw [Keypad.isPressed, decide_eq_true_eq]
      constructor
      · rintro ⟨l, hl, hdown⟩
        rwa [show k = l from Fin.ext hl]
      · exact fun hdown => ⟨k, rfl, hdown⟩
    simp only [Condition.skipIf, Condition.skipUnless, execute, m.skipByKey_of_key (k := k) rfl, hholds]
    cases m.keypad.isPressed k <;> exact ⟨rfl, rfl⟩

/-- Without a key to ask for, both members have the same fault. -/
theorem faultOf_of_keyless {x : Register} (h : c.Keyless m x) :
    m.faultOf c.skipIf = some (.invalidKey (m.reg x).toNat) ∧
      m.faultOf c.skipUnless = some (.invalidKey (m.reg x).toNat) := by
  obtain ⟨rfl, hx⟩ := h
  exact ⟨if_pos hx, if_pos hx⟩

/-! ## The members in a step -/

/-- A step succeeds, and leaves everything as it is but the place of the next instruction and the count. -/
def StepsTo (env : Environment) (m : Machine) (a : Nat) : Prop :=
  (m.step env).failure = none ∧ (m.step env).machine = { m with pc := a, cycles := m.cycles + 1 }

/-- Within the memory the places behind an instruction do not wrap. -/
theorem stepsTo_of_execute {i : Instruction} (h : m.Executes i) :
    (m.advance.execute env i = .done m.advance → StepsTo env m (m.pc + 2)) ∧
      (m.advance.execute env i = .done m.advance.advance → StepsTo env m (m.pc + 4)) := by
  have hpc := (executes_iff.1 h).2.1
  have hnext : m.advance = { m with pc := m.pc + 2 } := advance_of_lt (by omega)
  have hafter : m.advance.advance = { m with pc := m.pc + 4 } := by
    rw [hnext]
    exact advance_of_lt (show m.pc + 2 < 65534 by omega)
  constructor
  · intro hdone
    rw [StepsTo, step_of_done h hdone, hnext]
    exact ⟨rfl, rfl⟩
  · intro hdone
    rw [StepsTo, step_of_done h hdone, hafter]
    exact ⟨rfl, rfl⟩

theorem stepsTo_pair (hkey : ∀ x, ¬ c.Keyless m x) :
    (m.Executes c.skipIf → StepsTo env m (if c.Holds m then m.pc + 4 else m.pc + 2)) ∧
      (m.Executes c.skipUnless → StepsTo env m (if c.Holds m then m.pc + 2 else m.pc + 4)) := by
  -- The instruction is executed on a machine that has moved on, and finds the same answer there.
  have hkey' : ∀ x, ¬ c.Keyless m.advance x := fun x => mt (c.keyless_congr rfl x).1 (hkey x)
  have hsame : c.Holds m.advance ↔ c.Holds m := c.holds_congr rfl rfl
  obtain ⟨hif, hunless⟩ := execute_pair env hkey'
  by_cases h : c.Holds m
  · rw [if_pos (hsame.2 h)] at hif hunless
    rw [if_pos h, if_pos h]
    exact ⟨fun hm => (stepsTo_of_execute env hm).2 hif, fun hm => (stepsTo_of_execute env hm).1 hunless⟩
  · rw [if_neg (mt hsame.1 h)] at hif hunless
    rw [if_neg h, if_neg h]
    exact ⟨fun hm => (stepsTo_of_execute env hm).1 hif, fun hm => (stepsTo_of_execute env hm).2 hunless⟩

theorem step_of_keyless {x : Register} (h : c.Keyless m x) {i : Instruction} (hpair : i = c.skipIf ∨ i = c.skipUnless)
    (hm : m.Executes i) :
    (m.step env).failure = some (.fault (.invalidKey (m.reg x).toNat)) ∧ (m.step env).machine = m := by
  obtain ⟨hif, hunless⟩ := faultOf_of_keyless h
  have hfault : m.faultOf i = some (.invalidKey (m.reg x).toNat) := by
    rcases hpair with rfl | rfl
    · exact hif
    · exact hunless
  rw [step_of_fault hm hfault]
  exact ⟨rfl, rfl⟩

/-- **Skips come in exact complements.** Execute the two members of a pair from the same state, whatever it is. Either
they ask for the key of a register that names none: then both fail with the same fault, and nothing changes. Or they
leave everything as it is but the address of the next instruction, and exactly one of them moves that on by two: the
first if the condition holds, the second if it does not. So of two machines that differ at most in their memories, and
whose next steps execute one member each, one steps to the next instruction and the other to the one after it, or both
fail and stay as they are. -/
theorem skips_complementary (m : Machine) (c : Condition) :
    let skipped := { m with pc := (m.pc + 2) % 65536 }
    ((∃ x, c.Keyless m x ∧
        m.execute env c.skipIf = .fail m (.fault (.invalidKey (m.reg x).toNat)) ∧
        m.execute env c.skipUnless = .fail m (.fault (.invalidKey (m.reg x).toNat))) ∨
      ((∀ x, ¬ c.Keyless m x) ∧
        m.execute env c.skipIf = .done (if c.Holds m then skipped else m) ∧
        m.execute env c.skipUnless = .done (if c.Holds m then m else skipped))) ∧
    ∀ n memory, n = { m with memory := memory } → m.Executes c.skipIf → n.Executes c.skipUnless →
      (∃ x, c.Keyless m x ∧
        (m.step env).failure = some (.fault (.invalidKey (m.reg x).toNat)) ∧ (m.step env).machine = m ∧
        (n.step env).failure = some (.fault (.invalidKey (m.reg x).toNat)) ∧ (n.step env).machine = n) ∨
      ((∀ x, ¬ c.Keyless m x) ∧
        StepsTo env m (if c.Holds m then m.pc + 4 else m.pc + 2) ∧
        StepsTo env n (if c.Holds m then m.pc + 2 else m.pc + 4)) := by
  intro skipped
  by_cases hkey : ∃ x, c.Keyless m x
  · obtain ⟨x, hx⟩ := hkey
    obtain ⟨hif, hunless⟩ := faultOf_of_keyless hx
    refine ⟨.inl ⟨x, hx, execute_of_fault hif, execute_of_fault hunless⟩, ?_⟩
    rintro n memory rfl hm hn
    have hx' := (c.keyless_congr (n := { m with memory := memory }) rfl x).2 hx
    obtain ⟨hfailure, hstays⟩ := step_of_keyless env hx (.inl rfl) hm
    obtain ⟨hfailure', hstays'⟩ := step_of_keyless env hx' (.inr rfl) hn
    exact .inl ⟨x, hx, hfailure, hstays, hfailure', hstays'⟩
  · have hnone := not_exists.1 hkey
    refine ⟨.inr ⟨hnone, execute_pair env hnone⟩, ?_⟩
    rintro n memory rfl hm hn
    have hnone' := fun x => mt (c.keyless_congr (n := { m with memory := memory }) rfl x).1 (hnone x)
    have hfirst := (stepsTo_pair env hnone).1 hm
    have hsecond := (stepsTo_pair env hnone').2 hn
    simp only [c.holds_congr (m := m) (n := { m with memory := memory }) rfl rfl] at hsecond
    exact .inr ⟨hnone, hfirst, hsecond⟩

/-- The key that register V0 names is up. So of two machines, each with one of the skips on that key, the second
skips. -/
theorem skips_complementary_up :
    let env : Environment := ⟨fun _ => 0, none⟩
    let m := { fresh with memory := fresh.memory.load ⟨[0xE0, 0x9E], by decide⟩ }
    let n := { m with memory := fresh.memory.load ⟨[0xE0, 0xA1], by decide⟩ }
    m.Executes (.skipIfKey 0) ∧ n.Executes (.skipUnlessKey 0) ∧
      StepsTo env m (m.pc + 2) ∧ StepsTo env n (m.pc + 4) := by
  intro env m n
  have hm : m.Executes (.skipIfKey 0) := executes_loaded (k := 0) rfl rfl rfl rfl rfl rfl
  have hn : n.Executes (.skipUnlessKey 0) := executes_loaded (k := 0) rfl rfl rfl rfl rfl rfl
  have hreg : (m.reg 0).toNat = 0 := rfl
  have hup : ¬ (Condition.key 0).Holds m := by decide
  obtain ⟨-, hsteps⟩ := skips_complementary env m (.key 0)
  rcases hsteps n _ rfl hm hn with ⟨x, ⟨hx, hnone⟩, -⟩ | ⟨-, hfirst, hsecond⟩
  · cases hx
    omega
  · rw [if_neg hup] at hfirst hsecond
    exact ⟨hm, hn, hfirst, hsecond⟩

end Machine

end Chip8
