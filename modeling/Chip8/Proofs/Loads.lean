import Chip8.Proofs.Cells
import Chip8.Proofs.Faults
import Chip8.Proofs.Reads

/-!
# The bytes that a step looks at

Of the memory, a step looks at the word that it fetches and at the bytes that its instruction loads. What stands
elsewhere makes no difference: not to how the step ends, not to what it does to the rest of the state, and not to
the bytes that it writes.

* `DifferAt` — two states differ in nothing but the bytes at some addresses.
* `LooksAt`, `Stores` — the bytes that the next step looks at, and those that it writes.
* `DifferAt.step_alike` — bytes that the step does not look at make no difference to it.
* `step_keeps`, `DifferAt.step_stored` — a byte that is not written stays, and one that is does not depend on the
  memory.
* `step_differAt` — so the states differ afterwards at most where they did before.
-/

set_option autoImplicit false

namespace Chip8.Machine

variable {env : Environment} {m n : Machine} {i : Instruction} {A : Nat → Prop} {a : Nat}

/-- Two states differ in nothing but the bytes of the memory at some addresses. -/
structure DifferAt (A : Nat → Prop) (m n : Machine) : Prop where
  agree : AgreeOff [.memory] m n
  byteAt_eq : ∀ a, ¬ A a → m.memory.byteAt a = n.memory.byteAt a

/-- The next step looks at the byte at an address: it is one of its word, or one that its instruction loads. -/
def LooksAt (m : Machine) (a : Nat) : Prop :=
  a = m.pc ∨ a = m.pc + 1 ∨ ∃ i, m.Executes i ∧ i.LoadsAt m a

/-- The next step writes to the memory at an address. A step that fails writes nothing. -/
def Stores (env : Environment) (m : Machine) (a : Nat) : Prop :=
  (m.step env).failure = none ∧ ∃ i, m.Executes i ∧ i.StoresAt m a

/-! ## One instruction -/

/-- What an instruction stores is up to the registers and the index. -/
theorem execute_stored (hregisters : Part.registers.Same m n) (hindex : m.index = n.index)
    (hsuccess : (m.execute env i).failure = none) (ha : i.StoresAt m a) :
    (m.execute env i).machine.memory.byteAt a = (n.execute env i).machine.memory.byteAt a := by
  cases i with
  | storeDecimal x =>
    have hreg := reg_of_same hregisters x
    have hlength : ((decimalDigits (n.reg x).toNat).map UInt8.ofNat).length = 3 := rfl
    simp only [execute, storeDecimal_eq, hreg, hindex, Instruction.StoresAt] at hsuccess ha ⊢
    split at hsuccess
    · cases hsuccess
    · -- the range was checked first, so the writes cover it
      rename_i hfits
      rw [if_neg hfits, if_neg hfits, Outcome.done, Outcome.done]
      rw [Memory.byteAt_putAll _ _ _ (by omega), Memory.byteAt_putAll _ _ _ (by omega)]
      rw [if_pos (by omega), if_pos (by omega)]
  | storeRegisters x =>
    have hreg : m.reg = n.reg := funext (reg_of_same hregisters)
    have hlength : (x.upTo.map n.reg).length = x.val + 1 := by simp
    simp only [execute, storeRegisters_eq, hreg, hindex, Instruction.StoresAt] at hsuccess ha ⊢
    split at hsuccess
    · cases hsuccess
    · rename_i hfits
      rw [if_neg hfits, if_neg hfits, Outcome.done, Outcome.done, moveIndex, moveIndex]
      rw [Memory.byteAt_putAll _ _ _ (by omega), Memory.byteAt_putAll _ _ _ (by omega)]
      rw [if_pos (by omega), if_pos (by omega)]
  | _ => cases ha

/-! ## One step -/

/-- **A byte that is not written stays.** -/
theorem step_keeps (henv : env.sys = none) (hm : m.WellFormed) (hawait : m.awaiting = none)
    (ha : ¬ Stores env m a) : (m.step env).machine.memory.byteAt a = m.memory.byteAt a := by
  cases hfailure : (m.step env).failure with
  | some e => rw [(obstacle_of_failure henv hm hfailure).2.1]
  | none =>
    obtain ⟨i, hi⟩ := exists_executes hawait hfailure
    apply step_byteAt henv hi
    intro hstores
    exact ha ⟨hfailure, i, hi, hstores⟩

namespace DifferAt

/-- Both states fetch the same word. -/
theorem nextWord_eq (h : DifferAt A m n) (hA : ∀ a, A a → ¬ m.LooksAt a) : m.nextWord = n.nextWord := by
  have hpc : m.pc = n.pc := h.agree .pc (by simp)
  have hhigh := h.byteAt_eq m.pc fun ha => hA _ ha (.inl rfl)
  have hlow := h.byteAt_eq (m.pc + 1) fun ha => hA _ ha (.inr (.inl rfl))
  rw [nextWord, nextWord, hhigh, hlow, hpc]

theorem executes_iff (h : DifferAt A m n) (hA : ∀ a, A a → ¬ m.LooksAt a) :
    m.Executes i ↔ n.Executes i := by
  have hpc : m.pc = n.pc := h.agree .pc (by simp)
  have hawait : m.awaiting = n.awaiting := h.agree .awaiting (by simp)
  rw [Machine.executes_iff, Machine.executes_iff, nextOpcode, nextOpcode, h.nextWord_eq hA, hpc, hawait]

theorem stores_iff (h : DifferAt A m n) (hA : ∀ a, A a → ¬ m.LooksAt a)
    (hfailure : (m.step env).failure = (n.step env).failure) : Stores env m a ↔ Stores env n a := by
  have hindex : m.index = n.index := h.agree .index (by simp)
  simp only [Stores, hfailure, h.executes_iff hA, Instruction.storesAt_congr hindex]

/-- **What a step does not look at makes no difference**, byte by byte. -/
theorem step_alike (henv : env.sys = none) (hawait : m.awaiting = none) (h : DifferAt A m n)
    (hA : ∀ a, A a → ¬ m.LooksAt a) : Alike m n (m.step env) (n.step env) := by
  have hpc : m.pc = n.pc := h.agree .pc (by simp)
  have hawait' : m.awaiting = n.awaiting := h.agree .awaiting (by simp)
  apply step_alike_of_execute hawait (hawait' ▸ hawait) hpc (h.nextWord_eq hA)
  intro i hi
  have hexecute : Alike m.advance n.advance (m.advance.execute env i) (n.advance.execute env i) := by
    apply execute_alike_of_loads (fun _ _ => henv)
    · intro p _ hp
      exact advance_alike (h.agree p (by simpa using hp))
    · intro a ha
      exact h.byteAt_eq a fun hmem => hA a hmem (.inr (.inr ⟨i, hi, Instruction.loadsAt_advance.1 ha⟩))
  exact hexecute.mono fun p => advance_alike

/-- **A byte that is written does not depend on the memory.** -/
theorem step_stored (h : DifferAt A m n) (hA : ∀ a, A a → ¬ m.LooksAt a) (ha : Stores env m a) :
    (m.step env).machine.memory.byteAt a = (n.step env).machine.memory.byteAt a := by
  obtain ⟨hsuccess, i, hi, hstores⟩ := ha
  rw [step_memory hi, step_memory ((h.executes_iff hA).1 hi)]
  apply execute_stored
  · exact advance_alike (h.agree .registers (by simp))
  · exact h.agree .index (by simp)
  · exact (failure_step hi).symm.trans hsuccess
  · exact Instruction.storesAt_advance.2 hstores

end DifferAt

/-- **A step looks at no more of the memory than its word and what its instruction loads.** Let two states differ in
nothing but bytes at addresses that the step does not look at. Then it ends alike in both and tells the same, and
they differ afterwards at most where they did before. What the step writes is the same in both, and every other byte
stays in each of them. -/
theorem step_differAt (henv : env.sys = none) (hm : m.WellFormed) (hn : n.WellFormed) (hawait : m.awaiting = none)
    (h : DifferAt A m n) (hA : ∀ a, A a → ¬ m.LooksAt a) :
    (m.step env).failure = (n.step env).failure ∧
    (m.step env).events = (n.step env).events ∧
    DifferAt A (m.step env).machine (n.step env).machine ∧
    ∀ a, (Stores env m a →
        (m.step env).machine.memory.byteAt a = (n.step env).machine.memory.byteAt a) ∧
      (¬ Stores env m a →
        (m.step env).machine.memory.byteAt a = m.memory.byteAt a ∧
        (n.step env).machine.memory.byteAt a = n.memory.byteAt a) := by
  have halike := h.step_alike henv hawait hA
  have hwait : m.awaiting = n.awaiting := h.agree .awaiting (by simp)
  have hbytes : ∀ a, ¬ Stores env m a →
      (m.step env).machine.memory.byteAt a = m.memory.byteAt a ∧
      (n.step env).machine.memory.byteAt a = n.memory.byteAt a := by
    intro a ha
    have ha' : ¬ Stores env n a := fun hn => ha ((h.stores_iff hA halike.failure_eq).2 hn)
    exact ⟨step_keeps henv hm hawait ha, step_keeps henv hn (hwait ▸ hawait) ha'⟩
  refine ⟨halike.failure_eq, halike.events_eq, ⟨halike.agree h.agree, ?_⟩, ?_⟩
  · intro a ha
    by_cases hstores : Stores env m a
    · exact h.step_stored hA hstores
    · obtain ⟨hleft, hright⟩ := hbytes a hstores
      rw [hleft, hright, h.byteAt_eq a ha]
  · intro a
    exact ⟨h.step_stored hA, hbytes a⟩

/-- Two registers are stored over bytes that differ, and a byte that differs far away stays. -/
theorem step_differAt_store :
    let env : Environment := ⟨fun _ => 0, none⟩
    let m := { (start (some ⟨[0xF1, 0x55], by decide⟩)).machine with index := 0x300 }
    let n := { m with memory := (m.memory.put 0x301 7).put 0x400 9 }
    (n.step env).failure = none ∧
      (n.step env).machine.memory.byteAt 0x301 = (m.step env).machine.memory.byteAt 0x301 ∧
      (n.step env).machine.memory.byteAt 0x400 = 9 := by
  intro env m n
  have hm : m.WellFormed := (start_wellFormed _).pointAnywhere (by decide)
  have hn : n.WellFormed := ⟨hm.index_lt, hm.pc_lt, hm.delay_lt, hm.sound_lt, hm.depth_le, hm.return_lt⟩
  have hstore : m.Executes (.storeRegisters 1) := executes_start (p := ⟨[0xF1, 0x55], by decide⟩) rfl rfl
  have hsuccess : (m.step env).failure = none := by
    rw [step_of_no_fault rfl hm.delay_lt hstore rfl]
  have hdiffer : DifferAt (fun a => a = 0x301 ∨ a = 0x400) m n := by
    constructor
    · intro p hp
      exact (same_memory hp m _).symm
    · intro a ha
      obtain ⟨hnear, hfar⟩ := not_or.1 ha
      rw [Memory.byteAt_put _ (by decide), if_neg hfar, Memory.byteAt_put _ (by decide), if_neg hnear]
  have hunseen : ∀ a, a = 0x301 ∨ a = 0x400 → ¬ m.LooksAt a := by
    rintro a ha (hword | hword | ⟨i, hi, hloads⟩)
    · have hpc : m.pc = 0x200 := rfl
      omega
    · have hpc : m.pc = 0x200 := rfl
      omega
    · rw [executes_unique hi hstore] at hloads
      exact hloads
  obtain ⟨hfailure, -, -, hbytes⟩ := step_differAt (show env.sys = none from rfl) hm hn rfl hdiffer hunseen
  refine ⟨hfailure.symm.trans hsuccess, ?_, ?_⟩
  · have hnear : Stores env m 0x301 := ⟨hsuccess, _, hstore, by decide, by decide⟩
    exact ((hbytes 0x301).1 hnear).symm
  · have hfar : ¬ Stores env m 0x400 := by
      rintro ⟨-, i, hi, hstores⟩
      rw [executes_unique hi hstore] at hstores
      exact absurd hstores.2 (by decide)
    refine ((hbytes 0x400).2 hfar).2.trans ?_
    rw [Memory.byteAt_put _ (by decide), if_pos rfl]

end Chip8.Machine
