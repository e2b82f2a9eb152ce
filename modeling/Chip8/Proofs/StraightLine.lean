import Chip8.Proofs.Reads
import Chip8.Proofs.RoundTrip

/-!
# Straight-line programs

A program that does not jump, skip or wait, and does not write to the memory, runs as its instructions do when
they are executed one by one. Only the address of the next instruction and the count of the steps tell the two
apart: no instruction of such a program looks at them.

* `Instruction.Straight` — the instructions that such a program is made of.
* `machineCode` — its bytes. `nextWord_of_machineCode` — a machine that has come to an instruction in the loaded
  program finds its word.
* `attempt` — some actions, up to the first that fails.
* `Abreast` — a machine that steps and one that executes have come equally far. `Abreast.step` — the next
  instruction fails in both or in none, and then they still have.
* `attempt_straight` — so a straight-line program and its instructions come to the same.
-/

set_option autoImplicit false

namespace Chip8

namespace Instruction

/-- An instruction goes on with the one after it, at once, and writes nothing to the memory. -/
def Straight : Instruction → Prop
  | .ret | .jump _ | .call _ | .jumpOffset _ => False
  | .skipIfByte _ _ | .skipUnlessByte _ _ | .skipIfEqual _ _ | .skipUnlessEqual _ _ => False
  | .skipIfKey _ | .skipUnlessKey _ => False
  | .awaitKey _ => False
  | .storeDecimal _ | .storeRegisters _ => False
  | _ => True

/-- Neither the address of the next instruction nor the count of the steps makes a difference to it. -/
theorem Straight.not_reads {i : Instruction} (h : i.Straight) : ∀ p ∈ i.reads, p ∉ [Part.pc, .cycles] := by
  cases i <;> simp_all [Straight, reads]

theorem Straight.not_changes {i : Instruction} (h : i.Straight) :
    ∀ p ∈ [Part.memory, .pc, .awaiting, .cycles], p ∉ i.changes := by
  cases i <;> simp_all [Straight, changes]

/-- The word of an instruction as two bytes, high byte first. -/
def bytes (i : Instruction) : List UInt8 := [UInt8.ofNat (i.encode / 256), UInt8.ofNat (i.encode % 256)]

theorem word_bytes (i : Instruction) :
    256 * (UInt8.ofNat (i.encode / 256)).toNat + (UInt8.ofNat (i.encode % 256)).toNat = i.encode := by
  have hlt : i.encode < 65536 := i.opcode.word_lt
  rw [UInt8.toNat_ofNat', UInt8.toNat_ofNat', Nat.mod_eq_of_lt (by omega), Nat.mod_eq_of_lt (by omega)]
  omega

end Instruction

/-! ## Machine code -/

/-- The words of some instructions, one after the other. -/
def machineCode (is : List Instruction) : List UInt8 := is.flatMap Instruction.bytes

theorem length_machineCode (is : List Instruction) : (machineCode is).length = 2 * is.length := by
  induction is with
  | nil => rfl
  | cons i is ih =>
    have hcons : machineCode (i :: is) = i.bytes ++ machineCode is := List.flatMap_cons
    rw [hcons, List.length_append, ih, List.length_cons, Instruction.bytes, List.length_cons,
      List.length_singleton]
    omega

/-- The bytes of an instruction stand behind those of the instructions before it. -/
theorem getElem?_machineCode {is : List Instruction} {i : Instruction} {k : Nat} (hi : is[k]? = some i) :
    (machineCode is)[2 * k]? = some (UInt8.ofNat (i.encode / 256)) ∧
      (machineCode is)[2 * k + 1]? = some (UInt8.ofNat (i.encode % 256)) := by
  induction is generalizing k with
  | nil => cases hi
  | cons j is ih =>
    have hcons : machineCode (j :: is) = j.bytes ++ machineCode is := List.flatMap_cons
    cases k with
    | zero => cases hi; exact ⟨rfl, rfl⟩
    | succ k =>
      rw [List.getElem?_cons_succ] at hi
      rw [hcons, show 2 * (k + 1) = 2 * k + 1 + 1 by omega]
      exact ih hi

namespace Machine

variable {env : Environment}

/-- A machine that has come to an instruction in the program that was loaded finds its word. -/
theorem nextWord_of_machineCode {m : Machine} {memory : Memory} {p : Program} {is : List Instruction}
    {i : Instruction} {k : Nat} (hmemory : m.memory = memory.load p) (hp : p.bytes = machineCode is)
    (hpc : m.pc = Program.start + 2 * k) (hi : is[k]? = some i) : m.nextWord = i.encode := by
  obtain ⟨hhigh, hlow⟩ := getElem?_machineCode hi
  rw [nextWord_load hmemory hpc (by rw [hp]; exact hhigh) (by rw [hp]; exact hlow), i.word_bytes]

/-! ## Attempts -/

/-- Some actions one after the other, up to the first that fails: what they leave, and the failure. -/
def attempt (env : Environment) : Machine → List Action → Machine × Option Error
  | m, [] => (m, none)
  | m, a :: history =>
    match (m.perform env a).failure with
    | none => attempt env (m.perform env a).machine history
    | some e => ((m.perform env a).machine, some e)

theorem attempt_concat (m : Machine) (history : List Action) (a : Action) :
    attempt env m (history ++ [a]) =
      match attempt env m history with
      | (n, none) => ((n.perform env a).machine, (n.perform env a).failure)
      | failed => failed := by
  induction history generalizing m with
  | nil =>
    simp only [List.nil_append, attempt]
    split <;> simp_all
  | cons b history ih =>
    simp only [List.cons_append, attempt]
    split
    · exact ih _
    · rfl

/-! ## Two machines abreast -/

/-- After as many instructions, one machine that stepped and one that executed from the same state have come
equally far. -/
structure Abreast (m : Machine) (k : Nat) (stepped executed : Machine) : Prop where
  agree : AgreeOff [.pc, .cycles] stepped executed
  pc_stepped : stepped.pc = m.pc + 2 * k
  cycles_stepped : stepped.cycles = m.cycles + k
  pc_executed : executed.pc = m.pc
  cycles_executed : executed.cycles = m.cycles
  memory_executed : executed.memory = m.memory
  awaiting_executed : executed.awaiting = m.awaiting

namespace Abreast

variable {m stepped executed : Machine} {k : Nat}

/-- They differ in the address of the next instruction and in the count of the steps, and in nothing else. -/
theorem stepped_eq (h : Abreast m k stepped executed) :
    stepped = { executed with pc := m.pc + 2 * k, cycles := m.cycles + k } := by
  apply eq_of_same
  intro p
  have hagree : p ∉ [Part.pc, .cycles] → p.Same stepped executed := h.agree p
  cases p with
  | pc => exact h.pc_stepped
  | cycles => exact h.cycles_stepped
  | _ => exact hagree (by decide)

theorem refl (m : Machine) : Abreast m 0 m m :=
  ⟨fun p _ => .refl m p, rfl, rfl, rfl, rfl, rfl, rfl⟩

/-- **The next instruction fails in both machines alike, or in none.** Then they still are abreast. -/
theorem step {i : Instruction} (h : Abreast m k stepped executed) (henv : env.sys = none) (hi : i.Straight)
    (hexecutes : stepped.Executes i) (hroom : m.pc + 2 * (k + 1) < 65536) :
    (stepped.step env).failure = (executed.execute env i).failure ∧
      ((executed.execute env i).failure = none →
        Abreast m (k + 1) (stepped.step env).machine (executed.execute env i).machine) := by
  have hsys : ∀ a, i = .sys a → env.sys = none := fun _ _ => henv
  have hadvance : AgreeOff [.pc, .cycles] stepped.advance executed := by
    intro p hp
    exact (advance_same (fun h => hp (List.mem_append_left [.cycles] h)) stepped).trans (h.agree p hp)
  have hkeep : ∀ p ∈ [Part.memory, .pc, .awaiting, .cycles], ∀ n : Machine,
      p.Same (n.execute env i).machine n := by
    intro p hp n
    exact execute_same hsys n (hi.not_changes p hp)
  obtain ⟨hfailure, hagree⟩ := execute_agree hsys hadvance hi.not_reads
  rw [step_of_executes hexecutes, ← hfailure]
  refine ⟨failure_settle _ _, fun hsuccess => ?_⟩
  have hsettle : ((settle stepped.pc (stepped.advance.execute env i)).after (.executing stepped.pc i)).machine =
      { (stepped.advance.execute env i).machine with
        cycles := (stepped.advance.execute env i).machine.cycles + 1 } := settle_of_success hsuccess _
  have hpc : (stepped.advance.execute env i).machine.pc = word16 (stepped.pc + 2) := hkeep .pc (by decide) _
  have hcycles : (stepped.advance.execute env i).machine.cycles = stepped.cycles := hkeep .cycles (by decide) _
  constructor
  case agree => exact fun p hp => (settle_same hp stepped.pc _).trans (hagree p hp)
  case pc_stepped =>
    rw [hsettle, hpc, h.pc_stepped, word16_of_lt (by omega)]
    omega
  case cycles_stepped => rw [hsettle, hcycles, h.cycles_stepped]; rfl
  case pc_executed => exact (hkeep .pc (by decide) executed).trans h.pc_executed
  case cycles_executed => exact (hkeep .cycles (by decide) executed).trans h.cycles_executed
  case memory_executed => exact (hkeep .memory (by decide) executed).trans h.memory_executed
  case awaiting_executed => exact (hkeep .awaiting (by decide) executed).trans h.awaiting_executed

end Abreast

/-! ## Whole programs -/

/-- A program of some instructions is loaded if there is room for their words. -/
theorem loadFrom_machineCode (m : Machine) {is : List Instruction} (hlength : is.length ≤ 1792) :
    ∃ p : Program, p.bytes = machineCode is ∧
      m.loadFrom (.bytes (machineCode is)) =
        .done { m with memory := m.memory.load p, program := some p } [.loaded p.size] := by
  have hfits : (machineCode is).length ≤ 3584 := by
    rw [length_machineCode]
    omega
  refine ⟨⟨machineCode is, hfits⟩, rfl, ?_⟩
  rw [loadFrom_eq, Program.ofSource, Program.ofBytes, dif_pos hfits]

/-- Over a straight-line program, a machine that steps and one that executes stay abreast, until both fail. -/
theorem attempt_abreast {m : Machine} {memory : Memory} {p : Program} {is : List Instruction}
    (henv : env.sys = none) (hmemory : m.memory = memory.load p) (hp : p.bytes = machineCode is)
    (hawait : m.awaiting = none) (hpc : m.pc = Program.start) (hlength : is.length ≤ 1792)
    (hdecodes : ∀ i ∈ is, ∃ b, Instruction.decode b = .ok i) (hstraight : ∀ i ∈ is, i.Straight)
    {k : Nat} (hk : k ≤ is.length) :
    let stepped := attempt env m (List.replicate k .step)
    let executed := attempt env m ((is.take k).map .execute)
    stepped.2 = executed.2 ∧ (executed.2 = none → Abreast m k stepped.1 executed.1) := by
  induction k with
  | zero => exact ⟨rfl, fun _ => .refl m⟩
  | succ k ih =>
    obtain ⟨hsame, habreast⟩ := ih (by omega)
    have hi : is[k]? = some is[k] := List.getElem?_eq_getElem hk
    have hmem : is[k] ∈ is := List.getElem_mem hk
    have htake : (is.take (k + 1)).map Action.execute = (is.take k).map .execute ++ [.execute is[k]] := by
      rw [List.take_succ_eq_append_getElem hk, List.map_append]
      rfl
    rw [List.replicate_succ', htake]
    simp only [attempt_concat]
    cases hexecuted : attempt env m ((is.take k).map .execute) with
    | mk executed failure =>
      cases hstepped : attempt env m (List.replicate k .step) with
      | mk stepped failure' =>
        rw [hexecuted, hstepped] at hsame habreast
        obtain rfl : failure' = failure := hsame
        cases failure' with
        | some e => exact ⟨rfl, fun h => nomatch h⟩
        | none =>
          have h : Abreast m k stepped executed := habreast rfl
          have hstart : Program.start = 512 := rfl
          have hpc' : stepped.pc = Program.start + 2 * k := by rw [h.pc_stepped, hpc]
          have hmemory' : stepped.memory = executed.memory := h.agree .memory (by decide)
          have hawait' : stepped.awaiting = executed.awaiting := h.agree .awaiting (by decide)
          rw [h.memory_executed, hmemory] at hmemory'
          rw [h.awaiting_executed, hawait] at hawait'
          obtain ⟨b, hb⟩ := hdecodes is[k] hmem
          have hreads := Instruction.decode_eq_ok_iff.1 (Instruction.decode_encode_of_decode hb)
          have hexecutes : stepped.Executes is[k] :=
            executes_of_nextWord hawait' (by omega) (nextWord_of_machineCode hmemory' hp hpc' hi) hreads
          exact h.step henv (hstraight _ hmem) hexecutes (by omega)

/-- **A straight-line program runs as its instructions.** It is loaded at once if its instructions are at most
1792, so many that the last word ends with the memory. Then the first instructions of it are stepped through and
executed one by one alike: both ways come through, or both fail, at the same instruction and with the same error.
If they come through, the two states differ in the address of the next instruction and in the count of the steps
alone. -/
theorem attempt_straight (henv : env.sys = none) (m : Machine) (hawait : m.awaiting = none)
    (hpc : m.pc = Program.start) {is : List Instruction} (hlength : is.length ≤ 1792)
    (hdecodes : ∀ i ∈ is, ∃ b, Instruction.decode b = .ok i) (hstraight : ∀ i ∈ is, i.Straight) :
    let loaded := m.loadFrom (.bytes (machineCode is))
    loaded.failure = none ∧
    ∀ k ≤ is.length,
      let stepped := attempt env loaded.machine (List.replicate k .step)
      let executed := attempt env loaded.machine ((is.take k).map .execute)
      stepped.2 = executed.2 ∧
      (executed.2 = none →
        stepped.1 = { executed.1 with pc := Program.start + 2 * k, cycles := m.cycles + k } ∧
        executed.1.pc = Program.start ∧ executed.1.cycles = m.cycles) := by
  obtain ⟨p, hp, hload⟩ := m.loadFrom_machineCode hlength
  rw [hload]
  refine ⟨rfl, fun k hk => ?_⟩
  obtain ⟨hsame, habreast⟩ := attempt_abreast (m := { m with memory := m.memory.load p, program := some p })
    henv rfl hp hawait hpc hlength hdecodes hstraight hk
  refine ⟨hsame, fun hsuccess => ?_⟩
  have h := habreast hsuccess
  rw [← hpc]
  exact ⟨h.stepped_eq, h.pc_executed, h.cycles_executed⟩

/-- A sum, and a sprite that reaches beyond the memory: the third instruction fails in both. -/
theorem attempt_straight_draw :
    let env : Environment := ⟨fun _ => 0, none⟩
    let is : List Instruction := [.setByte 1 5, .arith .add 1 1, .draw 0 1 15]
    let m := { fresh with index := 4090, delay := 7 }
    let loaded := (m.loadFrom (.bytes (machineCode is))).machine
    (attempt env loaded (List.replicate 2 .step)).2 = none ∧
      (attempt env loaded (List.replicate 3 .step)).2 = some (.fault (.outOfRange 4104)) := by
  intro env is m loaded
  have hdecodes : ∀ i ∈ is, ∃ b, Instruction.decode b = .ok i := by
    simp only [is, List.forall_mem_cons, List.not_mem_nil, false_implies, implies_true, and_true]
    exact ⟨⟨0x6105, rfl⟩, ⟨0x8114, rfl⟩, ⟨0xD01F, rfl⟩⟩
  have hstraight : ∀ i ∈ is, i.Straight := by
    simp [is, Instruction.Straight]
  have hlength : is.length ≤ 1792 := by decide
  obtain ⟨-, h⟩ := @attempt_straight env rfl m rfl rfl is hlength hdecodes hstraight
  obtain ⟨p, -, hload⟩ := m.loadFrom_machineCode hlength
  unfold loaded
  rw [hload] at h ⊢
  exact ⟨(h 2 (by decide)).1.trans rfl, (h 3 (by decide)).1.trans rfl⟩

end Machine

end Chip8
