import Chip8.Proofs.Execute

/-!
# Blocks of registers in the memory

A program saves registers by storing them at the index, block after block, and brings them back by loading from where
it began. The index moves on past every block, so it is the only thing that tells where the next one stands.

* `Block.bytes`, `Block.image`, `Block.span` — what a block and what many blocks put into the memory.
* `Block.byteAt_putAll_image` — where the bytes of one of many blocks stand.
* `execute_loadRegisters` — registers whose bytes are in the memory are loaded.
* `storeBlock_eq`, `loadBlock_eq` — one block that fits in the memory is stored, or loaded.
* `inTurn_storeBlock`, `inTurn_loadBlock` — many blocks, one after the other.
* `blocks_round_trip` — so what was stored is loaded again.
-/

set_option autoImplicit false

namespace Chip8

/-- Registers that are stored up to one of them, and loaded again over whatever the registers then hold. -/
structure Block where
  /-- The registers when they are stored. -/
  bank : Vector UInt8 16
  /-- The last of those that are stored. -/
  last : Register
  /-- The registers just before they are loaded again. -/
  before : Vector UInt8 16

namespace Block

def size (b : Block) : Nat := b.last.val + 1

/-- The bytes of a block in the memory. -/
def bytes (b : Block) : List UInt8 := b.last.upTo.map b.bank.get

/-- The number of bytes of many blocks. -/
def span (blocks : List Block) : Nat := blocks.foldr (fun b n => b.size + n) 0

/-- The bytes of many blocks, one block after the other. -/
def image (blocks : List Block) : List UInt8 := blocks.flatMap bytes

@[simp] theorem span_cons (b : Block) (blocks : List Block) : span (b :: blocks) = b.size + span blocks := rfl

@[simp] theorem length_bytes (b : Block) : b.bytes.length = b.size := by
  rw [bytes, List.length_map, Register.length_upTo, size]

theorem getElem?_bytes (b : Block) {r : Register} (h : r ≤ b.last) : b.bytes[r.val]? = some (b.bank.get r) := by
  have hr : r.val < b.last.upTo.length := by
    rw [Register.length_upTo]
    exact Nat.lt_succ_of_le h
  have hself : b.last.upTo[r.val] = r := Fin.ext (Register.getElem_upTo hr)
  rw [bytes, List.getElem?_map, List.getElem?_eq_getElem hr, hself, Option.map_some]

@[simp] theorem image_cons (b : Block) (blocks : List Block) : image (b :: blocks) = b.bytes ++ image blocks := rfl

theorem image_append (blocks others : List Block) : image (blocks ++ others) = image blocks ++ image others :=
  List.flatMap_append

@[simp] theorem length_image (blocks : List Block) : (image blocks).length = span blocks := by
  induction blocks with
  | nil => rfl
  | cons b blocks ih => rw [image_cons, List.length_append, length_bytes, ih, span_cons]

theorem span_append (blocks others : List Block) : span (blocks ++ others) = span blocks + span others := by
  rw [← length_image, image_append, List.length_append, length_image, length_image]

/-- **A block stands after those that were stored before it.** -/
theorem getElem?_image (done later : List Block) (b : Block) {r : Register} (h : r ≤ b.last) :
    (image (done ++ b :: later))[span done + r.val]? = some (b.bank.get r) := by
  have hsize : r.val < b.bytes.length := by
    rw [length_bytes]
    exact Nat.lt_succ_of_le h
  rw [image_append, ← length_image, List.getElem?_append_right (Nat.le_add_right _ _), Nat.add_sub_cancel_left,
    image_cons, List.getElem?_append_left hsize, b.getElem?_bytes h]

/-- So it is found in the memory behind them. -/
theorem byteAt_putAll_image (memory : Memory) {a : Nat} (done later : List Block) (b : Block) {r : Register}
    (h : a + span (done ++ b :: later) ≤ 4096) (hr : r ≤ b.last) :
    (memory.putAll a (image (done ++ b :: later))).byteAt (a + span done + r.val) = b.bank[r] := by
  have hspan := span_append done (b :: later)
  have hsize : r.val < b.size := Nat.lt_succ_of_le hr
  rw [span_cons] at hspan
  have hplace : a + span done + r.val - a = span done + r.val := by omega
  rw [Memory.byteAt_putAll _ _ _ (by rw [length_image]; exact h), length_image, if_pos (by omega), hplace,
    getElem?_image done later b hr, Option.getD_some]
  rfl

end Block

namespace Machine

variable (env : Environment) (m : Machine)

/-! ## One block -/

/-- Put values into all registers, and store a block of them. -/
def storeBlock (env : Environment) (m : Machine) (b : Block) : Outcome :=
  { m with registers := b.bank }.execute env (.storeRegisters b.last)

/-- Put other values into all registers, and load a block over them. -/
def loadBlock (env : Environment) (m : Machine) (b : Block) : Outcome :=
  { m with registers := b.before }.execute env (.loadRegisters b.last)

/-- Handle blocks one after the other, up to the first that fails. -/
def inTurn (operation : Machine → Block → Outcome) (m : Machine) : List Block → Outcome
  | [] => .done m
  | b :: blocks => (operation m b).andThen fun m => inTurn operation m blocks

/-- A block that fits in the memory is stored, and the index stands behind it. -/
theorem storeBlock_eq (b : Block) (h : m.index + b.size ≤ 4096) :
    m.storeBlock env b = .done { m with
      registers := b.bank
      memory := m.memory.putAll m.index b.bytes
      index := m.index + b.size } := by
  rw [Block.size] at h
  rw [storeBlock, execute, storeRegisters_eq, if_neg (by simp; omega), moveIndex, word16_of_lt (by simp; omega)]
  rfl

/-- The bytes that a register load reads are one for each register. -/
theorem block_eq_map_upTo (memory : Memory) (a : Nat) (x : Register) :
    memory.block a (x.val + 1) = x.upTo.map fun r => memory.byteAt (a + r.val) := by
  refine List.ext_getElem (by simp) fun k hk hk' => ?_
  rw [List.length_map] at hk'
  rw [Memory.getElem_block, List.getElem_map, Register.getElem_upTo hk']

/-- Registers are loaded from the memory if all their bytes are there; the others stay, and the index moves on. -/
theorem execute_loadRegisters (x : Register) (h : m.index + (x.val + 1) ≤ 4096) :
    ∃ rs : Vector UInt8 16,
      m.execute env (.loadRegisters x) = .done { m with registers := rs, index := m.index + (x.val + 1) } ∧
      (∀ r ≤ x, rs[r] = m.memory.byteAt (m.index + r.val)) ∧ ∀ r, x < r → rs[r] = m.reg r := by
  let written := x.upTo.map fun r => (r, m.memory.byteAt (m.index + r.val))
  obtain ⟨rs, hrs⟩ := m.setRegs_frame written
  have hread : ∀ r, rs[r] = (m.setRegs written).reg r := fun r => by
    rw [hrs]
    rfl
  refine ⟨rs, ?_, fun r hr => ?_, fun r hr => ?_⟩
  · have hzip : x.upTo.zip (m.memory.block m.index (x.val + 1)) = written := by
      rw [block_eq_map_upTo, ← List.map_prod_left_eq_zip]
    rw [execute, loadRegisters_eq, Memory.sliceFault_of_inside h (Nat.succ_pos _)]
    dsimp only
    rw [hzip, hrs, moveIndex, word16_of_lt (by dsimp only; omega)]
  · rw [hread, reg_setRegs_of_mem m _ (Register.mem_upTo_iff.2 hr)]
  · rw [hread, reg_setRegs_of_notMem]
    intro p hp
    obtain ⟨r', hr', rfl⟩ := List.mem_map.1 hp
    exact Fin.ne_of_lt (Fin.lt_of_le_of_lt (Register.le_of_mem_upTo hr') hr)

/-- A block that is in the memory is loaded over the first registers, and the index stands behind it. -/
theorem loadBlock_eq (b : Block) (h : m.index + b.size ≤ 4096) :
    ∃ rs : Vector UInt8 16, m.loadBlock env b = .done { m with registers := rs, index := m.index + b.size } ∧
      (∀ r ≤ b.last, rs[r] = m.memory.byteAt (m.index + r.val)) ∧ ∀ r, b.last < r → rs[r] = b.before[r] :=
  execute_loadRegisters env { m with registers := b.before } b.last h

/-! ## Many blocks -/

theorem inTurn_append (operation : Machine → Block → Outcome) (blocks others : List Block) :
    inTurn operation m (blocks ++ others) =
      (inTurn operation m blocks).andThen fun m => inTurn operation m others := by
  induction blocks generalizing m with
  | nil => rfl
  | cons b blocks ih =>
    rw [List.cons_append, inTurn, inTurn, Outcome.andThen_assoc]
    exact congrArg _ (funext ih)

/-- **Blocks that fit in the memory together are stored one after the other.** -/
theorem inTurn_storeBlock (blocks : List Block) (h : m.index + Block.span blocks ≤ 4096) :
    ∃ rs : Vector UInt8 16, inTurn (storeBlock env) m blocks = .done { m with
      registers := rs
      memory := m.memory.putAll m.index (Block.image blocks)
      index := m.index + Block.span blocks } := by
  induction blocks generalizing m with
  | nil => exact ⟨m.registers, rfl⟩
  | cons b blocks ih =>
    rw [Block.span_cons] at h
    obtain ⟨rs, hrest⟩ := ih { m with
      registers := b.bank
      memory := m.memory.putAll m.index b.bytes
      index := m.index + b.size } (by dsimp only; omega)
    refine ⟨rs, ?_⟩
    rw [inTurn, m.storeBlock_eq env b (by omega), Outcome.done_andThen, hrest, Block.image_cons, Memory.putAll_append,
      Block.length_bytes, Block.span_cons]
    dsimp only
    rw [Nat.add_assoc]

/-- **Blocks that are in the memory are loaded one after the other**, and the memory stays. -/
theorem inTurn_loadBlock (blocks : List Block) (h : m.index + Block.span blocks ≤ 4096) :
    ∃ rs : Vector UInt8 16, inTurn (loadBlock env) m blocks = .done { m with
      registers := rs
      index := m.index + Block.span blocks } := by
  induction blocks generalizing m with
  | nil => exact ⟨m.registers, rfl⟩
  | cons b blocks ih =>
    rw [Block.span_cons] at h
    obtain ⟨first, hfirst, -⟩ := m.loadBlock_eq env b (by omega)
    obtain ⟨rs, hrest⟩ := ih { m with registers := first, index := m.index + b.size } (by dsimp only; omega)
    refine ⟨rs, ?_⟩
    rw [inTurn, hfirst, Outcome.done_andThen, hrest, Block.span_cons]
    dsimp only
    rw [Nat.add_assoc]

/-- What a block finds in the memory is loaded, whatever was loaded before it. -/
theorem reg_inTurn_loadBlock (done : List Block) (b : Block)
    (h : m.index + Block.span done + b.size ≤ 4096) :
    let o := inTurn (loadBlock env) m (done ++ [b])
    (∀ r ≤ b.last, o.machine.reg r = m.memory.byteAt (m.index + Block.span done + r.val)) ∧
      ∀ r, b.last < r → o.machine.reg r = b.before[r] := by
  obtain ⟨rs, hdone⟩ := m.inTurn_loadBlock env done (by omega)
  obtain ⟨rs', hlast, hin, hout⟩ :=
    loadBlock_eq env { m with registers := rs, index := m.index + Block.span done } b h
  rw [inTurn_append, hdone, Outcome.done_andThen, inTurn, hlast, Outcome.done_andThen, inTurn]
  exact ⟨hin, hout⟩

/-- **Blocks of registers come back as they were saved.** Store any blocks that fit in the memory from the index on,
one after the other, each with other values in the registers; then set the index back and load them again in the same
order, each over registers of any contents. Nothing fails. After every load the registers of its block are as they
were when it was stored, and the others as they were just before. Both times the index ends behind the last block;
loading leaves the memory as it is, and storing changes nothing outside the blocks. -/
theorem blocks_round_trip (blocks : List Block)
    (h : m.index + Block.span blocks ≤ 4096) :
    let stored := inTurn (storeBlock env) m blocks
    let loaded := inTurn (loadBlock env) { stored.machine with index := m.index }
    stored.failure = none ∧ stored.machine.index = m.index + Block.span blocks ∧
    (loaded blocks).failure = none ∧ (loaded blocks).machine.index = m.index + Block.span blocks ∧
    (∀ done b later, blocks = done ++ b :: later →
      (∀ r ≤ b.last, (loaded (done ++ [b])).machine.reg r = b.bank[r]) ∧
      ∀ r, b.last < r → (loaded (done ++ [b])).machine.reg r = b.before[r]) ∧
    (loaded blocks).machine.memory = stored.machine.memory ∧
    ∀ c, c < m.index ∨ m.index + Block.span blocks ≤ c →
      stored.machine.memory.byteAt c = m.memory.byteAt c := by
  intro stored loaded
  obtain ⟨rs, hstored⟩ : ∃ rs : Vector UInt8 16, stored = _ := m.inTurn_storeBlock env blocks h
  obtain ⟨rs', hloaded⟩ : ∃ rs : Vector UInt8 16, loaded blocks = _ :=
    inTurn_loadBlock env { stored.machine with index := m.index } blocks h
  have hmemory : stored.machine.memory = m.memory.putAll m.index (Block.image blocks) := by rw [hstored]; rfl
  refine ⟨?_, ?_, ?_, ?_, ?_, ?_, ?_⟩
  · rw [hstored]; rfl
  · rw [hstored]; rfl
  · rw [hloaded]; rfl
  · rw [hloaded]; rfl
  · rintro done b later rfl
    have hspan := Block.span_append done (b :: later)
    rw [Block.span_cons] at hspan
    obtain ⟨hin, hout⟩ := reg_inTurn_loadBlock env { stored.machine with index := m.index } done b
      (by dsimp only; omega)
    refine ⟨fun r hr => ?_, hout⟩
    rw [hin r hr, hmemory]
    exact Block.byteAt_putAll_image m.memory done later b h hr
  · rw [hloaded]; rfl
  · intro c hc
    rw [hmemory, Memory.byteAt_putAll _ _ _ (by rw [Block.length_image]; exact h), Block.length_image,
      if_neg (by omega)]

/-- Two blocks that end with the last byte of the memory. -/
theorem blocks_round_trip_end :
    let env : Environment := ⟨fun _ => 0, none⟩
    let m := { fresh with index := 4090 }
    let first : Block := ⟨.replicate 16 7, 3, .replicate 16 1⟩
    let second : Block := ⟨.replicate 16 9, 1, .replicate 16 2⟩
    let stored := inTurn (storeBlock env) m [first, second]
    let loaded := inTurn (loadBlock env) { stored.machine with index := m.index } [first, second]
    m.index + Block.span [first, second] = 4096 ∧ stored.failure = none ∧ loaded.failure = none ∧
      ∀ r ≤ 1, loaded.machine.reg r = 9 := by
  intro env m first second stored loaded
  have hspan : m.index + Block.span [first, second] = 4096 := rfl
  obtain ⟨hstored, -, hloaded, -, hregs, -, -⟩ := m.blocks_round_trip env [first, second] (Nat.le_of_eq hspan)
  have hbank : ∀ r : Register, second.bank[r] = 9 := by decide
  refine ⟨hspan, hstored, hloaded, fun r hr => ?_⟩
  rw [← hbank r]
  exact (hregs [first] second [] rfl).1 r hr

end Machine

end Chip8
