import Chip8.Proofs.Cells
import Chip8.Proofs.Pixels
import Chip8.Proofs.Restart

/-!
# The font below the programs

The bytes below the program area are the font and zeros. Programs are loaded above them, and only two instructions
write to the memory, at the index: as long as these are executed with an index in the program area or above it, the
font stays, and every digit can be drawn.

* `Memory.HasFont` — a memory holds the font and zeros below the program area. `HasFont.block_glyph` — and so the
  picture of every digit at the digit's address.
* `SparesFont` — an action does not store below the program area.
* `step_hasFont`, `perform_hasFont`, `run_hasFont` — what spares the font keeps it.
* `draw_of_hasFont`, `executeDigit_of_hasFont`, `stepDigit_of_hasFont` — the two instructions that draw a digit.
* `font_survives` — so a program that spares the font can draw every digit at every point of its history.
* `font_lost_before` — but not over a memory in which the font was overwritten before.
-/

set_option autoImplicit false

namespace Chip8

/-! ## The font -/

namespace Font

theorem getElem?_bytes (d : Nibble) {k : Nat} (hk : k < height) : bytes[address d + k]? = (glyph d)[k]? := by
  have hall : ∀ d : Fin 16, ∀ k : Fin 5, bytes[address d + k.val]? = (glyph d)[k.val]? := by decide
  exact hall d ⟨k, hk⟩

theorem address_add_height_le (d : Nibble) : address d + height ≤ 80 := by
  simp only [address, start, height]
  omega

/-- A digit drawn at a place. -/
def drawing (d : Nibble) (x y : Int) : Drawing where
  rows := (glyph d).map fun row => row.toNat
  x := x
  y := y
  length_le := by
    rw [List.length_map, length_glyph]
    decide

theorem rows_drawing (d : Nibble) (x y : Int) : (drawing d x y).sprite.rows = glyph d := by
  simp [Drawing.sprite, drawing, Function.comp_def, ofInt_toNat]

end Font

namespace Memory

/-- A memory holds the font and after it zeros, up to where programs start. -/
def HasFont (memory : Memory) : Prop := ∀ a < Program.start, memory.byteAt a = Font.bytes[a]?.getD 0

theorem hasFont_fresh : fresh.HasFont := fun a _ => byteAt_fresh a

namespace HasFont

variable {memory : Memory}

/-- Programs are loaded above the font. -/
theorem load (h : memory.HasFont) (p : Program) : (memory.load p).HasFont := by
  intro a ha
  rw [byteAt_load, if_neg (by omega)]
  exact h a ha

/-- **The picture of every digit stands at its address.** -/
theorem block_glyph (h : memory.HasFont) (d : Nibble) : memory.block (Font.address d) Font.height = Font.glyph d := by
  have hfits := Font.address_add_height_le d
  have hstart : Program.start = 512 := rfl
  refine List.ext_getElem (by rw [length_block, Font.length_glyph]) fun k hk hk' => ?_
  rw [length_block] at hk
  rw [getElem_block, h _ (by omega), Font.getElem?_bytes d hk, List.getElem?_eq_getElem hk', Option.getD_some]

end HasFont

end Memory

namespace Machine

variable {env : Environment} {m : Machine} {history : List Action}

/-! ## Histories that spare the font -/

/-- An action does not store below the program area: if it is a step that executes an instruction which stores, the
index is not below it. -/
def SparesFont (m : Machine) (a : Action) : Prop :=
  a = .step → ∀ i x, m.Executes i → i = .storeDecimal x ∨ i = .storeRegisters x → Program.start ≤ m.index

/-- An instruction that stores below the program area is one of two. -/
theorem not_storesAt_of_sparesFont {i : Instruction} {a : Nat} (hspares : m.SparesFont .step) (hi : m.Executes i)
    (ha : a < Program.start) : ¬ i.StoresAt m a := by
  intro hstores
  cases i with
  | storeDecimal x =>
    have hindex := hspares rfl _ x hi (.inl rfl)
    exact absurd hstores.1 (by omega)
  | storeRegisters x =>
    have hindex := hspares rfl _ x hi (.inr rfl)
    exact absurd hstores.1 (by omega)
  | _ => exact hstores

/-- **A step that spares the font keeps it**, whether it executes an instruction, looks for a key or fails. -/
theorem step_hasFont (henv : env.sys = none) (h : m.memory.HasFont) (hspares : m.SparesFont .step) :
    (m.step env).machine.memory.HasFont := by
  intro a ha
  by_cases hexecutes : ∃ i, m.Executes i
  · obtain ⟨i, hi⟩ := hexecutes
    rw [step_byteAt henv hi (not_storesAt_of_sparesFont hspares hi ha)]
    exact h a ha
  · have hmemory : (m.step env).machine.memory = m.memory :=
      step_same_of_idle (p := .memory) (fun i hi => hexecutes ⟨i, hi⟩) (.inr (by decide))
    rw [hmemory]
    exact h a ha

theorem loadFrom_hasFont (h : m.memory.HasFont) (source : Program.Source) :
    (m.loadFrom source).machine.memory.HasFont := by
  rw [loadFrom_eq]
  split
  · exact h.load _
  · exact h

/-- A new start brings the font back, whatever was stored over it. -/
theorem reset_hasFont (m : Machine) : m.reset.memory.HasFont := by
  simp only [reset, Memory.clear_eq_fresh]
  split
  · exact Memory.hasFont_fresh
  · exact Memory.hasFont_fresh.load _

theorem perform_hasFont (henv : env.sys = none) {a : Action} (h : m.memory.HasFont) (ha : a.FromOutside)
    (hspares : m.SparesFont a) : (m.perform env a).machine.memory.HasFont := by
  cases ha with
  | step => exact step_hasFont henv h hspares
  | load source => exact loadFrom_hasFont h source
  | reset => exact m.reset_hasFont
  | tick | move =>
    have hmemory : ∀ a : Action, Part.memory ∉ a.changes → (m.perform env a).machine.memory = m.memory :=
      fun a ha => perform_same (p := .memory) (fun _ _ _ => henv) ha
    rw [hmemory _ (by simp [Action.changes])]
    exact h

/-- **A history that spares the font keeps it.** -/
theorem run_hasFont (henv : env.sys = none) (h : m.memory.HasFont) (hhistory : ∀ a ∈ history, a.FromOutside)
    (hspares : Throughout env SparesFont m history) : (run env m history).memory.HasFont :=
  hspares.run (Q := fun m => m.memory.HasFont) h fun _ a ha hm hspares => perform_hasFont henv hm (hhistory a ha) hspares

/-- It is there after a history with a new start, even if it was not before. -/
theorem run_hasFont_of_reset (henv : env.sys = none) (hhistory : ∀ a ∈ history, a.FromOutside)
    (hspares : Throughout env SparesFont m history) (hreset : Action.reset ∈ history) :
    (run env m history).memory.HasFont := by
  obtain ⟨before, after, rfl⟩ := List.append_of_mem hreset
  rw [run_append, run_cons]
  refine run_hasFont henv (reset_hasFont _) (fun a ha => hhistory a ?_) hspares.right.2
  exact List.mem_append_right _ (List.mem_cons_of_mem _ ha)

theorem build_hasFont {memory : Memory} (h : memory.HasFont) (screen : Screen) (keypad : Keypad)
    (source : Option Program.Source) : (build memory screen keypad source).machine.memory.HasFont := by
  cases source with
  | none => exact h
  | some source => exact loadFrom_hasFont (m := { fresh with memory, screen, keypad }) h source

/-! ## Drawing a digit -/

/-- **With the index at the address of a digit, five rows are its picture.** -/
theorem draw_of_hasFont (env : Environment) (h : m.memory.HasFont) {d : Nibble} (hindex : m.index = Font.address d) (a b : Register) :
    let o := m.execute env (.draw a b 5)
    o.failure = none ∧ ∀ px py, o.machine.screen.lit (.ofInt px py) =
      xor (m.screen.lit (.ofInt px py)) ((Font.drawing d (m.reg a).toNat (m.reg b).toNat).covers px py) := by
  have hfits := Font.address_add_height_le d
  have hheight : Font.height = 5 := rfl
  have hinside : Memory.sliceFault m.index (5 : Nibble).val = none :=
    Memory.sliceFault_of_inside (by rw [hindex]; show Font.address d + 5 ≤ 4096; omega) (by decide)
  have hsprite : m.spriteAtIndex 5 = (Font.drawing d (m.reg a).toNat (m.reg b).toNat).sprite := by
    apply Sprite.ext_rows
    rw [Font.rows_drawing, ← h.block_glyph d, ← hindex]
    rfl
  intro o
  have ho : o = _ := m.drawSprite_eq a b 5
  rw [ho, hinside, hsprite]
  exact ⟨rfl, Screen.lit_draw_ofInt m.screen (Font.drawing d (m.reg a).toNat (m.reg b).toNat)⟩

/-- What the two instructions that draw a digit should make of the screen: the picture of the digit that a register
names by its low four bits is turned over at the place that two others name. -/
def ShowsDigit (m n : Machine) (x a b : Register) : Prop :=
  ∀ px py, n.screen.lit (.ofInt px py) = xor (m.screen.lit (.ofInt px py))
    ((Font.drawing (Nibble.ofInt (m.reg x).toNat) (m.reg a).toNat (m.reg b).toNat).covers px py)

theorem executeDigit_of_hasFont (h : m.memory.HasFont) (x a b : Register) :
    let o := m.execute env (.pointDigit x)
    let o' := o.machine.execute env (.draw a b 5)
    o.failure = none ∧ o'.failure = none ∧ ShowsDigit m o'.machine x a b := by
  intro o o'
  have hdraw := draw_of_hasFont env (m := o.machine) (d := Nibble.ofInt (m.reg x).toNat) h rfl a b
  exact ⟨rfl, hdraw⟩

/-- **Two steps that execute these instructions draw the digit.** -/
theorem stepDigit_of_hasFont (henv : env.sys = none) (h : m.memory.HasFont) {x a b : Register}
    (hpoint : m.Executes (.pointDigit x)) (hdraw : (m.step env).machine.Executes (.draw a b 5)) :
    (m.step env).failure = none ∧ ((m.step env).machine.step env).failure = none ∧
      ShowsDigit m ((m.step env).machine.step env).machine x a b := by
  have hkeeps : ∀ p : Part, p ∉ [Part.pc, .cycles, .index] → p.Same (m.step env).machine m := by
    intro p hp
    refine step_same_of_executes hpoint (fun _ _ => henv) (fun hmem => hp ?_) fun hmem => hp ?_
    · exact List.mem_append_left [Part.index] hmem
    · exact List.mem_append_right [Part.pc, .cycles] hmem
  have hmemory : (m.step env).machine.memory = m.memory := hkeeps .memory (by decide)
  have hscreen : (m.step env).machine.screen = m.screen := hkeeps .screen (by decide)
  have hreg : ∀ r, (m.step env).machine.reg r = m.reg r := fun r =>
    congrArg (fun rs : Vector UInt8 16 => rs[r]) (hkeeps .registers (by decide))
  have hindex : (m.step env).machine.index = Font.address (Nibble.ofInt (m.reg x).toNat) :=
    step_same_execute (p := .index) hpoint (by decide)
  obtain ⟨hsuccess, hlit⟩ := draw_of_hasFont env (m := (m.step env).machine.advance)
    (hmemory.symm ▸ h) hindex a b
  have hfinal : ((m.step env).machine.step env).machine.screen =
      ((m.step env).machine.advance.execute env (.draw a b 5)).machine.screen :=
    step_same_execute (p := .screen) hdraw (by decide)
  refine ⟨(failure_step hpoint).trans rfl, (failure_step hdraw).trans hsuccess, fun px py => ?_⟩
  have hadvance : ∀ r, (m.step env).machine.advance.reg r = m.reg r := hreg
  have hscreen' : (m.step env).machine.advance.screen = m.screen := hscreen
  rw [hfinal, hlit, hadvance, hadvance, hscreen']

/-- **The font survives programs that do not store into it.** A machine may be built with a program, without one or
with one that is refused, over a memory that holds the font, as its own does, and any actions from outside may
follow, steps that fail among them, as long as every instruction that stores is executed with an index in the program
area or above. Then the bytes below that area are the font and zeros. So the two instructions that draw a digit never
fail, and turn over exactly the pixels of the digit's five rows; and so do two steps that execute them. A memory that
did not hold the font holds it after a new start. -/
theorem font_survives (henv : env.sys = none) (memory : Memory) (screen : Screen) (keypad : Keypad)
    (source : Option Program.Source) (history : List Action) (hhistory : ∀ a ∈ history, a.FromOutside)
    (hspares : Throughout env SparesFont (build memory screen keypad source).machine history)
    (hmemory : memory.HasFont ∨ Action.reset ∈ history) :
    let s := run env (build memory screen keypad source).machine history
    (∀ a < 0x200, s.memory.byteAt a = Font.bytes[a]?.getD 0) ∧
    (∀ x a b,
      let o := s.execute env (.pointDigit x)
      let o' := o.machine.execute env (.draw a b 5)
      o.failure = none ∧ o'.failure = none ∧ ShowsDigit s o'.machine x a b) ∧
    ∀ x a b, s.Executes (.pointDigit x) → (s.step env).machine.Executes (.draw a b 5) →
      (s.step env).failure = none ∧ ((s.step env).machine.step env).failure = none ∧
        ShowsDigit s ((s.step env).machine.step env).machine x a b := by
  intro s
  have hs : s.memory.HasFont := by
    rcases hmemory with hfont | hreset
    · exact run_hasFont henv (build_hasFont hfont screen keypad source) hhistory hspares
    · exact run_hasFont_of_reset henv hhistory hspares hreset
  exact ⟨hs, fun x a b => executeDigit_of_hasFont hs x a b, fun _ _ _ => stepDigit_of_hasFont henv hs⟩

/-- A program that stores three digits just where programs start. The digit that the first register names can then be
drawn. -/
theorem font_survives_store :
    let env : Environment := ⟨fun _ => 0, none⟩
    let s := run env (build .fresh .blank .fresh (some (.bytes [0xA2, 0x00, 0xF1, 0x33]))).machine
      [.step, .step, .tick]
    s.memory.byteAt 5 = 0x20 ∧
      ((s.execute env (.pointDigit 0)).machine.execute env (.draw 2 3 5)).failure = none := by
  intro env s
  let p : Program := ⟨[0xA2, 0x00, 0xF1, 0x33], by decide⟩
  let m : Machine := { fresh with memory := Memory.fresh.load p, program := some p }
  have hbuilt : (build .fresh .blank .fresh (some (.bytes p.bytes))).machine = m := by
    have hstart : (build .fresh .blank .fresh (some (.bytes p.bytes))).machine = (start (some p)).machine :=
      congrArg Outcome.machine (build_fresh_eq_start (some p))
    rw [hstart, start, load_eq]
    rfl
  have hpoint : m.Executes (.setIndex 0x200) := executes_loaded (p := p) (k := 0) rfl rfl rfl rfl rfl rfl
  have hpointed : (m.step env).machine = { m with index := 0x200, pc := 0x202, cycles := 1 } := by
    rw [step_of_executes hpoint]
    rfl
  have hspares : Throughout env SparesFont m [.step, .step, .tick] := by
    refine ⟨?_, ?_, ?_, trivial⟩
    · intro _ i x hi hstores
      rw [executes_unique hi hpoint] at hstores
      rcases hstores with h | h <;> cases h
    · intro _ i x hi hstores
      rw [perform, hpointed]
      exact Nat.le_refl 0x200
    · intro htick
      cases htick
  have hhistory : ∀ a ∈ [Action.step, .step, .tick], a.FromOutside := by
    simp only [List.forall_mem_cons, List.not_mem_nil, false_implies, implies_true, and_true]
    exact ⟨.step, .step, .tick⟩
  have henv : env.sys = none := rfl
  obtain ⟨hbytes, hdigits, -⟩ := font_survives henv .fresh .blank .fresh (some (.bytes p.bytes))
    [.step, .step, .tick] hhistory (hbuilt ▸ hspares) (.inl Memory.hasFont_fresh)
  exact ⟨hbytes 5 (by decide), (hdigits 0 2 3).2.1⟩

/-- A machine built over a memory in which the first byte of the font was overwritten does not bring it back by itself,
though nothing is stored into it. -/
theorem font_lost_before :
    let memory := Memory.fresh.put 0 7
    let s := run ⟨fun _ => 0, none⟩ (build memory .blank .fresh none).machine [.tick]
    Memory.fresh.write 0 7 = .ok memory ∧
      Throughout ⟨fun _ => 0, none⟩ SparesFont (build memory .blank .fresh none).machine [.tick] ∧
      s.memory.byteAt 0 = 7 ∧ ¬ ∀ a < 0x200, s.memory.byteAt a = Font.bytes[a]?.getD 0 := by
  intro memory s
  have hbyte : s.memory.byteAt 0 = 7 := by
    show memory.byteAt 0 = 7
    rw [Memory.byteAt_put _ (by decide), if_pos rfl]
  have hfont : Font.bytes[0]?.getD 0 = 0xF0 := by decide
  refine ⟨Memory.write_byte .fresh (by decide) 7, ⟨(fun h => by cases h), trivial⟩, hbyte, fun h => ?_⟩
  have hzero := h 0 (by decide)
  rw [hbyte, hfont] at hzero
  cases hzero

end Machine

end Chip8
