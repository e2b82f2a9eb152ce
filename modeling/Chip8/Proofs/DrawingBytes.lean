import Chip8.Proofs.Execute
import Chip8.Proofs.Pixels

/-!
# Drawing the bytes at the index

The instruction that draws takes its sprite from the memory and its place from two registers, and tells in the flag
register whether a pixel was turned off. It writes to that register last, so it may be one of the two as well; but
then the sprite is drawn somewhere else if it is drawn again.

* `drawingAt` — what is drawn. `origin_drawingAt` — and where.
* `execute_draw_of_fits`, `execute_draw_succeeds_iff` — an instruction whose bytes are all in the memory draws them, and
  no other succeeds; one that draws nothing needs none.
* `flag_drawn_eq_one_iff`, `flag_drawn_eq_zero_iff` — the flag.
* `execute_draw_again` — drawing again takes back what was drawn, unless the flag register names the place.
* `draw_law` — all of this for one instruction, and for two of them.
-/

set_option autoImplicit false

namespace Chip8.Machine

variable {env : Environment} (m : Machine) (x y : Register) (n : Nibble)

/-- What an instruction draws: the bytes at the index and after it, at the place that two registers name. -/
def drawingAt (m : Machine) (x y : Register) (n : Nibble) : Drawing where
  rows := (List.range n.val).map fun k => (m.memory.byteAt (m.index + k)).toNat
  x := (m.reg x).toNat
  y := (m.reg y).toNat
  length_le := by
    rw [List.length_map, List.length_range]
    exact Nat.le_of_lt_succ n.isLt

/-- The state after something was drawn, with the flag set. -/
def drawn (m : Machine) (d : Drawing) : Machine :=
  { m with screen := m.screen.draw d.sprite d.origin }.setReg Register.flag
    (if m.screen.overdraws d.sprite d.origin then 1 else 0)

/-! ## One instruction -/

theorem sprite_drawingAt : (m.drawingAt x y n).sprite = m.spriteAtIndex n := by
  apply Sprite.ext_rows
  simp only [Drawing.sprite, drawingAt, spriteAtIndex, Memory.block, List.map_map, Function.comp_def, ofInt_toNat]

/-- The place counts around both edges of the screen. -/
theorem origin_drawingAt :
    (m.drawingAt x y n).origin.x.val = (m.reg x).toNat % 64 ∧
      (m.drawingAt x y n).origin.y.val = (m.reg y).toNat % 32 := by
  simp only [Drawing.origin, drawingAt, Point.ofInt]
  omega

theorem execute_draw_of_fits (h : n.val = 0 ∨ m.index + n.val ≤ 4096) :
    m.execute env (.draw x y n) = .done (m.drawn (m.drawingAt x y n)) := by
  rw [execute, drawSprite_eq, Memory.sliceFault_eq_none_iff.2 h]
  dsimp only
  rw [← sprite_drawingAt m x y n]
  rfl

/-- An instruction that draws nothing never fails; any other fails unless its bytes are in the memory. -/
theorem execute_draw_succeeds_iff :
    (m.execute env (.draw x y n)).failure = none ↔ n.val = 0 ∨ m.index + n.val ≤ 4096 := by
  refine ⟨fun h => ?_, fun h => by rw [m.execute_draw_of_fits x y n h]; rfl⟩
  cases hfault : Memory.sliceFault m.index n.val with
  | none => exact Memory.sliceFault_eq_none_iff.1 hfault
  | some f =>
    rw [execute, drawSprite_eq, hfault] at h
    cases h

/-! ## What was drawn -/

theorem reg_drawn (d : Drawing) (r : Register) :
    (m.drawn d).reg r =
      if r = Register.flag then if m.screen.overdraws d.sprite d.origin then 1 else 0 else m.reg r :=
  reg_setReg _ _ _ r

theorem flag_drawn_eq_one_iff (d : Drawing) :
    (m.drawn d).reg Register.flag = 1 ↔ m.screen.overdraws d.sprite d.origin = true := by
  rw [reg_drawn, if_pos rfl]
  split <;> simp_all

theorem flag_drawn_eq_zero_iff (d : Drawing) :
    (m.drawn d).reg Register.flag = 0 ↔ ¬ m.screen.overdraws d.sprite d.origin = true := by
  rw [reg_drawn, if_pos rfl]
  split <;> simp_all

/-- To draw nothing leaves the screen as it is and sets the flag to zero. -/
theorem drawn_of_no_rows {d : Drawing} (h : d.rows = []) :
    (m.drawn d).screen = m.screen ∧ (m.drawn d).reg Register.flag = 0 := by
  have hcells : d.sprite.cells d.origin = [] := by simp [Sprite.cells, Sprite.marks, Drawing.sprite, h]
  constructor
  · show m.screen.draw d.sprite d.origin = m.screen
    rw [Screen.draw, hcells, List.foldl_nil]
  · rw [flag_drawn_eq_zero_iff, Screen.overdraws_eq_any, hcells]
    exact Bool.false_ne_true

/-! ## Drawing again -/

/-- **What is drawn next is the same**, unless the flag register names the place. -/
theorem drawingAt_drawn (hx : x ≠ Register.flag) (hy : y ≠ Register.flag) (d : Drawing) :
    (m.drawn d).drawingAt x y n = m.drawingAt x y n := by
  have hregx : (m.drawn d).reg x = m.reg x := (reg_drawn m d x).trans (if_neg hx)
  have hregy : (m.drawn d).reg y = m.reg y := (reg_drawn m d y).trans (if_neg hy)
  rw [drawingAt, drawingAt]
  congr 1
  · rw [hregx]
  · rw [hregy]

/-- **Drawing again takes back what was drawn**, and tells exactly if that had turned a pixel on. -/
theorem execute_draw_again (hx : x ≠ Register.flag) (hy : y ≠ Register.flag)
    (h : n.val = 0 ∨ m.index + n.val ≤ 4096) :
    let m' := m.drawn (m.drawingAt x y n)
    let o := m'.execute env (.draw x y n)
    o.failure = none ∧ o.machine.screen = m.screen ∧
      (o.machine.reg Register.flag = 1 ↔ ∃ p, m.screen.lit p = false ∧ m'.screen.lit p = true) := by
  intro m' o
  have ho : o = .done (m'.drawn (m.drawingAt x y n)) := by
    rw [← m.drawingAt_drawn x y n hx hy (m.drawingAt x y n)]
    exact m'.execute_draw_of_fits x y n h
  rw [ho]
  refine ⟨rfl, ?_, ?_⟩
  · exact m.screen.draw_draw _ _
  · exact (flag_drawn_eq_one_iff m' _).trans (m.screen.overdraws_draw_iff _ _)

/-- **The law of the instruction that draws.** Unless it fails, the bytes at the index and after it are all in the
memory and are drawn at the place that the two registers named before, counted around both edges; and the flag register
becomes one if some pixel was on before and is off after it, and zero if there is none, even if it was one of the two.
With no rows it never fails and draws nothing. If the flag register is none of the two, the same instruction once more
succeeds and brings the screen back, and its flag tells whether the first one had turned some pixel on. -/
theorem draw_law (env : Environment) :
    let o := m.execute env (.draw x y n)
    let d := m.drawingAt x y n
    (n = 0 → o.failure = none ∧ o.machine.screen = m.screen ∧ o.machine.reg Register.flag = 0) ∧
    (o.failure = none →
      (∀ k < n.val, m.index + k < 4096) ∧
      o.machine.screen = m.screen.draw d.sprite d.origin ∧
      (∀ px py, o.machine.screen.lit (.ofInt px py) = xor (m.screen.lit (.ofInt px py)) (d.covers px py)) ∧
      d.origin.x.val = (m.reg x).toNat % 64 ∧ d.origin.y.val = (m.reg y).toNat % 32 ∧
      (o.machine.reg Register.flag = 1 ↔ ∃ p, m.screen.lit p = true ∧ o.machine.screen.lit p = false) ∧
      (o.machine.reg Register.flag = 0 ↔ ¬ ∃ p, m.screen.lit p = true ∧ o.machine.screen.lit p = false) ∧
      (x ≠ Register.flag → y ≠ Register.flag →
        let o' := o.machine.execute env (.draw x y n)
        o'.failure = none ∧ o'.machine.screen = m.screen ∧
          (o'.machine.reg Register.flag = 1 ↔
            ∃ p, m.screen.lit p = false ∧ o.machine.screen.lit p = true))) := by
  intro o d
  have hoff := m.screen.overdraws_eq_true_iff d.sprite d.origin
  refine ⟨?_, fun hsuccess => ?_⟩
  · rintro rfl
    have ho : o = .done (m.drawn d) := m.execute_draw_of_fits x y 0 (.inl rfl)
    rw [ho]
    exact ⟨rfl, m.drawn_of_no_rows rfl⟩
  · have hfits := (m.execute_draw_succeeds_iff x y n).1 hsuccess
    have ho : o = .done (m.drawn d) := m.execute_draw_of_fits x y n hfits
    rw [ho]
    obtain ⟨hx, hy⟩ := m.origin_drawingAt x y n
    refine ⟨fun k hk => by omega, rfl, ?_, hx, hy, ?_, ?_, fun hx hy => m.execute_draw_again x y n hx hy hfits⟩
    · exact m.screen.lit_draw_ofInt d
    · exact (m.flag_drawn_eq_one_iff d).trans hoff
    · exact (m.flag_drawn_eq_zero_iff d).trans (not_congr hoff)

/-- A digit is drawn over lit pixels, and then again. -/
theorem draw_law_over_lit :
    let env : Environment := ⟨fun _ => 0, none⟩
    let m := { fresh with screen := .uniform true }
    let o := m.execute env (.draw 0 1 5)
    let o' := o.machine.execute env (.draw 0 1 5)
    o.failure = none ∧ o.machine.reg Register.flag = 1 ∧
      o'.machine.screen = m.screen ∧ o'.machine.reg Register.flag ≠ 1 := by
  intro env m o o'
  have hsuccess : o.failure = none := (m.execute_draw_succeeds_iff 0 1 5).2 (.inr (by decide))
  obtain ⟨-, hdrawn⟩ := m.draw_law 0 1 5 env
  obtain ⟨-, -, hlit, -, -, hflag, -, hagain⟩ := hdrawn hsuccess
  obtain ⟨-, hscreen, htold⟩ := hagain (by decide) (by decide)
  refine ⟨hsuccess, hflag.2 ⟨.ofInt 0 0, Screen.lit_uniform true _, ?_⟩, hscreen, ?_⟩
  · have hrow : (m.drawingAt 0 1 5).rows[0]? = some 240 := by
      have hbyte : m.memory.byteAt 0 = 0xF0 := Memory.byteAt_fresh 0
      exact congrArg (fun b : UInt8 => some (b.toNat : Int)) hbyte
    rw [hlit, (Drawing.covers_eq_true_iff _ 0 0).2 ⟨by decide, 240, hrow, by decide⟩]
    rfl
  · rw [Ne, htold]
    rintro ⟨p, hoff, -⟩
    rw [Screen.lit_uniform] at hoff
    cases hoff

end Chip8.Machine
