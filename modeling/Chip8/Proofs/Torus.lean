import Chip8.Proofs.Draws

/-!
# The screen as a torus

The edges of the screen join, so it has no first column and no first row: all pixels can be moved on by some columns
and rows, and a draw does not notice.

* `Point.moved`, `shift` — a place that is moved on, and a screen whose pixels are.
* `lit_shift` — what a pixel of the moved screen was before.
* `Sprite.cells_moved` — a sprite at a moved place covers the moved places.
* `toggle_shift`, `foldl_toggle_shift` — to move the pixels on commutes with turning over one pixel, and many.
* `draw_equivariant` — so it commutes with a draw, which tells the same.
-/

set_option autoImplicit false

namespace Chip8

namespace Point

/-- The place some columns and rows from another one, to either side, counted around both edges. -/
def moved (p : Point) (dx dy : Int) : Point := ofInt (p.x.val + dx) (p.y.val + dy)

theorem moved_ofInt (x y dx dy : Int) : (ofInt x y).moved dx dy = ofInt (x + dx) (y + dy) := by
  simp only [moved, ofInt, mk.injEq, Fin.ext_iff]
  omega

theorem moved_eq_iff (p q : Point) (dx dy : Int) : p.moved dx dy = q ↔ p = q.moved (-dx) (-dy) := by
  obtain ⟨px, py⟩ := p
  obtain ⟨qx, qy⟩ := q
  simp only [moved, ofInt, mk.injEq, Fin.ext_iff]
  omega

theorem moved_back (p : Point) (dx dy : Int) : (p.moved dx dy).moved (-dx) (-dy) = p :=
  ((moved_eq_iff p _ dx dy).1 rfl).symm

theorem offset_moved (p : Point) (dx dy : Int) (column row : Nat) :
    (p.moved dx dy).offset column row = (p.offset column row).moved dx dy := by
  simp only [moved, ofInt, offset, mk.injEq, Fin.ext_iff, Fin.val_add, Fin.val_ofNat]
  omega

end Point

/-- **A sprite at a moved place covers the moved places.** -/
theorem Sprite.cells_moved (sprite : Sprite) (origin : Point) (dx dy : Int) :
    sprite.cells (origin.moved dx dy) = (sprite.cells origin).map fun p => p.moved dx dy := by
  rw [cells, cells, List.map_map]
  refine List.map_congr_left ?_
  rintro ⟨column, row⟩ -
  exact origin.offset_moved dx dy column row

namespace Screen

variable (s : Screen) (dx dy : Int)

/-- Move all pixels on by some columns and rows. -/
def shift (s : Screen) (dx dy : Int) : Screen :=
  ⟨Vector.ofFn fun y => Vector.ofFn fun x => s.lit (Point.moved ⟨x, y⟩ (-dx) (-dy))⟩

theorem lit_shift (p : Point) : (s.shift dx dy).lit p = s.lit (p.moved (-dx) (-dy)) := by
  simp [lit, shift]

/-- Every pixel is as it was at the place that it came from. -/
theorem lit_shift_moved (p : Point) : (s.shift dx dy).lit (p.moved dx dy) = s.lit p := by
  rw [lit_shift, Point.moved_back]

theorem lit_shift_ofInt (x y : Int) : (s.shift dx dy).lit (.ofInt (x + dx) (y + dy)) = s.lit (.ofInt x y) := by
  rw [← Point.moved_ofInt, lit_shift_moved]

/-- **A pixel can be turned over before all are moved on, or afterwards.** -/
theorem toggle_shift (p : Point) : (s.shift dx dy).toggle (p.moved dx dy) = (s.toggle p).shift dx dy := by
  refine ext_lit fun q => ?_
  rw [lit_shift, lit_toggle, lit_toggle, lit_shift_moved, lit_shift]
  by_cases hq : p.moved dx dy = q
  · rw [if_pos hq.symm, if_pos ((Point.moved_eq_iff p q dx dy).1 hq).symm]
  · rw [if_neg (Ne.symm hq), if_neg fun h => hq ((Point.moved_eq_iff p q dx dy).2 h.symm)]

/-- So can many pixels, one after the other. -/
theorem foldl_toggle_shift (cells : List Point) :
    (cells.map fun p => p.moved dx dy).foldl toggle (s.shift dx dy) = (cells.foldl toggle s).shift dx dy := by
  induction cells generalizing s with
  | nil => rfl
  | cons p cells ih => rw [List.map_cons, List.foldl_cons, List.foldl_cons, toggle_shift, ih]

theorem draw_shift (sprite : Sprite) (origin : Point) :
    (s.shift dx dy).draw sprite (origin.moved dx dy) = (s.draw sprite origin).shift dx dy := by
  rw [draw, draw, Sprite.cells_moved, foldl_toggle_shift]

theorem overdraws_shift (sprite : Sprite) (origin : Point) :
    (s.shift dx dy).overdraws sprite (origin.moved dx dy) = s.overdraws sprite origin := by
  rw [overdraws_eq_any, overdraws_eq_any, Sprite.cells_moved, List.any_map]
  exact congrArg (List.any _) (funext (s.lit_shift_moved dx dy))

/-- **A draw looks the same from everywhere.** Let all pixels of a screen be moved on by some columns and rows, in
either direction and as far as one likes. A sprite that is then drawn as many columns and rows further leaves what it
would have left on the first screen, moved on likewise, and it turns a pixel off there exactly if it does here. -/
theorem draw_equivariant :
    (∀ x y, (s.shift dx dy).lit (.ofInt (x + dx) (y + dy)) = s.lit (.ofInt x y)) ∧
    ∀ d : Drawing,
      let place := Point.ofInt (d.x + dx) (d.y + dy)
      Sprite.ofInts d.rows = .ok d.sprite ∧
      (s.shift dx dy).draw d.sprite place = (s.draw d.sprite d.origin).shift dx dy ∧
      (s.shift dx dy).overdraws d.sprite place = s.overdraws d.sprite d.origin := by
  refine ⟨s.lit_shift_ofInt dx dy, fun d => ?_⟩
  have hplace : Point.ofInt (d.x + dx) (d.y + dy) = d.origin.moved dx dy := (Point.moved_ofInt d.x d.y dx dy).symm
  dsimp only
  rw [hplace]
  exact ⟨d.ofInts_rows, s.draw_shift dx dy d.sprite d.origin, s.overdraws_shift dx dy d.sprite d.origin⟩

end Screen

end Chip8
