import Chip8.Bounded
import Chip8.Proofs.Draws
import Mathlib.Data.Int.Bitwise

/-!
# Which pixels a draw turns over

A sprite of integers is drawn at a pair of integers. Whether it turns a pixel over can be told from the integers: the
columns and rows from the place to the pixel, counted around the edges, name a bit of one of the sprite's rows, in
two's complement, or they lie outside the sprite.

* `bit_ofInt` — a pixel of a row is one of the low eight bits of its integer.
* `ofInt_eq_offset_iff` — the columns and rows from one place to another are differences, counted around the edges.
* `Drawing.covers`, `Drawing.ofInt_mem_cells_iff` — the pixels that a sprite of integers turns over.
* `overdraws_eq_true_iff` — a draw turns off some pixel exactly if there is one that was on before it and is off
  after it.
* `pixel_law` — so every pixel after a draw is known from the integers, and so is what the draw tells.
-/

set_option autoImplicit false

namespace Chip8

/-! ## Rows of integers -/

/-- The low eight bits of an integer in two's complement. -/
theorem testBit_ofInt (v : Int) {k : Nat} (hk : k < 8) : (UInt8.ofInt v).toNat.testBit k = v.testBit k := by
  rw [toNat_ofInt]
  cases v with
  | ofNat n =>
    have hn : (Int.ofNat n % 256).toNat = n % 2 ^ 8 := by
      rw [Int.ofNat_eq_natCast]
      omega
    rw [hn, Nat.testBit_mod_two_pow, decide_eq_true hk, Bool.true_and]
    rfl
  | negSucc n =>
    -- a negative integer has the complements of the bits of the natural number one below its size
    have hn : (Int.negSucc n % 256).toNat = 2 ^ 8 - (n % 2 ^ 8 + 1) := by
      rw [Int.negSucc_eq]
      omega
    rw [hn, Nat.testBit_two_pow_sub_succ (Nat.mod_lt _ (by decide)), Nat.testBit_mod_two_pow,
      decide_eq_true hk, Bool.true_and, Bool.true_and]
    rfl

theorem bit_ofInt (v : Int) {column : Nat} (hcolumn : column < 8) :
    Sprite.bit (UInt8.ofInt v) column = v.testBit (7 - column) :=
  testBit_ofInt v (by omega)

theorem ofInt_emod (v : Int) : UInt8.ofInt (v % 256) = UInt8.ofInt v := by
  have hlow : v % 256 % 2 ^ 8 = v % 2 ^ 8 := by omega
  rw [UInt8.ofInt, UInt8.ofInt, hlow]

/-- A sprite is known by its rows. -/
theorem Sprite.ext_rows {s t : Sprite} (h : s.rows = t.rows) : s = t := by
  cases s
  cases t
  cases h
  rfl

/-! ## Places of integers -/

namespace Point

theorem exists_ofInt (p : Point) : ∃ px py : Int, p = ofInt px py := by
  obtain ⟨x, y⟩ := p
  refine ⟨x.val, y.val, ?_⟩
  simp only [ofInt, mk.injEq, Fin.ext_iff]
  omega

/-- A place is some columns and rows from another one exactly if these are the differences, counted around the
edges. -/
theorem ofInt_eq_offset_iff {px py x y : Int} {dx dy : Nat} (hdx : dx < 64) (hdy : dy < 32) :
    ofInt px py = (ofInt x y).offset dx dy ↔ dx = ((px - x) % 64).toNat ∧ dy = ((py - y) % 32).toNat := by
  simp only [ofInt, offset, mk.injEq, Fin.ext_iff, Fin.val_add, Fin.val_ofNat]
  refine and_congr ?_ ?_
  · omega
  · omega

end Point

namespace Drawing

/-- Whether a drawing covers the pixel that two integers name, with a set bit of one of its rows. The row and the
bit are as far from its first ones as the pixel is from its place, counted around the edges of the screen. -/
def covers (d : Drawing) (px py : Int) : Bool :=
  let column := ((px - d.x) % 64).toNat
  let row := ((py - d.y) % 32).toNat
  if column < 8 then
    match d.rows[row]? with
    | some v => v.testBit (7 - column)
    | none => false
  else false

variable (d : Drawing)

theorem getElem?_rows (i : Nat) : d.sprite.rows[i]? = (d.rows[i]?).map UInt8.ofInt := List.getElem?_map

theorem covers_eq_true_iff (px py : Int) :
    d.covers px py = true ↔ ((px - d.x) % 64).toNat < 8 ∧
      ∃ v, d.rows[((py - d.y) % 32).toNat]? = some v ∧ v.testBit (7 - ((px - d.x) % 64).toNat) = true := by
  dsimp only [covers]
  by_cases hcolumn : ((px - d.x) % 64).toNat < 8
  · cases d.rows[((py - d.y) % 32).toNat]? <;> simp [hcolumn]
  · simp [hcolumn]

/-- **The places that a drawing covers are known from its integers.** -/
theorem ofInt_mem_cells_iff (px py : Int) :
    Point.ofInt px py ∈ d.sprite.cells d.origin ↔ d.covers px py = true := by
  rw [covers_eq_true_iff, Sprite.cells, List.mem_map]
  constructor
  · rintro ⟨⟨dx, dy⟩, hmark, hplace⟩
    obtain ⟨hdx, hdy⟩ := Sprite.mem_marks_lt hmark
    obtain ⟨rfl, rfl⟩ := (Point.ofInt_eq_offset_iff (by omega) (by omega)).1 hplace.symm
    obtain ⟨-, row, hrow, hbit⟩ := (d.sprite.mem_marks _ _).1 hmark
    rw [getElem?_rows] at hrow
    obtain ⟨v, hv, rfl⟩ := Option.map_eq_some_iff.1 hrow
    exact ⟨hdx, v, hv, bit_ofInt v hdx ▸ hbit⟩
  · rintro ⟨hdx, v, hv, hbit⟩
    have hrow : d.sprite.rows[((py - d.y) % 32).toNat]? = some (UInt8.ofInt v) := by
      rw [getElem?_rows, hv, Option.map_some]
    refine ⟨_, (d.sprite.mem_marks _ _).2 ⟨hdx, UInt8.ofInt v, hrow, ?_⟩, ?_⟩
    · rw [bit_ofInt v hdx]
      exact hbit
    · exact ((Point.ofInt_eq_offset_iff (by omega) (by omega)).2 ⟨rfl, rfl⟩).symm

/-- Of each row only its value modulo 256 counts. -/
theorem sprite_eq_of_emod_eq {d e : Drawing} (h : e.rows.map (· % 256) = d.rows.map (· % 256)) :
    e.sprite = d.sprite := by
  have hlow : ∀ rows : List Int, rows.map UInt8.ofInt = (rows.map (· % 256)).map UInt8.ofInt := by
    intro rows
    rw [List.map_map]
    exact List.map_congr_left fun v _ => (ofInt_emod v).symm
  exact Sprite.ext_rows ((hlow e.rows).trans (h ▸ (hlow d.rows).symm))

end Drawing

namespace Screen

variable (s : Screen)

/-- **A draw tells exactly if some pixel was on before it and is off after it.** -/
theorem overdraws_eq_true_iff (sprite : Sprite) (origin : Point) :
    s.overdraws sprite origin = true ↔ ∃ p, s.lit p = true ∧ (s.draw sprite origin).lit p = false := by
  rw [overdraws_eq_any, List.any_eq_true]
  constructor
  · rintro ⟨p, hp, hlit⟩
    refine ⟨p, hlit, ?_⟩
    rw [lit_draw, hlit, decide_eq_true hp]
    rfl
  · rintro ⟨p, hlit, hoff⟩
    refine ⟨p, Decidable.byContradiction fun hp => ?_, hlit⟩
    rw [lit_draw_of_notMem hp, hlit] at hoff
    cases hoff

theorem lit_draw_ofInt (d : Drawing) (px py : Int) :
    (s.draw d.sprite d.origin).lit (.ofInt px py) = xor (s.lit (.ofInt px py)) (d.covers px py) := by
  rw [lit_draw]
  congr 1
  rw [Bool.eq_iff_iff, decide_eq_true_eq, d.ofInt_mem_cells_iff]

/-- **The pixel law.** At most fifteen rows of integers always make a sprite, and of each only its value modulo 256
counts. After it was drawn at two integers, each pixel is as before, or turned over if the drawing covers it. A pass
over the set pixels that turns each of them over, and notes whether it was on just then, ends with this screen; and
it has noted one exactly if some pixel was on before the draw and is off after it. -/
theorem pixel_law (d : Drawing) :
    Sprite.ofInts d.rows = .ok d.sprite ∧
    (∀ e : Drawing, e.rows.map (· % 256) = d.rows.map (· % 256) → e.sprite = d.sprite) ∧
    (∀ px py, (s.draw d.sprite d.origin).lit (.ofInt px py) =
      xor (s.lit (.ofInt px py)) (d.covers px py)) ∧
    (d.sprite.cells d.origin).foldl noting (s, false) =
      (s.draw d.sprite d.origin, s.overdraws d.sprite d.origin) ∧
    (s.overdraws d.sprite d.origin = true ↔
      ∃ px py, s.lit (.ofInt px py) = true ∧ (s.draw d.sprite d.origin).lit (.ofInt px py) = false) := by
  refine ⟨d.ofInts_rows, fun e => Drawing.sprite_eq_of_emod_eq, s.lit_draw_ofInt d, ?_, ?_⟩
  · exact s.foldl_noting d.sprite d.origin
  · rw [overdraws_eq_true_iff]
    constructor
    · rintro ⟨p, hp⟩
      obtain ⟨px, py, rfl⟩ := p.exists_ofInt
      exact ⟨px, py, hp⟩
    · rintro ⟨px, py, hp⟩
      exact ⟨_, hp⟩

/-- A row without set bits in the last line of the screen, and one that goes on in the first line and the first
columns. -/
theorem pixel_law_wraps :
    let d : Drawing := ⟨[-256, 513], -1, 95, by decide⟩
    (blank.draw d.sprite d.origin).lit (.ofInt 6 0) = true ∧
      (blank.draw d.sprite d.origin).lit (.ofInt 6 31) = false ∧
      blank.overdraws d.sprite d.origin = false := by
  intro d
  obtain ⟨-, -, hlit, -, hoff⟩ := blank.pixel_law d
  refine ⟨?_, ?_, ?_⟩
  · rw [hlit, blank, lit_uniform]
    decide
  · rw [hlit, blank, lit_uniform]
    decide
  · rw [← Bool.not_eq_true, hoff]
    rintro ⟨px, py, hon, -⟩
    rw [blank, lit_uniform] at hon
    cases hon

end Screen

end Chip8
