import Chip8.Sprite

/-!
# The screen

Sixty-four columns and thirty-two rows of pixels, each on or off. The edges join, so every pair of integers
names a pixel. To draw a sprite is to turn over each pixel that it covers.

* `ext_lit` — a screen is known by which of its pixels are lit.
* `pixel_eq_on_iff`, `isOn_eq_lit`, `getElem?_toLists` — the ways to look at a pixel.
* `lit_toggle`, `lit_uniform`, `lit_draw_of_notMem` — what a change does to a pixel.
-/

set_option autoImplicit false

namespace Chip8

/-- What a pixel shows. -/
inductive Pixel where
  | off
  | on
  deriving DecidableEq, Repr

/-- The pixels of the screen, row by row. -/
structure Screen where
  /-- The rows, top to bottom, each left to right. -/
  rows : Vector (Vector Bool 64) 32
  deriving DecidableEq, Repr

namespace Screen

def lit (s : Screen) (p : Point) : Bool := s.rows[p.y][p.x]

/-- The pixel that integers name, counted around both edges. -/
def pixel (s : Screen) (x y : Int) : Pixel := if s.lit (.ofInt x y) then .on else .off

/-- Whether the pixel that integers name is on. -/
def isOn (s : Screen) (x y : Int) : Bool := decide (s.pixel x y = .on)

/-- The rows from top to bottom, each as its pixels from left to right. -/
def toLists (s : Screen) : List (List Bool) := s.rows.toList.map Vector.toList

/-- A screen whose pixels are all on or all off. -/
def uniform (on : Bool) : Screen := ⟨Vector.replicate 32 (Vector.replicate 64 on)⟩

/-- A screen whose pixels are all off. -/
def blank : Screen := uniform false

/-- Turn every pixel off. -/
def clear (s : Screen) : Screen := ⟨s.rows.map fun row => row.map fun _ => false⟩

/-- Turn a pixel over. -/
def toggle (s : Screen) (p : Point) : Screen :=
  ⟨s.rows.set p.y (s.rows[p.y].set p.x (!s.lit p))⟩

/-- Draw a sprite with its top left corner at a place. -/
def draw (s : Screen) (sprite : Sprite) (origin : Point) : Screen :=
  (sprite.cells origin).foldl toggle s

/-- Turn a pixel over, and note whether it was on. -/
def noting (state : Screen × Bool) (p : Point) : Screen × Bool := (state.1.toggle p, state.2 || state.1.lit p)

/-- Whether drawing a sprite turns off a pixel that is on. -/
def overdraws (s : Screen) (sprite : Sprite) (origin : Point) : Bool :=
  ((sprite.cells origin).foldl noting (s, false)).2

def count (s : Screen) : Nat := s.rows.toList.foldl (fun n row => n + row.toList.count true) 0

theorem ext_lit {s t : Screen} (h : ∀ p, s.lit p = t.lit p) : s = t := by
  obtain ⟨rs⟩ := s
  obtain ⟨rt⟩ := t
  congr 1
  ext y hy x hx
  exact h ⟨⟨x, hx⟩, ⟨y, hy⟩⟩

@[simp] theorem pixel_eq_on_iff (s : Screen) (x y : Int) : s.pixel x y = .on ↔ s.lit (.ofInt x y) = true := by
  unfold pixel
  cases s.lit (.ofInt x y) <;> simp

@[simp] theorem isOn_eq_lit (s : Screen) (x y : Int) : s.isOn x y = s.lit (.ofInt x y) := by
  simp [isOn]

@[simp] theorem length_toLists (s : Screen) : s.toLists.length = 32 := by simp [toLists]

theorem length_of_mem_toLists {s : Screen} {row : List Bool} (h : row ∈ s.toLists) : row.length = 64 := by
  obtain ⟨v, -, rfl⟩ := List.mem_map.1 h
  exact v.length_toList

/-- The rows have the pixels at their places. -/
theorem getElem?_toLists (s : Screen) (p : Point) :
    (s.toLists[p.y.val]?).bind (fun row => row[p.x.val]?) = some (s.lit p) := by
  simp [toLists, lit]

@[simp] theorem lit_uniform (on : Bool) (p : Point) : (uniform on).lit p = on := by
  simp [lit, uniform]

theorem clear_eq_blank (s : Screen) : s.clear = blank := by
  refine ext_lit fun p => ?_
  rw [blank, lit_uniform]
  simp [lit, clear]

theorem lit_toggle (s : Screen) (p q : Point) :
    (s.toggle p).lit q = if q = p then !s.lit p else s.lit q := by
  obtain ⟨px, py⟩ := p
  obtain ⟨qx, qy⟩ := q
  simp only [lit, toggle, Fin.getElem_fin, Vector.getElem_set, Point.mk.injEq, Fin.ext_iff]
  by_cases hy : py.val = qy.val
  · by_cases hx : px.val = qx.val
    · simp [hx, hy]
    · simp [hy, hx, Ne.symm hx]
  · simp [hy, Ne.symm hy]

/-- Drawing changes no pixel that the sprite does not cover. -/
theorem lit_draw_of_notMem {s : Screen} {sprite : Sprite} {origin p : Point}
    (h : p ∉ sprite.cells origin) : (s.draw sprite origin).lit p = s.lit p := by
  unfold draw
  generalize sprite.cells origin = cells at h
  induction cells generalizing s with
  | nil => rfl
  | cons q cells ih =>
    obtain ⟨hq, hcells⟩ := not_or.1 (mt List.mem_cons.2 h)
    rw [List.foldl_cons, ih hcells, lit_toggle, if_neg hq]

end Screen

end Chip8
