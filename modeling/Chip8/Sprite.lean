import Chip8.Error

/-!
# Sprites

A sprite is at most fifteen rows of eight pixels. The most significant bit of a row is its leftmost pixel.
Sprites are placed on a screen whose edges join, so a place is a pair of numbers counted around.

* `mem_marks` — the marks of a sprite are the places of its set bits.
* `exists_of_mem_cells` — what a sprite covers lies in its rectangle.
-/

set_option autoImplicit false

namespace Chip8

/-- A place on the screen, counted from the top left corner. -/
structure Point where
  x : Fin 64
  y : Fin 32
  deriving DecidableEq, Repr

namespace Point

/-- The place that integers name, counted around both edges. -/
def ofInt (x y : Int) : Point := ⟨⟨(x % 64).toNat, by omega⟩, ⟨(y % 32).toNat, by omega⟩⟩

/-- The place some columns to the right and some rows down, counted around both edges. -/
def offset (p : Point) (dx dy : Nat) : Point := ⟨p.x + Fin.ofNat 64 dx, p.y + Fin.ofNat 32 dy⟩

end Point

/-- Rows of pixels, top to bottom. -/
structure Sprite where
  rows : List UInt8
  length_le : rows.length ≤ 15 := by decide
  deriving DecidableEq, Repr

namespace Sprite

def ofBytes (rows : List UInt8) : Except Error Sprite :=
  if h : rows.length ≤ 15 then .ok ⟨rows, h⟩ else .error (.spriteTooTall rows.length)

/-- The sprite of these rows; of each only the low eight bits count. -/
def ofInts (rows : List Int) : Except Error Sprite := ofBytes (rows.map UInt8.ofInt)

def height (s : Sprite) : Nat := s.rows.length

/-- Whether the pixel in a column of a row is set. -/
def bit (row : UInt8) (column : Nat) : Bool := row.toNat.testBit (7 - column)

/-- The pixels of a row, left to right. -/
def bits (row : UInt8) : List Bool := (List.range 8).map (bit row)

/-- The columns and rows of the set pixels. -/
def marks (s : Sprite) : List (Nat × Nat) :=
  s.rows.zipIdx.flatMap fun (row, dy) => ((List.range 8).filter (bit row)).map fun dx => (dx, dy)

theorem mem_marks (s : Sprite) (dx dy : Nat) :
    (dx, dy) ∈ s.marks ↔ dx < 8 ∧ ∃ row, s.rows[dy]? = some row ∧ bit row dx = true := by
  simp only [marks, List.mem_flatMap, List.mem_map, List.mem_filter, List.mem_range, Prod.mk.injEq]
  constructor
  · rintro ⟨⟨row, i⟩, hi, d, ⟨hd, hb⟩, rfl, rfl⟩
    exact ⟨hd, row, List.mem_zipIdx_iff_getElem?.1 hi, hb⟩
  · rintro ⟨hd, row, hrow, hb⟩
    exact ⟨(row, dy), List.mem_zipIdx_iff_getElem?.2 hrow, dx, ⟨hd, hb⟩, rfl, rfl⟩

/-- The places on the screen that a sprite covers with its set pixels. -/
def cells (s : Sprite) (origin : Point) : List Point :=
  s.marks.map fun (dx, dy) => origin.offset dx dy

/-- A sprite covers no place outside its eight columns and its rows. -/
theorem exists_of_mem_cells {s : Sprite} {origin p : Point} (h : p ∈ s.cells origin) :
    ∃ dx < 8, ∃ dy < s.height, p = origin.offset dx dy := by
  obtain ⟨⟨dx, dy⟩, hmark, rfl⟩ := List.mem_map.1 h
  obtain ⟨hdx, row, hrow, -⟩ := (s.mem_marks dx dy).1 hmark
  obtain ⟨hdy, -⟩ := List.getElem?_eq_some_iff.1 hrow
  exact ⟨dx, hdx, dy, hdy, rfl⟩

end Sprite

end Chip8
