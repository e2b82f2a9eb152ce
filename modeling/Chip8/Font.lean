import Chip8.Bounded

/-!
# The font

The pictures of the sixteen hex digits, five rows of eight pixels each, most significant bit leftmost.

* `Font.length_glyph`, `Font.length_bytes` — five rows a digit, eighty in all.
-/

set_option autoImplicit false

namespace Chip8.Font

def start : Nat := 0

/-- The rows of a digit's picture. -/
def height : Nat := 5

def glyph : Nibble → List UInt8
  | 0x0 => [0xF0, 0x90, 0x90, 0x90, 0xF0]
  | 0x1 => [0x20, 0x60, 0x20, 0x20, 0x70]
  | 0x2 => [0xF0, 0x10, 0xF0, 0x80, 0xF0]
  | 0x3 => [0xF0, 0x10, 0xF0, 0x10, 0xF0]
  | 0x4 => [0x90, 0x90, 0xF0, 0x10, 0x10]
  | 0x5 => [0xF0, 0x80, 0xF0, 0x10, 0xF0]
  | 0x6 => [0xF0, 0x80, 0xF0, 0x90, 0xF0]
  | 0x7 => [0xF0, 0x10, 0x20, 0x40, 0x40]
  | 0x8 => [0xF0, 0x90, 0xF0, 0x90, 0xF0]
  | 0x9 => [0xF0, 0x90, 0xF0, 0x10, 0xF0]
  | 0xA => [0xF0, 0x90, 0xF0, 0x90, 0x90]
  | 0xB => [0xE0, 0x90, 0xE0, 0x90, 0xE0]
  | 0xC => [0xF0, 0x80, 0x80, 0x80, 0xF0]
  | 0xD => [0xE0, 0x90, 0x90, 0x90, 0xE0]
  | 0xE => [0xF0, 0x80, 0xF0, 0x80, 0xF0]
  | _ => [0xF0, 0x80, 0xF0, 0x80, 0x80]

/-- The pictures of all digits, in order. -/
def bytes : List UInt8 := (List.finRange 16).flatMap glyph

def address (d : Nibble) : Nat := start + height * d.val

theorem length_glyph (d : Nibble) : (glyph d).length = height := by
  revert d; decide

theorem length_bytes : bytes.length = 80 := by decide

end Chip8.Font
