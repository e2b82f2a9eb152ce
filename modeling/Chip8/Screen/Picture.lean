import Chip8.Screen.Basic

/-!
# The screen as text

A picture has one character for each pixel, a full block if it is on and a space if it is off, inside a
border of plus signs.

* `length_line`, `length_lines` — a picture is 34 lines of 66 characters.
-/

set_option autoImplicit false

namespace Chip8.Screen

def pixelChar (on : Bool) : Char := if on then '█' else ' '

/-- A row of pixels between the two sides of the border. -/
def line (row : List Bool) : List Char := '+' :: row.map pixelChar ++ ['+']

def border : List Char := List.replicate 66 '+'

/-- The lines of a picture, top to bottom. -/
def lines (s : Screen) : List (List Char) :=
  border :: s.rows.toList.map (fun row => line row.toList) ++ [border]

/-- The picture of a screen, without a line break at the end. -/
def picture (s : Screen) : String := "\n".intercalate (s.lines.map String.ofList)

theorem length_lines (s : Screen) : s.lines.length = 34 := by simp [lines]

theorem length_line (s : Screen) {l : List Char} (h : l ∈ s.lines) : l.length = 66 := by
  simp only [lines, List.cons_append, List.mem_cons, List.mem_append, List.mem_map,
    List.not_mem_nil, or_false] at h
  rcases h with rfl | ⟨row, -, rfl⟩ | rfl
  · simp [border]
  · simp [line]
  · simp [border]

end Chip8.Screen
