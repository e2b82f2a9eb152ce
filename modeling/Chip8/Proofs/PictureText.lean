import Chip8.Screen.Picture

/-!
# Pictures read back

The picture of a screen is a text, and a text has lines and columns. Behind the border each character stands for the
pixel of its column and line, so the screen can be read off its picture.

* `textLines`, `charAt?` — the lines of a text, and the character at a place of it.
* `textLines_intercalate` — lines that were joined.
* `Screen.textLines_picture`, `Screen.charAt?_picture_border`, `Screen.charAt?_picture` — what stands where in a
  picture.
* `Screen.ofText` — the screen that a text shows. `Screen.ofText_picture` — the picture of a screen shows the screen.
* `Screen.picture_faithful` — all of this together.
-/

set_option autoImplicit false

namespace Chip8

/-! ## Places in a text -/

/-- The lines of a text, which line breaks separate. -/
def textLines (text : String) : List (List Char) := text.toList.splitOn '\n'

/-- The character in a column of a line, if there is one. -/
def charAt? (text : String) (column line : Nat) : Option Char :=
  ((textLines text)[line]?).bind fun chars => chars[column]?

/-- A text that was joined from lines has these lines. -/
theorem textLines_intercalate {lines : List (List Char)} (hbreak : ∀ l ∈ lines, '\n' ∉ l) (hne : lines ≠ []) :
    textLines ("\n".intercalate (lines.map String.ofList)) = lines := by
  have hlists : (lines.map String.ofList).map String.toList = lines := by
    simp [Function.comp_def, String.toList_ofList]
  have hsep : "\n".toList = ['\n'] := rfl
  rw [textLines, String.toList_intercalate, hlists, hsep]
  exact List.splitOn_intercalate '\n' hbreak hne

namespace Screen

variable (s : Screen)

/-! ## The picture of a screen -/

theorem lines_eq : s.lines = border :: s.toLists.map line ++ [border] := by
  simp [lines, toLists, Function.comp_def]

/-- No character of a picture breaks a line. -/
theorem break_notMem_of_mem_lines {l : List Char} (h : l ∈ s.lines) : '\n' ∉ l := by
  have hpixels : ∀ row : List Bool, '\n' ∉ row.map pixelChar := by
    intro row hrow
    obtain ⟨on, -, hon⟩ := List.mem_map.1 hrow
    cases on <;> simp [pixelChar] at hon
  rw [lines_eq] at h
  simp only [List.cons_append, List.mem_cons, List.mem_append, List.mem_map, List.not_mem_nil, or_false] at h
  rcases h with rfl | ⟨row, -, rfl⟩ | rfl
  · simp [border]
  · simp [line, hpixels row]
  · simp [border]

theorem textLines_picture : textLines s.picture = s.lines :=
  textLines_intercalate (fun _ => s.break_notMem_of_mem_lines) (by simp [lines])

theorem getElem?_border {column : Nat} (hcolumn : column < 66) : border[column]? = some '+' := by
  rw [border, List.getElem?_replicate, if_pos hcolumn]

theorem getElem?_line {row : List Bool} (hrow : row.length = 64) :
    (line row)[0]? = some '+' ∧ (line row)[65]? = some '+' ∧
      ∀ x < 64, (line row)[x + 1]? = (row[x]?).map pixelChar := by
  have hlength : (row.map pixelChar).length = 64 := by rw [List.length_map, hrow]
  refine ⟨rfl, ?_, fun x hx => ?_⟩
  · rw [line, List.cons_append, List.getElem?_cons_succ, List.getElem?_append_right (by omega), hlength]
    rfl
  · rw [line, List.cons_append, List.getElem?_cons_succ, List.getElem?_append_left (by omega), List.getElem?_map]

theorem getElem?_lines :
    s.lines[0]? = some border ∧ s.lines[33]? = some border ∧
      ∀ y < 32, s.lines[y + 1]? = (s.toLists[y]?).map line := by
  have hlength : (s.toLists.map line).length = 32 := by rw [List.length_map, length_toLists]
  rw [lines_eq]
  refine ⟨rfl, ?_, fun y hy => ?_⟩
  · rw [List.cons_append, List.getElem?_cons_succ, List.getElem?_append_right (by omega), hlength]
    rfl
  · rw [List.cons_append, List.getElem?_cons_succ, List.getElem?_append_left (by omega), List.getElem?_map]

/-- Inside the border a line of the picture is that of a row. -/
theorem exists_row {y : Nat} (hy : y < 32) :
    ∃ row, s.toLists[y]? = some row ∧ row.length = 64 ∧ ∀ column,
      charAt? s.picture column (y + 1) = (line row)[column]? := by
  have hlt : y < s.toLists.length := by rwa [length_toLists]
  have hrow : s.toLists[y]? = some s.toLists[y] := List.getElem?_eq_getElem hlt
  refine ⟨s.toLists[y], hrow, length_of_mem_toLists (List.getElem_mem hlt), fun column => ?_⟩
  rw [charAt?, textLines_picture, s.getElem?_lines.2.2 y hy, hrow]
  rfl

/-- The first and the last line are border, and so are the first and the last character of every line. -/
theorem charAt?_picture_border :
    (∀ column < 66, charAt? s.picture column 0 = some '+' ∧ charAt? s.picture column 33 = some '+') ∧
      ∀ line < 34, charAt? s.picture 0 line = some '+' ∧ charAt? s.picture 65 line = some '+' := by
  obtain ⟨hfirst, hlast, -⟩ := s.getElem?_lines
  have hends : ∀ column < 66, charAt? s.picture column 0 = some '+' ∧ charAt? s.picture column 33 = some '+' := by
    intro column hcolumn
    rw [charAt?, charAt?, textLines_picture, hfirst, hlast]
    exact ⟨getElem?_border hcolumn, getElem?_border hcolumn⟩
  refine ⟨hends, fun line hline => ?_⟩
  cases line with
  | zero => exact ⟨(hends 0 (by decide)).1, (hends 65 (by decide)).1⟩
  | succ y =>
    rcases Nat.lt_or_ge y 32 with hy | hy
    · obtain ⟨row, -, hrow, hchars⟩ := s.exists_row hy
      rw [hchars, hchars]
      exact ⟨(getElem?_line hrow).1, (getElem?_line hrow).2.1⟩
    · obtain rfl : y = 32 := by omega
      exact ⟨(hends 0 (by decide)).2, (hends 65 (by decide)).2⟩

/-- **Inside the border each pixel has its character.** -/
theorem charAt?_picture (p : Point) :
    charAt? s.picture (p.x.val + 1) (p.y.val + 1) = some (pixelChar (s.lit p)) := by
  obtain ⟨row, hrow, hlength, hchars⟩ := s.exists_row p.y.isLt
  have hpixel := s.getElem?_toLists p
  rw [hrow, Option.bind_some] at hpixel
  rw [hchars, (getElem?_line hlength).2.2 p.x.val p.x.isLt, hpixel, Option.map_some]

/-! ## The screen of a picture -/

/-- The screen that a text shows inside a border: a pixel is on where there is a full block. -/
def ofText (text : String) : Screen :=
  ⟨Vector.ofFn fun y => Vector.ofFn fun x => charAt? text (x.val + 1) (y.val + 1) == some '█'⟩

theorem lit_ofText (text : String) (p : Point) :
    (ofText text).lit p = (charAt? text (p.x.val + 1) (p.y.val + 1) == some '█') := by
  simp [lit, ofText]

/-- **The picture of a screen shows the screen.** -/
theorem ofText_picture : ofText s.picture = s := by
  refine ext_lit fun p => ?_
  rw [lit_ofText, charAt?_picture]
  cases s.lit p <;> rfl

/-- **A picture shows its screen faithfully.** It has thirty-four lines of sixty-six characters. The first and the last
line are plus signs, and every line starts and ends with one. Between them each pixel has the character one column and
one line on: a full block if it is on, and a space if it is off. So the screen is read off its picture, and two screens
with the same picture are the same. And the rows, taken one by one, have the pixels that two integers name, counted
around the edges. -/
theorem picture_faithful :
    (textLines s.picture).length = 34 ∧ (∀ l ∈ textLines s.picture, l.length = 66) ∧
    (∀ column < 66, charAt? s.picture column 0 = some '+' ∧ charAt? s.picture column 33 = some '+') ∧
    (∀ line < 34, charAt? s.picture 0 line = some '+' ∧ charAt? s.picture 65 line = some '+') ∧
    (∀ x < 64, ∀ y < 32,
      charAt? s.picture (x + 1) (y + 1) = some (if s.pixel x y = .on then '█' else ' ')) ∧
    ofText s.picture = s ∧ (∀ t : Screen, s.picture = t.picture ↔ s = t) ∧
    s.toLists.length = 32 ∧ (∀ row ∈ s.toLists, row.length = 64) ∧
    ∀ x y : Int,
      let inRows := (s.toLists[(y % 32).toNat]?).bind fun row => row[(x % 64).toNat]?
      inRows = some (decide (s.pixel x y = .on)) ∧ inRows = some (s.isOn x y) := by
  obtain ⟨hends, hsides⟩ := s.charAt?_picture_border
  refine ⟨?_, ?_, hends, hsides, ?_, s.ofText_picture, ?_, s.length_toLists, fun _ => length_of_mem_toLists, ?_⟩
  · rw [textLines_picture, length_lines]
  · intro l hl
    rw [textLines_picture] at hl
    exact s.length_line hl
  · intro x hx y hy
    have hplace : Point.ofInt x y = ⟨⟨x, hx⟩, ⟨y, hy⟩⟩ := by
      simp only [Point.ofInt, Point.mk.injEq, Fin.mk.injEq]
      omega
    have hchar := s.charAt?_picture ⟨⟨x, hx⟩, ⟨y, hy⟩⟩
    rw [hchar, pixelChar, ← hplace]
    simp only [pixel_eq_on_iff]
  · intro t
    constructor
    · intro h
      rw [← s.ofText_picture, h, ofText_picture]
    · rintro rfl
      rfl
  · intro x y inRows
    have hrows : inRows = some (s.lit (.ofInt x y)) := s.getElem?_toLists (.ofInt x y)
    rw [hrows]
    simp

/-- A single pixel is seen at its column and line, and not with the two exchanged. -/
theorem picture_faithful_single :
    let s := blank.toggle ⟨3, 5⟩
    charAt? s.picture 4 6 = some '█' ∧ charAt? s.picture 6 4 = some ' ' ∧ ofText s.picture = s := by
  intro s
  have hon : s.pixel (3 : Nat) (5 : Nat) = .on := by decide
  have hoff : s.pixel (5 : Nat) (3 : Nat) ≠ .on := by decide
  obtain ⟨-, -, -, -, hpixels, htext, -⟩ := s.picture_faithful
  refine ⟨?_, ?_, htext⟩
  · rw [hpixels 3 (by decide) 5 (by decide), if_pos hon]
  · rw [hpixels 5 (by decide) 3 (by decide), if_neg hoff]

end Screen

end Chip8
