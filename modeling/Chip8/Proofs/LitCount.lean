import Chip8.Proofs.Pixels

/-!
# How many pixels are lit

To turn a pixel over is to count one pixel more, or one less if it was on. A sprite covers each of its places once,
so a draw adds the number of its set bits to the count and takes back two for each that meets a pixel that is on.

* `Drawing.setBits`, `Drawing.cells_eq` — the set bits of a sprite of integers, and the places where they are drawn.
* `Drawing.hits` — how many of them are drawn on a pixel that is on.
* `count_toggle` — one pixel; `count_draw` — one draw.
* `count_drawAll_mod_two` — many draws, up to the parity of the count.
* `count_law` — so the count tells whether a draw turned a pixel off.
-/

set_option autoImplicit false

namespace Chip8

theorem Point.offset_ofInt (x y : Int) (dx dy : Nat) : (ofInt x y).offset dx dy = ofInt (x + dx) (y + dy) := by
  simp only [ofInt, offset, mk.injEq, Fin.ext_iff, Fin.val_add, Fin.val_ofNat]
  omega

namespace Drawing

/-- The columns and rows of the set bits, of each row the low eight. -/
def setBits (d : Drawing) : List (Nat × Nat) :=
  d.rows.zipIdx.flatMap fun (v, row) =>
    ((List.range 8).filter fun column => v.testBit (7 - column)).map fun column => (column, row)

/-- The number of set bits that are drawn on a pixel that is on. -/
def hits (d : Drawing) (s : Screen) : Nat :=
  d.setBits.countP fun (column, row) => s.lit (.ofInt (d.x + column) (d.y + row))

/-- The number of set bits of all drawings together. -/
def setBitsOf (drawings : List Drawing) : Nat := drawings.foldr (fun d n => d.setBits.length + n) 0

theorem marks_sprite (d : Drawing) : d.sprite.marks = d.setBits := by
  rw [Sprite.marks, sprite, List.zipIdx_map, List.flatMap_map, setBits]
  refine List.flatMap_congr ?_
  rintro ⟨v, row⟩ -
  refine congrArg (List.map _) (List.filter_congr fun column hcolumn => ?_)
  exact bit_ofInt v (List.mem_range.1 hcolumn)

/-- The places that a drawing covers are those where its set bits are drawn. -/
theorem cells_eq (d : Drawing) :
    d.sprite.cells d.origin = d.setBits.map fun (column, row) => .ofInt (d.x + column) (d.y + row) := by
  rw [Sprite.cells, marks_sprite]
  refine List.map_congr_left ?_
  rintro ⟨column, row⟩ -
  exact Point.offset_ofInt d.x d.y column row

end Drawing

/-! ## Sums along a list -/

theorem foldl_add_init {α : Type} (f : α → Nat) (l : List α) (n k : Nat) :
    l.foldl (fun n a => n + f a) (n + k) = l.foldl (fun n a => n + f a) n + k := by
  induction l generalizing n with
  | nil => rfl
  | cons a l ih => rw [List.foldl_cons, List.foldl_cons, Nat.add_right_comm, ih]

/-- A sum in which one member is replaced. -/
theorem foldl_add_set {α : Type} (f : α → Nat) (l : List α) {i : Nat} (hi : i < l.length) (a : α) (n : Nat) :
    (l.set i a).foldl (fun n a => n + f a) n + f l[i] = l.foldl (fun n a => n + f a) n + f a := by
  induction l generalizing i n with
  | nil => cases hi
  | cons b l ih =>
    cases i with
    | zero =>
      simp only [List.set_cons_zero, List.foldl_cons, List.getElem_cons_zero, foldl_add_init]
      omega
    | succ i =>
      simp only [List.set_cons_succ, List.foldl_cons, List.getElem_cons_succ]
      exact ih (Nat.lt_of_succ_lt_succ hi) _

/-- A truth value among others that is replaced by its opposite. -/
theorem count_set_not (l : List Bool) {i : Nat} (hi : i < l.length) :
    (l.set i (!l[i])).count true + (if l[i] then 2 else 0) = l.count true + 1 := by
  have hcount := List.count_set (a := !l[i]) (b := true) hi
  cases hl : l[i] with
  | false => simpa [hl] using hcount
  | true =>
    have hpositive : 0 < l.count true := List.count_pos_iff.2 (hl ▸ List.getElem_mem hi)
    simp [hl] at hcount ⊢
    omega

namespace Screen

variable (s : Screen)

/-! ## One pixel -/

/-- **To turn a pixel over changes the count by one**: one more pixel is lit, or one less if it was on. -/
theorem count_toggle (p : Point) : (s.toggle p).count + (if s.lit p then 2 else 0) = s.count + 1 := by
  have hy : p.y.val < s.rows.toList.length := by simp
  have hx : p.x.val < s.rows[p.y].toList.length := by simp
  have hlit : s.rows[p.y].toList[p.x.val] = s.lit p := by simp [lit]
  -- within the row of the pixel, and then over all rows
  have hrow := count_set_not s.rows[p.y].toList hx
  have hrows := foldl_add_set (fun row => row.toList.count true) s.rows.toList hy (s.rows[p.y].set p.x (!s.lit p)) 0
  rw [hlit] at hrow
  simp only [Vector.toList_set, Vector.getElem_toList, Fin.getElem_fin] at hrow hrows
  simp only [count, toggle, Vector.toList_set, Fin.getElem_fin]
  omega

/-! ## One draw -/

/-- Pixels that are turned over one after the other, each once, add one each, but those that were on take one away. -/
theorem count_foldl_toggle {cells : List Point} (h : cells.Nodup) :
    (cells.foldl toggle s).count + 2 * cells.countP s.lit = s.count + cells.length := by
  induction cells generalizing s with
  | nil => rfl
  | cons q cells ih =>
    obtain ⟨hq, hcells⟩ := List.nodup_cons.1 h
    -- the pixels that are still to come are as they were
    have hlater : cells.countP (s.toggle q).lit = cells.countP s.lit :=
      List.countP_congr fun p hp => by rw [lit_toggle_of_mem s hq hp]
    have hfirst := s.count_toggle q
    have hrest := ih (s.toggle q) hcells
    rw [hlater] at hrest
    rw [List.foldl_cons, List.countP_cons, List.length_cons]
    by_cases hon : s.lit q = true
    · rw [if_pos hon] at hfirst ⊢
      omega
    · rw [if_neg hon] at hfirst ⊢
      omega

/-- **A draw adds a pixel for every set bit, and takes back two for each that meets a pixel that is on.** -/
theorem count_draw (d : Drawing) :
    (s.draw d.sprite d.origin).count + 2 * d.hits s = s.count + d.setBits.length := by
  have hcount := s.count_foldl_toggle (d.sprite.nodup_cells d.origin)
  rw [d.cells_eq, List.countP_map, List.length_map] at hcount
  rw [draw, d.cells_eq]
  exact hcount

/-- No set bit meets a pixel that is on exactly if the draw turns none off. -/
theorem overdraws_eq_false_iff_hits (d : Drawing) : s.overdraws d.sprite d.origin = false ↔ d.hits s = 0 := by
  rw [overdraws_eq_any, d.cells_eq, List.any_map, List.any_eq_false, Drawing.hits, List.countP_eq_zero]
  rfl

/-! ## Many draws -/

theorem count_blank : blank.count = 0 := by
  simp [count, blank, uniform, Vector.count_replicate]

/-- **Of many draws, the set bits together tell whether the count has become odd.** -/
theorem count_drawAll_mod_two (drawings : List Drawing) :
    (s.drawAll drawings).count % 2 = (s.count + Drawing.setBitsOf drawings) % 2 := by
  induction drawings generalizing s with
  | nil => rfl
  | cons d drawings ih =>
    have hfirst := s.count_draw d
    have hrest := ih (s.draw d.sprite d.origin)
    rw [drawAll, List.foldl_cons, Drawing.setBitsOf, List.foldr_cons]
    rw [drawAll, Drawing.setBitsOf] at hrest
    omega

/-- **The count law.** At most fifteen rows of integers always make a sprite. Drawn anywhere, it adds to the number
of lit pixels the number of its set bits, less two for each that falls on a pixel that is on. So no pixel is turned off
exactly if the number grows by all of the set bits; and from a cleared screen, any draws leave a number of lit pixels
that is odd exactly if the number of all their set bits is. -/
theorem count_law :
    (∀ d : Drawing,
      Sprite.ofInts d.rows = .ok d.sprite ∧
      ((s.draw d.sprite d.origin).count : Int) = s.count + d.setBits.length - 2 * d.hits s ∧
      (s.overdraws d.sprite d.origin = false ↔
        (s.draw d.sprite d.origin).count = s.count + d.setBits.length)) ∧
    ∀ drawings, (s.clear.drawAll drawings).count % 2 = Drawing.setBitsOf drawings % 2 := by
  refine ⟨fun d => ⟨d.ofInts_rows, ?_, ?_⟩, fun drawings => ?_⟩
  · have hcount := s.count_draw d
    omega
  · have hcount := s.count_draw d
    rw [overdraws_eq_false_iff_hits]
    omega
  · rw [count_drawAll_mod_two, clear_eq_blank, count_blank, Nat.zero_add]

end Screen

end Chip8
