import Chip8.Screen.Basic
import Mathlib.Data.List.Nodup
import Mathlib.Data.List.Perm.Basic

/-!
# Drawing many sprites

To draw a sprite is to turn over a set of pixels: no two of its marks fall on the same pixel, though the edges of
the screen join. So draws can be made in any order, and a draw that is made twice is not made at all.

* `Sprite.nodup_cells` — a sprite covers each of its places once.
* `lit_draw` — a draw turns over the pixels that the sprite covers, and no others.
* `overdraws_eq_any` — a draw turns a pixel off if the sprite covers one that is on. `foldl_noting` — one pass over the
  pixels draws the sprite and notes this.
* `draw_comm`, `draw_draw` — two draws commute, and a draw undoes itself.
* `overdraws_draw_iff` — a second draw turns a pixel off where the first one turned it on.
* `draws_commute_and_cancel` — so of many draws only how often each is made counts, and that only modulo two.
-/

set_option autoImplicit false

namespace Chip8

namespace Sprite

/-- In the eight columns and the fifteen rows of a sprite no two places are the same, wherever it stands. -/
theorem offset_injective {p : Point} {dx dx' dy dy' : Nat} (hdx : dx < 8) (hdx' : dx' < 8) (hdy : dy < 15)
    (hdy' : dy' < 15) (h : p.offset dx dy = p.offset dx' dy') : dx = dx' ∧ dy = dy' := by
  obtain ⟨hx, hy⟩ := Point.mk.inj h
  simp only [Fin.ext_iff, Fin.val_add, Fin.val_ofNat] at hx hy
  omega

theorem nodup_marks (s : Sprite) : s.marks.Nodup := by
  refine List.nodup_flatMap.2 ⟨?_, ?_⟩
  · -- in a row the marks differ by their columns
    rintro ⟨row, dy⟩ -
    refine (List.nodup_range.filter _).map ?_
    exact fun dx dx' h => (Prod.mk.inj h).1
  · -- and those of two rows by their rows
    have hrows : (s.rows.zipIdx.map Prod.snd).Pairwise (· < ·) := by
      rw [List.zipIdx_map_snd]
      exact List.pairwise_lt_range'
    refine (List.pairwise_map.1 hrows).imp ?_
    rintro ⟨row, dy⟩ ⟨row', dy'⟩ hlt ⟨a, b⟩ hmem hmem'
    obtain ⟨dx, -, rfl, rfl⟩ := List.mem_map.1 hmem
    obtain ⟨dx', -, h⟩ := List.mem_map.1 hmem'
    exact absurd (Prod.mk.inj h).2 (Nat.ne_of_gt hlt)

theorem mem_marks_lt {s : Sprite} {dx dy : Nat} (h : (dx, dy) ∈ s.marks) : dx < 8 ∧ dy < 15 := by
  obtain ⟨hdx, row, hrow, -⟩ := (s.mem_marks dx dy).1 h
  obtain ⟨hdy, -⟩ := List.getElem?_eq_some_iff.1 hrow
  exact ⟨hdx, Nat.lt_of_lt_of_le hdy s.length_le⟩

/-- **A sprite covers each of its places once.** -/
theorem nodup_cells (s : Sprite) (origin : Point) : (s.cells origin).Nodup := by
  refine s.nodup_marks.map_on ?_
  rintro ⟨dx, dy⟩ hmark ⟨dx', dy'⟩ hmark' h
  obtain ⟨hdx, hdy⟩ := mem_marks_lt hmark
  obtain ⟨hdx', hdy'⟩ := mem_marks_lt hmark'
  obtain ⟨rfl, rfl⟩ := offset_injective hdx hdx' hdy hdy' h
  rfl

end Sprite

/-- A sprite of integers, and the integers that say where it is drawn. -/
structure Drawing where
  rows : List Int
  x : Int
  y : Int
  length_le : rows.length ≤ 15

namespace Drawing

def sprite (d : Drawing) : Sprite := ⟨d.rows.map UInt8.ofInt, by rw [List.length_map]; exact d.length_le⟩

def origin (d : Drawing) : Point := .ofInt d.x d.y

/-- Its rows make its sprite. -/
theorem ofInts_rows (d : Drawing) : Sprite.ofInts d.rows = .ok d.sprite :=
  dif_pos (by rw [List.length_map]; exact d.length_le)

end Drawing

namespace Screen

variable (s : Screen) (sprite : Sprite) (origin : Point)

/-! ## One draw -/

/-- To turn one pixel over leaves the others as they are. -/
theorem lit_toggle_of_mem {cells : List Point} {p q : Point} (hq : q ∉ cells) (hp : p ∈ cells) :
    (s.toggle q).lit p = s.lit p := by
  have hne : p ≠ q := by
    rintro rfl
    exact hq hp
  rw [lit_toggle, if_neg hne]

/-- Pixels that are turned over one after the other, each once, are all turned over. -/
theorem lit_foldl_toggle {cells : List Point} (h : cells.Nodup) (p : Point) :
    (cells.foldl toggle s).lit p = xor (s.lit p) (decide (p ∈ cells)) := by
  induction cells generalizing s with
  | nil => simp
  | cons q cells ih =>
    obtain ⟨hq, hcells⟩ := List.nodup_cons.1 h
    rw [List.foldl_cons, ih _ hcells, lit_toggle]
    by_cases hp : p = q
    · subst hp
      simp [hq]
    · simp [hp]

/-- **A draw turns over the pixels that the sprite covers**, and no others. -/
theorem lit_draw (p : Point) :
    (s.draw sprite origin).lit p = xor (s.lit p) (decide (p ∈ sprite.cells origin)) :=
  lit_foldl_toggle s (sprite.nodup_cells origin) p

/-- A pass over different pixels that notes what it turns off while it draws sees what there was to be turned off
before it. -/
theorem foldl_noting_of_nodup (off : Bool) {cells : List Point} (h : cells.Nodup) :
    cells.foldl noting (s, off) = (cells.foldl toggle s, off || cells.any s.lit) := by
  induction cells generalizing s off with
  | nil => simp
  | cons q cells ih =>
    obtain ⟨hq, hcells⟩ := List.nodup_cons.1 h
    -- the pixels that are still to come are as they were
    have hlater : cells.any (s.toggle q).lit = cells.any s.lit := by
      rw [Bool.eq_iff_iff, List.any_eq_true, List.any_eq_true]
      refine exists_congr fun p => and_congr_right fun hp => ?_
      rw [lit_toggle_of_mem s hq hp]
    rw [List.foldl_cons, noting, ih _ _ hcells, hlater, List.any_cons, Bool.or_assoc]
    rfl

/-- **A draw turns a pixel off exactly if the sprite covers one that is on.** -/
theorem overdraws_eq_any : s.overdraws sprite origin = (sprite.cells origin).any s.lit := by
  rw [overdraws, foldl_noting_of_nodup s false (sprite.nodup_cells origin), Bool.false_or]

/-- One pass draws a sprite and notes whether it turned a pixel off. -/
theorem foldl_noting :
    (sprite.cells origin).foldl noting (s, false) = (s.draw sprite origin, s.overdraws sprite origin) := by
  rw [foldl_noting_of_nodup s false (sprite.nodup_cells origin), overdraws_eq_any, Bool.false_or]
  rfl

theorem draw_comm (other : Sprite) (place : Point) :
    (s.draw sprite origin).draw other place = (s.draw other place).draw sprite origin := by
  refine ext_lit fun p => ?_
  rw [lit_draw, lit_draw, lit_draw, lit_draw, Bool.xor_assoc, Bool.xor_assoc]
  congr 1
  exact Bool.xor_comm _ _

theorem draw_draw : (s.draw sprite origin).draw sprite origin = s := by
  refine ext_lit fun p => ?_
  rw [lit_draw, lit_draw, Bool.xor_assoc, Bool.xor_self, Bool.xor_false]

/-- **The second of two draws turns a pixel off exactly if the first one turned a pixel on.** -/
theorem overdraws_draw_iff :
    (s.draw sprite origin).overdraws sprite origin = true ↔
      ∃ p, s.lit p = false ∧ (s.draw sprite origin).lit p = true := by
  rw [overdraws_eq_any, List.any_eq_true]
  constructor
  · rintro ⟨p, hp, hlit⟩
    refine ⟨p, ?_, hlit⟩
    rw [lit_draw, decide_eq_true hp, Bool.xor_true] at hlit
    simpa using hlit
  · rintro ⟨p, hoff, hlit⟩
    refine ⟨p, Decidable.byContradiction fun hp => ?_, hlit⟩
    rw [lit_draw_of_notMem hp, hoff] at hlit
    cases hlit

/-! ## Many draws -/

/-- Draw some sprites, one after the other. -/
def drawAll (drawings : List Drawing) : Screen := drawings.foldl (fun s d => s.draw d.sprite d.origin) s

/-- Draws can be made in any order. -/
theorem drawAll_of_perm {drawings others : List Drawing} (h : drawings.Perm others) :
    s.drawAll drawings = s.drawAll others :=
  h.foldl_eq' (fun d _ e _ t => t.draw_comm d.sprite d.origin e.sprite e.origin) s

/-- Two draws of the same, wherever they stand, can be left out. -/
theorem drawAll_twice (before between later : List Drawing) (d : Drawing) :
    s.drawAll (before ++ d :: (between ++ d :: later)) = s.drawAll (before ++ (between ++ later)) := by
  have htogether : (before ++ d :: (between ++ d :: later)).Perm (d :: d :: (before ++ (between ++ later))) := by
    refine List.perm_middle.trans (.cons d ?_)
    rw [← List.append_assoc, ← List.append_assoc]
    exact List.perm_middle
  calc s.drawAll (before ++ d :: (between ++ d :: later))
      = s.drawAll (d :: d :: (before ++ (between ++ later))) := s.drawAll_of_perm htogether
    _ = ((s.draw d.sprite d.origin).draw d.sprite d.origin).drawAll (before ++ (between ++ later)) := rfl
    _ = s.drawAll (before ++ (between ++ later)) := by rw [draw_draw]

/-- **Draws commute and cancel.** Draws, of whatever rows at whatever places, leave the same screen in every order,
and without two of them that are the same. So a draw made twice leaves a screen as it was, and the second time turns
a pixel off exactly if the first one turned a pixel on. -/
theorem draws_commute_and_cancel :
    (∀ drawings others : List Drawing, drawings.Perm others → s.drawAll drawings = s.drawAll others) ∧
    (∀ before between later d,
      s.drawAll (before ++ d :: (between ++ d :: later)) = s.drawAll (before ++ (between ++ later))) ∧
    ∀ d : Drawing,
      Sprite.ofInts d.rows = .ok d.sprite ∧
      (s.draw d.sprite d.origin).draw d.sprite d.origin = s ∧
      ((s.draw d.sprite d.origin).overdraws d.sprite d.origin = true ↔
        ∃ p, s.lit p = false ∧ (s.draw d.sprite d.origin).lit p = true) := by
  refine ⟨fun _ _ h => s.drawAll_of_perm h, s.drawAll_twice, fun d => ⟨d.ofInts_rows, ?_, ?_⟩⟩
  · exact s.draw_draw d.sprite d.origin
  · exact s.overdraws_draw_iff d.sprite d.origin

/-- Two digits that overlap at a corner of the screen, in both orders. -/
theorem draws_commute_and_cancel_corner :
    blank.drawAll [⟨[240, 144, -1], 62, 30, by decide⟩, ⟨[255, 513], -1, 95, by decide⟩] =
      blank.drawAll [⟨[255, 513], -1, 95, by decide⟩, ⟨[240, 144, -1], 62, 30, by decide⟩] :=
  (blank.draws_commute_and_cancel).1 _ _ (.swap _ _ _)

end Screen

end Chip8
