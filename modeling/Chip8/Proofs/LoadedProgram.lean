import Chip8.Machine.Action
import Chip8.Proofs.CheckedAccess

/-!
# Programs that a host gives

A host gives a program as bytes or as a list of integers. The list may hold anything: it is looked at as a whole before
a byte of the memory changes, so a program is loaded altogether or not at all.

* `Program.Refused` — why integers are no program, the first of three reasons. `ofSource_eq_error_iff` — and then, and
  only then, they are refused.
* `ofSource_of_not_refused` — all others become the program with these bytes.
* `read_load`, `read_load_of_outside`, `word_load` — the memory after a program was loaded, byte by byte and word by word.
* `load_all_or_nothing` — so loading does all of its work or none.
-/

set_option autoImplicit false

namespace Chip8

namespace Program

/-- The integers of a program as a host gives it. -/
def Source.values : Source → List Int
  | .bytes bs => bs.map fun b => (b.toNat : Int)
  | .items ns => ns

/-- An integer is a signed 64-bit number. -/
def IsWord (v : Int) : Prop := -0x8000000000000000 ≤ v ∧ v ≤ 0x7FFFFFFFFFFFFFFF

theorem fitsWord_iff_isWord {v : Int} : fitsWord v = true ↔ IsWord v := by
  rw [fitsWord_iff, IsWord]
  omega

instance (v : Int) : Decidable (IsWord v) := decidable_of_iff _ fitsWord_iff_isWord

/-- Why integers are no program, the first reason of three. -/
inductive Refused (values : List Int) : Error → Prop
  /-- One of them is no signed 64-bit number. -/
  | tooWide (h : ∃ v ∈ values, ¬ IsWord v) : Refused values .programItemTooWide
  /-- They are more than the program area has bytes. -/
  | tooMany (hwords : ∀ v ∈ values, IsWord v) (h : 3584 < values.length) :
      Refused values (.fault (.programTooLarge values.length 3584))
  /-- One of them is no byte. -/
  | notBytes (hwords : ∀ v ∈ values, IsWord v) (hfits : values.length ≤ 3584) (h : ∃ v ∈ values, ¬ IsByte v) :
      Refused values .programItemNotAByte

variable {values : List Int} {source : Source} {e : Error}

theorem all_fitsWord_iff : values.all fitsWord = true ↔ ∀ v ∈ values, IsWord v := by
  simp only [List.all_eq_true, fitsWord_iff_isWord]

theorem all_below_iff : values.all (below 256) = true ↔ ∀ v ∈ values, IsByte v := by
  simp only [List.all_eq_true, below_iff_isByte]

/-- Integers are refused for the first reason that there is. -/
theorem ofItems_of_refused (h : Refused values e) : ofItems values = .error e := by
  unfold ofItems
  cases h with
  | tooWide h =>
    have hwords : ¬ ∀ v ∈ values, IsWord v := by simpa using h
    rw [if_neg (mt all_fitsWord_iff.1 hwords)]
  | tooMany hwords h =>
    rw [if_pos (all_fitsWord_iff.2 hwords), dif_neg (Nat.not_le_of_lt h)]
    rfl
  | notBytes hwords hfits h =>
    have hbytes : ¬ ∀ v ∈ values, IsByte v := by simpa using h
    rw [if_pos (all_fitsWord_iff.2 hwords), dif_pos hfits, if_neg (mt all_below_iff.1 hbytes)]

/-- Integers that are not refused are the bytes of a program. -/
theorem ofItems_of_not_refused (h : ∀ e, ¬ Refused values e) :
    ∃ p, ofItems values = .ok p ∧ p.bytes.map (fun b => (b.toNat : Int)) = values := by
  have hwords : ∀ v ∈ values, IsWord v := fun v hv =>
    Decidable.byContradiction fun hout => h _ (.tooWide ⟨v, hv, hout⟩)
  have hfits : values.length ≤ 3584 := Nat.le_of_not_lt fun hlong => h _ (.tooMany hwords hlong)
  have hbytes : ∀ v ∈ values, IsByte v := fun v hv =>
    Decidable.byContradiction fun hout => h _ (.notBytes hwords hfits ⟨v, hv, hout⟩)
  refine ⟨⟨values.map UInt8.ofInt, by rw [List.length_map]; exact hfits⟩, ?_, ?_⟩
  · unfold ofItems
    rw [if_pos (all_fitsWord_iff.2 hwords), dif_pos hfits, if_pos (all_below_iff.2 hbytes)]
  · have hself : values.map ((fun b : UInt8 => (b.toNat : Int)) ∘ UInt8.ofInt) = values.map id :=
      List.map_congr_left fun v hv => (hbytes v hv).toNat_ofInt
    rw [List.map_map, hself, List.map_id]

/-- Bytes are the same program as the integers that they are. -/
theorem ofSource_eq_ofItems (source : Source) : ofSource source = ofItems source.values := by
  cases source with
  | bytes bs => exact (ofSource_items_natCast bs).symm
  | items ns => rfl

/-- **A host's program is refused for the first reason that there is**, and if there is none it is not refused. -/
theorem ofSource_eq_error_iff : ofSource source = .error e ↔ Refused source.values e := by
  rw [ofSource_eq_ofItems]
  refine ⟨fun h => ?_, ofItems_of_refused⟩
  by_cases hrefused : ∃ e', Refused source.values e'
  · obtain ⟨e', he'⟩ := hrefused
    rw [ofItems_of_refused he'] at h
    cases h
    exact he'
  · obtain ⟨p, hp, -⟩ := ofItems_of_not_refused (not_exists.1 hrefused)
    rw [hp] at h
    cases h

theorem ofSource_of_not_refused (h : ∀ e, ¬ Refused source.values e) :
    ∃ p, ofSource source = .ok p ∧ p.bytes.map (fun b => (b.toNat : Int)) = source.values := by
  rw [ofSource_eq_ofItems]
  exact ofItems_of_not_refused h

end Program

namespace Memory

variable (m : Memory) (p : Program)

/-! ## The memory after a program was loaded -/

/-- The bytes of a program stand in their order from the start of the program area on. -/
theorem read_load {k : Nat} {b : UInt8} (h : p.bytes[k]? = some b) :
    (m.load p).read (Program.start + k : Nat) = .ok b := by
  obtain ⟨hk, -⟩ := List.getElem?_eq_some_iff.1 h
  have hfits := p.length_le
  have hstart : Program.start = 512 := rfl
  have hsize : p.size = p.bytes.length := rfl
  rw [read_of_inside _ (by unfold Inside; omega), Int.toNat_natCast, byteAt_load, if_pos (by omega),
    Nat.add_sub_cancel_left, h, Option.getD_some]

/-- Everything outside a program stays. -/
theorem read_load_of_outside {a : Int} (h : a < 0x200 ∨ 0x200 + p.size ≤ a) : (m.load p).read a = m.read a := by
  have hstart : Program.start = 512 := rfl
  by_cases ha : Inside a
  · rw [read_of_inside _ ha, read_of_inside _ ha]
    unfold Inside at ha
    rw [byteAt_load, if_neg (by omega)]
  · rw [read_of_outside _ ha, read_of_outside _ ha]

/-- Two bytes of a program are read as a word. -/
theorem word_load {k : Nat} {high low : UInt8} (hhigh : p.bytes[k]? = some high) (hlow : p.bytes[k + 1]? = some low) :
    (m.load p).word (Program.start + k : Nat) = .ok (256 * high.toNat + low.toNat) := by
  have hnext : ((Program.start + k : Nat) : Int) + 1 = (Program.start + (k + 1) : Nat) := rfl
  rw [word_eq_bind, hnext, m.read_load p hhigh, m.read_load p hlow]
  rfl

end Memory

namespace Machine

open Program (Refused ofSource_eq_error_iff ofSource_of_not_refused)

/-- A machine refuses what is no program. -/
theorem failure_loadFrom (m : Machine) (source : Program.Source) (e : Error) :
    (m.loadFrom source).failure = some e ↔ Program.ofSource source = .error e := by
  rw [loadFrom_eq]
  cases Program.ofSource source <;> simp [Outcome.done, Outcome.fail]

/-- **A program is loaded altogether or not at all.** A machine, and its memory alone, refuse what a host gives for the
first of three reasons: it holds an integer that is no signed 64-bit number, it is too long for the program area, it
holds one that is no byte. Then nothing at all is changed. Otherwise they load it. Its integers then stand in their
order from the start of the program area on, and every other byte of the memory is the same, as is every other part of
the machine but the program that it keeps, which is this one. The size that is told is the number of the integers; the
slice of that size at the start of the program area gives them again, and so do the words there. -/
theorem load_all_or_nothing (m : Machine) (source : Program.Source) :
    let values := source.values
    let o := m.loadFrom source
    (∀ e, o.failure = some e ↔ Refused values e) ∧
    (∀ e, m.memory.loadFrom source = .error e ↔ Refused values e) ∧
    (∀ e, Refused values e → o = .fail m e ∧ m.loadMemory source = .fail m e) ∧
    ((∀ e, ¬ Refused values e) → ∃ (memory : Memory) (p : Program),
      m.memory.loadFrom source = .ok (memory, values.length) ∧
      m.loadMemory source = .done { m with memory := memory } ∧
      o = .done { m with memory := memory, program := some p } [.loaded values.length] ∧
      p.bytes.map (fun b => (b.toNat : Int)) = values ∧
      (∀ (k : Nat) (v : Int), values[k]? = some v → ∃ b, memory.read (0x200 + k) = .ok b ∧ (b.toNat : Int) = v) ∧
      (∀ a : Int, a < 0x200 ∨ 0x200 + values.length ≤ a → memory.read a = m.memory.read a) ∧
      memory.slice 0x200 values.length = .ok p.bytes ∧
      ∀ (k : Nat) (v w : Int), values[k]? = some v → values[k + 1]? = some w →
        ∃ word : Nat, memory.word (0x200 + k) = .ok word ∧ (word : Int) = 256 * v + w) := by
  intro values o
  refine ⟨fun e => ?_, fun e => ?_, fun e he => ?_, fun hnone => ?_⟩
  · rw [← ofSource_eq_error_iff]
    exact m.failure_loadFrom source e
  · rw [← ofSource_eq_error_iff, Memory.loadFrom]
    cases Program.ofSource source <;> simp
  · have hsource := ofSource_eq_error_iff.2 he
    have ho : o = _ := m.loadFrom_eq source
    rw [hsource] at ho
    exact ⟨ho, by rw [loadMemory, hsource]⟩
  · obtain ⟨p, hsource, hbytes⟩ := ofSource_of_not_refused hnone
    have hvalues : values = p.bytes.map fun b => (b.toNat : Int) := hbytes.symm
    have hsize : values.length = p.size := by rw [hvalues, List.length_map, Program.size]
    have hbyte : ∀ {k : Nat} {v : Int}, values[k]? = some v → ∃ b, p.bytes[k]? = some b ∧ (b.toNat : Int) = v := by
      intro k v hv
      rw [hvalues, List.getElem?_map] at hv
      exact Option.map_eq_some_iff.1 hv
    have ho : o = _ := m.loadFrom_eq source
    rw [hsource] at ho
    refine ⟨m.memory.load p, p, ?_, ?_, ?_, hbytes, fun k v hv => ?_, fun a ha => ?_, ?_, fun k v w hv hw => ?_⟩
    · rw [Memory.loadFrom, hsource, hsize]
    · rw [loadMemory, hsource]
    · rw [ho, hsize]
    · obtain ⟨b, hb, hbv⟩ := hbyte hv
      exact ⟨b, m.memory.read_load p hb, hbv⟩
    · exact m.memory.read_load_of_outside p (by rw [← hsize]; exact ha)
    · rw [hsize]
      exact m.memory.slice_load p
    · obtain ⟨high, hhigh, rfl⟩ := hbyte hv
      obtain ⟨low, hlow, rfl⟩ := hbyte hw
      exact ⟨_, m.memory.word_load p hhigh hlow, by omega⟩

/-- A list that is refused for the first of two reasons, one that is too long for its items to be looked at as bytes,
and two bytes. -/
theorem load_all_or_nothing_refused :
    let wide : Program.Source := .items [256, 0x8000000000000000]
    let long : Program.Source := .items (List.replicate 3585 256)
    (fresh.loadFrom wide).failure = some .programItemTooWide ∧
      fresh.loadFrom long = .fail fresh (.fault (.programTooLarge 3585 3584)) ∧
      ∃ memory, fresh.memory.loadFrom (.bytes [0x12, 0x34]) = .ok (memory, 2) ∧ memory.word 0x200 = .ok 0x1234 := by
  intro wide long
  have hwide : Refused wide.values .programItemTooWide := .tooWide (by decide)
  have hlong : Refused long.values (.fault (.programTooLarge 3585 3584)) := by
    have hwords : ∀ v ∈ long.values, Program.IsWord v := fun v hv => by
      rw [List.eq_of_mem_replicate hv]
      decide
    have hlength : long.values.length = 3585 := List.length_replicate
    rw [← hlength]
    exact .tooMany hwords (by rw [hlength]; decide)
  have hnone : ∀ e, ¬ Refused [0x12, 0x34] e := by
    intro e h
    cases h with
    | tooWide h => exact absurd h (by decide)
    | tooMany _ h => exact absurd h (by decide)
    | notBytes _ _ h => exact absurd h (by decide)
  obtain ⟨hfailure, -⟩ := load_all_or_nothing fresh wide
  obtain ⟨-, -, hrefused, -⟩ := load_all_or_nothing fresh long
  obtain ⟨-, -, -, hloaded⟩ := load_all_or_nothing fresh (.bytes [0x12, 0x34])
  obtain ⟨memory, p, hmemory, -, -, -, -, -, -, hword⟩ := hloaded hnone
  obtain ⟨word, hread, hvalue⟩ := hword 0 0x12 0x34 rfl rfl
  refine ⟨(hfailure _).2 hwide, (hrefused _ hlong).1, memory, hmemory, ?_⟩
  obtain rfl : word = 0x1234 := Int.ofNat.inj hvalue
  exact hread

end Machine

end Chip8
