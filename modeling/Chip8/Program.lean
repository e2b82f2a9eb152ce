import Chip8.Bounded

/-!
# Programs

A program is a block of bytes that fits between the address where programs start and the end of the memory.
It is made from bytes or from a list of integers, which are checked in this order: every item is a signed
64-bit number, the list is short enough, every item is a byte.

* `Program.ofSource_items_natCast` — on items that are bytes, both ways agree.
-/

set_option autoImplicit false

namespace Chip8

/-- A block of bytes that fits into the program area. -/
structure Program where
  bytes : List UInt8
  length_le : bytes.length ≤ 3584 := by decide
  deriving DecidableEq, Repr

namespace Program

/-- The address of a program's first byte. -/
def start : Nat := 0x200

/-- The greatest number of bytes in a program. -/
def capacity : Nat := 3584

def size (p : Program) : Nat := p.bytes.length

def ofBytes (bs : List UInt8) : Except Fault Program :=
  if h : bs.length ≤ 3584 then .ok ⟨bs, h⟩ else .error (.programTooLarge bs.length capacity)

@[simp] theorem ofBytes_bytes (p : Program) : ofBytes p.bytes = .ok p := dif_pos p.length_le

/-- Programs reach to the end of the memory. -/
theorem start_add_capacity : start + capacity = 4096 := rfl

/-- Whether an item is a signed 64-bit number. -/
def fitsWord : Int → Bool
  | .ofNat n => decide (n < 0x8000000000000000)
  | .negSucc n => decide (n < 0x8000000000000000)

theorem fitsWord_iff (v : Int) :
    fitsWord v = true ↔ -0x8000000000000000 ≤ v ∧ v < 0x8000000000000000 := by
  cases v with
  | ofNat n =>
    simp only [fitsWord, decide_eq_true_eq, Int.ofNat_eq_natCast]
    omega
  | negSucc n =>
    simp only [fitsWord, decide_eq_true_eq]
    omega

def ofItems (items : List Int) : Except Error Program :=
  if items.all fitsWord then
    if h : items.length ≤ 3584 then
      if items.all (below 256) then .ok ⟨items.map UInt8.ofInt, by simpa using h⟩
      else .error .programItemNotAByte
    else .error (.fault (.programTooLarge items.length capacity))
  else .error .programItemTooWide

theorem ofItems_natCast (bs : List UInt8) :
    ofItems (bs.map fun b => (b.toNat : Int)) =
      match ofBytes bs with
      | .ok p => .ok p
      | .error f => .error (.fault f) := by
  have hw : (bs.map fun b => (b.toNat : Int)).all fitsWord = true := by
    rw [List.all_eq_true]
    intro v hv
    obtain ⟨b, _, rfl⟩ := List.mem_map.1 hv
    have := b.toNat_lt
    rw [fitsWord_iff]
    omega
  have hb : (bs.map fun b => (b.toNat : Int)).all (below 256) = true := by
    rw [List.all_eq_true]
    intro v hv
    obtain ⟨b, _, rfl⟩ := List.mem_map.1 hv
    exact below_byte b
  by_cases h : bs.length ≤ 3584
  · simp [ofItems, ofBytes, hw, hb, h, Function.comp_def, ofInt_toNat]
  · simp [ofItems, ofBytes, hw, h]

/-- A program as a host gives it. -/
inductive Source where
  | bytes (bs : List UInt8)
  | items (ns : List Int)
  deriving DecidableEq, Repr

/-- The program that a host gives. -/
def ofSource : Source → Except Error Program
  | .bytes bs =>
    match ofBytes bs with
    | .ok p => .ok p
    | .error f => .error (.fault f)
  | .items ns => ofItems ns

/-- Bytes are the same program when they are given as integers. -/
theorem ofSource_items_natCast (bs : List UInt8) :
    ofSource (.items (bs.map fun b => (b.toNat : Int))) = ofSource (.bytes bs) :=
  ofItems_natCast bs

end Program

end Chip8
