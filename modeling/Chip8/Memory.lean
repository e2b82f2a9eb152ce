import Chip8.Font
import Chip8.Program

/-!
# Memory

Four kilobytes. The font stands at the lowest addresses, programs start at `Program.start`. An access
outside is a fault: no address wraps around.

* `byteAt_put`, `byteAt_putAll`, `putAll_append` — a write changes the bytes it covers and no others.
* `slice_eq`, `sliceFault_eq_some`, `sliceFault_eq_none_iff` — what a slice gives, or why it fails.
* `byteAt_fresh`, `byteAt_load`, `slice_load` — what a memory holds at first and after a program was loaded.
* `clear_eq_fresh` — nothing of what it held is left after it was cleared.
* `length_block`, `getElem_block`, `block_congr` — a block has the length that was asked for and the bytes that stand
  there, and depends on them alone.
* `ext_byteAt` — memories with the same bytes are the same.
-/

set_option autoImplicit false

namespace Chip8

/-- The bytes of the memory. -/
structure Memory where
  bytes : Vector UInt8 4096
  deriving DecidableEq, Repr

namespace Memory

/-! ## Bytes and blocks -/

/-- The byte at a place, zero outside the memory. -/
def byteAt (m : Memory) (a : Nat) : UInt8 := m.bytes[a]?.getD 0

/-- Put a byte at a place; outside the memory nothing happens. -/
def put (m : Memory) (a : Nat) (b : UInt8) : Memory := ⟨m.bytes.setIfInBounds a b⟩

/-- Put bytes at a place and the places after it. -/
def putAll (m : Memory) (a : Nat) : List UInt8 → Memory
  | [] => m
  | b :: bs => (m.put a b).putAll (a + 1) bs

/-- The bytes at a place and the places after it. -/
def block (m : Memory) (a n : Nat) : List UInt8 := (List.range n).map fun k => m.byteAt (a + k)

@[simp] theorem length_block (m : Memory) (a n : Nat) : (m.block a n).length = n := by
  simp [block]

theorem getElem_block (m : Memory) (a n : Nat) {k : Nat} (hk : k < (m.block a n).length) :
    (m.block a n)[k] = m.byteAt (a + k) := by
  simp only [block, List.getElem_map, List.getElem_range]

theorem getElem?_block (m : Memory) (a : Nat) {k n : Nat} (hk : k < n) :
    (m.block a n)[k]? = some (m.byteAt (a + k)) := by
  have hlt : k < (m.block a n).length := by rwa [length_block]
  rw [List.getElem?_eq_getElem hlt, getElem_block]

/-- A block has nothing but the bytes in it. -/
theorem block_congr {m m' : Memory} {a n : Nat} (h : ∀ c, a ≤ c → c < a + n → m.byteAt c = m'.byteAt c) :
    m.block a n = m'.block a n := by
  refine List.map_congr_left fun k hk => ?_
  have hlt : k < n := List.mem_range.1 hk
  exact h (a + k) (by omega) (by omega)

/-- A memory is its bytes. -/
theorem ext_byteAt {m m' : Memory} (h : ∀ a < 4096, m.byteAt a = m'.byteAt a) : m = m' := by
  obtain ⟨bytes⟩ := m
  obtain ⟨bytes'⟩ := m'
  refine congrArg Memory.mk (Vector.ext fun a ha => ?_)
  simpa [byteAt, ha] using h a ha

theorem byteAt_put (m : Memory) {a : Nat} (ha : a < 4096) (b : UInt8) (c : Nat) :
    (m.put a b).byteAt c = if c = a then b else m.byteAt c := by
  rw [byteAt, put, Vector.getElem?_setIfInBounds]
  by_cases h : a = c
  · subst h
    rw [if_pos rfl, if_pos ha, if_pos rfl]
    rfl
  · rw [if_neg h, if_neg (Ne.symm h), byteAt]

theorem byteAt_putAll (m : Memory) (a : Nat) (bs : List UInt8) (ha : a + bs.length ≤ 4096) (c : Nat) :
    (m.putAll a bs).byteAt c =
      if a ≤ c ∧ c < a + bs.length then bs[c - a]?.getD 0 else m.byteAt c := by
  induction bs generalizing m a with
  | nil => rw [if_neg (by rw [List.length_nil]; omega), putAll]
  | cons b bs ih =>
    simp only [List.length_cons] at ha ⊢
    rw [putAll, ih _ _ (by omega), byteAt_put _ (by omega)]
    by_cases hc : c = a
    · subst hc
      rw [if_neg (by omega), if_pos rfl, if_pos (by omega)]
      simp
    · by_cases hin : a + 1 ≤ c ∧ c < a + 1 + bs.length
      · rw [if_pos hin, if_pos (by omega), show c - a = (c - (a + 1)) + 1 by omega]
        simp
      · rw [if_neg hin, if_neg hc, if_neg (by omega)]

/-- Bytes can be put down in two parts, one after the other. -/
theorem putAll_append (m : Memory) (a : Nat) (bs cs : List UInt8) :
    m.putAll a (bs ++ cs) = (m.putAll a bs).putAll (a + bs.length) cs := by
  induction bs generalizing m a with
  | nil => rfl
  | cons b bs ih => rw [List.cons_append, putAll, putAll, ih, List.length_cons, Nat.add_right_comm, Nat.add_assoc]

/-! ## Checked access -/

def read (m : Memory) (a : Int) : Except Fault UInt8 :=
  if below 4096 a then .ok (m.byteAt a.toNat) else .error (.outOfRange a)

/-- Put a value at an address. The address is checked first, then the value. -/
def write (m : Memory) (a v : Int) : Except Error Memory :=
  if below 4096 a then
    if below 256 v then .ok (m.put a.toNat (UInt8.ofInt v)) else .error .notAByte
  else .error (.fault (.outOfRange a))

theorem write_byte (m : Memory) {a : Nat} (ha : a < 4096) (b : UInt8) :
    m.write a b.toNat = .ok (m.put a b) := by
  rw [write, if_pos (below_natCast ⟨a, ha⟩), if_pos (below_byte b), ofInt_toNat, Int.toNat_natCast]

/-- The bytes at an address and after it. An empty slice is found anywhere; of any other the first address
is checked and then the last, and a negative count that passes both gives no bytes. -/
def slice (m : Memory) (a num : Int) : Except Fault (List UInt8) :=
  if num = 0 then .ok []
  else if below 4096 a then
    if below 4096 (a + num - 1) then .ok (m.block a.toNat num.toNat)
    else .error (.outOfRange (a + num - 1))
  else .error (.outOfRange a)

/-- The fault of a slice, read off its place and length alone. -/
def sliceFault (a n : Nat) : Option Fault :=
  if n = 0 then none
  else if 4096 ≤ a then some (.outOfRange a)
  else if 4096 < a + n then some (.outOfRange (a + n - 1 : Nat))
  else none

theorem sliceFault_of_outside {a n : Nat} (hn : 1 ≤ n) (ha : 4096 ≤ a) :
    sliceFault a n = some (.outOfRange a) := by
  rw [sliceFault, if_neg (by omega), if_pos ha]

theorem sliceFault_of_end {a n : Nat} (ha : a < 4096) (hl : 4096 < a + n) :
    sliceFault a n = some (.outOfRange (a + n - 1 : Nat)) := by
  rw [sliceFault, if_neg (by omega), if_neg (by omega), if_pos hl]

theorem sliceFault_of_inside {a n : Nat} (h : a + n ≤ 4096) (hn : 1 ≤ n) : sliceFault a n = none := by
  rw [sliceFault, if_neg (by omega), if_neg (by omega), if_neg (by omega)]

theorem sliceFault_eq_none_iff {a n : Nat} : sliceFault a n = none ↔ n = 0 ∨ a + n ≤ 4096 := by
  constructor
  · intro h
    refine Decidable.byContradiction fun hout => ?_
    by_cases ha : 4096 ≤ a
    · rw [sliceFault_of_outside (by omega) ha] at h
      cases h
    · rw [sliceFault_of_end (by omega) (by omega)] at h
      cases h
  · intro h
    by_cases hn : n = 0
    · exact if_pos hn
    · exact sliceFault_of_inside (by omega) (by omega)

/-- The fault of a slice comes from its first or from its last place. -/
theorem sliceFault_eq_some {a n : Nat} {f : Fault} (h : sliceFault a n = some f) :
    1 ≤ n ∧ ((4096 ≤ a ∧ f = .outOfRange a) ∨
      (a < 4096 ∧ 4096 < a + n ∧ f = .outOfRange (a + n - 1 : Nat))) := by
  obtain ⟨hn, -⟩ := Option.ite_none_left_eq_some.1 h
  refine ⟨by omega, ?_⟩
  rcases (by omega : 4096 ≤ a ∨ (a < 4096 ∧ 4096 < a + n) ∨ a + n ≤ 4096) with ha | ⟨ha, hl⟩ | ha
  · rw [sliceFault_of_outside (by omega) ha] at h
    cases h
    exact .inl ⟨ha, rfl⟩
  · rw [sliceFault_of_end ha hl] at h
    cases h
    exact .inr ⟨ha, hl, rfl⟩
  · rw [sliceFault_of_inside ha (by omega)] at h
    cases h

theorem slice_eq (m : Memory) (a n : Nat) :
    m.slice a n = match sliceFault a n with
      | some f => .error f
      | none => .ok (m.block a n) := by
  by_cases hn : n = 0
  · subst hn; rfl
  · have hlast : (a : Int) + n - 1 = (a + n - 1 : Nat) := by omega
    have ha : below 4096 (a : Int) = true ↔ a < 4096 := by rw [below_iff]; omega
    have hl : below 4096 ((a : Int) + n - 1) = true ↔ a + n ≤ 4096 := by rw [below_iff]; omega
    unfold slice sliceFault
    rw [if_neg (show ¬ (n : Int) = 0 by omega), if_neg hn]
    by_cases h : 4096 ≤ a
    · rw [if_neg (by rw [ha]; omega), if_pos h]
    · rw [if_pos (ha.2 (by omega)), if_neg h]
      by_cases he : 4096 < a + n
      · rw [if_neg (by rw [hl]; omega), if_pos he, hlast]
      · rw [if_pos (hl.2 (by omega)), if_neg he, Int.toNat_natCast, Int.toNat_natCast]

/-- The number that bytes write, most significant first. -/
def bigEndian (bs : List UInt8) : Nat := bs.foldl (fun n b => 256 * n + b.toNat) 0

/-- The word of two bytes at an address. -/
def word (m : Memory) (a : Int) : Except Fault Nat := (m.slice a 2).map bigEndian

/-! ## Contents -/

def size (_ : Memory) : Nat := 4096

def withFont (m : Memory) : Memory := m.putAll Font.start Font.bytes

/-- A memory that holds the font and zeros. -/
def fresh : Memory := withFont ⟨Vector.replicate 4096 0⟩

/-- Put zeros everywhere, and then the font. -/
def clear (m : Memory) : Memory := withFont ⟨m.bytes.map fun _ => 0⟩

def load (m : Memory) (p : Program) : Memory := m.putAll Program.start p.bytes

/-- Load the program that a host gives, and tell its size; what is none is refused. -/
def loadFrom (m : Memory) (source : Program.Source) : Except Error (Memory × Nat) :=
  match Program.ofSource source with
  | .ok p => .ok (m.load p, p.size)
  | .error e => .error e

theorem clear_eq_fresh (m : Memory) : m.clear = fresh := by
  have hzeros : m.bytes.map (fun _ => (0 : UInt8)) = Vector.replicate 4096 0 := by
    ext i hi
    simp
  rw [clear, hzeros, fresh]

theorem byteAt_load (m : Memory) (p : Program) (a : Nat) :
    (m.load p).byteAt a =
      if Program.start ≤ a ∧ a < Program.start + p.size then p.bytes[a - Program.start]?.getD 0
      else m.byteAt a := by
  have hfits := p.length_le
  exact byteAt_putAll m Program.start p.bytes (by unfold Program.start; omega) a

/-- **A program that was loaded stands where programs start**: the slice there gives its bytes. -/
theorem slice_load (m : Memory) (p : Program) : (m.load p).slice Program.start p.size = .ok p.bytes := by
  have hfits := p.length_le
  have hstart : Program.start = 512 := rfl
  have hsize : p.size = p.bytes.length := rfl
  have hinside : sliceFault Program.start p.size = none := by
    unfold sliceFault
    split
    · rfl
    · rw [if_neg (by omega), if_neg (by omega)]
  rw [slice_eq, hinside]
  refine congrArg Except.ok (List.ext_getElem (by rw [length_block, hsize]) fun k hk hk' => ?_)
  rw [getElem_block, byteAt_load, if_pos (by omega), Nat.add_sub_cancel_left, List.getElem?_eq_getElem hk']
  rfl

theorem byteAt_fresh (a : Nat) : fresh.byteAt a = Font.bytes[a]?.getD 0 := by
  have hblank : (⟨Vector.replicate 4096 0⟩ : Memory).byteAt a = 0 := by
    by_cases h : a < 4096 <;> simp [byteAt, h]
  have hlen := Font.length_bytes
  have hstart : Font.start = 0 := rfl
  rw [fresh, withFont, hstart, byteAt_putAll _ _ _ (by omega), hblank]
  by_cases h : a < Font.bytes.length
  · rw [if_pos (by omega), Nat.sub_zero]
  · rw [if_neg (by omega), List.getElem?_eq_none (by omega), Option.getD_none]

/-- The contents as text: 128 lines of 32 bytes in base 16. -/
def dump (m : Memory) : String :=
  "\n".intercalate ((List.range 128).map fun k => String.ofList (Numeral.bytes (m.block (32 * k) 32)))

end Memory

end Chip8
