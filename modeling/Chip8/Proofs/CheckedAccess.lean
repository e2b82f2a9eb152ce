import Chip8.Memory
import Mathlib.Data.List.Induction

/-!
# Checked access to the memory

A slice is checked at its first and its last address, and a word is a slice of two bytes. That is enough: every other
access agrees with reading byte by byte, for integers of any size and sign, and what is read at an address is what was
last written there.

* `IsByte` — which integers are bytes. `Inside`, `read_of_inside`, `read_of_outside` — which addresses can be read.
* `slice_cases` — the courses of a slice. `slice_eq_ok_iff`, `slice_eq_error_iff` — which slices there are, and why
  there are no others.
* `length_slice`, `getElem_slice` — a slice has as many bytes as were asked for, each of them the byte of its address.
* `word_eq_bind` — a word is read byte by byte.
* `Write`, `afterWrites` — writes of any values to any addresses. `lastWritten` — what they left at an address.
* `checked_access` — all of this together.
-/

set_option autoImplicit false

namespace Chip8

/-- An integer is a byte. -/
def IsByte (v : Int) : Prop := 0 ≤ v ∧ v ≤ 255

theorem below_iff_isByte {v : Int} : below 256 v = true ↔ IsByte v := by
  rw [below_iff, IsByte]
  omega

instance (v : Int) : Decidable (IsByte v) := decidable_of_iff _ below_iff_isByte

theorem IsByte.toNat_ofInt {v : Int} (h : IsByte v) : ((UInt8.ofInt v).toNat : Int) = v := by
  unfold IsByte at h
  rw [Chip8.toNat_ofInt]
  omega

namespace Memory

/-- An integer is an address of the memory. -/
def Inside (a : Int) : Prop := 0 ≤ a ∧ a ≤ 4095

theorem below_iff_inside {a : Int} : below 4096 a = true ↔ Inside a := by
  rw [below_iff, Inside]
  omega

instance (a : Int) : Decidable (Inside a) := decidable_of_iff _ below_iff_inside

variable (m : Memory)

/-! ## Bytes, slices and words -/

theorem read_of_inside {a : Int} (ha : Inside a) : m.read a = .ok (m.byteAt a.toNat) :=
  if_pos (below_iff_inside.2 ha)

theorem read_of_outside {a : Int} (ha : ¬ Inside a) : m.read a = .error (.outOfRange a) :=
  if_neg (mt below_iff_inside.1 ha)

theorem read_eq_ok_iff {a : Int} : (∃ b, m.read a = .ok b) ↔ Inside a := by
  by_cases ha : Inside a
  · simp [m.read_of_inside ha, ha]
  · simp [m.read_of_outside ha, ha]

/-- **Every slice is one of these**: it is empty, or its first address is outside, or only its last one is, or both are
addresses of the memory. -/
theorem slice_cases (a num : Int) :
    (num = 0 ∧ m.slice a num = .ok []) ∨
    (num ≠ 0 ∧ ¬ Inside a ∧ m.slice a num = .error (.outOfRange a)) ∨
    (num ≠ 0 ∧ Inside a ∧ ¬ Inside (a + num - 1) ∧ m.slice a num = .error (.outOfRange (a + num - 1))) ∨
    (num ≠ 0 ∧ Inside a ∧ Inside (a + num - 1) ∧ m.slice a num = .ok (m.block a.toNat num.toNat)) := by
  unfold slice
  by_cases hnum : num = 0
  · exact .inl ⟨hnum, if_pos hnum⟩
  · rw [if_neg hnum]
    by_cases ha : Inside a
    · rw [if_pos (below_iff_inside.2 ha)]
      by_cases hlast : Inside (a + num - 1)
      · exact .inr (.inr (.inr ⟨hnum, ha, hlast, if_pos (below_iff_inside.2 hlast)⟩))
      · exact .inr (.inr (.inl ⟨hnum, ha, hlast, if_neg (mt below_iff_inside.1 hlast)⟩))
    · exact .inr (.inl ⟨hnum, ha, if_neg (mt below_iff_inside.1 ha)⟩)

/-- **A slice succeeds if it is empty or both its ends are in the memory**, and not otherwise. -/
theorem slice_eq_ok_iff {a num : Int} :
    (∃ bs, m.slice a num = .ok bs) ↔ num = 0 ∨ Inside a ∧ Inside (a + num - 1) := by
  rcases m.slice_cases a num with ⟨hnum, h⟩ | ⟨hnum, ha, h⟩ | ⟨hnum, ha, hlast, h⟩ | ⟨hnum, ha, hlast, h⟩ <;> rw [h]
  · simp [hnum]
  · simp [hnum, ha]
  · simp [hnum, hlast]
  · simp [ha, hlast]

theorem slice_eq_error_iff {a num : Int} {f : Fault} :
    m.slice a num = .error f ↔ num ≠ 0 ∧
      (¬ Inside a ∧ f = .outOfRange a ∨
        Inside a ∧ ¬ Inside (a + num - 1) ∧ f = .outOfRange (a + num - 1)) := by
  rcases m.slice_cases a num with ⟨hnum, h⟩ | ⟨hnum, ha, h⟩ | ⟨hnum, ha, hlast, h⟩ | ⟨hnum, ha, hlast, h⟩ <;> rw [h]
  · simp [hnum]
  · simp [hnum, ha, eq_comm]
  · simp [hnum, ha, hlast, eq_comm]
  · simp [ha, hlast]

theorem length_slice {a num : Int} {bs : List UInt8} (h : m.slice a num = .ok bs) :
    (bs.length : Int) = max num 0 := by
  rcases m.slice_cases a num with ⟨hnum, hs⟩ | ⟨-, -, hs⟩ | ⟨-, -, -, hs⟩ | ⟨hnum, -, -, hs⟩ <;> rw [hs] at h <;> cases h
  · rw [List.length_nil]
    omega
  · rw [length_block]
    omega

/-- **The bytes of a slice are those of its addresses**, each of which is in the memory. -/
theorem getElem_slice {a num : Int} {bs : List UInt8} (h : m.slice a num = .ok bs) {k : Nat} (hk : k < bs.length) :
    m.read (a + k) = .ok bs[k] := by
  rcases m.slice_cases a num with ⟨-, hs⟩ | ⟨-, -, hs⟩ | ⟨-, -, -, hs⟩ | ⟨-, ha, hlast, hs⟩ <;> rw [hs] at h <;> cases h
  · cases hk
  · rw [length_block] at hk
    unfold Inside at ha hlast
    rw [m.read_of_inside (by unfold Inside; omega), getElem_block, show (a + k).toNat = a.toNat + k by omega]

/-- **A word is read byte by byte**, and fails as the first byte does that cannot be read. -/
theorem word_eq_bind (a : Int) :
    m.word a = (m.read a).bind fun high => (m.read (a + 1)).map fun low => 256 * high.toNat + low.toNat := by
  have hnext : a + 2 - 1 = a + 1 := by omega
  unfold word
  rcases m.slice_cases a 2 with ⟨h, -⟩ | ⟨-, ha, hs⟩ | ⟨-, ha, hlast, hs⟩ | ⟨-, ha, hlast, hs⟩
  · cases h
  · rw [hs, m.read_of_outside ha]
    rfl
  · rw [hnext] at hlast hs
    rw [hs, m.read_of_inside ha, m.read_of_outside hlast]
    rfl
  · rw [hnext] at hlast
    rw [hs, m.read_of_inside ha, m.read_of_inside hlast]
    have hplace : (a + 1).toNat = a.toNat + 1 := by
      have := ha.1
      omega
    rw [hplace]
    simp [Except.map, Except.bind, block, bigEndian, List.range_succ]

/-! ## Writes -/

/-- A call for a write. The address and the value may be any integers. -/
structure Write where
  address : Int
  value : Int
  deriving DecidableEq, Repr

/-- A write is accepted if it puts a byte at an address of the memory. -/
def Write.Accepted (w : Write) : Prop := Inside w.address ∧ IsByte w.value

instance (w : Write) : Decidable w.Accepted := inferInstanceAs (Decidable (_ ∧ _))

/-- The memory after a write; one that is refused leaves it as it was. -/
def afterWrite (m : Memory) (w : Write) : Memory :=
  match m.write w.address w.value with
  | .ok n => n
  | .error _ => m

def afterWrites (m : Memory) (writes : List Write) : Memory := writes.foldl afterWrite m

/-- The value that was written to an address last, if one was. -/
def lastWritten (a : Int) (writes : List Write) : Option Int :=
  (writes.filter fun w => w.address = a ∧ w.Accepted).getLast?.map Write.value

theorem write_of_accepted {w : Write} (h : w.Accepted) :
    m.write w.address w.value = .ok (m.put w.address.toNat (UInt8.ofInt w.value)) := by
  rw [write, if_pos (below_iff_inside.2 h.1), if_pos (below_iff_isByte.2 h.2)]

theorem write_of_not_accepted {w : Write} (h : ¬ w.Accepted) :
    m.write w.address w.value =
      .error (if Inside w.address then .notAByte else .fault (.outOfRange w.address)) := by
  unfold write
  by_cases ha : Inside w.address
  · have hvalue : ¬ IsByte w.value := fun hvalue => h ⟨ha, hvalue⟩
    rw [if_pos (below_iff_inside.2 ha), if_neg (mt below_iff_isByte.1 hvalue), if_pos ha]
  · rw [if_neg (mt below_iff_inside.1 ha), if_neg ha]

theorem write_eq_ok_iff {w : Write} : (∃ n, m.write w.address w.value = .ok n) ↔ w.Accepted := by
  by_cases h : w.Accepted
  · simp [m.write_of_accepted h, h]
  · simp [m.write_of_not_accepted h, h]

/-- One write changes what is read at its address, if it is accepted, and nothing else. -/
theorem read_afterWrite (w : Write) (a : Int) :
    (m.afterWrite w).read a = if w.address = a ∧ w.Accepted then .ok (UInt8.ofInt w.value) else m.read a := by
  unfold afterWrite
  by_cases h : w.Accepted
  · have hw := h.1
    rw [m.write_of_accepted h]
    dsimp only
    by_cases ha : Inside a
    · rw [read_of_inside _ ha, read_of_inside _ ha]
      unfold Inside at hw ha
      rw [byteAt_put _ (by omega)]
      by_cases hsame : w.address = a
      · rw [if_pos (by rw [hsame]), if_pos ⟨hsame, h⟩]
      · rw [if_neg (by omega), if_neg fun hboth => hsame hboth.1]
    · rw [read_of_outside _ ha, read_of_outside _ ha, if_neg]
      rintro ⟨rfl, -⟩
      exact ha hw
  · rw [m.write_of_not_accepted h]
    exact (if_neg fun hboth => h hboth.2).symm

theorem lastWritten_concat (a : Int) (writes : List Write) (w : Write) :
    lastWritten a (writes ++ [w]) =
      if w.address = a ∧ w.Accepted then some w.value else lastWritten a writes := by
  unfold lastWritten
  rw [List.filter_append]
  by_cases h : w.address = a ∧ w.Accepted
  · simp [h]
  · simp [h]

/-- **What is read is what was written last**, or what was there before. -/
theorem read_afterWrites (writes : List Write) (a : Int) :
    (m.afterWrites writes).read a = (lastWritten a writes).elim (m.read a) fun v => .ok (UInt8.ofInt v) := by
  induction writes using List.reverseRecOn with
  | nil => rfl
  | append_singleton writes w ih =>
    have hconcat : m.afterWrites (writes ++ [w]) = (m.afterWrites writes).afterWrite w := by
      rw [afterWrites, List.foldl_append]
      rfl
    rw [hconcat, read_afterWrite, lastWritten_concat, ih]
    split <;> rfl

/-- Only bytes are written. -/
theorem isByte_of_lastWritten {a v : Int} {writes : List Write} (h : lastWritten a writes = some v) : IsByte v := by
  obtain ⟨w, hw, rfl⟩ := Option.map_eq_some_iff.1 h
  have hmem := List.mem_of_getLast? hw
  rw [List.mem_filter, decide_eq_true_eq] at hmem
  exact hmem.2.2.2

/-- **Every access agrees with single bytes.** A byte can be read at the addresses of the memory. A slice of any number
of bytes at any place succeeds exactly if it is empty or its first and its last address are in the memory, and otherwise
tells the first of the two that is not. It has as many bytes as were asked for, none if that is a negative number, and
each is the byte of its address. A word is read byte by byte, and fails as the first byte does that cannot be read. A
write succeeds exactly if it puts a byte at an address of the memory. After any writes an address holds the value that
was last written there by one that succeeded, or what it held before. -/
theorem checked_access :
    (∀ a, (∃ b, m.read a = .ok b) ↔ Inside a) ∧
    (∀ a num : Int,
      ((∃ bs, m.slice a num = .ok bs) ↔ num = 0 ∨ Inside a ∧ Inside (a + num - 1)) ∧
      (∀ f, m.slice a num = .error f ↔ num ≠ 0 ∧
        (¬ Inside a ∧ f = .outOfRange a ∨
          Inside a ∧ ¬ Inside (a + num - 1) ∧ f = .outOfRange (a + num - 1))) ∧
      ∀ bs, m.slice a num = .ok bs →
        (bs.length : Int) = max num 0 ∧ ∀ (k : Nat) (hk : k < bs.length), m.read (a + k) = .ok bs[k]) ∧
    (∀ a : Int, m.word a =
      (m.read a).bind fun high => (m.read (a + 1)).map fun low => 256 * high.toNat + low.toNat) ∧
    (∀ w : Write, (∃ n, m.write w.address w.value = .ok n) ↔ w.Accepted) ∧
    ∀ writes a,
      (∀ v, lastWritten a writes = some v → ∃ b, (m.afterWrites writes).read a = .ok b ∧ (b.toNat : Int) = v) ∧
      (lastWritten a writes = none → (m.afterWrites writes).read a = m.read a) := by
  refine ⟨fun a => m.read_eq_ok_iff, fun a num => ⟨m.slice_eq_ok_iff, fun f => m.slice_eq_error_iff, fun bs h => ?_⟩,
    m.word_eq_bind, fun w => m.write_eq_ok_iff, fun writes a => ⟨fun v hv => ?_, fun hnone => ?_⟩⟩
  · exact ⟨m.length_slice h, fun k hk => m.getElem_slice h hk⟩
  · refine ⟨UInt8.ofInt v, ?_, (isByte_of_lastWritten hv).toNat_ofInt⟩
    rw [read_afterWrites, hv, Option.elim_some]
  · rw [read_afterWrites, hnone, Option.elim_none]

/-- A byte is written, then a value that is none, and one outside the memory; the last byte of the memory is read as a
slice, and no word is there. -/
theorem checked_access_end :
    let m := fresh.afterWrites [⟨4095, 5⟩, ⟨4095, 256⟩, ⟨-1, 7⟩]
    (∃ b, m.read 4095 = .ok b ∧ (b.toNat : Int) = 5) ∧ m.read 4094 = fresh.read 4094 ∧
      (∃ bs, m.slice 4095 1 = .ok bs ∧ bs.length = 1) ∧ m.slice 4095 2 = .error (.outOfRange 4096) := by
  intro m
  obtain ⟨-, -, -, -, hwritten⟩ := checked_access fresh
  obtain ⟨-, hslice, -⟩ := checked_access m
  obtain ⟨bs, hbs⟩ := (hslice 4095 1).1.2 (.inr (by decide))
  refine ⟨?_, ?_, ⟨bs, hbs, ?_⟩, ?_⟩
  · exact (hwritten _ 4095).1 5 (by decide)
  · exact (hwritten _ 4094).2 (by decide)
  · exact Int.ofNat.inj ((hslice 4095 1).2.2 bs hbs).1
  · exact ((hslice 4095 2).2.1 _).2 ⟨by decide, .inr (by decide)⟩

end Memory

end Chip8
