import Chip8.Error

/-!
# Bounded numbers

The small numbers that instructions speak of: registers, keys, nibbles and addresses. An integer becomes one
either by keeping its low bits (`ofInt`) or by a check (`checked`).

* `below_iff` — the check is the two inequalities.
* `val_ofInt` — an address or nibble is the integer modulo the size of its range.
* `checked_natCast` — every bounded number passes its own check.
-/

set_option autoImplicit false

namespace Chip8

/-- Whether an integer is a natural number under a bound. -/
def below (bound : Nat) : Int → Bool
  | .ofNat n => decide (n < bound)
  | .negSucc _ => false

theorem below_iff {bound : Nat} {v : Int} : below bound v = true ↔ 0 ≤ v ∧ v < bound := by
  cases v with
  | ofNat n =>
    simp only [below, decide_eq_true_eq, Int.ofNat_eq_natCast]
    omega
  | negSucc n =>
    simp only [below, Bool.false_eq_true, false_iff]
    omega

theorem toNat_lt_of_below {bound : Nat} {v : Int} (h : below bound v = true) : v.toNat < bound := by
  have := below_iff.1 h
  omega

theorem below_natCast {bound : Nat} (n : Fin bound) : below bound (n.val : Int) = true :=
  decide_eq_true n.isLt

/-! ## Bytes -/

theorem below_byte (b : UInt8) : below 256 (b.toNat : Int) = true :=
  below_natCast ⟨b.toNat, b.toNat_lt⟩

/-- The byte of an integer is what its low eight bits write. -/
theorem toNat_ofInt (v : Int) : (UInt8.ofInt v).toNat = (v % 256).toNat := by
  rw [UInt8.ofInt, UInt8.toNat_ofNat']
  omega

/-- A byte is the low eight bits of its own number. -/
theorem ofInt_toNat (b : UInt8) : UInt8.ofInt (b.toNat : Int) = b := by
  have hb := b.toNat_lt
  have hmod : ((b.toNat : Int) % 2 ^ 8).toNat = b.toNat := by omega
  rw [UInt8.ofInt, hmod]
  simp

/-- Numerals stand for numbers of four bits. -/
instance sixteenNeZero : @NeZero Nat Zero.ofOfNat0 16 := ⟨by decide⟩

/-- A number of four bits. -/
abbrev Nibble := Fin 16

/-- One of the general registers V0 to VF. -/
abbrev Register := Fin 16

/-- One of the keys 0 to F. -/
abbrev Key := Fin 16

/-- A place in memory, a number of twelve bits. -/
abbrev Address := Fin 4096

/-! ## Nibbles -/

namespace Nibble

/-- The low four bits of an integer in two's complement. -/
def ofInt (v : Int) : Nibble := ⟨(v % 16).toNat, by omega⟩

theorem val_ofInt (v : Int) : ((ofInt v).val : Int) = v % 16 := by
  simp only [ofInt]; omega

def label (n : Nibble) : String := "Nibble(" ++ Numeral.marked 1 n.val ++ ")"

end Nibble

/-! ## Addresses -/

namespace Address

/-- The low twelve bits of an integer in two's complement. -/
def ofInt (v : Int) : Address := ⟨(v % 4096).toNat, by omega⟩

/-- The integer as an address, if it is one. -/
def checked (v : Int) : Except Fault Address :=
  if h : below 4096 v then .ok ⟨v.toNat, toNat_lt_of_below h⟩ else .error (.outOfRange v)

theorem val_ofInt (v : Int) : ((ofInt v).val : Int) = v % 4096 := by
  simp only [ofInt]; omega

theorem checked_natCast (a : Address) : checked (a.val : Int) = .ok a := by
  rw [checked, dif_pos (below_natCast a)]
  rfl

theorem checked_of_le {n : Nat} (h : 4096 ≤ n) : checked (n : Int) = .error (.outOfRange n) :=
  dif_neg (by rw [below_iff]; omega)

/-- An address in assembly text: three digits. -/
def text (a : Address) : String := Numeral.marked 3 a.val

def label (a : Address) : String := "Addr(" ++ a.text ++ ")"

end Address

/-! ## Registers -/

namespace Register

/-- The register that receives carries, borrows and collisions. -/
def flag : Register := 15

/-- The register of this number, if there is one. -/
def checked (v : Int) : Except Fault Register :=
  if h : below 16 v then .ok ⟨v.toNat, toNat_lt_of_below h⟩ else .error (.invalidRegister v)

theorem checked_natCast (r : Register) : checked (r.val : Int) = .ok r := by
  rw [checked, dif_pos (below_natCast r)]
  rfl

/-- A register's name, V0 to VF. -/
def name (r : Register) : String := String.ofList ('V' :: Numeral.upper r.val)

/-- The registers from V0 up to and including this one. -/
def upTo (r : Register) : List Register := (List.finRange 16).take (r.val + 1)

@[simp] theorem length_upTo (r : Register) : (upTo r).length = r.val + 1 := by
  have := r.isLt
  rw [upTo, List.length_take, List.length_finRange]
  omega

theorem le_of_mem_upTo {r x : Register} (h : r ∈ upTo x) : r ≤ x := by
  obtain ⟨i, hi, hr⟩ := List.mem_take_iff_getElem.1 h
  rw [List.getElem_finRange] at hr
  rw [← hr, Fin.le_def, Fin.val_cast]
  show i ≤ x.val
  omega

theorem mem_upTo_iff {r x : Register} : r ∈ upTo x ↔ r ≤ x := by
  refine ⟨le_of_mem_upTo, fun h => List.mem_take_iff_getElem.2 ⟨r.val, ?_, ?_⟩⟩
  · rw [List.length_finRange, Nat.lt_min]
    exact ⟨Nat.lt_succ_of_le h, r.isLt⟩
  · rw [List.getElem_finRange]
    rfl

/-- The registers stand in the order of their numbers. -/
theorem getElem_upTo {x : Register} {k : Nat} (hk : k < (upTo x).length) : ((upTo x)[k]).val = k := by
  simp [upTo]

end Register

/-! ## Keys -/

namespace Key

/-- The key of this number, if there is one. -/
def checked (v : Int) : Except Fault Key :=
  if h : below 16 v then .ok ⟨v.toNat, toNat_lt_of_below h⟩ else .error (.invalidKey v)

theorem checked_natCast (k : Key) : checked (k.val : Int) = .ok k := by
  rw [checked, dif_pos (below_natCast k)]
  rfl

theorem checked_of_lt {n : Nat} (h : 15 < n) : checked (n : Int) = .error (.invalidKey n) :=
  dif_neg (by rw [below_iff]; omega)

def all : List Key := List.finRange 16

/-- The digit printed on a key. -/
def digit (k : Key) : String := String.ofList (Numeral.upper k.val)

def label (k : Key) : String := "KEY_" ++ k.digit

/-- The key of the host's keyboard that stands for a key. -/
def hostName (k : Key) : String := String.ofList (Numeral.lower k.val)

end Key

end Chip8
