/-!
# Random bytes

An endless row of bytes that a seed determines. Every byte is computed from its place alone, by spreading the
place over 64 bits and mixing them.
-/

set_option autoImplicit false

namespace Chip8

/-- Mix the bits of a word, so that neighbouring words come out unrelated. -/
def mixed (z : UInt64) : UInt64 :=
  let a := (z ^^^ (z >>> 30)) * 0xBF58476D1CE4E5B9
  let b := (a ^^^ (a >>> 27)) * 0x94D049BB133111EB
  b ^^^ (b >>> 31)

/-- The byte at a place of the row of a seed. -/
def randomByte (seed : UInt64) (place : Nat) : Int :=
  ((mixed (seed + UInt64.ofNat (place + 1) * 0x9E3779B97F4A7C15)).toNat % 256 : Nat)

end Chip8
