import Chip8.Proofs.OpcodeTable

/-!
# Reading and writing words

The word of an instruction is read as that instruction again, and an integer that is read as an instruction is,
in its low sixteen bits, the word of what was read. Two things are lost on the way. A byte operand is cut down
to its low eight bits; and two calls to the host machine have the words of instructions of their own.

* `ofOpcode?_opcode` — the digits of an instruction are read as it.
* `decode_encode` — likewise its word, so words tell instructions apart.
* `decode_eq_ok_iff`, `decode_eq_error_iff` — when an integer is read as an instruction, and how it is refused.
* `decode_table` — an integer is read exactly if its low sixteen bits are in the opcode table, and they are
  written again.
-/

set_option autoImplicit false

namespace Chip8

/-! ## Fields -/

namespace Opcode

theorem val_address_ofAddress (op : Nibble) (a : Int) : ((ofAddress op a).address.val : Int) = a % 4096 := by
  have h0 := val_hexDigitAt a 0
  have h1 := val_hexDigitAt a 1
  have h2 := val_hexDigitAt a 2
  simp only [Nat.reduceMul, Nat.pow_eq, Nat.reducePow] at h0 h1 h2
  simp only [ofAddress, address]
  omega

theorem address_ofAddress (op : Nibble) (a : Address) : (ofAddress op a.val).address = a := by
  have haddress := val_address_ofAddress op a.val
  exact Fin.ext (by omega)

theorem byte_ofByte (op x : Nibble) (b : Int) : ((ofByte op x b).byte : Int) = b % 256 := by
  have h0 := val_hexDigitAt b 0
  have h1 := val_hexDigitAt b 1
  simp only [Nat.reduceMul, Nat.pow_eq, Nat.reducePow] at h0 h1
  simp only [ofByte, byte]
  omega

theorem word_inj {o p : Opcode} : o.word = p.word ↔ o = p := by
  constructor
  · intro h
    rw [← ofInt_word o, h, ofInt_word]
  · exact congrArg word

/-- Two integers have the same digits exactly if their low sixteen bits agree. -/
theorem ofInt_eq_iff {b c : Int} : ofInt b = ofInt c ↔ b % 65536 = c % 65536 := by
  rw [← word_ofInt b, ← word_ofInt c, Int.ofNat_inj, word_inj]

end Opcode

namespace Instruction

/-! ## Reading what was written -/

/-- The instruction with only the low eight bits of its byte. -/
def trimmed : Instruction → Instruction
  | .skipIfByte x b => .skipIfByte x (b % 256)
  | .skipUnlessByte x b => .skipUnlessByte x (b % 256)
  | .setByte x b => .setByte x (b % 256)
  | .addByte x b => .addByte x (b % 256)
  | .random x b => .random x (b % 256)
  | i => i

theorem trimmed_of_coded {i : Instruction} (h : i.Coded) : i.trimmed = i := by
  cases i with
  | skipIfByte x b | skipUnlessByte x b | setByte x b | addByte x b | random x b =>
    rw [trimmed, Int.emod_eq_of_lt h.1 h.2]
  | _ => rfl

/-- The digits of a call to the host machine are read as one, but for two addresses. -/
theorem ofOpcode?_opcode_sys {a : Address} (hclear : a ≠ 0x0E0) (hret : a ≠ 0x0EE) :
    ofOpcode? (Instruction.sys a).opcode = some (.sys a) := by
  have haddress : (Instruction.sys a).opcode.address = a := Opcode.address_ofAddress 0x0 a
  have hop : (Instruction.sys a).opcode.op = 0x0 := rfl
  have hclear' : ¬ a.val = 0x0E0 := fun h => hclear (Fin.ext h)
  have hret' : ¬ a.val = 0x0EE := fun h => hret (Fin.ext h)
  simp only [ofOpcode?, hop, haddress, if_neg hclear', if_neg hret']

/-- **The digits of an instruction are read as it**, but for the two calls to the host machine that have the
digits of another instruction. -/
theorem ofOpcode?_opcode {i : Instruction} (hclear : i ≠ .sys 0x0E0) (hret : i ≠ .sys 0x0EE) :
    ofOpcode? i.opcode = some i.trimmed := by
  cases i with
  | sys a =>
    exact ofOpcode?_opcode_sys (fun h => hclear (congrArg _ h)) (fun h => hret (congrArg _ h))
  | jump a => exact congrArg (fun a => some (jump a)) (Opcode.address_ofAddress 0x1 a)
  | call a => exact congrArg (fun a => some (call a)) (Opcode.address_ofAddress 0x2 a)
  | setIndex a => exact congrArg (fun a => some (setIndex a)) (Opcode.address_ofAddress 0xA a)
  | jumpOffset a => exact congrArg (fun a => some (jumpOffset a)) (Opcode.address_ofAddress 0xB a)
  | skipIfByte x b | skipUnlessByte x b | setByte x b | addByte x b | random x b =>
    rw [trimmed, ← Opcode.byte_ofByte]
    rfl
  | arith op x y =>
    rw [opcode, Opcode.ofRegisters_natCast]
    simp [ofOpcode?, trimmed]
  | draw x y n => rw [opcode, Opcode.ofRegisters_natCast]; rfl
  | _ => rfl

theorem ofInt_encode (i : Instruction) : Opcode.ofInt i.encode = i.opcode := Opcode.ofInt_word i.opcode

/-! ## Reading integers -/

theorem decode_eq_ok_iff {b : Int} {i : Instruction} :
    decode b = .ok i ↔ ofOpcode? (.ofInt b) = some i := by
  rw [decode_eq]
  cases ofOpcode? (.ofInt b) <;> simp

/-- An integer is refused for its low sixteen bits, and only as unknown. -/
theorem decode_eq_error_iff {b : Int} {f : Fault} :
    decode b = .error f ↔
      ¬ (Opcode.ofInt b).Listed ∧ f = .unknownInstruction (Opcode.ofInt b).word := by
  rw [← ofOpcode?_isSome_iff_listed]
  rw [decode_eq]
  cases ofOpcode? (.ofInt b) <;> simp [eq_comm]

/-- Only the low sixteen bits count. -/
theorem decode_congr {b c : Int} (h : b % 65536 = c % 65536) : decode b = decode c := by
  rw [decode_eq, decode_eq, Opcode.ofInt_eq_iff.2 h]

/-- What was read is written as the low sixteen bits. -/
theorem encode_of_decode {b : Int} {i : Instruction} (h : decode b = .ok i) :
    i.encode = (Opcode.ofInt b).word := by
  rw [encode, opcode_of_ofOpcode? (decode_eq_ok_iff.1 h)]

/-- What was read is read again off its word. -/
theorem decode_encode_of_decode {b : Int} {i : Instruction} (h : decode b = .ok i) :
    decode i.encode = .ok i := by
  have hsame : (i.encode : Int) % 65536 = b % 65536 := by
    rw [encode_of_decode h, Opcode.word_ofInt, Int.emod_emod]
  rw [decode_congr hsame, h]

/-- The word of an instruction is read as it, but for the two calls to the host machine that have the word of
another instruction. -/
theorem decode_encode_of_ne {i : Instruction} (hclear : i ≠ .sys 0x0E0) (hret : i ≠ .sys 0x0EE) :
    decode i.encode = .ok i.trimmed := by
  rw [decode_eq_ok_iff, ofInt_encode]
  exact ofOpcode?_opcode hclear hret

/-- A call to the host machine that has the word of another instruction. -/
inductive Shadowed : Instruction → Instruction → Prop where
  | clear : Shadowed (.sys 0x0E0) .clear
  | ret : Shadowed (.sys 0x0EE) .ret

theorem encode_of_shadowed {i j : Instruction} (h : Shadowed i j) : i.encode = j.encode := by
  cases h <;> rfl

theorem decode_of_shadowed {i j : Instruction} (h : Shadowed i j) : decode i.encode = .ok j := by
  cases h <;> rfl

/-- An instruction whose byte is one is read as itself, or is shadowed by what its word is read as. -/
theorem decode_encode_of_coded {i : Instruction} (h : i.Coded) :
    decode i.encode = .ok i ∨ ∃ j, Shadowed i j ∧ decode i.encode = .ok j := by
  by_cases hclear : i = .sys 0x0E0
  · exact .inr ⟨.clear, hclear ▸ .clear, hclear ▸ decode_of_shadowed .clear⟩
  · by_cases hret : i = .sys 0x0EE
    · exact .inr ⟨.ret, hret ▸ .ret, hret ▸ decode_of_shadowed .ret⟩
    · refine .inl ?_
      rw [decode_encode_of_ne hclear hret, trimmed_of_coded h]

/-- What shadows an instruction shadows no other. -/
theorem shadowed_left_unique {i j k : Instruction} (hi : Shadowed i k) (hj : Shadowed j k) : i = j := by
  cases hi <;> cases hj <;> rfl

/-- Instructions whose bytes are bytes have the same word only if they are the same, or one shadows the
other. -/
theorem eq_or_shadowed_of_encode_eq {i j : Instruction} (hi : i.Coded) (hj : j.Coded)
    (h : i.encode = j.encode) : i = j ∨ Shadowed i j ∨ Shadowed j i := by
  rcases decode_encode_of_coded hi with hdi | ⟨k, hik, hdi⟩ <;>
    rcases decode_encode_of_coded hj with hdj | ⟨l, hjl, hdj⟩ <;> rw [h, hdj] at hdi <;> cases hdi
  · exact .inl rfl
  · exact .inr (.inr hjl)
  · exact .inr (.inl hik)
  · exact .inl (shadowed_left_unique hik hjl)

/-- **Reading undoes writing.** The word of every instruction has sixteen bits and is read as that instruction,
with its byte cut down to eight bits. The only exceptions are the two calls to the host machine whose words are
those of other instructions. So instructions whose bytes are bytes have the same word only if they are the same,
or are one of these two pairs. -/
theorem decode_encode (i : Instruction) :
    i.encode < 65536 ∧
    (i ≠ .sys 0x0E0 → i ≠ .sys 0x0EE → decode i.encode = .ok i.trimmed) ∧
    decode (encode (.sys 0x0E0)) = .ok .clear ∧ decode (encode (.sys 0x0EE)) = .ok .ret ∧
    ∀ j : Instruction, i.Coded → j.Coded →
      (i.encode = j.encode ↔ i = j ∨ Shadowed i j ∨ Shadowed j i) := by
  refine ⟨i.opcode.word_lt, decode_encode_of_ne, decode_of_shadowed .clear, decode_of_shadowed .ret, ?_⟩
  intro j hi hj
  constructor
  · exact eq_or_shadowed_of_encode_eq hi hj
  · rintro (rfl | h | h)
    · rfl
    · exact encode_of_shadowed h
    · exact (encode_of_shadowed h).symm

/-- A negative byte of more than eight bits, and a call to the host machine that is shadowed. -/
theorem decode_encode_negative :
    decode (encode (.setByte 3 (-257))) = .ok (.setByte 3 255) ∧
      encode (.sys 0x0EE) = encode .ret := by
  constructor
  · exact (decode_encode (.setByte 3 (-257))).2.1 (by decide) (by decide)
  · exact ((decode_encode (.sys 0x0EE)).2.2.2.2 .ret trivial trivial).2 (.inr (.inl .ret))

/-- **Reading accepts the opcode table and loses nothing.** Only the low sixteen bits of an integer count. If
their digits are in the table, the integer is read as an instruction, whose word they are, and which no other
sixteen bits are read as. Otherwise it is refused as unknown, with the sixteen bits, and with nothing else. -/
theorem decode_table (b : Int) :
    decode b = decode (b % 65536) ∧
    ∃ o : Opcode, (o.word : Int) = b % 65536 ∧
      ((∃ i, decode b = .ok i) ↔ o.Listed) ∧
      (∀ f, decode b = .error f ↔ ¬ o.Listed ∧ f = .unknownInstruction o.word) ∧
      (∀ i, decode b = .ok i → i.encode = o.word) ∧
      ∀ i c, decode b = .ok i → (decode c = .ok i ↔ c % 65536 = b % 65536) := by
  refine ⟨decode_congr (by omega), .ofInt b, Opcode.word_ofInt b, ?_, ?_, ?_, ?_⟩
  · rw [← ofOpcode?_isSome_iff_listed, Option.isSome_iff_exists]
    exact exists_congr fun i => decode_eq_ok_iff
  · exact fun f => decode_eq_error_iff
  · exact fun i h => encode_of_decode h
  · intro i c h
    constructor
    · intro hc
      rw [← Opcode.ofInt_eq_iff, ← Opcode.word_inj, ← encode_of_decode hc, encode_of_decode h]
    · intro hmod
      rw [decode_congr hmod, h]

/-- A negative integer that is read as a return, as is another with the same low sixteen bits, and one whose low
sixteen bits are in no row. -/
theorem decode_table_negative :
    decode (-65298 + 65536 * 7) = .ok .ret ∧
      ∃ o : Opcode, (o.word : Int) = 0xFFFF ∧ ¬ o.Listed := by
  constructor
  · obtain ⟨-, -, -, -, -, -, hsame⟩ := decode_table (-65298)
    exact (hsame .ret (-65298 + 65536 * 7) rfl).2 (by decide)
  · obtain ⟨-, o, hword, -, herror, -⟩ := decode_table (-1)
    exact ⟨o, hword, ((herror (.unknownInstruction 0xFFFF)).1 rfl).1⟩

end Instruction

end Chip8
