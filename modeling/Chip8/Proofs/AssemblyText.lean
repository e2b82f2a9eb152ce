import Chip8.Instruction.Assembly

/-!
# Assembly text read back

A reader for the text of instructions. It takes a line apart into words, reads each word by itself, and puts an
instruction together from the operation and the operands. Every instruction is read off its own text, so the text
tells instructions apart: operations that share a name differ in their operands, and a byte is written with all of
its digits.

* `write_eq_iff` — what is read back is told apart.
* `Numeral.value_map_toDigits`, `Numeral.integer_padded` — digits have the value that was written.
* `words_append`, `words_intercalate` — the words of a line that was put together.
* `Operand.read_text`, `Instruction.ofParts?_parts` — operands, and instructions, are read off their text.
* `Instruction.ofWords?_words_mnemonic` — **so a line of assembly is read as the instruction it was written for.**
* `Instruction.mnemonic_unambiguous` — so no two instructions share a line.
-/

set_option autoImplicit false

namespace Chip8

/-- What is read back is told apart by what was written. -/
theorem write_eq_iff {α β : Type} {write : α → β} {read : β → Option α} (h : ∀ a, read (write a) = some a) (a b : α) :
    write a = write b ↔ a = b := by
  constructor
  · intro hsame
    have hread := h a
    rw [hsame, h b] at hread
    exact (Option.some.inj hread).symm
  · rintro rfl
    rfl

/-! ## Numerals -/

namespace Numeral

/-- The value of base 16 digits of either case, most significant first. -/
def value (digits : List Char) : Nat := digits.foldl (fun v c => 16 * v + (digitValue? c).getD 0) 0

theorem value_concat (digits : List Char) (c : Char) :
    value (digits ++ [c]) = 16 * value digits + (digitValue? c).getD 0 := by
  simp only [value, List.foldl_append, List.foldl_cons, List.foldl_nil]

/-- Zeros in front do not count. -/
theorem value_leftpad (width : Nat) (digits : List Char) : value (digits.leftpad width '0') = value digits := by
  have hzeros : ∀ k, value (List.replicate k '0' ++ digits) = value digits := by
    intro k
    induction k with
    | zero => rfl
    | succ k ih => exact ih
  exact hzeros _

/-- The digits of a number are those of its part above the lowest digit, and then that one. -/
theorem toDigits_induction {P : Nat → List Char → Prop} (hdigit : ∀ d < 16, P d [Nat.digitChar d])
    (hconcat : ∀ n d digits, d < 16 → P n digits → P (16 * n + d) (digits ++ [Nat.digitChar d])) (n : Nat) :
    P n (Nat.toDigits 16 n) := by
  induction n using Nat.strongRecOn with
  | ind n ih =>
    rcases Nat.lt_or_ge n 16 with h | h
    · rw [Nat.toDigits_of_lt_base h]
      exact hdigit n h
    · have hquotient := hconcat (n / 16) (n % 16) _ (Nat.mod_lt _ (by decide)) (ih (n / 16) (by omega))
      rwa [Nat.div_add_mod, ← Nat.toDigits_of_base_le (by decide) h] at hquotient

/-- **The digits of a number have its value**, in every shape that leaves the value of each digit. -/
theorem value_map_toDigits {shape : Char → Char} (hshape : ∀ d < 16, digitValue? (shape (Nat.digitChar d)) = some d)
    (n : Nat) : value ((Nat.toDigits 16 n).map shape) = n := by
  -- The last digit is the lowest one, and it is also the last that `value` takes in.
  refine toDigits_induction (P := fun n digits => value (digits.map shape) = n) ?_ ?_ n
  · intro d hd
    simp [value, hshape d hd]
  · intro n d digits hd hn
    rw [List.map_append, List.map_singleton, value_concat, hn, hshape d hd, Option.getD_some]

theorem digitValue?_toUpper_digitChar {d : Nat} (h : d < 16) : digitValue? (Nat.digitChar d).toUpper = some d := by
  have all : ∀ i : Fin 16, digitValue? (Nat.digitChar i).toUpper = some i.val := by decide
  exact all ⟨d, h⟩

theorem value_upper (n : Nat) : value (upper n) = n :=
  value_map_toDigits (fun _ hd => digitValue?_toUpper_digitChar hd) n

/-- What holds of all digits holds of every character of a number. -/
theorem of_mem_toDigits {P : Char → Prop} (hdigit : ∀ d < 16, P (Nat.digitChar d)) {n : Nat} {c : Char}
    (h : c ∈ Nat.toDigits 16 n) : P c := by
  suffices hall : ∀ c ∈ Nat.toDigits 16 n, P c from hall c h
  refine toDigits_induction (P := fun _ digits => ∀ c ∈ digits, P c) ?_ ?_ n
  · intro d hd c hc
    rw [List.mem_singleton.1 hc]
    exact hdigit d hd
  · intro n d digits hd hn c hc
    rcases List.mem_append.1 hc with hc | hc
    · exact hn c hc
    · rw [List.mem_singleton.1 hc]
      exact hdigit d hd

/-- A numeral consists of digits. -/
theorem isSome_digitValue?_of_mem_upper {n : Nat} {c : Char} (h : c ∈ upper n) : (digitValue? c).isSome := by
  obtain ⟨d, hd, rfl⟩ := List.mem_map.1 h
  refine of_mem_toDigits (P := fun c => (digitValue? c.toUpper).isSome) (fun d hd => ?_) hd
  rw [digitValue?_toUpper_digitChar hd]
  rfl

theorem notMem_upper {c : Char} (hc : digitValue? c = none) (n : Nat) : c ∉ upper n := by
  intro h
  have hdigit := isSome_digitValue?_of_mem_upper h
  rw [hc] at hdigit
  cases hdigit

theorem notMem_leftpad_upper {c : Char} (hc : digitValue? c = none) (width n : Nat) :
    c ∉ (upper n).leftpad width '0' := by
  intro h
  rcases List.mem_append.1 h with h | h
  · rw [List.eq_of_mem_replicate h] at hc
    cases hc
  · exact notMem_upper hc n h

/-- A padded numeral consists of digits and perhaps a sign. -/
theorem notMem_padded {c : Char} (hc : digitValue? c = none) (hsign : c ≠ '-') (width : Nat) (v : Int) :
    c ∉ padded width v := by
  cases v with
  | ofNat n => exact notMem_leftpad_upper hc width n
  | negSucc n => exact List.not_mem_cons_of_ne_of_not_mem hsign (notMem_leftpad_upper hc (width - 1) (n + 1))

/-- The integer that digits with or without a minus sign write. -/
def integer : List Char → Int
  | '-' :: digits => -(value digits : Int)
  | digits => value digits

theorem integer_of_notMem {digits : List Char} (h : '-' ∉ digits) : integer digits = value digits := by
  unfold integer
  split
  · exact absurd List.mem_cons_self h
  · rfl

/-- **A padded numeral is read as the integer it was written for**, whatever its width. -/
theorem integer_padded (width : Nat) (v : Int) : integer (padded width v) = v := by
  cases v with
  | ofNat n =>
    rw [padded, integer_of_notMem (notMem_leftpad_upper rfl width n), value_leftpad, value_upper]
    rfl
  | negSucc n =>
    rw [padded, integer, value_leftpad, value_upper]
    rfl

theorem eq_of_padded_eq {width width' : Nat} {v v' : Int} (h : padded width v = padded width' v') : v = v' := by
  rw [← integer_padded width v, h, integer_padded]

theorem toList_marked (width : Nat) (v : Int) : (marked width v).toList = '0' :: 'x' :: padded width v :=
  String.toList_ofList

/-- **Integers are told apart by their numerals**, whether these are filled up, longer than their width or signed. -/
theorem marked_eq_iff (width : Nat) (v v' : Int) : marked width v = marked width v' ↔ v = v' := by
  constructor
  · intro h
    have hlist := congrArg String.toList h
    simp only [toList_marked, List.cons.injEq, true_and] at hlist
    exact eq_of_padded_eq hlist
  · rintro rfl
    rfl

end Numeral

/-! ## Words -/

/-- The words of a line: they are separated by spaces, and commas do not count. -/
def words (line : String) : List (List Char) := (line.toList.filter (· != ',')).splitOn ' '

/-- A text is one word. -/
def IsWord (text : String) : Prop := ',' ∉ text.toList ∧ ' ' ∉ text.toList

instance (text : String) : Decidable (IsWord text) := inferInstanceAs (Decidable (_ ∧ _))

namespace IsWord

variable {text : String}

theorem filter_eq (h : IsWord text) : text.toList.filter (· != ',') = text.toList := by
  rw [List.filter_eq_self]
  intro c hc
  exact bne_iff_ne.2 fun hcomma => h.1 (hcomma ▸ hc)

theorem words_eq (h : IsWord text) : words text = [text.toList] := by
  rw [words, h.filter_eq, List.splitOn_eq_singleton h.2]

/-- A word and what comes after a space. -/
theorem words_append (h : IsWord text) (line : String) : words (text ++ " " ++ line) = text.toList :: words line := by
  have hspace : (" " : String).toList = [' '] := rfl
  rw [words, String.toList_append, String.toList_append, hspace, List.filter_append, List.filter_append, h.filter_eq,
    List.append_assoc]
  exact List.splitOn_append_cons_self_of_not_mem h.2 _

end IsWord

theorem isWord_marked (width : Nat) (v : Int) : IsWord (Numeral.marked width v) := by
  have hcomma := Numeral.notMem_padded (c := ',') rfl (by decide) width v
  have hspace := Numeral.notMem_padded (c := ' ') rfl (by decide) width v
  simp [IsWord, Numeral.toList_marked, hcomma, hspace]

/-- Words that are joined by commas. -/
theorem words_intercalate {text : String} {texts : List String} (h : ∀ t ∈ text :: texts, IsWord t) :
    words (", ".intercalate (text :: texts)) = (text :: texts).map String.toList := by
  induction texts generalizing text with
  | nil => exact (h text List.mem_cons_self).words_eq
  | cons next texts ih =>
    have hcomma : ∀ line, words (text ++ ", " ++ line) = words (text ++ " " ++ line) := by
      intro line
      simp [words]
    rw [String.intercalate_cons_cons, hcomma, (h text List.mem_cons_self).words_append,
      ih fun t ht => h t (List.mem_cons_of_mem _ ht)]
    rfl

/-! ## Operands -/

namespace Operand

/-- An operand as it is read: nothing in its text tells an address from a byte. -/
def asRead : Operand → Operand
  | .address a => .byte a.val
  | o => o

/-- The operand with a text. -/
def read : List Char → Operand
  | 'V' :: digits => .register (Nibble.ofInt (Numeral.value digits))
  | '0' :: 'x' :: digits => .byte (Numeral.integer digits)
  | ['I'] => .index
  | ['[', 'I', ']'] => .atIndex
  | ['D', 'T'] => .delay
  | ['S', 'T'] => .sound
  | ['K'] => .key
  | ['F'] => .font
  | ['B'] => .decimal
  -- A count stands without a mark, and no two digits are `0x`.
  | digits => .count (Nibble.ofInt (Nat.ofDigitChars 10 digits 0))

/-- **An operand is read off its text.** -/
theorem read_text (o : Operand) : read o.text.toList = o.asRead := by
  cases o with
  | register r =>
    have hr := Nibble.val_ofInt r.val
    rw [text, Register.name, String.toList_ofList, read, Numeral.value_upper]
    exact congrArg register (Fin.ext (by omega))
  | address a =>
    rw [text, Address.text, Numeral.toList_marked, read, Numeral.integer_padded]
    rfl
  | byte b =>
    rw [text, Numeral.toList_marked, read, Numeral.integer_padded]
    rfl
  | count n => revert n; decide
  | _ => rfl

theorem isWord_text (o : Operand) : IsWord o.text := by
  cases o with
  | register r =>
    have hcomma := Numeral.notMem_upper (c := ',') rfl r.val
    have hspace := Numeral.notMem_upper (c := ' ') rfl r.val
    simp [IsWord, text, Register.name, hcomma, hspace]
  | address a => exact isWord_marked 3 a.val
  | byte b => exact isWord_marked 2 b
  | count n => revert n; decide
  | _ => decide

end Operand

/-! ## Instructions -/

/-- The operation of two registers with a name. -/
def Arith.ofOperation? : String → Option Arith
  | "LD" => some .copy
  | "OR" => some .or
  | "AND" => some .and
  | "XOR" => some .xor
  | "ADD" => some .add
  | "SUB" => some .sub
  | "SHR" => some .shr
  | "SUBN" => some .subn
  | "SHL" => some .shl
  | _ => none

namespace Instruction

/-- The instruction with an operation and operands, as these are read. Where it has an address, a number is one. -/
def ofParts? : String → List Operand → Option Instruction
  | "SYS", [.byte a] => some (.sys (.ofInt a))
  | "CLS", [] => some .clear
  | "RET", [] => some .ret
  | "JP", [.byte a] => some (.jump (.ofInt a))
  | "JP", [.register _, .byte a] => some (.jumpOffset (.ofInt a))
  | "CALL", [.byte a] => some (.call (.ofInt a))
  | "SE", [.register x, .byte b] => some (.skipIfByte x b)
  | "SE", [.register x, .register y] => some (.skipIfEqual x y)
  | "SNE", [.register x, .byte b] => some (.skipUnlessByte x b)
  | "SNE", [.register x, .register y] => some (.skipUnlessEqual x y)
  | "LD", [.register x, .byte b] => some (.setByte x b)
  | "LD", [.index, .byte a] => some (.setIndex (.ofInt a))
  | "LD", [.register x, .delay] => some (.readDelay x)
  | "LD", [.register x, .key] => some (.awaitKey x)
  | "LD", [.delay, .register x] => some (.setDelay x)
  | "LD", [.sound, .register x] => some (.setSound x)
  | "LD", [.font, .register x] => some (.pointDigit x)
  | "LD", [.decimal, .register x] => some (.storeDecimal x)
  | "LD", [.atIndex, .register x] => some (.storeRegisters x)
  | "LD", [.register x, .atIndex] => some (.loadRegisters x)
  | "ADD", [.register x, .byte b] => some (.addByte x b)
  | "ADD", [.index, .register x] => some (.addIndex x)
  | "RND", [.register x, .byte b] => some (.random x b)
  | "DRW", [.register x, .register y, .count n] => some (.draw x y n)
  | "SKP", [.register x] => some (.skipIfKey x)
  | "SKNP", [.register x] => some (.skipUnlessKey x)
  -- Two registers that are not compared are combined.
  | operation, [.register x, .register y] => (Arith.ofOperation? operation).map fun op => .arith op x y
  | _, _ => none

theorem ofParts?_parts (i : Instruction) : ofParts? i.operation (i.operands.map Operand.asRead) = some i := by
  have haddress : ∀ a : Address, Address.ofInt (a.val : Int) = a := by
    intro a
    have ha := Address.val_ofInt a.val
    exact Fin.ext (by omega)
  cases i with
  | sys a => exact congrArg (fun a => some (sys a)) (haddress a)
  | jump a => exact congrArg (fun a => some (jump a)) (haddress a)
  | call a => exact congrArg (fun a => some (call a)) (haddress a)
  | setIndex a => exact congrArg (fun a => some (setIndex a)) (haddress a)
  | jumpOffset a => exact congrArg (fun a => some (jumpOffset a)) (haddress a)
  | arith op x y => cases op <;> rfl
  | _ => rfl

/-- The instruction that the words of a line write. -/
def ofWords? : List (List Char) → Option Instruction
  | [] => none
  | operation :: operands => ofParts? (String.ofList operation) (operands.map Operand.read)

theorem isWord_operation (i : Instruction) : IsWord i.operation := by
  cases i with
  | arith op x y =>
    have hall : ∀ op : Arith, IsWord op.operation := fun op => by cases op <;> decide
    exact hall op
  | _ =>
    dsimp only [operation]
    decide

/-- The words of an instruction's text are its operation and its operands. -/
theorem words_mnemonic (i : Instruction) :
    words i.mnemonic = i.operation.toList :: i.operands.map fun o => o.text.toList := by
  unfold mnemonic
  cases i.operands with
  | nil => exact i.isWord_operation.words_eq
  | cons o os =>
    have hwords : ∀ t ∈ o.text :: os.map Operand.text, IsWord t := by
      rw [← List.map_cons, List.forall_mem_map]
      exact fun o _ => o.isWord_text
    dsimp only
    rw [i.isWord_operation.words_append, List.map_cons, words_intercalate hwords]
    simp only [List.map_cons, List.map_map, Function.comp_def]

/-- **The text of an instruction is read as the instruction**, with all digits of its byte. -/
theorem ofWords?_words_mnemonic (i : Instruction) : ofWords? (words i.mnemonic) = some i := by
  have hread : (fun o : Operand => Operand.read o.text.toList) = Operand.asRead := funext Operand.read_text
  rw [words_mnemonic, ofWords?, String.ofList_toList, List.map_map, Function.comp_def, hread, ofParts?_parts]

/-- The words of a line belong to one instruction. -/
theorem eq_of_words_eq {i j : Instruction} (h : words i.mnemonic = words j.mnemonic) : i = j :=
  (write_eq_iff ofWords?_words_mnemonic i j).1 h

/-- **Assembly text is unambiguous.** Two instructions have the same text exactly if they are the same, with the same
operands. Where operations share a name, the texts of the operands tell them apart; and two bytes have the same text
exactly if they are the same integer, of any size and sign. -/
theorem mnemonic_unambiguous :
    (∀ i j : Instruction, i.mnemonic = j.mnemonic ↔ i = j) ∧
    (∀ i j : Instruction,
      i.operation = j.operation ∧ i.operands.map Operand.text = j.operands.map Operand.text ↔ i = j) ∧
    ∀ b c : Int, (Operand.byte b).text = (Operand.byte c).text ↔ b = c := by
  refine ⟨fun i j => ?_, fun i j => ?_, Numeral.marked_eq_iff 2⟩
  · constructor
    · intro h
      exact eq_of_words_eq (congrArg words h)
    · rintro rfl
      rfl
  · constructor
    · rintro ⟨hoperation, htexts⟩
      have hchars := congrArg (List.map String.toList) htexts
      simp only [List.map_map, Function.comp_def] at hchars
      exact eq_of_words_eq (by rw [words_mnemonic, words_mnemonic, hoperation, hchars])
    · rintro rfl
      exact ⟨rfl, rfl⟩

/-- A byte goes to register VF, a digit's picture is pointed at, and a byte is below zero. -/
example : (setByte 0xF 0x2A).mnemonic = "LD VF, 0x2A" ∧ (pointDigit 0).mnemonic = "LD F, V0" ∧
    (setByte 0xF (-1)).mnemonic = "LD VF, 0x-1" := by decide

end Instruction

end Chip8
